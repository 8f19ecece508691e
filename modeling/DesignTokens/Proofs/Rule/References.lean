/-
# DesignTokens.Proofs.Rule.References -- references in the parts of composite values

A reference is not resolved, so the rules for the parts of a composite value have nothing to say about one.
A part that gives way to a reference leaves the required properties where they were (`Shape.missing_put`) and
changes nothing that is found in the other parts (`noErrors_property_put`), or in the other items of a list
(`noErrors_shadowLayers_iff`, `noErrors_gradientStops_iff`).

One part makes an exception.  The stops of a gradient are asked for being a list that is not empty, and are
not looked at for a reference before; of all the parts of composite values these stops alone cannot be one
(`accepts_replace_iff`).
-/
import DesignTokens.Proofs.Json.Members
import DesignTokens.Proofs.Rule.Kinds

namespace DesignTokens

set_option autoImplicit false

/-! ## Parts -/

/-- A part of a composite value: a member of an object or an item of a list. -/
inductive Part where
  | member (key : String)
  | item (index : Nat)
  deriving DecidableEq, Repr

/-- The value with another in the place of a part; `none` if it has no such part. -/
def Json.replace? (value : Json) (part : Part) (new : Json) : Option Json :=
  match value, part with
  | .obj ms, .member key => if Members.has ms key then some (.obj (Members.put ms key new)) else none
  | .arr items, .item index => if index < items.length then some (.arr (items.set index new)) else none
  | _, _ => none

/-- The types whose values are built from other values. -/
def TokenType.composites : List TokenType :=
  [.typography, .shadow, .gradient, .border, .transition]

namespace Rule

/-! ## Findings without errors -/

/-- Nothing that was found is an error. -/
def NoErrors (found : List Diagnostic) : Prop :=
  ∀ d ∈ found, d.isError = false

theorem noErrors_nil : NoErrors [] :=
  nofun

theorem noErrors_append_iff {a b : List Diagnostic} : NoErrors (a ++ b) ↔ NoErrors a ∧ NoErrors b :=
  List.forall_mem_append

theorem noErrors_flatten_iff {found : List (List Diagnostic)} :
    NoErrors found.flatten ↔ ∀ part ∈ found, NoErrors part := by
  simp only [NoErrors, List.mem_flatten]
  exact ⟨fun fine part mem d inPart => fine d ⟨part, mem, inPart⟩,
    fun fine d ⟨part, mem, inPart⟩ => fine part mem d inPart⟩

theorem not_noErrors_singleton {d : Diagnostic} (isError : d.isError = true) : ¬ NoErrors [d] := by
  intro fine
  rw [fine d (.head _)] at isError
  cases isError

/-! ## References -/

section Reference

variable {reference : Json} (isAlias : reference.isAlias = true)
include isAlias

theorem unlessAlias_of_isAlias (found : List Diagnostic) : unlessAlias reference found = [] :=
  if_pos isAlias

theorem timing_of_isAlias (path : String) : timing reference path = [] := by
  cases reference with
  | str s =>
      have isTiming : isTiming (.str s) = true := by simp [Rule.isTiming, isAlias]
      rw [timing, if_pos isTiming]
  | _ => cases isAlias

theorem shadow_of_isAlias (path : String) : shadow path reference = [] := by
  cases reference with
  | str s => exact unlessAlias_of_isAlias isAlias _
  | _ => cases isAlias

/-- A list of stops cannot be a reference. -/
theorem not_noErrors_gradientStops (path : String) : ¬ NoErrors (gradientStops reference path) := by
  cases reference with
  | str s => exact not_noErrors_singleton rfl
  | _ => cases isAlias

end Reference

/-! ## Objects -/

theorem Shape.noErrors_object_iff (s : Shape) (ms : Members) (path : String) (parts : List Diagnostic) :
    NoErrors (s.object ms path parts) ↔ s.missing ms = [] ∧ NoErrors parts := by
  unfold Shape.object
  split
  · rename_i complete
    exact (and_iff_right (List.isEmpty_iff.1 complete)).symm
  · rename_i incomplete
    exact iff_of_false (not_noErrors_singleton rfl) fun both => incomplete (List.isEmpty_iff.2 both.1)

section Put

variable {ms : Members} {key : String} (new : Json)

/-- A property that gets another value is still there. -/
theorem Shape.missing_put (s : Shape) (has : ms.has key = true) : s.missing (ms.put key new) = s.missing ms := by
  have keys := Members.keys_put_of_mem new ((Members.has_iff_mem_keys ms key).1 has)
  unfold Shape.missing
  refine List.filter_congr fun name _ => ?_
  rw [Members.has_congr keys]

theorem property_put_of_ne (path : String) {name : String} (ne : name ≠ key)
    (rule : Json → String → List Diagnostic) :
    property (ms.put key new) path name rule = property ms path name rule := by
  rw [property, property, Members.get?_put_of_ne ms new ne]

theorem property_put_self (path : String) (rule : Json → String → List Diagnostic) :
    property (ms.put key new) path key rule = rule new s!"{path}.{key}" := by
  rw [property, Members.get?_put_self]

/-- A property that its rule has nothing to say about is no error. -/
theorem noErrors_property_put {path name : String} {rule : Json → String → List Diagnostic}
    (skips : ∀ path, rule new path = []) (fine : NoErrors (property ms path name rule)) :
    NoErrors (property (ms.put key new) path name rule) := by
  by_cases same : name = key
  · subst same
    rw [property_put_self, skips]
    exact noErrors_nil
  · rwa [property_put_of_ne new path same]

end Put

/-! ## Lists -/

theorem noErrors_shadowLayers_iff (path : String) (index : Nat) (layers : List Json) :
    NoErrors (shadowLayers path index layers) ↔ ∀ layer ∈ layers, TokenType.shadow.Accepts layer := by
  induction layers generalizing index with
  | nil => exact iff_of_true noErrors_nil nofun
  | cons layer layers ih =>
      rw [shadowLayers, noErrors_append_iff, ih, List.forall_mem_cons]
      exact and_congr_left' (TokenType.shadow.accepts_iff layer _).symm

theorem noErrors_gradientStops_iff (stops : List Json) (path : String) :
    NoErrors (gradientStops (.arr stops) path) ↔
      stops ≠ [] ∧ ∀ stop ∈ stops, ∀ path, NoErrors (gradientStop stop path) := by
  cases stops with
  | nil => exact iff_of_false (not_noErrors_singleton rfl) fun both => both.1 rfl
  | cons first rest =>
      have anywhere (stop : Json) (path : String) :
          NoErrors (gradientStop stop path) ↔ ∀ path, NoErrors (gradientStop stop path) :=
        ⟨fun fine other => (alike_gradientStop stop path other).noErrors_iff.1 fine, fun fine => fine path⟩
      calc NoErrors (gradientStops (.arr (first :: rest)) path)
          ↔ ∀ x ∈ (first :: rest).zipIdx, NoErrors (gradientStop x.1 s!"{path}[{x.2}]") :=
            noErrors_flatten_iff.trans List.forall_mem_map
        _ ↔ ∀ x ∈ (first :: rest).zipIdx, ∀ path, NoErrors (gradientStop x.1 path) :=
            forall₂_congr fun x _ => anywhere x.1 _
        _ ↔ ∀ stop ∈ (first :: rest).zipIdx.map Prod.fst, ∀ path, NoErrors (gradientStop stop path) :=
            by rw [List.forall_mem_map]
        _ ↔ _ := by rw [List.zipIdx_map_fst, and_iff_right (List.cons_ne_nil first rest)]

/-! ## Composite values -/

section Composite

variable {ms : Members} {key : String} (has : ms.has key = true) {reference : Json}
  (isAlias : reference.isAlias = true) {path : String}
include has isAlias

theorem typography_put (fine : NoErrors (typography (.obj ms) path)) :
    NoErrors (typography (.obj (ms.put key reference)) path) := by
  obtain ⟨complete, parts⟩ := (Shape.noErrors_object_iff _ ms path (typographyParts ms path)).1 fine
  refine (Shape.noErrors_object_iff _ _ path (typographyParts _ path)).2
    ⟨(Shape.missing_put reference _ has).trans complete, ?_⟩
  simp only [typographyParts, noErrors_append_iff] at parts ⊢
  obtain ⟨⟨⟨letters, paragraphs⟩, textCases⟩, decorations⟩ := parts
  have skips (rule : Json → String → List Diagnostic) (path : String) :
      unlessAlias reference (rule reference path) = [] := unlessAlias_of_isAlias isAlias _
  exact ⟨⟨⟨noErrors_property_put reference (skips _) letters,
    noErrors_property_put reference (skips _) paragraphs⟩,
    noErrors_property_put reference (skips _) textCases⟩,
    noErrors_property_put reference (skips _) decorations⟩

theorem shadow_put (fine : NoErrors (shadow path (.obj ms))) :
    NoErrors (shadow path (.obj (ms.put key reference))) := by
  rw [shadow, Shape.noErrors_object_iff] at fine ⊢
  exact ⟨(Shape.missing_put reference _ has).trans fine.1,
    noErrors_property_put reference (fun path => unlessAlias_of_isAlias isAlias _) fine.2⟩

theorem gradient_put (fine : NoErrors (gradient (.obj ms) path)) :
    NoErrors (gradient (.obj (ms.put key reference)) path) ↔ key ≠ "stops" := by
  obtain ⟨complete, stops⟩ := (Shape.noErrors_object_iff .gradient ms path _).1 fine
  refine (Shape.noErrors_object_iff .gradient _ path _).trans ?_
  rw [and_iff_right ((Shape.missing_put reference _ has).trans complete)]
  constructor
  · rintro fineStops rfl
    rw [property_put_self] at fineStops
    exact not_noErrors_gradientStops isAlias _ fineStops
  · intro other
    rwa [property_put_of_ne reference path (Ne.symm other)]

omit isAlias in
theorem border_put (fine : NoErrors (border (.obj ms) path)) :
    NoErrors (border (.obj (ms.put key reference)) path) := by
  obtain ⟨complete, -⟩ := (Shape.noErrors_object_iff .border ms path []).1 fine
  exact (Shape.noErrors_object_iff .border _ path []).2
    ⟨(Shape.missing_put reference _ has).trans complete, noErrors_nil⟩

theorem transition_put (fine : NoErrors (transition (.obj ms) path)) :
    NoErrors (transition (.obj (ms.put key reference)) path) := by
  obtain ⟨complete, parts⟩ := (Shape.noErrors_object_iff .transition ms path _).1 fine
  exact (Shape.noErrors_object_iff .transition _ path _).2
    ⟨(Shape.missing_put reference _ has).trans complete,
      noErrors_property_put reference (timing_of_isAlias isAlias) parts⟩

omit has

theorem shadow_set {layers : List Json} (index : Nat) (fine : NoErrors (shadow path (.arr layers))) :
    NoErrors (shadow path (.arr (layers.set index reference))) := by
  rw [shadow, noErrors_shadowLayers_iff] at fine ⊢
  intro layer mem
  rcases List.mem_or_eq_of_mem_set mem with kept | rfl
  · exact fine layer kept
  · intro path d found
    rw [show TokenType.shadow.check layer path = [] from shadow_of_isAlias isAlias path] at found
    cases found

theorem gradient_set {stops : List Json} (index : Nat) (fine : NoErrors (gradient (.arr stops) path)) :
    NoErrors (gradient (.arr (stops.set index reference)) path) := by
  obtain ⟨some_, all⟩ := (noErrors_gradientStops_iff stops path).1 fine
  refine (noErrors_gradientStops_iff _ path).2 ⟨by simpa using some_, fun stop mem other => ?_⟩
  rcases List.mem_or_eq_of_mem_set mem with kept | rfl
  · exact all stop kept other
  · unfold gradientStop
    rw [unlessAlias_of_isAlias isAlias]
    exact noErrors_nil

end Composite

end Rule

namespace TokenType

open Rule

/-- **References are accepted in every part of a composite value but the stops of a gradient.** -/
theorem accepts_replace_iff {t : TokenType} (composite : t ∈ composites) {value value' reference : Json}
    {part : Part} (accepts : t.Accepts value) (isAlias : reference.isAlias = true)
    (replaced : value.replace? part reference = some value') :
    t.Accepts value' ↔ ¬ (t = .gradient ∧ part = .member "stops") := by
  have fine : NoErrors (t.check value "") := accepts ""
  refine (t.accepts_iff value' "").trans ?_
  show NoErrors (t.check value' "") ↔ _
  simp only [composites, List.mem_cons, List.not_mem_nil, or_false] at composite
  cases value with
  | obj ms =>
      cases part with
      | item => cases replaced
      | member key =>
          obtain ⟨has, replaced⟩ := Option.ite_none_right_eq_some.1 replaced
          cases replaced
          rcases composite with rfl | rfl | rfl | rfl | rfl
          · exact iff_of_true (typography_put has isAlias fine) (by simp)
          · exact iff_of_true (shadow_put has isAlias fine) (by simp)
          · exact (gradient_put has isAlias fine).trans (by simp)
          · exact iff_of_true (border_put has fine) (by simp)
          · exact iff_of_true (transition_put has isAlias fine) (by simp)
  | arr items =>
      cases part with
      | member => cases replaced
      | item index =>
          obtain ⟨-, replaced⟩ := Option.ite_none_right_eq_some.1 replaced
          cases replaced
          refine iff_of_true ?_ (by simp)
          rcases composite with rfl | rfl | rfl | rfl | rfl
          · exact absurd fine (not_noErrors_singleton rfl)
          · exact shadow_set isAlias index fine
          · exact gradient_set isAlias index fine
          · exact absurd fine (not_noErrors_singleton rfl)
          · exact absurd fine (not_noErrors_singleton rfl)
  | _ => cases replaced

namespace Example

/-- A gradient of one stop. -/
def fade : Members :=
  [("stops", .arr [.obj [("color", .str "#E00069"), ("position", .int 0)]])]

/-- A reference to a list of stops is not accepted in its place. -/
theorem fade_stops_not_accepted :
    TokenType.gradient.Accepts (.obj fade) ∧ (Json.str "\x7bbrand.stops\x7d").isAlias = true ∧
      (Json.obj fade).replace? (.member "stops") (.str "\x7bbrand.stops\x7d") =
        some (.obj [("stops", .str "\x7bbrand.stops\x7d")]) ∧
      ¬ TokenType.gradient.Accepts (.obj [("stops", .str "\x7bbrand.stops\x7d")]) := by
  refine ⟨(accepts_iff _ _ "").2 (by decide), by decide, rfl, fun accepts => ?_⟩
  exact absurd ((accepts_iff _ _ "").1 accepts) (by decide)

/-- A reference to a stop is. -/
theorem stop_reference_accepted :
    TokenType.gradient.Accepts (.arr [.obj [("color", .str "#E00069"), ("position", .int 0)]]) ∧
      TokenType.gradient.Accepts (.arr [.str "\x7bbrand.stop\x7d"]) := by
  have accepts : TokenType.gradient.Accepts
      (.arr [.obj [("color", .str "#E00069"), ("position", .int 0)]]) :=
    (accepts_iff _ _ "").2 (by decide)
  have replaced : (Json.arr [.obj [("color", .str "#E00069"), ("position", .int 0)]]).replace? (.item 0)
      (.str "\x7bbrand.stop\x7d") = some (.arr [.str "\x7bbrand.stop\x7d"]) := rfl
  exact ⟨accepts, (accepts_replace_iff (by decide) accepts (by decide) replaced).2 (by decide)⟩

end Example

end TokenType

end DesignTokens
