/-
# DesignTokens.Proofs.Frame -- what stays at the root of a document

The conversion and the fixes rewrite token groups from within.  The frame around them stays
(`Members.Frames`): the root keeps its keys in their order, a token group stays an object, and
everything else at the root -- metadata, the brand block, values that are no objects -- stays as it
is.

The conversion goes from entry to entry and keeps the frame at each.  For a fixer, all depends on what
the fixes address.  A call keeps the frame if the chain of its fix goes on below a token group,
whatever the fix says, and whatever comes of it (`Fixer.Framed.apply`).  The chains of collected fixes
do (`Fix.Offered.belowEntry`), and the root stays such that they still do after every call.
-/
import DesignTokens.Proofs.Fix.Batch
import DesignTokens.Proofs.Normal.Basic

namespace DesignTokens

set_option autoImplicit false

/-- A root entry may change if it is a token group, and then it is an object afterwards. -/
def RootKept (name : String) (value value' : Json) : Prop :=
  if isTokenGroup name value then value'.isObject = true else value' = value

/-- The members of a document have been rewritten within its token groups only. -/
def Members.Frames (document result : Members) : Prop :=
  document.Paired RootKept result

namespace Members

variable {document ms : Members}

theorem frames_refl (document : Members) : document.Frames document := by
  refine List.forall₂_same.2 fun m _ => ⟨rfl, ?_⟩
  unfold RootKept
  split
  · rename_i isGroup
    exact ((isTokenGroup_iff _ _).1 isGroup).2.2
  · rfl

/-- A token group gives way to another object. -/
theorem Frames.put (frames : document.Frames ms) {name : String} {group : Members}
    (found : document.get? name = some (.obj group)) (isGroup : isTokenGroup name (.obj group) = true)
    {value : Json} (isObject : value.isObject = true) : document.Frames (ms.put name value) := by
  induction frames with
  | nil => cases found
  | @cons m m' rest rest' first others ih =>
      obtain ⟨k, v⟩ := m
      obtain ⟨k', v'⟩ := m'
      obtain ⟨same, kept⟩ := first
      dsimp only at same kept
      subst same
      rw [get?_cons] at found
      rw [Members.put]
      by_cases here : k' = name
      · subst here
        rw [if_pos rfl] at found
        cases found
        rw [if_pos rfl]
        refine .cons ⟨rfl, ?_⟩ others
        rw [RootKept, if_pos isGroup]
        exact isObject
      · rw [if_neg (Ne.symm here)] at found
        rw [if_neg here]
        exact .cons ⟨rfl, kept⟩ (ih found)

end Members

/-! ## The conversion -/

/-- The conversion keeps each root entry. -/
theorem rootKept_of_entry {rootType : Option String} {name : String} {value value' : Json}
    (converted : Normal.entry rootType name value = .ok value') : RootKept name value value' := by
  rw [Normal.entry] at converted
  unfold RootKept
  split at converted
  · rename_i isGroup
    obtain ⟨group, rfl⟩ := exists_members_of_isTokenGroup isGroup
    rw [if_pos isGroup]
    exact isObject_normalize converted
  · rename_i noGroup
    cases converted
    rw [if_neg noGroup]

theorem frames_normalizeDocument {document : Members} {out : Json}
    (converted : normalizeDocument (.obj document) = .ok out) :
    ∃ ms, out = .obj ms ∧ document.Frames ms := by
  obtain ⟨ms, rfl, paired⟩ := (normalizeDocument_obj_eq_ok_iff document out).1 converted
  exact ⟨ms, rfl, paired.imp fun _ _ entry => ⟨entry.1, rootKept_of_entry entry.2⟩⟩

/-! ## Fixes -/

theorem Json.isObject_withParent (value : Json) (chain : KeyChain) (new : Members) :
    (value.withParent chain new).isObject = value.isObject := by
  fun_induction value.withParent chain new <;> rfl

/-- The chain of a fix begins with a token group and goes on below it. -/
def Fix.BelowEntry (f : Fix) (document : Members) : Prop :=
  ∃ name group below, f.target = name :: below ∧ below ≠ [] ∧
    document.get? name = some (.obj group) ∧ isTokenGroup name (.obj group) = true

theorem Fix.Offered.belowEntry {document : Members} (keyed : (Json.obj document).isKeyed = true)
    {f : Fix} (offered : f.Offered document) : f.BelowEntry document := by
  cases offered with
  | addType mem index approved =>
      obtain ⟨name, group, below, found, isGroup, keysEq, stands⟩ := mem_untypedTokens mem keyed
      obtain ⟨key, rest, -, rfl, -⟩ := stands.leads.exists_member
      exact ⟨name, group, _, target_toFix_untyped keysEq index approved, List.cons_ne_nil _ _, found,
        isGroup⟩
  | @flatten c mem fixable index approved =>
      obtain ⟨group, found, isGroup, -⟩ := mem_clusters mem keyed
      exact ⟨c.group, group, _, target_toFix_cluster c index approved, by simp, found, isGroup⟩

namespace Fixer

variable {document : Members} {s : Fixer} {f : Fix}

/-- A fixer holds a document whose frame is that of the one it began with. -/
def Framed (document : Members) (s : Fixer) : Prop :=
  ∃ ms, s.document = .obj ms ∧ document.Frames ms

/-- Other members around a node below a token group leave the frame alone. -/
theorem Framed.rebuilt (framed : s.Framed document) (below : f.BelowEntry document) (new : Members) :
    (s.rebuilt f new).Framed document := by
  obtain ⟨ms, document_eq, frames⟩ := framed
  obtain ⟨name, group, chain, target, more, found, isGroup⟩ := below
  obtain ⟨entry, foundEntry, kept⟩ := frames.get? found
  rw [RootKept, if_pos isGroup] at kept
  obtain ⟨key, rest, rfl⟩ := List.exists_cons_of_ne_nil more
  refine ⟨Members.put ms name (entry.withParent (key :: rest) new), ?_, frames.put found isGroup ?_⟩
  · rw [Fixer.rebuilt, document_eq, target, Json.withParent, foundEntry]
    simp
  · rw [Json.isObject_withParent]
    exact kept

/-- **A call keeps the frame**, whatever comes of it. -/
theorem Framed.apply (framed : s.Framed document) (below : f.BelowEntry document) :
    (s.apply f).1.Framed document := by
  have step := s.step_apply f
  generalize s.apply f = result at step ⊢
  obtain ⟨s', outcome⟩ := result
  cases step with
  | applied => exact framed.rebuilt below _
  | broken => exact framed.rebuilt below _
  | overlapping | notFound | refused | failed => exact framed

/-- A run keeps the frame. -/
theorem Framed.run (framed : s.Framed document) {fixes : List Fix}
    (below : ∀ f ∈ fixes, f.BelowEntry document) : (s.run fixes).1.Framed document := by
  induction fixes generalizing s with
  | nil => exact framed
  | cons f rest ih =>
      rw [run_cons]
      exact ih (framed.apply (below f List.mem_cons_self))
        fun later mem => below later (List.mem_cons_of_mem _ mem)

end Fixer

/-- **Conversion and fixes leave the root alone.**  What the conversion makes of a document, if it
makes something of it, has the frame of the document.  So has what fixes make of it that were collected
there, approved or not, in any order and number; and these always make something of it. -/
theorem root_framed {document : Members} (keyed : (Json.obj document).isKeyed = true) :
    (∀ out, normalizeDocument (.obj document) = .ok out →
      ∃ ms, out = .obj ms ∧ document.Frames ms) ∧
    ∀ fixes : List Fix,
      (∀ f ∈ fixes, ∃ g ∈ Fix.collect (.obj document), ∃ approved, f = { g with approved := approved }) →
      ∃ ms, (applyApproved (.obj document) fixes).2 = .ok (.obj ms) ∧ document.Frames ms := by
  refine ⟨fun out converted => frames_normalizeDocument converted, fun fixes collected => ?_⟩
  -- Only the approved fixes are handed over, and these the document offers.
  have offers : ∀ f ∈ fixes.filter Fix.approved, f ∈ Fix.offers (.obj document) := by
    intro f mem
    obtain ⟨inFixes, isApproved⟩ := List.mem_filter.1 mem
    obtain ⟨g, inCollected, approved, rfl⟩ := collected f inFixes
    obtain rfl : approved = true := isApproved
    exact List.mem_map.2 ⟨g, inCollected, rfl⟩
  have offered := fun f mem => (Fix.offered_of_mem_offers (offers f mem)).1
  have start : (Fixer.ofDocument (.obj document)).Framed document :=
    ⟨document, rfl, document.frames_refl⟩
  obtain ⟨ms, document_eq, frames⟩ := start.run fun f mem => (offered f mem).belowEntry keyed
  have result := (Fixer.batch_run keyed offers).2
  rw [Fixer.applyApproved_filter, document_eq] at result
  exact ⟨ms, result, frames⟩

namespace Example

/-- Beside a token group, all that is none. -/
def framed (sizes : Members) : Members :=
  [("$version", .int 2), ("brand", .obj [("$value", .str "4px")]), ("sizes", .obj sizes),
    ("base", .str "4px")]

/-- The group is flattened or converted, and the rest stays. -/
theorem framed_wrappedSizes :
    (Json.obj (framed wrappedSizes)).isKeyed = true ∧
      (Fix.offers (.obj (framed wrappedSizes))).map Fix.target = [["sizes", "base"]] ∧
      (∃ ms, (applyApproved (.obj (framed wrappedSizes)) (Fix.offers (.obj (framed wrappedSizes)))).2 =
        .ok (.obj ms) ∧ (framed wrappedSizes).Frames ms) ∧
      normalizeDocument (.obj (framed wrappedSizes)) = .ok (.obj (framed structuredSizes)) ∧
      (framed wrappedSizes).Frames (framed structuredSizes) := by
  have keyed : (Json.obj (framed wrappedSizes)).isKeyed = true := by decide
  have converted : normalizeDocument (.obj (framed wrappedSizes)) =
      .ok (.obj (framed structuredSizes)) := by
    obtain ⟨_, same, paired⟩ := (normalizeDocument_obj_eq_ok_iff _ _).1 normalize_wrappedSizes
    cases same
    cases paired with
    | cons entry =>
        exact (normalizeDocument_obj_eq_ok_iff _ _).2
          ⟨_, rfl, .cons ⟨rfl, rfl⟩ (.cons ⟨rfl, rfl⟩ (.cons entry (.cons ⟨rfl, rfl⟩ .nil)))⟩
  obtain ⟨conversion, fixes⟩ := root_framed keyed
  refine ⟨keyed, by decide, fixes _ fun f mem => ?_, converted, ?_⟩
  · obtain ⟨g, collected, same⟩ := Fix.mem_approve_all mem
    exact ⟨g, collected, true, same⟩
  · obtain ⟨_, same, frames⟩ := conversion _ converted
    cases same
    exact frames

end Example

end DesignTokens
