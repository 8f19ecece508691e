/-
# DesignTokens.Proofs.Fix.Siblings -- what stands beside a flattened cluster

A flattening puts its members where the cluster stood.  The members before and behind the cluster stay,
in their order and with their values, no key comes twice, and the document around the parent is the same
(`Fixer.flatten_keeps_siblings`).  That holds of every flattening whose replacement is an object,
whoever made it: a key of the replacement that is already in the parent, that of the cluster apart,
keeps it from being applied, and then nothing is changed.

`Json.DiffersAt` says that two documents differ in the members of one object and in nothing else.
-/
import DesignTokens.Proofs.Fix.Batch

namespace DesignTokens

set_option autoImplicit false

/-! ## Documents that differ in one object -/

/-- Two values are the same but for the members of one object, which a chain of keys leads to.  A
member beside the chain is the same in both, and stands in the same place. -/
inductive Json.DiffersAt (old new : Members) : KeyChain → Json → Json → Prop
  | here : DiffersAt old new [] (.obj old) (.obj new)
  | under {front back : Members} {key : String} {chain : KeyChain} {child child' : Json}
      (first : key ∉ front.keys) (inside : DiffersAt old new chain child child') :
      DiffersAt old new (key :: chain) (.obj (front ++ (key, child) :: back))
        (.obj (front ++ (key, child') :: back))

namespace Members

theorem exists_split_of_get? {ms : Members} {key : String} {value : Json}
    (found : ms.get? key = some value) :
    ∃ front back, ms = front ++ (key, value) :: back ∧ key ∉ front.keys := by
  obtain ⟨front, back, rfl, before⟩ := List.lookup_eq_some_iff.1 found
  refine ⟨front, back, rfl, fun mem => ?_⟩
  obtain ⟨m, inFront, rfl⟩ := List.mem_map.1 mem
  simpa using before m inFront

theorem put_append {front back : Members} {key : String} (first : key ∉ front.keys) (old value : Json) :
    (front ++ (key, old) :: back).put key value = front ++ (key, value) :: back := by
  induction front with
  | nil => simp [put]
  | cons m front ih =>
      obtain ⟨k, v⟩ := m
      rw [keys_cons, List.mem_cons, not_or] at first
      simp [put, Ne.symm first.1, ih first.2]

theorem splice_append_cons {front back : Members} {key : String} {node : Json}
    (distinct : (front ++ (key, node) :: back).keys.Nodup) (new : Members) :
    (front ++ (key, node) :: back).splice key new = front ++ new ++ back := by
  rw [keys_append, keys_cons, List.nodup_append, List.nodup_cons] at distinct
  obtain ⟨-, ⟨notBehind, -⟩, apart⟩ := distinct
  have notBefore : key ∉ front.keys := fun mem => apart key mem key List.mem_cons_self rfl
  rw [splice_append, splice_cons, if_pos rfl, splice_of_not_mem notBefore, splice_of_not_mem notBehind,
    List.append_assoc]

end Members

/-- New members at the end of a chain make a difference there alone. -/
theorem Json.differsAt_withParent {value : Json} {above : KeyChain} {parent : Members}
    (around : value.at? above = some (.obj parent)) (name : String) (new : Members) :
    DiffersAt parent new above value (value.withParent (above ++ [name]) new) := by
  induction above generalizing value with
  | nil =>
      rw [at?_nil] at around
      cases around
      exact .here
  | cons key above ih =>
      cases value with
      | obj ms =>
          rw [at?_cons] at around
          obtain ⟨child, found, onward⟩ := Option.bind_eq_some_iff.1 around
          obtain ⟨front, back, rfl, first⟩ := Members.exists_split_of_get? found
          rw [List.cons_append, withParent_cons found (by simp), Members.put_append first]
          exact .under first (ih onward)
      | _ => cases around

/-! ## Flattenings -/

namespace Fix

variable {f : Fix} {parent flat new : Members} {name : String}

/-- What stands under a name is what the fix was made for. -/
def Matches (f : Fix) (parent : Members) (name : String) : Prop :=
  ∃ before, f.before = .obj before ∧
    ((parent.get? name).getD .null).equal ((Members.get? before name).getD .null) = true

/-- The fix brings no key that is in use beside its node. -/
def Fresh (flat parent : Members) (name : String) : Prop :=
  ∀ key ∈ flat.keys, key ≠ name → key ∉ parent.keys

/-- **What a flattening does**: it is applied exactly if it finds what it was made for and brings no key
that is in use, and then it puts its members in the place of the node. -/
theorem patch_eq_applied_iff (flattens : f.type = .flatten) (replacement : f.after = .obj flat) :
    f.patch parent name = .applied new ↔
      f.Matches parent name ∧ Fresh flat parent name ∧ new = parent.splice name flat := by
  have fresh_iff : ((Members.keys flat).filter fun key => key != name && parent.has key).isEmpty = true ↔
      Fresh flat parent name := by
    simp [List.filter_eq_nil_iff, Fresh, ← Members.has_iff_mem_keys]
  unfold patch
  simp only [flattens, flattenIn, replacement]
  cases made : f.before with
  | obj before =>
      have matches_iff : f.Matches parent name ↔
          ((parent.get? name).getD .null).equal ((Members.get? before name).getD .null) = true := by
        simp [Matches, made]
      rw [matches_iff, ← fresh_iff]
      by_cases same : ((parent.get? name).getD .null).equal ((Members.get? before name).getD .null) = true
      · by_cases fresh : ((Members.keys flat).filter fun key => key != name && parent.has key).isEmpty = true
        · simp only [same, fresh, Bool.not_true, Bool.false_eq_true, if_false, if_true,
            Patch.applied.injEq, true_and]
          exact eq_comm
        · simp only [same, fresh, Bool.not_true, Bool.false_eq_true, if_false]
          simp
      · simp only [same, Bool.not_false, if_true]
        simp
  | _ => simp [Matches, made]

end Fix

namespace Fixer

variable {s : Fixer} {f : Fix} {flat : Members}

/-- What a fixer finds for a flattening: nothing applied before overlaps it, its chain leads to a member
of an object, and that is what the fix was made for. -/
structure Finds (s : Fixer) (f : Fix) (above : KeyChain) (name : String) (parent : Members) : Prop where
  apart : ∀ done ∈ s.applied, done.overlaps f = false
  target : f.target = above ++ [name]
  around : s.document.at? above = some (.obj parent)
  present : name ∈ parent.keys
  matches_ : f.Matches parent name

/-- A call applies a flattening exactly if it finds what the fix is for and no key of it is in use. -/
theorem apply_eq_applied_iff (flattens : f.type = .flatten) (replacement : f.after = .obj flat)
    {s' : Fixer} : s.apply f = (s', .applied) ↔
      ∃ above name parent, s.Finds f above name parent ∧ Fix.Fresh flat parent name ∧
        s' = { s.rebuilt f (parent.splice name flat) with applied := s.applied ++ [f] } := by
  constructor
  · intro applied
    have step := s.step_apply f
    rw [applied] at step
    cases step with
    | @applied parent new name apart inParent last patched =>
        obtain ⟨above, target⟩ := List.getLast?_eq_some_iff.1 last
        rw [target, Json.parent?_concat_iff, Members.has_iff_mem_keys] at inParent
        obtain ⟨matches_, fresh, rfl⟩ := (Fix.patch_eq_applied_iff flattens replacement).1 patched
        exact ⟨above, name, parent, ⟨apart, target, inParent.1, inParent.2, matches_⟩, fresh, rfl⟩
  · rintro ⟨above, name, parent, finds, fresh, rfl⟩
    have inParent : s.document.parent? f.target = some parent := by
      rw [finds.target, Json.parent?_concat_iff, Members.has_iff_mem_keys]
      exact ⟨finds.around, finds.present⟩
    have last : f.target.getLast? = some name := by rw [finds.target, List.getLast?_concat]
    rw [apply_of_parent? finds.apart inParent last,
      (Fix.patch_eq_applied_iff flattens replacement).2 ⟨finds.matches_, fresh, rfl⟩]
    rfl

/-- **A flattening keeps its siblings.**  If a call applies it, the document changes in the parent of the
cluster only; the parent has its members before the cluster, the members of the replacement and its
members behind the cluster, in this order, and no object has a key twice.  If a key of the replacement
other than that of the cluster is in the parent, the call changes nothing and does not apply the fix.
Otherwise it applies it if it finds what the fix was made for. -/
theorem flatten_keeps_siblings (keyed : s.document.isKeyed = true) (flattens : f.type = .flatten)
    (replacement : f.after = .obj flat) (flatKeyed : f.after.isKeyed = true) :
    (∀ s', s.apply f = (s', .applied) →
      s'.document.isKeyed = true ∧ ∃ above name front node back, f.target = above ++ [name] ∧
        Json.DiffersAt (front ++ (name, node) :: back) (front ++ flat ++ back) above
          s.document s'.document) ∧
    ∀ above name (parent : Members), f.target = above ++ [name] →
      s.document.at? above = some (.obj parent) →
      ((∃ key ∈ flat.keys, key ≠ name ∧ key ∈ parent.keys) →
        (s.apply f).1 = s ∧ (s.apply f).2 ≠ .applied) ∧
      (s.Finds f above name parent → (∀ key ∈ flat.keys, key ≠ name → key ∉ parent.keys) →
        (s.apply f).2 = .applied) := by
  constructor
  case left =>
    intro s' applied
    obtain ⟨above, name, parent, finds, fresh, rfl⟩ :=
      (apply_eq_applied_iff flattens replacement).1 applied
    obtain ⟨node, inParent⟩ := Members.exists_of_mem_keys finds.present
    obtain ⟨distinct, values⟩ := (isKeyed_obj_iff parent).1 (Json.isKeyed_of_at? keyed finds.around)
    obtain ⟨front, back, rfl, -⟩ := Members.exists_split_of_get? (Members.get?_of_mem distinct inParent)
    rw [replacement] at flatKeyed
    obtain ⟨flatDistinct, flatValues⟩ := (isKeyed_obj_iff flat).1 flatKeyed
    have newKeyed : (Json.obj ((front ++ (name, node) :: back).splice name flat)).isKeyed = true := by
      rw [isKeyed_obj_iff]
      refine ⟨Members.nodup_keys_splice distinct flatDistinct fresh, fun m mem => ?_⟩
      exact (Members.mem_splice mem).elim (values m) (flatValues m)
    refine ⟨Json.isKeyed_withParent newKeyed keyed f.target, above, name, front, node, back,
      finds.target, ?_⟩
    rw [← Members.splice_append_cons distinct]
    have differs := Json.differsAt_withParent finds.around name
      ((front ++ (name, node) :: back).splice name flat)
    rwa [← finds.target] at differs
  case right =>
    intro above name parent target around
    constructor
    · rintro ⟨key, inFlat, ne, inParent⟩
      have notApplied : (s.apply f).2 ≠ .applied := by
        intro applied
        have result : s.apply f = ((s.apply f).1, .applied) := Prod.ext rfl applied
        obtain ⟨above', name', parent', finds, fresh, -⟩ :=
          (apply_eq_applied_iff flattens replacement).1 result
        obtain ⟨rfl, same⟩ := List.append_inj' (finds.target.symm.trans target) rfl
        cases same
        cases finds.around.symm.trans around
        exact fresh key inFlat ne inParent
      exact ⟨(s.step_apply f).unchanged (by rw [replacement]; rfl) notApplied, notApplied⟩
    · intro finds fresh
      rw [(apply_eq_applied_iff flattens replacement).2 ⟨above, name, parent, finds, fresh, rfl⟩]

end Fixer

namespace Example

/-- A cluster between two neighbours. -/
def gapBetween : Json :=
  .obj [("sizes", .obj [("inset", .obj [("$value", .str "4px")]),
    ("gap", .obj [("base", .obj [("$value", .str "8px")]), ("wide", .obj [("$value", .str "1rem")])]),
    ("$type", .str "dimension")])]

/-- A flattening made by hand that keeps the name of the cluster for one of its tokens. -/
def flattenGap (second : String) : Fix where
  id := "gap"
  type := .flatten
  path := ""
  description := ""
  before := .obj [("gap",
    .obj [("wide", .obj [("$value", .str "1rem")]), ("base", .obj [("$value", .str "8px")])])]
  after := .obj [("gap-wide", .obj [("$value", .str "1rem")]), ("gap", .obj [("$value", .str "8px")]),
    (second, .null)]
  approved := true
  keys := ["sizes", "gap"]

theorem flattenGap_keeps_siblings :
    gapBetween.isKeyed = true ∧ (∀ second ∈ ["rest", "inset"], (flattenGap second).after.isKeyed = true) ∧
    (∃ above name front node back, (flattenGap "rest").target = above ++ [name] ∧
      Json.DiffersAt (front ++ (name, node) :: back)
        (front ++ [("gap-wide", .obj [("$value", .str "1rem")]), ("gap", .obj [("$value", .str "8px")]),
          ("rest", .null)] ++ back) above gapBetween
        ((Fixer.ofDocument gapBetween).apply (flattenGap "rest")).1.document) ∧
      ((Fixer.ofDocument gapBetween).apply (flattenGap "rest")).2 = .applied ∧
      ((Fixer.ofDocument gapBetween).apply (flattenGap "inset")).1 = Fixer.ofDocument gapBetween ∧
      ((Fixer.ofDocument gapBetween).apply (flattenGap "inset")).2 ≠ .applied := by
  have keyed : (Fixer.ofDocument gapBetween).document.isKeyed = true := by decide
  obtain ⟨kept, -⟩ := Fixer.flatten_keeps_siblings (f := flattenGap "rest") keyed rfl rfl (by decide)
  obtain ⟨-, refused⟩ := Fixer.flatten_keeps_siblings (f := flattenGap "inset") keyed rfl rfl (by decide)
  have applied : ((Fixer.ofDocument gapBetween).apply (flattenGap "rest")).2 = .applied := rfl
  exact ⟨keyed, by decide, (kept _ (Prod.ext rfl applied)).2, applied,
    (refused ["sizes"] "gap" _ (by decide) rfl).1 ⟨"inset", by decide⟩⟩

end Example

end DesignTokens
