/-
# DesignTokens.Proofs.Fix.Apply -- what one call of a fixer can do

`Fixer.Step` lists what a call may come to, each case with what led to it.  A fix is refused or
fails before anything is changed, with one exception: a replacement that is no object may turn out to
be malformed while the cluster is being replaced (`Step.broken`).  A fix whose replacement is an
object never gets there (`Fix.patch_ne_broken`), so a call that does not apply it leaves the fixer as
it was (`Step.unchanged`).
-/
import DesignTokens.Fix.Apply

namespace DesignTokens

set_option autoImplicit false

/-- A chain that leads to a node has a last key. -/
theorem Json.ne_nil_of_parent? {document : Json} {chain : KeyChain} {parent : Members}
    (found : document.parent? chain = some parent) : chain ≠ [] := by
  rintro rfl
  cases document <;> cases found

/-- What comes of handing a fix to a fixer: the fixer afterwards, and the outcome. -/
inductive Fixer.Step (s : Fixer) (fix : Fix) : Fixer → Outcome → Prop where
  | applied {parent new : Members} {name : String}
      (apart : ∀ done ∈ s.applied, done.overlaps fix = false)
      (inParent : s.document.parent? fix.target = some parent)
      (last : fix.target.getLast? = some name) (patched : fix.patch parent name = .applied new) :
      Step s fix { s.rebuilt fix new with applied := s.applied ++ [fix] } .applied
  | overlapping {done : Fix} (isDone : done ∈ s.applied) (overlap : done.overlaps fix = true) :
      Step s fix s (.skipped (.overlaps done))
  | notFound (apart : ∀ done ∈ s.applied, done.overlaps fix = false)
      (absent : s.document.parent? fix.target = none) : Step s fix s (.skipped .notFound)
  | refused {parent : Members} {name : String} {reason : Skip}
      (apart : ∀ done ∈ s.applied, done.overlaps fix = false)
      (inParent : s.document.parent? fix.target = some parent)
      (last : fix.target.getLast? = some name) (patched : fix.patch parent name = .skipped reason) :
      Step s fix s (.skipped reason)
  | failed {parent : Members} {name : String} {fault : Fault}
      (apart : ∀ done ∈ s.applied, done.overlaps fix = false)
      (inParent : s.document.parent? fix.target = some parent)
      (last : fix.target.getLast? = some name) (patched : fix.patch parent name = .failed fault) :
      Step s fix s (.failed fault)
  | broken {parent new : Members} {name : String} {fault : Fault}
      (apart : ∀ done ∈ s.applied, done.overlaps fix = false)
      (inParent : s.document.parent? fix.target = some parent)
      (last : fix.target.getLast? = some name) (patched : fix.patch parent name = .broken fault new) :
      Step s fix (s.rebuilt fix new) (.failed fault)

theorem Fixer.step_apply (s : Fixer) (fix : Fix) : Step s fix (s.apply fix).1 (s.apply fix).2 := by
  unfold Fixer.apply
  cases search : s.applied.find? fun done => done.overlaps fix with
  | some done =>
      have overlap : done.overlaps fix = true := by simpa using List.find?_some search
      exact .overlapping (List.mem_of_find?_eq_some search) overlap
  | none =>
      have apart : ∀ done ∈ s.applied, done.overlaps fix = false := by
        simpa using List.find?_eq_none.1 search
      cases inParent : s.document.parent? fix.target with
      | none => exact .notFound apart inParent
      | some parent =>
          obtain ⟨name, last⟩ : ∃ name, fix.target.getLast? = some name :=
            ⟨_, List.getLast?_eq_some_getLast (Json.ne_nil_of_parent? inParent)⟩
          rw [last]
          dsimp only
          cases patched : fix.patch parent name with
          | applied new => exact .applied apart inParent last patched
          | skipped reason => exact .refused apart inParent last patched
          | failed fault => exact .failed apart inParent last patched
          | broken fault new => exact .broken apart inParent last patched

/-! ## Fixes whose replacement is an object -/

theorem Fix.addType_ne_broken (f : Fix) (parent : Members) (name : String) (node : Json)
    (fault : Fault) (new : Members) : f.addType parent name node ≠ .broken fault new := by
  unfold Fix.addType
  split
  · simp
  · split
    · split
      · simp
      · split <;> simp
    · simp

theorem Json.exists_of_isObject {value : Json} (isObject : value.isObject = true) :
    ∃ ms, value = .obj ms := by
  cases value with
  | obj ms => exact ⟨ms, rfl⟩
  | _ => cases isObject

theorem Fix.flattenIn_ne_broken {f : Fix} (isObject : f.after.isObject = true) (parent : Members)
    (name : String) (node : Json) (fault : Fault) (new : Members) :
    f.flattenIn parent name node ≠ .broken fault new := by
  obtain ⟨after, replacement⟩ := Json.exists_of_isObject isObject
  unfold Fix.flattenIn
  rw [replacement]
  dsimp only
  split
  · split
    · simp
    · split <;> simp
  · simp

/-- What is wrong with a fix whose replacement is an object shows before anything is changed. -/
theorem Fix.patch_ne_broken {f : Fix} (isObject : f.after.isObject = true) (parent : Members)
    (name : String) (fault : Fault) (new : Members) : f.patch parent name ≠ .broken fault new := by
  unfold Fix.patch
  cases f.type with
  | addType => exact f.addType_ne_broken parent name _ fault new
  | flatten => exact Fix.flattenIn_ne_broken isObject parent name _ fault new

namespace Fixer

variable {s s' : Fixer} {fix : Fix} {outcome : Outcome}

/-- A call that does not apply its fix changes nothing. -/
theorem Step.unchanged (step : Step s fix s' outcome) (isObject : fix.after.isObject = true)
    (notApplied : outcome ≠ .applied) : s' = s := by
  cases step with
  | applied => exact absurd rfl notApplied
  | overlapping | notFound | refused | failed => rfl
  | broken _ _ _ patched => exact absurd patched (Fix.patch_ne_broken isObject _ _ _ _)

/-- A list in the place of a cluster may break off behind its first member. -/
example (id path description : String) :
    let document : Json := .obj [("a", .obj [("b", .null)])]
    let fix : Fix :=
      ⟨id, .flatten, path, description, .obj [("b", .null)], .arr [.str "xy", .null], true, ["a", "b"]⟩
    (ofDocument document).apply fix =
      (ofDocument (.obj [("a", .obj [("x", .str "y")])]), .failed .notAnObject) :=
  rfl

/-- A call adds its fix to the applied ones if it applies it, and else leaves them alone. -/
theorem Step.applied_eq (step : Step s fix s' outcome) :
    (outcome = .applied ∧ s'.applied = s.applied ++ [fix]) ∨
      (outcome ≠ .applied ∧ s'.applied = s.applied) := by
  cases step with
  | applied => exact .inl ⟨rfl, rfl⟩
  | overlapping | notFound | refused | failed | broken => exact .inr ⟨nofun, rfl⟩

/-- An applied fix overlaps none of those applied before it. -/
theorem Step.apart (step : Step s fix s' .applied) : ∀ done ∈ s.applied, done.overlaps fix = false := by
  cases step with
  | applied apart => exact apart

end Fixer

end DesignTokens
