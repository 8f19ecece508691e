/-
# DesignTokens.Proofs.Fix.Run -- what a fixer keeps whatever is tried on it

`Fixer.run` hands fixes to a fixer one after the other and goes on after a refusal or a fault.  The
fixes may be right or stale and may address anything; their replacements are objects.  At every point
of such a run the applied fixes are all that happened to the document: a fresh fixer that is given
them alone applies each of them and ends up the same (`Fixer.run_invariant`).  They do not overlap,
so none of them is undone or redone by another.

The list of applied fixes is that of the fixes whose calls applied them (`applied_run`), and where no
call fails, a run makes of the document what a batch does (`applyAll_of_run`).
-/
import DesignTokens.Proofs.Fix.Apply

namespace DesignTokens

set_option autoImplicit false

namespace Fixer

/-- Hands fixes to a fixer one after the other, whatever comes of them. -/
def run : Fixer → List Fix → Fixer × List Outcome
  | s, [] => (s, [])
  | s, fix :: rest =>
      let (s', outcome) := s.apply fix
      let (s'', outcomes) := s'.run rest
      (s'', outcome :: outcomes)

@[simp] theorem run_nil (s : Fixer) : s.run [] = (s, []) := rfl

theorem run_cons (s : Fixer) (fix : Fix) (rest : List Fix) :
    s.run (fix :: rest) =
      (((s.apply fix).1.run rest).1, (s.apply fix).2 :: ((s.apply fix).1.run rest).2) :=
  rfl

theorem run_append (s : Fixer) (first second : List Fix) :
    s.run (first ++ second) =
      (((s.run first).1.run second).1, (s.run first).2 ++ ((s.run first).1.run second).2) := by
  induction first generalizing s with
  | nil => rfl
  | cons fix first ih => rw [List.cons_append, run_cons, run_cons, ih, List.cons_append]

/-- The fixes whose calls applied them. -/
def appliedOf (fixes : List Fix) (outcomes : List Outcome) : List Fix :=
  ((fixes.zip outcomes).filter fun call => call.2 matches .applied).map Prod.fst

/-- The list of applied fixes tells which calls applied their fix. -/
theorem applied_run (s : Fixer) (fixes : List Fix) :
    (s.run fixes).1.applied = s.applied ++ appliedOf fixes (s.run fixes).2 := by
  induction fixes generalizing s with
  | nil => simp [appliedOf]
  | cons fix rest ih =>
      rw [run_cons, ih]
      rcases (s.step_apply fix).applied_eq with ⟨applied, more⟩ | ⟨notApplied, same⟩
      · rw [more, applied, List.append_assoc]
        rfl
      · rw [same]
        cases outcome : (s.apply fix).2 with
        | applied => exact absurd outcome notApplied
        | skipped | failed => rfl

/-- Without a fault, a run makes of the document what a batch makes of it. -/
theorem applyAll_of_run (s : Fixer) (fixes : List Fix)
    (noFault : ∀ fault, .failed fault ∉ (s.run fixes).2) : (s.applyAll fixes).2 = .ok (s.run fixes).1 := by
  induction fixes generalizing s with
  | nil => rfl
  | cons fix rest ih =>
      rw [run_cons] at noFault ⊢
      have later := ih (s.apply fix).1 fun fault mem => noFault fault (List.mem_cons_of_mem _ mem)
      rw [applyAll]
      split
      · rename_i fault call
        refine absurd ?_ (noFault fault)
        rw [call]
        exact List.mem_cons_self
      · rename_i call
        rw [call] at later ⊢
        exact later

/-! ## What was applied -/

theorem appliedOf_map_applied (fixes : List Fix) :
    appliedOf fixes (fixes.map fun _ => .applied) = fixes := by
  induction fixes with
  | nil => rfl
  | cons f rest ih => exact congrArg (f :: ·) ih

theorem applied_subset_run (s : Fixer) (fixes : List Fix) : s.applied ⊆ (s.run fixes).1.applied := by
  rw [applied_run]
  exact List.subset_append_left _ _

theorem length_applied_run_le (s : Fixer) (fixes : List Fix) :
    (s.run fixes).1.applied.length ≤ s.applied.length + fixes.length := by
  rw [applied_run, List.length_append]
  refine Nat.add_le_add_left ?_ _
  rw [appliedOf, List.length_map]
  refine Nat.le_trans (List.length_filter_le _ _) ?_
  rw [List.length_zip]
  exact Nat.min_le_left _ _

/-- As many fixes are applied as were handed over exactly if every call applied its fix. -/
theorem length_applied_run_eq_iff (s : Fixer) (fixes : List Fix) :
    (s.run fixes).1.applied.length = s.applied.length + fixes.length ↔
      (s.run fixes).2 = fixes.map fun _ => .applied := by
  induction fixes generalizing s with
  | nil => simp
  | cons f rest ih =>
      simp only [run_cons, List.map_cons, List.cons.injEq, List.length_cons]
      rcases (s.step_apply f).applied_eq with ⟨applied, more⟩ | ⟨notApplied, same⟩
      · rw [← ih, more, List.length_append, List.length_singleton, and_iff_right applied]
        omega
      · have bound := length_applied_run_le (s.apply f).1 rest
        rw [same] at bound
        exact iff_of_false (by omega) fun all => notApplied all.1

theorem mem_of_mem_applied_run {document : Json} {fixes : List Fix} {f : Fix}
    (mem : f ∈ ((ofDocument document).run fixes).1.applied) : f ∈ fixes := by
  rw [applied_run] at mem
  obtain ⟨call, inCalls, rfl⟩ := List.mem_map.1 mem
  exact (List.of_mem_zip (List.mem_filter.1 inCalls).1).1

/-- The fixes that were applied are the ones that were handed over if every call applied its fix. -/
theorem applied_run_of_all {s : Fixer} {fixes : List Fix}
    (all : (s.run fixes).2 = fixes.map fun _ => .applied) :
    (s.run fixes).1.applied = s.applied ++ fixes := by
  rw [applied_run, all, appliedOf_map_applied]

theorem run_of_skipped {s : Fixer} {fixes : List Fix}
    (skips : ∀ f ∈ fixes, ∃ reason, s.apply f = (s, .skipped reason)) :
    (s.run fixes).1 = s ∧ ∀ fault, .failed fault ∉ (s.run fixes).2 := by
  induction fixes with
  | nil => exact ⟨rfl, nofun⟩
  | cons f rest ih =>
      rw [List.forall_mem_cons] at skips
      obtain ⟨⟨reason, call⟩, later⟩ := skips
      obtain ⟨same, noFault⟩ := ih later
      rw [run_cons, call]
      exact ⟨same, by simpa using noFault⟩

/-! ## Batches -/

/-- Only the approved fixes of a list count. -/
theorem applyApproved_filter (document : Json) (fixes : List Fix) :
    applyApproved document (fixes.filter Fix.approved) = applyApproved document fixes := by
  unfold applyApproved
  rw [List.filter_filter]
  simp only [Bool.and_self]

/-- Where no call fails, a batch makes of a document what handing its fixes over makes of it. -/
theorem applyApproved_eq {document : Members} {fixes : List Fix}
    (approved : ∀ f ∈ fixes, f.approved = true)
    (noFault : ∀ fault, .failed fault ∉ ((ofDocument (.obj document)).run fixes).2) :
    (applyApproved (.obj document) fixes).2 =
      .ok ((ofDocument (.obj document)).run fixes).1.document := by
  have result := applyAll_of_run (ofDocument (.obj document)) fixes noFault
  simp only [applyApproved, List.filter_eq_self.2 approved]
  generalize (ofDocument (.obj document)).applyAll fixes = applied at result ⊢
  obtain ⟨log, outcome⟩ := applied
  subst result
  rfl

/-! ## The invariant -/

/-- The applied fixes do not overlap, and they account for the document: on a fresh fixer they are
all applied and lead to this one. -/
structure Consistent (document : Json) (s : Fixer) : Prop where
  apart : s.applied.Pairwise fun done later => done.overlaps later = false
  replays : (ofDocument document).run s.applied = (s, s.applied.map fun _ => .applied)

theorem consistent_ofDocument (document : Json) : Consistent document (ofDocument document) :=
  ⟨.nil, rfl⟩

variable {document : Json} {s : Fixer}

theorem Consistent.apply (consistent : Consistent document s) {fix : Fix}
    (isObject : fix.after.isObject = true) : Consistent document (s.apply fix).1 := by
  have step := s.step_apply fix
  rcases step.applied_eq with ⟨applied, more⟩ | ⟨notApplied, -⟩
  · rw [applied] at step
    refine ⟨?apart, ?replays⟩
    case apart =>
      rw [more, List.pairwise_append]
      refine ⟨consistent.apart, List.pairwise_singleton _ _, fun done isDone later mem => ?_⟩
      rw [List.mem_singleton.1 mem]
      exact step.apart done isDone
    case replays =>
      rw [more, run_append, consistent.replays, run_cons, run_nil, applied, List.map_append]
      rfl
  · rw [step.unchanged isObject notApplied]
    exact consistent

theorem Consistent.run (consistent : Consistent document s) {fixes : List Fix}
    (objects : ∀ fix ∈ fixes, fix.after.isObject = true) : Consistent document (s.run fixes).1 := by
  induction fixes generalizing s with
  | nil => exact consistent
  | cons fix rest ih =>
      rw [run_cons]
      exact ih (consistent.apply (objects fix List.mem_cons_self))
        fun later mem => objects later (List.mem_cons_of_mem _ mem)

/-- **Whatever was tried on a fixer**, its applied fixes are those whose calls applied them, they do
not overlap, a next call that does not apply its fix changes neither the document nor the list, and
the applied fixes alone, given to a fresh fixer, are all applied and lead to the same. -/
theorem run_invariant (document : Json) {tried : List Fix}
    (objects : ∀ fix ∈ tried, fix.after.isObject = true) :
    let s := ((ofDocument document).run tried).1
    s.applied = appliedOf tried ((ofDocument document).run tried).2 ∧
      (s.applied.Pairwise fun done later => done.overlaps later = false) ∧
      (∀ next : Fix, next.after.isObject = true → (s.apply next).2 ≠ .applied →
        (s.apply next).1 = s) ∧
      (ofDocument document).run s.applied = (s, s.applied.map fun _ => .applied) := by
  intro s
  have consistent : Consistent document s := (consistent_ofDocument document).run objects
  refine ⟨applied_run (ofDocument document) tried, consistent.apart, ?_, consistent.replays⟩
  intro next isObject notApplied
  exact (s.step_apply next).unchanged isObject notApplied

end Fixer

namespace Example

def red : Json := .obj [("$value", .str "#f00")]

def palette : Json :=
  .obj [("colors", .obj [("red", red), ("blue", .obj [("$value", .str "#00f")])])]

/-- A fix that gives a colour of the palette its type. -/
def typing (name : String) (before : Json) (after : Members) : Fix where
  id := name
  type := .addType
  path := ""
  description := ""
  before := before
  after := .obj after
  approved := true
  keys := ["colors", name]

def typeRed : Fix := typing "red" red [("$type", .str "color")]

/-- A fix that is applied, the same once more, one that is stale and one that has no type. -/
def tried : List Fix :=
  [typeRed, typeRed, typing "blue" red [("$type", .str "color")],
    typing "blue" (.obj [("$value", .str "#00f")]) []]

theorem tried_replays :
    (∀ fix ∈ tried, fix.after.isObject = true) ∧
      ((Fixer.ofDocument palette).run tried).2 =
        [.applied, .skipped (.overlaps typeRed), .skipped .tokenChanged, .failed .noTypeInFix] ∧
      (Fixer.ofDocument palette).run [typeRed] =
        (((Fixer.ofDocument palette).run tried).1, [.applied]) := by
  have objects : ∀ fix ∈ tried, fix.after.isObject = true := by decide
  exact ⟨objects, rfl, (Fixer.run_invariant palette objects).2.2.2⟩

end Example

end DesignTokens
