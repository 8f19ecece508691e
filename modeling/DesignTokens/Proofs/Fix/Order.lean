/-
# DesignTokens.Proofs.Fix.Order -- which fixes are applied, and that their order does not matter

Of fixes that do not overlap, a call skips only those whose flat names contend with an applied fix
(`Batch.call_of_apart`).  So all of them are applied exactly if no two contend (`applied_iff`), which
is a matter of pairs and not of the order; and the document a batch makes does not depend on the
order either.  Hence a list of fixes that can be applied in one order can be applied in every order,
with the same outcome, down to the order of the keys (`applyApproved_perm`).
-/
import DesignTokens.Proofs.Fix.Batch

namespace DesignTokens

set_option autoImplicit false

namespace Fixer

variable {document : Members} {s : Fixer} {fixes : List Fix}

/-- A call whose fix overlaps no applied one applies it, unless it contends with one. -/
theorem Batch.call_of_apart (batch : s.Batch document) (keyed : (Json.obj document).isKeyed = true)
    {f : Fix} (offered : f.Offered document) (apart : ∀ done ∈ s.applied, done.overlaps f = false) :
    ((∀ done ∈ s.applied, ¬ done.Contend f) ∧ (s.apply f).2 = .applied) ∨
      ((∃ done ∈ s.applied, done.Contend f) ∧
        ∃ names, s.apply f = (s, .skipped (.wouldOverwrite names))) := by
  cases batch.call keyed offered with
  | overlapping applied overlap =>
      rw [apart _ applied] at overlap
      cases overlap
  | contending _ applied contend call => exact .inr ⟨⟨_, applied, contend⟩, _, call⟩
  | applied _ compatible call => exact .inl ⟨compatible, by rw [call]⟩

/-- **All fixes of a list without overlaps are applied exactly if no two contend.** -/
theorem Batch.all_applied_iff (batch : s.Batch document) (keyed : (Json.obj document).isKeyed = true)
    (offered : ∀ f ∈ fixes, f.Offered document) (apart : Fix.Apart (s.applied ++ fixes)) :
    ((s.run fixes).2 = fixes.map fun _ => .applied) ↔
      (s.applied ++ fixes).Pairwise fun e f => ¬ e.Contend f := by
  induction fixes generalizing s with
  | nil => simpa using batch.compatible
  | cons f rest ih =>
      have later := fun e mem => offered e (List.mem_cons_of_mem _ mem)
      rw [run_cons, List.map_cons, List.cons.injEq]
      cases batch.call keyed (offered f List.mem_cons_self) with
      | overlapping applied overlap =>
          have none := (List.pairwise_append.1 apart).2.2 _ applied f List.mem_cons_self
          rw [none] at overlap
          cases overlap
      | contending _ applied contend call =>
          rw [call]
          refine ⟨fun wrong => (nomatch wrong.1), fun compatible => ?_⟩
          exact absurd contend
            ((List.pairwise_append.1 compatible).2.2 _ applied f List.mem_cons_self)
      | applied _ _ call applied_eq next =>
          rw [call]
          rw [List.append_cons, ← applied_eq] at apart ⊢
          rw [ih next later apart]
          exact and_iff_right rfl

theorem applied_iff (keyed : (Json.obj document).isKeyed = true)
    (collected : ∀ f ∈ fixes, f ∈ Fix.offers (.obj document)) (apart : Fix.Apart fixes) :
    (((ofDocument (.obj document)).run fixes).2 = fixes.map fun _ => .applied) ↔
      fixes.Pairwise fun e f => ¬ e.Contend f :=
  (batch_ofDocument keyed).all_applied_iff keyed
    (fun f mem => (Fix.offered_of_mem_offers (collected f mem)).1) apart

/-- **The order of fixes does not matter.**  If fixes that a document offers do not overlap and are
all applied in one order, they are all applied in every order, and the documents are the same. -/
theorem applyApproved_perm (keyed : (Json.obj document).isKeyed = true) {fixes' : List Fix}
    (collected : ∀ f ∈ fixes, f ∈ Fix.offers (.obj document))
    (apart : fixes.Pairwise fun e f => e.overlaps f = false)
    (all : ((ofDocument (.obj document)).run fixes).2 = fixes.map fun _ => .applied)
    (perm : fixes'.Perm fixes) :
    (((ofDocument (.obj document)).run fixes').2 = fixes'.map fun _ => .applied) ∧
      ∃ patched, (applyApproved (.obj document) fixes).2 = .ok patched ∧
        (applyApproved (.obj document) fixes').2 = .ok patched := by
  have collected' : ∀ f ∈ fixes', f ∈ Fix.offers (.obj document) :=
    fun f mem => collected f (perm.mem_iff.1 mem)
  have apart' : Fix.Apart fixes' :=
    perm.symm.pairwise apart fun none => Fix.overlaps_comm _ _ ▸ none
  have compatible := (applied_iff keyed collected apart).1 all
  have compatible' : fixes'.Pairwise fun e f => ¬ e.Contend f :=
    perm.symm.pairwise compatible fun free contend => free contend.symm
  have all' := (applied_iff keyed collected' apart').2 compatible'
  obtain ⟨batch, result⟩ := batch_run keyed collected
  obtain ⟨batch', result'⟩ := batch_run keyed collected'
  have samePlan : Fix.plan fixes' = Fix.plan fixes := Fix.Apart.plan_perm apart perm
  refine ⟨all', _, result, ?_⟩
  rw [result', batch'.document_eq, batch.document_eq, applied_run_of_all all, applied_run_of_all all']
  exact congrArg (fun plan => Except.ok ((Json.obj document).substitute plan)) samePlan

end Fixer

namespace Example

def fourPixels : Members := [("$value", .str "4px")]

/-- Two clusters side by side, and a token without a type. -/
def spacing : Members :=
  [("space", .obj [("inner", .obj [("small", .obj (fourPixels.put Key.type (.str "dimension")))]),
    ("gap", .obj fourPixels),
    ("outer", .obj [("base", .obj (fourPixels.put Key.type (.str "dimension")))])])]

def spacingFixes : List Fix :=
  Fix.offers (.obj spacing)

theorem spacing_any_order :
    spacingFixes.map Fix.target = [["space", "gap"], ["space", "inner"], ["space", "outer"]] ∧
      ((Fixer.ofDocument (.obj spacing)).run spacingFixes.reverse).2 =
        spacingFixes.reverse.map (fun _ => .applied) ∧
      ∃ patched, (applyApproved (.obj spacing) spacingFixes).2 = .ok patched ∧
        (applyApproved (.obj spacing) spacingFixes.reverse).2 = .ok patched := by
  have keyed : (Json.obj spacing).isKeyed = true := by decide
  have apart : spacingFixes.Pairwise fun e f => e.overlaps f = false := by decide
  have all : ((Fixer.ofDocument (.obj spacing)).run spacingFixes).2 =
      spacingFixes.map fun _ => .applied := rfl
  exact ⟨by decide, Fixer.applyApproved_perm keyed (fun _ mem => mem) apart all (List.reverse_perm _)⟩

end Example

end DesignTokens
