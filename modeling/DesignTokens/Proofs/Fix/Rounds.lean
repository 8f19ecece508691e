/-
# DesignTokens.Proofs.Fix.Rounds -- fixing a document until there is nothing to fix

One round does not always do: a type that is given inside a cluster keeps the cluster from being
flattened, a flattening makes a cluster of the group around it, and the tokens that it makes of bare
values may lack a type.  But as long as a document offers fixes, the first of them is applied, the
document changes, and less work is left (`Fix.round_spec`).  So the rounds come to an end
(`Fix.rounds_converge`).
-/
import DesignTokens.Proofs.Fix.Work

namespace DesignTokens

set_option autoImplicit false

namespace Fixer

variable {document : Members} {s : Fixer}

/-- A document in which a fix was applied is no longer equal to what it was: the node of the fix is not
found again. -/
theorem Batch.equal_eq_false (batch : s.Batch document) (keyed : (Json.obj document).isKeyed = true)
    (applied : s.applied ≠ []) : s.document.equal (.obj document) = false := by
  obtain ⟨f, mem⟩ := List.exists_mem_of_ne_nil _ applied
  obtain ⟨above, name, parent, node, fits⟩ := (batch.offered f mem).fits keyed
  rw [Fix.equal_obj_right, Bool.eq_false_iff]
  intro equal
  obtain ⟨value, leads, same⟩ := Json.same_at? batch.keyed equal fits.at?_target
  rw [batch.moved keyed mem fits leads] at same
  cases same

/-- The first of offered fixes is applied, since there is nothing that could be in its way. -/
theorem run_ofDocument_cons (keyed : (Json.obj document).isKeyed = true) {f : Fix}
    (offered : f.Offered document) (rest : List Fix) :
    .applied ∈ ((ofDocument (.obj document)).run (f :: rest)).2 ∧
      f ∈ ((ofDocument (.obj document)).run (f :: rest)).1.applied := by
  rw [run_cons]
  cases (batch_ofDocument keyed).call keyed offered with
  | overlapping applied => cases applied
  | contending _ applied => cases applied
  | applied _ _ call applied_eq =>
      rw [call]
      refine ⟨List.mem_cons_self, applied_subset_run _ rest ?_⟩
      rw [applied_eq]
      exact List.mem_append_right _ (List.mem_singleton_self f)

end Fixer

namespace Fix

/-- A round: all fixes that a document offers are approved, and applied in the order in which they
were collected. -/
def round (document : Json) : Except Fault Json :=
  (applyApproved document (offers document)).2

/-- A document after some rounds. -/
def rounds (document : Json) : Nat → Except Fault Json
  | 0 => .ok document
  | n + 1 => (rounds document n).bind round

theorem rounds_succ {document current : Json} {n : Nat} (reached : rounds document n = .ok current) :
    rounds document (n + 1) = round current := by
  rw [rounds, reached]
  rfl

theorem offers_eq_nil_iff (document : Json) : offers document = [] ↔ collect document = [] := by
  rw [offers, approve, List.map_eq_nil_iff]

/-- What a round that is not the last achieves. -/
structure Progress (document next : Members) : Prop where
  applies : .applied ∈ ((Fixer.ofDocument (.obj document)).run (offers (.obj document))).2
  changes : (Json.obj next).equal (.obj document) = false
  lessens : Members.work next < Members.work document

/-- **A round succeeds, and as long as there are fixes it makes progress.** -/
theorem round_spec {document : Members} (keyed : (Json.obj document).isKeyed = true) :
    ∃ next : Members, round (.obj document) = .ok (.obj next) ∧ (Json.obj next).isKeyed = true ∧
      (collect (.obj document) ≠ [] → Progress document next) := by
  obtain ⟨batch, result⟩ := Fixer.batch_run keyed fun f mem => mem
  have resultKeyed := batch.keyed
  rw [batch.document_obj] at result resultKeyed
  refine ⟨_, result, resultKeyed, fun more => ?_⟩
  rw [Ne, ← offers_eq_nil_iff] at more
  obtain ⟨f, rest, split⟩ := List.exists_cons_of_ne_nil more
  have first : f ∈ offers (.obj document) := split ▸ List.mem_cons_self
  obtain ⟨applies, applied⟩ :=
    Fixer.run_ofDocument_cons keyed (offered_of_mem_offers first).1 rest
  rw [← split] at applies applied
  have someApplied := List.ne_nil_of_mem applied
  have changes := batch.equal_eq_false keyed someApplied
  rw [batch.document_obj] at changes
  exact ⟨applies, changes, batch.work_lt keyed someApplied⟩

variable {document : Members}

/-- Every round is reached, and what is reached is an object with each key once. -/
theorem exists_rounds_eq (keyed : (Json.obj document).isKeyed = true) (n : Nat) :
    ∃ current : Members, rounds (.obj document) n = .ok (.obj current) ∧
      (Json.obj current).isKeyed = true := by
  induction n with
  | zero => exact ⟨document, rfl, keyed⟩
  | succ n ih =>
      obtain ⟨current, reached, currentKeyed⟩ := ih
      obtain ⟨next, step, nextKeyed, -⟩ := round_spec currentKeyed
      exact ⟨next, (rounds_succ reached).trans step, nextKeyed⟩

/-- From wherever the rounds are they come to an end, by induction on the work that is left. -/
theorem exists_rounds_done {start : Json} {current : Members} {n : Nat}
    (reached : rounds start n = .ok (.obj current)) (keyed : (Json.obj current).isKeyed = true) :
    ∃ n patched, rounds start n = .ok patched ∧ collect patched = [] := by
  induction left : Members.work current using WellFoundedLT.induction generalizing current n with
  | _ work ih =>
      by_cases done : collect (.obj current) = []
      · exact ⟨n, .obj current, reached, done⟩
      · obtain ⟨next, step, nextKeyed, progress⟩ := round_spec keyed
        have less := left ▸ (progress done).lessens
        exact ih _ less ((rounds_succ reached).trans step) nextKeyed rfl

/-- **Repeated fixing converges.**  Some round leaves a document that offers no fixes, and every round
before applies a fix and changes the document. -/
theorem rounds_converge (keyed : (Json.obj document).isKeyed = true) :
    (∃ n patched, rounds (.obj document) n = .ok patched ∧ collect patched = []) ∧
      ∀ n, ∃ current, rounds (.obj document) n = .ok current ∧
        (collect current ≠ [] →
          .applied ∈ ((Fixer.ofDocument current).run (offers current)).2 ∧
          ∃ next, rounds (.obj document) (n + 1) = .ok next ∧ next.equal current = false) := by
  have start : rounds (.obj document) 0 = .ok (.obj document) := rfl
  refine ⟨exists_rounds_done start keyed, fun n => ?_⟩
  obtain ⟨current, reached, currentKeyed⟩ := exists_rounds_eq keyed n
  obtain ⟨next, step, -, progress⟩ := round_spec currentKeyed
  refine ⟨.obj current, reached, fun more => ⟨(progress more).applies, .obj next, ?_, ?_⟩⟩
  · exact (rounds_succ reached).trans step
  · exact (progress more).changes

end Fix

namespace Example

/-- A token without a type, in a cluster that stands alone in its group. -/
def layered : Members :=
  [("colors", .obj [("brand", .obj [("on", .obj [("base", red)])])])]

def flattened : Json :=
  .obj [("colors", .obj [("brand-on", .obj [("$value", .str "#f00"), ("$type", .str "color")])])]

/-- The first round gives the type, the second flattens the cluster, the third the group around it. -/
theorem layered_converges :
    Fix.rounds (.obj layered) 3 = .ok flattened ∧ Fix.collect flattened = [] ∧
      (∃ n patched, Fix.rounds (.obj layered) n = .ok patched ∧ Fix.collect patched = []) ∧
      ∃ second third, Fix.rounds (.obj layered) 2 = .ok second ∧
        Fix.rounds (.obj layered) 3 = .ok third ∧ third.equal second = false := by
  have keyed : (Json.obj layered).isKeyed = true := by decide
  obtain ⟨ends, onward⟩ := Fix.rounds_converge keyed
  refine ⟨rfl, rfl, ends, ?_⟩
  obtain ⟨second, reached, more⟩ := onward 2
  cases reached
  obtain ⟨-, third, step, changed⟩ := more nofun
  exact ⟨_, third, rfl, step, changed⟩

end Example

end DesignTokens
