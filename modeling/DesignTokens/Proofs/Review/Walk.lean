/-
# DesignTokens.Proofs.Review.Walk -- how a review decides and counts

`Review.Decided` lists the ways in which a fix is decided, each with what it adds to the tally.  It holds
of the fixes seen so far at every step of a walk (`Review.Decided.walk`), so at the stop a walk has split
its fixes into those decided and those still pending (`Review.Walk.Splits`).  Everything about approvals
and numbers follows from that: what is approved does not overlap (`Decided.apart`), and the tally says
how many fixes were approved, how many overlap one approved before them, and how many were decided.
-/
import DesignTokens.Proofs.Fix.Batch
import DesignTokens.Review

namespace DesignTokens

set_option autoImplicit false

/-- The fix as it was before anyone approved it. -/
def Fix.unapproved (f : Fix) : Fix :=
  { f with approved := false }

theorem Fix.unapproved_of_pending {f : Fix} (pending : f.approved = false) : f.unapproved = f := by
  rw [unapproved, ← pending]

namespace Review

/-! ## Decisions -/

/-- Fixes in the order in which they were decided, and the tally of the decisions.  A fix that overlaps
an approved one before it is a conflict, and is not asked about. -/
inductive Decided : List Fix → Tally → Prop where
  | start (total : Nat) : Decided [] ⟨total, 0, 0, 0⟩
  | conflict {seen : List Fix} {tally : Tally} {f done : Fix} (before : Decided seen tally)
      (pending : f.approved = false) (inSeen : done ∈ seen) (approved : done.approved = true)
      (overlap : done.overlaps f = true) :
      Decided (seen ++ [f]) { tally with conflicts := tally.conflicts + 1 }
  | approved {seen : List Fix} {tally : Tally} {f : Fix} (before : Decided seen tally)
      (approved : f.approved = true)
      (apart : ∀ done ∈ seen, done.approved = true → done.overlaps f = false) :
      Decided (seen ++ [f]) { tally with approved := tally.approved + 1 }
  | skipped {seen : List Fix} {tally : Tally} {f : Fix} (before : Decided seen tally)
      (pending : f.approved = false)
      (apart : ∀ done ∈ seen, done.approved = true → done.overlaps f = false) :
      Decided (seen ++ [f]) { tally with skipped := tally.skipped + 1 }

/-- The fixes that overlap an approved one before them, with their places. -/
def overlapped (fixes : List Fix) : List (Fix × Nat) :=
  fixes.zipIdx.filter fun m => (fixes.take m.2).any fun done => done.approved && done.overlaps m.1

theorem overlapped_concat (fixes : List Fix) (f : Fix) :
    overlapped (fixes ++ [f]) = overlapped fixes ++
      if fixes.any fun done => done.approved && done.overlaps f then [(f, fixes.length)] else [] := by
  have before : (fixes.zipIdx.filter fun m =>
      ((fixes ++ [f]).take m.2).any fun done => done.approved && done.overlaps m.1) =
        overlapped fixes := by
    refine List.filter_congr fun m mem => ?_
    have bound : m.2 ≤ fixes.length := by
      have := List.snd_lt_of_mem_zipIdx mem
      omega
    rw [List.take_append_of_le_length bound]
  rw [overlapped, List.zipIdx_append, List.filter_append, before]
  simp [List.filter_singleton]

namespace Decided

variable {seen : List Fix} {tally : Tally}

theorem filter_concat_pending {f : Fix} (pending : f.approved = false) (fixes : List Fix) :
    (fixes ++ [f]).filter Fix.approved = fixes.filter Fix.approved := by
  rw [List.filter_append, List.filter_singleton, pending]
  exact List.append_nil _

theorem filter_concat_approved {f : Fix} (approved : f.approved = true) (fixes : List Fix) :
    (fixes ++ [f]).filter Fix.approved = fixes.filter Fix.approved ++ [f] := by
  rw [List.filter_append, List.filter_singleton, approved]
  rfl

/-- Approved fixes do not overlap. -/
theorem apart (decided : Decided seen tally) : Fix.Apart (seen.filter Fix.approved) := by
  induction decided with
  | start => exact .nil
  | conflict _ pending _ _ _ ih | skipped _ pending _ ih => rwa [filter_concat_pending pending]
  | approved _ approved apart ih =>
      rw [filter_concat_approved approved]
      refine List.pairwise_append.2 ⟨ih, List.pairwise_singleton _ _, fun done isDone g last => ?_⟩
      obtain ⟨inSeen, isApproved⟩ := List.mem_filter.1 isDone
      rw [List.mem_singleton.1 last]
      exact apart done inSeen isApproved

theorem length_approved (decided : Decided seen tally) :
    (seen.filter Fix.approved).length = tally.approved := by
  induction decided with
  | start => rfl
  | conflict _ pending _ _ _ ih | skipped _ pending _ ih => rwa [filter_concat_pending pending]
  | approved _ approved _ ih => rw [filter_concat_approved approved, List.length_append, ih]; rfl

/-- The conflicts are the fixes that overlap an approved one before them. -/
theorem length_overlapped (decided : Decided seen tally) :
    (overlapped seen).length = tally.conflicts := by
  have none {fixes : List Fix} {f : Fix}
      (apart : ∀ done ∈ fixes, done.approved = true → done.overlaps f = false) :
      (fixes.any fun done => done.approved && done.overlaps f) = false := by
    simpa using apart
  induction decided with
  | start => rfl
  | conflict _ _ inSeen approved overlap ih =>
      rw [overlapped_concat, if_pos, List.length_append, ih]
      · rfl
      · exact List.any_eq_true.2 ⟨_, inSeen, by rw [approved, overlap]; rfl⟩
  | approved _ _ apart ih | skipped _ _ apart ih =>
      rw [overlapped_concat, none apart]
      simpa using ih

/-- Every decided fix is counted once. -/
theorem sum_eq_length (decided : Decided seen tally) :
    tally.approved + tally.skipped + tally.conflicts = seen.length := by
  induction decided with
  | start => rfl
  | conflict _ _ _ _ _ ih | approved _ _ _ ih | skipped _ _ _ ih =>
      rw [List.length_append, ← ih, List.length_singleton]
      dsimp only
      omega

end Decided

/-! ## Walks -/

/-- What a walk over some fixes has come to: those it has decided, with their tally, and those that are
still pending. -/
structure Walk.Splits (w : Walk) (collected decided pending : List Fix) : Prop where
  fixes_eq : w.fixes = decided ++ pending
  same : w.fixes.map Fix.unapproved = collected.map Fix.unapproved
  decides : Decided decided w.tally
  unasked : ∀ f ∈ pending, f.approved = false
  finished : w.stop = .finished ↔ pending = []

namespace Walk.Splits

variable {w : Walk} {collected decided pending : List Fix}

theorem after (splits : w.Splits collected decided pending) (shown : Transcript) :
    (w.after shown).Splits collected decided pending :=
  ⟨splits.fixes_eq, splits.same, splits.decides, splits.unasked, splits.finished⟩

/-- Approvals given on the way make no difference to which fixes a walk is over. -/
theorem of_same {fixes : List Fix} (splits : w.Splits fixes decided pending)
    (same : fixes.map Fix.unapproved = collected.map Fix.unapproved) :
    w.Splits collected decided pending :=
  { splits with same := splits.same.trans same }

/-- Only decided fixes are approved. -/
theorem filter_approved (splits : w.Splits collected decided pending) :
    w.fixes.filter Fix.approved = decided.filter Fix.approved := by
  have none : pending.filter Fix.approved = [] :=
    List.filter_eq_nil_iff.2 fun f mem => by simp [splits.unasked f mem]
  rw [splits.fixes_eq, List.filter_append, none, List.append_nil]

/-- Every fix of a walk is one of those it is over, approved or not. -/
theorem exists_collected (splits : w.Splits collected decided pending) {f : Fix} (mem : f ∈ w.fixes) :
    ∃ g ∈ collected, g.unapproved = f.unapproved :=
  List.mem_map.1 (splits.same ▸ List.mem_map_of_mem mem)

end Walk.Splits

theorem apart_of_conflicting? {seen : List Fix} {f : Fix} (free : conflicting? seen f = none) :
    ∀ done ∈ seen, done.approved = true → done.overlaps f = false := by
  intro done inSeen approved
  have noConflict := List.find?_eq_none.1 free done inSeen
  rwa [approved, Bool.true_and, Bool.not_eq_true] at noConflict

theorem walk_total (display : Display) (approveAll : Bool) (seen : List Fix) (tally : Tally)
    (answers : List Char) (rest : List Fix) :
    (walk display approveAll seen tally answers rest).tally.total = tally.total := by
  induction rest generalizing seen tally answers with
  | nil => rfl
  | cons f rest ih =>
      rw [walk]
      split
      · exact ih _ _ answers
      · dsimp only
        split
        · rfl
        · rfl
        · exact ih _ _ _
        · exact ih _ _ _

/-- **A walk decides fixes in their order**, each by what was decided before it, until it stops. -/
theorem Decided.walk {seen rest : List Fix} {tally : Tally} (decided : Decided seen tally)
    (display : Display) (approveAll : Bool) (answers : List Char)
    (unasked : ∀ f ∈ rest, f.approved = false) :
    ∃ all pending,
      (walk display approveAll seen tally answers rest).Splits (seen ++ rest) all pending := by
  induction rest generalizing seen tally answers with
  | nil =>
      rw [Review.walk, List.append_nil]
      exact ⟨seen, [], (List.append_nil seen).symm, rfl, decided, nofun, iff_of_true rfl rfl⟩
  | cons f rest ih =>
      obtain ⟨pending, unaskedRest⟩ := List.forall_mem_cons.1 unasked
      have regroup (g : Fix) (same : g.unapproved = f.unapproved) :
          ((seen ++ [g]) ++ rest).map Fix.unapproved = (seen ++ f :: rest).map Fix.unapproved := by
        simp [same]
      -- Each way to go on is a way to decide the fix, and what is left is a walk over the rest.
      rw [Review.walk]
      cases conflict : conflicting? seen f with
      | some done =>
          obtain ⟨approved, overlap⟩ : done.approved = true ∧ done.overlaps f = true := by
            simpa using List.find?_some conflict
          have step := decided.conflict pending (List.mem_of_find?_eq_some conflict) approved overlap
          obtain ⟨all, left, splits⟩ := ih step answers unaskedRest
          exact ⟨all, left, (splits.after _).of_same (regroup f rfl)⟩
      | none =>
          have apart := apart_of_conflicting? conflict
          dsimp only
          -- Out of answers, or told to quit: the fix stays pending.
          split
          · exact ⟨seen, f :: rest, rfl, rfl, decided, unasked, iff_of_false nofun nofun⟩
          · exact ⟨seen, f :: rest, rfl, rfl, decided, unasked, iff_of_false nofun nofun⟩
          · rename_i more _
            have step := decided.approved (f := { f with approved := true }) rfl apart
            obtain ⟨all, left, splits⟩ := ih step more unaskedRest
            exact ⟨all, left, (splits.after _).of_same (regroup _ rfl)⟩
          · rename_i more _
            obtain ⟨all, left, splits⟩ := ih (decided.skipped pending apart) more unaskedRest
            exact ⟨all, left, (splits.after _).of_same (regroup f rfl)⟩

/-- What a review of fixes that nobody has approved comes to. -/
theorem exists_splits (display : Display) (approveAll : Bool) (answers : List Char)
    {collected : List Fix} (unasked : ∀ f ∈ collected, f.approved = false) :
    ∃ decided pending,
      (ofFixes display approveAll answers collected).Splits collected decided pending :=
  (Decided.start collected.length).walk display approveAll answers unasked

end Review

end DesignTokens
