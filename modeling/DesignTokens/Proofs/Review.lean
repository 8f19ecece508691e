/-
# DesignTokens.Proofs.Review -- what is approved and what is applied

The fixes that a review approves never overlap, and the tally says how many they are
(`Review.sound_ofFixes`).  It has something to write exactly if that is due (`Review.Walk.Due`), which
is the document with these fixes applied (`Review.dump_of_plan`).

Fixes without overlaps are nearly all applied: the only thing that keeps
one from being applied is a flattening beside it that was applied before and has taken one of its
flat names (`Fixer.applied_unless_contending`).  Each of the two alone would have been mended, since
neither name is in use in the document; together they would give one name to two tokens.
-/
import DesignTokens.Proofs.Fix.Order
import DesignTokens.Proofs.Plan
import DesignTokens.Proofs.Review.Walk

namespace DesignTokens

set_option autoImplicit false

namespace Fix

/-- There are no conflicts exactly if the approved fixes do not overlap. -/
theorem conflicts_eq_nil_iff (fixes : List Fix) :
    conflicts fixes = [] ↔ Apart (fixes.filter Fix.approved) := by
  induction fixes with
  | nil => simp [conflicts, Apart]
  | cons f rest ih =>
      rw [conflicts, List.append_eq_nil_iff, ih]
      cases approved : f.approved with
      | false => simp [approved]
      | true => simp [approved, Apart, List.filter_eq_nil_iff]

/-- No fix is approved when it is collected. -/
theorem approved_of_mem_collect {document : Json} {f : Fix} (mem : f ∈ collect document) :
    f.approved = false := by
  cases document with
  | obj ms =>
      rcases List.mem_append.1 mem with typing | flattening
      · obtain ⟨_, _, rfl⟩ := List.mem_map.1 typing
        rfl
      · obtain ⟨_, _, rfl⟩ := List.mem_map.1 flattening
        rfl
  | _ => cases mem

end Fix

/-! ## Approvals -/

namespace Review

/-- Among the fixes seen in a review the approved ones come from those collected, do not overlap, and
are as many as the tally says. -/
structure Sound (collected seen : List Fix) (tally : Tally) : Prop where
  chosen : ∀ f ∈ seen.filter Fix.approved, f ∈ Fix.approve none true collected
  apart : Fix.Apart (seen.filter Fix.approved)
  counted : (seen.filter Fix.approved).length = tally.approved

/-- **What is approved in a review** does not overlap and is counted. -/
theorem sound_ofFixes {collected : List Fix} (display : Display) (approveAll : Bool)
    (answers : List Char) (pending : ∀ f ∈ collected, f.approved = false) :
    Sound collected (ofFixes display approveAll answers collected).fixes
      (ofFixes display approveAll answers collected).tally := by
  obtain ⟨decided, _, splits⟩ := exists_splits display approveAll answers pending
  refine ⟨fun f mem => ?chosen, ?apart, ?counted⟩
  case chosen =>
    obtain ⟨inFixes, approved⟩ := List.mem_filter.1 mem
    obtain ⟨g, collected, same⟩ := splits.exists_collected inFixes
    refine List.mem_map.2 ⟨g, collected, ?_⟩
    calc { g with approved := true } = { f.unapproved with approved := true } := by
          rw [← same]
          rfl
      _ = f := by rw [← approved]; rfl
  case apart =>
    rw [splits.filter_approved]
    exact splits.decides.apart
  case counted =>
    rw [splits.filter_approved]
    exact splits.decides.length_approved

/-! ## How a review ends -/

/-- How a review ends once its walk has stopped, each way with what led to it. -/
inductive Ends (settings : Settings) (display : Display) (mode : Mode) (document : Json) (w : Walk) :
    Except Fault (Finish Walk) → Prop where
  | outOfAnswers (stop : w.stop = .outOfAnswers) :
      Ends settings display mode document w (.error .endOfInput)
  | unwritten (stop : w.stop ≠ .outOfAnswers) (why : w.tally.approved = 0 ∨ mode.dryRun = true)
      (last : Transcript) : Ends settings display mode document w (.ok ⟨none, last, w⟩)
  | failed {fault : Fault} (stop : w.stop ≠ .outOfAnswers) (approved : w.tally.approved ≠ 0)
      (wet : mode.dryRun = false) (why : (applyApproved document w.fixes).2 = .error fault ∨
        ∃ patched, (applyApproved document w.fixes).2 = .ok patched ∧
          Document.dump settings none patched = .error fault) :
      Ends settings display mode document w (.error fault)
  | written {patched : Json} {text : String} (stop : w.stop ≠ .outOfAnswers)
      (approved : w.tally.approved ≠ 0) (wet : mode.dryRun = false)
      (applied : (applyApproved document w.fixes).2 = .ok patched)
      (dumps : Document.dump settings none patched = .ok text) (last : Transcript) :
      Ends settings display mode document w
        (.ok ⟨some ⟨mode.output, text, display.halves⟩, last, w⟩)

/-- A walk after which a text is to be written: it has stopped in good time with something approved, it is
not only tried out, and the text is that of the document with the approved fixes applied. -/
structure Walk.Due (w : Walk) (settings : Settings) (mode : Mode) (document : Json) (text : String) :
    Prop where
  stop : w.stop ≠ .outOfAnswers
  approved : 0 < w.tally.approved
  wet : mode.dryRun = false
  dumps : ∃ patched, (applyApproved document w.fixes).2 = .ok patched ∧
    Document.dump settings none patched = .ok text

section Ends

variable {settings : Settings} {display : Display} {mode : Mode} {document : Json} {w : Walk}
  {finish : Finish Walk}

/-- A review that ends well has stopped in good time, and its result is its walk. -/
theorem Ends.result_eq (ends : Ends settings display mode document w (.ok finish)) :
    finish.result = w ∧ w.stop ≠ .outOfAnswers := by
  cases ends with
  | unwritten stop | written stop => exact ⟨rfl, stop⟩

/-- A review that has run out of answers ends there. -/
theorem Ends.eq_endOfInput {ending : Except Fault (Finish Walk)}
    (ends : Ends settings display mode document w ending) (stop : w.stop = .outOfAnswers) :
    ending = .error .endOfInput := by
  cases ends with
  | outOfAnswers => rfl
  | unwritten other | failed other | written other => exact absurd stop other

/-- A review that ends well writes exactly if something is approved and it is not only tried out. -/
theorem Ends.exists_writing_iff (ends : Ends settings display mode document w (.ok finish)) :
    (∃ written, finish.writing = some written) ↔ w.tally.approved ≠ 0 ∧ mode.dryRun = false := by
  cases ends with
  | unwritten _ why =>
      refine iff_of_false nofun fun both => ?_
      rcases why with none | dry
      · exact both.1 none
      · rw [both.2] at dry
        cases dry
  | written _ approved wet => exact iff_of_true ⟨_, rfl⟩ ⟨approved, wet⟩

/-- A review comes to its end with something to write exactly if that is due. -/
theorem Ends.exists_writing_eq_iff {ending : Except Fault (Finish Walk)}
    (ends : Ends settings display mode document w ending) {written : Writing} :
    (∃ finish, ending = .ok finish ∧ finish.writing = some written) ↔
      ∃ text, written = ⟨mode.output, text, display.halves⟩ ∧ w.Due settings mode document text := by
  constructor
  · rintro ⟨finish, rfl, writes⟩
    cases ends with
    | unwritten => cases writes
    | written stop approved wet applied dumps =>
        cases writes
        exact ⟨_, rfl, stop, Nat.pos_of_ne_zero approved, wet, _, applied, dumps⟩
  · rintro ⟨text, rfl, stop, approved, wet, patched, applied, dumps⟩
    cases ends with
    | outOfAnswers other => exact absurd other stop
    | unwritten _ why =>
        rcases why with none | dry
        · omega
        · rw [wet] at dry
          cases dry
    | failed _ _ _ why =>
        rcases why with failed | ⟨other, applied', failed⟩
        · cases failed.symm.trans applied
        · cases applied'.symm.trans applied
          cases failed.symm.trans dumps
    | written _ _ _ applied' dumps' last =>
        cases applied'.symm.trans applied
        cases dumps'.symm.trans dumps
        exact ⟨_, rfl, rfl⟩

end Ends

theorem ends_closing (settings : Settings) (display : Display) (mode : Mode) (document : Json)
    (w : Walk) :
    Ends settings display mode document w (closing settings display mode document w).finish := by
  unfold closing
  split
  · rename_i stop
    exact .outOfAnswers stop
  · rename_i stop
    dsimp only
    split
    · rename_i none
      exact .unwritten stop (.inl none) _
    · rename_i approved
      split
      · rename_i dry
        exact .unwritten stop (.inr dry) _
      · rename_i wet
        rw [Bool.not_eq_true] at wet
        unfold writingPlan
        split
        · rename_i log fault failed
          exact .failed stop approved wet (.inl (by rw [failed]))
        · rename_i log patched applied
          have result : (applyApproved document w.fixes).2 = .ok patched := by rw [applied]
          split
          · rename_i fault failed
            exact .failed stop approved wet (.inr ⟨patched, result, failed⟩)
          · rename_i text dumps
            exact .written stop approved wet result dumps _

/-- **How a review ends.** -/
theorem ends_plan (settings : Settings) (display : Display) (mode : Mode) (document : Json)
    (answers : List Char) :
    Ends settings display mode document
      (ofFixes display mode.approveAll answers (Fix.collect document))
      (plan settings display mode document answers).finish := by
  unfold plan
  dsimp only
  split
  · rename_i nothing
    obtain ⟨decided, pending, splits⟩ := exists_splits display mode.approveAll answers fun _ mem =>
      Fix.approved_of_mem_collect mem
    rw [splits.fixes_eq, List.isEmpty_iff, List.append_eq_nil_iff] at nothing
    obtain ⟨rfl, rfl⟩ := nothing
    refine .unwritten ?_ (.inl splits.decides.length_approved.symm) _
    rw [splits.finished.2 rfl]
    decide
  · exact ends_closing settings display mode document _

/-- **What a review writes** is the document with the approved fixes applied. -/
theorem dump_of_plan {settings : Settings} {display : Display} {mode : Mode} {document : Json}
    {answers : List Char} {finish : Finish Walk} {written : Writing}
    (done : (plan settings display mode document answers).finish = .ok finish)
    (writes : finish.writing = some written) :
    ∃ patched,
      (applyApproved document
        (ofFixes display mode.approveAll answers (Fix.collect document)).fixes).2 = .ok patched ∧
      Document.dump settings none patched = .ok written.text := by
  have ends := ends_plan settings display mode document answers
  obtain ⟨text, rfl, due⟩ := ends.exists_writing_eq_iff.1 ⟨finish, done, writes⟩
  exact due.dumps

end Review

/-! ## Approved fixes -/

namespace Fixer

variable {document : Members} {fixes : List Fix}

/-- A call applies its fix, unless a flat name of the fix has been given away beside its node. -/
def AppliesUnlessContending (s : Fixer) (f : Fix) : Prop :=
  ((∀ done ∈ s.applied, ¬ done.Contend f) ∧ (s.apply f).2 = .applied) ∨
    ((∃ done ∈ s.applied, done.Contend f) ∧
      ∃ names, s.apply f = (s, .skipped (.wouldOverwrite names)))

theorem appliesUnlessContending_of_apart (keyed : (Json.obj document).isKeyed = true)
    {front back : List Fix} {f : Fix} (offered : ∀ e ∈ front ++ f :: back, e.Offered document)
    (apart : Fix.Apart (front ++ f :: back)) :
    ((ofDocument (.obj document)).run front).1.AppliesUnlessContending f := by
  obtain ⟨batch, -⟩ := (batch_ofDocument keyed).run keyed fun e mem =>
    offered e (List.mem_append_left _ mem)
  refine batch.call_of_apart keyed (offered f (by simp)) fun done applied => ?_
  exact (List.pairwise_append.1 apart).2.2 done (mem_of_mem_applied_run applied) f List.mem_cons_self

/-- **What is approved without overlaps is applied, save what contends.**  Of fixes without conflicts
each is applied unless it contends with one that was applied before, so all are applied exactly if no
two contend; nothing fails.  The fixes approved in a review are without conflicts, and in the document
that it writes as many are applied as were approved exactly if no two contend. -/
theorem applied_unless_contending (keyed : (Json.obj document).isKeyed = true) :
    (∀ fixes : List Fix, (∀ f ∈ fixes, f ∈ Fix.offers (.obj document)) →
      Fix.conflicts fixes = [] →
        (∀ front f back, fixes = front ++ f :: back →
          ((ofDocument (.obj document)).run front).1.AppliesUnlessContending f) ∧
        (((ofDocument (.obj document)).run fixes).2 = fixes.map (fun _ => .applied) ↔
          fixes.Pairwise fun e f => ¬ e.Contend f) ∧
        (applyApproved (.obj document) fixes).2 =
          .ok ((ofDocument (.obj document)).run fixes).1.document) ∧
    ∀ (settings : Settings) (display : Display) (mode : Review.Mode) (answers : List Char),
      let review := Review.ofFixes display mode.approveAll answers (Fix.collect (.obj document))
      let chosen := review.fixes.filter Fix.approved
      let s := ((ofDocument (.obj document)).run chosen).1
      Fix.conflicts review.fixes = [] ∧
        (∀ finish written,
          (Review.plan settings display mode (.obj document) answers).finish = .ok finish →
          finish.writing = some written →
            Document.dump settings none s.document = .ok written.text) ∧
        (s.applied.length = review.tally.approved ↔ chosen.Pairwise fun e f => ¬ e.Contend f) := by
  constructor
  case left =>
    intro fixes collected noConflict
    obtain ⟨-, result⟩ := batch_run keyed collected
    have offered := fun f mem => (Fix.offered_of_mem_offers (collected f mem)).1
    have approved := fun f mem => (Fix.offered_of_mem_offers (collected f mem)).2
    have apart : Fix.Apart fixes := by
      rwa [Fix.conflicts_eq_nil_iff, List.filter_eq_self.2 approved] at noConflict
    refine ⟨fun front f back split => ?_, applied_iff keyed collected apart, result⟩
    subst split
    exact appliesUnlessContending_of_apart keyed offered apart
  case right =>
    intro settings display mode answers review chosen s
    have pending : ∀ f ∈ Fix.collect (.obj document), f.approved = false :=
      fun f mem => Fix.approved_of_mem_collect mem
    have sound := Review.sound_ofFixes display mode.approveAll answers pending
    obtain ⟨-, result⟩ := batch_run keyed sound.chosen
    rw [applyApproved_filter] at result
    refine ⟨(Fix.conflicts_eq_nil_iff _).2 sound.apart, fun finish written done writes => ?_, ?_⟩
    · obtain ⟨patched, result', dumps⟩ := Review.dump_of_plan done writes
      cases result.symm.trans result'
      exact dumps
    have counted := length_applied_run_eq_iff (ofDocument (.obj document)) chosen
    rw [applied_iff keyed sound.chosen sound.apart] at counted
    rw [← counted, ← sound.counted]
    exact iff_of_eq (congrArg _ (Nat.zero_add _).symm)

end Fixer

namespace Example

def typedRed : Json := .obj [("$value", .str "#f00"), ("$type", .str "color")]

/-- Two clusters in one parent, both with a token for the flat name `on-dark-text`. -/
def rivals : Members :=
  [("colors", .obj [("on", .obj [("dark-text", typedRed)]), ("on-dark", .obj [("text", typedRed)])])]

def rivalFixes : List Fix :=
  Fix.offers (.obj rivals)

/-- The review that approves whatever does not overlap. -/
def rivalReview : Review.Walk :=
  Review.ofFixes plainDisplay true [] (Fix.collect (.obj rivals))

def rivalMode : Review.Mode := ⟨.ofText "tokens.json", true, false⟩

/-- The rivals with the first of them flattened. -/
def halfFlat : Json :=
  .obj [("colors", .obj [("on-dark-text", typedRed), ("on-dark", .obj [("text", typedRed)])])]

theorem rivals_contend :
    (Json.obj rivals).isKeyed = true ∧ Fix.conflicts rivalFixes = [] ∧
      ¬ (rivalFixes.Pairwise fun e f => ¬ e.Contend f) ∧
      ∃ finish written,
        (Review.plan plainSettings plainDisplay rivalMode (.obj rivals) []).finish = .ok finish ∧
        finish.writing = some written ∧
        Document.dump plainSettings none halfFlat = .ok written.text := by
  have keyed : (Json.obj rivals).isKeyed = true := by decide
  obtain ⟨listed, reviewed⟩ := Fixer.applied_unless_contending keyed
  obtain ⟨-, allIff, -⟩ := listed rivalFixes (fun _ mem => mem) rfl
  obtain ⟨-, dumps, -⟩ := reviewed plainSettings plainDisplay rivalMode []
  refine ⟨keyed, rfl, fun compatible => ?_, ?_⟩
  · have all := allIff.2 compatible
    cases (List.cons.inj (List.cons.inj all).2).1
  · obtain ⟨finish, done⟩ : ∃ finish,
        (Review.plan plainSettings plainDisplay rivalMode (.obj rivals) []).finish = .ok finish :=
      ⟨_, rfl⟩
    obtain ⟨written, writes⟩ : ∃ written, finish.writing = some written := by
      cases done
      exact ⟨_, rfl⟩
    exact ⟨finish, written, done, writes, dumps finish written done writes⟩

/-- Both flattenings are offered, they do not overlap and a review approves both, but only the first
is applied. -/
theorem rivals_second_skipped :
    (Json.obj rivals).isKeyed = true ∧ (∀ f ∈ rivalFixes, f ∈ Fix.offers (.obj rivals)) ∧
      Fix.conflicts rivalFixes = [] ∧
      ((Fixer.ofDocument (.obj rivals)).run rivalFixes).2 =
        [.applied, .skipped (.wouldOverwrite ["on-dark-text"])] ∧
      rivalReview.tally.approved = 2 ∧
      ((Fixer.ofDocument (.obj rivals)).run
        (rivalReview.fixes.filter Fix.approved)).1.applied.length = 1 :=
  ⟨by decide, fun _ mem => mem, rfl, rfl, rfl, rfl⟩

end Example

end DesignTokens
