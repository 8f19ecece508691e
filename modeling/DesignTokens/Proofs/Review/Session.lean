/-
# DesignTokens.Proofs.Review.Session -- what a review does to the fixes and to the folder

Whatever the answers are, a review leaves approved fixes that do not overlap, and a tally that accounts
for every fix it has decided (`Review.Walk.Counts`).  It writes a file exactly if it ends well with
something approved and is not only tried out; then the path asked for holds the document with the
approved fixes applied, and nothing else has changed (`Review.session_outcome`).  A review that runs out of
answers, or that finds the document or the folder in its way, leaves the folder alone.

One failure does not: the text that is due (`Review.Walk.Due`) may hold a lone half.  Then it has no bytes,
and the file, which by default is the document itself, is empty when the review breaks off
(`Example.tornNote_lost`).
-/
import DesignTokens.Proofs.Document
import DesignTokens.Proofs.Fix.Overlaps
import DesignTokens.Proofs.Review
import Mathlib

namespace DesignTokens

set_option autoImplicit false

namespace Review

/-! ## The tally -/

/-- What a tally says about a walk over collected fixes.  The walk goes over all of them in their order,
and decides those in front; only these are counted, each once, and the conflicts are those of them that
overlap an approved fix before them. -/
structure Walk.Counts (w : Walk) (collected : List Fix) : Prop where
  same : w.fixes.map Fix.unapproved = collected
  total : w.tally.total = collected.length
  approved : w.tally.approved = (w.fixes.filter Fix.approved).length
  decided : ∃ decided pending, w.fixes = decided ++ pending ∧ Decided decided w.tally ∧
    w.tally.conflicts = (overlapped decided).length ∧ ∀ f ∈ pending, f.approved = false
  finished : w.stop = .finished →
    w.tally.approved + w.tally.skipped + w.tally.conflicts = w.tally.total
  stopped : w.stop ≠ .finished →
    w.tally.approved + w.tally.skipped + w.tally.conflicts < w.tally.total

theorem counts_ofFixes (display : Display) (approveAll : Bool) (answers : List Char)
    {collected : List Fix} (unasked : ∀ f ∈ collected, f.approved = false) :
    (ofFixes display approveAll answers collected).Counts collected := by
  obtain ⟨decided, pending, splits⟩ := exists_splits display approveAll answers unasked
  have total : (ofFixes display approveAll answers collected).tally.total = collected.length :=
    walk_total display approveAll [] _ answers collected
  have same := splits.same
  have asCollected : collected.map Fix.unapproved = collected :=
    List.map_congr_left (fun f mem => Fix.unapproved_of_pending (unasked f mem)) |>.trans
      (List.map_id collected)
  have lengths : decided.length + pending.length = collected.length := by
    rw [← List.length_append, ← splits.fixes_eq, ← List.length_map Fix.unapproved, same,
      List.length_map]
  have sum := splits.decides.sum_eq_length
  refine ⟨same.trans asCollected, total, ?_, ⟨decided, pending, splits.fixes_eq, splits.decides,
    splits.decides.length_overlapped.symm, splits.unasked⟩, fun finished => ?_, fun stopped => ?_⟩
  · rw [splits.filter_approved, splits.decides.length_approved]
  · rw [splits.finished.1 finished, List.length_nil] at lengths
    omega
  · have more : 0 < pending.length :=
      List.length_pos_iff.2 fun none => stopped (splits.finished.2 none)
    omega

/-! ## The whole review -/

section Session

variable (settings : Settings) (display : Display) (mode : Mode) (document : Json) (greeting : Transcript)
  (answers : List Char) (folder : Folder)

theorem ends_session :
    Ends settings display mode document
      (ofFixes display mode.approveAll answers (Fix.collect document))
      (session settings display mode document greeting answers).finish :=
  ends_plan settings display mode document answers

/-- A text that is due is what the review writes, if the file can be opened. -/
theorem perform_of_due {text : String} (opens : folder.Opens mode.output) :
    let run := session settings display mode document greeting answers
    let w := ofFixes display mode.approveAll answers (Fix.collect document)
    let done := run.perform folder
    w.Due settings mode document text →
      (display.halves.tear? text = none →
        done.result = .ok w ∧ folder.Wrote mode.output text.toUTF8 done.folder) ∧
      ∀ tear, display.halves.tear? text = some tear →
        done.result = .error (.unencodable tear) ∧
          folder.Wrote mode.output ByteArray.empty done.folder := by
  intro run w done due
  let written : Writing := ⟨mode.output, text, display.halves⟩
  have ends : Ends settings display mode document w run.finish :=
    ends_session settings display mode document greeting answers
  obtain ⟨finish, finished, writes⟩ := ends.exists_writing_eq_iff.2 ⟨text, rfl, due⟩
  have result : finish.result = w := (finished ▸ ends).result_eq.1
  obtain ⟨after, performed, wrote⟩ := written.perform_of_opens opens
  obtain ⟨left, returned⟩ := Plan.perform_of_writing folder finished writes
  rw [performed] at left returned
  constructor
  · intro whole
    have noTear : written.tear? = none := whole
    rw [Writing.bytes, noTear] at wrote
    rw [noTear] at returned
    exact ⟨returned.trans (congrArg _ result), left ▸ wrote⟩
  · intro tear torn
    have hasTear : written.tear? = some tear := torn
    rw [Writing.bytes, hasTear] at wrote
    rw [hasTear] at returned
    exact ⟨returned, left ▸ wrote⟩

/-- **What a review comes to**, whatever the document, the answers and the folder are.  The approved fixes do
not overlap, also if the answers run out.  A review that ends well gives its walk with the tally of it.
It ends well with something approved, and not only tried out, exactly if a text is due that has bytes and
the file can be opened; the file then holds this text, that of the document with the approved fixes applied.
If the text has no bytes the review breaks off and leaves the file empty.  There is no other change. -/
theorem session_outcome :
    let run := session settings display mode document greeting answers
    let w := ofFixes display mode.approveAll answers (Fix.collect document)
    let done := run.perform folder
    Fix.conflicts w.fixes = [] ∧
    (w.stop = .outOfAnswers → done.result = .error .endOfInput) ∧
    (∀ stats, done.result = .ok stats →
      stats = w ∧ w.stop ≠ .outOfAnswers ∧ w.Counts (Fix.collect document)) ∧
    ((∃ stats, done.result = .ok stats ∧ 0 < stats.tally.approved) ∧ mode.dryRun = false ↔
      ∃ text, w.Due settings mode document text ∧ folder.Opens mode.output ∧
        display.halves.tear? text = none) ∧
    (∀ text, w.Due settings mode document text → folder.Opens mode.output →
      (display.halves.tear? text = none →
        done.result = .ok w ∧ folder.Wrote mode.output text.toUTF8 done.folder) ∧
      ∀ tear, display.halves.tear? text = some tear →
        done.result = .error (.unencodable tear) ∧
          folder.Wrote mode.output ByteArray.empty done.folder) ∧
    ((∀ text, w.Due settings mode document text → ¬ folder.Opens mode.output) →
      done.folder = folder) := by
  intro run w done
  have unasked : ∀ f ∈ Fix.collect document, f.approved = false :=
    fun _ mem => Fix.approved_of_mem_collect mem
  have ends : Ends settings display mode document w run.finish :=
    ends_session settings display mode document greeting answers
  have due {text : String} (due : w.Due settings mode document text) (opens : folder.Opens mode.output) :=
    perform_of_due settings display mode document greeting answers folder opens due
  refine ⟨?apart, ?endOfInput, ?returned, ⟨?dueThen, ?endsWell⟩, fun text => due, ?untouched⟩
  case apart =>
    exact (Fix.conflicts_eq_nil_iff _).2 (sound_ofFixes display mode.approveAll answers unasked).apart
  case endOfInput =>
    intro stop
    change (run.perform folder).result = _
    rw [Plan.perform, ends.eq_endOfInput stop]
  case returned =>
    intro stats returned
    obtain ⟨finish, finished, rfl, -⟩ := Plan.exists_finish_of_result returned
    obtain ⟨same, stop⟩ := (finished ▸ ends).result_eq
    exact ⟨same, stop, counts_ofFixes display mode.approveAll answers unasked⟩
  case dueThen =>
    rintro ⟨⟨stats, returned, approved⟩, wet⟩
    obtain ⟨finish, finished, rfl, noFault⟩ := Plan.exists_finish_of_result returned
    have endsWell : Ends settings display mode document w (.ok finish) := finished ▸ ends
    rw [endsWell.result_eq.1] at approved
    obtain ⟨written, writes⟩ := endsWell.exists_writing_iff.2 ⟨Nat.ne_of_gt approved, wet⟩
    obtain ⟨text, rfl, due⟩ := ends.exists_writing_eq_iff.1 ⟨finish, finished, writes⟩
    obtain ⟨opens, whole, -⟩ := Writing.wrote_of_perform (Prod.ext (noFault _ writes) rfl)
    exact ⟨text, due, opens, whole⟩
  case endsWell =>
    rintro ⟨text, isDue, opens, whole⟩
    exact ⟨⟨w, ((due isDue opens).1 whole).1, isDue.approved⟩, isDue.wet⟩
  case untouched =>
    intro closed
    by_cases writing : ∃ finish written, run.finish = .ok finish ∧ finish.writing = some written
    · obtain ⟨finish, written, finished, writes⟩ := writing
      obtain ⟨text, rfl, isDue⟩ := ends.exists_writing_eq_iff.1 ⟨finish, finished, writes⟩
      obtain ⟨fault, performed⟩ :=
        Writing.perform_of_not_opens (w := ⟨mode.output, text, display.halves⟩) (closed text isDue)
      rw [(Plan.perform_of_writing folder finished writes).1, performed]
    · exact Plan.folder_of_no_writing fun finish written finished writes =>
        writing ⟨finish, written, finished, writes⟩

end Session

end Review

namespace Example

def flatMode : Review.Mode := ⟨.ofText "flat.json", false, false⟩

/-- The first fix is approved and the second one overlaps it, so the new file holds the document with the
one fix applied. -/
theorem nestedColours_reviewed :
    let run := Review.session plainSettings plainDisplay flatMode (.obj nestedColours) [] "y\n".toList
    let w := Review.ofFixes plainDisplay false "y\n".toList (Fix.collect (.obj nestedColours))
    w.tally = ⟨2, 1, 0, 1⟩ ∧ Fix.conflicts w.fixes = [] ∧ (run.perform .empty).result = .ok w ∧
      ∃ patched text, (applyApproved (.obj nestedColours) w.fixes).2 = .ok patched ∧
        Document.dump plainSettings none patched = .ok text ∧
        (run.perform .empty).folder.read (.ofText "flat.json") = .ok text.toUTF8 := by
  intro run w
  obtain ⟨apart, -, -, -, written, -⟩ :=
    Review.session_outcome plainSettings plainDisplay flatMode (.obj nestedColours) [] "y\n".toList .empty
  obtain ⟨patched, applied⟩ : ∃ patched, (applyApproved (.obj nestedColours) w.fixes).2 = .ok patched :=
    ⟨_, rfl⟩
  obtain ⟨text, dumps⟩ : ∃ text, Document.dump plainSettings none patched = .ok text := by
    cases applied
    exact ⟨_, rfl⟩
  have due : w.Due plainSettings flatMode (.obj nestedColours) text :=
    ⟨by decide, by decide, rfl, patched, applied, dumps⟩
  have opens : Folder.empty.Opens flatMode.output := ⟨by decide +kernel, _, rfl⟩
  obtain ⟨returned, wrote⟩ := (written text due opens).1 (Halves.tear?_nil text)
  exact ⟨rfl, apart, returned, patched, text, applied, dumps, wrote.holds rfl⟩

/-! ## A text that is due and has no bytes -/

/-- A token without a type, in a document whose description is half of a pair. -/
def tornText : String :=
  "\x7b\"$description\": \"\\ud800\", \"g\": \x7b\"t\": \x7b\"$value\": 1\x7d\x7d\x7d"

def tornPath : FilePath := ⟨"", ["tokens.json"]⟩

def tornFolder : Folder := ⟨[(["tokens.json"], tornText.toUTF8)], []⟩

def tornHalves : Halves := [(0xD800, Char.ofNat 0xF0000)]

/-- The document that the text spells, with some members more in its token. -/
def tornNote (more : Members) : Json :=
  .obj [("$description", .str (String.singleton (Char.ofNat 0xF0000))),
    ("g", .obj [("t", .obj (("$value", .int 1) :: more))])]

theorem tornText_loads :
    Document.load tornPath (tornFolder.read tornPath) = .ok (tornNote []) ∧
      Document.halves (tornFolder.read tornPath) = tornHalves := by
  have opened : tornFolder.read tornPath = .ok tornText.toUTF8 := rfl
  have noNull : '\x00' ∉ tornPath.toText.toList := by decide +kernel
  have lines : '\r' ∉ tornText.toList := by decide +kernel
  have noMark : tornText.toList.head? ≠ some '\uFEFF' := by decide +kernel
  have stands : Json.halvesOf tornText.toList = tornHalves := by decide +kernel
  have reads : Json.readValue tornHalves (2 * tornText.toList.length + 1)
      (Json.skipSpace tornText.toList) = .ok (tornNote [], []) := by
    simp only [tornText]
    cbv
  rw [opened]
  constructor
  · rw [Document.load_toUTF8 noNull, Document.ofText, Text.unifyEnds_of_not_mem lines,
      String.ofList_toList, Json.read, Json.readDocument, if_neg noMark, stands, reads]
    rfl
  · rw [Document.halves, Text.Utf8.decode_toUTF8]
    dsimp only
    rw [Text.unifyEnds_of_not_mem lines, stands]

def tornDisplay : Display := ⟨id, Document.halves (tornFolder.read tornPath)⟩

/-- Everything is approved, and the document is written in its place. -/
def tornMode : Review.Mode := ⟨tornPath, true, false⟩

/-- The text of the document with its type. -/
def tornDump : String :=
  (tornNote [("$type", .str "opacity")]).write ⟨some 2, none⟩ ++ "\n"

/-- A document that is loaded, and whose one fix is approved, is gone when the review breaks off. -/
theorem tornNote_lost :
    let run := Review.session plainSettings tornDisplay tornMode (tornNote []) [] []
    let done := run.perform tornFolder
    Document.load tornPath (tornFolder.read tornPath) = .ok (tornNote []) ∧
      done.result = .error (.unencodable ⟨0xD800, 21, 22⟩) ∧
      tornFolder.read tornPath = .ok tornText.toUTF8 ∧
      done.folder.read tornPath = .ok ByteArray.empty := by
  intro run done
  obtain ⟨loads, stands⟩ := tornText_loads
  have torn : tornDisplay.halves.tear? tornDump = some ⟨0xD800, 21, 22⟩ := by
    rw [tornDisplay, stands]
    decide +kernel
  have opens : tornFolder.Opens tornPath := ⟨by decide +kernel, _, rfl⟩
  have due : (Review.ofFixes tornDisplay true [] (Fix.collect (tornNote []))).Due plainSettings tornMode
      (tornNote []) tornDump := ⟨by decide, by decide, rfl, _, rfl, rfl⟩
  obtain ⟨-, tears⟩ := Review.perform_of_due plainSettings tornDisplay tornMode (tornNote []) [] []
    tornFolder opens due
  obtain ⟨broken, wrote⟩ := tears _ torn
  exact ⟨loads, broken, rfl, wrote.holds rfl⟩

end Example

end DesignTokens
