/-
# DesignTokens.Review -- going through the fixes of a document

A user is shown the fixes of a document one by one and approves or skips each, or quits.  A fix
whose target overlaps that of one approved before is not asked about.  Answers are lines of a text;
only `y` and `q` mean anything, every other line skips.  When the answers run out the review breaks
off (`Stop.outOfAnswers`), and nothing is written.

`Review.walk` is the walk over the fixes: it keeps the fixes seen so far with their approvals, so
the approved ones never overlap.  `Review.plan` adds the summary and the writing of the document.
-/
import DesignTokens.Fix.Apply
import DesignTokens.Fix.Collect
import DesignTokens.Plan
import DesignTokens.Report

namespace DesignTokens

set_option autoImplicit false

namespace Review

/-! ## Answers -/

inductive Answer where
  | approve
  | skip
  | quit
  deriving DecidableEq, Repr

/-- What a line says, blanks around it and capitals aside. -/
def Answer.ofLine (line : List Char) : Answer :=
  match Text.lowerWord (String.ofList (Text.trim line)) with
  | "y" => .approve
  | "q" => .quit
  | _ => .skip

/-- The next answer and the answers after it. -/
def nextAnswer? (answers : List Char) : Option (Answer × List Char) :=
  if answers.isEmpty then none
  else some (.ofLine (Text.firstLine answers).1, (Text.firstLine answers).2)

def prompt : Shown := .text "\nApprove this fix? [y/n/q (quit)] "

/-! ## The walk -/

/-- How many fixes were decided in which way, and how many there are. -/
structure Tally where
  total : Nat
  approved : Nat
  skipped : Nat
  conflicts : Nat
  deriving DecidableEq, Repr

inductive Stop where
  | finished
  | quit
  | outOfAnswers
  deriving DecidableEq, Repr

/-- A review that came to a stop. -/
structure Walk where
  shown : Transcript
  /-- All fixes, with their approvals. -/
  fixes : List Fix
  tally : Tally
  stop : Stop

/-- Puts something in front of what a walk shows. -/
def Walk.after (shown : Transcript) (w : Walk) : Walk :=
  { w with shown := shown ++ w.shown }

def jsonLine (display : Display) (label : String) (value : Json) : String :=
  s!"  {label}: {display.escape (value.write ⟨none, some display.halves⟩)}"

/-- A fix as it is shown, with its number. -/
def presentation (display : Display) (number total : Nat) (fix : Fix) : Transcript :=
  [s!"[{Report.count number}/{Report.count total}] {display.escape fix.path}",
    s!"  Fix: {fix.type.name}", s!"  {display.escape fix.description}",
    jsonLine display "Before" fix.before, jsonLine display "After" fix.after].map Shown.info

/-- The approved fix among those seen whose target overlaps that of a fix. -/
def conflicting? (seen : List Fix) (fix : Fix) : Option Fix :=
  seen.find? fun done => done.approved && done.overlaps fix

/-- The walk over the fixes that remain, after those seen. -/
def walk (display : Display) (approveAll : Bool) (seen : List Fix) (tally : Tally)
    (answers : List Char) : List Fix → Walk
  | [] => ⟨[], seen, tally, .finished⟩
  | fix :: rest =>
      let shown := presentation display (seen.length + 1) tally.total fix
      match conflicting? seen fix with
      | some done =>
          (walk display approveAll (seen ++ [fix]) { tally with conflicts := tally.conflicts + 1 }
              answers rest).after
            (shown ++ [.info s!"{Markup.caution} Overlaps approved {done.id}, skipping", .info ""])
      | none =>
        let asked := if approveAll then [] else [prompt]
        match if approveAll then some (.approve, answers) else nextAnswer? answers with
        | none => ⟨shown ++ asked, seen ++ fix :: rest, tally, .outOfAnswers⟩
        | some (.quit, _) =>
            ⟨shown ++ asked ++ [.info "\nQuitting..."], seen ++ fix :: rest, tally, .quit⟩
        | some (.approve, more) =>
            (walk display approveAll (seen ++ [{ fix with approved := true }])
                { tally with approved := tally.approved + 1 } more rest).after
              (shown ++ asked ++ [.info s!"{Markup.approval} Approved", .info ""])
        | some (.skip, more) =>
            (walk display approveAll (seen ++ [fix])
                { tally with skipped := tally.skipped + 1 } more rest).after
              (shown ++ asked ++ [.info "Skipped", .info ""])

/-! ## The whole review -/

def opening (total : Nat) : Shown :=
  .info s!"\nFound {Report.count total} fixable issues.\n"

def summary (t : Tally) : Transcript :=
  let approved := Markup.styled "green" (Report.count t.approved)
  [Report.rule, "Fix Summary:", s!"  Total fixable issues: {Report.count t.total}",
    s!"  Approved: {approved}", s!"  Skipped: {Report.count t.skipped}",
    s!"  Conflicting: {Report.count t.conflicts}"].map Shown.info

/-- The review of some fixes, from the first to the stop. -/
def ofFixes (display : Display) (approveAll : Bool) (answers : List Char) (fixes : List Fix) :
    Walk :=
  walk display approveAll [] ⟨fixes.length, 0, 0, 0⟩ answers fixes

/-- How a review is done: where the document goes, whether every fix is approved without asking,
and whether nothing is to be written. -/
structure Mode where
  output : FilePath
  approveAll : Bool
  dryRun : Bool

/-- The document with the approved fixes applied, to be written. -/
def writingPlan (settings : Settings) (display : Display) (mode : Mode) (document : Json)
    (w : Walk) (shown : Transcript) : Plan Walk :=
  match applyApproved document w.fixes with
  | (log, .error fault) => .fail (shown ++ .ofLog log) fault
  | (log, .ok patched) =>
    match Document.dump settings none patched with
    | .error fault => .fail (shown ++ .ofLog log) fault
    | .ok text =>
        { shown := shown ++ .ofLog log
          finish := .ok
            { writing := some ⟨mode.output, text, display.halves⟩
              last := [.info
                s!"\nWrote fixed document to {Markup.bold mode.output.toText}"]
              result := w } }

/-- What a review does once it has stopped. -/
def closing (settings : Settings) (display : Display) (mode : Mode) (document : Json) (w : Walk) :
    Plan Walk :=
  let shown := opening w.tally.total :: w.shown
  match w.stop with
  | .outOfAnswers => .fail shown .endOfInput
  | _ =>
    let shown := shown ++ summary w.tally
    if w.tally.approved = 0 then .only shown w
    else if mode.dryRun then .only (shown ++ [.warning "Dry run: no changes written"]) w
    else writingPlan settings display mode document w shown

/-- The review of a document. -/
def plan (settings : Settings) (display : Display) (mode : Mode) (document : Json)
    (answers : List Char) : Plan Walk :=
  let w := ofFixes display mode.approveAll answers (Fix.collect document)
  if w.fixes.isEmpty then .only [.info "No fixable issues found."] w
  else closing settings display mode document w

/-- The review with what the collection of the fixes has to say, and then a greeting, in front. -/
def session (settings : Settings) (display : Display) (mode : Mode) (document : Json)
    (greeting : Transcript) (answers : List Char) : Plan Walk :=
  (plan settings display mode document answers).after
    (.ofLog (Fix.collectLog document) ++ greeting)

end Review

end DesignTokens
