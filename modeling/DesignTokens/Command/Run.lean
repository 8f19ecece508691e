/-
# DesignTokens.Command.Run -- carrying out a command

`validate` reports on a document, on the console or as JSON, and can put the report into a file.
`fix` reviews the fixes of a document with a user.  `autofix` puts a document into structured form
and shows it or writes it to a file.  A document that cannot be loaded ends each of them with a
message; other faults are left to the caller.

`Command.plan` gives the plan of a command from the document it names and the answers of the user.
`Command.runLine` reads the command line and the document and carries the plan out in a folder.
-/
import DesignTokens.Command.Arguments
import DesignTokens.Normal.Document
import DesignTokens.Review

namespace DesignTokens

set_option autoImplicit false

/-- The code with which a program ends; zero stands for success. -/
abbrev ExitCode := Nat

namespace Command

/-- The report on a document for a program, or to a file. -/
def jsonReport (settings : Settings) (display : Display) (output : Option FilePath)
    (showWarnings : Bool) (found : Findings) : Plan ExitCode :=
  match settings.indent.bind fun indent =>
      Report.json display settings.host.widest showWarnings indent found with
  | .error fault => .fail [] fault
  | .ok text =>
      match output with
      | none => .only [.line text] (Report.exitCode found)
      | some path =>
          { shown := []
            finish := .ok
              { writing := some ⟨path, text, display.halves⟩
                last := [.line s!"Validation results written to {path.toText}"]
                result := Report.exitCode found } }

/-- The report on a document for people; what goes to a file is shown as well. -/
def consoleReport (display : Display) (least : Log.Level) (source : FilePath)
    (output : Option FilePath) (showWarnings : Bool) (found : Findings) : Plan ExitCode :=
  let report := Report.console display showWarnings source.lastName found
  match output with
  | none => .only (.ofLog report) (Report.exitCode found)
  | some path =>
      let text := Log.text least report
      { shown := []
        finish := .ok
          { writing := some ⟨path, text, display.halves⟩
            last := [.text text,
              .line s!"\nValidation results also written to {path.toText}"]
            result := Report.exitCode found } }

def validatePlan (settings : Settings) (display : Display) (least : Log.Level) (c : Command)
    (asJson showWarnings : Bool) (document : Json) : Plan ExitCode :=
  let validator := settings.validator none none
  let found := validator.validate document
  (if asJson then jsonReport settings display c.output showWarnings found
   else consoleReport display least c.file c.output showWarnings found).after
    (.ofLog (validator.log document))

def fixPlan (settings : Settings) (display : Display) (c : Command) (approveAll dryRun : Bool)
    (document : Json) (answers : List Char) : Plan ExitCode :=
  let greeting := Shown.line s!"Reviewing fixes for {Markup.bold c.file.toText}..."
  (Review.session settings display ⟨c.output.getD c.file, approveAll, dryRun⟩ document [greeting]
    answers).map fun _ => 0

def autofixPlan (settings : Settings) (display : Display) (c : Command) (document : Json) :
    Plan ExitCode :=
  match normalizeDocument document with
  | .error fault => .fail [] fault
  | .ok fixed =>
    let shown := Transcript.ofLog (normalizeLog document)
    match Document.dump settings none fixed with
    | .error fault => .fail shown fault
    | .ok text =>
      match c.output with
      | none => .only (shown ++ [.text text]) 0
      | some path =>
          { shown
            finish := .ok
              { writing := some ⟨path, text, display.halves⟩
                last := [.success s!"Fixed document written to {path.toText}"]
                result := 0 } }

/-- What a command is going to do, given what came of loading its document. -/
def plan (settings : Settings) (display : Display) (least : Log.Level) (c : Command)
    (loaded : Except Fault Json) (answers : List Char) : Plan ExitCode :=
  match loaded with
  | .error (.unloadable path reason) =>
      .only [.failure (Fault.unloadable path reason).message] 1
  | .error fault => .fail [] fault
  | .ok document =>
    match c.action with
    | .validate asJson showWarnings =>
        validatePlan settings display least c asJson showWarnings document
    | .fix approveAll dryRun => fixPlan settings display c approveAll dryRun document answers
    | .autofix => autofixPlan settings display c document

/-- Carries out a command in a folder. -/
def perform (settings : Settings) (least : Log.Level) (c : Command) (answers : List Char)
    (folder : Folder) : Performed ExitCode :=
  let opened := folder.read c.file
  let display : Display := ⟨settings.host.escape, Document.halves opened⟩
  (c.plan settings display least (Document.load c.file opened) answers).perform folder

end Command

/-- How a program ended. -/
inductive Ending where
  /-- The command line was not carried out. -/
  | rejected (rejection : Rejection)
  /-- The command was carried out, with log entries shown from a level on. -/
  | ran (least : Log.Level) (performed : Performed ExitCode)

/-- A whole run of the program in a folder.  Settings that name no level stop it before anything
else does. -/
def Command.runLine (settings : Settings) (words : List String) (answers : List Char)
    (folder : Folder) : Except Fault Ending :=
  match settings.shownLevel with
  | .error fault => .error fault
  | .ok least =>
    match Command.parse words with
    | .error rejection => .ok (.rejected rejection)
    | .ok command => .ok (.ran least (command.perform settings least answers folder))

end DesignTokens
