/-
# DesignTokens.Main -- the program

Reads the settings from the environment, the command line, the document and the answers, carries the
plan of the command out on the file system, and shows what the plan shows, style tags as they stand.
Answers are read one by one: as long as a plan breaks off for want of one, what is new in it is shown
and a line is read.
-/
import DesignTokens.Command.Run

namespace DesignTokens

set_option autoImplicit false

namespace Main

/-- No text is taken for a style tag here, and a line of 64 GiB is too much. -/
def host : Host := ⟨id, Binary64.twoTo 36⟩

def environment : IO Settings := do
  return {
    logLevel := ← IO.getEnv "LOG_LEVEL"
    requireSchema := ← IO.getEnv "DTCG_REQUIRE_SCHEMA"
    jsonIndent := ← IO.getEnv "DTCG_JSON_INDENT"
    schemaUrl := ← IO.getEnv "DTCG_SCHEMA_URL"
    host }

def problemOf : IO.Error → FileProblem
  | .noFileOrDirectory _ _ _ => .missing
  | .permissionDenied _ _ _ => .permission
  | .inappropriateType _ 20 _ => .notADirectory
  | .inappropriateType _ _ _ => .directory
  | .invalidArgument _ 36 _ => .nameTooLong
  | error => .other 5 (toString error)

def opened (path : FilePath) : IO (Except FileProblem ByteArray) := do
  try
    return .ok (← IO.FS.readBinFile path.toText)
  catch error => return .error (problemOf error)

def written (writing : Writing) : IO (Option Fault) := do
  try
    IO.FS.writeBinFile writing.path.toText writing.bytes
    return writing.tear?.map Fault.unencodable
  catch error => return some (.unwritable (problemOf error) writing.path.toText)

/-- Shows a transcript without the part of the standard output that was shown before. -/
def display (least : Log.Level) (before : Nat) (shown : Transcript) : IO Unit := do
  let stdout ← IO.getStdout
  stdout.putStr (String.ofList ((shown.out least).toList.drop before))
  stdout.flush
  (← IO.getStderr).putStr shown.err

def complain (fault : Fault) : IO UInt32 := do
  (← IO.getStderr).putStrLn fault.message
  return 1

def finish (least : Log.Level) (before : Nat) (shown : Transcript)
    (result : Finish ExitCode) : IO UInt32 := do
  let problem ←
    match result.writing with
    | some writing => written writing
    | none => pure none
  match problem with
  | some fault =>
      display least before shown
      complain fault
  | none =>
      display least before (shown ++ result.last)
      return result.result.toUInt32

/-- Carries a plan out, asking for more answers as long as it needs them. -/
partial def converse (least : Log.Level) (plan : List Char → Plan ExitCode) (before : Nat)
    (answers : String) : IO UInt32 := do
  let p := plan answers.toList
  match p.finish with
  | .ok result => finish least before p.shown result
  | .error fault =>
      display least before p.shown
      if fault = .endOfInput then
        let line ← (← IO.getStdin).getLine
        if line.isEmpty then complain fault
        else converse least plan (p.shown.out least).length (answers ++ line)
      else complain fault

def carryOut (settings : Settings) (least : Log.Level) (command : Command) : IO UInt32 := do
  let opened ← opened command.file
  let display : Display := ⟨settings.host.escape, Document.halves opened⟩
  let document := Document.load command.file opened
  converse least (command.plan settings display least document) 0 ""

def program (words : List String) : IO UInt32 := do
  let settings ← environment
  match settings.shownLevel, Command.parse words with
  | .error fault, _ => complain fault
  | _, .error rejection =>
      (← IO.getStderr).putStrLn rejection.message
      return rejection.exitCode.toUInt32
  | .ok least, .ok command => carryOut settings least command

end Main

end DesignTokens

def main (words : List String) : IO UInt32 :=
  DesignTokens.Main.program words
