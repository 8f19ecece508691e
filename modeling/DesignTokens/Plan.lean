/-
# DesignTokens.Plan -- what a run is going to do

A run reads everything it needs first.  What it then does is a plan: things to show, and at the end
either a fault or a result, with at most one file to be written before the last things are shown.
`perform` carries a plan out in a folder.  To show something never fails, whatever it is: what handles
log entries is taken to cope with every message.

A file is opened before its text is made bytes, and is empty from then on.  So a text that has no bytes
takes what the file held along with it (`Writing.bytes`).
-/
import DesignTokens.Document
import DesignTokens.Transcript

namespace DesignTokens

set_option autoImplicit false

/-- A file to be written. -/
structure Writing where
  path : FilePath
  text : String
  /-- What stands for lone halves in the text. -/
  halves : Halves

namespace Writing

/-- What keeps the text from being written. -/
def tear? (w : Writing) : Option Halves.Tear :=
  w.halves.tear? w.text

/-- What the file holds once it was opened and the text, if it has bytes, written. -/
def bytes (w : Writing) : ByteArray :=
  if w.tear?.isSome then ByteArray.empty else w.text.toUTF8

/-- Writes a file: the fault, if there is one, and the folder afterwards. -/
def perform (w : Writing) (folder : Folder) : Option Fault × Folder :=
  if w.path.toText.toList.contains '\x00' then (some .nullInPath, folder)
  else
    match folder.write w.path w.bytes with
    | .error problem => (some (.unwritable problem w.path.toText), folder)
    | .ok after => (w.tear?.map Fault.unencodable, after)

end Writing

/-- The end of a run that succeeds. -/
structure Finish (α : Type) where
  writing : Option Writing
  /-- What is shown once the file is written. -/
  last : Transcript
  result : α

structure Plan (α : Type) where
  shown : Transcript
  finish : Except Fault (Finish α)

/-- What came of a run. -/
structure Performed (α : Type) where
  shown : Transcript
  result : Except Fault α
  folder : Folder

namespace Plan

variable {α : Type}

/-- A run that only shows something. -/
def only (shown : Transcript) (result : α) : Plan α :=
  ⟨shown, .ok ⟨none, [], result⟩⟩

def fail (shown : Transcript) (fault : Fault) : Plan α :=
  ⟨shown, .error fault⟩

/-- Puts something in front of what a plan shows. -/
def after (shown : Transcript) (p : Plan α) : Plan α :=
  { p with shown := shown ++ p.shown }

def map {β : Type} (f : α → β) (p : Plan α) : Plan β :=
  { shown := p.shown
    finish := p.finish.map fun finish => { finish with result := f finish.result } }

def perform (p : Plan α) (folder : Folder) : Performed α :=
  match p.finish with
  | .error fault => ⟨p.shown, .error fault, folder⟩
  | .ok finish =>
    match finish.writing with
    | none => ⟨p.shown ++ finish.last, .ok finish.result, folder⟩
    | some writing =>
      match writing.perform folder with
      | (none, after) => ⟨p.shown ++ finish.last, .ok finish.result, after⟩
      | (some fault, after) => ⟨p.shown, .error fault, after⟩

end Plan

end DesignTokens
