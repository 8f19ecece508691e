/-
# DesignTokens.Document -- documents in files

A document is read from bytes: they are text in UTF-8, in which every line end counts as one line
feed, and the text is that of a JSON value.  It is written with an indent and ends with a line feed.
A file that cannot be opened, and a text that is not JSON, are told with the file's path.

Lone halves in a document are held by stand-ins, which `halves` gives.  In the text of a document they
still are, so it may be a text without bytes.
-/
import DesignTokens.Folder.Basic
import DesignTokens.Json.Writer
import DesignTokens.Settings
import DesignTokens.Text.Lines

namespace DesignTokens

set_option autoImplicit false

namespace Document

/-- The value that a text spells; `path` names its file. -/
def ofText (path : FilePath) (text : String) : Except Fault Json :=
  match Json.read (String.ofList (Text.unifyEnds text.toList)) with
  | .ok value => .ok value
  | .error (.tooManyDigits digits) => .error (.tooManyDigits digits)
  | .error (.syntaxError cause place) =>
      .error (.unloadable path.toText
        s!"invalid JSON at line {place.line}, column {place.column}: {cause.message}")

def ofBytes (path : FilePath) (bytes : ByteArray) : Except Fault Json :=
  match Text.Utf8.decode bytes with
  | .ok text => ofText path text
  | .error defect => .error (.badEncoding defect)

/-- The document in a file, from what came of opening it. -/
def load (path : FilePath) (opened : Except FileProblem ByteArray) : Except Fault Json :=
  if path.toText.toList.contains '\x00' then .error .nullInPath
  else
    match opened with
    | .ok bytes => ofBytes path bytes
    | .error problem => .error (.unloadable path.toText problem.reason)

/-- What stands for lone halves in the document in a file, from what came of opening it. -/
def halves (opened : Except FileProblem ByteArray) : Halves :=
  match opened with
  | .ok bytes =>
      match Text.Utf8.decode bytes with
      | .ok text => Json.halvesOf (Text.unifyEnds text.toList)
      | .error _ => []
  | .error _ => []

def text (widest indent : Int) (document : Json) : Except Fault String :=
  ((document.writeIndented widest none indent).map (· ++ "\n")).mapError Fault.badIndent

/-- The text of a document by the indent asked for, or else by that of the settings. -/
def dump (settings : Settings) (indent : Option Int) (document : Json) : Except Fault String :=
  match indent with
  | some n => text settings.host.widest n document
  | none => settings.indent.bind fun n => text settings.host.widest n document

end Document

end DesignTokens
