/-
# DesignTokens.Transcript -- what a run shows

A run shows log entries, which a user may ask to be left out below some level, and texts that are
shown in any case, on the standard output or on the error output.  A transcript holds all of it in
order.  How texts from a document are put into messages is given from outside (`Display`).
-/
import DesignTokens.Log
import DesignTokens.Markup
import DesignTokens.Text.Halves

namespace DesignTokens

set_option autoImplicit false

/-- How what stands in a document is shown. -/
structure Display where
  /-- Keeps a text from being taken for style tags. -/
  escape : String → String
  /-- What stands for lone halves in the document. -/
  halves : Halves

inductive Shown where
  | entry (entry : Log.Entry)
  | text (text : String)
  | error (text : String)

abbrev Transcript := List Shown

namespace Shown

def info (message : String) : Shown :=
  .entry (Log.info message)

def line (message : String) : Shown :=
  .text (message ++ "\n")

def success (message : String) : Shown :=
  .line s!"{Markup.approval} {message}"

def warning (message : String) : Shown :=
  .line s!"{Markup.caution} {message}"

def failure (message : String) : Shown :=
  .error s!"{Markup.failure} {message}\n"

/-- What stands on the standard output, with log entries from a level on. -/
def out (least : Log.Level) : Shown → String
  | .entry e => Log.text least [e]
  | .text s => s
  | .error _ => ""

/-- What stands on the error output. -/
def err : Shown → String
  | .error s => s
  | _ => ""

end Shown

namespace Transcript

def ofLog (log : Log) : Transcript :=
  log.map .entry

def out (least : Log.Level) (t : Transcript) : String :=
  String.join (t.map (Shown.out least))

def err (t : Transcript) : String :=
  String.join (t.map Shown.err)

end Transcript

end DesignTokens
