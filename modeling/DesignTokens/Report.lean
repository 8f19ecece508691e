/-
# DesignTokens.Report -- findings for people and for programs

The console report lists the diagnostics and the nested clusters of a document, with hints and
suggestions, and ends with the totals.  The JSON report is one object.  Either may leave the
warnings out; validity is not touched by that.
-/
import DesignTokens.Fault
import DesignTokens.Text.Case
import DesignTokens.Text.Infix
import DesignTokens.Transcript
import DesignTokens.Validation

namespace DesignTokens

set_option autoImplicit false

open Markup

/-- A short way out of the most common diagnostics, told by their messages. -/
def Diagnostic.suggestion? (d : Diagnostic) : Option String :=
  let holds (part : String) : Bool := Text.occursIn part.toList d.message.toList
  let starts (part : String) : Bool := part.toList.isPrefixOf d.message.toList
  if Text.occursIn "missing".toList (Text.lowerWord d.message).toList && holds Key.value then
    some "Add a $value property to complete the token definition"
  else if holds "must be an object" then some "Wrap the content in curly braces: \x7b \x7d"
  else if holds "Invalid hex color" then
    some "Check hex color format: #RGB, #RRGGBB or #RRGGBBAA"
  else if starts "Missing $type" then some "Run `dtcg-lint fix` to add the inferred types"
  else if starts "Legacy" then some "Run `dtcg-lint autofix` to rename legacy keys"
  else none

namespace Report

/-- The sign in front of a diagnostic. -/
def sign : Severity → String
  | .error => failure
  | .warning => caution

/-- The lines below a diagnostic. -/
def detailLine (display : Display) (label : String) : Option String → List String
  | some text => if text.isEmpty then [] else [s!"      {label}: {display.escape text}"]
  | none => []

def ruleNote : Option String → String
  | some rule => if rule.isEmpty then "" else " " ++ dim s!"({rule})"
  | none => ""

def headline (display : Display) (d : Diagnostic) : String :=
  let path := bold (display.escape d.path)
  s!"  {sign d.severity} {path}: {display.escape d.message}{ruleNote d.ruleId}"

def diagnosticLines (display : Display) (d : Diagnostic) : List String :=
  headline display d ::
    (detailLine display "Hint" d.hint ++ detailLine display "Suggestion" d.suggestion?)

def clusterLines (display : Display) (c : Cluster) : List String :=
  [s!"  {detail} {bold (display.escape c.path)}: {display.escape c.message}",
    s!"      {display.escape c.suggestion}"]

def count (n : Nat) : String := bold (toString n)

def totals (f : Findings) : String :=
  s!"Total: {count f.errors.length} errors, {count f.warnings.length} warnings, " ++
    s!"{count f.clusters.length} structure issues"

def rule : String :=
  "\n" ++ String.ofList (List.replicate 60 '=')

/-- The diagnostics that are listed. -/
def listed (showWarnings : Bool) (f : Findings) : List Diagnostic :=
  f.diagnostics.filter fun d => d.isError || showWarnings

/-- The console report on a document that came from some source. -/
def console (display : Display) (showWarnings : Bool) (source : String) (f : Findings) : Log :=
  ([s!"\n{source}:"] ++ (listed showWarnings f).flatMap (diagnosticLines display) ++
    f.clusters.flatMap (clusterLines display) ++ [rule, totals f]).map Log.info

/-- What stands for the source of a document that has no name. -/
def unnamed : String := "document"

def json (display : Display) (widest : Int) (showWarnings : Bool) (indent : Int) (f : Findings) :
    Except Fault String :=
  let shown := if showWarnings then f else { f with warnings := [] }
  let report := Json.obj shown.toMembers
  (report.writeIndented widest (some display.halves) indent).mapError Fault.badIndent

/-- Zero for a valid document. -/
def exitCode (f : Findings) : Nat :=
  if f.isValid then 0 else 1

end Report

end DesignTokens
