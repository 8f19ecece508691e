/-
# DesignTokens.Diagnostic -- what is wrong at a place of a document

An error makes a document invalid; a warning points at older or unusual spelling.  Each diagnostic
names its place by the display path, and may carry a hint, a value that would mend it, what stood
there, an example of how it should look, and the identifier of the rule that found it.
-/
import DesignTokens.Json.Basic

namespace DesignTokens

set_option autoImplicit false

inductive Severity where
  | error
  | warning
  deriving DecidableEq, Repr

namespace Severity

def name : Severity → String
  | error => "error"
  | warning => "warning"

def ofName? : String → Option Severity
  | "error" => some error
  | "warning" => some warning
  | _ => none

theorem ofName?_name (s : Severity) : ofName? s.name = some s := by
  cases s <;> rfl

end Severity

structure Diagnostic where
  path : String
  message : String
  severity : Severity
  hint : Option String := none
  suggestedFix : Option Json := none
  actual : Option Json := none
  sample : Option Json := none
  ruleId : Option String := none

namespace Diagnostic

def isError (d : Diagnostic) : Bool :=
  d.severity == .error

/-- An error found by a rule. -/
def error (ruleId path message : String) (hint : Option String := none) : Diagnostic :=
  { path, message, severity := .error, hint, ruleId := some ruleId }

/-- A warning found by a rule. -/
def warning (ruleId path message : String) (hint : Option String := none) : Diagnostic :=
  { path, message, severity := .warning, hint, ruleId := some ruleId }

/-- Adds what stood at the place; null shows nothing. -/
def withActual (d : Diagnostic) (value : Json) : Diagnostic :=
  { d with actual := value.nonNull? }

def withExample (d : Diagnostic) (value : Json) : Diagnostic :=
  { d with sample := value.nonNull? }

def withFix (d : Diagnostic) (value : Json) : Diagnostic :=
  { d with suggestedFix := value.nonNull? }

def toMembers (d : Diagnostic) : Members :=
  let field (key : String) (value : Option Json) : Members :=
    match value with
    | some v => [(key, v)]
    | none => []
  [("path", .str d.path), ("message", .str d.message), ("severity", .str d.severity.name)] ++
    field "hint" (d.hint.map .str) ++ field "suggestedFix" d.suggestedFix ++
    field "actualStructure" d.actual ++ field "correctExample" d.sample ++
    field "ruleId" (d.ruleId.map .str)

end Diagnostic

end DesignTokens
