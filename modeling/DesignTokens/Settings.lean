/-
# DesignTokens.Settings -- what every run goes by

Each setting of a user is a text that may be left unset.  The accessors give what a run goes by: the
default where a setting is unset, and a fault where its text cannot be used.  Beside them stands what
a run finds and a user does not set (`Host`).
-/
import DesignTokens.Fault
import DesignTokens.Log
import DesignTokens.Number.Numeral
import DesignTokens.Text.Case
import DesignTokens.Validation

namespace DesignTokens

set_option autoImplicit false

/-- What a run finds on its machine. -/
structure Host where
  /-- Keeps a text from being taken for style tags where messages are shown. -/
  escape : String → String
  /-- Lines that are indented so far do not fit into memory. -/
  widest : Int

structure Settings where
  logLevel : Option String
  requireSchema : Option String
  jsonIndent : Option String
  schemaUrl : Option String
  host : Host

/-- The level of a name. -/
def Log.Level.named (name : String) : Except Fault Log.Level :=
  match Log.Level.ofName? name with
  | some level => .ok level
  | none => .error (.unknownLevel name)

namespace Settings

def unset (host : Host) : Settings := ⟨none, none, none, none, host⟩

/-- The name of the level from which on log entries are shown, in capitals. -/
def levelName (s : Settings) : String :=
  Text.upper (s.logLevel.getD "INFO")

/-- The level from which on log entries are shown.  With the level that stands for none, they are
shown from warnings on. -/
def shownLevel (s : Settings) : Except Fault Log.Level :=
  (Log.Level.named s.levelName).map Log.Level.orDefault

/-- The texts that stand for yes. -/
def affirmations : List String := ["1", "true", "yes", "on"]

/-- Whether a document is asked to name its schema. -/
def requiresSchema (s : Settings) : Bool :=
  affirmations.contains (Text.lowerWord (Text.trimmed (s.requireSchema.getD "true")))

/-- The indent of written JSON. -/
def indent (s : Settings) : Except Fault Int :=
  let text := s.jsonIndent.getD "2"
  match Numeral.readInteger text.toList with
  | .ok n => .ok n
  | .error .malformed => .error (.notAnInteger 10 text)
  | .error (.tooLong digits) => .error (.tooManyDigits digits)

/-- The schema suggested to a document that names none. -/
def schema (s : Settings) : String :=
  s.schemaUrl.getD "https://tr.designtokens.org/format/"

/-- A validator; what is not asked for explicitly goes by the settings. -/
def validator (s : Settings) (require : Option Bool) (url : Option String) : Validator where
  requireSchema := require.getD s.requiresSchema
  schemaUrl := (url.filter (· != "")).getD s.schema

end Settings

end DesignTokens
