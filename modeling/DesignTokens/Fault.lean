/-
# DesignTokens.Fault -- why an operation gave up

Each constructor is one cause.  `message` is the wording, in one place; the causes that a caller
can only bring about with a malformed fix have none.
-/
import DesignTokens.Folder.Problem
import DesignTokens.Json.Reader
import DesignTokens.Json.Writer
import DesignTokens.Text.Utf8

namespace DesignTokens

set_option autoImplicit false

inductive Fault where
  /-- A text is not JSON. -/
  | badJson (cause : Json.SyntaxCause) (location : Json.Location)
  /-- An integer has too many digits to be read. -/
  | tooManyDigits (digits : Nat)
  /-- The bytes of a file are not UTF-8. -/
  | badEncoding (defect : Text.Utf8.Defect)
  /-- A document could not be loaded. -/
  | unloadable (path reason : String)
  /-- A value cannot be written with an indent. -/
  | badIndent (cause : Json.IndentError)
  /-- A file could not be written. -/
  | unwritable (problem : FileProblem) (path : String)
  /-- A text with lone halves has no bytes in UTF-8. -/
  | unencodable (tear : Halves.Tear)
  /-- A path holds a null character. -/
  | nullInPath
  /-- A text is no integer in the base. -/
  | notAnInteger (base : Nat) (text : String)
  | notADecimal (text : String)
  /-- An integer lies beyond every double. -/
  | integerTooLarge
  | unknownLevel (name : String)
  /-- The answers ran out. -/
  | endOfInput
  /-- A fix carries no type to add. -/
  | noTypeInFix
  /-- A fix treats something as an object that is none. -/
  | notAnObject
  /-- A fix has no entry to compare with. -/
  | noEntryInFix
  /-- A text that a fix lists is not of two letters. -/
  | notAPair (index length : Nat)
  /-- A word is none of a vocabulary. -/
  | unknownWord (vocabulary word : String)
  /-- No fix has the identifier. -/
  | unknownFix
  deriving DecidableEq, Repr

namespace Fault

def ofReadError : Json.ReadError → Fault
  | .syntaxError cause location => .badJson cause location
  | .tooManyDigits digits => .tooManyDigits digits

/-- At most this much of a text is shown as no integer. -/
def shownLength : Nat := 200

def message : Fault → String
  | .badJson cause at_ =>
      s!"{cause.message}: line {at_.line} column {at_.column} (char {at_.position})"
  | .tooManyDigits digits =>
      s!"Exceeds the limit (4300 digits) for integer string conversion: value has {digits} digits; " ++
        "use sys.set_int_max_str_digits() to increase the limit"
  | .badEncoding defect => defect.message
  | .unloadable path reason => s!"Failed to load {path}: {reason}"
  | .badIndent .outOfRange => "cannot fit 'int' into an index-sized integer"
  | .badIndent .tooWide => ""
  | .unwritable problem path =>
      s!"[Errno {problem.number}] {problem.reason}: {Text.quoted path}"
  | .unencodable tear => tear.message
  | .nullInPath => "embedded null byte"
  | .notAnInteger base text =>
      s!"invalid literal for int() with base {base}: " ++
        String.ofList ((Text.quoted text).toList.take shownLength)
  | .notADecimal text => s!"could not convert string to float: {Text.quoted text}"
  | .integerTooLarge => "int too large to convert to float"
  | .unknownLevel name => s!"Unknown level: {Text.quoted name}"
  | .endOfInput => "EOF when reading a line"
  | .noTypeInFix => ""
  | .notAnObject => ""
  | .noEntryInFix => ""
  | .notAPair index length =>
      s!"dictionary update sequence element #{index} has length {length}; 2 is required"
  | .unknownWord vocabulary word => s!"{Text.quoted word} is not a valid {vocabulary}"
  | .unknownFix => ""

end Fault

end DesignTokens
