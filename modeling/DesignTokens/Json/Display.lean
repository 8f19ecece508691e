/-
# DesignTokens.Json.Display -- a value as a message shows it

Messages name offending values.  A string by itself is shown as it stands, and quoted inside a list
or object or where a message quotes what it was given (`shown`); null and the truth values are shown
as names, lists and objects in brackets with their parts quoted.  A stand-in for a lone half is quoted
as the private character that it is.
-/
import DesignTokens.Json.Basic
import DesignTokens.Number.Shortest
import DesignTokens.Text.Quoted

namespace DesignTokens

set_option autoImplicit false

namespace Json

/-- The names of special numbers in a message. -/
def messageNames : Binary64.SpecialNames where
  nan := "nan"
  infinity := "inf"

mutual

def shown : Json → String
  | .null => "None"
  | .bool b => if b then "True" else "False"
  | .int n => toString n
  | .float x => x.render messageNames
  | .str s => Text.quoted s
  | .arr items => "[" ++ ", ".intercalate (shownItems items) ++ "]"
  | .obj members => "\x7b" ++ ", ".intercalate (shownMembers members) ++ "\x7d"

def shownItems : List Json → List String
  | [] => []
  | item :: items => shown item :: shownItems items

def shownMembers : List (String × Json) → List String
  | [] => []
  | (key, value) :: members => (Text.quoted key ++ ": " ++ shown value) :: shownMembers members

end

/-- A string as it stands, any other value as shown. -/
def plain : Json → String
  | .str s => s
  | value => value.shown

end Json

end DesignTokens
