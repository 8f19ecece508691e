/-
# DesignTokens.Spelling.Alias -- references to other tokens

A reference is a path in braces, such as the one to a token `color.primary`.  References are not
resolved: a value that is one passes every check.
-/
import DesignTokens.Spelling.Quantity
import DesignTokens.Json.Basic

namespace DesignTokens

set_option autoImplicit false

namespace Spelling

def isBrace (c : Char) : Bool :=
  c == '\x7b' || c == '\x7d'

/-- Text in one pair of braces that holds no brace and is not empty; a line feed may follow. -/
def isReference : List Char → Bool
  | '\x7b' :: rest =>
      !(rest.takeWhile (!isBrace ·)).isEmpty &&
        (match rest.dropWhile (!isBrace ·) with
         | '\x7d' :: after => isEnd after
         | _ => false)
  | _ => false

end Spelling

def Json.isAlias : Json → Bool
  | .str s => Spelling.isReference s.toList
  | _ => false

end DesignTokens
