/-
# DesignTokens.Inference -- a token's type guessed from its value

A number from 0 to 1 is taken for an opacity and any other for a plain number.  A text is judged
without the blanks at its ends: a colour by its first characters, then a dimension or duration by
its unit, then a number by its value.
-/
import DesignTokens.TokenType
import DesignTokens.Spelling.Colour

namespace DesignTokens

set_option autoImplicit false

namespace TokenType

def looksLikeColour (text : List Char) : Bool :=
  text.head? == some '#' || Spelling.isColourFunction text

/-- Zero to one is the range of an opacity. -/
def ofRange (inUnit : Bool) : TokenType :=
  if inUnit then .opacity else .number

def inferText? (text : List Char) : Option TokenType :=
  if looksLikeColour text then some .color
  else if (Spelling.dimension? text).isSome then some .dimension
  else if Spelling.isDuration text then some .duration
  else (Spelling.number? text).map fun x => ofRange (x.between 0 1)

def infer? : Json → Option TokenType
  | .str s => inferText? (Text.trim s.toList)
  | .int n => some (ofRange ((Json.int n).between 0 1))
  | .float x => some (ofRange (x.between 0 1))
  | _ => none

end TokenType

end DesignTokens
