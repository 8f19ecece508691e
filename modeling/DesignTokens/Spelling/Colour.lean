/-
# DesignTokens.Spelling.Colour -- hex colours and colour functions as token text

A hex colour is a number sign with three, six or eight hexadecimal digits; a line feed may end it,
and then counts among what `hexDigits?` gives.  A colour function starts with `rgb`, `rgba`, `hsl`
or `hsla` and a parenthesis, in letters of either case, where the long s counts as an s.

`rgb?` reads the arguments of `rgb` and `rgba`: three runs of one to three digits and perhaps a run
of digits and points, separated by commas, with blanks between.
-/
import DesignTokens.Spelling.Quantity

namespace DesignTokens

set_option autoImplicit false

open Text

namespace Spelling

/-- What stands behind the number sign of a hex colour. -/
def hexDigits? : List Char → Option (List Char)
  | '#' :: rest =>
      let count := (rest.takeWhile Numeral.isHex).length
      if (count == 3 || count == 6 || count == 8) && isEnd (rest.dropWhile Numeral.isHex) then
        some rest
      else none
  | _ => none

def isHexColour (s : List Char) : Bool :=
  (hexDigits? s).isSome

/-- A letter without its case, for the letters of the function names. -/
def foldLetter (c : Char) : Char :=
  if c.toNat = 0x17F then 's' else lower c
where
  lower (c : Char) : Char := if 'A' ≤ c ∧ c ≤ 'Z' then Char.ofNat (c.toNat + 32) else c

/-- What remains after one of the heads, letters of either case. -/
def afterHead? (heads : List String) (s : List Char) : Option (List Char) :=
  heads.findSome? fun head =>
    if (s.take head.length).map foldLetter == head.toList then some (s.drop head.length) else none

def isColourFunction (s : List Char) : Bool :=
  (afterHead? ["rgb(", "rgba(", "hsl(", "hsla("] s).isSome

/-- A run of one to three digits with blanks around it. -/
def channel? (s : List Char) : Option (List Char × List Char) :=
  let body := dropBlanks s
  let digits := body.takeWhile isDigit
  if 1 ≤ digits.length ∧ digits.length ≤ 3 then
    some (digits, dropBlanks (body.dropWhile isDigit))
  else none

def afterComma? : List Char → Option (List Char)
  | ',' :: rest => some rest
  | _ => none

def isAlphaChar (c : Char) : Bool :=
  isDigit c || c == '.'

/-- The closing parenthesis at the end of a text. -/
def isClosing : List Char → Bool
  | ')' :: rest => isEnd rest
  | _ => false

/-- An alpha argument and the closing parenthesis. -/
def alpha? (s : List Char) : Option (List Char) :=
  let body := dropBlanks s
  let alpha := body.takeWhile isAlphaChar
  if !alpha.isEmpty && isClosing (dropBlanks (body.dropWhile isAlphaChar)) then some alpha else none

/-- The arguments of a colour function as spelled. -/
structure RgbArguments where
  red : List Char
  green : List Char
  blue : List Char
  alpha : Option (List Char)

def rgb? (s : List Char) : Option RgbArguments := do
  let s ← afterHead? ["rgb(", "rgba("] s
  let (red, s) ← channel? s
  let s ← afterComma? s
  let (green, s) ← channel? s
  let s ← afterComma? s
  let (blue, s) ← channel? s
  match afterComma? s with
  | some rest => do
      let alpha ← alpha? rest
      return { red, green, blue, alpha := some alpha }
  | none => if isClosing s then some { red, green, blue, alpha := none } else none

end Spelling

end DesignTokens
