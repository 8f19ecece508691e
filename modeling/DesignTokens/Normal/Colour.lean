/-
# DesignTokens.Normal.Colour -- structured colours

A colour spelled as text becomes an object: the colour space, three channels from 0 to 1 rounded to
three places, and the hex code of the channels in capitals.  Eight hex digits and a fourth argument
of a colour function give an alpha besides.

Two spellings are accepted by their form but hold no number: three hex digits before a line feed,
whose doubled digits run out, and an alpha that is not one decimal.  Reading them is a fault.
-/
import DesignTokens.Fault
import DesignTokens.Spelling.Colour

namespace DesignTokens

set_option autoImplicit false

namespace Colour

/-- A byte as a channel: its part of 255, to three places. -/
def channel (byte : Nat) : Json :=
  .float ((Binary64.ofRatio false byte 255).roundPlaces 3)

def hexPair (byte : Nat) : List Char :=
  [byte / 16, byte % 16].map fun d => if d < 10 then Char.ofNat (48 + d) else Char.ofNat (55 + d)

def capital (c : Char) : Char :=
  if 'a' ≤ c ∧ c ≤ 'f' then Char.ofNat (c.toNat - 32) else c

def object (red green blue : Nat) (hex : List Char) (alpha : Option Json) : Members :=
  [("colorSpace", .str "srgb"), ("channels", .arr [channel red, channel green, channel blue]),
    ("hex", .str (String.ofList ('#' :: hex)))] ++
    (match alpha with
     | some a => [("alpha", a)]
     | none => [])

/-! ## Hex colours -/

/-- Three digits stand for six. -/
def sixOrEight (digits : List Char) : List Char :=
  if digits.length = 3 then digits.flatMap fun c => [c, c] else digits

def byteAt (digits : List Char) (start : Nat) : Except Fault Nat :=
  let pair := (digits.drop start).take 2
  match Numeral.readHex? pair with
  | some n => .ok n
  | none => .error (.notAnInteger 16 (String.ofList pair))

/-- The structured form of a hex colour; `none` for any other text. -/
def ofHex? (s : List Char) : Except Fault (Option Members) :=
  match Spelling.hexDigits? s with
  | none => .ok none
  | some spelled => do
      let digits := sixOrEight spelled
      let red ← byteAt digits 0
      let green ← byteAt digits 2
      let blue ← byteAt digits 4
      let alpha ← if digits.length = 8 then some <$> byteAt digits 6 else .ok none
      return some (object red green blue ((digits.take 6).map capital) (alpha.map channel))

/-! ## Colour functions -/

def alphaOf (spelled : List Char) : Except Fault Json :=
  match Numeral.readDecimal? spelled with
  | some x => .ok (.float x)
  | none => .error (.notADecimal (String.ofList spelled))

/-- The structured form of an `rgb` or `rgba` call, blanks around it allowed; `none` for any other
text, and for channels above 255. -/
def ofFunction? (s : List Char) : Except Fault (Option Members) :=
  match Spelling.rgb? (Text.trim s) with
  | none => .ok none
  | some arguments =>
      let red := Text.numeral arguments.red
      let green := Text.numeral arguments.green
      let blue := Text.numeral arguments.blue
      if 255 < red ∨ 255 < green ∨ 255 < blue then .ok none
      else do
        let hex := hexPair red ++ hexPair green ++ hexPair blue
        match arguments.alpha with
        | some spelled => do
            let alpha ← alphaOf spelled
            return some (object red green blue hex (some alpha))
        | none => return some (object red green blue hex none)

/-! ## Values -/

/-- A value with its text in structured form, if that can be read so. -/
def structured (read : List Char → Except Fault (Option Members)) (value : Json) :
    Except Fault Json :=
  match value with
  | .str s => do
      match ← read s.toList with
      | some ms => return .obj ms
      | none => return value
  | _ => .ok value

def ofHexValue : Json → Except Fault Json :=
  structured ofHex?

def ofFunctionValue : Json → Except Fault Json :=
  structured ofFunction?

end Colour

end DesignTokens
