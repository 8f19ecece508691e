/-
# DesignTokens.Json.Reader -- reading JSON text

`Json.read` reads one value that fills the whole text, blanks around it.  Besides the standard
grammar it takes `NaN`, `Infinity` and `-Infinity`; a number without fraction and exponent is an
exact integer of at most 4300 digits.  A code escape may spell a lone half of a surrogate pair; it is
held by a stand-in that the text does not spell otherwise (`halvesOf`).

A reading step takes the text that remains and gives a value with the text that then remains, so
every refusal names its place by what remained there (`Refusal`), and `locate` turns that into
line, column and position.  The nested readers carry fuel.  Each call for a value or for the next
item consumes a character, so the twofold length of the text is always enough.
-/
import DesignTokens.Json.Basic
import DesignTokens.Number.Numeral
import DesignTokens.Text.Halves

namespace DesignTokens

set_option autoImplicit false

namespace Json

/-- Why a text is not the text of a value. -/
inductive SyntaxCause where
  | expectingValue
  | expectingName
  | expectingColon
  | expectingComma
  | unterminatedString
  | controlCharacter
  | badEscape
  | badCodeEscape
  | extraData
  | byteOrderMark
  deriving DecidableEq, Repr

def SyntaxCause.message : SyntaxCause → String
  | .expectingValue => "Expecting value"
  | .expectingName => "Expecting property name enclosed in double quotes"
  | .expectingColon => "Expecting ':' delimiter"
  | .expectingComma => "Expecting ',' delimiter"
  | .unterminatedString => "Unterminated string starting at"
  | .controlCharacter => "Invalid control character at"
  | .badEscape => "Invalid \\escape"
  | .badCodeEscape => "Invalid \\uXXXX escape"
  | .extraData => "Extra data"
  | .byteOrderMark => "Unexpected UTF-8 BOM (decode using utf-8-sig)"

/-- A refusal while reading: a cause with the text from that place on, or an integer too long. -/
inductive Refusal where
  | syntaxAt (cause : SyntaxCause) (rest : List Char)
  | tooManyDigits (digits : Nat)
  deriving DecidableEq, Repr

/-- A reading step: a value and the text after it. -/
abbrev Reading (α : Type) := Except Refusal (α × List Char)

def refuse {α : Type} (cause : SyntaxCause) (rest : List Char) : Except Refusal α :=
  .error (.syntaxAt cause rest)

def isSpace (c : Char) : Bool :=
  c == ' ' || c == '\t' || c == '\n' || c == '\r'

def skipSpace (s : List Char) : List Char :=
  s.dropWhile isSpace

/-! ## Strings -/

def unescapeLetter? : Char → Option Char
  | '"' => some '"'
  | '\\' => some '\\'
  | '/' => some '/'
  | 'b' => some '\x08'
  | 'f' => some '\x0c'
  | 'n' => some '\n'
  | 'r' => some '\r'
  | 't' => some '\t'
  | _ => none

def hexCode? (a b c d : Char) : Option Nat := do
  let a ← Numeral.hexValue? a
  let b ← Numeral.hexValue? b
  let c ← Numeral.hexValue? c
  let d ← Numeral.hexValue? d
  return ((a * 16 + b) * 16 + c) * 16 + d

def isHighSurrogate (n : Nat) : Bool :=
  0xD800 ≤ n && n ≤ 0xDBFF

def isLowSurrogate (n : Nat) : Bool :=
  0xDC00 ≤ n && n ≤ 0xDFFF

def isHalf (n : Nat) : Bool :=
  isHighSurrogate n || isLowSurrogate n

/-- The character of a code by itself. -/
def charOfCode (halves : Halves) (n : Nat) : Char :=
  if isHalf n then halves.standIn n else Char.ofNat n

def joinSurrogates (high low : Nat) : Char :=
  Char.ofNat (0x10000 + (high - 0xD800) * 0x400 + (low - 0xDC00))

/-- Characters from codes: two halves of a pair that stand together are one character. -/
def joinCodes (halves : Halves) : List Nat → List Char
  | high :: low :: rest =>
      if isHighSurrogate high && isLowSurrogate low then
        joinSurrogates high low :: joinCodes halves rest
      else charOfCode halves high :: joinCodes halves (low :: rest)
  | [code] => [charOfCode halves code]
  | [] => []

def consCode (code : Nat) : Reading (List Nat) → Reading (List Nat)
  | .ok (codes, rest) => .ok (code :: codes, rest)
  | .error e => .error e

/-- The character codes of a string up to its closing quote.  `opening` is the text from the opening
quote on, which an unterminated string is reported at.  A code escape must have a character after
it. -/
def readCodes (opening : List Char) : List Char → Reading (List Nat)
  | [] => refuse .unterminatedString opening
  | '"' :: rest => .ok ([], rest)
  | ['\\'] => refuse .unterminatedString opening
  | '\\' :: 'u' :: a :: b :: c :: d :: e :: rest =>
      match hexCode? a b c d with
      | some code => consCode code (readCodes opening (e :: rest))
      | none => refuse .badCodeEscape ('u' :: a :: b :: c :: d :: e :: rest)
  | '\\' :: 'u' :: rest => refuse .badCodeEscape ('u' :: rest)
  | '\\' :: letter :: rest =>
      match unescapeLetter? letter with
      | some c => consCode c.toNat (readCodes opening rest)
      | none => refuse .badEscape ('\\' :: letter :: rest)
  | c :: rest =>
      if c.toNat < 0x20 then refuse .controlCharacter (c :: rest)
      else consCode c.toNat (readCodes opening rest)

/-- A string after its opening quote. -/
def readString (halves : Halves) (rest : List Char) : Reading String :=
  match readCodes ('"' :: rest) rest with
  | .ok (codes, after) => .ok (String.ofList (joinCodes halves codes), after)
  | .error e => .error e

/-! ## Lone halves -/

/-- The code of a code escape that a text starts with. -/
def escapedCode? : List Char → Option Nat
  | '\\' :: 'u' :: a :: b :: c :: d :: _ => hexCode? a b c d
  | _ => none

/-- The codes of all code escapes in a text, whether or not they stand in a string. -/
def escapedCodes : List Char → List Nat
  | [] => []
  | c :: rest => (escapedCode? (c :: rest)).toList ++ escapedCodes rest

/-- Stand-ins for the halves that a text spells, none of them a character that it spells. -/
def halvesOf (text : List Char) : Halves :=
  let codes := escapedCodes text
  Halves.choose (text ++ joinCodes [] codes) (codes.filter isHalf)

/-! ## Numbers -/

def isAsciiDigit (c : Char) : Bool :=
  '0' ≤ c && c ≤ '9'

/-- A point with digits after it: the digits, and what follows. -/
def readFraction : List Char → Option (List Char × List Char)
  | '.' :: rest =>
      if (rest.takeWhile isAsciiDigit).isEmpty then none
      else some (rest.takeWhile isAsciiDigit, rest.dropWhile isAsciiDigit)
  | _ => none

/-- An exponent mark with a sign or none, and digits. -/
def readExponent : List Char → Option (Int × List Char)
  | mark :: rest =>
      if mark = 'e' ∨ mark = 'E' then
        let (negative, unsigned) : Bool × List Char :=
          match rest with
          | '-' :: r => (true, r)
          | '+' :: r => (false, r)
          | r => (false, r)
        let digits := unsigned.takeWhile isAsciiDigit
        if digits.isEmpty then none
        else some (Binary64.signed negative (Text.numeral digits), unsigned.dropWhile isAsciiDigit)
      else none
  | [] => none

/-- The digits before a fraction or exponent: a zero by itself, or a run that starts otherwise. -/
def readWhole : List Char → Option (List Char × List Char)
  | '0' :: rest => some (['0'], rest)
  | c :: rest =>
      if isAsciiDigit c then
        some (c :: rest.takeWhile isAsciiDigit, rest.dropWhile isAsciiDigit)
      else none
  | [] => none

def readNumber (s : List Char) : Reading Json :=
  let (negative, unsigned) := Numeral.splitMinus s
  match readWhole unsigned with
  | none => refuse .expectingValue s
  | some (whole, afterWhole) =>
    let (fraction, afterFraction) := (readFraction afterWhole).getD ([], afterWhole)
    match readExponent afterFraction with
    | some (exponent, after) =>
        .ok (.float (.ofDecimal negative (Text.numeral (whole ++ fraction))
          (exponent - fraction.length)), after)
    | none =>
      if fraction.isEmpty then
        if Numeral.maxDigits < whole.length then .error (.tooManyDigits whole.length)
        else .ok (.int (Binary64.signed negative (Text.numeral whole)), afterFraction)
      else
        .ok (.float (.ofDecimal negative (Text.numeral (whole ++ fraction)) (-fraction.length)),
          afterFraction)

/-! ## Values -/

/-- The words that stand for a value. -/
def literals : List (String × Json) :=
  [("null", .null), ("true", .bool true), ("false", .bool false), ("NaN", .float .nan),
    ("Infinity", .float (.infinite false)), ("-Infinity", .float (.infinite true))]

/-- What remains after a word, if the text starts with it. -/
def dropWord? : List Char → List Char → Option (List Char)
  | [], s => some s
  | _ :: _, [] => none
  | w :: word, c :: s => if w = c then dropWord? word s else none

def readLiteral? (s : List Char) : Option (Json × List Char) :=
  literals.findSome? fun p => (dropWord? p.1.toList s).map fun rest => (p.2, rest)

def readScalar (s : List Char) : Reading Json :=
  match readLiteral? s with
  | some r => .ok r
  | none => readNumber s

mutual

def readValue (halves : Halves) : Nat → List Char → Reading Json
  | 0, s => refuse .expectingValue s
  | fuel + 1, s =>
    match s with
    | '"' :: rest =>
        match readString halves rest with
        | .ok (text, after) => .ok (.str text, after)
        | .error e => .error e
    | '[' :: rest =>
        match skipSpace rest with
        | ']' :: after => .ok (.arr [], after)
        | start =>
          match readItems halves fuel start with
          | .ok (items, after) => .ok (.arr items, after)
          | .error e => .error e
    | '\x7b' :: rest =>
        match skipSpace rest with
        | '\x7d' :: after => .ok (.obj [], after)
        | start =>
          match readMembers halves fuel start with
          | .ok (pairs, after) => .ok (.obj (Members.ofPairs pairs), after)
          | .error e => .error e
    | s => readScalar s

/-- Items up to the closing bracket; the text starts at an item. -/
def readItems (halves : Halves) : Nat → List Char → Reading (List Json)
  | 0, s => refuse .expectingValue s
  | fuel + 1, s =>
    match readValue halves fuel s with
    | .error e => .error e
    | .ok (item, rest) =>
      match skipSpace rest with
      | ']' :: after => .ok ([item], after)
      | ',' :: more =>
          match readItems halves fuel (skipSpace more) with
          | .ok (items, after) => .ok (item :: items, after)
          | .error e => .error e
      | other => refuse .expectingComma other

/-- Members up to the closing brace; the text starts at a name. -/
def readMembers (halves : Halves) : Nat → List Char → Reading (List (String × Json))
  | 0, s => refuse .expectingName s
  | fuel + 1, s =>
    match s with
    | '"' :: rest =>
        match readString halves rest with
        | .error e => .error e
        | .ok (key, afterKey) =>
          match skipSpace afterKey with
          | ':' :: beforeValue =>
              match readValue halves fuel (skipSpace beforeValue) with
              | .error e => .error e
              | .ok (value, afterValue) =>
                match skipSpace afterValue with
                | '\x7d' :: after => .ok ([(key, value)], after)
                | ',' :: more =>
                    match readMembers halves fuel (skipSpace more) with
                    | .ok (pairs, after) => .ok ((key, value) :: pairs, after)
                    | .error e => .error e
                | other => refuse .expectingComma other
          | other => refuse .expectingColon other
    | other => refuse .expectingName other

end

/-! ## Documents -/

/-- Where a text was refused; lines and columns count from one, the position from zero. -/
structure Location where
  line : Nat
  column : Nat
  position : Nat
  deriving DecidableEq, Repr

/-- The place at which `rest` remains of `text`. -/
def locate (text rest : List Char) : Location :=
  let position := text.length - rest.length
  let before := text.take position
  { line := before.count '\n' + 1
    column := (before.reverse.takeWhile (· != '\n')).length + 1
    position }

/-- Why a text cannot be read. -/
inductive ReadError where
  | syntaxError (cause : SyntaxCause) (location : Location)
  | tooManyDigits (digits : Nat)
  deriving DecidableEq, Repr

def Refusal.toError (text : List Char) : Refusal → ReadError
  | .syntaxAt cause rest => .syntaxError cause (locate text rest)
  | .tooManyDigits digits => .tooManyDigits digits

def readDocument (text : List Char) : Except Refusal Json :=
  if text.head? = some '\uFEFF' then refuse .byteOrderMark text
  else
    match readValue (halvesOf text) (2 * text.length + 1) (skipSpace text) with
    | .error e => .error e
    | .ok (value, rest) =>
      match skipSpace rest with
      | [] => .ok value
      | other => refuse .extraData other

def read (text : String) : Except ReadError Json :=
  (readDocument text.toList).mapError (Refusal.toError text.toList)

end Json

end DesignTokens
