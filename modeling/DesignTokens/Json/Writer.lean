/-
# DesignTokens.Json.Writer -- the text of a JSON value

`write` gives the text of a value as characters.  Without an indent everything stands on one line,
with `, ` and `: ` as separators.  With an indent every item starts a line of its own, indented by
that many spaces for each level; an indent of zero or less starts the lines at the margin.  Empty
arrays and objects stay closed up.  `writeIndented` refuses an indent that cannot be had.

A string is written in double quotes.  The quote, the backslash and the control characters are
escaped; with `ascii` set so is every character outside the printable ASCII range, one above U+FFFF
as two escapes, and one that stands for a lone half as this half.
-/
import DesignTokens.Json.Basic
import DesignTokens.Number.Shortest
import DesignTokens.Text.Halves

namespace DesignTokens

set_option autoImplicit false

namespace Json

/-- How a value is laid out. -/
structure Style where
  indent : Option Int
  /-- Whether all but ASCII is escaped, and then what stands for lone halves. -/
  ascii : Option Halves

def Style.compact : Style := ⟨none, none⟩

def codeEscape (n : Nat) : List Char :=
  '\\' :: 'u' :: Text.hexDigits 4 n

/-- The one-letter escapes. -/
def escapeLetter? : Char → Option Char
  | '"' => some '"'
  | '\\' => some '\\'
  | '\n' => some 'n'
  | '\r' => some 'r'
  | '\t' => some 't'
  | '\x08' => some 'b'
  | '\x0c' => some 'f'
  | _ => none

/-- The code escapes of a character, or of the half that it stands for. -/
def codeEscapes (halves : Halves) (c : Char) : List Char :=
  match halves.half? c with
  | some half => codeEscape half
  | none =>
    if c.toNat < 0x10000 then codeEscape c.toNat
    else
      codeEscape (0xD800 + (c.toNat - 0x10000) / 0x400) ++
        codeEscape (0xDC00 + (c.toNat - 0x10000) % 0x400)

def escapeChar (ascii : Option Halves) (c : Char) : List Char :=
  match escapeLetter? c with
  | some letter => ['\\', letter]
  | none =>
    if c.toNat < 0x20 then codeEscape c.toNat
    else
      match ascii with
      | some halves => if 0x7E < c.toNat then codeEscapes halves c else [c]
      | none => [c]

def writeString (ascii : Option Halves) (s : String) : List Char :=
  '"' :: s.toList.flatMap (escapeChar ascii) ++ ['"']

def writeInt (n : Int) : List Char :=
  if n < 0 then '-' :: Nat.toDigits 10 n.natAbs else Nat.toDigits 10 n.natAbs

/-- The names of special numbers in a document. -/
def numberNames : Binary64.SpecialNames where
  nan := "NaN"
  infinity := "Infinity"

/-- What starts the line of an item at a level; nothing on one line. -/
def lineStart (style : Style) (level : Nat) : List Char :=
  match style.indent with
  | none => []
  | some n => '\n' :: List.replicate (n * level).toNat ' '

def separator (style : Style) (level : Nat) : List Char :=
  match style.indent with
  | none => [',', ' ']
  | some _ => ',' :: lineStart style level

mutual

def writeAt (style : Style) (level : Nat) : Json → List Char
  | .null => "null".toList
  | .bool b => (if b then "true" else "false").toList
  | .int n => writeInt n
  | .float x => (x.render numberNames).toList
  | .str s => writeString style.ascii s
  | .arr [] => ['[', ']']
  | .arr (item :: items) =>
      '[' :: lineStart style (level + 1) ++ writeAt style (level + 1) item ++
        writeItems style (level + 1) items ++ lineStart style level ++ [']']
  | .obj [] => ['\x7b', '\x7d']
  | .obj ((key, value) :: members) =>
      '\x7b' :: lineStart style (level + 1) ++ writeString style.ascii key ++ [':', ' '] ++
        writeAt style (level + 1) value ++ writeMembers style (level + 1) members ++
        lineStart style level ++ ['\x7d']

/-- The items after the first, each behind a separator. -/
def writeItems (style : Style) (level : Nat) : List Json → List Char
  | [] => []
  | item :: items =>
      separator style level ++ writeAt style level item ++ writeItems style level items

/-- The members after the first, each behind a separator. -/
def writeMembers (style : Style) (level : Nat) : List (String × Json) → List Char
  | [] => []
  | (key, value) :: members =>
      separator style level ++ writeString style.ascii key ++ [':', ' '] ++
        writeAt style level value ++ writeMembers style level members

end

def write (style : Style) (value : Json) : String :=
  String.ofList (writeAt style 0 value)

/-- The text of a value on one line. -/
def compact (value : Json) : String :=
  value.write Style.compact

/-! ## Indents that cannot be had -/

inductive IndentError where
  /-- An indent is counted in a signed word of 64 bits, and this one does not fit. -/
  | outOfRange
  /-- A line indented so far does not fit into memory. -/
  | tooWide
  deriving DecidableEq, Repr

/-- Indents lie below this bound, and no further below zero. -/
def indentBound : Int := Binary64.twoTo 63

/-- Lines that are indented by `widest` or more do not fit into memory. -/
def indentError? (widest indent : Int) : Option IndentError :=
  if indent < -indentBound || indentBound ≤ indent then some .outOfRange
  else if widest ≤ indent then some .tooWide
  else none

/-- The text of a value in indented lines.  A string is never broken into lines, so it can be
written with every indent. -/
def writeIndented (widest : Int) (ascii : Option Halves) (indent : Int) (value : Json) :
    Except IndentError String :=
  match value, indentError? widest indent with
  | .str s, _ => .ok (String.ofList (writeString ascii s))
  | _, some e => .error e
  | _, none => .ok (value.write ⟨some indent, ascii⟩)

end Json

end DesignTokens
