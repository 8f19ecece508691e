/-
# DesignTokens.Spelling.Quantity -- numbers, dimensions and durations as token text

A quantity starts with a number: an optional minus sign, digits, and perhaps a point with digits
after it.  What follows decides what it is.  Nothing makes it a number, a standard unit a
dimension, and `ms` or `s` a duration; a line feed may end any of them.

The loose form also takes blanks around the number and the unit, a number that starts with its
point, and any letters as the unit, or none.
-/
import DesignTokens.Number.Numeral

namespace DesignTokens

set_option autoImplicit false

open Text

namespace Spelling

/-- The end of a text, before which one line feed may stand. -/
def isEnd (s : List Char) : Bool :=
  s.isEmpty || s == ['\n']

/-- The units of a dimension, in the order in which messages list them. -/
def dimensionUnits : List String :=
  ["px", "rem", "em", "%", "vh", "vw", "vmin", "vmax", "pt", "cm", "mm", "in", "pc", "ch"]

def durationUnits : List String := ["ms", "s"]

/-- The digits behind a point, if the text starts with a point and a digit: with the point, and
what follows. -/
def splitFraction (s : List Char) : List Char × List Char :=
  match s with
  | '.' :: rest =>
      if (rest.takeWhile isDigit).isEmpty then ([], s)
      else ('.' :: rest.takeWhile isDigit, rest.dropWhile isDigit)
  | _ => ([], s)

/-- Splits the number off that starts a quantity. -/
def splitNumber? (s : List Char) : Option (List Char × List Char) :=
  let (negative, body) := Numeral.splitMinus s
  let whole := body.takeWhile isDigit
  if whole.isEmpty then none
  else
    let (fraction, rest) := splitFraction (body.dropWhile isDigit)
    some ((if negative then ['-'] else []) ++ whole ++ fraction, rest)

/-- The unit that makes up the rest of a quantity. -/
def unit? (units : List String) (rest : List Char) : Option String :=
  units.find? fun u => rest == u.toList || rest == u.toList ++ ['\n']

/-- A number followed by one of the units: the number as spelled, and the unit. -/
def quantity? (units : List String) (s : List Char) : Option (List Char × String) :=
  match splitNumber? s with
  | some (number, rest) => (unit? units rest).map fun u => (number, u)
  | none => none

def dimension? (s : List Char) : Option (List Char × String) :=
  quantity? dimensionUnits s

def isDuration (s : List Char) : Bool :=
  (quantity? durationUnits s).isSome

/-- The value of a text that is a number and nothing else. -/
def number? (s : List Char) : Option Binary64 :=
  match splitNumber? s with
  | some (number, rest) => if isEnd rest then Numeral.readDecimal? number else none
  | none => none

def isUnitLetter (c : Char) : Bool :=
  ('a' ≤ c && c ≤ 'z') || ('A' ≤ c && c ≤ 'Z') || c == '%'

/-- What follows a number that may start with its point. -/
def afterLooseNumber? (s : List Char) : Option (List Char) :=
  let whole := s.takeWhile isDigit
  match splitFraction (s.dropWhile isDigit) with
  | ([], rest) => if whole.isEmpty then none else some rest
  | (_, rest) => some rest

def isLooseDimension (s : List Char) : Bool :=
  match afterLooseNumber? (Numeral.splitMinus (dropBlanks s)).2 with
  | some rest => (dropBlanks ((dropBlanks rest).dropWhile isUnitLetter)).isEmpty
  | none => false

end Spelling

end DesignTokens
