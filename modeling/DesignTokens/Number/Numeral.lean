/-
# DesignTokens.Number.Numeral -- numbers spelled in text

Readers for the spellings of numbers that tokens and settings hold.  `readDecimal?` takes digits
with at most one point, and at least one digit; `readInteger` takes an optional sign and digits
with single underscores between them, blanks around; `readHex?` takes hexadecimal digits, and
blanks around.  Decimal digits of every script count as digits in the first two.
-/
import DesignTokens.Number.Binary64
import DesignTokens.Text.Blank
import DesignTokens.Text.DecimalDigit

namespace DesignTokens

set_option autoImplicit false

open Text

namespace Numeral

/-- Splits a leading minus sign off. -/
def splitMinus : List Char → Bool × List Char
  | '-' :: rest => (true, rest)
  | s => (false, s)

/-- A decimal with an optional minus sign: digits, and perhaps a point with digits on one side of
it at least. -/
def readDecimal? (s : List Char) : Option Binary64 :=
  let (negative, body) := splitMinus s
  let whole := body.takeWhile isDigit
  match body.dropWhile isDigit with
  | [] => if whole.isEmpty then none else some (.ofDecimal negative (numeral whole) 0)
  | '.' :: fraction =>
      if (whole ++ fraction).isEmpty || fraction.any (!isDigit ·) then none
      else some (.ofDecimal negative (numeral (whole ++ fraction)) (-fraction.length))
  | _ => none

/-- Digits with single underscores between them: the digits alone and what follows, or `none` if
an underscore stands first, last or beside another. -/
def digitRun? : List Char → Option (List Char × List Char)
  | [] => some ([], [])
  | c :: rest =>
      if isDigit c then
        match digitRun? rest with
        | some (digits, after) => some (c :: digits, after)
        | none => none
      else if c = '_' then
        match digitRun? rest with
        | some (d :: digits, after) => if rest.head? == some d then some (d :: digits, after) else none
        | _ => none
      else some ([], c :: rest)

/-- Blanks that may stand around an integer: all but the information separators. -/
def isPadding (c : Char) : Bool :=
  isBlank c && !(0x1C ≤ c.toNat && c.toNat ≤ 0x1F)

/-- Integers of more digits than this are refused. -/
def maxDigits : Nat := 4300

inductive IntegerError where
  | malformed
  | tooLong (digits : Nat)
  deriving DecidableEq, Repr

def readInteger (s : List Char) : Except IntegerError Int :=
  let body := s.dropWhile isPadding
  let (negative, unsigned) :=
    match body with
    | '-' :: rest => (true, rest)
    | '+' :: rest => (false, rest)
    | rest => (false, rest)
  match unsigned with
  | '_' :: _ => .error .malformed
  | _ =>
    match digitRun? unsigned with
    | none => .error .malformed
    | some ([], _) => .error .malformed
    | some (digits, after) =>
        if maxDigits < digits.length then .error (.tooLong digits.length)
        else if (after.dropWhile isPadding).isEmpty then
          .ok (Binary64.signed negative (numeral digits))
        else .error .malformed

def hexValue? (c : Char) : Option Nat :=
  if '0' ≤ c ∧ c ≤ '9' then some (c.toNat - 48)
  else if 'a' ≤ c ∧ c ≤ 'f' then some (c.toNat - 87)
  else if 'A' ≤ c ∧ c ≤ 'F' then some (c.toNat - 55)
  else none

theorem hexValue?_lt {c : Char} {d : Nat} (value : hexValue? c = some d) : d < 16 := by
  have le_iff (a b : Char) : a ≤ b ↔ a.toNat ≤ b.toNat := Iff.rfl
  unfold hexValue? at value
  simp only [le_iff, Char.reduceToNat] at value
  repeat' split at value
  all_goals cases value
  all_goals omega

def isHex (c : Char) : Bool :=
  (hexValue? c).isSome

/-- A hexadecimal number, blanks around it allowed; `none` if no digit is there. -/
def readHex? (s : List Char) : Option Nat :=
  match trim s with
  | [] => none
  | digits =>
      digits.foldl (fun n? c => do return 16 * (← n?) + (← hexValue? c)) (some 0)

end Numeral

end DesignTokens
