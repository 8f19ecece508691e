/-
# DesignTokens.Proofs.Normal.Dimension -- an integer dimension through its text

The text of a dimension is its number and its unit, and reading it splits the two again where the number
ends.  An integer is written with all its digits, but a number in a text is read as a double; so what
comes back is the integer of the nearest double (`ofValue_toText`), and the same integer exactly if it is
one.  `ofInt?_cases` has the arithmetic of this: the integer that is written passes the same rounding as
the digits that are read.
-/
import DesignTokens.Normal.Dimension
import DesignTokens.Proofs.Json.Scalars
import DesignTokens.Proofs.Number.Doubles
import DesignTokens.Proofs.Spelling

namespace DesignTokens

set_option autoImplicit false

open Text

/-! ## Integers as text -/

theorem Json.toList_plain_int (n : Int) : (Json.int n).plain.toList = Json.writeInt n := by
  rw [writeInt]
  cases n with
  | ofNat m =>
      rw [if_neg (by simp)]
      exact String.toList_ofList
  | negSucc m =>
      rw [if_pos (Int.negSucc_lt_zero m)]
      exact String.toList_append.trans (congrArg ('-' :: ·) String.toList_ofList)

namespace Spelling

theorem isDigit_of_mem_toDigits {n : Nat} {c : Char} (mem : c ∈ Nat.toDigits 10 n) : isDigit c = true := by
  have ascii : 48 ≤ c.toNat ∧ c.toNat ≤ 57 := by
    simpa [Char.isDigit, UInt32.le_iff_toNat_le] using Nat.isDigit_of_mem_toDigits (by decide) (by decide) mem
  exact (CodeRanges.contains_iff _ c).2 ⟨(48, 57), .head _, ascii⟩

theorem isNumber_writeInt (n : Int) : IsNumber (Json.writeInt n) := by
  have isUnsigned : IsUnsigned (Nat.toDigits 10 n.natAbs) := by
    simpa using IsUnsigned.parts Nat.toDigits_ne_nil (fun c mem => isDigit_of_mem_toDigits mem) .none
  unfold Json.writeInt
  split
  · exact .negative isUnsigned
  · exact .positive isUnsigned

/-- The digits of an integer are read as the double nearest to it. -/
theorem readDecimal?_writeInt (n : Int) :
    Numeral.readDecimal? (Json.writeInt n) = some (.ofRatio (n < 0) n.natAbs 1) := by
  have digits : ∀ c ∈ Nat.toDigits 10 n.natAbs, isDigit c = true := fun c mem => isDigit_of_mem_toDigits mem
  have minus := Json.splitMinus_writeInt n []
  rw [List.append_nil, List.append_nil] at minus
  rw [Numeral.readDecimal?, minus]
  dsimp only
  rw [List.takeWhile_eq_self_iff.2 digits, List.dropWhile_eq_nil_iff.2 digits]
  dsimp only
  rw [if_neg (by simp), Json.numeral_toDigits, Binary64.ofDecimal_eq_ofRatio]
  simp [Binary64.tenTo]

end Spelling

namespace Dimension

/-- A dimension whose number is an integer. -/
def ofInt (n : Int) (unit : String) : Json :=
  .obj [("value", .int n), ("unit", .str unit)]

/-- The text of an integer dimension. -/
def textOf (n : Int) (unit : String) : String :=
  (Json.int n).plain ++ unit

theorem ofValue_textOf (n : Int) {unit : String} (known : unit ∈ Spelling.dimensionUnits) :
    ofValue (.str (textOf n unit)) =
      .obj [("value", ofDouble (.ofRatio (n < 0) n.natAbs 1)), ("unit", .str unit)] := by
  have text : (textOf n unit).toList = Json.writeInt n ++ (unit.toList ++ []) := by
    rw [textOf, String.toList_append, Json.toList_plain_int, List.append_nil]
  have reads : Spelling.dimension? (trim (textOf n unit).toList) = some (Json.writeInt n, unit) :=
    Spelling.dimension?_trim
      (Spelling.dimension?_eq_some_iff.2 ⟨Spelling.isNumber_writeInt n, known, [], rfl, text⟩)
  simp [ofValue, ofText?, reads, Spelling.readDecimal?_writeInt]

/-- An integer dimension has a text if its number has a double near it. -/
theorem toText_ofInt (n : Int) (unit : String) :
    toText (ofInt n unit) =
      match Binary64.ofInt? n with
      | some _ => .ok (.str (textOf n unit))
      | none => .error .integerTooLarge := by
  show (do let number ← numberText (.int n); return Json.str (number ++ unit)) = _
  rw [numberText]
  cases Binary64.ofInt? n with
  | some => rfl
  | none => rfl

/-- Beyond all doubles an integer dimension has no text. -/
theorem toText_of_overflow {n : Int} (unit : String) (beyond : Binary64.overflow ≤ |(n : ℚ)|) :
    toText (ofInt n unit) = .error .integerTooLarge := by
  rcases Binary64.ofInt?_cases n with ⟨-, isNone⟩ | ⟨inside, -⟩
  · rw [toText_ofInt, isNone]
  · exact absurd inside (not_lt.2 beyond)

/-- **An integer comes back from its text as the integer of the nearest double.** -/
theorem ofValue_toText (n : Int) (unit : String) (known : unit ∈ Spelling.dimensionUnits)
    (inside : |(n : ℚ)| < Binary64.overflow) :
    ∃ r : Int, toText (ofInt n unit) = .ok (.str (textOf n unit)) ∧
      ofValue (.str (textOf n unit)) = ofInt r unit ∧
      Binary64.IsDouble r ∧ (∀ q, Binary64.IsDouble q → |(n - r : ℚ)| ≤ |n - q|) ∧
      (r = n ↔ Binary64.IsDouble n) := by
  rcases Binary64.ofInt?_cases n with ⟨beyond, -⟩ | ⟨-, x, r, rounds, rfl, isInt, isDouble, nearest⟩
  · exact absurd inside (not_lt.2 beyond)
  · have writes : toText (ofInt n unit) = .ok (.str (textOf n unit)) := by rw [toText_ofInt, rounds]
    refine ⟨r, writes, ?_, isDouble, nearest, fun same => same ▸ isDouble, fun same => ?_⟩
    · rw [ofValue_textOf n known, ofDouble, isInt]
      rfl
    · have apart := nearest n same
      rw [sub_self, abs_zero, abs_nonpos_iff, sub_eq_zero] at apart
      exact_mod_cast apart.symm

namespace Example

/-- The first integer that is no double comes back as another one, and the first power of two that is
too large for one has no text. -/
theorem odd_comes_back_even :
    toText (ofInt 9007199254740993 "px") = .ok (.str "9007199254740993px") ∧
      ofValue (.str "9007199254740993px") = ofInt 9007199254740992 "px" ∧
      ofInt 9007199254740992 "px" ≠ ofInt 9007199254740993 "px" ∧
      toText (ofInt (2 ^ 1024) "px") = .error .integerTooLarge := by
  refine ⟨rfl, rfl, by simp [ofInt], toText_of_overflow "px" ?_⟩
  rw [Int.cast_pow, Int.cast_ofNat, abs_of_nonneg (by positivity), Binary64.overflow]
  exact sub_le_self _ (by positivity)

/-- A negative percentage is a double, and comes back. -/
theorem percentage_comes_back :
    "%" ∈ Spelling.dimensionUnits ∧ toText (ofInt (-3) "%") = .ok (.str "-3%") ∧
      ofValue (.str "-3%") = ofInt (-3) "%" := by
  have known : "%" ∈ Spelling.dimensionUnits := by decide
  have isDouble : Binary64.IsDouble ((-3 : Int) : ℚ) :=
    ⟨3, 0, by decide, by decide, by decide, by norm_num⟩
  obtain ⟨r, writes, reads, -, -, same⟩ := ofValue_toText (-3) "%" known isDouble.lt_overflow
  rw [same.2 isDouble] at reads
  exact ⟨known, writes, reads⟩

end Example

end Dimension

end DesignTokens
