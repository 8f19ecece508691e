/-
# DesignTokens.Proofs.Number.Doubles -- doubles as rational numbers

A finite value is compared and told from fractions in whole numbers; both say what holds of the rational
number that it stands for (`between_finite_iff`, `toInt?_finite_iff`).  Rounding keeps the order towards
every value of 53 bits (`IsNearest.le_of_le`, `IsNearest.le_of_ge`).

Two consequences are for those who read numbers from text.  The nearest double of an integer is an
integer, and the same one exactly if the integer is a double (`ofInt?_cases`).  And what is at most one,
or too little above to be told from one, is rounded into the unit interval (`between_ofRatio_iff`), and
stays there when it is rounded to decimal places (`between_roundPlaces`).
-/
import DesignTokens.Proofs.Number.Rounding

namespace DesignTokens

set_option autoImplicit false

namespace Binary64

/-! ## What a value is -/

theorem signed_mul (negative : Bool) (m k : Nat) : signed negative (m * k) = signed negative m * k := by
  cases negative <;> simp [signed]

theorem cast_signed (negative : Bool) (m : Nat) :
    ((signed negative m : Int) : ℚ) = (if negative then -1 else 1) * m := by
  cases negative <;> simp [signed]

theorem abs_cast_signed (negative : Bool) (m : Nat) : |((signed negative m : Int) : ℚ)| = m := by
  cases negative <;> simp [signed]

/-- The integer of a value is the value. -/
theorem toInt?_finite_iff {negative : Bool} {m : Nat} {e n : Int} :
    toInt? (.finite negative m e) = some n ↔ (signed negative m * 2 ^ e : ℚ) = n := by
  rw [toInt?]
  split_ifs with whole divides
  · have power : (2 : ℚ) ^ e = twoTo e := by
      rw [twoTo_eq e, twoTo, Int.toNat_of_nonpos (by omega)]
      simp
    rw [power, Option.some.injEq, signed_mul]
    exact_mod_cast Iff.rfl
  all_goals
    have unit : (1 : ℚ) = twoTo (-e) * 2 ^ e := by
      rw [← twoTo_eq e, twoTo, Int.toNat_of_nonpos (by omega)]
      rfl
    have same (k : Int) : (k * twoTo (-e) : Int) * (2 : ℚ) ^ e = k := by
      push_cast
      rw [mul_assoc, ← unit, mul_one]
  · obtain ⟨k, rfl⟩ := Nat.dvd_of_mod_eq_zero divides
    rw [Nat.mul_div_cancel_left k (twoTo_pos _), mul_comm (twoTo (-e)) k, signed_mul, same,
      Option.some.injEq, Int.cast_inj]
  · refine iff_of_false not_false fun isValue => divides ?_
    have power : (2 : ℚ) ^ e ≠ 0 := by positivity
    rw [← same n, mul_left_inj' power, Int.cast_inj] at isValue
    have size : m = n.natAbs * twoTo (-e) := by
      rw [← Int.natAbs_natCast (twoTo (-e)), ← Int.natAbs_mul, ← isValue]
      cases negative <;> simp [signed]
    rw [size, Nat.mul_mod_left]

theorem between_finite_iff {negative : Bool} {m : Nat} {e low high : Int} :
    between low high (.finite negative m e) = true ↔
      (low : ℚ) ≤ signed negative m * 2 ^ e ∧ (signed negative m * 2 ^ e : ℚ) ≤ high := by
  have scaleQ : (0 : ℚ) < twoTo (-e) := by exact_mod_cast twoTo_pos (-e)
  have value : ((signed negative (m * twoTo e) : Int) : ℚ) = signed negative m * 2 ^ e * twoTo (-e) := by
    rw [signed_mul]
    push_cast
    rw [twoTo_eq e]
    ring
  have atLeast (n : Int) :
      n * twoTo (-e) ≤ signed negative (m * twoTo e) ↔ (n : ℚ) ≤ signed negative m * 2 ^ e := by
    rw [← mul_le_mul_iff_left₀ scaleQ, ← value]
    exact_mod_cast Iff.rfl
  have atMost (n : Int) :
      signed negative (m * twoTo e) ≤ n * twoTo (-e) ↔ (signed negative m * 2 ^ e : ℚ) ≤ n := by
    rw [← mul_le_mul_iff_left₀ scaleQ, ← value]
    exact_mod_cast Iff.rfl
  rw [← atLeast, ← atMost]
  simp only [between, compareInt?, Bool.and_eq_true, Bool.or_eq_true, beq_iff_eq, Option.some.injEq,
    compare_gt_iff_gt, compare_lt_iff_lt, compare_eq_iff_eq]
  omega

/-! ## Integers -/

/-- A rational that is the value of a double. -/
def IsDouble (q : ℚ) : Prop :=
  ∃ (m : Nat) (e : Int), m < 2 ^ 53 ∧ minExponent ≤ e ∧ e ≤ maxExponent ∧ |q| = m * 2 ^ e

theorem IsDouble.isMagnitude {q : ℚ} (isDouble : IsDouble q) : IsMagnitude |q| := by
  obtain ⟨m, e, bits, least, -, value⟩ := isDouble
  exact ⟨m, e, bits, least, value⟩

theorem IsDouble.lt_overflow {q : ℚ} (isDouble : IsDouble q) : |q| < overflow := by
  obtain ⟨m, e, bits, -, most, value⟩ := isDouble
  have power : (0 : ℚ) < 2 ^ e := by positivity
  have bitsQ : (m : ℚ) ≤ 2 ^ 53 - 1 := by
    have : m ≤ 2 ^ 53 - 1 := by omega
    have : (m : ℚ) ≤ (2 ^ 53 - 1 : Nat) := by exact_mod_cast this
    norm_num at this ⊢
    exact this
  rw [value, overflow_eq_brim]
  calc (m * 2 ^ e : ℚ) ≤ (2 ^ 53 - 1) * 2 ^ e := by gcongr
    _ < brim e := by rw [brim]; linarith
    _ ≤ brim maxExponent := brim_le_brim_iff.2 most

theorem isMagnitude_natCast {n : Nat} (small : n < 2 ^ 53) : IsMagnitude n :=
  ⟨n, 0, small, by decide, by simp⟩

namespace IsNearest

variable {x q : ℚ} {m : Nat} {e : Int} (is : IsNearest x m e)
include is

/-- Rounding does not fall below a magnitude. -/
theorem le_of_le (magnitude : IsMagnitude q) (le : q ≤ x) : q ≤ m * 2 ^ e := by
  have near := is.nearest q magnitude
  rw [abs_of_nonneg (sub_nonneg.2 le)] at near
  linarith [le_abs_self (x - m * 2 ^ e)]

/-- Rounding does not rise above a magnitude. -/
theorem le_of_ge (magnitude : IsMagnitude q) (le : x ≤ q) : m * 2 ^ e ≤ q := by
  have near := is.nearest q magnitude
  rw [abs_of_nonpos (sub_nonpos.2 le)] at near
  linarith [neg_abs_le (x - m * 2 ^ e)]

theorem eq_of_isMagnitude (magnitude : IsMagnitude x) : m * 2 ^ e = x :=
  le_antisymm (is.le_of_ge magnitude le_rfl) (is.le_of_le magnitude le_rfl)

end IsNearest

/-- An integer is rounded to an integer: from `2 ^ 53` on the doubles have no fraction. -/
theorem IsNearest.exists_natCast {n m : Nat} {e : Int} (is : IsNearest n m e) :
    ∃ k : Nat, (m * 2 ^ e : ℚ) = k := by
  rcases Nat.lt_or_ge n (2 ^ 53) with small | large
  · exact ⟨n, is.eq_of_isMagnitude (isMagnitude_natCast small)⟩
  · have magnitude : IsMagnitude (2 ^ 53) := ⟨2 ^ 52, 1, by decide, by decide, by norm_num⟩
    have atLeast : (2 ^ 53 : ℚ) ≤ m * 2 ^ e := is.le_of_le magnitude (by exact_mod_cast large)
    have bits : (m : ℚ) < 2 ^ 53 := by exact_mod_cast is.bits
    have natural : 0 ≤ e := by
      by_contra negative
      have : (2 : ℚ) ^ e ≤ 1 := zpow_le_one_of_nonpos₀ (by norm_num) (by omega)
      have : (m * 2 ^ e : ℚ) ≤ m := mul_le_of_le_one_right (by positivity) this
      linarith
    obtain ⟨d, rfl⟩ := Int.eq_ofNat_of_zero_le natural
    exact ⟨m * 2 ^ d, by push_cast; rfl⟩

/-- **The nearest double of an integer is an integer**, unless the integer lies beyond all doubles. -/
theorem ofInt?_cases (n : Int) :
    (overflow ≤ |(n : ℚ)| ∧ ofInt? n = none) ∨
      |(n : ℚ)| < overflow ∧ ∃ x r, ofInt? n = some x ∧ x = ofRatio (n < 0) n.natAbs 1 ∧
        x.toInt? = some r ∧ IsDouble r ∧ ∀ q, IsDouble q → |(n - r : ℚ)| ≤ |n - q| := by
  have size : ((n.natAbs : Nat) : ℚ) / (1 : Nat) = |(n : ℚ)| := by
    rw [Nat.cast_one, div_one, Nat.cast_natAbs, Int.cast_abs]
  have cases := ofRatio_cases (n < 0) n.natAbs one_pos
  rw [size] at cases
  rcases cases with ⟨beyond, infinite⟩ | ⟨inside, m, e, finite, is⟩
  · exact .inl ⟨beyond, by rw [ofInt?, infinite]⟩
  · obtain ⟨k, isWhole⟩ : ∃ k : Nat, (m * 2 ^ e : ℚ) = k := by
      apply IsNearest.exists_natCast (n := n.natAbs)
      rwa [Nat.cast_natAbs, Int.cast_abs]
    have value : (signed (n < 0) m * 2 ^ e : ℚ) = (signed (n < 0) k : Int) := by
      rw [cast_signed, cast_signed, mul_assoc, isWhole]
    have apart : |(n - (signed (n < 0) k : Int) : ℚ)| = |(|(n : ℚ)| - k)| := by
      rw [cast_signed]
      rcases lt_or_ge n 0 with negative | natural
      · have : (n : ℚ) < 0 := by exact_mod_cast negative
        rw [abs_of_neg this, ← abs_neg]
        simp [negative]
        ring_nf
      · have : (0 : ℚ) ≤ n := by exact_mod_cast natural
        rw [abs_of_nonneg this]
        simp [natural.not_gt]
    refine .inr ⟨inside, _, signed (n < 0) k, by rw [ofInt?, finite], finite.symm, toInt?_finite_iff.2 value,
      ⟨m, e, is.bits, is.least, is.most, ?_⟩, fun q isDouble => ?_⟩
    · rw [abs_cast_signed, isWhole]
    · rw [apart, ← isWhole]
      exact (is.nearest _ isDouble.isMagnitude).trans (abs_abs_sub_abs_le _ _)

/-! ## Quotients from zero to one -/

/-- **A quotient is rounded to at most one exactly if it is at most half way to the next double.** -/
theorem between_ofRatio_iff (num : Nat) {den : Nat} (den_pos : 0 < den) :
    between 0 1 (ofRatio false num den) = true ↔ (num / den : ℚ) ≤ 1 + 1 / 2 ^ 53 := by
  have one : IsMagnitude 1 := by simpa using isMagnitude_natCast (n := 1) (by decide)
  have two : IsMagnitude 2 := by simpa using isMagnitude_natCast (n := 2) (by decide)
  have finite_iff (m : Nat) (e : Int) : between 0 1 (.finite false m e) = true ↔ (m * 2 ^ e : ℚ) ≤ 1 := by
    have natural : (0 : ℚ) ≤ m * 2 ^ e := by positivity
    simp [between_finite_iff, signed, natural]
  rcases ofRatio_cases false num den_pos with ⟨beyond, infinite⟩ | ⟨inside, m, e, finite, is⟩
  · have inside : |(2 : ℚ)| < overflow :=
      IsDouble.lt_overflow ⟨2, 0, by decide, by decide, by decide, by norm_num⟩
    rw [abs_two] at inside
    rw [infinite]
    refine iff_of_false (by decide) ?_
    norm_num
    linarith
  · rcases le_or_gt (num / den : ℚ) 1 with le_one | gt_one
    · rw [finite, finite_iff]
      exact iff_of_true (is.le_of_ge one le_one) (by linarith)
    · rcases lt_or_ge (num / den : ℚ) 2 with lt_two | ge_two
      · -- Between one and two the doubles are the multiples of `2 ^ -52`.
        have num_pos : 0 < num := Nat.pos_of_ne_zero fun zero => by norm_num [zero] at gt_one
        have isUnit : exponentOf num den = -52 := (isExponent_exponentOf num_pos den_pos).unique
          ⟨by decide, by norm_num; exact lt_two, .inr (by norm_num; exact gt_one.le)⟩
        obtain ⟨m', e', packed, -, -, value, large⟩ := exists_ofRatio_eq_pack den_pos num_pos false
        have small : (mantissaOf num den : ℚ) * 2 ^ (-52 : Int) ≤ 1 ↔ mantissaOf num den ≤ 2 ^ 52 := by
          rw [zpow_neg, mul_inv_le_iff₀ (by positivity), one_mul]
          exact_mod_cast Iff.rfl
        rw [packed, pack, if_neg (mt large.1 (not_le.2 inside)), finite_iff, value, isUnit, small,
          mantissaOf_le_iff num den_pos, isUnit, le_iff_lt_or_eq]
        norm_num
      · have atLeast := is.le_of_le two ge_two
        rw [finite, finite_iff]
        refine iff_of_false (by linarith) ?_
        norm_num
        linarith

/-- **A part of a whole is rounded to decimal places between zero and one.** -/
theorem between_roundPlaces (places : Nat) {num den : Nat} (den_pos : 0 < den) (part : num ≤ den) :
    between 0 1 ((ofRatio false num den).roundPlaces places) = true := by
  have partQ : (num / den : ℚ) ≤ 1 := div_le_one_of_le₀ (by exact_mod_cast part) (by positivity)
  have inside := (between_ofRatio_iff num den_pos).2 (by linarith)
  rcases ofRatio_cases false num den_pos with ⟨-, infinite⟩ | ⟨-, m, e, finite, -⟩
  · rw [infinite] at inside
    cases inside
  · rw [finite] at inside ⊢
    have atMost : (m * 2 ^ e : ℚ) ≤ 1 := by simpa [signed] using (between_finite_iff.1 inside).2
    have scaled : m * twoTo e ≤ twoTo (-e) := by
      have : (m * twoTo e : ℚ) ≤ twoTo (-e) := by
        calc (m * twoTo e : ℚ) = m * 2 ^ e * twoTo (-e) := by rw [twoTo_eq e]; ring
          _ ≤ twoTo (-e) := mul_le_of_le_one_left (by positivity) atMost
      exact_mod_cast this
    have rounded : roundDiv (m * twoTo e * tenTo places) (twoTo (-e)) ≤ tenTo places := by
      have := Nat.mul_le_mul_right (tenTo places) scaled
      have := twoTo_pos (-e)
      exact (roundDiv_le_iff _ (twoTo_pos _) _).2 (.inl (by linarith))
    rw [roundPlaces, ofDecimal_eq_ofRatio, tenTo_neg, neg_neg, Nat.mul_one,
      between_ofRatio_iff _ (tenTo_pos _)]
    have : (roundDiv (m * twoTo e * tenTo places) (twoTo (-e)) / tenTo places : ℚ) ≤ 1 :=
      div_le_one_of_le₀ (by exact_mod_cast rounded) (by positivity)
    linarith

end Binary64

end DesignTokens
