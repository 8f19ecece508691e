/-
# DesignTokens.Proofs.Number.Rounding -- a quotient becomes the nearest double

`ofRatio` guesses the exponent from the lengths of two integers, rounds the quotient to an integer
mantissa there, and mends a mantissa of one bit too many.  What comes of that is said here over the
rationals.  The exponent is the one that gives the mantissa 53 bits, or the least one
(`isExponent_exponentOf`).  The multiples of its power of two hold every value of 53 bits that is not
smaller than all such mantissas, so the nearest multiple is the nearest of all those values
(`IsExponent.nearest`).

So a quotient is rounded to the nearest finite value, or from `overflow` on to an infinity
(`ofRatio_cases`).  A decimal is the quotient that it stands for: the powers of ten that are too large
or too small to be computed make no difference (`ofDecimal_eq_ofRatio`).
-/
import DesignTokens.Number.Binary64
import Mathlib.Algebra.Order.Field.Power
import Mathlib.Algebra.Order.Ring.Abs
import Mathlib.Tactic.FieldSimp
import Mathlib.Tactic.Linarith
import Mathlib.Tactic.NormNum
import Mathlib.Tactic.Positivity
import Mathlib.Tactic.Ring

namespace DesignTokens

set_option autoImplicit false

namespace Binary64

/-! ## Quotients as integers -/

/-- A quotient is rounded down just when it is at most half way, or half way above an even number. -/
theorem roundDiv_le_iff (num : Nat) {den : Nat} (pos : 0 < den) (k : Nat) :
    roundDiv num den ≤ k ↔
      2 * num < (2 * k + 1) * den ∨ 2 * num = (2 * k + 1) * den ∧ k % 2 = 0 := by
  have parts := Nat.div_add_mod num den
  have small := Nat.mod_lt num pos
  have bound : (2 * k + 1) * den = 2 * (den * k) + den := by ring
  rw [roundDiv, bound]
  generalize num % den = r at *
  generalize num / den = q at *
  rcases Nat.lt_trichotomy q k with below | rfl | above
  · have step : den * q + den ≤ den * k := by
      rw [← Nat.mul_succ]
      exact Nat.mul_le_mul_left den below
    refine iff_of_true ?_ (.inl (by omega))
    split_ifs
    all_goals omega
  · split_ifs
    all_goals omega
  · have step : den * k + den ≤ den * q := by
      rw [← Nat.mul_succ]
      exact Nat.mul_le_mul_left den above
    refine iff_of_false ?_ (by omega)
    split_ifs
    all_goals omega

theorem abs_div_sub_roundDiv_le (num : Nat) {den : Nat} (pos : 0 < den) :
    |(num / den : ℚ) - roundDiv num den| ≤ 1 / 2 := by
  have posQ : (0 : ℚ) < den := by exact_mod_cast pos
  have above := (roundDiv_le_iff num pos (roundDiv num den)).1 le_rfl
  have upper : 2 * num ≤ (2 * roundDiv num den + 1) * den := by omega
  have upperQ : (2 * num : ℚ) ≤ (2 * roundDiv num den + 1) * den := by exact_mod_cast upper
  have lowerQ : (2 * roundDiv num den - 1 : ℚ) * den ≤ 2 * num := by
    rcases Nat.eq_zero_or_pos (roundDiv num den) with zero | some_
    · rw [zero]
      push_cast
      nlinarith [(Nat.cast_nonneg num : (0 : ℚ) ≤ num)]
    · obtain ⟨k, isSucc⟩ := Nat.exists_eq_add_of_lt some_
      have notBelow := mt (roundDiv_le_iff num pos k).2 (by omega)
      have lower : (2 * k + 1) * den ≤ 2 * num := by omega
      have lowerQ : ((2 * k + 1) * den : ℚ) ≤ 2 * num := by exact_mod_cast lower
      rw [isSucc]
      push_cast
      linarith
  rw [abs_le]
  constructor
  · rw [le_sub_iff_add_le, le_div_iff₀ posQ]
    linarith
  · rw [sub_le_iff_le_add, div_le_iff₀ posQ]
    linarith

/-- What is within a half of a number has no nearer one. -/
theorem abs_sub_le_of_half {x : ℚ} {n : Nat} (close : |x - n| ≤ 1 / 2) (k : Nat) :
    |x - n| ≤ |x - k| := by
  by_cases same : n = k
  · rw [same]
  · have apart : (1 : ℚ) ≤ |(n : ℚ) - k| := by
      have : (1 : Int) ≤ |(n : Int) - k| := Int.one_le_abs (by omega)
      exact_mod_cast this
    have triangle := abs_sub_le (n : ℚ) x k
    rw [abs_sub_comm (n : ℚ) x] at triangle
    linarith

/-! ## Powers of two -/

theorem twoTo_pos (e : Int) : 0 < twoTo e :=
  Nat.pow_pos (by decide)

/-- The powers that stand on the two sides of a comparison make one power between them. -/
theorem twoTo_eq (e : Int) : (twoTo e : ℚ) = twoTo (-e) * 2 ^ e := by
  rcases Int.eq_nat_or_neg e with ⟨n, rfl | rfl⟩
  · simp [twoTo]
  · simp [twoTo]

/-- A quotient as `ofRatio` scales it by a power of two. -/
theorem scaled_div (num den : Nat) (e : Int) :
    ((num * twoTo (-e) : Nat) / (den * twoTo e : Nat) : ℚ) = num / den / 2 ^ e := by
  have pos : (twoTo (-e) : ℚ) ≠ 0 := by exact_mod_cast (twoTo_pos (-e)).ne'
  rw [Nat.cast_mul, Nat.cast_mul, twoTo_eq e]
  field_simp

theorem zpow_log2_le {n : Nat} (some_ : n ≠ 0) : (2 : ℚ) ^ (n.log2 : Int) ≤ n := by
  rw [zpow_natCast]
  exact_mod_cast Nat.log2_self_le some_

theorem lt_zpow_log2 (n : Nat) : (n : ℚ) < 2 ^ (n.log2 + 1 : Int) := by
  have below : (n : ℚ) < 2 ^ (n.log2 + 1) := by exact_mod_cast Nat.lt_log2_self
  exact_mod_cast below

theorem scaled_lt_iff {num den : Nat} (den_pos : 0 < den) (e : Int) :
    num * twoTo (-e) < den * twoTo e * twoTo 52 ↔ (num / den : ℚ) < 2 ^ (52 + e) := by
  have denQ : (0 : ℚ) < den := by exact_mod_cast den_pos
  have scaleQ : (0 : ℚ) < twoTo (-e) := by exact_mod_cast twoTo_pos (-e)
  have power : (den * twoTo e * twoTo 52 : ℚ) = den * 2 ^ (52 + e) * twoTo (-e) := by
    rw [twoTo_eq e, zpow_add₀ two_ne_zero, show twoTo 52 = 2 ^ 52 from rfl]
    push_cast
    ring
  rw [div_lt_iff₀' denQ, ← mul_lt_mul_iff_left₀ scaleQ, ← power]
  exact_mod_cast Iff.rfl

/-! ## Exponents -/

/-- The exponent for a positive rational: the mantissa is below `2 ^ 53`, and has 53 bits unless the
exponent is the least one. -/
structure IsExponent (x : ℚ) (e : Int) : Prop where
  least : minExponent ≤ e
  below : x < 2 ^ (53 + e)
  above : e = minExponent ∨ 2 ^ (52 + e) ≤ x

theorem isExponent_exponentOf {num den : Nat} (num_pos : 0 < num) (den_pos : 0 < den) :
    IsExponent (num / den) (exponentOf num den) := by
  have denQ : (0 : ℚ) < den := by exact_mod_cast den_pos
  have numLow := zpow_log2_le num_pos.ne'
  have numHigh := lt_zpow_log2 num
  have denLow := zpow_log2_le den_pos.ne'
  have denHigh := lt_zpow_log2 den
  have two : (2 : ℚ) ≠ 0 := two_ne_zero
  -- The guess from the two lengths is right, or one too high.
  have low : (2 : ℚ) ^ (num.log2 - den.log2 - 1 : Int) ≤ num / den := by
    rw [le_div_iff₀ denQ]
    calc (2 : ℚ) ^ (num.log2 - den.log2 - 1 : Int) * den
        ≤ 2 ^ (num.log2 - den.log2 - 1 : Int) * 2 ^ (den.log2 + 1 : Int) := by gcongr
      _ = 2 ^ (num.log2 : Int) := by rw [← zpow_add₀ two]; congr 1; ring
      _ ≤ num := numLow
  have high : (num / den : ℚ) < 2 ^ (num.log2 - den.log2 + 1 : Int) := by
    rw [div_lt_iff₀ denQ]
    calc (num : ℚ) < 2 ^ (num.log2 + 1 : Int) := numHigh
      _ = 2 ^ (num.log2 - den.log2 + 1 : Int) * 2 ^ (den.log2 : Int) := by
          rw [← zpow_add₀ two]; congr 1; ring
      _ ≤ 2 ^ (num.log2 - den.log2 + 1 : Int) * den := by gcongr
  unfold exponentOf
  simp only [scaled_lt_iff den_pos]
  split_ifs with small
  all_goals refine ⟨le_max_left _ _, ?_, ?_⟩
  · calc (num / den : ℚ) < 2 ^ (52 + (num.log2 - den.log2 - 52) : Int) := small
      _ ≤ _ := zpow_le_zpow_right₀ (by norm_num) (by omega)
  · rcases max_cases minExponent (num.log2 - den.log2 - 52 - 1 : Int) with ⟨least, -⟩ | ⟨more, -⟩
    · exact .inl least
    · rw [more]
      exact .inr (low.trans' (zpow_le_zpow_right₀ (by norm_num) (by omega)))
  · exact high.trans_le (zpow_le_zpow_right₀ (by norm_num) (by omega))
  · rcases max_cases minExponent (num.log2 - den.log2 - 52 : Int) with ⟨least, -⟩ | ⟨more, -⟩
    · exact .inl least
    · rw [more]
      exact .inr (not_lt.1 small)

/-- A finite quotient has one exponent. -/
theorem IsExponent.unique {x : ℚ} {e e' : Int} (is : IsExponent x e) (is' : IsExponent x e') : e = e' := by
  have le {e e' : Int} (is : IsExponent x e) (is' : IsExponent x e') : e ≤ e' := by
    rcases is.above with least | above
    · exact least ▸ is'.least
    · have := (zpow_lt_zpow_iff_right₀ (by norm_num : (1 : ℚ) < 2)).1 (above.trans_lt is'.below)
      omega
  exact le_antisymm (le is is') (le is' is)

/-! ## Magnitudes -/

/-- A rational that a mantissa of 53 bits and an exponent make, however large. -/
def IsMagnitude (q : ℚ) : Prop :=
  ∃ (m : Nat) (e : Int), m < 2 ^ 53 ∧ minExponent ≤ e ∧ q = m * 2 ^ e

theorem abs_sub_mul_zpow (x k : ℚ) (e : Int) : |x - k * 2 ^ e| = |x / 2 ^ e - k| * 2 ^ e := by
  have pos : (0 : ℚ) < 2 ^ e := by positivity
  rw [← abs_of_pos pos, ← abs_mul, abs_of_pos pos, sub_mul, div_mul_cancel₀ _ pos.ne']

/-- **The nearest multiple of the power of two is the nearest magnitude.**  Magnitudes off that grid lie
below the least mantissa of 53 bits, which is on it. -/
theorem IsExponent.nearest {x : ℚ} {e : Int} (is : IsExponent x e) {m : Nat}
    (close : |x / 2 ^ e - m| ≤ 1 / 2) {q : ℚ} (magnitude : IsMagnitude q) :
    |x - m * 2 ^ e| ≤ |x - q| := by
  have onGrid (k : Nat) : |x - m * 2 ^ e| ≤ |x - k * 2 ^ e| := by
    rw [abs_sub_mul_zpow, abs_sub_mul_zpow]
    exact mul_le_mul_of_nonneg_right (abs_sub_le_of_half close k) (by positivity)
  obtain ⟨m', e', small, least, rfl⟩ := magnitude
  rcases le_or_gt e e' with coarse | fine
  · obtain ⟨d, rfl⟩ := Int.exists_add_of_le coarse
    have same : (m' * 2 ^ (e + d) : ℚ) = (m' * 2 ^ d : Nat) * 2 ^ e := by
      rw [zpow_add₀ two_ne_zero, zpow_natCast]
      push_cast
      ring
    rw [same]
    exact onGrid _
  · have normal : (2 : ℚ) ^ (52 + e) ≤ x := is.above.resolve_left (by omega)
    have under : (m' * 2 ^ e' : ℚ) ≤ 2 ^ (52 + e) := by
      calc (m' * 2 ^ e' : ℚ) ≤ 2 ^ (53 : Int) * 2 ^ e' := by
            gcongr
            exact_mod_cast small.le
        _ = 2 ^ (53 + e') := by rw [zpow_add₀ two_ne_zero]
        _ ≤ 2 ^ (52 + e) := zpow_le_zpow_right₀ (by norm_num) (by omega)
    have least : ((2 ^ 52 : Nat) * 2 ^ e : ℚ) = 2 ^ (52 + e) := by
      rw [zpow_add₀ two_ne_zero]
      norm_num
    calc |x - m * 2 ^ e| ≤ |x - (2 ^ 52 : Nat) * 2 ^ e| := onGrid _
      _ = x - 2 ^ (52 + e) := by rw [least, abs_of_nonneg (by linarith)]
      _ ≤ x - m' * 2 ^ e' := by linarith
      _ ≤ |x - m' * 2 ^ e'| := le_abs_self _

/-! ## Rounding -/

/-- Half a unit below the mantissa of one bit too many, from where on a quotient is rounded to it. -/
def brim (e : Int) : ℚ :=
  (2 ^ 53 - 1 / 2) * 2 ^ e

theorem brim_le_brim_iff {e e' : Int} : brim e ≤ brim e' ↔ e ≤ e' := by
  rw [brim, brim, mul_le_mul_iff_right₀ (by norm_num),
    zpow_le_zpow_iff_right₀ (by norm_num : (1 : ℚ) < 2)]

theorem brim_le (e : Int) : brim e ≤ 2 ^ (53 + e) := by
  rw [brim, zpow_add₀ two_ne_zero]
  gcongr
  norm_num

theorem le_brim (e : Int) : (2 : ℚ) ^ (53 + e) ≤ brim (e + 1) := by
  rw [brim, zpow_add₀ two_ne_zero, zpow_add₀ two_ne_zero]
  have pos : (0 : ℚ) < 2 ^ e := by positivity
  norm_num
  linarith

/-- Quotients from here on are rounded to more than the largest finite value. -/
def overflow : ℚ :=
  2 ^ 1024 - 2 ^ 970

theorem overflow_eq_brim : overflow = brim maxExponent := by
  have high : (2 : ℚ) ^ 1024 = 2 ^ 54 * 2 ^ 970 := by rw [← pow_add]
  have unit : (2 : ℚ) ^ maxExponent = 2 * 2 ^ 970 := by
    rw [maxExponent, ← pow_succ']
    exact zpow_natCast 2 971
  rw [overflow, brim, high, unit]
  generalize (2 : ℚ) ^ 970 = p
  ring

/-- The mantissa at the exponent of a quotient, before it is brought into form. -/
def mantissaOf (num den : Nat) : Nat :=
  roundDiv (num * twoTo (-exponentOf num den)) (den * twoTo (exponentOf num den))

theorem ofRatio_of_pos (negative : Bool) {num den : Nat} (num_pos : 0 < num) :
    ofRatio negative num den =
      if mantissaOf num den = 2 ^ 53 then pack negative (2 ^ 52) (exponentOf num den + 1)
      else pack negative (mantissaOf num den) (exponentOf num den) := by
  rw [ofRatio, if_neg num_pos.ne']
  rfl

section Quotient

variable (num : Nat) {den : Nat} (den_pos : 0 < den)
include den_pos

theorem abs_sub_mantissaOf_le :
    |(num / den / 2 ^ exponentOf num den : ℚ) - mantissaOf num den| ≤ 1 / 2 := by
  rw [← scaled_div]
  exact abs_div_sub_roundDiv_le _ (Nat.mul_pos den_pos (twoTo_pos _))

theorem mantissaOf_le_iff (k : Nat) :
    mantissaOf num den ≤ k ↔
      (num / den : ℚ) < (k + 1 / 2) * 2 ^ exponentOf num den ∨
        (num / den : ℚ) = (k + 1 / 2) * 2 ^ exponentOf num den ∧ k % 2 = 0 := by
  have scaled_pos : 0 < den * twoTo (exponentOf num den) := Nat.mul_pos den_pos (twoTo_pos _)
  have scaledQ : (0 : ℚ) < (den * twoTo (exponentOf num den) : Nat) := by exact_mod_cast scaled_pos
  have power : (0 : ℚ) < 2 ^ exponentOf num den := by positivity
  rw [← div_lt_iff₀ power, ← div_eq_iff power.ne', ← scaled_div, div_lt_iff₀ scaledQ,
    div_eq_iff scaledQ.ne', mantissaOf, roundDiv_le_iff _ scaled_pos, ← @Nat.cast_lt ℚ, ← @Nat.cast_inj ℚ]
  push_cast
  constructor
  · rintro (less | ⟨same, even⟩)
    · exact .inl (by linarith)
    · exact .inr ⟨by linarith, even⟩
  · rintro (less | ⟨same, even⟩)
    · exact .inl (by linarith)
    · exact .inr ⟨by linarith, even⟩

variable {num} (num_pos : 0 < num)
include num_pos

theorem mantissaOf_le : mantissaOf num den ≤ 2 ^ 53 := by
  have is := isExponent_exponentOf num_pos den_pos
  have close := (abs_le.1 (abs_sub_mantissaOf_le num den_pos)).1
  have below : (num / den / 2 ^ exponentOf num den : ℚ) < 2 ^ 53 := by
    rw [div_lt_iff₀ (by positivity)]
    calc (num / den : ℚ) < 2 ^ (53 + exponentOf num den) := is.below
      _ = 2 ^ 53 * 2 ^ exponentOf num den := by rw [zpow_add₀ two_ne_zero]; norm_num
  have : (mantissaOf num den : ℚ) < (2 ^ 53 + 1 : Nat) := by
    push_cast
    linarith
  have := Nat.cast_lt.1 this
  omega

/-- The mantissa gets one bit too many from half a unit below that on. -/
theorem mantissaOf_eq_iff : mantissaOf num den = 2 ^ 53 ↔ brim (exponentOf num den) ≤ num / den := by
  have bound := mantissaOf_le den_pos num_pos
  have below := mantissaOf_le_iff num den_pos (2 ^ 53 - 1)
  have odd : (2 ^ 53 - 1) % 2 = 1 := by decide
  have half : (((2 ^ 53 - 1 : Nat) : ℚ) + 1 / 2) = 2 ^ 53 - 1 / 2 := by norm_num
  simp only [half, odd, one_ne_zero, and_false, or_false] at below
  rw [← not_lt, brim, ← below]
  omega

/-- A rounded quotient is the mantissa at the exponent, with one bit less if it has one too many. -/
theorem exists_ofRatio_eq_pack (negative : Bool) :
    ∃ m e, ofRatio negative num den = pack negative m e ∧ m < 2 ^ 53 ∧ minExponent ≤ e ∧
      (m * 2 ^ e : ℚ) = mantissaOf num den * 2 ^ exponentOf num den ∧
      (maxExponent < e ↔ overflow ≤ num / den) := by
  have is := isExponent_exponentOf num_pos den_pos
  have bound := mantissaOf_le den_pos num_pos
  have carries := mantissaOf_eq_iff den_pos num_pos
  rw [ofRatio_of_pos negative num_pos, overflow_eq_brim]
  generalize exponentOf num den = e at *
  split_ifs with carry
  · refine ⟨_, _, rfl, by decide, is.least.trans (by omega), ?_, ?_, fun beyond => ?_⟩
    · rw [carry, zpow_add₀ two_ne_zero]
      push_cast
      ring
    · intro large
      exact (brim_le_brim_iff.2 (by omega)).trans (carries.1 carry)
    · have := brim_le_brim_iff.not.1 (not_le.2 ((beyond.trans_lt is.below).trans_le (le_brim e)))
      omega
  · refine ⟨_, _, rfl, by omega, is.least, rfl, fun large => ?_, fun beyond => ?_⟩
    · have normal := is.above.resolve_left (by rw [maxExponent] at large; rw [minExponent]; omega)
      calc brim maxExponent ≤ brim (e - 1) := brim_le_brim_iff.2 (by omega)
        _ ≤ 2 ^ (53 + (e - 1)) := brim_le _
        _ = 2 ^ (52 + e) := by congr 1; ring
        _ ≤ num / den := normal
    · exact not_le.1 (brim_le_brim_iff.not.1 (not_le.2 (beyond.trans_lt (not_le.1 (mt carries.2 carry)))))

end Quotient

/-- A finite value that is as near to a rational as any magnitude. -/
structure IsNearest (x : ℚ) (m : Nat) (e : Int) : Prop where
  bits : m < 2 ^ 53
  least : minExponent ≤ e
  most : e ≤ maxExponent
  nearest : ∀ q, IsMagnitude q → |x - m * 2 ^ e| ≤ |x - q|

/-- **A quotient is rounded to the nearest finite value, and from `overflow` on to an infinity.** -/
theorem ofRatio_cases (negative : Bool) (num : Nat) {den : Nat} (den_pos : 0 < den) :
    (overflow ≤ num / den ∧ ofRatio negative num den = .infinite negative) ∨
      (num / den : ℚ) < overflow ∧
        ∃ m e, ofRatio negative num den = .finite negative m e ∧ IsNearest (num / den) m e := by
  rcases Nat.eq_zero_or_pos num with rfl | num_pos
  · refine .inr ⟨?_, 0, minExponent, rfl, by decide, le_rfl, by decide, fun q _ => by simp⟩
    rw [overflow_eq_brim, brim]
    have : (0 : ℚ) < 2 ^ maxExponent := by positivity
    norm_num
    linarith
  · obtain ⟨m, e, packed, bits, least, value, large⟩ := exists_ofRatio_eq_pack den_pos num_pos negative
    rw [packed, pack]
    split_ifs with beyond
    · exact .inl ⟨large.1 beyond, rfl⟩
    · refine .inr ⟨not_le.1 (mt large.2 beyond), m, e, rfl, bits, least, not_lt.1 beyond, fun q magnitude => ?_⟩
      rw [value]
      exact (isExponent_exponentOf num_pos den_pos).nearest (abs_sub_mantissaOf_le num den_pos) magnitude

/-! ## Decimals -/

/-- A quotient below a quarter of the least positive value is rounded to zero. -/
theorem ofRatio_eq_zero (negative : Bool) {num den : Nat} (num_pos : 0 < num) (den_pos : 0 < den)
    (tiny : (num / den : ℚ) < 2 ^ (minExponent - 2)) : ofRatio negative num den = zero negative := by
  have is := isExponent_exponentOf num_pos den_pos
  have isLeast : exponentOf num den = minExponent := by
    refine is.above.resolve_right fun normal => ?_
    have := (zpow_lt_zpow_iff_right₀ (by norm_num : (1 : ℚ) < 2)).1 (normal.trans_lt tiny)
    have := is.least
    omega
  have close := (abs_le.1 (abs_sub_mantissaOf_le num den_pos)).1
  have small : (num / den / 2 ^ exponentOf num den : ℚ) < 1 / 4 := by
    rw [isLeast, div_lt_iff₀ (by positivity)]
    rw [zpow_sub₀ two_ne_zero] at tiny
    norm_num at tiny ⊢
    linarith
  have isZero : mantissaOf num den = 0 := by
    have : (mantissaOf num den : ℚ) < (1 : Nat) := by
      push_cast
      linarith
    exact Nat.lt_one_iff.1 (Nat.cast_lt.1 this)
  rw [ofRatio_of_pos negative num_pos, isZero, isLeast]
  rfl

theorem tenTo_pos (e : Int) : 0 < tenTo e :=
  Nat.pow_pos (by decide)

theorem tenTo_neg (n : Nat) : tenTo (-(n : Int)) = 1 := by
  simp [tenTo]

theorem zpow_le_tenTo {e : Int} {n : Nat} (le : e ≤ 3 * n) : (2 : ℚ) ^ e ≤ tenTo n := by
  calc (2 : ℚ) ^ e ≤ 2 ^ (3 * n : Int) := zpow_le_zpow_right₀ (by norm_num) le
    _ = 8 ^ n := by
        rw [zpow_mul, zpow_natCast]
        norm_num
    _ ≤ 10 ^ n := by gcongr; norm_num
    _ = tenTo n := by simp [tenTo]

/-- **The powers of ten that are not computed make no difference.** -/
theorem ofDecimal_eq_ofRatio (negative : Bool) (digits : Nat) (exp : Int) :
    ofDecimal negative digits exp = ofRatio negative (digits * tenTo exp) (tenTo (-exp)) := by
  rw [ofDecimal]
  split_ifs with none_ large small
  · rw [none_, Nat.zero_mul, ofRatio, if_pos rfl]
  · obtain ⟨n, rfl⟩ := Int.eq_ofNat_of_zero_le (by omega : 0 ≤ exp)
    have beyond : overflow ≤ ((digits * tenTo n : Nat) : ℚ) / (1 : Nat) := by
      have some_ : (1 : ℚ) ≤ digits := by exact_mod_cast Nat.pos_of_ne_zero none_
      rw [Nat.cast_one, div_one, overflow_eq_brim, Nat.cast_mul]
      calc brim maxExponent ≤ 2 ^ (53 + maxExponent) := brim_le _
        _ ≤ tenTo n := zpow_le_tenTo (by rw [maxExponent]; omega)
        _ ≤ digits * tenTo n := le_mul_of_one_le_left (by positivity) some_
    rw [tenTo_neg]
    rcases ofRatio_cases negative (digits * tenTo n) one_pos with ⟨-, infinite⟩ | ⟨inside, -⟩
    · rw [infinite]
    · exact absurd inside (not_lt.2 beyond)
  · obtain ⟨n, rfl⟩ : ∃ n : Nat, exp = -n := ⟨exp.natAbs, by omega⟩
    have tenQ : (0 : ℚ) < tenTo n := by exact_mod_cast tenTo_pos n
    symm
    apply ofRatio_eq_zero negative (Nat.mul_pos (Nat.pos_of_ne_zero none_) (tenTo_pos _)) (tenTo_pos _)
    rw [tenTo_neg, mul_one, neg_neg, div_lt_iff₀ tenQ]
    calc (digits : ℚ) < 2 ^ (digits.log2 + 1 : Int) := lt_zpow_log2 digits
      _ = 2 ^ (minExponent - 2) * 2 ^ (digits.log2 + 1 - (minExponent - 2)) := by
          rw [← zpow_add₀ two_ne_zero, add_sub_cancel]
      _ ≤ 2 ^ (minExponent - 2) * tenTo n := by
          refine mul_le_mul_of_nonneg_left (zpow_le_tenTo ?_) (by positivity)
          rw [minExponent]
          omega
  · rfl

end Binary64

end DesignTokens
