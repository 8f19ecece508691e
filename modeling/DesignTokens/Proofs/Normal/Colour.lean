/-
# DesignTokens.Proofs.Normal.Colour -- what colour texts are read as, and those that hold no number

A colour is accepted by its form and then read by its numbers, and the form is looser than the
numbers in two places.  A line feed may end a hex colour, and counts among the characters that three
digits are told by; and the alpha of a colour function may be any run of digits and points.  These
two are the only texts whose reading is a fault (`ofHex?_eq_error_iff`, `ofFunction?_eq_error_iff`,
`Unreadable`).  Every other text is read, or is found to be no colour.  What is read has a byte for each
channel, and an alpha that is a byte too, or else the number that was spelled (`exists_object_of_ofHex?`,
`exists_object_of_ofFunction?`).

Whatever holds such a colour starts as a colour does, so its type is never in doubt
(`infer?_of_unreadable`).
-/
import DesignTokens.Inference
import DesignTokens.Normal.Colour
import DesignTokens.Proofs.Normal.Types
import DesignTokens.Proofs.Spelling
import Mathlib.Algebra.Group.Nat.Defs

namespace DesignTokens

set_option autoImplicit false

open Text

/-! ## Numbers -/

namespace Numeral

theorem isHex_iff (c : Char) :
    isHex c = true ↔
      48 ≤ c.toNat ∧ c.toNat ≤ 57 ∨ 97 ≤ c.toNat ∧ c.toNat ≤ 102 ∨ 65 ≤ c.toNat ∧ c.toNat ≤ 70 := by
  have le_iff (a b : Char) : a ≤ b ↔ a.toNat ≤ b.toNat := Iff.rfl
  rw [isHex, hexValue?]
  simp only [le_iff, Char.reduceToNat]
  split_ifs with decimal small capital <;> simp_all

theorem not_isBlank_of_isHex {c : Char} (hex : isHex c = true) : isBlank c = false := by
  rw [isHex_iff] at hex
  rw [isBlank, ← Bool.not_eq_true, CodeRanges.contains_iff]
  simp only [blanks, List.mem_cons, List.not_mem_nil, or_false, exists_eq_or_imp, exists_eq_left]
  omega

/-- Hexadecimal digits are a number, with blanks behind them too. -/
theorem exists_readHex? {digits tail : List Char} (nonempty : digits ≠ [])
    (hex : ∀ c ∈ digits, isHex c = true) (blank : ∀ c ∈ tail, isBlank c = true) :
    ∃ n, readHex? (digits ++ tail) = some n := by
  have values (digits : List Char) (hex : ∀ c ∈ digits, isHex c = true) (n : Nat) :
      ∃ m, digits.foldl (fun n? c => do return 16 * (← n?) + (← hexValue? c)) (some n) = some m := by
    induction digits generalizing n with
    | nil => exact ⟨n, rfl⟩
    | cons c digits ih =>
        obtain ⟨value, isValue⟩ := Option.isSome_iff_exists.1 (hex c List.mem_cons_self)
        rw [List.foldl_cons, isValue]
        exact ih (fun d mem => hex d (List.mem_cons_of_mem c mem)) _
  rw [readHex?, trim_append_of_blank nonempty (fun c mem => not_isBlank_of_isHex (hex c mem)) blank]
  cases digits with
  | nil => exact absurd rfl nonempty
  | cons c digits => exact values (c :: digits) hex 0

/-- A hexadecimal number has no more digits than the text has characters. -/
theorem readHex?_lt {s : List Char} {n : Nat} (reads : readHex? s = some n) : n < 16 ^ s.length := by
  have bound (digits : List Char) (m : Nat) (value :
      digits.foldl (fun n? c => do return 16 * (← n?) + (← hexValue? c)) (some m) = some n) :
      n < (m + 1) * 16 ^ digits.length := by
    induction digits generalizing m with
    | nil =>
        cases value
        simp
    | cons c digits ih =>
        rw [List.foldl_cons] at value
        cases digit : hexValue? c with
        | none =>
            rw [digit] at value
            exact absurd (value.symm.trans (List.foldl_fixed' (fun _ => rfl) digits)) (by simp)
        | some d =>
            rw [digit] at value
            have small := hexValue?_lt digit
            calc n < (16 * m + d + 1) * 16 ^ digits.length := ih _ value
              _ ≤ ((m + 1) * 16) * 16 ^ digits.length := Nat.mul_le_mul_right _ (by omega)
              _ = (m + 1) * 16 ^ (c :: digits).length := by
                rw [List.length_cons, Nat.pow_succ', Nat.mul_assoc]
  have trims : (trim s).length ≤ s.length := by
    rw [trim, List.length_reverse]
    exact (length_dropBlanks_le _).trans (by rw [List.length_reverse]; exact length_dropBlanks_le s)
  unfold readHex? at reads
  split at reads
  · cases reads
  · calc n < (0 + 1) * 16 ^ (trim s).length := bound _ 0 reads
      _ ≤ 16 ^ s.length := by rw [Nat.zero_add, Nat.one_mul]; exact Nat.pow_le_pow_right (by decide) trims

/-- A decimal: at least one digit, and at most one point. -/
def IsDecimal (s : List Char) : Prop :=
  s.count '.' ≤ 1 ∧ ∃ c ∈ s, isDigit c = true

instance (s : List Char) : Decidable (IsDecimal s) :=
  inferInstanceAs (Decidable (_ ∧ _))

theorem splitMinus_of_isDigit {s : List Char} (noMinus : '-' ∉ s) : splitMinus s = (false, s) := by
  unfold splitMinus
  split
  · exact absurd List.mem_cons_self noMinus
  · rfl

section Digits

variable {digits : List Char} (allDigits : ∀ c ∈ digits, isDigit c = true)
include allDigits

theorem not_mem_digits {c : Char} (noDigit : isDigit c = false) : c ∉ digits := by
  intro mem
  rw [allDigits c mem] at noDigit
  cases noDigit

theorem readDecimal?_digits : readDecimal? digits = none ↔ digits = [] := by
  have whole : digits.takeWhile isDigit = digits := List.takeWhile_eq_self_iff.2 allDigits
  have nothing : digits.dropWhile isDigit = [] := List.dropWhile_eq_nil_iff.2 allDigits
  rw [readDecimal?, splitMinus_of_isDigit (not_mem_digits allDigits (by decide))]
  dsimp only
  rw [whole, nothing]
  simp

theorem readDecimal?_point {fraction : List Char} (noMinus : '-' ∉ fraction) :
    readDecimal? (digits ++ '.' :: fraction) = none ↔
      digits ++ fraction = [] ∨ ∃ c ∈ fraction, isDigit c = false := by
  have notDigit : isDigit '.' = false := by decide
  obtain ⟨whole, rest⟩ := span_append allDigits ('.' :: fraction) (by simpa using notDigit)
  have unsigned : '-' ∉ digits ++ '.' :: fraction := by
    have := not_mem_digits allDigits (c := '-') (by decide)
    simp [this, noMinus]
  rw [readDecimal?, splitMinus_of_isDigit unsigned]
  dsimp only
  rw [whole, rest]
  simp [or_iff_not_imp_left]

/-- A digit among digits with a point somewhere is a digit before the point or behind it. -/
theorem exists_digit_iff {fraction : List Char} (fractionDigits : ∀ c ∈ fraction, isDigit c = true) :
    (∃ c ∈ digits ++ '.' :: fraction, isDigit c = true) ↔ digits ++ fraction ≠ [] := by
  have notDigit : isDigit '.' = false := by decide
  cases digits with
  | cons c digits => simp [allDigits c List.mem_cons_self]
  | nil =>
      cases fraction with
      | cons c fraction => simp [fractionDigits c List.mem_cons_self]
      | nil => simp [notDigit]

end Digits

/-- Digits and points are digits alone, or digits with a first point behind them. -/
theorem digits_or_point {s : List Char} (spelled : ∀ c ∈ s, Spelling.isAlphaChar c = true) :
    (∀ c ∈ s, isDigit c = true) ∨
      ∃ digits fraction, s = digits ++ '.' :: fraction ∧ ∀ c ∈ digits, isDigit c = true := by
  induction s with
  | nil => exact .inl nofun
  | cons c s ih =>
      have first : isDigit c = true ∨ c = '.' := by
        simpa [Spelling.isAlphaChar] using spelled c List.mem_cons_self
      rcases first with digit | rfl
      · rcases ih fun d mem => spelled d (List.mem_cons_of_mem c mem) with
          allDigits | ⟨digits, fraction, rfl, allDigits⟩
        · exact .inl (List.forall_mem_cons.2 ⟨digit, allDigits⟩)
        · exact .inr ⟨c :: digits, fraction, rfl, List.forall_mem_cons.2 ⟨digit, allDigits⟩⟩
      · exact .inr ⟨[], s, rfl, nofun⟩

/-- Of digits and points, those that are a decimal can be read. -/
theorem readDecimal?_eq_none_iff {s : List Char} (spelled : ∀ c ∈ s, Spelling.isAlphaChar c = true) :
    readDecimal? s = none ↔ ¬ IsDecimal s := by
  have noMinus : '-' ∉ s := fun mem => absurd (spelled '-' mem) (by decide)
  rcases digits_or_point spelled with allDigits | ⟨digits, fraction, rfl, allDigits⟩
  · have noPoint : s.count '.' = 0 := List.count_eq_zero.2 (not_mem_digits allDigits (by decide))
    rw [readDecimal?_digits allDigits, IsDecimal, noPoint]
    cases s with
    | nil => simp
    | cons c s => simp [allDigits c List.mem_cons_self]
  · have noPoint : digits.count '.' = 0 :=
      List.count_eq_zero.2 (not_mem_digits allDigits (by decide))
    have onePoint : (digits ++ '.' :: fraction).count '.' ≤ 1 ↔ ∀ c ∈ fraction, isDigit c = true := by
      rw [List.count_append, noPoint, List.count_cons_self]
      constructor
      · intro few c mem
        have notPoint : c ≠ '.' := by
          rintro rfl
          have := List.count_pos_iff.2 mem
          omega
        have := spelled c (by simp [mem])
        simpa [Spelling.isAlphaChar, notPoint] using this
      · intro fractionDigits
        have : fraction.count '.' = 0 :=
          List.count_eq_zero.2 (not_mem_digits fractionDigits (by decide))
        omega
    rw [readDecimal?_point allDigits (fun mem => noMinus (by simp [mem])), IsDecimal, onePoint]
    by_cases fractionDigits : ∀ c ∈ fraction, isDigit c = true
    · rw [exists_digit_iff allDigits fractionDigits]
      simp +contextual [fractionDigits]
    · obtain ⟨c, mem, noDigit⟩ : ∃ c ∈ fraction, isDigit c = false := by simpa using fractionDigits
      exact iff_of_true (.inr ⟨c, mem, noDigit⟩) fun both => fractionDigits both.1

end Numeral

/-! ## Spellings -/

namespace Spelling

/-- The digits of a hex colour, and the line feed that may end them. -/
theorem hexDigits?_eq_some {s spelled : List Char} (reads : hexDigits? s = some spelled) :
    s = '#' :: spelled ∧ ∃ digits tail, spelled = digits ++ tail ∧
      (∀ c ∈ digits, Numeral.isHex c = true) ∧
      (digits.length = 3 ∨ digits.length = 6 ∨ digits.length = 8) ∧ (tail = [] ∨ tail = ['\n']) := by
  unfold hexDigits? at reads
  split at reads
  · rename_i rest
    dsimp only at reads
    split at reads
    · rename_i form
      cases reads
      simp only [Bool.and_eq_true, Bool.or_eq_true, beq_iff_eq, isEnd, List.isEmpty_iff] at form
      exact ⟨rfl, _, _, List.takeWhile_append_dropWhile.symm, fun _ mem => List.mem_takeWhile_imp mem,
        by simpa only [or_assoc] using form.1, form.2⟩
    · cases reads
  · cases reads

/-- A text that starts with a number sign is no colour function. -/
theorem rgb?_of_hash {s : List Char} (hash : s.head? = some '#') : rgb? s = none := by
  have noHead : afterHead? ["rgb(", "rgba("] s = none := afterHead?_eq_none hash (by decide)
  rw [rgb?, noHead]
  rfl

theorem isAlphaChar_of_alpha? {s spelled : List Char} (reads : alpha? s = some spelled) :
    ∀ c ∈ spelled, isAlphaChar c = true := by
  unfold alpha? at reads
  dsimp only at reads
  split at reads
  · cases reads
    exact fun c mem => List.mem_takeWhile_imp mem
  · cases reads

theorem isAlphaChar_of_rgb? {s spelled : List Char} {arguments : RgbArguments}
    (reads : rgb? s = some arguments) (spells : arguments.alpha = some spelled) :
    ∀ c ∈ spelled, isAlphaChar c = true := by
  unfold rgb? at reads
  simp only [Option.bind_eq_bind, Option.bind_eq_some_iff] at reads
  obtain ⟨_, -, ⟨red, _⟩, -, _, -, ⟨green, _⟩, -, _, -, ⟨blue, _⟩, -, last⟩ := reads
  split at last
  · obtain ⟨alpha, readsAlpha, done⟩ := Option.bind_eq_some_iff.1 last
    cases done
    cases spells
    exact isAlphaChar_of_alpha? readsAlpha
  · split at last
    · cases last
      cases spells
    · cases last

end Spelling

namespace Colour

/-- A text in the form of a colour that holds no number in some place, and the fault of reading it. -/
inductive Unreadable : List Char → Fault → Prop
  /-- Three digits before a line feed are taken for more, and run out. -/
  | shortHex {a b c : Char} (red : Numeral.isHex a = true) (green : Numeral.isHex b = true)
      (blue : Numeral.isHex c = true) :
      Unreadable ['#', a, b, c, '\n'] (.notAnInteger 16 "")
  /-- The alpha of a colour function is no decimal. -/
  | alpha {s spelled : List Char} {arguments : Spelling.RgbArguments}
      (reads : Spelling.rgb? (trim s) = some arguments)
      (channels : ∀ digits ∈ [arguments.red, arguments.green, arguments.blue], numeral digits ≤ 255)
      (spells : arguments.alpha = some spelled) (noDecimal : ¬ Numeral.IsDecimal spelled) :
      Unreadable s (.notADecimal (String.ofList spelled))

example : Unreadable "rgba(1, 2, 3, 1.2.3)".toList (.notADecimal "1.2.3") :=
  .alpha rfl (by decide) rfl (by decide)

/-! ## Hex colours -/

/-- Two hexadecimal digits are a byte, whatever stands behind them. -/
theorem exists_byteAt {digits : List Char} (hex : ∀ c ∈ digits, Numeral.isHex c = true)
    (tail : List Char) (start : Nat) (inside : start + 2 ≤ digits.length) :
    ∃ n, byteAt (digits ++ tail) start = .ok n := by
  have pair : ((digits ++ tail).drop start).take 2 = (digits.drop start).take 2 ++ [] := by
    rw [List.drop_append_of_le_length (by omega), List.take_append_of_le_length (by simp; omega),
      List.append_nil]
  have nonempty : (digits.drop start).take 2 ≠ [] := by
    rw [← List.length_pos_iff]
    simp
    omega
  obtain ⟨n, reads⟩ := Numeral.exists_readHex? nonempty
    (fun c mem => hex c (List.mem_of_mem_drop (List.mem_of_mem_take mem)))
    (show ∀ c ∈ ([] : List Char), isBlank c = true from nofun)
  exact ⟨n, by rw [byteAt, pair, reads]⟩

/-- A hex colour is read if its bytes are. -/
theorem exists_ofHex? {s spelled digits : List Char} (reads : Spelling.hexDigits? s = some spelled)
    (expanded : sixOrEight spelled = digits)
    (channels : ∀ start ∈ [0, 2, 4], ∃ n, byteAt digits start = .ok n)
    (alpha : digits.length = 8 → ∃ n, byteAt digits 6 = .ok n) :
    ∃ ms, ofHex? s = .ok (some ms) := by
  obtain ⟨red, isRed⟩ := channels 0 (by simp)
  obtain ⟨green, isGreen⟩ := channels 2 (by simp)
  obtain ⟨blue, isBlue⟩ := channels 4 (by simp)
  rw [ofHex?, reads]
  dsimp only
  rw [expanded, isRed, isGreen, isBlue]
  by_cases eight : digits.length = 8
  · obtain ⟨a, isAlpha⟩ := alpha eight
    simp only [bind, Except.bind, if_pos eight, isAlpha]
    exact ⟨_, rfl⟩
  · simp only [bind, Except.bind, if_neg eight]
    exact ⟨_, rfl⟩

/-- Three digits before a line feed: the second byte is one digit, and the third one none. -/
theorem ofHex?_of_shortHex {a b c : Char} (red : Numeral.isHex a = true)
    (green : Numeral.isHex b = true) (blue : Numeral.isHex c = true) :
    ofHex? ['#', a, b, c, '\n'] = .error (.notAnInteger 16 "") := by
  have hex : ∀ d ∈ [a, b, c], Numeral.isHex d = true := by simp [red, green, blue]
  have noHex : Numeral.isHex '\n' = false := by decide
  have reads : Spelling.hexDigits? ['#', a, b, c, '\n'] = some [a, b, c, '\n'] := by
    simp [Spelling.hexDigits?, red, green, blue, noHex, Spelling.isEnd]
  obtain ⟨first, isFirst⟩ := exists_byteAt hex ['\n'] 0 (by simp)
  obtain ⟨second, isSecond⟩ : ∃ n, byteAt [a, b, c, '\n'] 2 = .ok n := by
    obtain ⟨n, isNumber⟩ : ∃ n, Numeral.readHex? ([c] ++ ['\n']) = some n :=
      Numeral.exists_readHex? (by simp) (by simp [blue]) (List.forall_mem_singleton.2 (by decide))
    rw [List.singleton_append] at isNumber
    exact ⟨n, by simp [byteAt, isNumber]⟩
  have third : byteAt [a, b, c, '\n'] 4 = .error (.notAnInteger 16 "") := rfl
  rw [ofHex?, reads]
  dsimp only
  rw [show sixOrEight [a, b, c, '\n'] = [a, b, c] ++ ['\n'] from rfl, isFirst]
  show (do let green ← byteAt [a, b, c, '\n'] 2; _) = _
  rw [isSecond]
  rfl

theorem ofHex?_eq_error_iff (s : List Char) (fault : Fault) :
    ofHex? s = .error fault ↔ s.head? = some '#' ∧ Unreadable s fault := by
  constructor
  · intro failed
    cases reads : Spelling.hexDigits? s with
    | none =>
        rw [ofHex?, reads] at failed
        cases failed
    | some spelled =>
        obtain ⟨rfl, digits, tail, rfl, hex, count, ended⟩ := Spelling.hexDigits?_eq_some reads
        have notRead {ms : Option Members} (read : ofHex? ('#' :: (digits ++ tail)) = .ok ms) : False := by
          rw [read] at failed
          cases failed
        by_cases three : digits.length = 3
        · obtain ⟨a, b, c, rfl⟩ := List.length_eq_three.1 three
          have ⟨red, green, blue⟩ :
              Numeral.isHex a = true ∧ Numeral.isHex b = true ∧ Numeral.isHex c = true := by
            simpa using hex
          rcases ended with rfl | rfl
          · have doubled : ∀ d ∈ [a, a, b, b, c, c], Numeral.isHex d = true := by
              simp [red, green, blue]
            have expanded : sixOrEight ([a, b, c] ++ []) = [a, a, b, b, c, c] ++ [] := rfl
            obtain ⟨ms, read⟩ := exists_ofHex? reads expanded
              (fun start mem => exists_byteAt doubled [] start (by simp at mem ⊢; omega)) (by simp)
            exact (notRead read).elim
          · have same := failed.symm.trans (ofHex?_of_shortHex red green blue)
            cases same
            exact ⟨rfl, .shortHex red green blue⟩
        · have long : 6 ≤ digits.length := by omega
          have short : tail.length ≤ 1 := by rcases ended with rfl | rfl <;> simp
          have expanded : sixOrEight (digits ++ tail) = digits ++ tail := by
            rw [sixOrEight, if_neg (by rw [List.length_append]; omega)]
          obtain ⟨ms, read⟩ := exists_ofHex? reads expanded
            (fun start mem => exists_byteAt hex tail start (by simp at mem; omega))
            (fun eight => exists_byteAt hex tail 6 (by rw [List.length_append] at eight; omega))
          exact (notRead read).elim
  · rintro ⟨hash, unreadable⟩
    cases unreadable with
    | shortHex red green blue => exact ofHex?_of_shortHex red green blue
    | alpha reads =>
        rw [Spelling.rgb?_of_hash (head?_trim hash (by decide))] at reads
        cases reads

theorem byteAt_le {digits : List Char} {start n : Nat} (reads : byteAt digits start = .ok n) :
    n ≤ 255 := by
  unfold byteAt at reads
  dsimp only at reads
  split at reads
  · rename_i m isNumber
    cases reads
    have short : ((digits.drop start).take 2).length ≤ 2 := List.length_take_le _ _
    have := (Numeral.readHex?_lt isNumber).trans_le (Nat.pow_le_pow_right (by decide) short)
    omega
  · cases reads

/-- **What a hex colour is read as**: three bytes, and an alpha that is a byte's part of 255. -/
theorem exists_object_of_ofHex? {s : List Char} {ms : Members} (reads : ofHex? s = .ok (some ms)) :
    ∃ (red green blue : Nat) (hex : List Char) (alpha : Option Binary64),
      ms = object red green blue hex (alpha.map .float) ∧ (∀ byte ∈ [red, green, blue], byte ≤ 255) ∧
      ∀ x ∈ alpha, ∃ byte ≤ 255, x = (Binary64.ofRatio false byte 255).roundPlaces 3 := by
  unfold ofHex? at reads
  split at reads
  · cases reads
  · obtain ⟨red, isRed, reads⟩ := Fault.bind_eq_ok_iff.1 reads
    obtain ⟨green, isGreen, reads⟩ := Fault.bind_eq_ok_iff.1 reads
    obtain ⟨blue, isBlue, reads⟩ := Fault.bind_eq_ok_iff.1 reads
    have bytes : ∀ byte ∈ [red, green, blue], byte ≤ 255 := by
      simp [byteAt_le isRed, byteAt_le isGreen, byteAt_le isBlue]
    dsimp only at reads
    split at reads
    · obtain ⟨_, isAlpha, reads⟩ := Fault.bind_eq_ok_iff.1 reads
      obtain ⟨alpha, isByte, rfl⟩ := Fault.map_eq_ok_iff.1 isAlpha
      cases reads
      refine ⟨red, green, blue, _, some _, rfl, bytes, ?_⟩
      rintro _ ⟨⟩
      exact ⟨alpha, byteAt_le isByte, rfl⟩
    · cases reads
      exact ⟨red, green, blue, _, none, rfl, bytes, nofun⟩

/-! ## Colour functions -/

/-- **What a colour function is read as**: its arguments, channels up to 255 and an alpha as given. -/
theorem exists_object_of_ofFunction? {s : List Char} {ms : Members}
    (reads : ofFunction? s = .ok (some ms)) :
    ∃ (arguments : Spelling.RgbArguments) (alpha : Option Binary64),
      Spelling.rgb? (trim s) = some arguments ∧
      (∀ digits ∈ [arguments.red, arguments.green, arguments.blue], numeral digits ≤ 255) ∧
      arguments.alpha.map Numeral.readDecimal? = alpha.map some ∧
      ms = object (numeral arguments.red) (numeral arguments.green) (numeral arguments.blue)
        (hexPair (numeral arguments.red) ++ hexPair (numeral arguments.green) ++
          hexPair (numeral arguments.blue))
        (alpha.map .float) := by
  unfold ofFunction? at reads
  split at reads
  · cases reads
  · rename_i arguments spelled
    dsimp only at reads
    split at reads
    · cases reads
    · rename_i inRange
      have channels : ∀ digits ∈ [arguments.red, arguments.green, arguments.blue],
          numeral digits ≤ 255 := by
        simp only [List.forall_mem_cons]
        exact ⟨by omega, by omega, by omega, nofun⟩
      cases given : arguments.alpha with
      | some text =>
          simp only [given] at reads
          obtain ⟨_, isAlpha, reads⟩ := Fault.bind_eq_ok_iff.1 reads
          cases reads
          unfold alphaOf at isAlpha
          split at isAlpha
          · rename_i x isNumber
            cases isAlpha
            exact ⟨arguments, some x, spelled, channels, by simp [given, isNumber], rfl⟩
          · cases isAlpha
      | none =>
          simp only [given] at reads
          cases reads
          exact ⟨arguments, none, spelled, channels, by simp [given], rfl⟩

theorem alphaOf_eq_error_iff {spelled : List Char}
    (alphaChars : ∀ c ∈ spelled, Spelling.isAlphaChar c = true) (fault : Fault) :
    alphaOf spelled = .error fault ↔
      ¬ Numeral.IsDecimal spelled ∧ fault = .notADecimal (String.ofList spelled) := by
  rw [← Numeral.readDecimal?_eq_none_iff alphaChars, alphaOf]
  split
  · rename_i x reads
    simp [reads]
  · rename_i reads
    simp [reads, eq_comm]

theorem ofFunction?_eq_error_iff (s : List Char) (fault : Fault) :
    ofFunction? s = .error fault ↔ s.head? ≠ some '#' ∧ Unreadable s fault := by
  constructor
  · intro failed
    cases reads : Spelling.rgb? (trim s) with
    | none =>
        rw [ofFunction?, reads] at failed
        cases failed
    | some arguments =>
        have noHash : s.head? ≠ some '#' := by
          intro hash
          rw [Spelling.rgb?_of_hash (head?_trim hash (by decide))] at reads
          cases reads
        rw [ofFunction?, reads] at failed
        dsimp only at failed
        split at failed
        · cases failed
        · rename_i inRange
          cases spells : arguments.alpha with
          | none =>
              rw [spells] at failed
              cases failed
          | some spelled =>
              rw [spells] at failed
              have alphaFailed : alphaOf spelled = .error fault := Fault.bind_pure_eq_error_iff.1 failed
              obtain ⟨noDecimal, rfl⟩ :=
                (alphaOf_eq_error_iff (Spelling.isAlphaChar_of_rgb? reads spells) fault).1 alphaFailed
              exact ⟨noHash, .alpha reads (by simp; omega) spells noDecimal⟩
  · rintro ⟨noHash, unreadable⟩
    cases unreadable with
    | shortHex => exact absurd rfl noHash
    | @alpha _ spelled arguments reads channels spells noDecimal =>
        have failed := (alphaOf_eq_error_iff (Spelling.isAlphaChar_of_rgb? reads spells) _).2
          ⟨noDecimal, rfl⟩
        have inRange : ¬ (255 < numeral arguments.red ∨ 255 < numeral arguments.green ∨
            255 < numeral arguments.blue) := by
          simp only [List.forall_mem_cons] at channels
          omega
        rw [ofFunction?, reads]
        dsimp only
        rw [if_neg inRange, spells]
        dsimp only
        rw [failed]
        rfl

/-! ## Types -/

/-- A colour that cannot be read is taken for a colour all the same. -/
theorem infer?_of_unreadable {s : String} {fault : Fault} (unreadable : Unreadable s.toList fault) :
    TokenType.infer? (.str s) = some .color := by
  have looks : TokenType.looksLikeColour (trim s.toList) = true := by
    rw [TokenType.looksLikeColour, Bool.or_eq_true, beq_iff_eq]
    generalize s.toList = text at unreadable
    cases unreadable with
    | shortHex => exact .inl (head?_trim rfl (by decide))
    | alpha reads => exact .inr (Spelling.isColourFunction_of_rgb? reads)
  rw [TokenType.infer?, TokenType.inferText?, if_pos looks]

end Colour

end DesignTokens
