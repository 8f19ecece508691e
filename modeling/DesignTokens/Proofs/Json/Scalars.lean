/-
# DesignTokens.Proofs.Json.Scalars -- written strings and integers are read back

A string is written character by character, and each character is read back as it was: under its letter,
as a code, or as itself (`readCodes_escapeChar`).  Codes are joined in pairs when a string is read, but
only halves of a pair are, and no character has the code of one (`joinCodes_map_toNat`).  So a written
string is read back whole, and the text goes on behind its closing quote (`readString_escaped`).

An integer has no closing mark.  It is read back if what follows does not carry a number on
(`EndsNumber`), and if its digits are not more than an integer may have (`readNumber_writeInt`).
-/
import DesignTokens.Json.Reader
import DesignTokens.Json.Writer
import DesignTokens.Proofs.Text.Blank
import Mathlib.Data.List.Basic

namespace DesignTokens

set_option autoImplicit false

namespace Json

/-! ## Codes -/

theorem hexValue?_hexDigit : ∀ d < 16, Numeral.hexValue? (Text.hexDigit d) = some d := by
  decide

/-- Four hexadecimal digits are read as the number that they were written for. -/
theorem hexCode?_hexDigits {n : Nat} (small : n < 0x10000) :
    ∃ a b c d, Text.hexDigits 4 n = [a, b, c, d] ∧ hexCode? a b c d = some n := by
  refine ⟨_, _, _, _, rfl, ?_⟩
  simp only [hexCode?, hexValue?_hexDigit _ (Nat.mod_lt _ (by decide : 16 > 0)), Option.bind_eq_bind,
    Option.bind_some, Option.pure_def, Option.some.injEq]
  omega

theorem unescapeLetter?_of_escapeLetter? {c letter : Char} (escaped : escapeLetter? c = some letter) :
    unescapeLetter? letter = some c ∧ letter ≠ 'u' := by
  unfold escapeLetter? at escaped
  split at escaped <;> cases escaped <;> decide

/-! ## Characters -/

variable (opening : List Char)

theorem readCodes_letter {letter c : Char} (known : unescapeLetter? letter = some c) (notCode : letter ≠ 'u')
    {tail : List Char} :
    readCodes opening ('\\' :: letter :: tail) = consCode c.toNat (readCodes opening tail) := by
  rw [readCodes.eq_def]
  split
  case h_7 =>
    rename_i noLetter same
    obtain ⟨rfl, rfl⟩ := List.cons.inj same
    exact absurd rfl (noLetter _ _ rfl)
  all_goals simp_all

theorem readCodes_code {n : Nat} (small : n < 0x10000) {tail : List Char} (more : tail ≠ []) :
    readCodes opening (codeEscape n ++ tail) = consCode n (readCodes opening tail) := by
  obtain ⟨a, b, c, d, digits, code⟩ := hexCode?_hexDigits small
  obtain ⟨e, rest, rfl⟩ := List.exists_cons_of_ne_nil more
  simp [codeEscape, digits, readCodes, code]

theorem readCodes_plain {c : Char} (noQuote : c ≠ '"') (noEscape : c ≠ '\\') (printable : ¬ c.toNat < 0x20)
    (tail : List Char) : readCodes opening (c :: tail) = consCode c.toNat (readCodes opening tail) := by
  rw [readCodes.eq_def]
  split
  case h_7 =>
    rename_i same
    obtain ⟨rfl, rfl⟩ := List.cons.inj same
    exact if_neg printable
  all_goals simp_all

/-- **A written character is read back.** -/
theorem readCodes_escapeChar (c : Char) {tail : List Char} (more : tail ≠ []) :
    readCodes opening (escapeChar none c ++ tail) = consCode c.toNat (readCodes opening tail) := by
  unfold escapeChar
  split
  · rename_i letter escaped
    obtain ⟨known, notCode⟩ := unescapeLetter?_of_escapeLetter? escaped
    exact readCodes_letter opening known notCode
  · rename_i unescaped
    split
    · rename_i control
      exact readCodes_code opening (by omega) more
    · rename_i printable
      have noQuote : c ≠ '"' := by
        rintro rfl
        cases unescaped
      have noEscape : c ≠ '\\' := by
        rintro rfl
        cases unescaped
      exact readCodes_plain opening noQuote noEscape printable tail

/-- No written character holds a carriage return, which reading a file would change. -/
theorem return_not_mem_escapeChar (c : Char) : '\r' ∉ escapeChar none c := by
  unfold escapeChar
  split
  · rename_i letter escaped
    have other : letter ≠ '\r' := by
      rintro rfl
      unfold escapeLetter? at escaped
      split at escaped <;> cases escaped
    simp [other.symm]
  · rename_i unescaped
    split
    · have noReturn : ∀ d < 16, '\r' ≠ Text.hexDigit d := by decide
      simp [codeEscape, Text.hexDigits, noReturn _ (Nat.mod_lt _ (by decide))]
    · rintro mem
      cases List.mem_singleton.1 mem
      cases unescaped

theorem readCodes_escaped (s rest : List Char) :
    readCodes opening (s.flatMap (escapeChar none) ++ '"' :: rest) = .ok (s.map Char.toNat, rest) := by
  induction s with
  | nil => simp [readCodes]
  | cons c s ih =>
      rw [List.flatMap_cons, List.append_assoc, readCodes_escapeChar opening c (by simp), ih]
      rfl

/-! ## Strings -/

theorem not_isHighSurrogate (c : Char) : isHighSurrogate c.toNat = false := by
  have valid : c.toNat < 0xD800 ∨ 0xDFFF < c.toNat ∧ c.toNat < 0x110000 := c.valid
  simp only [isHighSurrogate, Bool.and_eq_false_iff, decide_eq_false_iff_not]
  omega

theorem not_isLowSurrogate (c : Char) : isLowSurrogate c.toNat = false := by
  have valid : c.toNat < 0xD800 ∨ 0xDFFF < c.toNat ∧ c.toNat < 0x110000 := c.valid
  simp only [isLowSurrogate, Bool.and_eq_false_iff, decide_eq_false_iff_not]
  omega

/-- The codes of characters are joined to these characters: none is half of a pair. -/
theorem joinCodes_map_toNat (halves : Halves) (s : List Char) :
    joinCodes halves (s.map Char.toNat) = s := by
  have ofCode (c : Char) : charOfCode halves c.toNat = c := by
    simp [charOfCode, isHalf, not_isHighSurrogate, not_isLowSurrogate, Char.ofNat_toNat]
  induction s with
  | nil => rfl
  | cons c s ih =>
      cases s with
      | nil => simp [joinCodes, ofCode]
      | cons d s =>
          simp only [List.map_cons] at ih ⊢
          simp [joinCodes, not_isHighSurrogate, ofCode, ih]

/-- **A written string is read back**, whatever follows its closing quote. -/
theorem readString_escaped (halves : Halves) (s : String) (rest : List Char) :
    readString halves (s.toList.flatMap (escapeChar none) ++ '"' :: rest) = .ok (s, rest) := by
  rw [readString, readCodes_escaped]
  simp [joinCodes_map_toNat]

/-! ## Integers -/

/-- Whether a text does not carry on a number in front of it. -/
def EndsNumber (rest : List Char) : Prop :=
  ∀ c ∈ rest.head?, isAsciiDigit c = false ∧ c ≠ '.' ∧ c ≠ 'e' ∧ c ≠ 'E'

theorem endsNumber_nil : EndsNumber [] :=
  nofun

theorem endsNumber_cons {c : Char} {rest : List Char} :
    EndsNumber (c :: rest) ↔ isAsciiDigit c = false ∧ c ≠ '.' ∧ c ≠ 'e' ∧ c ≠ 'E' := by
  simp [EndsNumber]

theorem digitValue?_of_isDigit {c : Char} (digit : c.isDigit = true) :
    (Text.digitValue? c).getD 0 = c.toNat - '0'.toNat := by
  have bounds : 48 ≤ c.toNat ∧ c.toNat ≤ 57 := by
    simpa [Char.isDigit, UInt32.le_iff_toNat_le] using digit
  have first : Text.decimalDigits.ranges.find? (fun r => r.1 ≤ c.toNat && c.toNat ≤ r.2) =
      some (48, 57) := by
    simp [Text.decimalDigits, bounds]
  simp only [Text.digitValue?, Text.CodeRanges.offset?, first, Option.map_some, Option.getD_some]
  change (c.toNat - 48) % 10 = c.toNat - 48
  omega

/-- The digits of a number spell it. -/
theorem numeral_toDigits (n : Nat) : Text.numeral (Nat.toDigits 10 n) = n := by
  calc Text.numeral (Nat.toDigits 10 n)
      = Nat.ofDigitChars 10 (Nat.toDigits 10 n) 0 := by
        rw [Nat.ofDigitChars_eq_foldl]
        refine List.foldl_ext _ _ _ fun value c mem => ?_
        rw [digitValue?_of_isDigit (Nat.isDigit_of_mem_toDigits (by decide) (by decide) mem)]
    _ = n := Nat.ofDigitChars_ten_toDigits

theorem isAsciiDigit_of_mem_toDigits {n : Nat} {c : Char} (mem : c ∈ Nat.toDigits 10 n) :
    isAsciiDigit c = true := by
  have digit := Nat.isDigit_of_mem_toDigits (by decide) (by decide) mem
  simpa [Char.isDigit, isAsciiDigit, Char.le_def] using digit

theorem exists_toDigits_eq (n : Nat) : ∃ c digits, Nat.toDigits 10 n = c :: digits ∧
    isAsciiDigit c = true ∧ ∀ d ∈ digits, isAsciiDigit d = true := by
  obtain ⟨c, digits, written⟩ := List.exists_cons_of_ne_nil (Nat.toDigits_ne_nil (b := 10) (n := n))
  have ascii : ∀ d ∈ c :: digits, isAsciiDigit d = true := by
    intro d mem
    exact isAsciiDigit_of_mem_toDigits (written ▸ mem)
  exact ⟨c, digits, written, ascii c (.head _), fun d mem => ascii d (.tail _ mem)⟩

/-- The digits of a number start with a zero only if this is the number. -/
theorem head?_toDigits (n : Nat) : (Nat.toDigits 10 n).head? = some '0' ↔ n = 0 := by
  induction n using Nat.strongRecOn with
  | ind n ih =>
      rw [Nat.toDigits_eq_if (by decide)]
      split
      case isTrue => simp [Nat.digitChar_eq_zero]
      case isFalse large =>
        have smaller := ih (n / 10) (by omega)
        obtain ⟨c, digits, written, -⟩ := exists_toDigits_eq (n / 10)
        rw [written, List.head?_cons] at smaller
        rw [written, List.cons_append, List.head?_cons, smaller]
        omega

theorem readWhole_toDigits (n : Nat) {rest : List Char} (ends : EndsNumber rest) :
    readWhole (Nat.toDigits 10 n ++ rest) = some (Nat.toDigits 10 n, rest) := by
  obtain ⟨c, digits, written, first, ascii⟩ := exists_toDigits_eq n
  by_cases zero : n = 0
  · subst zero
    rfl
  · have notZero : c ≠ '0' := by
      rintro rfl
      exact zero ((head?_toDigits n).1 (by rw [written]; rfl))
    obtain ⟨run, after⟩ := Text.span_append ascii rest fun d next => (ends d next).1
    rw [written, List.cons_append, readWhole, if_pos first, run, after]
    simpa using notZero

theorem readFraction_of_endsNumber {rest : List Char} (ends : EndsNumber rest) :
    readFraction rest = none := by
  unfold readFraction
  split
  · exact absurd rfl (endsNumber_cons.1 ends).2.1
  · rfl

theorem readExponent_of_endsNumber {rest : List Char} (ends : EndsNumber rest) :
    readExponent rest = none := by
  cases rest with
  | nil => rfl
  | cons c rest =>
      obtain ⟨-, -, small, large⟩ := endsNumber_cons.1 ends
      simp [readExponent, small, large]

theorem splitMinus_writeInt (n : Int) (rest : List Char) :
    Numeral.splitMinus (writeInt n ++ rest) = (decide (n < 0), Nat.toDigits 10 n.natAbs ++ rest) := by
  unfold writeInt
  split
  · rename_i negative
    simp [Numeral.splitMinus, negative]
  · rename_i natural
    obtain ⟨c, digits, written, first, -⟩ := exists_toDigits_eq n.natAbs
    rw [written, List.cons_append, Numeral.splitMinus]
    · simp [natural]
    · rintro r same
      obtain ⟨rfl, -⟩ := List.cons.inj same
      cases first

/-- **A written integer is read back**, unless it has too many digits. -/
theorem readNumber_writeInt (n : Int) {rest : List Char} (ends : EndsNumber rest) :
    readNumber (writeInt n ++ rest) =
      if Numeral.maxDigits < (Nat.toDigits 10 n.natAbs).length then
        .error (.tooManyDigits (Nat.toDigits 10 n.natAbs).length)
      else .ok (.int n, rest) := by
  have value : Binary64.signed (decide (n < 0)) n.natAbs = n := by
    simp only [Binary64.signed, decide_eq_true_eq]
    split
    all_goals omega
  simp only [readNumber, splitMinus_writeInt, readWhole_toDigits _ ends, readFraction_of_endsNumber ends,
    readExponent_of_endsNumber ends, Option.getD_none, List.isEmpty_nil, if_true, numeral_toDigits, value]

end Json

end DesignTokens
