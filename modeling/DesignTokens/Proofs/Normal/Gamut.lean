/-
# DesignTokens.Proofs.Normal.Gamut -- what a structured colour holds

A channel is a byte's part of 255 in either spelling of a colour, so it lies between zero and one, and so
does the alpha of a hex colour.  The alpha of a colour function is the number that stands there, and no
bound is put on it: it is in gamut exactly if the argument is at most one, or so little above that no
double is nearer (`inGamut_of_structured`).

The hex code that goes with the channels of a colour function is six capital digits, and reading it as a
hex colour gives the same channels back (`ofHexValue_hex_of_ofFunctionValue`).  Two digits are written for each
byte, so the one lemma behind this is that a byte comes back from its two digits (`readHex?_hexPair`).
-/
import DesignTokens.Proofs.Normal.Colour
import DesignTokens.Proofs.Number.Doubles

namespace DesignTokens

set_option autoImplicit false

open Text

/-! ## Decimals -/

namespace Numeral

/-- The number that digits around one point spell, or digits alone. -/
def decimalValue (s : List Char) : ℚ :=
  numeral (s.filter (· != '.')) / 10 ^ ((s.dropWhile (· != '.')).drop 1).length

section Digits

variable {digits fraction : List Char} (allDigits : ∀ c ∈ digits, isDigit c = true)
include allDigits

theorem not_point_of_digits : ∀ c ∈ digits, (c != '.') = true := by
  intro c mem
  have : c ≠ '.' := by
    rintro rfl
    exact not_mem_digits allDigits (by decide) mem
  simpa using this

theorem decimalValue_digits : decimalValue digits = numeral digits := by
  rw [decimalValue, List.filter_eq_self.2 (not_point_of_digits allDigits),
    List.dropWhile_eq_nil_iff.2 (not_point_of_digits allDigits)]
  simp

theorem decimalValue_point (fractionDigits : ∀ c ∈ fraction, isDigit c = true) :
    decimalValue (digits ++ '.' :: fraction) = numeral (digits ++ fraction) / 10 ^ fraction.length := by
  obtain ⟨-, behind⟩ := span_append (not_point_of_digits allDigits) ('.' :: fraction) (by simp)
  rw [decimalValue, behind, List.filter_append, List.filter_cons_of_neg (by simp),
    List.filter_eq_self.2 (not_point_of_digits allDigits),
    List.filter_eq_self.2 (not_point_of_digits fractionDigits)]
  rfl

end Digits

/-- **Digits and points are read as the double nearest to the number that they spell.** -/
theorem exists_ratio_of_readDecimal? {s : List Char} {x : Binary64}
    (spelled : ∀ c ∈ s, Spelling.isAlphaChar c = true) (reads : readDecimal? s = some x) :
    ∃ num den : Nat, 0 < den ∧ x = .ofRatio false num den ∧ (num / den : ℚ) = decimalValue s := by
  have noMinus : '-' ∉ s := fun mem => absurd (spelled '-' mem) (by decide)
  rw [readDecimal?, splitMinus_of_isDigit noMinus] at reads
  dsimp only at reads
  rcases digits_or_point spelled with allDigits | ⟨digits, fraction, rfl, allDigits⟩
  · rw [List.takeWhile_eq_self_iff.2 allDigits, List.dropWhile_eq_nil_iff.2 allDigits] at reads
    dsimp only at reads
    split at reads
    · cases reads
    · cases reads
      refine ⟨_, _, Binary64.tenTo_pos _, Binary64.ofDecimal_eq_ofRatio false (numeral s) 0, ?_⟩
      rw [decimalValue_digits allDigits]
      simp [Binary64.tenTo]
  · have notDigit : isDigit '.' = false := by decide
    obtain ⟨whole, rest⟩ := span_append allDigits ('.' :: fraction) (by simpa using notDigit)
    rw [whole, rest] at reads
    change (if (digits ++ fraction).isEmpty || fraction.any (!isDigit ·) then none
      else some (Binary64.ofDecimal false (numeral (digits ++ fraction)) (-fraction.length))) = some x at reads
    split at reads
    · cases reads
    · rename_i form
      cases reads
      have fractionDigits : ∀ c ∈ fraction, isDigit c = true := by
        simp only [Bool.or_eq_true, List.any_eq_true, not_or, not_exists, not_and] at form
        simpa using form.2
      refine ⟨_, _, Binary64.tenTo_pos _, Binary64.ofDecimal_eq_ofRatio false _ _, ?_⟩
      rw [decimalValue_point allDigits fractionDigits]
      simp [Binary64.tenTo]

end Numeral

/-! ## Gamut -/

namespace Members

/-- Three channels, each from zero to one. -/
def channelsInGamut (colour : Members) : Bool :=
  match colour.get? "channels" with
  | some (.arr channels) => channels.length == 3 && channels.all (Json.between 0 1)
  | _ => false

/-- An alpha from zero to one, or none. -/
def alphaInGamut (colour : Members) : Bool :=
  (colour.get? "alpha").all (Json.between 0 1)

end Members

namespace Colour

theorem between_channel {byte : Nat} (small : byte ≤ 255) : (channel byte).between 0 1 = true :=
  Binary64.between_roundPlaces 3 (by decide) small

theorem structured_eq_obj_iff {read : List Char → Except Fault (Option Members)} {s : String} {ms : Members} :
    structured read (.str s) = .ok (.obj ms) ↔ read s.toList = .ok (some ms) := by
  rw [structured, Fault.bind_eq_ok_iff]
  constructor
  · rintro ⟨_ | ms', isObject, same⟩
    · cases same
    · cases same
      exact isObject
  · exact fun isObject => ⟨_, isObject, rfl⟩

section Object

variable (red green blue : Nat) (hex : List Char) (alpha : Option Json)

theorem channelsInGamut_object (bytes : ∀ byte ∈ [red, green, blue], byte ≤ 255) :
    (object red green blue hex alpha).channelsInGamut = true := by
  have channels : (object red green blue hex alpha).get? "channels" =
      some (.arr [channel red, channel green, channel blue]) := rfl
  rw [Members.channelsInGamut, channels]
  simp only [List.forall_mem_cons] at bytes
  simp [between_channel, bytes]

theorem get?_alpha_object : (object red green blue hex alpha).get? "alpha" = alpha := by
  cases alpha <;> rfl

end Object

/-- **Structured colours are in gamut, up to the alpha of a colour function**, which is so exactly if the
argument is at most one, or at most half way from one to the next double. -/
theorem inGamut_of_structured (s : String) (colour : Members) :
    (ofHexValue (.str s) = .ok (.obj colour) →
      colour.channelsInGamut = true ∧ colour.alphaInGamut = true) ∧
    (ofFunctionValue (.str s) = .ok (.obj colour) →
      colour.channelsInGamut = true ∧ ∃ arguments, Spelling.rgb? (trim s.toList) = some arguments ∧
        (colour.alphaInGamut = true ↔
          ∀ spelled ∈ arguments.alpha, Numeral.decimalValue spelled ≤ 1 + 1 / 2 ^ 53)) := by
  rw [ofHexValue, ofFunctionValue, structured_eq_obj_iff, structured_eq_obj_iff]
  constructor
  · intro reads
    obtain ⟨red, green, blue, hex, alpha, rfl, bytes, alphaByte⟩ := exists_object_of_ofHex? reads
    rw [Members.alphaInGamut, get?_alpha_object]
    refine ⟨channelsInGamut_object red green blue hex _ bytes, ?_⟩
    cases alpha with
    | none => rfl
    | some x =>
        obtain ⟨byte, small, rfl⟩ := alphaByte x rfl
        exact between_channel small
  · intro reads
    obtain ⟨arguments, alpha, spelled, channels, isAlpha, rfl⟩ := exists_object_of_ofFunction? reads
    rw [Members.alphaInGamut, get?_alpha_object]
    refine ⟨channelsInGamut_object _ _ _ _ _ (by simpa using channels), arguments, spelled, ?_⟩
    cases given : arguments.alpha with
    | none =>
        rw [given] at isAlpha
        cases alpha with
        | none => simp
        | some x => cases isAlpha
    | some text =>
        rw [given] at isAlpha
        cases alpha with
        | none => cases isAlpha
        | some x =>
            obtain ⟨num, den, pos, rfl, value⟩ := Numeral.exists_ratio_of_readDecimal?
              (Spelling.isAlphaChar_of_rgb? spelled given) (Option.some.inj isAlpha)
            simp [Json.between, Binary64.between_ofRatio_iff num pos, value]

namespace Example

/-- What a colour function with an alpha of five is read as. -/
def overshot : Members :=
  object 1 2 3 "010203".toList (some (.float (.ofDecimal false 5 0)))

/-- An alpha of five is read, and not in gamut. -/
theorem overshot_beyond_gamut :
    ofFunctionValue (.str "rgba(1, 2, 3, 5)") = .ok (.obj overshot) ∧ overshot.alphaInGamut = false :=
  ⟨rfl, by decide +kernel⟩

/-- The channels beside an alpha of five are in gamut, and all of a hex colour is. -/
theorem inGamut_of_both_spellings :
    ofFunctionValue (.str "rgba(1, 2, 3, 5)") = .ok (.obj overshot) ∧ overshot.channelsInGamut = true ∧
    ∃ colour : Members, ofHexValue (.str "#00ff0080") = .ok (.obj colour) ∧
      colour.channelsInGamut = true ∧ colour.alphaInGamut = true := by
  have function : ofFunctionValue (.str "rgba(1, 2, 3, 5)") = .ok (.obj overshot) := rfl
  have hex : ofHexValue (.str "#00ff0080") =
      .ok (.obj (object 0 255 0 "00FF00".toList ((some 128).map channel))) := rfl
  exact ⟨function, ((inGamut_of_structured _ _).2 function).1, _, hex, (inGamut_of_structured _ _).1 hex⟩

end Example

/-! ## The hex code of a colour function -/

/-- A digit as `hexPair` writes it. -/
def capitalDigit (d : Nat) : Char :=
  if d < 10 then Char.ofNat (48 + d) else Char.ofNat (55 + d)

theorem hexPair_eq (byte : Nat) : hexPair byte = [capitalDigit (byte / 16), capitalDigit (byte % 16)] :=
  rfl

theorem capitalDigit_spec : ∀ d < 16,
    capitalDigit d ∈ "0123456789ABCDEF".toList ∧ Numeral.hexValue? (capitalDigit d) = some d ∧
      capital (capitalDigit d) = capitalDigit d := by
  decide

section Byte

variable {byte : Nat} (small : byte ≤ 255)
include small

theorem hexPair_spec :
    ∀ c ∈ hexPair byte, c ∈ "0123456789ABCDEF".toList ∧ Numeral.isHex c = true ∧ capital c = c := by
  have digit (d : Nat) (less : d < 16) : capitalDigit d ∈ "0123456789ABCDEF".toList ∧
      Numeral.isHex (capitalDigit d) = true ∧ capital (capitalDigit d) = capitalDigit d := by
    obtain ⟨mem, value, same⟩ := capitalDigit_spec d less
    exact ⟨mem, by rw [Numeral.isHex, value]; rfl, same⟩
  rw [hexPair_eq, List.forall_mem_cons, List.forall_mem_singleton]
  exact ⟨digit _ (by omega), digit _ (by omega)⟩

/-- **A byte comes back from its two digits.** -/
theorem readHex?_hexPair : Numeral.readHex? (hexPair byte) = some byte := by
  have noBlank : ∀ c ∈ hexPair byte, isBlank c = false := fun c mem =>
    Numeral.not_isBlank_of_isHex (hexPair_spec small c mem).2.1
  have trims : trim (hexPair byte ++ []) = hexPair byte :=
    trim_append_of_blank (by simp [hexPair_eq]) noBlank nofun
  rw [List.append_nil] at trims
  obtain ⟨-, high, -⟩ := capitalDigit_spec (byte / 16) (by omega)
  obtain ⟨-, low, -⟩ := capitalDigit_spec (byte % 16) (by omega)
  rw [Numeral.readHex?, trims, hexPair_eq]
  simp [high, low]
  omega

end Byte

section Bytes

variable {red green blue : Nat} (bytes : ∀ byte ∈ [red, green, blue], byte ≤ 255)
include bytes

theorem hexPairs_spec :
    ∀ c ∈ hexPair red ++ hexPair green ++ hexPair blue,
      c ∈ "0123456789ABCDEF".toList ∧ Numeral.isHex c = true ∧ capital c = c := by
  simp only [List.forall_mem_cons] at bytes
  obtain ⟨isRed, isGreen, isBlue, -⟩ := bytes
  intro c mem
  simp only [List.mem_append, or_assoc] at mem
  rcases mem with inRed | inGreen | inBlue
  · exact hexPair_spec isRed c inRed
  · exact hexPair_spec isGreen c inGreen
  · exact hexPair_spec isBlue c inBlue

/-- The digits of three bytes are read as these bytes, and stay as they are. -/
theorem ofHex?_hexPairs :
    ofHex? ('#' :: (hexPair red ++ hexPair green ++ hexPair blue)) =
      .ok (some (object red green blue (hexPair red ++ hexPair green ++ hexPair blue) none)) := by
  have digits := hexPairs_spec bytes
  simp only [List.forall_mem_cons] at bytes
  obtain ⟨isRed, isGreen, isBlue, -⟩ := bytes
  have first : ((hexPair red ++ hexPair green ++ hexPair blue).drop 0).take 2 = hexPair red := rfl
  have second : ((hexPair red ++ hexPair green ++ hexPair blue).drop 2).take 2 = hexPair green := rfl
  have third : ((hexPair red ++ hexPair green ++ hexPair blue).drop 4).take 2 = hexPair blue := rfl
  have six : (hexPair red ++ hexPair green ++ hexPair blue).length = 6 := rfl
  generalize hexPair red ++ hexPair green ++ hexPair blue = hex at *
  have reads : Spelling.hexDigits? ('#' :: hex) = some hex := by
    rw [Spelling.hexDigits?, List.takeWhile_eq_self_iff.2 fun c mem => (digits c mem).2.1,
      List.dropWhile_eq_nil_iff.2 fun c mem => (digits c mem).2.1, six]
    rfl
  have capitals : hex.map capital = hex :=
    (List.map_congr_left fun c mem => (digits c mem).2.2).trans (List.map_id hex)
  rw [ofHex?, reads]
  dsimp only
  rw [sixOrEight, if_neg (by omega), byteAt, byteAt, byteAt, first, second, third,
    readHex?_hexPair isRed, readHex?_hexPair isGreen, readHex?_hexPair isBlue]
  simp [bind, Except.bind, pure, Except.pure, six, capitals, List.take_of_length_le six.le]

end Bytes

/-- **The hex code of a colour function is the colour**: six capital digits, which are read as the same
channels and written as the same digits. -/
theorem ofHexValue_hex_of_ofFunctionValue (s : String) (colour : Members)
    (reads : ofFunctionValue (.str s) = .ok (.obj colour)) :
    ∃ digits : List Char, colour.get? "hex" = some (.str (String.ofList ('#' :: digits))) ∧
      digits.length = 6 ∧ (∀ c ∈ digits, c ∈ "0123456789ABCDEF".toList) ∧
      ∃ same : Members, ofHexValue (.str (String.ofList ('#' :: digits))) = .ok (.obj same) ∧
        ∀ key ∈ ["colorSpace", "channels", "hex"],
          ∃ part, colour.get? key = some part ∧ same.get? key = some part := by
  rw [ofFunctionValue, structured_eq_obj_iff] at reads
  obtain ⟨arguments, alpha, -, channels, -, rfl⟩ := exists_object_of_ofFunction? reads
  have bytes : ∀ byte ∈ [numeral arguments.red, numeral arguments.green, numeral arguments.blue],
      byte ≤ 255 := by simpa using channels
  refine ⟨_, rfl, rfl, fun c mem => (hexPairs_spec bytes c mem).1, _,
    structured_eq_obj_iff.2 ((congrArg ofHex? String.toList_ofList).trans (ofHex?_hexPairs bytes)), ?_⟩
  simp only [List.forall_mem_cons]
  exact ⟨⟨_, rfl, rfl⟩, ⟨_, rfl, rfl⟩, ⟨_, rfl, rfl⟩, nofun⟩

namespace Example

/-- What a colour function in capital letters is read as, with blanks, digits of another script and an
alpha that starts with its point. -/
def mixed : Members :=
  object 224 0 105 "E00069".toList (some (.float (.ofDecimal false 5 (-1))))

theorem hex_of_mixed :
    ofFunctionValue (.str "RGBA(٢٢٤ , 0,105,.5)") = .ok (.obj mixed) ∧
    ∃ digits : List Char, mixed.get? "hex" = some (.str (String.ofList ('#' :: digits))) ∧
      digits.length = 6 ∧ ∃ same : Members,
        ofHexValue (.str (String.ofList ('#' :: digits))) = .ok (.obj same) ∧
          same.get? "channels" = some (.arr [channel 224, channel 0, channel 105]) := by
  have reads : ofFunctionValue (.str "RGBA(٢٢٤ , 0,105,.5)") = .ok (.obj mixed) := rfl
  obtain ⟨digits, isHex, six, -, same, readsHex, agree⟩ := ofHexValue_hex_of_ofFunctionValue _ _ reads
  obtain ⟨part, given, samePart⟩ := agree "channels" (by simp)
  cases given
  exact ⟨reads, digits, isHex, six, same, readsHex, samePart⟩

end Example

end Colour

end DesignTokens
