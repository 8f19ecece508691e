/-
# DesignTokens.Proofs.Spelling -- how texts are told apart and read

Texts of different spellings are told apart by how they start.  No colour function starts with a
character that is none of their first letters (`afterHead?_eq_none`), and no quantity with one that
is neither a digit nor a sign (`splitNumber?_eq_none`); so nothing that starts with a number looks like
a colour (`IsNumber.looksLikeColour_append`).

The reader of quantities cuts digits off and looks at what is left.  Here is the grammar that it goes
by: a number is an optional sign, digits, and perhaps a point with digits (`IsNumber`), and a quantity
is a number, a unit and the end of the text.  The reader finds the one way to take a text apart like
that if there is one, because no unit starts as a number goes on (`IsUnit`,
`splitNumber?_append_of_stops`, `quantity?_eq_some_iff`, `quantity_unique`), and every number has a
value (`exists_readDecimal?`).

So blanks are told from the rest of a quantity.  Trimming takes nothing off but the line feed that may
end it (`dimension?_trim`), and a standard dimension with blanks at its ends is one in the loose form
(`isLooseDimension_of_trim`).
-/
import DesignTokens.Inference
import DesignTokens.Proofs.Text.Blank
import DesignTokens.Spelling.Colour

namespace DesignTokens

set_option autoImplicit false

open Text

namespace Spelling

/-! ## First characters -/

/-- A text has none of the heads if each of them starts otherwise. -/
theorem afterHead?_eq_none {heads : List String} {s : List Char} {c : Char} (first : s.head? = some c)
    (other : ∀ head ∈ heads, head.toList.head?.any (· != foldLetter c) = true) :
    afterHead? heads s = none := by
  cases s with
  | nil => cases first
  | cons c' s =>
      cases first
      refine List.findSome?_eq_none_iff.2 fun head mem => if_neg ?_
      have otherHead := other head mem
      rw [← String.length_toList]
      cases chars : head.toList with
      | nil =>
          rw [chars] at otherHead
          cases otherHead
      | cons d rest =>
          rw [chars] at otherHead
          have ne : d ≠ foldLetter c := by simpa using otherHead
          simp [ne.symm]

/-- A text has one of the heads if it starts with it, its letters without their case. -/
theorem isSome_afterHead?_iff (heads : List String) (s : List Char) :
    (afterHead? heads s).isSome = true ↔ ∃ head ∈ heads, head.toList <+: s.map foldLetter := by
  rw [afterHead?, List.isSome_findSome?, List.any_eq_true]
  refine exists_congr fun head => and_congr_right fun _ => ?_
  rw [List.prefix_iff_eq_take, List.map_take, String.length_toList]
  split
  · rename_i same
    exact iff_of_true rfl (beq_iff_eq.1 same).symm
  · rename_i differs
    refine iff_of_false (by simp) fun same => differs ?_
    rw [← same, beq_self_eq_true]

/-- The characters that a colour starts with, in either case, and the long s. -/
def colourHeads : CodeRanges where
  ranges := [(0x23, 0x23), (0x41, 0x5A), (0x61, 0x7A), (0x17F, 0x17F)]

/-- No text that starts otherwise looks like a colour. -/
theorem looksLikeColour_eq_false {c : Char} {rest : List Char} (other : colourHeads.contains c = false) :
    TokenType.looksLikeColour (c :: rest) = false := by
  have outside : c.toNat ≠ 0x23 ∧ ¬ (0x41 ≤ c.toNat ∧ c.toNat ≤ 0x5A) ∧
      ¬ (0x61 ≤ c.toNat ∧ c.toNat ≤ 0x7A) ∧ c.toNat ≠ 0x17F := by
    rw [← Bool.not_eq_true, CodeRanges.contains_iff] at other
    simp [colourHeads] at other
    omega
  obtain ⟨noSign, noCapital, noSmall, noLongS⟩ := outside
  have le_iff (a b : Char) : a ≤ b ↔ a.toNat ≤ b.toNat := Iff.rfl
  have folded : foldLetter c = c := by
    rw [foldLetter, if_neg noLongS, foldLetter.lower, if_neg]
    simpa [le_iff] using noCapital
  have ne {d : Char} (letter : 0x61 ≤ d.toNat ∧ d.toNat ≤ 0x7A) : d ≠ c := by
    rintro rfl
    exact noSmall letter
  have noHead : afterHead? ["rgb(", "rgba(", "hsl(", "hsla("] (c :: rest) = none := by
    refine afterHead?_eq_none rfl fun head mem => ?_
    rw [folded]
    have r := ne (d := 'r') (by decide)
    have h := ne (d := 'h') (by decide)
    simp at mem
    rcases mem with rfl | rfl | rfl | rfl <;> simp [r, h]
  have noHash : c ≠ '#' := by
    rintro rfl
    exact noSign rfl
  simp [TokenType.looksLikeColour, isColourFunction, noHead, noHash]

theorem splitNumber?_eq_none {s : List Char} {c : Char} (first : s.head? = some c) (noMinus : c ≠ '-')
    (noDigit : isDigit c = false) : splitNumber? s = none := by
  cases s with
  | nil => cases first
  | cons c' s =>
      cases first
      simp [splitNumber?, Numeral.splitMinus, noMinus, noDigit]

/-! ## Numbers -/

/-- Nothing, or a point with digits behind it. -/
inductive IsFraction : List Char → Prop
  | none : IsFraction []
  | point {digits : List Char} (some_ : digits ≠ []) (all : ∀ c ∈ digits, isDigit c = true) :
      IsFraction ('.' :: digits)

/-- A number without its sign. -/
inductive IsUnsigned : List Char → Prop
  | parts {whole fraction : List Char} (some_ : whole ≠ []) (all : ∀ c ∈ whole, isDigit c = true)
      (isFraction : IsFraction fraction) : IsUnsigned (whole ++ fraction)

/-- A number as a quantity may start with it. -/
inductive IsNumber : List Char → Prop
  | positive {body : List Char} (isUnsigned : IsUnsigned body) : IsNumber body
  | negative {body : List Char} (isUnsigned : IsUnsigned body) : IsNumber ('-' :: body)

/-- What cannot be taken for more of a number: it starts with no digit and no point. -/
def Stops (rest : List Char) : Prop :=
  ∀ c ∈ rest.head?, isDigit c = false ∧ c ≠ '.'

theorem splitFraction_append_of_stops {fraction rest : List Char} (isFraction : IsFraction fraction)
    (stops : Stops rest) : splitFraction (fraction ++ rest) = (fraction, rest) := by
  cases isFraction with
  | none =>
      unfold splitFraction
      split
      · rename_i pointed
        rw [List.nil_append] at pointed
        exact absurd rfl (stops '.' (by simp [pointed])).2
      · rfl
  | @point digits some_ all =>
      obtain ⟨taken, left⟩ := span_append all rest fun c mem => (stops c mem).1
      show splitFraction ('.' :: (digits ++ rest)) = _
      simp [splitFraction, taken, left, some_]

theorem exists_of_splitFraction {s fraction rest : List Char} (splits : splitFraction s = (fraction, rest)) :
    s = fraction ++ rest ∧ IsFraction fraction := by
  unfold splitFraction at splits
  split at splits
  · rename_i behind
    split at splits
    · cases splits
      exact ⟨rfl, .none⟩
    · rename_i some_
      cases splits
      exact ⟨by simp, .point (by simpa using some_) fun c mem => List.mem_takeWhile_imp mem⟩
  · cases splits
    exact ⟨rfl, .none⟩

theorem splitMinus_of_isUnsigned {body : List Char} (isUnsigned : IsUnsigned body) (rest : List Char) :
    Numeral.splitMinus (body ++ rest) = (false, body ++ rest) := by
  cases isUnsigned with
  | @parts whole fraction some_ all isFraction =>
      cases whole with
      | nil => exact absurd rfl some_
      | cons c whole =>
          have noMinus : c ≠ '-' := by
            rintro rfl
            exact absurd (all '-' (by simp)) (by decide +kernel)
          simp [Numeral.splitMinus, noMinus]

/-- **A number is read as far as it goes.** -/
theorem splitNumber?_append_of_stops {number rest : List Char} (isNumber : IsNumber number)
    (stops : Stops rest) : splitNumber? (number ++ rest) = some (number, rest) := by
  have unsigned {body : List Char} (isUnsigned : IsUnsigned body) :
      (body ++ rest).takeWhile isDigit ≠ [] ∧
        body = (body ++ rest).takeWhile isDigit ++
          (splitFraction ((body ++ rest).dropWhile isDigit)).1 ∧
        (splitFraction ((body ++ rest).dropWhile isDigit)).2 = rest := by
    cases isUnsigned with
    | @parts whole fraction some_ all isFraction =>
        have ends : ∀ c ∈ (fraction ++ rest).head?, isDigit c = false := by
          intro c mem
          cases isFraction with
          | none => exact (stops c mem).1
          | point =>
              cases mem
              decide +kernel
        obtain ⟨taken, left⟩ := span_append all (fraction ++ rest) ends
        rw [List.append_assoc, taken, left, splitFraction_append_of_stops isFraction stops]
        exact ⟨some_, rfl, rfl⟩
  cases isNumber with
  | positive isUnsigned =>
      obtain ⟨some_, parts, left⟩ := unsigned isUnsigned
      unfold splitNumber?
      rw [splitMinus_of_isUnsigned isUnsigned]
      simp [some_, ← parts, left]
  | @negative body isUnsigned =>
      obtain ⟨some_, parts, left⟩ := unsigned isUnsigned
      have minus : Numeral.splitMinus ('-' :: body ++ rest) = (true, body ++ rest) := rfl
      unfold splitNumber?
      rw [minus]
      simp [some_, ← parts, left]

theorem exists_of_splitNumber? {s number rest : List Char} (splits : splitNumber? s = some (number, rest)) :
    s = number ++ rest ∧ IsNumber number := by
  obtain ⟨negative, body, minus, spelled⟩ : ∃ negative body, Numeral.splitMinus s = (negative, body) ∧
      s = (if negative then ['-'] else []) ++ body := by
    refine ⟨_, _, rfl, ?_⟩
    split <;> rfl
  unfold splitNumber? at splits
  rw [minus] at splits
  cases fractioned : splitFraction (body.dropWhile isDigit) with
  | mk fraction left =>
      simp only [fractioned] at splits
      split at splits
      · cases splits
      · rename_i some_
        cases splits
        obtain ⟨dropped, isFraction⟩ := exists_of_splitFraction fractioned
        have whole : body = body.takeWhile isDigit ++ fraction ++ rest := by
          rw [List.append_assoc, ← dropped, List.takeWhile_append_dropWhile]
        have isUnsigned : IsUnsigned (body.takeWhile isDigit ++ fraction) :=
          .parts (by simpa using some_) (fun c mem => List.mem_takeWhile_imp mem) isFraction
        cases negative with
        | true => exact ⟨by rw [spelled]; simp [← whole], .negative isUnsigned⟩
        | false => exact ⟨by rw [spelled]; simp [← whole], .positive isUnsigned⟩

/-- **Every number has a value.** -/
theorem exists_readDecimal? {number : List Char} (isNumber : IsNumber number) :
    ∃ x, Numeral.readDecimal? number = some x := by
  have unsigned {body : List Char} (isUnsigned : IsUnsigned body) (negative : Bool)
      (minus : Numeral.splitMinus number = (negative, body)) :
      ∃ x, Numeral.readDecimal? number = some x := by
    cases isUnsigned with
    | @parts whole fraction some_ all isFraction =>
        unfold Numeral.readDecimal?
        rw [minus]
        cases isFraction with
        | none =>
            obtain ⟨taken, left⟩ := span_append all [] (by simp)
            dsimp only
            rw [taken, left]
            simp [some_]
        | @point digits _ digitsAll =>
            have point : isDigit '.' = false := by decide +kernel
            obtain ⟨taken, left⟩ := span_append all ('.' :: digits) (by simp [point])
            dsimp only
            rw [taken, left]
            simpa [some_] using digitsAll
  cases isNumber with
  | positive isUnsigned =>
      exact unsigned isUnsigned false (by simpa using splitMinus_of_isUnsigned isUnsigned [])
  | negative isUnsigned => exact unsigned isUnsigned true rfl

theorem IsNumber.ne_nil {number : List Char} (isNumber : IsNumber number) : number ≠ [] := by
  cases isNumber with
  | positive isUnsigned =>
      cases isUnsigned with
      | parts some_ => simp [some_]
  | negative => simp

/-- The characters of a number are digits, signs and points. -/
theorem IsNumber.mem {number : List Char} (isNumber : IsNumber number) :
    ∀ c ∈ number, isDigit c = true ∨ c = '-' ∨ c = '.' := by
  have unsigned {body : List Char} (isUnsigned : IsUnsigned body) :
      ∀ c ∈ body, isDigit c = true ∨ c = '.' := by
    cases isUnsigned with
    | @parts whole fraction _ all isFraction =>
        intro c mem
        rcases List.mem_append.1 mem with inWhole | inFraction
        · exact .inl (all c inWhole)
        · cases isFraction with
          | none => cases inFraction
          | point _ digitsAll => exact (List.mem_cons.1 inFraction).symm.imp_left (digitsAll c)
  intro c mem
  cases isNumber with
  | positive isUnsigned => exact (unsigned isUnsigned c mem).imp_right .inr
  | negative isUnsigned =>
      rcases List.mem_cons.1 mem with rfl | inBody
      · exact .inr (.inl rfl)
      · exact (unsigned isUnsigned c inBody).imp_right .inr

/-- Nothing that starts with a number looks like a colour. -/
theorem IsNumber.looksLikeColour_append {number : List Char} (isNumber : IsNumber number)
    (rest : List Char) : TokenType.looksLikeColour (number ++ rest) = false := by
  cases number with
  | nil => exact absurd rfl isNumber.ne_nil
  | cons c number =>
      apply looksLikeColour_eq_false
      rcases isNumber.mem c List.mem_cons_self with digit | rfl | rfl
      · exact CodeRanges.not_contains_of_apart (a := decimalDigits) (by decide +kernel) digit
      · decide
      · decide

theorem IsNumber.not_isBlank {number : List Char} (isNumber : IsNumber number) :
    ∀ c ∈ number, isBlank c = false := by
  intro c mem
  rcases isNumber.mem c mem with digit | rfl | rfl
  · rw [Bool.eq_false_iff]
    intro blank
    rw [not_isDigit_of_isBlank blank] at digit
    cases digit
  · decide
  · decide

theorem afterLooseNumber?_of_splitNumber? {s number rest : List Char}
    (splits : splitNumber? s = some (number, rest)) :
    afterLooseNumber? (Numeral.splitMinus s).2 = some rest := by
  unfold splitNumber? at splits
  dsimp only at splits
  split at splits
  · cases splits
  · rename_i digits
    cases splits
    unfold afterLooseNumber?
    dsimp only
    split
    · rename_i empty
      rw [if_neg digits, empty]
    · rename_i fraction
      rw [fraction]

/-! ## Quantities -/

theorem isEnd_iff (s : List Char) : isEnd s = true ↔ s = [] ∨ s = ['\n'] := by
  simp [isEnd]

theorem stops_of_isEnd {s : List Char} (atEnd : isEnd s = true) : Stops s := by
  rcases (isEnd_iff s).1 atEnd with rfl | rfl
  · exact nofun
  · intro c mem
    cases mem
    decide +kernel

theorem Stops.append {s rest : List Char} (stops : Stops s) (behind : s = [] → Stops rest) :
    Stops (s ++ rest) := by
  cases s with
  | nil => exact behind rfl
  | cons c s => exact stops

/-- What may stand behind a number as its unit, be it nothing: the number does not go on with it, and the
line feed that may end the text is no part of it. -/
structure IsUnit (unit : String) : Prop where
  stops : Stops unit.toList
  oneLine : '\n' ∉ unit.toList

theorem isUnit_of_mem (unit : String) (known : unit ∈ dimensionUnits ++ durationUnits ++ [""]) :
    IsUnit unit := by
  have fine : (dimensionUnits ++ durationUnits ++ [""]).all (fun unit =>
      (unit.toList.head?.all fun c => !isDigit c && c != '.') && !unit.toList.contains '\n') = true := by
    decide +kernel
  obtain ⟨starts, oneLine⟩ := Bool.and_eq_true_iff.1 (List.all_eq_true.1 fine unit known)
  refine ⟨fun c mem => ?_, by simpa using oneLine⟩
  rw [Option.mem_def.1 mem] at starts
  simpa using starts

theorem IsUnit.stops_append {unit : String} (isUnit : IsUnit unit) {end_ : List Char}
    (atEnd : isEnd end_ = true) : Stops (unit.toList ++ end_) :=
  isUnit.stops.append fun _ => stops_of_isEnd atEnd

/-- The unit is told from the end of the text behind it. -/
theorem IsUnit.eq_of_append_eq {unit unit' : String} (isUnit : IsUnit unit) (isUnit' : IsUnit unit')
    {end_ end_' : List Char} (atEnd : isEnd end_ = true) (atEnd' : isEnd end_' = true)
    (same : unit.toList ++ end_ = unit'.toList ++ end_') : unit = unit' := by
  have cut {unit : String} (isUnit : IsUnit unit) {end_ : List Char} (atEnd : isEnd end_ = true) :
      (unit.toList ++ end_).takeWhile (· != '\n') = unit.toList := by
    have inLine : ∀ c ∈ unit.toList, (c != '\n') = true := by
      intro c mem
      rw [bne_iff_ne]
      rintro rfl
      exact isUnit.oneLine mem
    refine (span_append inLine end_ fun c mem => ?_).1
    rcases (isEnd_iff end_).1 atEnd with rfl | rfl
    · cases mem
    · cases mem
      rfl
  have sameUnit : unit.toList = unit'.toList := by rw [← cut isUnit atEnd, same, cut isUnit' atEnd']
  exact String.toList_inj.1 sameUnit

section Quantity

variable {units : List String} (areUnits : ∀ unit ∈ units, IsUnit unit)

include areUnits

theorem unit?_eq_some_iff {rest : List Char} {unit : String} :
    unit? units rest = some unit ↔
      unit ∈ units ∧ ∃ end_, isEnd end_ = true ∧ rest = unit.toList ++ end_ := by
  have ends {unit : String} (found : unit? units rest = some unit) :
      unit ∈ units ∧ ∃ end_, isEnd end_ = true ∧ rest = unit.toList ++ end_ := by
    have isRest : rest = unit.toList ∨ rest = unit.toList ++ ['\n'] := by
      simpa using List.find?_some found
    exact ⟨List.mem_of_find?_eq_some found, by simpa [isEnd_iff] using isRest⟩
  refine ⟨ends, ?_⟩
  rintro ⟨known, end_, atEnd, rfl⟩
  cases found : unit? units (unit.toList ++ end_) with
  | none =>
      have other := List.find?_eq_none.1 found unit known
      rcases (isEnd_iff end_).1 atEnd with rfl | rfl
      · simp at other
      · simp at other
  | some unit' =>
      obtain ⟨known', end_', atEnd', same⟩ := ends found
      rw [(areUnits unit' known').eq_of_append_eq (areUnits unit known) atEnd' atEnd same.symm]

/-- **The grammar of quantities**: a number, a unit, and the end of the text. -/
theorem quantity?_eq_some_iff {s number : List Char} {unit : String} :
    quantity? units s = some (number, unit) ↔
      IsNumber number ∧ unit ∈ units ∧
        ∃ end_, isEnd end_ = true ∧ s = number ++ (unit.toList ++ end_) := by
  constructor
  · intro reads
    unfold quantity? at reads
    split at reads
    · rename_i number' rest splits
      obtain ⟨unit', found, same⟩ := Option.map_eq_some_iff.1 reads
      cases same
      obtain ⟨spelled, isNumber⟩ := exists_of_splitNumber? splits
      obtain ⟨known, end_, atEnd, rfl⟩ := (unit?_eq_some_iff areUnits).1 found
      exact ⟨isNumber, known, end_, atEnd, spelled⟩
    · cases reads
  · rintro ⟨isNumber, known, end_, atEnd, rfl⟩
    have found : unit? units (unit.toList ++ end_) = some unit :=
      (unit?_eq_some_iff areUnits).2 ⟨known, end_, atEnd, rfl⟩
    unfold quantity?
    rw [splitNumber?_append_of_stops isNumber ((areUnits unit known).stops_append atEnd)]
    simp [found]

end Quantity

/-- A number that is all of a text is a quantity without a unit. -/
theorem isSome_number?_eq (s : List Char) : (number? s).isSome = (quantity? [""] s).isSome := by
  unfold number? quantity?
  cases splits : splitNumber? s with
  | none => rfl
  | some parts =>
      obtain ⟨number, rest⟩ := parts
      obtain ⟨x, hasValue⟩ := exists_readDecimal? (exists_of_splitNumber? splits).2
      have sameEnd : (unit? [""] rest).isSome = isEnd rest := by
        rw [Bool.eq_iff_iff, isEnd_iff]
        simp [unit?]
      simp only [Option.isSome_map, sameEnd]
      split
      · rename_i atEnd
        rw [atEnd, hasValue]
        rfl
      · rename_i notAtEnd
        rw [Bool.eq_false_iff.2 notAtEnd]
        rfl

/-- A text is a quantity in one way. -/
theorem quantity_unique {number number' end_ end_' : List Char} {unit unit' : String}
    (isNumber : IsNumber number) (isNumber' : IsNumber number') (isUnit : IsUnit unit)
    (isUnit' : IsUnit unit') (atEnd : isEnd end_ = true) (atEnd' : isEnd end_' = true)
    (same : number ++ (unit.toList ++ end_) = number' ++ (unit'.toList ++ end_')) :
    number = number' ∧ unit = unit' := by
  -- A reader that knows both units finds but one of them.
  have areUnits : ∀ u ∈ [unit, unit'], IsUnit u := by simp [isUnit, isUnit']
  have reads : quantity? [unit, unit'] (number ++ (unit.toList ++ end_)) = some (number, unit) :=
    (quantity?_eq_some_iff areUnits).2 ⟨isNumber, by simp, end_, atEnd, rfl⟩
  have reads' : quantity? [unit, unit'] (number ++ (unit.toList ++ end_)) = some (number', unit') :=
    (quantity?_eq_some_iff areUnits).2 ⟨isNumber', by simp, end_', atEnd', same⟩
  rw [reads] at reads'
  cases reads'
  exact ⟨rfl, rfl⟩

/-! ## Dimensions -/

theorem all_isUnitLetter_of_mem_units :
    ∀ unit ∈ dimensionUnits, unit.toList ≠ [] ∧ unit.toList.all isUnitLetter = true := by
  decide

theorem not_isBlank_of_isUnitLetter {c : Char} (letter : isUnitLetter c = true) : isBlank c = false := by
  have le_iff (a b : Char) : a ≤ b ↔ a.toNat ≤ b.toNat := Iff.rfl
  have code : 97 ≤ c.toNat ∧ c.toNat ≤ 122 ∨ 65 ≤ c.toNat ∧ c.toNat ≤ 90 ∨ c.toNat = 37 := by
    simp only [isUnitLetter, Bool.or_eq_true, Bool.and_eq_true, decide_eq_true_eq, le_iff,
      Char.reduceToNat, beq_iff_eq] at letter
    rcases letter with (small | capital) | rfl
    · exact .inl small
    · exact .inr (.inl capital)
    · exact .inr (.inr rfl)
  rw [isBlank, ← Bool.not_eq_true, CodeRanges.contains_iff]
  simp only [blanks, List.mem_cons, List.not_mem_nil, or_false, exists_eq_or_imp, exists_eq_left]
  omega

/-- What follows the number of a standard dimension is letters and then blanks, with blanks behind. -/
theorem isEmpty_after_unit {unit tail : List Char} (nonempty : unit ≠ [])
    (letters : ∀ c ∈ unit, isUnitLetter c = true) (blank : ∀ c ∈ tail, isBlank c = true) :
    (dropBlanks ((dropBlanks (unit ++ tail)).dropWhile isUnitLetter)).isEmpty = true := by
  have front : dropBlanks (unit ++ tail) = unit ++ tail := by
    cases unit with
    | nil => exact absurd rfl nonempty
    | cons c unit =>
        exact List.dropWhile_cons_of_neg
          (by simp [not_isBlank_of_isUnitLetter (letters c List.mem_cons_self)])
  have behind : tail.dropWhile isUnitLetter = tail := by
    cases tail with
    | nil => rfl
    | cons c tail =>
        refine List.dropWhile_cons_of_neg fun letter => ?_
        have notBlank := not_isBlank_of_isUnitLetter letter
        rw [blank c List.mem_cons_self] at notBlank
        cases notBlank
  rw [front, List.dropWhile_append_of_pos letters, behind, List.isEmpty_iff, dropBlanks,
    List.dropWhile_eq_nil_iff]
  exact blank

theorem isBlank_of_isEnd {s : List Char} (atEnd : isEnd s = true) : ∀ c ∈ s, isBlank c = true := by
  rcases (isEnd_iff s).1 atEnd with rfl | rfl
  · exact nofun
  · intro c mem
    rw [List.mem_singleton.1 mem]
    decide

/-- **The grammar of dimensions**: a number, a standard unit, and the end of the text. -/
theorem dimension?_eq_some_iff {s number : List Char} {unit : String} :
    dimension? s = some (number, unit) ↔
      IsNumber number ∧ unit ∈ dimensionUnits ∧
        ∃ end_, isEnd end_ = true ∧ s = number ++ (unit.toList ++ end_) :=
  quantity?_eq_some_iff fun unit known => isUnit_of_mem unit (by simp [known])

/-- Trimming a dimension takes nothing off but the line feed that may end it. -/
theorem dimension?_trim {s number : List Char} {unit : String} (reads : dimension? s = some (number, unit)) :
    dimension? (trim s) = some (number, unit) := by
  obtain ⟨isNumber, known, end_, atEnd, rfl⟩ := dimension?_eq_some_iff.1 reads
  obtain ⟨-, letters⟩ := all_isUnitLetter_of_mem_units unit known
  have noBlank : ∀ c ∈ number ++ unit.toList, isBlank c = false := by
    intro c mem
    rcases List.mem_append.1 mem with inNumber | inUnit
    · exact isNumber.not_isBlank c inNumber
    · exact not_isBlank_of_isUnitLetter (List.all_eq_true.1 letters c inUnit)
  rw [← List.append_assoc, trim_append_of_blank (by simp [isNumber.ne_nil]) noBlank (isBlank_of_isEnd atEnd)]
  exact dimension?_eq_some_iff.2 ⟨isNumber, known, [], rfl, by simp⟩

/-- A standard dimension with blanks at its ends is a loose one. -/
theorem isLooseDimension_of_trim {s : List Char} (reads : (dimension? (trim s)).isSome = true) :
    isLooseDimension s = true := by
  obtain ⟨⟨number, unit⟩, reads⟩ := Option.isSome_iff_exists.1 reads
  obtain ⟨isNumber, known, end_, atEnd, spelled⟩ := dimension?_eq_some_iff.1 reads
  obtain ⟨tail, front, blank⟩ := exists_dropBlanks_eq s
  obtain ⟨nonempty, letters⟩ := all_isUnitLetter_of_mem_units unit known
  have isUnit : IsUnit unit := isUnit_of_mem unit (by simp [known])
  have stops : Stops (unit.toList ++ (end_ ++ tail)) := isUnit.stops.append fun none => absurd none nonempty
  have splits := splitNumber?_append_of_stops isNumber stops
  rw [isLooseDimension, front, spelled, List.append_assoc, List.append_assoc,
    afterLooseNumber?_of_splitNumber? splits]
  refine isEmpty_after_unit nonempty (List.all_eq_true.1 letters) fun c mem => ?_
  exact (List.mem_append.1 mem).elim (isBlank_of_isEnd atEnd c) (blank c)

end Spelling

end DesignTokens
