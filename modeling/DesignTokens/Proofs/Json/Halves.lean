/-
# DesignTokens.Proofs.Json.Halves -- lone halves are kept

A string is read from codes, and a half that has no partner among them is held by a stand-in.  The
stand-ins of a text are told from every character that it spells (`Halves.Tells`): they are neither in
the text nor joined by two of its escapes, and what else an escape spells is no character for private
use.  So a string that was read still has the code points that were spelled, lone halves included
(`readString_codes`), and it has no bytes if one of them is a half (`tear?_eq_none_iff_of_readString`).
All this asks for is room in the last two planes, one character for each half (`HasRoom`).
-/
import DesignTokens.Proofs.Json.Refusals
import DesignTokens.Proofs.Json.Scalars
import Mathlib.Data.List.Dedup
import Mathlib.Data.List.Perm.Subperm

namespace DesignTokens

set_option autoImplicit false

namespace Halves

/-- The code that a character stands for, its own or that of a half. -/
def code (halves : Halves) (c : Char) : Nat :=
  (halves.half? c).getD c.toNat

def isPrivate (c : Char) : Bool :=
  privateFrom ≤ c.toNat

/-! ## Free characters -/

theorem toNat_ofNat {n : Nat} (valid : n.isValidChar) : (Char.ofNat n).toNat = n := by
  unfold Char.ofNat Char.ofNatAux Char.toNat
  rw [dif_pos valid]
  rfl

theorem firstFree_spec {taken : List Char} {count start n : Nat} (reached : start ≤ n)
    (inside : n < start + count) (free : Char.ofNat n ∉ taken) :
    ∃ m, start ≤ m ∧ m < start + count ∧ firstFree taken count start = Char.ofNat m ∧
      Char.ofNat m ∉ taken := by
  induction count generalizing start with
  | zero => omega
  | succ count ih =>
      by_cases used : Char.ofNat start ∈ taken
      · have other : start ≠ n := by
          rintro rfl
          exact free used
        obtain ⟨m, above, below, found, unused⟩ := @ih (start + 1) (by omega) (by omega)
        exact ⟨m, by omega, by omega, by simp [firstFree, used, found], unused⟩
      · exact ⟨start, Nat.le_refl _, by omega, by simp [firstFree, used], used⟩

/-- Of characters in a row one is free if fewer are taken from their start on. -/
theorem exists_free {taken : List Char} {start count : Nat} (low : 0xDFFF < start)
    (high : start + count ≤ 0x110000) (few : taken.countP (start ≤ ·.toNat) < count) :
    ∃ n, start ≤ n ∧ n < start + count ∧ Char.ofNat n ∉ taken := by
  by_contra allTaken
  push Not at allTaken
  let row := (List.range' start count).map Char.ofNat
  have codes {n : Nat} (mem : n ∈ List.range' start count) : start ≤ n ∧ n < start + count := by
    simpa using mem
  have nodup : row.Nodup := by
    refine List.Nodup.map_on (fun m inRow n inRow' same => ?_) List.nodup_range'
    have toNat {n : Nat} (mem : n ∈ List.range' start count) : (Char.ofNat n).toNat = n := by
      obtain ⟨above, below⟩ := codes mem
      exact toNat_ofNat (.inr ⟨by omega, by omega⟩)
    rw [← toNat inRow, same, toNat inRow']
  have subset : row ⊆ taken.filter (start ≤ ·.toNat) := by
    intro c mem
    obtain ⟨n, inRow, rfl⟩ := List.mem_map.1 mem
    obtain ⟨above, below⟩ := codes inRow
    refine List.mem_filter.2 ⟨allTaken n above below, ?_⟩
    rw [toNat_ofNat (.inr ⟨by omega, by omega⟩)]
    exact decide_eq_true above
  have many := (List.subperm_of_subset nodup subset).length_le
  rw [List.length_map, List.length_range', ← List.countP_eq_length_filter] at many
  omega

theorem fresh_spec {taken : List Char} (room : taken.countP isPrivate < privateCount) :
    fresh taken ∉ taken ∧ isPrivate (fresh taken) = true := by
  obtain ⟨n, above, below, free⟩ := exists_free (by decide : 0xDFFF < privateFrom) (by decide) room
  obtain ⟨m, above, below, found, free⟩ := firstFree_spec above below free
  rw [fresh, found]
  refine ⟨free, decide_eq_true ?_⟩
  simp only [privateFrom, privateCount] at above below ⊢
  rwa [toNat_ofNat (.inr ⟨by omega, by omega⟩)]

/-! ## Stand-ins -/

variable {taken : List Char} {halves : Halves}

theorem isSome_lookup_choose_iff {spelled : List Nat} {half : Nat} :
    ((choose taken spelled).lookup half).isSome = true ↔ half ∈ spelled := by
  induction spelled with
  | nil => simp [choose]
  | cons first rest ih =>
      rw [choose, List.mem_cons, ← ih]
      split
      · rename_i known
        refine ⟨.inr, fun either => either.elim (fun same => ?_) id⟩
        rwa [same]
      · rw [List.lookup_cons]
        by_cases same : half = first
        · simp [same]
        · simp [same, beq_eq_false_iff_ne.2 same]

theorem mem_of_half?_choose {spelled : List Nat} {c : Char} {half : Nat}
    (stands : (choose taken spelled).half? c = some half) : half ∈ spelled := by
  obtain ⟨p, found, rfl⟩ := Option.map_eq_some_iff.1 stands
  have mem := List.mem_of_find?_eq_some found
  clear stands found
  induction spelled with
  | nil => cases mem
  | cons first rest ih =>
      rw [choose] at mem
      split at mem
      · exact List.mem_cons_of_mem first (ih mem)
      · rcases List.mem_cons.1 mem with rfl | mem
        · exact List.mem_cons_self
        · exact List.mem_cons_of_mem first (ih mem)

theorem length_choose_le (taken : List Char) (spelled : List Nat) :
    (choose taken spelled).length ≤ spelled.dedup.length := by
  induction spelled with
  | nil => exact Nat.le_refl _
  | cons first rest ih =>
      rw [choose]
      split
      · rename_i known
        rwa [List.dedup_cons_of_mem (isSome_lookup_choose_iff.1 known)]
      · rename_i unknown
        rw [List.dedup_cons_of_notMem fun mem => unknown (isSome_lookup_choose_iff.2 mem)]
        exact Nat.succ_le_succ ih

/-- Stand-ins that are told from the characters taken, and from each other. -/
structure Tells (taken : List Char) (halves : Halves) : Prop where
  free : ∀ p ∈ halves, p.2 ∉ taken ∧ isPrivate p.2 = true
  apart : (halves.map Prod.snd).Nodup

/-- As long as there is room for all of them, stand-ins are told apart. -/
theorem tells_choose {spelled : List Nat}
    (room : taken.countP isPrivate + spelled.dedup.length ≤ privateCount) :
    Tells taken (choose taken spelled) := by
  induction spelled with
  | nil => exact ⟨nofun, List.nodup_nil⟩
  | cons first rest ih =>
      rw [choose]
      split
      · rename_i known
        rw [List.dedup_cons_of_mem (isSome_lookup_choose_iff.1 known)] at room
        exact ih room
      · rename_i unknown
        rw [List.dedup_cons_of_notMem fun mem => unknown (isSome_lookup_choose_iff.2 mem),
          List.length_cons] at room
        have tells := ih (by omega)
        let chosen := (choose taken rest).map Prod.snd
        have few : chosen.length ≤ rest.dedup.length := by
          rw [List.length_map]
          exact length_choose_le taken rest
        have used : chosen.countP isPrivate ≤ chosen.length := List.countP_le_length
        have inRoom : (chosen ++ taken).countP isPrivate < privateCount := by
          rw [List.countP_append]
          omega
        obtain ⟨free, inPlanes⟩ := fresh_spec inRoom
        rw [List.mem_append, not_or] at free
        exact ⟨List.forall_mem_cons.2 ⟨⟨free.2, inPlanes⟩, tells.free⟩,
          List.nodup_cons.2 ⟨free.1, tells.apart⟩⟩

/-- A character that is taken, or is not for private use, stands for itself. -/
theorem Tells.code_eq_toNat (tells : Tells taken halves) {c : Char}
    (known : c ∈ taken ∨ isPrivate c = false) : halves.code c = c.toNat := by
  have none : halves.half? c = none := by
    rw [half?, Option.map_eq_none_iff, List.find?_eq_none]
    rintro p mem same
    obtain ⟨free, inPlanes⟩ := tells.free p mem
    rw [beq_iff_eq] at same
    rw [same] at free inPlanes
    rcases known with inTaken | other
    · exact free inTaken
    · rw [inPlanes] at other
      cases other
  rw [code, none, Option.getD_none]

/-- A stand-in stands for its half. -/
theorem Tells.code_standIn (tells : Tells taken halves) {half : Nat}
    (known : (halves.lookup half).isSome = true) : halves.code (halves.standIn half) = half := by
  obtain ⟨c, chosen⟩ := Option.isSome_iff_exists.1 known
  have mem : (half, c) ∈ halves := by
    obtain ⟨before, after, rfl, -⟩ := List.lookup_eq_some_iff.1 chosen
    simp
  have stands : halves.half? c = some half := by
    obtain ⟨p, found⟩ := Option.isSome_iff_exists.1
      (List.find?_isSome.2 ⟨(half, c), mem, beq_self_eq_true c⟩ : (halves.find? (·.2 == c)).isSome = true)
    have stands : p.2 = c := by simpa using List.find?_some found
    have same : p = (half, c) :=
      List.inj_on_of_nodup_map tells.apart (List.mem_of_find?_eq_some found) mem stands
    rw [half?, found, same, Option.map_some]
  rw [code, standIn, chosen, Option.getD_some, stands, Option.getD_some]

end Halves

namespace Json

/-! ## Codes in a text -/

theorem isHalf_iff {n : Nat} : isHalf n = true ↔ 0xD800 ≤ n ∧ n ≤ 0xDFFF := by
  simp [isHalf, isHighSurrogate, isLowSurrogate]
  omega

theorem not_isHalf (c : Char) : isHalf c.toNat = false := by
  rw [isHalf, not_isHighSurrogate, not_isLowSurrogate, Bool.or_false]

theorem hexCode?_eq_some {a b c d : Char} {n : Nat} (code : hexCode? a b c d = some n) :
    (∀ digit ∈ [a, b, c, d], digit ≠ '\\') ∧ n < 0x10000 := by
  simp only [hexCode?, Option.bind_eq_bind, Option.bind_eq_some_iff, Option.pure_def,
    Option.some.injEq] at code
  obtain ⟨v, isA, w, isB, x, isC, y, isD, rfl⟩ := code
  have digit {c : Char} {v : Nat} (value : Numeral.hexValue? c = some v) : c ≠ '\\' ∧ v < 16 := by
    refine ⟨?_, Numeral.hexValue?_lt value⟩
    rintro rfl
    cases value
  have first := digit isA
  have second := digit isB
  have third := digit isC
  have fourth := digit isD
  exact ⟨by simp [first, second, third, fourth], by omega⟩

theorem escapedCodes_suffix {rest s : List Char} (part : rest <:+ s) :
    escapedCodes rest <:+ escapedCodes s := by
  induction s with
  | nil =>
      cases List.suffix_nil.1 part
      exact List.suffix_rfl
  | cons c s ih =>
      rcases List.suffix_cons_iff.1 part with rfl | part
      · exact List.suffix_rfl
      · exact (ih part).trans (List.suffix_append _ _)

theorem escapedCodes_cons_of_ne {c : Char} (plain : c ≠ '\\') (rest : List Char) :
    escapedCodes (c :: rest) = escapedCodes rest := by
  have none : escapedCode? (c :: rest) = none := by
    unfold escapedCode?
    split
    · rename_i same
      exact absurd (List.cons.inj same).1 plain
    · rfl
  rw [escapedCodes, none, Option.toList_none, List.nil_append]

theorem escapedCodes_escape {a b c d : Char} {n : Nat} (code : hexCode? a b c d = some n)
    (rest : List Char) :
    escapedCodes ('\\' :: 'u' :: a :: b :: c :: d :: rest) = n :: escapedCodes rest := by
  obtain ⟨plain, -⟩ := hexCode?_eq_some code
  simp only [List.forall_mem_cons] at plain
  obtain ⟨first, second, third, fourth, -⟩ := plain
  rw [escapedCodes, escapedCode?, code, escapedCodes_cons_of_ne (by decide), escapedCodes_cons_of_ne first,
    escapedCodes_cons_of_ne second, escapedCodes_cons_of_ne third, escapedCodes_cons_of_ne fourth]
  rfl

theorem lt_of_mem_escapedCodes {s : List Char} {n : Nat} (mem : n ∈ escapedCodes s) : n < 0x10000 := by
  induction s with
  | nil => cases mem
  | cons c s ih =>
      rw [escapedCodes, List.mem_append, Option.mem_toList] at mem
      rcases mem with here | later
      · unfold escapedCode? at here
        split at here
        · exact (hexCode?_eq_some here).2
        · cases here
      · exact ih later

/-! ## Codes that were read -/

/-- Codes that a text spells.  A half is there by a code escape, and halves that stand together by
escapes that do. -/
structure Spelled (s : List Char) (codes : List Nat) : Prop where
  known : ∀ n ∈ codes, n ∈ escapedCodes s ∨
    ∃ c : Char, n = c.toNat ∧ (c ∈ s ∨ Halves.isPrivate c = false)
  pairs : ∀ high low, isHalf high = true → isHalf low = true → [high, low] <:+: codes →
    [high, low] <:+: escapedCodes s

namespace Spelled

variable {s rest : List Char} {codes : List Nat}

theorem mono (spelled : Spelled rest codes) (part : rest <:+ s) : Spelled s codes where
  known n mem := by
    rcases spelled.known n mem with escaped | ⟨c, same, inText | other⟩
    · exact .inl ((escapedCodes_suffix part).subset escaped)
    · exact .inr ⟨c, same, .inl (part.subset inText)⟩
    · exact .inr ⟨c, same, .inr other⟩
  pairs high low isHigh isLow pair :=
    (spelled.pairs high low isHigh isLow pair).trans (escapedCodes_suffix part).isInfix

theorem of_cons {n : Nat} (spelled : Spelled s (n :: codes)) : Spelled s codes where
  known m mem := spelled.known m (List.mem_cons_of_mem n mem)
  pairs high low isHigh isLow pair := spelled.pairs high low isHigh isLow (List.infix_cons pair)

theorem cons_char {c : Char} (spelled : Spelled s codes) (known : c ∈ s ∨ Halves.isPrivate c = false) :
    Spelled s (c.toNat :: codes) where
  known := List.forall_mem_cons.2 ⟨.inr ⟨c, rfl, known⟩, spelled.known⟩
  pairs high low isHigh isLow pair := by
    rcases List.infix_cons_iff.1 pair with starts | later
    · rw [(List.cons_prefix_cons.1 starts).1, not_isHalf] at isHigh
      cases isHigh
    · exact spelled.pairs high low isHigh isLow later

theorem cons_code {n : Nat} (spelled : Spelled s codes) (mem : n ∈ escapedCodes s)
    (next : ∀ low, isHalf low = true → [low] <+: codes → [n, low] <:+: escapedCodes s) :
    Spelled s (n :: codes) where
  known := List.forall_mem_cons.2 ⟨.inl mem, spelled.known⟩
  pairs high low isHigh isLow pair := by
    rcases List.infix_cons_iff.1 pair with starts | later
    · obtain ⟨rfl, follows⟩ := List.cons_prefix_cons.1 starts
      exact next low isLow follows
    · exact spelled.pairs high low isHigh isLow later

end Spelled

theorem consCode_eq_ok {n : Nat} {reading : Reading (List Nat)} {codes : List Nat} {after : List Char}
    (read : consCode n reading = .ok (codes, after)) :
    ∃ later, reading = .ok (later, after) ∧ codes = n :: later := by
  cases reading with
  | error e => cases read
  | ok pair =>
      cases read
      exact ⟨pair.1, rfl, rfl⟩

theorem isPrivate_of_unescapeLetter? {letter c : Char} (known : unescapeLetter? letter = some c) :
    Halves.isPrivate c = false := by
  unfold unescapeLetter? at known
  split at known <;> cases known <;> decide

section Codes

variable {opening s after : List Char} {codes : List Nat}

/-- A half that is read first is spelled first. -/
theorem prefix_escapedCodes {half : Nat} (lone : isHalf half = true) (starts : [half] <+: codes)
    (read : readCodes opening s = .ok (codes, after)) : [half] <+: escapedCodes s := by
  have notChar {c : Char} {reading : Reading (List Nat)}
      (read : consCode c.toNat reading = .ok (codes, after)) : [half] <+: escapedCodes s := by
    obtain ⟨later, -, rfl⟩ := consCode_eq_ok read
    rw [(List.cons_prefix_cons.1 starts).1, not_isHalf] at lone
    cases lone
  fun_induction readCodes opening s with
  | case2 rest =>
      cases read
      cases List.prefix_nil.1 starts
  | case4 a b c d e rest code known _ =>
      obtain ⟨later, -, rfl⟩ := consCode_eq_ok read
      rw [escapedCodes_escape known, (List.cons_prefix_cons.1 starts).1]
      exact List.prefix_append [code] _
  | case7 | case10 => exact notChar read
  | case1 | case3 | case5 | case6 | case8 | case9 => cases read

theorem spelled_of_readCodes (read : readCodes opening s = .ok (codes, after)) : Spelled s codes := by
  fun_induction readCodes opening s generalizing codes with
  | case2 rest =>
      cases read
      exact ⟨fun _ mem => absurd mem List.not_mem_nil, fun _ _ _ _ pair => by cases List.infix_nil.1 pair⟩
  | case4 a b c d e rest code known ih =>
      obtain ⟨later, reads, rfl⟩ := consCode_eq_ok read
      have part : e :: rest <:+ '\\' :: 'u' :: a :: b :: c :: d :: e :: rest :=
        List.suffix_append ['\\', 'u', a, b, c, d] _
      refine ((ih reads).mono part).cons_code ?_ fun low isLow starts => ?_
      · rw [escapedCodes_escape known]
        exact List.mem_cons_self
      · rw [escapedCodes_escape known]
        exact (List.cons_prefix_cons.2 ⟨rfl, prefix_escapedCodes isLow starts reads⟩).isInfix
  | case7 letter rest _ _ c known ih =>
      obtain ⟨later, reads, rfl⟩ := consCode_eq_ok read
      have part : rest <:+ '\\' :: letter :: rest := List.suffix_append ['\\', letter] rest
      exact ((ih reads).mono part).cons_char (.inr (isPrivate_of_unescapeLetter? known))
  | case10 c rest _ _ _ _ _ _ ih =>
      obtain ⟨later, reads, rfl⟩ := consCode_eq_ok read
      exact ((ih reads).mono (List.suffix_cons c rest)).cons_char (.inl List.mem_cons_self)
  | case1 | case3 | case5 | case6 | case8 | case9 => cases read

end Codes

/-! ## What is read -/

/-- The code points that codes spell: halves of a pair that stand together spell one. -/
def codePoints : List Nat → List Nat
  | high :: low :: rest =>
      if isHighSurrogate high && isLowSurrogate low then
        (0x10000 + (high - 0xD800) * 0x400 + (low - 0xDC00)) :: codePoints rest
      else high :: codePoints (low :: rest)
  | [code] => [code]
  | [] => []

theorem not_isLowSurrogate_of_isHighSurrogate {n : Nat} (isHigh : isHighSurrogate n = true) :
    isLowSurrogate n = false := by
  simp [isHighSurrogate, isLowSurrogate] at isHigh ⊢
  omega

theorem toNat_joinSurrogates {high low : Nat} (isHigh : isHighSurrogate high = true)
    (isLow : isLowSurrogate low = true) :
    (joinSurrogates high low).toNat = 0x10000 + (high - 0xD800) * 0x400 + (low - 0xDC00) := by
  simp only [isHighSurrogate, isLowSurrogate, Bool.and_eq_true, decide_eq_true_eq] at isHigh isLow
  exact Halves.toNat_ofNat (.inr ⟨by omega, by omega⟩)

theorem mem_joinCodes (halves : Halves) {codes : List Nat} {high low : Nat}
    (isHigh : isHighSurrogate high = true) (isLow : isLowSurrogate low = true)
    (pair : [high, low] <:+: codes) : joinSurrogates high low ∈ joinCodes halves codes := by
  have starts_iff {first second : Nat} {rest : List Nat} :
      [high, low] <+: first :: second :: rest ↔ high = first ∧ low = second := by
    simp [List.cons_prefix_cons]
  fun_induction joinCodes halves codes with
  | case1 first second rest joined ih =>
      rcases List.infix_cons_iff.1 pair with starts | later
      · obtain ⟨rfl, rfl⟩ := starts_iff.1 starts
        exact List.mem_cons_self
      · rcases List.infix_cons_iff.1 later with starts | later
        · -- the second half of a pair is not the first of another
          rw [Bool.and_eq_true, ← (List.cons_prefix_cons.1 starts).1] at joined
          exact absurd joined.2 (by simp [not_isLowSurrogate_of_isHighSurrogate isHigh])
        · exact List.mem_cons_of_mem _ (ih later)
  | case2 first second rest apart ih =>
      rcases List.infix_cons_iff.1 pair with starts | later
      · obtain ⟨rfl, rfl⟩ := starts_iff.1 starts
        exact absurd (Bool.and_eq_true_iff.2 ⟨isHigh, isLow⟩) apart
      · exact List.mem_cons_of_mem _ (ih later)
  | case3 code => cases pair.length_le.not_gt (Nat.lt_succ_self 1)
  | case4 => cases pair.length_le.not_gt (Nat.zero_lt_succ 1)

/-- Whether the last two planes have a character for each half that a text spells, besides those that
it spells itself. -/
def HasRoom (text : List Char) : Prop :=
  (text ++ joinCodes [] (escapedCodes text)).countP Halves.isPrivate +
    ((escapedCodes text).filter isHalf).dedup.length ≤ Halves.privateCount

/-- A stand-in stands for a half, and any other character for no half. -/
theorem half?_halvesOf_eq_none_iff {text : List Char} {c : Char} :
    (halvesOf text).half? c = none ↔ isHalf ((halvesOf text).code c) = false := by
  rw [Halves.code]
  cases stands : (halvesOf text).half? c with
  | none => simp [not_isHalf]
  | some half =>
      have spelled := Halves.mem_of_half?_choose stands
      simp [(List.mem_filter.1 spelled).2]

section Room

variable {text : List Char} (room : HasRoom text)
include room

theorem tells_halvesOf :
    Halves.Tells (text ++ joinCodes [] (escapedCodes text)) (halvesOf text) :=
  Halves.tells_choose room

/-- A half is told from what else the text spells, and every other code is that of a character. -/
theorem code_charOfCode {codes : List Nat} (spelled : Spelled text codes) {n : Nat} (mem : n ∈ codes) :
    (halvesOf text).code (charOfCode (halvesOf text) n) = n := by
  have tells := tells_halvesOf room
  rw [charOfCode]
  rcases spelled.known n mem with escaped | ⟨c, rfl, known⟩
  · split
    · rename_i half
      exact tells.code_standIn (Halves.isSome_lookup_choose_iff.2 (List.mem_filter.2 ⟨escaped, half⟩))
    · rename_i notHalf
      have small := lt_of_mem_escapedCodes escaped
      rw [isHalf_iff] at notHalf
      have toNat : (Char.ofNat n).toNat = n := Halves.toNat_ofNat (by unfold Nat.isValidChar; omega)
      have notPrivate : Halves.isPrivate (Char.ofNat n) = false := by
        rw [Halves.isPrivate, toNat]
        exact decide_eq_false (by simp only [Halves.privateFrom]; omega)
      rw [tells.code_eq_toNat (.inr notPrivate), toNat]
  · rw [if_neg (by simp [not_isHalf]), Char.ofNat_toNat]
    exact tells.code_eq_toNat (known.imp_left (List.mem_append_left _))

theorem map_code_joinCodes {codes : List Nat} (spelled : Spelled text codes) :
    (joinCodes (halvesOf text) codes).map (halvesOf text).code = codePoints codes := by
  fun_induction codePoints codes with
  | case1 high low rest joined ih =>
      obtain ⟨isHigh, isLow⟩ := Bool.and_eq_true_iff.1 joined
      have pair : [high, low] <:+: escapedCodes text :=
        spelled.pairs high low (by simp [isHalf, isHigh]) (by simp [isHalf, isLow])
          (List.prefix_append [high, low] rest).isInfix
      have taken := List.mem_append_right text (mem_joinCodes [] isHigh isLow pair)
      rw [joinCodes, if_pos joined, List.map_cons, (tells_halvesOf room).code_eq_toNat (.inl taken),
        toNat_joinSurrogates isHigh isLow, ih spelled.of_cons.of_cons]
  | case2 high low rest apart ih =>
      rw [joinCodes, if_neg apart, List.map_cons, code_charOfCode room spelled List.mem_cons_self,
        ih spelled.of_cons]
  | case3 code =>
      rw [joinCodes, List.map_singleton, code_charOfCode room spelled (List.mem_singleton_self code)]
  | case4 => rfl

/-- **A string that was read has the code points that were spelled**, lone halves included. -/
theorem readString_codes {rest after : List Char} {codes : List Nat} (part : rest <:+ text)
    (read : readCodes ('"' :: rest) rest = .ok (codes, after)) :
    ∃ s, readString (halvesOf text) rest = .ok (s, after) ∧
      s.toList.map (halvesOf text).code = codePoints codes := by
  refine ⟨_, by rw [readString, read], ?_⟩
  rw [String.toList_ofList]
  exact map_code_joinCodes room ((spelled_of_readCodes read).mono part)

/-- A string that was read has bytes exactly if none of its code points is a half. -/
theorem tear?_eq_none_iff_of_readString {rest after : List Char} {codes : List Nat} {s : String}
    (part : rest <:+ text) (codesRead : readCodes ('"' :: rest) rest = .ok (codes, after))
    (read : readString (halvesOf text) rest = .ok (s, after)) :
    (halvesOf text).tear? s = none ↔ ∀ n ∈ codePoints codes, isHalf n = false := by
  obtain ⟨_, same, spelled⟩ := readString_codes room part codesRead
  cases read.symm.trans same
  rw [Halves.tear?_eq_none_iff, ← spelled, List.forall_mem_map]
  exact forall₂_congr fun c _ => half?_halvesOf_eq_none_iff

end Room

example : HasRoom "\\ud83d\\ude00\\ud800".toList := by
  unfold HasRoom
  decide

end Json

end DesignTokens
