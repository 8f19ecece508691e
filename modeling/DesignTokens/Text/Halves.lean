/-
# DesignTokens.Text.Halves -- lone halves of surrogate pairs

A text may be spelled in codes, and a character above U+FFFF by two of them, the halves of a pair.  A
half that stands alone is no character, but a text in codes can hold it all the same.  Here a stand-in
holds its place: a character for private use that stands for nothing else.  `Halves` says which
character stands for which half.  So a text with lone halves is cut, joined and compared as any other.

Such a text has no bytes in UTF-8.  The first run of lone halves in it (`Halves.tear?`) is what an
encoder stops at.
-/
import DesignTokens.Text.Quoted

namespace DesignTokens

set_option autoImplicit false

/-- Halves of pairs, each with the character that stands for it. -/
abbrev Halves := List (Nat × Char)

namespace Halves

/-- The character that stands for a half; the replacement character if none does. -/
def standIn (halves : Halves) (half : Nat) : Char :=
  (halves.lookup half).getD '\uFFFD'

/-- The half that a character stands for. -/
def half? (halves : Halves) (c : Char) : Option Nat :=
  (halves.find? fun p => p.2 == c).map (·.1)

/-! ## Stand-ins -/

/-- The first of some characters in a row, from a code on, that is not taken. -/
def firstFree (taken : List Char) : Nat → Nat → Char
  | 0, _ => '\uFFFD'
  | count + 1, code =>
      if taken.contains (Char.ofNat code) then firstFree taken count (code + 1) else Char.ofNat code

/-- The last two planes are for private use. -/
def privateFrom : Nat := 0xF0000

def privateCount : Nat := 0x20000

def fresh (taken : List Char) : Char :=
  firstFree taken privateCount privateFrom

/-- Gives each half a stand-in of its own that is not taken. -/
def choose (taken : List Char) : List Nat → Halves
  | [] => []
  | half :: rest =>
      let chosen := choose taken rest
      if (chosen.lookup half).isSome then chosen
      else (half, fresh (chosen.map Prod.snd ++ taken)) :: chosen

/-! ## Texts without bytes -/

/-- A run of lone halves in a text; `half` is the first of the run. -/
structure Tear where
  half : Nat
  start : Nat
  stop : Nat
  deriving DecidableEq, Repr

namespace Tear

def place (t : Tear) : String :=
  if t.stop - t.start ≤ 1 then
    s!"character '\\u{String.ofList (Text.hexDigits 4 t.half)}' in position {t.start}"
  else s!"characters in position {t.start}-{t.stop - 1}"

def message (t : Tear) : String :=
  s!"'utf-8' codec can't encode {t.place}: surrogates not allowed"

end Tear

/-- The first run of lone halves in a text that starts at a position. -/
def tearFrom? (halves : Halves) (position : Nat) : List Char → Option Tear
  | [] => none
  | c :: rest =>
      match halves.half? c with
      | some half =>
          let run := rest.takeWhile fun d => (halves.half? d).isSome
          some ⟨half, position, position + 1 + run.length⟩
      | none => tearFrom? halves (position + 1) rest

/-- What keeps a text from having bytes in UTF-8. -/
def tear? (halves : Halves) (text : String) : Option Tear :=
  halves.tearFrom? 0 text.toList

/-- A text has bytes if no character of it stands for a half. -/
theorem tear?_eq_none_iff {halves : Halves} {text : String} :
    halves.tear? text = none ↔ ∀ c ∈ text.toList, halves.half? c = none := by
  have from_iff (position : Nat) (s : List Char) :
      halves.tearFrom? position s = none ↔ ∀ c ∈ s, halves.half? c = none := by
    induction s generalizing position with
    | nil => simp [tearFrom?]
    | cons c s ih =>
        rw [tearFrom?, List.forall_mem_cons]
        cases halves.half? c with
        | none => simp [ih]
        | some half => simp
  exact from_iff 0 text.toList

theorem tear?_nil (text : String) : tear? [] text = none :=
  tear?_eq_none_iff.2 fun _ _ => rfl

end Halves

end DesignTokens
