/-
# DesignTokens.Text.Utf8 -- text from bytes

`decode` gives the text that bytes spell in UTF-8.  Bytes that spell none have a first defect: a
byte that starts no character, a character broken off by a byte that cannot follow, or one that the
end of the bytes cuts short.  `scan` walks the bytes once, with the bounds of the bytes that the
character begun still needs.
-/
import DesignTokens.Text.Quoted

namespace DesignTokens.Text

set_option autoImplicit false

namespace Utf8

inductive Flaw where
  | badStart
  | badContinuation
  | truncated
  deriving DecidableEq, Repr

namespace Flaw

def reason : Flaw → String
  | badStart => "invalid start byte"
  | badContinuation => "invalid continuation byte"
  | truncated => "unexpected end of data"

end Flaw

/-- A run of bytes that spells no character, up to the byte that does not fit; `byte` is the first
of the run. -/
structure Defect where
  byte : Nat
  start : Nat
  stop : Nat
  flaw : Flaw
  deriving DecidableEq, Repr

namespace Defect

def place (d : Defect) : String :=
  if d.stop - d.start ≤ 1 then
    s!"byte 0x{String.ofList (hexDigits 2 d.byte)} in position {d.start}"
  else s!"bytes in position {d.start}-{d.stop - 1}"

def message (d : Defect) : String :=
  s!"'utf-8' codec can't decode {d.place}: {d.flaw.reason}"

end Defect

/-- The bounds of a byte. -/
abbrev Bounds := Nat × Nat

def tail : Bounds := (0x80, 0xBF)

/-- The bounds of the bytes that must follow a first byte; no character starts with any other. -/
def following? (first : Nat) : Option (List Bounds) :=
  if first ≤ 0x7F then some []
  else if first < 0xC2 then none
  else if first ≤ 0xDF then some [tail]
  else if first = 0xE0 then some [(0xA0, 0xBF), tail]
  else if first = 0xED then some [(0x80, 0x9F), tail]
  else if first ≤ 0xEF then some [tail, tail]
  else if first = 0xF0 then some [(0x90, 0xBF), tail, tail]
  else if first ≤ 0xF3 then some [tail, tail, tail]
  else if first = 0xF4 then some [(0x80, 0x8F), tail, tail]
  else none

/-- A character begun: its first byte and where that stood. -/
structure Begun where
  byte : Nat
  start : Nat

/-- The first defect of the bytes from a position on, with what a character begun still needs. -/
def scan (position : Nat) (begun : Begun) : List Bounds → List UInt8 → Option Defect
  | [], [] => none
  | _ :: _, [] => some ⟨begun.byte, begun.start, position, .truncated⟩
  | [], b :: rest =>
      match following? b.toNat with
      | some needed => scan (position + 1) ⟨b.toNat, position⟩ needed rest
      | none => some ⟨b.toNat, position, position + 1, .badStart⟩
  | (low, high) :: needed, b :: rest =>
      if low ≤ b.toNat ∧ b.toNat ≤ high then scan (position + 1) begun needed rest
      else some ⟨begun.byte, begun.start, position, .badContinuation⟩

/-- The first defect of bytes that are no text. -/
def defect (bytes : ByteArray) : Defect :=
  (scan 0 ⟨0, 0⟩ [] bytes.toList).getD ⟨0, 0, 0, .truncated⟩

def decode (bytes : ByteArray) : Except Defect String :=
  match String.fromUTF8? bytes with
  | some text => .ok text
  | none => .error (defect bytes)

theorem decode_toUTF8 (s : String) : decode s.toUTF8 = .ok s := by
  have h : String.fromUTF8? s.toUTF8 = some s := by
    unfold String.fromUTF8?
    exact dif_pos s.isValidUTF8
  rw [decode, h]

end Utf8

end DesignTokens.Text
