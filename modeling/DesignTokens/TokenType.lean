/-
# DesignTokens.TokenType -- the kinds of design token

A token's type tag is one of 21 names.  `ofName?` is the inverse of `name`, so a tag outside the
vocabulary has no type (`ofName?_name`, `name_of_ofName?`).
-/
import DesignTokens.Json.Basic

namespace DesignTokens

set_option autoImplicit false

inductive TokenType where
  | color
  | dimension
  | number
  | opacity
  | fontFamily
  | fontSize
  | fontWeight
  | lineHeight
  | letterSpacing
  | paragraphSpacing
  | duration
  | borderRadius
  | textCase
  | textDecoration
  | typography
  | shadow
  | gradient
  | border
  | strokeStyle
  | transition
  | cubicBezier
  deriving DecidableEq, Repr

namespace TokenType

def name : TokenType → String
  | color => "color"
  | dimension => "dimension"
  | number => "number"
  | opacity => "opacity"
  | fontFamily => "fontFamily"
  | fontSize => "fontSize"
  | fontWeight => "fontWeight"
  | lineHeight => "lineHeight"
  | letterSpacing => "letterSpacing"
  | paragraphSpacing => "paragraphSpacing"
  | duration => "duration"
  | borderRadius => "borderRadius"
  | textCase => "textCase"
  | textDecoration => "textDecoration"
  | typography => "typography"
  | shadow => "shadow"
  | gradient => "gradient"
  | border => "border"
  | strokeStyle => "strokeStyle"
  | transition => "transition"
  | cubicBezier => "cubicBezier"

/-- Every type, in the order in which messages list them. -/
def all : List TokenType :=
  [color, dimension, number, opacity, fontFamily, fontSize, fontWeight, lineHeight, letterSpacing,
    paragraphSpacing, duration, borderRadius, textCase, textDecoration, typography, shadow,
    gradient, border, strokeStyle, transition, cubicBezier]

def ofName? (tag : String) : Option TokenType :=
  all.find? fun t => t.name == tag

/-- The type that a tag names; a tag that is no string names none. -/
def ofTag? : Json → Option TokenType
  | .str tag => ofName? tag
  | _ => none

theorem mem_all (t : TokenType) : t ∈ all := by
  cases t <;> decide

theorem name_of_ofName? {tag : String} {t : TokenType} (h : ofName? tag = some t) :
    t.name = tag := by
  simpa using List.find?_some h

theorem ofName?_name (t : TokenType) : ofName? t.name = some t := by
  cases t <;> rfl

end TokenType

end DesignTokens
