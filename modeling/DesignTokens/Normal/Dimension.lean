/-
# DesignTokens.Normal.Dimension -- structured dimensions

A dimension spelled as text becomes an object with the number and its unit.  The number is read as a
double, and written as an integer if it is whole.  `toText` is the way back.
-/
import DesignTokens.Fault
import DesignTokens.Json.Display
import DesignTokens.Spelling.Quantity

namespace DesignTokens

set_option autoImplicit false

namespace Dimension

/-- A whole number is an integer. -/
def ofDouble (x : Binary64) : Json :=
  match x.toInt? with
  | some n => .int n
  | none => .float x

/-- The structured form of a dimension, blanks around it allowed; `none` for any other text. -/
def ofText? (s : List Char) : Option Members :=
  match Spelling.dimension? (Text.trim s) with
  | some (number, unit) =>
      (Numeral.readDecimal? number).map fun x =>
        [("value", ofDouble x), ("unit", .str unit)]
  | none => none

/-- A value with its text in structured form, if that is a dimension. -/
def ofValue (value : Json) : Json :=
  match value with
  | .str s =>
    match ofText? s.toList with
    | some ms => .obj ms
    | none => value
  | _ => value

/-- The number of a dimension as text; an integer must have a double near it. -/
def numberText : Json → Except Fault String
  | .int n =>
      match Binary64.ofInt? n with
      | some _ => .ok (Json.int n).plain
      | none => .error .integerTooLarge
  | .float x => .ok (ofDouble x).plain
  | value => .ok value.plain

/-- The text of an object with a value and a unit; any other value stays as it is. -/
def toText (dimension : Json) : Except Fault Json :=
  match dimension with
  | .obj ms =>
      match Members.get? ms "value", Members.get? ms "unit" with
      | some value, some unit => do
          let number ← numberText value
          return .str (number ++ unit.plain)
      | _, _ => .ok dimension
  | _ => .ok dimension

end Dimension

end DesignTokens
