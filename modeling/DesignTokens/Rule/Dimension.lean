/-
# DesignTokens.Rule.Dimension -- values with a unit

Dimensions, font sizes, spacings and radii share one rule under different labels: a number with a
standard unit, as a text or as an object with `value` and `unit`.  Line heights may be plain
numbers, and font weights also numbers from 1 to 1000 or one of their names.
-/
import DesignTokens.Rule.Colour
import DesignTokens.Text.Case

namespace DesignTokens

set_option autoImplicit false

namespace Rule

/-- The rule for one type with a unit: the family of its identifiers, the name that messages use,
and whether a plain number will do. -/
structure Measure where
  family : String
  label : String
  allowNumbers : Bool

namespace Measure

def ofLabel (label : String) : Measure :=
  { family := "DIMENSION", label, allowNumbers := false }

def unitsHint : String :=
  "Standard units: " ++ ", ".intercalate Spelling.dimensionUnits

def isStandardUnit : Json → Bool
  | .str unit => Spelling.dimensionUnits.contains unit
  | _ => false

def object (r : Measure) (ms : Members) (path : String) : List Diagnostic :=
  match ms.get? "value", ms.get? "unit" with
  | some value, some unit =>
      (if value.isNumber then []
       else
        [.error (r.family ++ "_005") s!"{path}.value" s!"{r.label} object value must be a number"]) ++
      (if isStandardUnit unit then []
       else
        [.warning (r.family ++ "_006") s!"{path}.unit" s!"Unusual {r.label} unit" (some unitsHint)])
  | _, _ =>
      [((Diagnostic.error (r.family ++ "_004") path s!"Invalid {r.label} object"
          (some "Dimension objects must have \"value\" and \"unit\"")).withActual
            (.obj ms)).withExample (.obj [("value", .int 16), ("unit", .str "px")])]

def text (r : Measure) (s : String) (path : String) : List Diagnostic :=
  if (Spelling.dimension? s.toList).isSome then []
  else if Spelling.isLooseDimension s.toList then
    [.warning (r.family ++ "_003") path s!"Unusual {r.label} format" (some unitsHint)]
  else
    [.error (r.family ++ "_002") path s!"Invalid {r.label} format"
      (some "Use a number followed by a unit, e.g. \"16px\"")]

def check (r : Measure) (value : Json) (path : String) : List Diagnostic :=
  match value with
  | .obj ms => r.object ms path
  | .str s => r.text s path
  | _ =>
      if value.isNumber && r.allowNumbers then []
      else
        [.error (r.family ++ "_001") path s!"Invalid {r.label} value"
          (some ("Use formats like \"16px\", \"2rem\", \"100%\" or " ++
            "\x7b\"value\": 16, \"unit\": \"px\"\x7d"))]

end Measure

def measure (label : String) (value : Json) (path : String) : List Diagnostic :=
  unlessAlias value ((Measure.ofLabel label).check value path)

def lineHeight (value : Json) (path : String) : List Diagnostic :=
  unlessAlias value
    (({ family := "DIMENSION", label := "lineHeight", allowNumbers := true } : Measure).check value
      path)

def fontWeightNames : List String :=
  ["thin", "hairline", "extra-light", "ultra-light", "light", "normal", "regular", "book",
    "medium", "semi-bold", "demi-bold", "bold", "extra-bold", "ultra-bold", "black", "heavy",
    "extra-black", "ultra-black"]

def fontWeightNumber (value : Json) (path : String) : List Diagnostic :=
  if value.between 1 1000 then []
  else
    [.error "FONT_WEIGHT_007" path "Font weight out of range"
      (some "Numeric weights run from 1 to 1000")]

def fontWeight (value : Json) (path : String) : List Diagnostic :=
  let otherwise : List Diagnostic :=
    ({ family := "FONT_WEIGHT", label := "fontWeight", allowNumbers := false } : Measure).check
      value path
  unlessAlias value <|
    match value with
    | .int n => fontWeightNumber (.int n) path
    | .float x => fontWeightNumber (.float x) path
    | .str s =>
        let word := Text.lowerWord (Text.trimmed s)
        if fontWeightNames.contains word then []
        else
          match Spelling.number? word.toList with
          | some x => fontWeightNumber (.float x) path
          | none => otherwise
    | _ => otherwise

end Rule

end DesignTokens
