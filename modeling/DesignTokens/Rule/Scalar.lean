/-
# DesignTokens.Rule.Scalar -- values of one part

Numbers, opacities, font families, durations, easing curves and keywords.
-/
import DesignTokens.Rule.Dimension
import DesignTokens.Json.Display

namespace DesignTokens

set_option autoImplicit false

namespace Rule

def number (value : Json) (path : String) : List Diagnostic :=
  unlessAlias value <|
    if value.isNumber then []
    else [.error "NUMBER_001" path "Number value must be numeric" (some "Use a JSON number, e.g. 1.5")]

def opacity (value : Json) (path : String) : List Diagnostic :=
  unlessAlias value <|
    if !value.isNumber then
      [.error "OPACITY_001" path "Opacity value must be numeric"
        (some "Use a number between 0 and 1")]
    else if value.between 0 1 then []
    else
      [.error "OPACITY_002" path s!"Opacity {value.plain} is out of range"
        (some "Use a number between 0 and 1")]

/-- A name that is not blank, or a list of names that is not empty. -/
def isFontFamily : Json → Bool
  | .str s => !(Text.trim s.toList).isEmpty
  | .arr items => !items.isEmpty && items.all Json.isString
  | _ => false

def fontFamily (value : Json) (path : String) : List Diagnostic :=
  unlessAlias value <|
    if isFontFamily value then []
    else
      [.error "FONT_FAMILY_001" path "Font family must be a string or array of strings"
        (some "Use a font name or a stack: [\"Inter\", \"sans-serif\"]")]

def isDurationUnit : Json → Bool
  | .str unit => Spelling.durationUnits.contains unit
  | _ => false

def isDurationObject (ms : Members) : Bool :=
  ((ms.get? "value").getD .null).isNumber && isDurationUnit ((ms.get? "unit").getD .null)

def duration (value : Json) (path : String) : List Diagnostic :=
  unlessAlias value <|
    match value with
    | .int _ => []
    | .float _ => []
    | .str s =>
        if Spelling.isDuration s.toList then []
        else
          [.error "DURATION_001" path "Invalid duration format"
            (some "Use \"200ms\", \"0.5s\" or a number of milliseconds")]
    | .obj ms =>
        if isDurationObject ms then []
        else
          [(Diagnostic.error "DURATION_002" path "Invalid duration object"
              (some "Duration objects need a numeric \"value\" and a \"unit\" of ms or s")).withExample
            (.obj [("value", .int 200), ("unit", .str "ms")])]
    | _ =>
        [.error "DURATION_003" path "Invalid duration value"
          (some "Duration must be a number, string or object")]

/-! ## Easing curves -/

/-- Four numbers: the control points of an easing curve. -/
def isCurve : Json → Bool
  | .arr items => items.length == 4 && items.all Json.isNumber
  | _ => false

def badCurve (value : Json) (path : String) : List Diagnostic :=
  [(Diagnostic.error "CUBIC_BEZIER_001" path "Cubic bezier must be an array of exactly 4 numbers"
      (some "Format: [x1, y1, x2, y2], e.g. [0.4, 0, 0.2, 1]")).withActual value]

mutual

/-- An easing curve; a whole token may stand in its place, and then its value counts. -/
def cubicBezier (path : String) : Json → List Diagnostic
  | .obj ms =>
      match cubicBezierMember path ms with
      | some found => found
      | none => badCurve (.obj ms) path
  | value => unlessAlias value (if isCurve value then [] else badCurve value path)

def cubicBezierMember (path : String) : List (String × Json) → Option (List Diagnostic)
  | [] => none
  | (key, value) :: rest =>
      if key = Key.value then some (cubicBezier s!"{path}.{key}" value)
      else cubicBezierMember path rest

end

/-! ## Keywords -/

/-- A fixed set of words, sorted as messages list them. -/
structure Keywords where
  family : String
  label : String
  words : List String

namespace Keywords

def hint (k : Keywords) : String :=
  "Valid values: " ++ ", ".intercalate k.words

def isOneOf (k : Keywords) : Json → Bool
  | .str s => k.words.contains s
  | _ => false

def check (k : Keywords) (value : Json) (path : String) : List Diagnostic :=
  if k.isOneOf value then []
  else [.error (k.family ++ "_001") path s!"Invalid {k.label}: {value.shown}" (some k.hint)]

def textCase : Keywords where
  family := "TEXT_CASE"
  label := "textCase"
  words := ["capitalize", "lowercase", "none", "uppercase"]

def textDecoration : Keywords where
  family := "TEXT_DECORATION"
  label := "textDecoration"
  words := ["line-through", "none", "overline", "underline"]

def strokeStyle : Keywords where
  family := "STROKE_STYLE"
  label := "strokeStyle"
  words := ["dashed", "dotted", "double", "groove", "inset", "outset", "ridge", "solid"]

def lineCap : Keywords where
  family := "STROKE_STYLE"
  label := "lineCap"
  words := ["butt", "round", "square"]

end Keywords

def textCase (value : Json) (path : String) : List Diagnostic :=
  unlessAlias value (Keywords.textCase.check value path)

def textDecoration (value : Json) (path : String) : List Diagnostic :=
  unlessAlias value (Keywords.textDecoration.check value path)

def isFilledList : Json → Bool
  | .arr items => !items.isEmpty
  | _ => false

def strokeObject (ms : Members) (path : String) : List Diagnostic :=
  let lineCap := (ms.get? "lineCap").getD .null
  (if isFilledList ((ms.get? "dashArray").getD .null) then []
   else
    [.error "STROKE_STYLE_002" s!"{path}.dashArray"
      "Stroke style object needs a non-empty dashArray"]) ++
  (if Keywords.lineCap.isOneOf lineCap then []
   else
    [.error "STROKE_STYLE_003" s!"{path}.lineCap" s!"Invalid lineCap: {lineCap.shown}"
      (some Keywords.lineCap.hint)])

def strokeStyle (value : Json) (path : String) : List Diagnostic :=
  unlessAlias value <|
    match value with
    | .obj ms => strokeObject ms path
    | _ => Keywords.strokeStyle.check value path

end Rule

end DesignTokens
