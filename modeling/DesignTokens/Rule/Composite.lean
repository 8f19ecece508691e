/-
# DesignTokens.Rule.Composite -- values built from other values

Typography, shadows, gradients, borders and transitions are objects with required properties.
`Shape.check` asks for those and then hands over to what the type says of its parts.  A shadow may
be a list of shadows, a gradient a bare list of stops, and a reference may stand for any part.
-/
import DesignTokens.Rule.Scalar

namespace DesignTokens

set_option autoImplicit false

namespace Rule

/-- The outer form of a composite type. -/
structure Shape where
  family : String
  label : String
  required : List String
  sample : Members

namespace Shape

def hint (s : Shape) : String :=
  "Required properties: " ++ ", ".intercalate s.required

def missing (s : Shape) (ms : Members) : List String :=
  s.required.filter fun name => !ms.has name

def notAnObject (s : Shape) (path : String) : List Diagnostic :=
  [(Diagnostic.error (s.family ++ "_001") path s!"{s.label} value must be an object"
      (some s.hint)).withExample (.obj s.sample)]

/-- Checks that the required properties are there, and then the parts. -/
def object (s : Shape) (ms : Members) (path : String) (parts : List Diagnostic) :
    List Diagnostic :=
  if (s.missing ms).isEmpty then parts
  else
    [((Diagnostic.error (s.family ++ "_002") path
        (s!"{s.label} value missing required properties: " ++ ", ".intercalate (s.missing ms))
        (some s.hint)).withActual (.obj ms)).withExample (.obj s.sample)]

def typography : Shape where
  family := "TYPOGRAPHY"
  label := "Typography"
  required := ["fontFamily", "fontSize", "fontWeight", "lineHeight"]
  sample := [("fontFamily", .str "Inter"), ("fontSize", .str "16px"), ("fontWeight", .int 400),
    ("lineHeight", .float (.ofDecimal false 15 (-1)))]

def shadow : Shape where
  family := "SHADOW"
  label := "Shadow"
  required := ["color", "offsetX", "offsetY", "blur"]
  sample := [("color", .str "#00000080"), ("offsetX", .str "0px"), ("offsetY", .str "2px"),
    ("blur", .str "4px")]

def gradient : Shape where
  family := "GRADIENT"
  label := "Gradient"
  required := ["stops"]
  sample := [("stops", .arr [
    .obj [("color", .str "#E00069"), ("position", .int 0)],
    .obj [("color", .str "#111111"), ("position", .int 1)]])]

def border : Shape where
  family := "BORDER"
  label := "Border"
  required := ["color", "width", "style"]
  sample := [("color", .str "#111111"), ("width", .str "1px"), ("style", .str "solid")]

def transition : Shape where
  family := "TRANSITION"
  label := "Transition"
  required := ["duration"]
  sample := [("duration", .str "200ms"), ("delay", .str "0ms"),
    ("timingFunction", .arr [.float (.ofDecimal false 5 (-1)), .int 0, .int 1, .int 1])]

end Shape

/-- Applies a rule to a property, if it is there. -/
def property (ms : Members) (path name : String) (rule : Json → String → List Diagnostic) :
    List Diagnostic :=
  match ms.get? name with
  | some value => rule value s!"{path}.{name}"
  | none => []

def typographyParts (ms : Members) (path : String) : List Diagnostic :=
  property ms path "letterSpacing" (measure "letterSpacing") ++
    property ms path "paragraphSpacing" (measure "paragraphSpacing") ++
    property ms path "textCase" textCase ++
    property ms path "textDecoration" textDecoration

def typography (value : Json) (path : String) : List Diagnostic :=
  unlessAlias value <|
    match value with
    | .obj ms => Shape.typography.object ms path (typographyParts ms path)
    | _ => Shape.typography.notAnObject path

mutual

/-- A shadow, or a list of layers each of which is judged as a shadow in turn. -/
def shadow (path : String) : Json → List Diagnostic
  | .arr layers => shadowLayers path 0 layers
  | .obj ms => Shape.shadow.object ms path (property ms path "color" colour)
  | value => unlessAlias value (Shape.shadow.notAnObject path)

def shadowLayers (path : String) (index : Nat) : List Json → List Diagnostic
  | [] => []
  | layer :: layers => shadow s!"{path}[{index}]" layer ++ shadowLayers path (index + 1) layers

end

/-- A stop needs a colour and a position that is a number or a reference. -/
def gradientStop (stop : Json) (path : String) : List Diagnostic :=
  let incomplete : List Diagnostic :=
    [(Diagnostic.error "GRADIENT_004" path "Gradient stop needs a color and a position").withActual
      stop]
  unlessAlias stop <|
    match stop with
    | .obj ms =>
        match Members.get? ms "color", Members.get? ms "position" with
        | some _, some position =>
            if position.isAlias || position.isNumber then []
            else
              [.error "GRADIENT_005" s!"{path}.position" "Gradient stop position must be a number"]
        | _, _ => incomplete
    | _ => incomplete

def gradientStops (stops : Json) (path : String) : List Diagnostic :=
  match stops with
  | .arr (first :: rest) =>
      ((first :: rest).zipIdx.map fun (stop, index) =>
        gradientStop stop s!"{path}[{index}]").flatten
  | _ =>
      [.error "GRADIENT_003" path "Gradient stops must be a non-empty array"
        (some "Each stop looks like \x7b\"color\": \"#E00069\", \"position\": 0\x7d")]

def gradient (value : Json) (path : String) : List Diagnostic :=
  unlessAlias value <|
    match value with
    | .arr _ => gradientStops value path
    | .obj ms => Shape.gradient.object ms path (property ms path "stops" gradientStops)
    | _ => Shape.gradient.notAnObject path

def border (value : Json) (path : String) : List Diagnostic :=
  unlessAlias value <|
    match value with
    | .obj ms => Shape.border.object ms path []
    | _ => Shape.border.notAnObject path

/-- A reference, a list of four numbers, or a token of the easing type. -/
def isTiming : Json → Bool
  | .obj ms =>
      match Members.get? ms Key.type with
      | some (.str tag) => tag == TokenType.cubicBezier.name
      | _ => false
  | value => value.isAlias || isCurve value

def timing (value : Json) (path : String) : List Diagnostic :=
  if isTiming value then []
  else
    [.warning "TRANSITION_003" path "timingFunction is not a cubicBezier"
      (some "Use [x1, y1, x2, y2] or reference a cubicBezier token")]

def transition (value : Json) (path : String) : List Diagnostic :=
  unlessAlias value <|
    match value with
    | .obj ms => Shape.transition.object ms path (property ms path "timingFunction" timing)
    | _ => Shape.transition.notAnObject path

end Rule

/-- What the rule of a type finds in a value. -/
def TokenType.check (type : TokenType) (value : Json) (path : String) : List Diagnostic :=
  match type with
  | .color => Rule.colour value path
  | .dimension => Rule.measure "dimension" value path
  | .number => Rule.number value path
  | .opacity => Rule.opacity value path
  | .fontFamily => Rule.fontFamily value path
  | .fontSize => Rule.measure "fontSize" value path
  | .fontWeight => Rule.fontWeight value path
  | .lineHeight => Rule.lineHeight value path
  | .letterSpacing => Rule.measure "letterSpacing" value path
  | .paragraphSpacing => Rule.measure "paragraphSpacing" value path
  | .duration => Rule.duration value path
  | .borderRadius => Rule.measure "borderRadius" value path
  | .textCase => Rule.textCase value path
  | .textDecoration => Rule.textDecoration value path
  | .typography => Rule.typography value path
  | .shadow => Rule.shadow path value
  | .gradient => Rule.gradient value path
  | .border => Rule.border value path
  | .strokeStyle => Rule.strokeStyle value path
  | .transition => Rule.transition value path
  | .cubicBezier => Rule.cubicBezier path value

end DesignTokens
