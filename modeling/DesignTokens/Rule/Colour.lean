/-
# DesignTokens.Rule.Colour -- colour values

A colour is a text or an object.  Only hex colours are checked among the texts; an object needs a
colour space and its channels, a list of numbers, which may also stand under `components`.
-/
import DesignTokens.Diagnostic
import DesignTokens.Node
import DesignTokens.Spelling.Alias
import DesignTokens.Spelling.Colour

namespace DesignTokens

set_option autoImplicit false

namespace Rule

/-- A reference is not resolved, so its value is not checked. -/
def unlessAlias (value : Json) (found : List Diagnostic) : List Diagnostic :=
  if value.isAlias then [] else found

def allNumbers : Json → Bool
  | .arr items => items.all Json.isNumber
  | _ => false

/-- The channels of a colour object. -/
def channels? (ms : Members) : Option Json :=
  ((ms.get? "channels").orElse fun _ => ms.get? "components").bind Json.nonNull?

def sampleChannels : Json :=
  .arr [.float (.ofDecimal false 878 (-3)), .int 0, .float (.ofDecimal false 412 (-3))]

def colourObject (ms : Members) (path : String) : List Diagnostic :=
  match ((ms.get? "colorSpace").getD .null).isGiven, channels? ms with
  | true, some channels =>
      if allNumbers channels then []
      else
        [.error "COLOR_004" s!"{path}.channels" "Color channels must be a list of numbers"
          (some "Use values between 0 and 1, e.g. [0.878, 0, 0.412]")]
  | _, _ =>
      [((Diagnostic.error "COLOR_003" path "Invalid color object"
          (some "Color objects must have \"colorSpace\" and \"channels\"")).withActual
            (.obj ms)).withExample
          (.obj [("colorSpace", .str "srgb"), ("channels", sampleChannels)])]

def colourText (s : String) (path : String) : List Diagnostic :=
  if s.toList.head? == some '#' && !Spelling.isHexColour s.toList then
    [.error "COLOR_002" path "Invalid hex color format"
      (some "Use valid hex: #RGB, #RRGGBB, or #RRGGBBAA")]
  else []

def colour (value : Json) (path : String) : List Diagnostic :=
  unlessAlias value <|
    match value with
    | .obj ms => colourObject ms path
    | .str s => colourText s path
    | _ =>
        [.error "COLOR_001" path "Color value must be a string"
          (some "Use hex (#E00069), rgb(), or a color object with colorSpace and channels")]

end Rule

end DesignTokens
