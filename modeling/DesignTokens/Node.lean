/-
# DesignTokens.Node -- tokens, groups and nested clusters

Every walk over a document asks the same questions of an object, and this is where they are
answered.  A key that starts with `$` is metadata; the other keys are children.  A token carries
its value under `$value` or the older `value`.  An object without children counts as a token too,
so that its missing value is reported.  Any other object is a group, and a nested cluster if one of
its children looks like a token.
-/
import DesignTokens.TokenType

namespace DesignTokens

set_option autoImplicit false

namespace Key

def value : String := "$value"
def legacyValue : String := "value"
def type : String := "$type"
def legacyType : String := "type"
def description : String := "$description"
def legacyDescription : String := "description"
def schema : String := "$schema"
def brand : String := "brand"

/-- Metadata keys start with a dollar sign. -/
def isMeta (key : String) : Bool :=
  key.toList.head? == some '$'

/-- Children under these keys stand for the group itself. -/
def isDefault (key : String) : Bool :=
  key == "DEFAULT" || key == "default" || key == "base"

end Key

/-- What an object is. -/
inductive NodeKind where
  | token
  | group
  | nestedTokens
  deriving DecidableEq, Repr

namespace NodeKind

def name : NodeKind → String
  | token => "token"
  | group => "group"
  | nestedTokens => "nested_tokens"

end NodeKind

namespace Members

/-- The members that are not metadata. -/
def children (ms : Members) : Members :=
  ms.filter fun m => !Key.isMeta m.1

def childKeys (ms : Members) : List String :=
  ms.children.keys

/-- The key that holds the value; `$value` goes before the older spelling. -/
def valueKey? (ms : Members) : Option String :=
  if ms.has Key.value then some Key.value
  else if ms.has Key.legacyValue then some Key.legacyValue
  else none

def hasValue (ms : Members) : Bool :=
  ms.valueKey?.isSome

/-- The value of a token; null if there is none. -/
def tokenValue (ms : Members) : Json :=
  match ms.valueKey? with
  | some key => (ms.get? key).getD .null
  | none => .null

/-- The type a group hands down. -/
def groupType? (ms : Members) : Option TokenType :=
  (ms.get? Key.type).bind TokenType.ofTag?

/-- The type a token names itself: by `$type` if it has one, known or not, else by the older
spelling. -/
def declaredType? (ms : Members) : Option TokenType :=
  match ms.get? Key.type with
  | some tag => TokenType.ofTag? tag
  | none => (ms.get? Key.legacyType).bind TokenType.ofTag?

def isToken (ms : Members) : Bool :=
  ms.hasValue || ms.childKeys.isEmpty

end Members

namespace Json

def hasValue : Json → Bool
  | .obj ms => Members.hasValue ms
  | _ => false

/-- A child that carries a value or a type tag. -/
def looksLikeToken : Json → Bool
  | .obj ms => Members.hasValue ms || Members.has ms Key.type
  | _ => false

end Json

def Members.kind (ms : Members) : NodeKind :=
  if ms.isToken then .token
  else if ms.children.any (·.2.looksLikeToken) then .nestedTokens
  else .group

/-- Whether a root entry holds tokens: an object that is neither metadata nor the brand block. -/
def isTokenGroup (key : String) (value : Json) : Bool :=
  !Key.isMeta key && key != Key.brand && value.isObject

end DesignTokens
