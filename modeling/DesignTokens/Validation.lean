/-
# DesignTokens.Validation -- checking a document

A document is an object.  Its root holds metadata under reserved keys, an optional brand block, and
token groups.  Every member of a group is a token or a group again.  A token's value is checked by
the rule of its type: the tag it carries, or else the type of the nearest group that names one.  A
token without either only has a type suggested, and one whose tag names no type is not checked.

Errors make a document invalid.  Nested clusters are listed beside the diagnostics and make it
neither.
-/
import DesignTokens.Cluster.Basic
import DesignTokens.Rule.Composite

namespace DesignTokens

set_option autoImplicit false

/-- What was found in a document. -/
structure Findings where
  errors : List Diagnostic
  warnings : List Diagnostic
  clusters : List Cluster

namespace Findings

/-- Errors and warnings apart, each in the order found. -/
def ofDiagnostics (found : List Diagnostic) (clusters : List Cluster) : Findings where
  errors := found.filter Diagnostic.isError
  warnings := found.filter (!·.isError)
  clusters

def isValid (f : Findings) : Bool :=
  f.errors.isEmpty

def isClean (f : Findings) : Bool :=
  f.errors.isEmpty && f.warnings.isEmpty && f.clusters.isEmpty

def diagnostics (f : Findings) : List Diagnostic :=
  f.errors ++ f.warnings

def toMembers (f : Findings) : Members :=
  [("valid", .bool f.isValid), ("errors", .arr (f.errors.map fun d => .obj d.toMembers)),
    ("warnings", .arr (f.warnings.map fun d => .obj d.toMembers)),
    ("structureIssues", .arr (f.clusters.map fun c => .obj c.toMembers))]

end Findings

/-- What a check asks for besides the format itself. -/
structure Validator where
  requireSchema : Bool
  schemaUrl : String

namespace Validation

/-! ## Types -/

/-- A token's own type tag, under its key: the current spelling goes before the older one. -/
def ownTag? (ms : Members) : Option (String × Json) :=
  match ms.get? Key.type with
  | some tag => some (Key.type, tag)
  | none => (ms.get? Key.legacyType).map fun tag => (Key.legacyType, tag)

/-- The type by which a token's value is checked: the one its own tag names, or without a tag the
one handed down. -/
def checkedType? (ms : Members) (inherited : Option TokenType) : Option TokenType :=
  match ownTag? ms with
  | some (_, tag) => TokenType.ofTag? tag
  | none => inherited

def typeNames : String :=
  ", ".intercalate (TokenType.all.map TokenType.name)

/-- A tag that names no type draws a warning. -/
def checkTag (tag : Json) (path : String) : List Diagnostic :=
  match TokenType.ofTag? tag with
  | some _ => []
  | none =>
      [.warning "TYPE_001" path s!"Unknown token type: \"{tag.plain}\""
        (some ("Valid types: " ++ typeNames))]

def checkGroupTag (ms : Members) (path : String) : List Diagnostic :=
  match ms.get? Key.type with
  | some tag => checkTag tag (path ++ "." ++ Key.type)
  | none => []

/-! ## Tokens -/

def missingValue (ms : Members) (path : String) : Diagnostic :=
  ((Diagnostic.error "TOKEN_002" path "Token missing \"$value\" property"
      (some "Add \"$value\": \"...\" to define the token value")).withActual (.obj ms)).withExample
    (.obj ((Key.value, .str "...") :: ms))

def legacyValue (value : Json) (path : String) : Diagnostic :=
  (Diagnostic.warning "TOKEN_003" path "Legacy value key"
    (some "Rename \"value\" to \"$value\"")).withFix (.obj [(Key.value, value)])

def legacyType (tag : Json) (path : String) : Diagnostic :=
  (Diagnostic.warning "TOKEN_004" path "Legacy type key"
    (some "Rename \"type\" to \"$type\"")).withFix (.obj [(Key.type, tag)])

def missingType (t : TokenType) (path : String) : Diagnostic :=
  (Diagnostic.warning "TOKEN_005" path s!"Missing $type - inferred as \"{t.name}\""
    (some s!"Add \"$type\": \"{t.name}\" for format compliance")).withFix
      (.obj [(Key.type, .str t.name)])

/-- The findings about a token's type: an older or unknown tag, or no tag where one can be told. -/
def checkType (ms : Members) (path : String) (inherited : Option TokenType) : List Diagnostic :=
  match ownTag? ms, inherited with
  | some (key, tag), _ =>
      (if key == Key.legacyType then [legacyType tag path] else []) ++
        checkTag tag (path ++ "." ++ key)
  | none, some _ => []
  | none, none =>
      match TokenType.infer? ms.tokenValue with
      | some t => [missingType t path]
      | none => []

/-- The findings about a token's value, which is not checked without a known type. -/
def checkValue (ms : Members) (path : String) (inherited : Option TokenType) : List Diagnostic :=
  match checkedType? ms inherited with
  | some t => t.check ms.tokenValue path
  | none => []

def checkToken (ms : Members) (path : String) (inherited : Option TokenType) : List Diagnostic :=
  match ms.valueKey? with
  | none => [missingValue ms path]
  | some key =>
      (if key == Key.legacyValue then [legacyValue ms.tokenValue path] else []) ++
        checkType ms path inherited ++ checkValue ms (path ++ "." ++ key) inherited

/-- A member that is no object, with the token it might have been meant for. -/
def notAToken (value : Json) (path : String) : Diagnostic :=
  let type : Members :=
    match TokenType.infer? value with
    | some t => [(Key.type, .str t.name)]
    | none => []
  ((Diagnostic.error "TOKEN_001" path "Token must be an object"
      (some "Format: \x7b \"$value\": \"...\", \"$type\": \"color\" \x7d")).withActual
        value).withExample (.obj ((Key.value, value) :: type))

/-! ## Groups -/

mutual

/-- The findings at a member of a group and below it. -/
def checkNode (keys : KeyChain) (inherited : Option TokenType) : Json → List Diagnostic
  | .obj ms =>
      if Members.isToken ms then checkToken ms (Path.join keys) inherited
      else
        checkGroupTag ms (Path.join keys) ++
          checkMembers keys ((Members.groupType? ms).or inherited) ms
  | value => [notAToken value (Path.join keys)]

/-- The findings in a sequence of members of the group at `keys`. -/
def checkMembers (keys : KeyChain) (inherited : Option TokenType) :
    List (String × Json) → List Diagnostic
  | [] => []
  | (name, node) :: rest =>
      (if Key.isMeta name then [] else checkNode (keys ++ [name]) inherited node) ++
        checkMembers keys inherited rest

end

def notAGroup (name : String) (value : Json) : Diagnostic :=
  (Diagnostic.error "GROUP_001" (Path.join [name]) s!"Token group \"{name}\" must be an object"
    (some (s!"\"{name}\" should contain token definitions like " ++
      "\x7b \"primary\": \x7b \"$value\": \"#E00069\" \x7d \x7d"))).withActual value

/-- The findings in a root entry that is neither metadata nor the brand block. -/
def checkEntry (name : String) (rootType : Option TokenType) (value : Json) : List Diagnostic :=
  match value with
  | .obj ms =>
      checkGroupTag ms (Path.join [name]) ++
        checkMembers [name] ((Members.groupType? ms).or rootType) ms
  | _ => [notAGroup name value]

/-! ## The root -/

/-- Metadata keys that the root may hold, sorted as messages list them. -/
def reservedKeys : List String :=
  ["$description", "$extensions", "$id", "$schema", "$type"]

def checkSchema (v : Validator) (document : Members) : List Diagnostic :=
  match document.get? Key.schema with
  | none =>
      if v.requireSchema then
        [.warning "ROOT_002" "$.$schema" "Missing $schema"
          (some s!"Add \"$schema\": \"{v.schemaUrl}\" so tools know the format")]
      else []
  | some (.str _) => []
  | some _ => [.error "ROOT_003" "$.$schema" "$schema must be a string URL"]

def checkReserved (key : String) : List Diagnostic :=
  if Key.isMeta key && !reservedKeys.contains key then
    [.warning "ROOT_004" (Path.join [key]) s!"Unknown reserved key \"{key}\""
      (some ("Reserved root keys: " ++ ", ".intercalate reservedKeys))]
  else []

def checkRoot (v : Validator) (document : Members) : List Diagnostic :=
  checkSchema v document ++ document.keys.flatMap checkReserved ++
    (match document.get? Key.type with
     | some tag => checkTag tag (Path.join [Key.type])
     | none => [])

/-- The fields that a brand block should fill. -/
def brandFields : List String := ["name"]

def checkBrand : Json → List Diagnostic
  | .obj brand =>
      (brandFields.filter fun field => !((Members.get? brand field).getD .null).isGiven).map
        fun field =>
          .warning "BRAND_002" s!"$.brand.{field}" s!"Missing brand.{field}"
            (some s!"Add brand.{field} to describe your brand")
  | _ =>
      [.error "BRAND_001" "$.brand" "Brand metadata must be an object"
        (some "brand should contain brand.name, brand.siteTitle, etc.")]

def checkDocument (v : Validator) (document : Members) : List Diagnostic :=
  checkRoot v document ++ ((document.get? Key.brand).map checkBrand).getD [] ++
    document.flatMap fun entry =>
      if Key.isMeta entry.1 || entry.1 == Key.brand then []
      else checkEntry entry.1 document.groupType? entry.2

end Validation

namespace Validator

def notADocument : Diagnostic :=
  .error "ROOT_001" "$" "Invalid JSON structure"
    (some "The file must be valid JSON and be an object")

/-- Everything found in a document. -/
def validate (v : Validator) (document : Json) : Findings :=
  match document with
  | .obj ms => .ofDiagnostics (Validation.checkDocument v ms) (clusters ms)
  | _ => .ofDiagnostics [notADocument] []

/-- What a check has to say; nothing about what is no object. -/
def log (v : Validator) (document : Json) : Log :=
  match document with
  | .obj ms =>
      let f := v.validate document
      clusterLog (clusters ms) ++
        [Log.debug (s!"Validated document: {f.errors.length} error(s), " ++
          s!"{f.warnings.length} warning(s), {f.clusters.length} structure issue(s)")]
  | _ => []

end Validator

end DesignTokens
