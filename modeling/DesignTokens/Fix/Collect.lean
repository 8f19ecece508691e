/-
# DesignTokens.Fix.Collect -- the fixes that a document offers

A token without a tag and without a typed group above it can be given the type that it names in the
older spelling or that its value suggests (`untypedTokens`).  A nested cluster can be flattened,
unless its flat names are in use beside it.  Fixes are numbered in the order in which they are
found, the types first.
-/
import DesignTokens.Cluster.Basic
import DesignTokens.Fix.Basic

namespace DesignTokens

set_option autoImplicit false

/-- A token that lacks its tag, with the type it can be given. -/
structure UntypedToken where
  keys : KeyChain
  token : Members
  type : TokenType

namespace UntypedToken

/-- The type that a token without a tag can be given. -/
def type? (ms : Members) : Option TokenType :=
  ((ms.get? Key.legacyType).bind TokenType.ofTag?).or (TokenType.infer? ms.tokenValue)

def of? (keys : KeyChain) (inherited : Option TokenType) (ms : Members) : Option UntypedToken :=
  if ms.has Key.type || inherited.isSome then none
  else (type? ms).map fun t => ⟨keys, ms, t⟩

def toFix (u : UntypedToken) (index : Nat) : Fix where
  id := s!"fix-{index}"
  type := .addType
  path := Path.join u.keys
  description := s!"Add missing $type: \"{u.type.name}\""
  before := .obj u.token
  after := .obj (u.token.put Key.type (.str u.type.name))
  approved := false
  keys := u.keys

end UntypedToken

mutual

/-- The tokens without a tag at a member of a group and below it. -/
def untypedAt (keys : KeyChain) (inherited : Option TokenType) : Json → List UntypedToken
  | .obj ms =>
      if Members.hasValue ms then (UntypedToken.of? keys inherited ms).toList
      else untypedIn keys ((Members.groupType? ms).or inherited) ms
  | _ => []

/-- The tokens without a tag among a sequence of members of the group at `keys`. -/
def untypedIn (keys : KeyChain) (inherited : Option TokenType) :
    List (String × Json) → List UntypedToken
  | [] => []
  | (name, node) :: rest =>
      (if Key.isMeta name then [] else untypedAt (keys ++ [name]) inherited node) ++
        untypedIn keys inherited rest

end

def untypedOfEntry (rootType : Option TokenType) (name : String) (value : Json) :
    List UntypedToken :=
  match value with
  | .obj ms =>
      if isTokenGroup name value then untypedIn [name] ((Members.groupType? ms).or rootType) ms
      else []
  | _ => []

/-- The tokens of a document that lack a tag and can be given one, in document order. -/
def untypedTokens (document : Members) : List UntypedToken :=
  document.flatMap fun entry => untypedOfEntry document.groupType? entry.1 entry.2

def Cluster.toFix (c : Cluster) (index : Nat) : Fix where
  id := s!"fix-{index}"
  type := .flatten
  path := c.path
  description := c.description
  before := .obj c.underName
  after := .obj c.flattened
  approved := false
  keys := c.keys

namespace Fix

/-- The fixes for the members of a document. -/
def ofMembers (document : Members) : List Fix :=
  let untyped := untypedTokens document
  let fixable := (clusters document).filter Cluster.isFixable
  untyped.zipIdx.map (fun (u, i) => u.toFix i) ++
    fixable.zipIdx.map fun (c, i) => c.toFix (untyped.length + i)

/-- Every fix that a document offers; what is no object offers none. -/
def collect : Json → List Fix
  | .obj ms => ofMembers ms
  | _ => []

/-- What the collection has to say. -/
def collectLog : Json → Log
  | .obj ms =>
      clusterLog (clusters ms) ++
        [Log.debug s!"Collected {(ofMembers ms).length} fixable issue(s)"]
  | _ => []

end Fix

end DesignTokens
