/-
# DesignTokens.Cluster.Basic -- nested clusters in a document

`clusters` finds every nested cluster that is reached from a token group through plain groups, in
document order.  A cluster inside a cluster is part of it and is not listed.  The flat names may
already be in use beside the cluster (`clashes`); such a cluster is reported but not mended.
-/
import DesignTokens.Cluster.Flatten
import DesignTokens.Log
import DesignTokens.Path

namespace DesignTokens

set_option autoImplicit false

/-- A nested cluster: its name, the chain of keys that leads to its parent, the object itself and
the members among which it stands.  The chain starts with the key of the token group. -/
structure Cluster where
  group : String
  above : KeyChain
  name : String
  node : Members
  siblings : Members

namespace Cluster

def keys (c : Cluster) : KeyChain :=
  c.group :: c.above ++ [c.name]

def path (c : Cluster) : String :=
  Path.join c.keys

def flattening (c : Cluster) : Flattening :=
  flatten c.name c.node

def flattened (c : Cluster) : Members :=
  c.flattening.entries

/-- Flat names that siblings already use. -/
def clashes (c : Cluster) : List String :=
  c.flattened.keys.filter fun key => key != c.name && c.siblings.has key

def isFixable (c : Cluster) : Bool :=
  c.clashes.isEmpty

def nestedKeys (c : Cluster) : List String :=
  c.node.childKeys

def message (c : Cluster) : String :=
  "Nested token structure: \"" ++ ".".intercalate (c.above ++ [c.name]) ++ "\""

def description (c : Cluster) : String :=
  s!"This contains {c.nestedKeys.length} sub-token(s). " ++
    "Design token documents should use a flat structure with naming conventions." ++
    (if c.isFixable then ""
     else
      " Flattening would overwrite existing key(s): " ++ ", ".intercalate c.clashes ++ ".")

def suggestion (c : Cluster) : String :=
  "Flatten to use hyphenated names like \"" ++
    Leaf.hyphenated c.name (c.nestedKeys.headD "") ++ "\""

/-- The cluster under its name. -/
def underName (c : Cluster) : Members :=
  [(c.name, .obj c.node)]

def toMembers (c : Cluster) : Members :=
  [("path", .str c.path), ("issue", .str "NESTED_TOKENS"), ("message", .str c.message),
    ("description", .str c.description), ("suggestion", .str c.suggestion),
    ("originalStructure", .obj c.underName), ("flattenedStructure", .obj c.flattened),
    ("nestedTokens", .arr (c.nestedKeys.map .str)), ("fixType", .str "flatten"),
    ("autoFixable", .bool c.isFixable)]

end Cluster

mutual

/-- The clusters at a member of a group and below it. -/
def clustersAt (group : String) (above : KeyChain) (siblings : Members) (name : String) :
    Json → List Cluster
  | .obj ms =>
      match Members.kind ms with
      | .token => []
      | .nestedTokens => [⟨group, above, name, ms, siblings⟩]
      | .group => clustersIn group (above ++ [name]) ms ms
  | _ => []

/-- The clusters among a sequence of members of a group. -/
def clustersIn (group : String) (above : KeyChain) (siblings : Members) :
    List (String × Json) → List Cluster
  | [] => []
  | (name, node) :: rest =>
      (if Key.isMeta name then [] else clustersAt group above siblings name node) ++
        clustersIn group above siblings rest

end

/-- The clusters of a root entry, if it is a token group. -/
def clustersOfEntry (name : String) (value : Json) : List Cluster :=
  match value with
  | .obj ms => if isTokenGroup name value then clustersIn name [] ms ms else []
  | _ => []

/-- The nested clusters of a document, in document order. -/
def clusters (document : Members) : List Cluster :=
  document.flatMap fun entry => clustersOfEntry entry.1 entry.2

namespace Flattening

/-- One entry for each name that had to be changed. -/
def log (f : Flattening) : Log :=
  f.renamed.map fun r => Log.debug s!"Flattened name \"{r.1}\" already used, renamed to \"{r.2}\""

end Flattening

/-- What the search for clusters has to say. -/
def clusterLog (found : List Cluster) : Log :=
  found.flatMap (fun c => c.flattening.log) ++
    [Log.debug s!"Structure analysis found {found.length} nested cluster(s)"]

end DesignTokens
