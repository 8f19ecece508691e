/-
# DesignTokens.Cluster.Flatten -- the flat replacement of a nested cluster

A cluster is an object whose children are tokens, perhaps through plain subgroups.  Its flat
replacement holds the same tokens side by side, each under the cluster's name with the keys on the
way joined on by hyphens.  Children that stand for their group take its name as it is.

The work is done in two steps.  `leaves` lists the tokens in document order, with the type each is
given and the name it asks for; `Flattening.add` then gives the names out one after the other,
with a number behind a name that is taken, so that no token displaces another.
-/
import DesignTokens.Inference
import DesignTokens.Node

namespace DesignTokens

set_option autoImplicit false

/-- A token of a cluster: the stem of its flat name, its own key, and the token to be placed. -/
structure Leaf where
  stem : String
  key : String
  token : Members

namespace Leaf

def withType (ms : Members) : Option TokenType → Members
  | some t => ms.put Key.type (.str t.name)
  | none => ms

/-- A token keeps its tag.  Without one it gets the type it names in the older spelling, else that
of the nearest typed group, else the one its value suggests. -/
def typed (inherited : Option TokenType) (ms : Members) : Members :=
  if ms.has Key.type then ms
  else
    let inferred := if ms.hasValue then TokenType.infer? ms.tokenValue else none
    withType ms ((ms.declaredType?.or inherited).or inferred)

/-- A bare value becomes a token. -/
def wrapped (inherited : Option TokenType) (value : Json) : Members :=
  withType [(Key.value, value)] (inherited.or (TokenType.infer? value))

def hyphenated (stem key : String) : String :=
  stem ++ "-" ++ key

end Leaf

/-- The stem below a subgroup. -/
def subStem (stem key : String) : String :=
  if Key.isDefault key then stem else Leaf.hyphenated stem key

mutual

/-- The leaves that a child contributes under its key. -/
def leavesOf (stem : String) (inherited : Option TokenType) (key : String) : Json → List Leaf
  | .obj ms =>
      if Json.looksLikeToken (.obj ms) || (Members.childKeys ms).isEmpty then
        [⟨stem, key, Leaf.typed inherited ms⟩]
      else leavesIn (subStem stem key) ((Members.groupType? ms).or inherited) ms
  | value => [⟨stem, key, Leaf.wrapped inherited value⟩]

/-- The leaves of a sequence of members. -/
def leavesIn (stem : String) (inherited : Option TokenType) : List (String × Json) → List Leaf
  | [] => []
  | (key, child) :: rest =>
      (if Key.isMeta key then [] else leavesOf stem inherited key child) ++
        leavesIn stem inherited rest

end

/-! ## Names -/

namespace FlatName

/-- The name a leaf asks for: the bare stem for a default child while it is free, else the
hyphenated name. -/
def wanted (taken : List String) (stem key : String) : String :=
  if Key.isDefault key && !taken.contains stem then stem else Leaf.hyphenated stem key

def numbered (name : String) (n : Nat) : String :=
  name ++ "-" ++ toString n

/-- The first free name among those with the numbers from `n` on, `fuel` of them. -/
def firstFree (taken : List String) (name : String) : Nat → Nat → String
  | 0, n => numbered name n
  | fuel + 1, n =>
      if taken.contains (numbered name n) then firstFree taken name fuel (n + 1)
      else numbered name n

/-- The name itself if it is free, else the first numbered one that is.  Of the numbered names at
most as many are taken as there are taken names, so the search needs no more steps. -/
def free (taken : List String) (name : String) : String :=
  if taken.contains name then firstFree taken name taken.length 2 else name

end FlatName

/-- A flat replacement in the making, with the names that had to be changed. -/
structure Flattening where
  entries : Members
  renamed : List (String × String)

namespace Flattening

def empty : Flattening := ⟨[], []⟩

/-- Places a leaf under a free name, behind those placed before. -/
def add (f : Flattening) (leaf : Leaf) : Flattening :=
  let wanted := FlatName.wanted f.entries.keys leaf.stem leaf.key
  let name := FlatName.free f.entries.keys wanted
  { entries := f.entries ++ [(name, .obj leaf.token)]
    renamed := if name == wanted then f.renamed else f.renamed ++ [(wanted, name)] }

def ofLeaves (leaves : List Leaf) : Flattening :=
  leaves.foldl add empty

end Flattening

/-- The flat replacement of a cluster under a name. -/
def flatten (name : String) (node : Members) : Flattening :=
  .ofLeaves (leavesIn name node.groupType? node)

end DesignTokens
