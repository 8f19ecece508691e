/-
# DesignTokens.Fix.Basic -- patches that a user approves

A fix addresses one node by its chain of keys, or by its display path if it has no chain, and says
what stood there and what is to stand there.  Two fixes conflict when both are approved and one
target contains the other.
-/
import DesignTokens.Json.Equal
import DesignTokens.Node
import DesignTokens.Path

namespace DesignTokens

set_option autoImplicit false

inductive FixType where
  | addType
  | flatten
  deriving DecidableEq, Repr

namespace FixType

def name : FixType → String
  | addType => "add-type"
  | flatten => "flatten"

def ofName? : String → Option FixType
  | "add-type" => some addType
  | "flatten" => some flatten
  | _ => none

end FixType

structure Fix where
  id : String
  type : FixType
  path : String
  description : String
  before : Json
  after : Json
  approved : Bool
  keys : KeyChain

namespace Fix

/-- The chain of keys that a fix addresses. -/
def target (f : Fix) : KeyChain :=
  if f.keys.isEmpty then Path.split f.path else f.keys

def overlaps (f g : Fix) : Bool :=
  Path.overlap f.target g.target

/-- Each pair of approved fixes whose targets overlap, in list order. -/
def conflicts : List Fix → List (Fix × Fix)
  | [] => []
  | f :: rest =>
      (if f.approved then
        (rest.filter fun g => g.approved && f.overlaps g).map fun g => (f, g)
       else []) ++ conflicts rest

def toMembers (f : Fix) : Members :=
  [("id", .str f.id), ("type", .str f.type.name), ("path", .str f.path),
    ("description", .str f.description), ("before", f.before), ("after", f.after),
    ("approved", .bool f.approved), ("keys", .arr (f.keys.map .str))]

theorem overlaps_comm (f g : Fix) : f.overlaps g = g.overlaps f :=
  Path.overlap_comm _ _

end Fix

end DesignTokens
