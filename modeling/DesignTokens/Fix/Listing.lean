/-
# DesignTokens.Fix.Listing -- replacements that are no objects

What a fix puts in the place of a cluster is an object as a rule.  A list or a text may stand for
one: it lists members, each as a text of two letters, the key and the value.  A text lists its
letters one by one, so only the empty one can be followed to its end.

`rebuild` sets the members in the order in which they are listed, between those before and those
after the cluster.  An item that stands for no member breaks it off, and what was rebuilt until then
is returned beside the fault.
-/
import DesignTokens.Fault
import DesignTokens.Json.Basic
import DesignTokens.Text.Infix

namespace DesignTokens

set_option autoImplicit false

/-- Sets members one after the other. -/
def Members.putAll (ms new : Members) : Members :=
  new.foldl (fun ms m => ms.put m.1 m.2) ms

@[simp] theorem Members.putAll_nil (ms : Members) : ms.putAll [] = ms := rfl

@[simp] theorem Members.putAll_cons (ms new : Members) (m : String × Json) :
    ms.putAll (m :: new) = (ms.put m.1 m.2).putAll new := rfl

namespace Listing

/-- What a value lists; only lists and texts list something. -/
def items? : Json → Option (List Json)
  | .arr items => some items
  | .str s => some (s.toList.map fun c => .str (String.singleton c))
  | _ => none

/-- Whether an item can be looked up among keys. -/
def isSimple : Json → Bool
  | .arr _ => false
  | .obj _ => false
  | _ => true

def text? : Json → Option String
  | .str s => some s
  | _ => none

/-- The items, a name aside, that are keys of the members around them. -/
def clashes (parent : Members) (name : String) (items : List Json) : List String :=
  (items.filterMap text?).filter fun key => key != name && parent.has key

/-- Whether a replacement drops the neighbour with a key: a text drops those whose keys occur in it. -/
def drops : Json → String → Bool
  | .str s, key => Text.occursIn key.toList s.toList
  | _, _ => false

/-- The member that the item at an index stands for. -/
def member (index : Nat) : Json → Except Fault (String × Json)
  | .str s =>
      match s.toList with
      | [key, value] => .ok (String.singleton key, .str (String.singleton value))
      | letters => .error (.notAPair index letters.length)
  | _ => .error .notAnObject

/-- Sets the members that items stand for, up to the first that stands for none. -/
def putItems (ms : Members) (index : Nat) : List Json → Members × Option Fault
  | [] => (ms, none)
  | item :: rest =>
      match member index item with
      | .ok (key, value) => putItems (ms.put key value) (index + 1) rest
      | .error fault => (ms, some fault)

/-- The members around a cluster, rebuilt with what a replacement lists in its place. -/
def rebuild (parent : Members) (name : String) (replacement : Json) (items : List Json) :
    Members × Option Fault :=
  let stays (m : String × Json) : Bool := m.1 != name && !drops replacement m.1
  let front := (parent.takeWhile (·.1 != name)).filter stays
  match putItems front 0 items with
  | (ms, none) => (ms.putAll ((parent.dropWhile (·.1 != name)).filter stays), none)
  | broken => broken

end Listing

end DesignTokens
