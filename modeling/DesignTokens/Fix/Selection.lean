/-
# DesignTokens.Fix.Selection -- picking fixes out of a list

A fix is known by its identifier.  If several have one, the first is meant, except in approving,
which goes for all of them.
-/
import DesignTokens.Fault
import DesignTokens.Fix.Basic

namespace DesignTokens.Fix

set_option autoImplicit false

def named (fixes : List Fix) (id : String) : Except Fault Fix :=
  match fixes.find? fun f => f.id == id with
  | some f => .ok f
  | none => .error .unknownFix

/-- The fixes with some identifiers, in their order. -/
def ordered (fixes : List Fix) (ids : List String) : Except Fault (List Fix) :=
  ids.mapM (named fixes)

/-- Approves the fixes with some identifiers, or takes their approval back; without identifiers,
all of them. -/
def approve (ids : Option (List String)) (value : Bool) (fixes : List Fix) : List Fix :=
  fixes.map fun f =>
    if ids.all fun ids => ids.contains f.id then { f with approved := value } else f

end DesignTokens.Fix
