/-
# DesignTokens.Fix.Apply -- applying fixes to a document

A fixer holds a document and the fixes applied to it so far.  A fix is skipped, and the document
stays as it is, if its target overlaps that of a fix already applied, if the target is not there, if
what stands there is not what the fix was made for, or if a flat name would displace a neighbour
(`Skip`).  A malformed fix is a fault, and changes nothing either, unless it is found out only while
the cluster is being replaced (`Patch.broken`).

A flattened cluster is replaced in its place: its parent keeps the members before and after it
(`splice`).
-/
import DesignTokens.Fault
import DesignTokens.Fix.Basic
import DesignTokens.Fix.Listing
import DesignTokens.Log

namespace DesignTokens

set_option autoImplicit false

/-! ## Addressing a node -/

namespace Json

/-- The members among which the last key of a chain stands, if the chain leads to a node. -/
def parent? : Json → KeyChain → Option Members
  | .obj ms, [key] => if Members.has ms key then some ms else none
  | .obj ms, key :: rest => (Members.get? ms key).bind fun child => child.parent? rest
  | _, _ => none

/-- The document with other members where the last key of a chain stands. -/
def withParent : Json → KeyChain → Members → Json
  | .obj _, [_], new => .obj new
  | .obj ms, key :: rest, new =>
      match Members.get? ms key with
      | some child => .obj (Members.put ms key (child.withParent rest new))
      | none => .obj ms
  | node, _, _ => node

end Json

/-- Puts members in the place of one. -/
def Members.splice (ms : Members) (key : String) (new : Members) : Members :=
  ms.flatMap fun m => if m.1 == key then new else [m]

/-! ## One fix -/

/-- Why a fix was not applied. -/
inductive Skip where
  | overlaps (done : Fix)
  | notFound
  | tokenChanged
  | structureChanged
  | wouldOverwrite (keys : List String)

namespace Skip

def message (fix : Fix) : Skip → String
  | .overlaps done =>
      s!"Skipping {fix.id}: {fix.path} overlaps {done.id} ({done.path})"
  | .notFound => s!"Skipping {fix.id}: {fix.path} not found in document"
  | .tokenChanged => s!"Skipping {fix.id}: {fix.path} doesn't match the expected token"
  | .structureChanged => s!"Skipping {fix.id}: {fix.path} doesn't match the expected structure"
  | .wouldOverwrite keys =>
      s!"Skipping {fix.id}: flattening would overwrite " ++ ", ".intercalate keys

end Skip

/-- What a fix makes of the members among which its target stands. -/
inductive Patch where
  | applied (parent : Members)
  | skipped (reason : Skip)
  /-- The fix is malformed, and nothing was changed. -/
  | failed (fault : Fault)
  /-- The fix is malformed, which came to light when the members were rebuilt thus far. -/
  | broken (fault : Fault) (parent : Members)

namespace Fix

/-- Gives a token its type, if the token is still the one that the fix was made for. -/
def addType (f : Fix) (parent : Members) (name : String) (node : Json) : Patch :=
  if !node.equal f.before then .skipped .tokenChanged
  else
    match f.after with
    | .obj after =>
      match Members.get? after Key.type with
      | none => .failed .noTypeInFix
      | some tag =>
        match node with
        | .obj token => .applied (parent.put name (.obj (Members.put token Key.type tag)))
        | _ => .failed .notAnObject
    | _ => .failed .notAnObject

/-- Replaces a cluster by the members that a list or a text lists. -/
def listIn (f : Fix) (parent : Members) (name : String) : Patch :=
  match Listing.items? f.after with
  | none => .failed .notAnObject
  | some items =>
      if !items.all Listing.isSimple then .failed .notAnObject
      else
        match Listing.clashes parent name items with
        | [] =>
          match Listing.rebuild parent name f.after items with
          | (new, none) => .applied new
          | (new, some fault) => .broken fault new
        | clashes => .skipped (.wouldOverwrite clashes)

/-- Replaces a cluster by its flat tokens, if it is still the one that the fix was made for. -/
def flattenIn (f : Fix) (parent : Members) (name : String) (node : Json) : Patch :=
  match f.before with
  | .obj before =>
      if !node.equal ((Members.get? before name).getD .null) then .skipped .structureChanged
      else
        match f.after with
        | .obj after =>
          let clashes := (Members.keys after).filter fun key => key != name && parent.has key
          if clashes.isEmpty then .applied (parent.splice name after)
          else .skipped (.wouldOverwrite clashes)
        | _ => f.listIn parent name
  | _ => .failed .noEntryInFix

/-- What the fix makes of the members among which its target stands. -/
def patch (f : Fix) (parent : Members) (name : String) : Patch :=
  let node := (parent.get? name).getD .null
  match f.type with
  | .addType => f.addType parent name node
  | .flatten => f.flattenIn parent name node

end Fix

/-! ## A run of fixes -/

/-- A document with the fixes applied to it so far, in order. -/
structure Fixer where
  document : Json
  applied : List Fix

/-- What came of a fix that was handed to a fixer. -/
inductive Outcome where
  | applied
  | skipped (reason : Skip)
  | failed (fault : Fault)

namespace Outcome

def log (fix : Fix) : Outcome → Log
  | .skipped reason => [Log.warning (reason.message fix)]
  | _ => []

end Outcome

namespace Fixer

def ofDocument (document : Json) : Fixer :=
  ⟨document, []⟩

/-- The fixer with other members around the target of a fix. -/
def rebuilt (s : Fixer) (fix : Fix) (parent : Members) : Fixer :=
  { s with document := s.document.withParent fix.target parent }

/-- Applies a fix, or says why it did not. -/
def apply (s : Fixer) (fix : Fix) : Fixer × Outcome :=
  match s.applied.find? fun done => done.overlaps fix with
  | some done => (s, .skipped (.overlaps done))
  | none =>
    match s.document.parent? fix.target, fix.target.getLast? with
    | some parent, some name =>
        match fix.patch parent name with
        | .applied new => ({ s.rebuilt fix new with applied := s.applied ++ [fix] }, .applied)
        | .skipped reason => (s, .skipped reason)
        | .failed fault => (s, .failed fault)
        | .broken fault new => (s.rebuilt fix new, .failed fault)
    | _, _ => (s, .skipped .notFound)

/-- Applies fixes one after the other; a fault ends the run. -/
def applyAll : Fixer → List Fix → Log × Except Fault Fixer
  | s, [] => ([], .ok s)
  | s, fix :: rest =>
      match s.apply fix with
      | (_, .failed fault) => ([], .error fault)
      | (s', outcome) =>
          let (log, result) := applyAll s' rest
          (outcome.log fix ++ log, result)

end Fixer

/-- Applies the approved fixes to a document, in list order.  What is no object is left alone. -/
def applyApproved (document : Json) (fixes : List Fix) : Log × Except Fault Json :=
  match document with
  | .obj _ =>
      let approved := fixes.filter Fix.approved
      match (Fixer.ofDocument document).applyAll approved with
      | (log, .ok s) =>
          (log ++ [Log.debug
            s!"Applied {s.applied.length} of {approved.length} approved fix(es)"], .ok s.document)
      | (log, .error fault) => (log, .error fault)
  | _ => ([], .ok document)

end DesignTokens
