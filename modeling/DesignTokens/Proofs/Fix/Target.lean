/-
# DesignTokens.Proofs.Fix.Target -- a fix may be addressed by its path alone

A fix addresses the chain that it carries or, if it carries none, the chain that its display path shows
(`Addresses`).  For plain chains it makes no difference which: the path shows the chain as it is, so both
have one target, and whether two fixes overlap is told from their chains alone
(`Addresses.overlaps_iff`).

Nor is there a difference to a fixer.  It takes the address of a fix from its target only: if every fix is
given its target for a chain (`Fix.resolved`), a call does the same as before (`Fixer.apply_resolved`), and
so does a batch (`applyApproved_resolved`).  Two batches that are the same once resolved therefore come to
the same (`applyApproved_congr`), whichever of their fixes are addressed by path (`targets_agree`).
-/
import DesignTokens.Fix.Apply
import DesignTokens.Proofs.Path

namespace DesignTokens

set_option autoImplicit false

namespace Fix

/-! ## Addresses -/

/-- A fix addresses a chain if it carries it, or if it carries none and its path shows it.  No fix carries
the chain of the root: to have no keys is to carry no chain. -/
inductive Addresses (f : Fix) (keys : KeyChain) : Prop where
  | carried (carries : f.keys = keys) (nonempty : keys ≠ [])
  | shown (carriesNone : f.keys = []) (shows : f.path = Path.join keys)

/-- The fix without its chain, addressed by its path alone. -/
def byPath (f : Fix) : Fix :=
  { f with keys := [] }

section

variable {f g : Fix} {keys keys' : KeyChain}

theorem Addresses.target_eq (addresses : f.Addresses keys) (plain : Path.IsPlain keys) :
    f.target = keys := by
  unfold target
  cases addresses with
  | carried carries nonempty => rw [carries, if_neg (by simpa using nonempty)]
  | shown carriesNone shows =>
      rw [carriesNone, if_pos List.isEmpty_nil, shows]
      exact (Path.split_join_eq_iff keys).2 plain

theorem Addresses.overlaps_iff (addresses : f.Addresses keys) (addresses' : g.Addresses keys')
    (plain : Path.IsPlain keys) (plain' : Path.IsPlain keys') :
    f.overlaps g = true ↔ keys <+: keys' ∨ keys' <+: keys := by
  rw [overlaps, addresses.target_eq plain, addresses'.target_eq plain', Path.overlap_iff]

/-- A fix whose path shows its chain addresses that chain, also where the chain is that of the root. -/
theorem addresses_of_shown (carries : f.keys = keys) (shows : f.path = Path.join keys) :
    f.Addresses keys := by
  by_cases nonempty : keys = []
  · exact .shown (carries.trans nonempty) shows
  · exact .carried carries nonempty

theorem byPath_addresses (shows : f.path = Path.join keys) : f.byPath.Addresses keys :=
  .shown rfl shows

end

/-! ## Resolved fixes -/

/-- The fix with its target for a chain. -/
def resolved (f : Fix) : Fix :=
  { f with keys := f.target }

theorem target_resolved (f : Fix) : f.resolved.target = f.target := by
  show (if f.target.isEmpty then Path.split f.path else f.target) = f.target
  by_cases empty : f.target.isEmpty = true
  · rw [if_pos empty]
    by_cases carriesNone : f.keys.isEmpty = true
    · rw [target, if_pos carriesNone]
    · rw [target, if_neg carriesNone] at empty
      exact absurd empty carriesNone
  · rw [if_neg empty]

theorem overlaps_resolved (f g : Fix) : f.resolved.overlaps g.resolved = f.overlaps g := by
  rw [overlaps, target_resolved, target_resolved, overlaps]

theorem patch_resolved (f : Fix) (parent : Members) (name : String) :
    f.resolved.patch parent name = f.patch parent name :=
  rfl

end Fix

/-! ## A call, a run, a batch -/

/-- The fixer with its applied fixes resolved. -/
def Fixer.resolved (s : Fixer) : Fixer :=
  { s with applied := s.applied.map Fix.resolved }

namespace Fixer

/-- A call takes the address of its fix from the target only.  Where it skips the fix for one that is
applied, it names that fix in its resolved form, but says the same. -/
theorem apply_resolved (s : Fixer) (f : Fix) :
    ∃ outcome, s.resolved.apply f.resolved = ((s.apply f).1.resolved, outcome) ∧
      outcome.log f.resolved = (s.apply f).2.log f ∧
      ∀ fault, outcome = .failed fault ↔ (s.apply f).2 = .failed fault := by
  have search : s.resolved.applied.find? (fun done => done.overlaps f.resolved) =
      (s.applied.find? fun done => done.overlaps f).map Fix.resolved := by
    rw [resolved, List.find?_map]
    simp only [Function.comp_def, Fix.overlaps_resolved]
  unfold apply
  rw [search]
  cases s.applied.find? fun done => done.overlaps f with
  | some done =>
      -- The message shows the id and the path of the applied fix, and these are the same once resolved.
      exact ⟨.skipped (.overlaps done.resolved), rfl, rfl, by simp⟩
  | none =>
      dsimp only [Option.map_none]
      rw [Fix.target_resolved, show s.resolved.document = s.document from rfl]
      split
      · rename_i parent name inParent last
        rw [Fix.patch_resolved]
        cases f.patch parent name with
        | applied new => exact ⟨.applied, by simp [resolved, rebuilt, Fix.target_resolved], rfl, by simp⟩
        | skipped reason => exact ⟨.skipped reason, rfl, by cases reason <;> rfl, by simp⟩
        | failed fault => exact ⟨.failed fault, rfl, rfl, by simp⟩
        | broken fault new =>
            exact ⟨.failed fault, by simp [resolved, rebuilt, Fix.target_resolved], rfl, by simp⟩
      · exact ⟨.skipped .notFound, rfl, rfl, by simp⟩

/-- Fixes that are the same once resolved leave the same document behind. -/
theorem document_apply_congr {f g : Fix} (same : f.resolved = g.resolved) (s : Fixer) :
    (s.apply f).1.document = (s.apply g).1.document := by
  obtain ⟨outcome, call, -⟩ := s.apply_resolved f
  obtain ⟨outcome', call', -⟩ := s.apply_resolved g
  rw [same, call'] at call
  have sameFixer : (s.apply g).1.resolved = (s.apply f).1.resolved := (Prod.mk.inj call).1
  show (s.apply f).1.resolved.document = (s.apply g).1.resolved.document
  rw [sameFixer]

/-- A run of resolved fixes logs the same and comes to the same. -/
theorem applyAll_resolved (s : Fixer) (fixes : List Fix) :
    s.resolved.applyAll (fixes.map Fix.resolved) =
      ((s.applyAll fixes).1, (s.applyAll fixes).2.map resolved) := by
  induction fixes generalizing s with
  | nil => rfl
  | cons f rest ih =>
      obtain ⟨outcome, call, sameLog, sameFault⟩ := s.apply_resolved f
      rw [List.map_cons, applyAll, applyAll, call]
      generalize s.apply f = now at sameLog sameFault
      obtain ⟨s', outcome'⟩ := now
      dsimp only at sameLog sameFault ⊢
      cases outcome' with
      | failed fault =>
          rw [(sameFault fault).2 rfl]
          rfl
      | applied | skipped =>
          cases outcome with
          | failed fault => cases (sameFault fault).1 rfl
          | applied | skipped =>
              dsimp only
              rw [ih s', sameLog]

end Fixer

theorem applyApproved_resolved (document : Json) (fixes : List Fix) :
    applyApproved document (fixes.map Fix.resolved) = applyApproved document fixes := by
  unfold applyApproved
  cases document with
  | obj ms =>
      have approved : (fixes.map Fix.resolved).filter Fix.approved =
          (fixes.filter Fix.approved).map Fix.resolved := by
        rw [List.filter_map]
        rfl
      have run := (Fixer.ofDocument (.obj ms)).applyAll_resolved (fixes.filter Fix.approved)
      rw [show (Fixer.ofDocument (.obj ms)).resolved = Fixer.ofDocument (.obj ms) from rfl] at run
      dsimp only
      rw [approved, run]
      generalize (Fixer.ofDocument (.obj ms)).applyAll (fixes.filter Fix.approved) = result
      obtain ⟨log, fault | s⟩ := result
      · rfl
      · simp [Except.map, Fixer.resolved]
  | _ => rfl

/-- Batches whose fixes are the same once resolved come to the same. -/
theorem applyApproved_congr {fixes fixes' : List Fix}
    (same : fixes.map Fix.resolved = fixes'.map Fix.resolved) (document : Json) :
    applyApproved document fixes = applyApproved document fixes' := by
  rw [← applyApproved_resolved, same, applyApproved_resolved]

/-- **Display paths and chains agree.**  A plain chain is read off its path as it is.  The paths of two plain
chains overlap exactly if one chain is the beginning of the other, and so do any two fixes that address
them, by chain or by path.  A fix whose path shows its chain has the same target without the chain: a fixer
makes the same of its document, and a batch comes to the same, down to the log and the fault if there is
one. -/
theorem Fix.targets_agree {a b : KeyChain} (plain : Path.IsPlain a) (plain' : Path.IsPlain b) :
    Path.split (Path.join a) = a ∧
      (Path.shownOverlap (Path.join a) (Path.join b) = true ↔ a <+: b ∨ b <+: a) ∧
      (∀ f g : Fix, f.Addresses a → g.Addresses b → (f.overlaps g = true ↔ a <+: b ∨ b <+: a)) ∧
      ∀ f : Fix, f.keys = a → f.path = Path.join a →
        f.byPath.target = f.target ∧
          (∀ s : Fixer, (s.apply f.byPath).1.document = (s.apply f).1.document) ∧
          ∀ document before after, applyApproved document (before ++ f.byPath :: after) =
            applyApproved document (before ++ f :: after) := by
  refine ⟨(Path.split_join_eq_iff a).2 plain, Path.shownOverlap_join_iff plain plain',
    fun f g addresses addresses' => addresses.overlaps_iff addresses' plain plain', ?_⟩
  intro f carries shows
  have target : f.target = a := (addresses_of_shown carries shows).target_eq plain
  have target' : f.byPath.target = a := (byPath_addresses shows).target_eq plain
  have same : f.byPath.resolved = f.resolved := by
    rw [resolved, resolved, target', target]
    rfl
  refine ⟨target'.trans target.symm, Fixer.document_apply_congr same, fun document before after => ?_⟩
  apply applyApproved_congr
  rw [List.map_append, List.map_append, List.map_cons, List.map_cons, same]

namespace Example

/-- A colour below a key that is the root sign. -/
def signedPalette (colour : Members) : Json :=
  .obj [("$", .obj [("brand", .obj colour)])]

def typeSignedBrand : Fix where
  id := "fix-0"
  type := .addType
  path := "$.$.brand"
  description := ""
  before := .obj [("$value", .str "#f00")]
  after := .obj [("$value", .str "#f00"), ("$type", .str "color")]
  approved := true
  keys := ["$", "brand"]

/-- The path of the colour does not overlap that of a neighbour whose name goes on, and the fix is applied
without its chain as well. -/
theorem signedBrand_by_path :
    Path.IsPlain ["$", "brand"] ∧ Path.IsPlain ["$", "brandX"] ∧
      Path.split "$.$.brand" = ["$", "brand"] ∧ Path.shownOverlap "$.$.brand" "$.$.brandX" = false ∧
      (applyApproved (signedPalette [("$value", .str "#f00")]) [typeSignedBrand.byPath]).2 =
        .ok (signedPalette [("$value", .str "#f00"), ("$type", .str "color")]) := by
  have plain : Path.IsPlain ["$", "brand"] := by decide
  have plain' : Path.IsPlain ["$", "brandX"] := by decide
  obtain ⟨reads, overlap_iff, -, byPath⟩ := Fix.targets_agree plain plain'
  obtain ⟨-, -, batch⟩ := byPath typeSignedBrand rfl rfl
  refine ⟨plain, plain', reads, ?_, ?_⟩
  · rw [Bool.eq_false_iff]
    exact mt overlap_iff.1 (by decide)
  · have applied := congrArg Prod.snd (batch (signedPalette [("$value", .str "#f00")]) [] [])
    rw [List.nil_append, List.nil_append] at applied
    rw [applied]
    rfl

end Example

end DesignTokens
