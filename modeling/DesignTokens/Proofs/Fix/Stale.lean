/-
# DesignTokens.Proofs.Fix.Stale -- handing fixes over a second time

A list of fixes that was given to a document is stale afterwards: given to the result, which knows
nothing of what was applied, it changes nothing any more (`Fixer.applyApproved_stale`).

For each fix of the list the first run leaves a reason (`Fixer.Settled`).  Either an applied fix
replaced its node or something inside it, and the node is not found as it was, because equal values
lead to equal nodes by every chain.  Or a cluster beside it was flattened into one of its names, and
that name is still in use.  The order of the list matters here: a type that is given inside a cluster
after the cluster was flattened would have no reason of its own, but the types come first.
-/
import DesignTokens.Proofs.Fix.Batch

namespace DesignTokens

set_option autoImplicit false

/-- In the order in which fixes are collected, those that give types come first. -/
theorem Fix.exists_split_of_sublist {document : Members} {fixes : List Fix}
    (chosen : fixes.Sublist (offers (.obj document))) :
    ∃ typings flattenings, fixes = typings ++ flattenings ∧
      (∀ f ∈ typings, f.type = .addType) ∧ ∀ f ∈ flattenings, f.type = .flatten := by
  rw [offers, collect, ofMembers, approve, List.map_append] at chosen
  obtain ⟨typings, flattenings, rfl, subTypings, subFlattenings⟩ := List.sublist_append_iff.1 chosen
  refine ⟨typings, flattenings, rfl, fun f mem => ?_, fun f mem => ?_⟩
  · obtain ⟨_, inList, rfl⟩ := List.mem_map.1 (subTypings.subset mem)
    obtain ⟨_, _, rfl⟩ := List.mem_map.1 inList
    rfl
  · obtain ⟨_, inList, rfl⟩ := List.mem_map.1 (subFlattenings.subset mem)
    obtain ⟨_, _, rfl⟩ := List.mem_map.1 inList
    rfl

namespace Fixer

/-! ## What the first run leaves -/

variable {document : Members} {s : Fixer} {fixes : List Fix} {f : Fix}

/-- After a call an applied fix overlaps the fix, which may be the fix itself, or contends with it. -/
theorem Batch.exists_settling (batch : s.Batch document) (keyed : (Json.obj document).isKeyed = true)
    (offered : ∀ e ∈ fixes, e.Offered document) (mem : f ∈ fixes) :
    ∃ done ∈ (s.run fixes).1.applied, done.overlaps f = true ∨ done.Contend f := by
  induction fixes generalizing s with
  | nil => cases mem
  | cons e rest ih =>
      have later := fun g inRest => offered g (List.mem_cons_of_mem _ inRest)
      have onward := applied_subset_run (s.apply e).1 rest
      have call := batch.call keyed (offered e List.mem_cons_self)
      rw [run_cons]
      rcases List.mem_cons.1 mem with rfl | inRest
      · cases call with
        | @overlapping done applied overlap call =>
            rw [call] at onward ⊢
            exact ⟨done, onward applied, .inl overlap⟩
        | @contending done _ _ applied contend call =>
            rw [call] at onward ⊢
            exact ⟨done, onward applied, .inr contend⟩
        | applied _ _ call applied_eq =>
            rw [call] at onward ⊢
            refine ⟨f, onward ?_, .inl (Fix.overlaps_of_target_eq rfl)⟩
            rw [applied_eq]
            exact List.mem_append_right _ (List.mem_singleton_self f)
      · cases call with
        | overlapping _ _ call | contending _ _ _ call =>
            rw [call]
            exact ih batch later inRest
        | applied _ _ call _ next =>
            rw [call]
            exact ih next later inRest

/-- Why a fix will not be applied again: an applied fix replaced its node or something inside it, or
nothing of the kind but one of its names was given away beside it. -/
inductive Settled (s : Fixer) (f : Fix) : Prop where
  | replaced {done : Fix} (applied : done ∈ s.applied) (inside : f.target <+: done.target) : Settled s f
  | contending {done : Fix} (apart : ∀ done ∈ s.applied, done.overlaps f = false)
      (applied : done ∈ s.applied) (contend : done.Contend f) : Settled s f

/-- A flattening is settled wherever it stands in the list: nothing applied stands above it. -/
theorem settled_of_flatten (keyed : (Json.obj document).isKeyed = true)
    (offered : ∀ e ∈ fixes, e.Offered document) (mem : f ∈ fixes) (type : f.type = .flatten) :
    Settled ((ofDocument (.obj document)).run fixes).1 f := by
  obtain ⟨done, applied, settling⟩ := (batch_ofDocument keyed).exists_settling keyed offered mem
  by_cases apart : ∀ e ∈ ((ofDocument (.obj document)).run fixes).1.applied, e.overlaps f = false
  · rcases settling with overlap | contend
    · rw [apart done applied] at overlap
      cases overlap
    · exact .contending apart applied contend
  · obtain ⟨e, applied', overlap⟩ :
        ∃ e ∈ ((ofDocument (.obj document)).run fixes).1.applied, e.overlaps f = true := by
      simpa using apart
    have offered' := offered e (mem_of_mem_applied_run applied')
    rcases offered'.isPrefix_or_types keyed (offered f mem) overlap with inside | ⟨-, typing⟩
    · exact .replaced applied' inside
    · rw [type] at typing
      cases typing

/-- A typing is settled if no flattening came before it: only the typing of the same token can be in
its way. -/
theorem settled_of_addType (keyed : (Json.obj document).isKeyed = true) {typings flattenings : List Fix}
    (offered : ∀ e ∈ typings, e.Offered document) (areTypings : ∀ e ∈ typings, e.type = .addType)
    (mem : f ∈ typings) : Settled ((ofDocument (.obj document)).run (typings ++ flattenings)).1 f := by
  obtain ⟨done, applied, settling⟩ := (batch_ofDocument keyed).exists_settling keyed offered mem
  have inTypings := mem_of_mem_applied_run applied
  have kept : done ∈ ((ofDocument (.obj document)).run (typings ++ flattenings)).1.applied := by
    rw [run_append]
    exact applied_subset_run _ _ applied
  refine .replaced kept ?_
  rcases settling with overlap | ⟨flattening, -⟩
  · refine ((offered done inTypings).isPrefix_or_types keyed (offered f mem) overlap).resolve_right ?_
    rintro ⟨flattening, -⟩
    rw [areTypings done inTypings] at flattening
    cases flattening
  · rw [areTypings done inTypings] at flattening
    cases flattening

/-- **A run of collected fixes settles each of them.** -/
theorem settled_of_mem (keyed : (Json.obj document).isKeyed = true)
    (chosen : fixes.Sublist (Fix.offers (.obj document))) (mem : f ∈ fixes) :
    Settled ((ofDocument (.obj document)).run fixes).1 f := by
  have offered : ∀ e ∈ fixes, e.Offered document :=
    fun e inFixes => (Fix.offered_of_mem_offers (chosen.subset inFixes)).1
  obtain ⟨typings, flattenings, rfl, areTypings, areFlattenings⟩ := Fix.exists_split_of_sublist chosen
  rcases List.mem_append.1 mem with early | late
  · exact settled_of_addType keyed (fun e inTypings => offered e (List.mem_append_left _ inTypings))
      areTypings early
  · exact settled_of_flatten keyed offered mem (areFlattenings f late)

/-! ## The second run -/

section Again

variable {above : KeyChain} {name : String} {parent : Members} {node : Json}

/-- Where a node or something inside it was replaced, nothing equal to the node is found. -/
theorem Batch.same_eq_false (batch : s.Batch document) (keyed : (Json.obj document).isKeyed = true)
    (fits : f.Fits document above name parent node) {done : Fix} (applied : done ∈ s.applied)
    (inside : f.target <+: done.target) {value : Json} (leads : s.document.at? f.target = some value) :
    value.same node = false := by
  rw [Bool.eq_false_iff]
  intro equal
  obtain ⟨rest, inside⟩ := inside
  obtain ⟨above', name', parent', node', fits'⟩ := (batch.offered done applied).fits keyed
  have onward : node.at? rest = some node' := by
    have whole := fits'.at?_target
    rwa [← inside, Json.at?_append, fits.at?_target] at whole
  obtain ⟨value', onward', equal'⟩ :=
    Json.same_at? (Json.isKeyed_of_at? batch.keyed leads) equal onward
  have leads' : s.document.at? done.target = some value' := by
    rw [← inside, Json.at?_append, leads]
    exact onward'
  rw [batch.moved keyed applied fits' leads'] at equal'
  cases equal'

/-- A settled fix is skipped by a fixer that starts from the result. -/
theorem Batch.apply_again (batch : s.Batch document) (keyed : (Json.obj document).isKeyed = true)
    (offered : f.Offered document) (settled : s.Settled f) :
    ∃ reason, (ofDocument s.document).apply f = (ofDocument s.document, .skipped reason) := by
  obtain ⟨above, name, parent, node, fits⟩ := offered.fits keyed
  have last : f.target.getLast? = some name := by rw [fits.target, List.getLast?_concat]
  have alone : ∀ done ∈ (ofDocument s.document).applied, done.overlaps f = false := nofun
  cases settled with
  | replaced applied inside =>
      cases inParent : s.document.parent? f.target with
      | none => exact ⟨.notFound, apply_of_absent alone inParent⟩
      | some beside =>
          have call := apply_of_parent? alone inParent last
          rw [fits.target, Json.parent?_concat_iff] at inParent
          obtain ⟨around, present⟩ := inParent
          obtain ⟨value, found⟩ := Option.isSome_iff_exists.1 present
          have leads : s.document.at? f.target = some value := by
            rw [fits.target, Json.at?_concat around, found]
          have changed := batch.same_eq_false keyed fits applied inside leads
          obtain ⟨reason, skips⟩ := fits.patch_changed beside value found changed
          rw [skips] at call
          exact ⟨reason, call⟩
  | contending apart applied contend =>
      have sameDocument : (ofDocument s.document).document = s.document := rfl
      have call := batch.apply_beside keyed fits apart sameDocument alone
      have taken : ¬ (f.taken name (s.around above parent)).isEmpty = true := fun free =>
        (batch.isEmpty_taken_iff keyed fits apart).1 free _ applied contend
      rw [if_neg taken] at call
      exact ⟨_, call⟩

end Again

/-- **A stale list of fixes does nothing.**  Fixes that were collected from a document and given to it,
in the order of the collection, leave the result alone when they are given to it. -/
theorem applyApproved_stale (keyed : (Json.obj document).isKeyed = true)
    (chosen : fixes.Sublist (Fix.offers (.obj document))) :
    ∃ patched, (applyApproved (.obj document) fixes).2 = .ok patched ∧
      (applyApproved patched fixes).2 = .ok patched := by
  have collected : ∀ f ∈ fixes, f ∈ Fix.offers (.obj document) := fun f mem => chosen.subset mem
  obtain ⟨batch, result⟩ := batch_run keyed collected
  refine ⟨_, result, ?_⟩
  have skips : ∀ f ∈ fixes, ∃ reason, (ofDocument _).apply f = (ofDocument _, .skipped reason) :=
    fun f mem => batch.apply_again keyed (Fix.offered_of_mem_offers (collected f mem)).1
      (settled_of_mem keyed chosen mem)
  obtain ⟨same, noFault⟩ := run_of_skipped skips
  rw [batch.document_obj] at same noFault ⊢
  rw [applyApproved_eq (fun f mem => (Fix.offered_of_mem_offers (collected f mem)).2) noFault, same]
  rfl

end Fixer

namespace Example

/-- A cluster with a token that has no type. -/
def bareBase : Members :=
  [("colors", .obj [("on", .obj [("base", red), ("dark", .obj [("$value", .str "#900"),
    ("$type", .str "color")])])])]

def bareBaseFixes : List Fix :=
  Fix.offers (.obj bareBase)

/-- The type goes first, so the cluster is not flattened; nor is it the second time. -/
theorem bareBase_stale :
    bareBaseFixes.map Fix.type = [.addType, .flatten] ∧
      ∃ patched, (applyApproved (.obj bareBase) bareBaseFixes).2 = .ok patched ∧
        (applyApproved patched bareBaseFixes).2 = .ok patched := by
  have keyed : (Json.obj bareBase).isKeyed = true := by decide
  exact ⟨rfl, Fixer.applyApproved_stale keyed (List.Sublist.refl _)⟩

end Example

end DesignTokens
