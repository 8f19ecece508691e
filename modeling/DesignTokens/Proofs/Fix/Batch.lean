/-
# DesignTokens.Proofs.Fix.Batch -- the applied fixes as one substitution

Whatever offered fixes are handed to a fixer, in whatever order, its document is the original one
with the members of all applied fixes in their places at once (`Fixer.Batch`).  The substitution
(`Fix.plan`) is made of the applied fixes without regard to their order, so nothing of the order is
left in the document.

A call of the fixer can end in three ways only (`BatchCall`).  The fix overlaps an applied one; or
its flat names contend with those of a cluster that was flattened beside it (`Fix.Contend`); or it is
applied.  It always finds its node as it was, because what is applied elsewhere does not reach there.
-/
import DesignTokens.Proofs.Fix.Fits
import DesignTokens.Proofs.Fix.Run
import Mathlib.Data.List.Pairwise

namespace DesignTokens

set_option autoImplicit false

/-! ## Chains to a parent -/

theorem Json.parent?_concat_iff {value : Json} {above : KeyChain} {name : String} {ms : Members} :
    value.parent? (above ++ [name]) = some ms ↔
      value.at? above = some (.obj ms) ∧ ms.has name = true := by
  induction above generalizing value with
  | nil =>
      cases value with
      | obj members =>
          rw [List.nil_append, Json.parent?, Json.at?_nil]
          split
          · rename_i present
            constructor
            · rintro ⟨⟩
              exact ⟨rfl, present⟩
            · rintro ⟨⟨⟩, -⟩
              rfl
          · rename_i absent
            constructor
            · rintro ⟨⟩
            · rintro ⟨⟨⟩, present⟩
              exact absurd present absent
      | _ => simp [Json.parent?]
  | cons key above ih =>
      cases value with
      | obj members =>
          have onward : (Json.obj members).parent? (key :: (above ++ [name])) =
              (Members.get? members key).bind fun child => child.parent? (above ++ [name]) := by
            cases above <;> rfl
          rw [List.cons_append, onward, Json.at?_cons]
          cases Members.get? members key with
          | none => simp
          | some child => exact ih
      | _ => simp [Json.parent?, Json.at?]

theorem Json.isKeyed_withParent {new : Members} (newKeyed : (Json.obj new).isKeyed = true)
    {value : Json} (keyed : value.isKeyed = true) (chain : KeyChain) :
    (value.withParent chain new).isKeyed = true := by
  fun_induction value.withParent chain new with
  | case1 => exact newKeyed
  | case2 ms key rest new notLast child found ih =>
      exact Members.isKeyed_put keyed key (ih newKeyed (Members.isKeyed_of_get? keyed found))
  | case3 | case4 => exact keyed

namespace Members

theorem mem_splice {ms new : Members} {key : String} {m : String × Json}
    (mem : m ∈ ms.splice key new) : m ∈ ms ∨ m ∈ new := by
  obtain ⟨m', inMs, inPart⟩ := List.mem_flatMap.1 mem
  split at inPart
  · exact .inr inPart
  · exact .inl (List.mem_singleton.1 inPart ▸ inMs)

theorem mem_keys_splice {ms new : Members} {key k : String} (mem : k ∈ (ms.splice key new).keys) :
    k ∈ ms.keys ∨ k ∈ new.keys := by
  obtain ⟨value, inSplice⟩ := exists_of_mem_keys mem
  exact (mem_splice inSplice).imp (mem_keys_of_mem ·) (mem_keys_of_mem ·)

/-- New members in the place of one keep the keys apart if none of theirs is in use. -/
theorem nodup_keys_splice {ms new : Members} {key : String} (distinct : ms.keys.Nodup)
    (newDistinct : new.keys.Nodup) (unused : ∀ k ∈ new.keys, k ≠ key → k ∉ ms.keys) :
    (ms.splice key new).keys.Nodup := by
  induction ms with
  | nil => exact List.nodup_nil
  | cons m rest ih =>
      rw [keys_cons, List.nodup_cons] at distinct
      have unusedInRest : ∀ k ∈ new.keys, k ≠ key → k ∉ keys rest :=
        fun k mem ne inRest => unused k mem ne (List.mem_cons_of_mem _ inRest)
      rw [splice_cons, keys_append, List.nodup_append]
      by_cases here : m.1 = key
      · subst here
        rw [if_pos rfl, splice_of_not_mem distinct.1]
        refine ⟨newDistinct, distinct.2, fun k inNew k' inRest same => ?_⟩
        subst same
        by_cases same : k = m.1
        · exact distinct.1 (same ▸ inRest)
        · exact unusedInRest k inNew same inRest
      · rw [if_neg here]
        refine ⟨List.nodup_singleton _, ih distinct.2 unusedInRest, fun k inFirst k' inRest same => ?_⟩
        obtain rfl : k = m.1 := List.mem_singleton.1 inFirst
        subst same
        rcases mem_keys_splice inRest with inRest | inNew
        · exact distinct.1 inRest
        · exact unused _ inNew here List.mem_cons_self

end Members

/-! ## Fixes as a substitution -/

namespace Fix

/-- What fixes put in the places of their nodes. -/
def plan (fixes : List Fix) : Substitution :=
  fun chain => (fixes.find? fun f => f.target == chain).map inPlace

/-- No two of the fixes overlap. -/
def Apart (fixes : List Fix) : Prop :=
  fixes.Pairwise fun e f => e.overlaps f = false

/-- Two clusters in one parent have a flat name in common. -/
def Contend (e f : Fix) : Prop :=
  e.type = .flatten ∧ f.type = .flatten ∧ e.target.dropLast = f.target.dropLast ∧
    ∃ key, key ∈ e.inPlace.keys ∧ key ∈ f.inPlace.keys

theorem Contend.symm {e f : Fix} (contend : e.Contend f) : f.Contend e := by
  obtain ⟨flattens, flattens', sameParent, key, mem, mem'⟩ := contend
  exact ⟨flattens', flattens, sameParent.symm, key, mem', mem⟩

variable {fixes : List Fix} {f : Fix}

theorem overlaps_of_prefix {e : Fix} (isPrefix : e.target <+: f.target) : e.overlaps f = true :=
  (Path.overlap_iff _ _).2 (.inl isPrefix)

theorem overlaps_of_target_eq {e : Fix} (same : e.target = f.target) : e.overlaps f = true :=
  overlaps_of_prefix (same ▸ List.prefix_refl _)

theorem plan_eq_some {chain : KeyChain} {new : Members} (entry : plan fixes chain = some new) :
    ∃ f ∈ fixes, f.target = chain ∧ f.inPlace = new := by
  obtain ⟨f, found, inPlace⟩ := Option.map_eq_some_iff.1 entry
  exact ⟨f, List.mem_of_find?_eq_some found, by simpa using List.find?_some found, inPlace⟩

theorem Apart.eq_of_overlaps (apart : Apart fixes) {e : Fix} (inFixes : e ∈ fixes) (mem : f ∈ fixes)
    (overlap : e.overlaps f = true) : e = f := by
  have : Std.Symm fun e f : Fix => e.overlaps f = false := ⟨fun e f none => overlaps_comm f e ▸ none⟩
  by_contra ne
  have none := List.Pairwise.forall apart inFixes mem ne
  rw [overlap] at none
  cases none

/-- With no two fixes at one node, the plan holds each of them. -/
theorem Apart.plan_target (apart : Apart fixes) (mem : f ∈ fixes) : plan fixes f.target = some f.inPlace := by
  cases entry : plan fixes f.target with
  | none =>
      rw [plan, Option.map_eq_none_iff, List.find?_eq_none] at entry
      exact absurd (beq_self_eq_true f.target) (entry f mem)
  | some new =>
      obtain ⟨e, inFixes, sameTarget, rfl⟩ := plan_eq_some entry
      rw [apart.eq_of_overlaps inFixes mem (overlaps_of_target_eq sameTarget)]

/-- A plan does not depend on the order of its fixes. -/
theorem Apart.plan_perm (apart : Apart fixes) {fixes' : List Fix} (perm : fixes'.Perm fixes) :
    plan fixes' = plan fixes := by
  have apart' : Apart fixes' := perm.symm.pairwise apart fun none => overlaps_comm _ _ ▸ none
  funext chain
  ext new
  constructor
  · intro entry
    obtain ⟨f, mem, rfl, rfl⟩ := plan_eq_some entry
    exact apart.plan_target (perm.mem_iff.1 mem)
  · intro entry
    obtain ⟨f, mem, rfl, rfl⟩ := plan_eq_some entry
    exact apart'.plan_target (perm.mem_iff.2 mem)

theorem clear_plan (apart : ∀ e ∈ fixes, e.overlaps f = false) : (plan fixes).Clear f.target := by
  intro chain overlap
  cases entry : plan fixes chain with
  | none => rfl
  | some new =>
      obtain ⟨e, mem, rfl, -⟩ := plan_eq_some entry
      have none : Path.overlap e.target f.target = false := apart e mem
      rw [overlap] at none
      cases none

theorem plan_concat (absent : plan fixes f.target = none) :
    plan (fixes ++ [f]) = (plan fixes).insert f.target f.inPlace := by
  funext chain
  rw [plan, List.find?_append]
  by_cases here : chain = f.target
  · subst here
    rw [plan, Option.map_eq_none_iff] at absent
    rw [Substitution.insert_self, absent]
    simp
  · have elsewhere : [f].find? (fun f => f.target == chain) = none := by simpa using Ne.symm here
    rw [Substitution.insert_of_ne _ _ here, elsewhere, Option.or_none]
    rfl

theorem fresh_plan {document : Members} (keyed : (Json.obj document).isKeyed = true)
    (offered : ∀ f ∈ fixes, f.Offered document) : (plan fixes).Fresh (.obj document) := by
  intro above key ms new leads _ entry
  obtain ⟨f, mem, target, rfl⟩ := plan_eq_some entry
  obtain ⟨above', name, parent, node, fits⟩ := (offered f mem).fits keyed
  rw [fits.target] at target
  obtain ⟨rfl, same⟩ := List.append_inj' target rfl
  cases same
  cases fits.around.symm.trans leads
  exact fits.unused

end Fix

/-! ## Runs of offered fixes -/

namespace Fixer

/-- A fixer after a run of fixes that a document offers: the applied ones neither overlap nor contend,
and together they make what the fixer holds of the document. -/
structure Batch (document : Members) (s : Fixer) : Prop where
  offered : ∀ f ∈ s.applied, f.Offered document
  apart : Fix.Apart s.applied
  compatible : s.applied.Pairwise fun e f => ¬ e.Contend f
  document_eq : s.document = (Json.obj document).substitute (Fix.plan s.applied)
  keyed : s.document.isKeyed = true

theorem batch_ofDocument {document : Members} (keyed : (Json.obj document).isKeyed = true) :
    Batch document (ofDocument (.obj document)) :=
  ⟨nofun, .nil, .nil, (Json.substitute_none _).symm, keyed⟩

section Batch

variable {document : Members} {s : Fixer}

theorem Batch.document_obj (batch : s.Batch document) :
    s.document = .obj (substituteIn (Fix.plan s.applied) document) :=
  batch.document_eq

variable {f : Fix} {above : KeyChain} {name : String}
  {parent : Members} {node : Json}

/-- The members around the node of a fix, as the applied fixes have left them. -/
def around (s : Fixer) (above : KeyChain) (parent : Members) : Members :=
  substituteIn ((Fix.plan s.applied).under above) parent

/-- The node of a fix that overlaps no applied one is where it was, unchanged. -/
theorem Batch.finds (batch : s.Batch document) (keyed : (Json.obj document).isKeyed = true)
    (fits : f.Fits document above name parent node)
    (apart : ∀ done ∈ s.applied, done.overlaps f = false) :
    s.document.at? above = some (.obj (s.around above parent)) ∧
      (s.around above parent).keys.Nodup ∧ (s.around above parent).get? name = some node := by
  have clear := Fix.clear_plan apart
  have fresh := Fix.fresh_plan keyed batch.offered
  rw [fits.target] at clear
  have leads : s.document.at? above = some (.obj (s.around above parent)) := by
    rw [batch.document_eq]
    refine at?_substitute fresh keyed fits.around fun front isPrefix _ => ?_
    exact clear.of_prefix (isPrefix.trans (List.prefix_append _ _))
  refine ⟨leads, ((isKeyed_obj_iff _).1 (Json.isKeyed_of_at? batch.keyed leads)).1, ?_⟩
  have distinct := ((isKeyed_obj_iff parent).1 (Json.isKeyed_of_at? keyed fits.around)).1
  have nothing : ((Fix.plan s.applied).under above).below name = .none := by
    rw [← clear.under_eq]
    funext rest
    simp [Substitution.under, Substitution.below]
  have stays : ((Fix.plan s.applied).under above).placed (name, node) = [(name, node)] :=
    Substitution.placed_of_below_none nothing
  rw [Fixer.around, get?_substituteIn (fresh.under fits.around) distinct fits.found, stays,
    Members.get?_cons]
  exact if_pos rfl

/-- A new name beside a node comes from a fix that was applied beside it. -/
theorem Batch.mem_keys_around_iff (batch : s.Batch document)
    (keyed : (Json.obj document).isKeyed = true)
    (around : (Json.obj document).at? above = some (.obj parent)) {key : String}
    (unused : key ∉ parent.keys) :
    key ∈ (s.around above parent).keys ↔
      ∃ e ∈ s.applied, e.target.dropLast = above ∧ key ∈ e.inPlace.keys := by
  rw [Fixer.around, mem_keys_substituteIn_iff]
  constructor
  · rintro ⟨m, inParent, placed⟩
    cases entry : (Fix.plan s.applied).under above [m.1] with
    | none =>
        rw [Substitution.placed_of_none entry] at placed
        have same : key = m.1 := List.mem_singleton.1 placed
        rw [same] at unused
        exact absurd (Members.mem_keys_of_mem inParent) unused
    | some new =>
        rw [Substitution.placed_of_some entry] at placed
        obtain ⟨e, applied, target, rfl⟩ := Fix.plan_eq_some entry
        exact ⟨e, applied, by rw [target, List.dropLast_concat], placed⟩
  · rintro ⟨e, applied, sameParent, mem⟩
    obtain ⟨above', name, parent', node, fits⟩ := (batch.offered e applied).fits keyed
    rw [fits.target, List.dropLast_concat] at sameParent
    subst sameParent
    cases fits.around.symm.trans around
    refine ⟨(name, node), Members.mem_of_get? fits.found, ?_⟩
    have entry := batch.apart.plan_target applied
    rw [fits.target] at entry
    rwa [Substitution.placed_of_some entry]

/-- **The names of a fix are taken beside its node exactly if it contends with an applied fix.** -/
theorem Batch.exists_taken_iff (batch : s.Batch document) (keyed : (Json.obj document).isKeyed = true)
    (fits : f.Fits document above name parent node)
    (apart : ∀ done ∈ s.applied, done.overlaps f = false) :
    (∃ key, key ∈ f.taken name (s.around above parent)) ↔ ∃ e ∈ s.applied, e.Contend f := by
  have inTaken (key : String) : key ∈ f.taken name (s.around above parent) ↔
      key ∈ f.inPlace.keys ∧ key ≠ name ∧ key ∈ (s.around above parent).keys := by
    simp [Fix.taken, ← Members.has_iff_mem_keys]
  constructor
  · rintro ⟨key, mem⟩
    obtain ⟨inNew, ne, inUse⟩ := (inTaken key).1 mem
    have unused := fits.unused key inNew ne
    obtain ⟨e, applied, sameParent, inOther⟩ :=
      (batch.mem_keys_around_iff keyed fits.around unused).1 inUse
    obtain ⟨above', name', parent', node', fits'⟩ := (batch.offered e applied).fits keyed
    obtain rfl : above' = above := fits'.parent_eq.symm.trans sameParent
    cases fits'.around.symm.trans fits.around
    have ne' : key ≠ name' := by
      rintro rfl
      exact unused (Members.mem_keys_of_get? fits'.found)
    exact ⟨e, applied, fits'.flattens inOther ne', fits.flattens inNew ne,
      sameParent.trans fits.parent_eq.symm, key, inOther, inNew⟩
  · rintro ⟨e, applied, -, -, sameParent, key, inOther, inNew⟩
    obtain ⟨above', name', parent', node', fits'⟩ := (batch.offered e applied).fits keyed
    obtain rfl : above' = above := fits'.parent_eq.symm.trans (sameParent.trans fits.parent_eq)
    cases fits'.around.symm.trans fits.around
    have ne : key ≠ name := by
      rintro rfl
      by_cases same : key = name'
      · have overlap : e.overlaps f = true :=
          Fix.overlaps_of_target_eq (by rw [fits.target, fits'.target, same])
        rw [apart e applied] at overlap
        cases overlap
      · exact fits'.unused key inOther same (Members.mem_keys_of_get? fits.found)
    refine ⟨key, (inTaken key).2 ⟨inNew, ne, ?_⟩⟩
    exact (batch.mem_keys_around_iff keyed fits.around (fits.unused key inNew ne)).2
      ⟨e, applied, fits'.parent_eq, inOther⟩

theorem Batch.isEmpty_taken_iff (batch : s.Batch document) (keyed : (Json.obj document).isKeyed = true)
    (fits : f.Fits document above name parent node)
    (apart : ∀ done ∈ s.applied, done.overlaps f = false) :
    (f.taken name (s.around above parent)).isEmpty = true ↔ ∀ done ∈ s.applied, ¬ done.Contend f := by
  rw [List.isEmpty_iff, List.eq_nil_iff_forall_not_mem, ← not_exists,
    batch.exists_taken_iff keyed fits apart]
  simp

/-! ## Calls -/

/-- What a call comes to, by what the fix makes of the members around its node. -/
def ofPatch (s : Fixer) (f : Fix) : Patch → Fixer × Outcome
  | .applied new => ({ s.rebuilt f new with applied := s.applied ++ [f] }, .applied)
  | .skipped reason => (s, .skipped reason)
  | .failed fault => (s, .failed fault)
  | .broken fault new => (s.rebuilt f new, .failed fault)

theorem apply_of_parent? (apart : ∀ done ∈ s.applied, done.overlaps f = false) {beside : Members}
    (inParent : s.document.parent? f.target = some beside) (last : f.target.getLast? = some name) :
    s.apply f = s.ofPatch f (f.patch beside name) := by
  have none : s.applied.find? (fun done => done.overlaps f) = none := by
    simpa [List.find?_eq_none] using apart
  unfold apply
  rw [none, inParent, last]
  rfl

theorem apply_of_absent (apart : ∀ done ∈ s.applied, done.overlaps f = false)
    (absent : s.document.parent? f.target = none) : s.apply f = (s, .skipped .notFound) := by
  have none : s.applied.find? (fun done => done.overlaps f) = none := by
    simpa [List.find?_eq_none] using apart
  unfold apply
  rw [none, absent]

/-- A call on the document of a batch, whatever fixer holds it, puts the members of the fix in the place
of its node unless one of their names is taken. -/
theorem Batch.apply_beside (batch : s.Batch document) (keyed : (Json.obj document).isKeyed = true)
    (fits : f.Fits document above name parent node)
    (apart : ∀ done ∈ s.applied, done.overlaps f = false) {t : Fixer}
    (same : t.document = s.document) (alone : ∀ done ∈ t.applied, done.overlaps f = false) :
    t.apply f = t.ofPatch f
      (if (f.taken name (s.around above parent)).isEmpty then
        .applied ((s.around above parent).splice name f.inPlace)
       else .skipped (.wouldOverwrite (f.taken name (s.around above parent)))) := by
  obtain ⟨leads, distinct, found⟩ := batch.finds keyed fits apart
  have inParent : t.document.parent? f.target = some (s.around above parent) := by
    rw [same, fits.target, Json.parent?_concat_iff]
    exact ⟨leads, (Members.has_iff_mem_keys _ _).2 (Members.mem_keys_of_get? found)⟩
  have last : f.target.getLast? = some name := by rw [fits.target, List.getLast?_concat]
  rw [apply_of_parent? alone inParent last, fits.patch_found _ distinct found]

/-- What a call with an offered fix comes to. -/
inductive BatchCall (document : Members) (s : Fixer) (f : Fix) : Prop where
  | overlapping {done : Fix} (applied : done ∈ s.applied) (overlap : done.overlaps f = true)
      (call : s.apply f = (s, .skipped (.overlaps done)))
  | contending {done : Fix} {names : List String} (apart : ∀ done ∈ s.applied, done.overlaps f = false)
      (applied : done ∈ s.applied) (contend : done.Contend f)
      (call : s.apply f = (s, .skipped (.wouldOverwrite names)))
  | applied {s' : Fixer} (apart : ∀ done ∈ s.applied, done.overlaps f = false)
      (compatible : ∀ done ∈ s.applied, ¬ done.Contend f) (call : s.apply f = (s', .applied))
      (applied_eq : s'.applied = s.applied ++ [f]) (batch : s'.Batch document)

/-- Without contention none of the names that a fix brings is in use beside its node. -/
theorem Batch.unused (batch : s.Batch document) (keyed : (Json.obj document).isKeyed = true)
    (fits : f.Fits document above name parent node)
    (apart : ∀ done ∈ s.applied, done.overlaps f = false)
    (compatible : ∀ done ∈ s.applied, ¬ done.Contend f) :
    ∀ key ∈ f.inPlace.keys, key ≠ name → key ∉ (s.around above parent).keys := by
  intro key mem ne inUse
  have taken : key ∈ f.taken name (s.around above parent) :=
    List.mem_filter.2 ⟨mem, by simp [ne, (Members.has_iff_mem_keys _ _).2 inUse]⟩
  obtain ⟨e, applied, contend⟩ := (batch.exists_taken_iff keyed fits apart).1 ⟨key, taken⟩
  exact compatible e applied contend

/-- A fix that is applied becomes part of the batch. -/
theorem Batch.add (batch : s.Batch document) (keyed : (Json.obj document).isKeyed = true)
    (offered : f.Offered document) (fits : f.Fits document above name parent node)
    (apart : ∀ done ∈ s.applied, done.overlaps f = false)
    (compatible : ∀ done ∈ s.applied, ¬ done.Contend f) :
    Batch document
      { s.rebuilt f ((s.around above parent).splice name f.inPlace) with
        applied := s.applied ++ [f] } := by
  obtain ⟨leads, distinct, found⟩ := batch.finds keyed fits apart
  have aroundKeyed := Json.isKeyed_of_at? batch.keyed leads
  refine ⟨?offered, ?apart, ?compatible, ?document_eq, ?keyed⟩
  case offered =>
    intro e mem
    rcases List.mem_append.1 mem with before | last
    · exact batch.offered e before
    · exact List.mem_singleton.1 last ▸ offered
  case apart =>
    refine List.pairwise_append.2 ⟨batch.apart, List.pairwise_singleton _ _, fun e applied g last => ?_⟩
    exact List.mem_singleton.1 last ▸ apart e applied
  case compatible =>
    refine List.pairwise_append.2
      ⟨batch.compatible, List.pairwise_singleton _ _, fun e applied g last => ?_⟩
    exact List.mem_singleton.1 last ▸ compatible e applied
  case document_eq =>
    have clear := Fix.clear_plan apart
    have resultKeyed := batch.keyed
    rw [Fix.plan_concat (clear.of_prefix (List.prefix_refl _))]
    show s.document.withParent f.target _ = _
    rw [fits.target] at clear ⊢
    rw [batch.document_eq] at resultKeyed ⊢
    exact withParent_substitute (Fix.fresh_plan keyed batch.offered) keyed resultKeyed fits.around
      fits.found clear f.inPlace
  case keyed =>
    refine Json.isKeyed_withParent ((isKeyed_obj_iff _).2 ⟨?_, fun m mem => ?_⟩) batch.keyed f.target
    · exact Members.nodup_keys_splice distinct fits.distinct (batch.unused keyed fits apart compatible)
    · rcases Members.mem_splice mem with inAround | inNew
      · exact ((isKeyed_obj_iff _).1 aroundKeyed).2 m inAround
      · exact fits.keyed m inNew

/-- **Every call with an offered fix ends in one of three ways**, and a batch stays a batch. -/
theorem Batch.call (batch : s.Batch document) (keyed : (Json.obj document).isKeyed = true)
    (offered : f.Offered document) : BatchCall document s f := by
  cases search : s.applied.find? fun done => done.overlaps f with
  | some done =>
      refine .overlapping (List.mem_of_find?_eq_some search) (by simpa using List.find?_some search) ?_
      unfold apply
      rw [search]
  | none =>
      have apart : ∀ done ∈ s.applied, done.overlaps f = false := by
        simpa using List.find?_eq_none.1 search
      obtain ⟨above, name, parent, node, fits⟩ := offered.fits keyed
      have call := batch.apply_beside keyed fits apart rfl apart
      by_cases compatible : ∀ done ∈ s.applied, ¬ done.Contend f
      · rw [if_pos ((batch.isEmpty_taken_iff keyed fits apart).2 compatible)] at call
        exact .applied apart compatible call rfl
          (batch.add keyed offered fits apart compatible)
      · rw [if_neg (mt (batch.isEmpty_taken_iff keyed fits apart).1 compatible)] at call
        obtain ⟨done, applied, contend⟩ : ∃ done ∈ s.applied, done.Contend f := by
          simpa using compatible
        exact .contending apart applied contend call

theorem Batch.run {fixes : List Fix} (batch : s.Batch document)
    (keyed : (Json.obj document).isKeyed = true) (offered : ∀ f ∈ fixes, f.Offered document) :
    (s.run fixes).1.Batch document ∧ ∀ fault, .failed fault ∉ (s.run fixes).2 := by
  induction fixes generalizing s with
  | nil => exact ⟨batch, nofun⟩
  | cons f rest ih =>
      rw [run_cons]
      have later := fun e mem => offered e (List.mem_cons_of_mem _ mem)
      cases batch.call keyed (offered f List.mem_cons_self) with
      | overlapping _ _ call | contending _ _ _ call =>
          rw [call]
          obtain ⟨restBatch, noFault⟩ := ih batch later
          exact ⟨restBatch, fun fault mem => by simp_all⟩
      | applied _ _ call _ next =>
          rw [call]
          obtain ⟨restBatch, noFault⟩ := ih next later
          exact ⟨restBatch, fun fault mem => by simp_all⟩

/-- **What a batch of collected fixes makes of a document**: nothing fails, and the result is that of
handing the fixes over one by one. -/
theorem batch_run {fixes : List Fix} (keyed : (Json.obj document).isKeyed = true)
    (collected : ∀ f ∈ fixes, f ∈ Fix.offers (.obj document)) :
    ((ofDocument (.obj document)).run fixes).1.Batch document ∧
      (applyApproved (.obj document) fixes).2 =
        .ok ((ofDocument (.obj document)).run fixes).1.document := by
  obtain ⟨batch, noFault⟩ := (batch_ofDocument keyed).run keyed fun f mem =>
    (Fix.offered_of_mem_offers (collected f mem)).1
  refine ⟨batch, applyApproved_eq (fun f mem => ?_) noFault⟩
  exact (Fix.offered_of_mem_offers (collected f mem)).2

/-- **No applied fix finds its node again**: what has come to stand there is not the same. -/
theorem Batch.moved (batch : s.Batch document) (keyed : (Json.obj document).isKeyed = true)
    (applied : f ∈ s.applied) (fits : f.Fits document above name parent node) {value : Json}
    (leads : s.document.at? f.target = some value) : value.same node = false := by
  have entry := batch.apart.plan_target applied
  rw [fits.target] at leads entry
  -- An entry on the way would belong to a fix that overlaps this one.
  have kept : ∀ front, front <+: above → front ≠ [] → Fix.plan s.applied front = none := by
    intro front isPrefix _
    cases found : Fix.plan s.applied front with
    | none => rfl
    | some new =>
        obtain ⟨e, applied', rfl, -⟩ := Fix.plan_eq_some found
        have overlap : e.overlaps f = true := by
          refine Fix.overlaps_of_prefix ?_
          rw [fits.target]
          exact isPrefix.trans (List.prefix_append _ _)
        rw [batch.apart.eq_of_overlaps applied' applied overlap, fits.target] at isPrefix
        exact absurd isPrefix.length_le (by simp)
  rw [batch.document_eq, at?_substitute_replaced (Fix.fresh_plan keyed batch.offered) keyed fits.around
    fits.found kept entry] at leads
  exact fits.moves value leads

end Batch

end Fixer

end DesignTokens
