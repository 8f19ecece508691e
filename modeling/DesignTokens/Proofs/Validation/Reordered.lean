/-
# DesignTokens.Proofs.Validation.Reordered -- a check does not look at the order of members

A check walks over the members of a document and its groups, and reads tokens by their keys.  In a
reordered document it makes the same findings in another order: the same rules find something in the
same places (`sameVerdicts_checkDocument`), and the same nodes are nested clusters
(`clusters_path_perm`).  So the document is valid, or clean, in every order of its members or in none.
-/
import DesignTokens.Proofs.Normal.Keyed
import DesignTokens.Proofs.Rule.Reordered
import DesignTokens.Proofs.Validation.Clean

namespace DesignTokens

set_option autoImplicit false

/-- A walk with the same verdicts on reordered values has the same verdicts on reordered members. -/
theorem SameVerdicts.flatMap {xs ys : Members} (same : xs.Reordered ys)
    {f : String × Json → List Diagnostic}
    (each : ∀ key x y, (key, x) ∈ xs → x.Reordered y → SameVerdicts (f (key, x)) (f (key, y))) :
    SameVerdicts (xs.flatMap f) (ys.flatMap f) := by
  rw [SameVerdicts, List.map_flatMap, List.map_flatMap]
  exact same.flatMap_perm each

namespace Validation

variable {xs ys : Members} {tag tag' : Json}

/-! ## Tokens -/

theorem sameVerdicts_checkTag (same : tag.Reordered tag') (path : String) :
    SameVerdicts (checkTag tag path) (checkTag tag' path) := by
  have sameType := same.congr_scalar TokenType.ofTag? (fun _ _ => rfl) fun _ _ => rfl
  rw [checkTag, checkTag, sameType]
  cases TokenType.ofTag? tag' with
  | none => exact .of_eq rfl
  | some => exact .refl _

theorem sameVerdicts_checkGroupTag (same : xs.Reordered ys) (distinct : xs.keys.Nodup)
    (path : String) : SameVerdicts (checkGroupTag xs path) (checkGroupTag ys path) := by
  rw [checkGroupTag, checkGroupTag]
  cases same.find distinct Key.type with
  | none absent absent' =>
      rw [absent, absent']
      exact .refl _
  | some found found' tag =>
      rw [found, found']
      exact sameVerdicts_checkTag tag _

/-- A token's tag stands under the same key. -/
theorem ownTag?_rel (same : xs.Reordered ys) (distinct : xs.keys.Nodup) :
    Option.Rel (fun own own' => own.1 = own'.1 ∧ own.2.Reordered own'.2) (ownTag? xs) (ownTag? ys) := by
  rw [ownTag?, ownTag?]
  cases same.find distinct Key.type with
  | some found found' tag =>
      rw [found, found']
      exact .some ⟨rfl, tag⟩
  | none absent absent' =>
      rw [absent, absent']
      cases same.find distinct Key.legacyType with
      | some found found' tag =>
          rw [found, found']
          exact .some ⟨rfl, tag⟩
      | none absent absent' =>
          rw [absent, absent']
          exact .none

theorem checkedType?_congr (same : xs.Reordered ys) (distinct : xs.keys.Nodup)
    (inherited : Option TokenType) : checkedType? xs inherited = checkedType? ys inherited := by
  have own := ownTag?_rel same distinct
  rw [checkedType?, checkedType?]
  generalize ownTag? xs = x at own ⊢
  generalize ownTag? ys = y at own ⊢
  cases own with
  | none => rfl
  | some tags => exact tags.2.congr_scalar TokenType.ofTag? (fun _ _ => rfl) fun _ _ => rfl

theorem sameVerdicts_checkType (same : xs.Reordered ys) (distinct : xs.keys.Nodup) (path : String)
    (inherited : Option TokenType) :
    SameVerdicts (checkType xs path inherited) (checkType ys path inherited) := by
  have own := ownTag?_rel same distinct
  have sameType := (same.tokenValue distinct).congr_scalar TokenType.infer? (fun _ _ => rfl)
    fun _ _ => rfl
  unfold checkType
  rw [sameType]
  generalize ownTag? xs = x at own ⊢
  generalize ownTag? ys = y at own ⊢
  cases own with
  | none => exact .refl _
  | @some own own' tags =>
      obtain ⟨key, tag⟩ := own
      obtain ⟨key', tag'⟩ := own'
      obtain ⟨rfl, sameTag⟩ := tags
      exact .append (.ite Iff.rfl (.of_eq rfl) (.refl _)) (sameVerdicts_checkTag sameTag _)

theorem sameVerdicts_checkValue (same : xs.Reordered ys) (keyed : (Json.obj xs).isKeyed = true)
    (path : String) (inherited : Option TokenType) :
    SameVerdicts (checkValue xs path inherited) (checkValue ys path inherited) := by
  have distinct := ((isKeyed_obj_iff xs).1 keyed).1
  rw [checkValue, checkValue, checkedType?_congr same distinct]
  cases checkedType? ys inherited with
  | none => exact .refl _
  | some t =>
      exact t.orderless_check _ _ (same.tokenValue distinct) (Normal.isKeyed_tokenValue keyed) path

theorem sameVerdicts_checkToken (same : xs.Reordered ys) (keyed : (Json.obj xs).isKeyed = true)
    (path : String) (inherited : Option TokenType) :
    SameVerdicts (checkToken xs path inherited) (checkToken ys path inherited) := by
  have distinct := ((isKeyed_obj_iff xs).1 keyed).1
  rw [checkToken, checkToken, same.valueKey?_eq]
  cases ys.valueKey? with
  | none => exact .of_eq rfl
  | some key =>
      refine .append (.append (.ite Iff.rfl (.of_eq rfl) (.refl _)) ?_) ?_
      · exact sameVerdicts_checkType same distinct path inherited
      · exact sameVerdicts_checkValue same keyed _ inherited

/-! ## Groups -/

theorem checkMembers_eq_flatMap (keys : KeyChain) (inherited : Option TokenType) (ms : Members) :
    checkMembers keys inherited ms =
      ms.flatMap fun m => if Key.isMeta m.1 then [] else checkNode (keys ++ [m.1]) inherited m.2 := by
  induction ms with
  | nil => rfl
  | cons m rest ih => rw [checkMembers, ih, List.flatMap_cons]

/-- The members of a group, if each of them has the same verdicts. -/
theorem sameVerdicts_checkMembers (same : xs.Reordered ys) (keys : KeyChain)
    (inherited : Option TokenType)
    (each : ∀ key x y, (key, x) ∈ xs → x.Reordered y →
      SameVerdicts (checkNode (keys ++ [key]) inherited x) (checkNode (keys ++ [key]) inherited y)) :
    SameVerdicts (checkMembers keys inherited xs) (checkMembers keys inherited ys) := by
  rw [checkMembers_eq_flatMap, checkMembers_eq_flatMap]
  exact .flatMap same fun key x y mem related => .ite Iff.rfl (.refl _) (each key x y mem related)

/-- **A node and all below it.** -/
theorem sameVerdicts_checkNode {a b : Json} (same : a.Reordered b) (keyed : a.isKeyed = true)
    (keys : KeyChain) (inherited : Option TokenType) :
    SameVerdicts (checkNode keys inherited a) (checkNode keys inherited b) := by
  cases same.cases with
  | scalar => exact .refl _
  | arr => exact .of_eq rfl
  | @obj xs ys members =>
      clear same
      induction xs using Members.nested_induction generalizing ys keys inherited with
      | step xs ih =>
          have distinct := ((isKeyed_obj_iff xs).1 keyed).1
          rw [checkNode, checkNode, members.groupType?_eq distinct]
          refine .ite (by rw [members.isToken_eq]) ?_ (.append ?_ ?_)
          · exact sameVerdicts_checkToken members keyed _ inherited
          · exact sameVerdicts_checkGroupTag members distinct _
          · refine sameVerdicts_checkMembers members keys _ fun key x y mem related => ?_
            have childKeyed := ((isKeyed_obj_iff xs).1 keyed).2 _ mem
            cases related.cases with
            | scalar => exact .refl _
            | arr => exact .of_eq rfl
            | obj inner => exact ih key _ mem _ _ inner childKeyed

theorem sameVerdicts_checkEntry {a b : Json} (same : a.Reordered b) (keyed : a.isKeyed = true)
    (name : String) (rootType : Option TokenType) :
    SameVerdicts (checkEntry name rootType a) (checkEntry name rootType b) := by
  cases same.cases with
  | scalar => exact .refl _
  | arr => exact .of_eq rfl
  | @obj xs ys members =>
      obtain ⟨distinct, valuesKeyed⟩ := (isKeyed_obj_iff xs).1 keyed
      rw [checkEntry, checkEntry, members.groupType?_eq distinct]
      refine .append (sameVerdicts_checkGroupTag members distinct _) ?_
      exact sameVerdicts_checkMembers members _ _ fun key x y mem related =>
        sameVerdicts_checkNode related (valuesKeyed _ mem) _ _

/-! ## The root -/

theorem sameVerdicts_checkRoot (v : Validator) (same : xs.Reordered ys) (distinct : xs.keys.Nodup) :
    SameVerdicts (checkRoot v xs) (checkRoot v ys) := by
  refine .append (.append ?schema ?reserved) ?type
  case schema =>
    rw [checkSchema, checkSchema]
    cases same.find distinct Key.schema with
    | none absent absent' =>
        rw [absent, absent']
        exact .refl _
    | some found found' value =>
        rw [found, found']
        cases value.cases <;> exact .refl _
  case reserved =>
    rw [SameVerdicts, List.map_flatMap, List.map_flatMap]
    exact same.keys_perm.flatMap_right _
  case type => exact sameVerdicts_checkGroupTag same distinct "$"

theorem sameVerdicts_checkBrand {a b : Json} (same : a.Reordered b) (keyed : a.isKeyed = true) :
    SameVerdicts (checkBrand a) (checkBrand b) := by
  cases same.cases with
  | scalar => exact .refl _
  | arr => exact .refl _
  | @obj xs ys members =>
      have distinct := ((isKeyed_obj_iff xs).1 keyed).1
      have given (field : String) := (members.getD distinct field).isGiven_eq
      simp only [checkBrand, given]
      exact .refl _

/-- **The findings in a document.** -/
theorem sameVerdicts_checkDocument (v : Validator) (same : xs.Reordered ys)
    (keyed : (Json.obj xs).isKeyed = true) : SameVerdicts (checkDocument v xs) (checkDocument v ys) := by
  obtain ⟨distinct, valuesKeyed⟩ := (isKeyed_obj_iff xs).1 keyed
  rw [checkDocument, checkDocument, same.groupType?_eq distinct]
  refine .append (.append (sameVerdicts_checkRoot v same distinct) ?brand) ?entries
  case brand =>
    cases same.find distinct Key.brand with
    | none absent absent' =>
        rw [absent, absent']
        exact .refl _
    | some found found' brand =>
        rw [found, found']
        exact sameVerdicts_checkBrand brand (Members.isKeyed_of_get? keyed found)
  case entries =>
    exact .flatMap same fun key x y mem related =>
      .ite Iff.rfl (.refl _) (sameVerdicts_checkEntry related (valuesKeyed _ mem) _ _)

/-! ## Clusters -/

theorem clustersIn_path_perm (same : xs.Reordered ys) (group : String) (above : KeyChain)
    (siblings siblings' : Members)
    (each : ∀ key x y, (key, x) ∈ xs → x.Reordered y →
      ((clustersAt group above siblings key x).map Cluster.path).Perm
        ((clustersAt group above siblings' key y).map Cluster.path)) :
    ((clustersIn group above siblings xs).map Cluster.path).Perm
      ((clustersIn group above siblings' ys).map Cluster.path) := by
  rw [clustersIn_eq_flatMap, clustersIn_eq_flatMap, List.map_flatMap, List.map_flatMap]
  refine same.flatMap_perm fun key x y mem related => ?_
  dsimp only
  split
  · exact .refl _
  · exact each key x y mem related

/-- What is no object holds no cluster. -/
theorem clustersAt_of_ne_obj {value : Json} (noObject : ∀ ms, value ≠ .obj ms) (group : String)
    (above : KeyChain) (siblings : Members) (name : String) :
    clustersAt group above siblings name value = [] := by
  cases value with
  | obj ms => exact absurd rfl (noObject ms)
  | _ => rfl

/-- **Where the clusters are**, at a member of a group and below it, whatever stands beside it. -/
theorem clustersAt_path_perm {a b : Json} (same : a.Reordered b) (group : String) (above : KeyChain)
    (siblings siblings' : Members) (name : String) :
    ((clustersAt group above siblings name a).map Cluster.path).Perm
      ((clustersAt group above siblings' name b).map Cluster.path) := by
  cases same.cases with
  | scalar _ _ noObject =>
      rw [clustersAt_of_ne_obj noObject, clustersAt_of_ne_obj noObject]
  | arr => exact .refl _
  | @obj xs ys members =>
      clear same
      induction xs using Members.nested_induction generalizing ys above siblings siblings' name with
      | step xs ih =>
          rw [clustersAt, clustersAt, members.kind_eq]
          cases Members.kind ys with
          | token => exact .refl _
          | nestedTokens => exact .refl _
          | group =>
              refine clustersIn_path_perm members group _ xs ys fun key x y mem related => ?_
              cases related.cases with
              | scalar _ _ noObject =>
                  rw [clustersAt_of_ne_obj noObject, clustersAt_of_ne_obj noObject]
              | arr => exact .refl _
              | obj inner => exact ih key _ mem _ _ _ _ inner

theorem clusters_path_perm (same : xs.Reordered ys) :
    ((clusters xs).map Cluster.path).Perm ((clusters ys).map Cluster.path) := by
  rw [clusters, clusters, List.map_flatMap, List.map_flatMap]
  refine same.flatMap_perm fun name x y mem related => ?_
  cases related.cases with
  | scalar => exact .refl _
  | arr => exact .refl _
  | @obj xs ys members =>
      have sameGroup : isTokenGroup name (.obj xs) = isTokenGroup name (.obj ys) := rfl
      dsimp only [clustersOfEntry]
      rw [sameGroup]
      split
      · exact clustersIn_path_perm members name _ xs ys fun key x y _ related =>
          clustersAt_path_perm related _ _ _ _ _
      · exact .refl _

end Validation

open Validation

namespace SameVerdicts

variable {a b : List Diagnostic}

theorem mem (same : SameVerdicts a b) {d : Diagnostic} (inA : d ∈ a) : ∃ e ∈ b, e.verdict = d.verdict :=
  List.mem_map.1 (List.Perm.mem_iff same |>.1 (List.mem_map_of_mem inA))

theorem symm (same : SameVerdicts a b) : SameVerdicts b a :=
  List.Perm.symm same

theorem noError (same : SameVerdicts a b) (fine : ∀ d ∈ b, d.isError = false) :
    ∀ d ∈ a, d.isError = false := by
  intro d inA
  obtain ⟨e, inB, sameVerdict⟩ := same.mem inA
  have sameSeverity : e.severity = d.severity := congrArg (·.2.2) sameVerdict
  rw [Diagnostic.isError, ← sameSeverity]
  exact fine e inB

theorem isValid_eq (same : SameVerdicts a b) (clusters clusters' : List Cluster) :
    (Findings.ofDiagnostics a clusters).isValid = (Findings.ofDiagnostics b clusters').isValid := by
  rw [Bool.eq_iff_iff, Findings.isValid_ofDiagnostics, Findings.isValid_ofDiagnostics]
  exact ⟨same.symm.noError, same.noError⟩

theorem isClean_eq (same : SameVerdicts a b) {clusters clusters' : List Cluster}
    (samePaths : (clusters.map Cluster.path).Perm (clusters'.map Cluster.path)) :
    (Findings.ofDiagnostics a clusters).isClean = (Findings.ofDiagnostics b clusters').isClean := by
  have sameFindings := List.Perm.length_eq same
  have sameClusters := samePaths.length_eq
  rw [List.length_map, List.length_map] at sameFindings sameClusters
  rw [Bool.eq_iff_iff, Findings.isClean_ofDiagnostics, Findings.isClean_ofDiagnostics,
    ← List.length_eq_zero_iff, sameFindings, ← List.length_eq_zero_iff, sameClusters,
    List.length_eq_zero_iff, List.length_eq_zero_iff]

/-- Errors and warnings together are all that was found. -/
theorem diagnostics (same : SameVerdicts a b) (clusters clusters' : List Cluster) :
    SameVerdicts (Findings.ofDiagnostics a clusters).diagnostics
      (Findings.ofDiagnostics b clusters').diagnostics := by
  have all (found : List Diagnostic) (clusters : List Cluster) :
      (Findings.ofDiagnostics found clusters).diagnostics.Perm found :=
    List.filter_append_perm _ _
  exact ((all a clusters).map _).trans (same.trans ((all b clusters').map _).symm)

end SameVerdicts

/-- The findings in two documents differ in their order and in their texts at most. -/
structure Findings.Agree (f g : Findings) : Prop where
  verdicts : SameVerdicts f.diagnostics g.diagnostics
  clusters : (f.clusters.map Cluster.path).Perm (g.clusters.map Cluster.path)
  isValid : f.isValid = g.isValid
  isClean : f.isClean = g.isClean

/-- **A check finds the same in reordered documents.** -/
theorem Validator.validate_agree (v : Validator) {a b : Json} (same : a.Reordered b)
    (keyed : a.isKeyed = true) : (v.validate a).Agree (v.validate b) := by
  cases same.cases with
  | scalar => exact ⟨.refl _, .refl _, rfl, rfl⟩
  | arr => exact ⟨.refl _, .refl _, rfl, rfl⟩
  | obj members =>
      have found := sameVerdicts_checkDocument v members keyed
      have clusters := clusters_path_perm members
      exact ⟨found.diagnostics _ _, clusters, found.isValid_eq _ _, found.isClean_eq clusters⟩

end DesignTokens
