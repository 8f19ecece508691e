/-
# DesignTokens.Proofs.Validation.Flat -- what is left of groups in groups

A check has no error to report of a group in a group, and the search for clusters has nothing to say
about a plain one; but no group gets past both.  Its children would be in order, and so would the
children of a plain group among them.  The lowest of these groups holds tokens, and so is a nested
cluster (`hasValue_of_fine`).  In a valid document, therefore, the search for clusters finds nothing
exactly if the document is flat: the members of its token groups carry values, all of them
(`clusters_eq_nil_iff_isFlat`).
-/
import DesignTokens.Proofs.Fix.Collect
import DesignTokens.Proofs.Validation.Conformance

namespace DesignTokens

set_option autoImplicit false

/-- The token groups of a document hold tokens with values and nothing else. -/
def Members.IsFlat (document : Members) : Prop :=
  ∀ (name : String) (group : Members), (name, .obj group) ∈ document →
    isTokenGroup name (.obj group) = true →
      ∀ m ∈ group, Key.isMeta m.1 = false → m.2.hasValue = true

namespace Validation

theorem clustersIn_eq_nil_iff (group : String) (above : KeyChain) (siblings ms : Members) :
    clustersIn group above siblings ms = [] ↔
      ∀ m ∈ ms, Key.isMeta m.1 = false → clustersAt group above siblings m.1 m.2 = [] := by
  simp only [List.eq_nil_iff_forall_not_mem, mem_clustersIn_iff]
  constructor
  · intro nothing m mem notMeta c found
    exact nothing c ⟨m, mem, notMeta, found⟩
  · rintro nothing c ⟨m, mem, notMeta, found⟩
    exact nothing m mem notMeta c found

/-- What carries a value is a token, and no cluster. -/
theorem clustersAt_of_hasValue {node : Json} (hasValue : node.hasValue = true) (group : String)
    (above : KeyChain) (siblings : Members) (name : String) :
    clustersAt group above siblings name node = [] := by
  cases node with
  | obj ms =>
      have isToken : Members.kind ms = .token := by
        rw [Json.hasValue] at hasValue
        simp [Members.kind, Members.isToken, hasValue]
      rw [clustersAt, isToken]
  | _ => rfl

/-- The children of a group without errors are without errors. -/
theorem fine_child {keys : KeyChain} {handed : Option TokenType} {ms : Members}
    (fine : ∀ d ∈ checkNode keys handed (.obj ms), d.isError = false) (isGroup : ms.isToken = false)
    {m : String × Json} (mem : m ∈ ms) (notMeta : Key.isMeta m.1 = false) :
    ∀ d ∈ checkNode (keys ++ [m.1]) (ms.groupType?.or handed) m.2, d.isError = false := by
  intro d found
  refine fine d ((mem_checkNode_iff _ _ _ d).2 (.inr ⟨ms, rfl, isGroup, ?_⟩))
  exact (mem_checkMembers_iff_exists_member _ _ ms d).2 ⟨m, mem, notMeta, found⟩

/-- A group in which no cluster is found is none itself, and none is found in its members. -/
theorem kind_of_clustersAt_eq_nil {group name : String} {above : KeyChain} {siblings ms : Members}
    (noCluster : clustersAt group above siblings name (.obj ms) = []) (isGroup : ms.isToken = false) :
    ms.kind = .group ∧ clustersIn group (above ++ [name]) ms ms = [] := by
  rw [clustersAt] at noCluster
  split at noCluster
  · rename_i isToken
    unfold Members.kind at isToken
    rw [isGroup, if_neg (by decide)] at isToken
    split at isToken <;> cases isToken
  · cases noCluster
  · rename_i isPlain
    exact ⟨isPlain, noCluster⟩

/-- **What a check finds no error in, and the search finds no cluster in, carries a value.** -/
theorem hasValue_of_fine {node : Json} {keys : KeyChain} {handed : Option TokenType}
    (fine : ∀ d ∈ checkNode keys handed node, d.isError = false) {group name : String}
    {above : KeyChain} {siblings : Members}
    (noCluster : clustersAt group above siblings name node = []) : node.hasValue = true := by
  have inOrder := (isError_foundAt_iff keys handed node).1 fun d found =>
    fine d ((mem_checkNode_iff _ _ _ d).2 (.inl found))
  cases node with
  | obj ms =>
      induction ms using Members.nested_induction generalizing keys handed above siblings name with
      | step ms ih =>
          rw [Json.hasValue]
          by_contra noValue
          rw [Bool.not_eq_true] at noValue
          -- Without a value the object has a child, and it is a plain group, for it is no cluster.
          have isGroup : ms.isToken = false := by
            rw [Members.isToken, noValue, Bool.false_or, List.isEmpty_eq_false_iff]
            intro childless
            rw [inOrder.1 childless] at noValue
            cases noValue
          obtain ⟨isPlain, noClusterBelow⟩ := kind_of_clustersAt_eq_nil noCluster isGroup
          obtain ⟨-, key, inKeys, notMeta⟩ := (Members.isGroup_iff ms).1 isGroup
          obtain ⟨child, mem⟩ := Members.exists_of_mem_keys inKeys
          have childFine := fine_child fine isGroup mem notMeta
          have childNoCluster := (clustersIn_eq_nil_iff _ _ _ ms).1 noClusterBelow _ mem notMeta
          have childInOrder := (isError_foundAt_iff _ _ child).1 fun d found =>
            childFine d ((mem_checkNode_iff _ _ _ d).2 (.inl found))
          -- So the child carries a value, which makes a cluster of the group after all.
          have childHasValue : child.hasValue = true := by
            cases child with
            | obj inner => exact ih key inner mem childFine childNoCluster childInOrder
            | _ => exact childInOrder.elim
          have noLooks := Members.looksLikeToken_eq_false isPlain mem notMeta
          rw [Json.looksLikeToken_of_hasValue childHasValue] at noLooks
          cases noLooks
  | _ => exact inOrder.elim

end Validation

open Validation

/-- Nothing is found in a root entry that is metadata or the brand block. -/
theorem clustersOfEntry_of_isTokenGroup_eq_false {name : String} {value : Json}
    (noGroup : isTokenGroup name value = false) : clustersOfEntry name value = [] := by
  unfold clustersOfEntry
  split
  · rw [if_neg (by simp [noGroup])]
  · rfl

/-- **A valid document has no nested clusters exactly if it is flat**: every member of a token group,
metadata aside, is an object that carries a value.  So no group in a group passes both checks. -/
theorem clusters_eq_nil_iff_isFlat (v : Validator) {document : Json}
    (valid : (v.validate document).isValid = true) :
    (v.validate document).clusters = [] ↔ ∃ ms, document = .obj ms ∧ Members.IsFlat ms := by
  cases document with
  | obj ms =>
      have fine := (Findings.isValid_ofDiagnostics _ _).1 valid
      show clusters ms = [] ↔ _
      rw [clusters, List.flatMap_eq_nil_iff]
      constructor
      · intro noClusters
        refine ⟨ms, rfl, fun name group inDocument isGroup m mem notMeta => ?_⟩
        obtain ⟨entryNotMeta, notBrand, -⟩ := (isTokenGroup_iff _ _).1 isGroup
        have noCluster := noClusters (name, .obj group) inDocument
        rw [clustersOfEntry, if_pos isGroup, clustersIn_eq_nil_iff] at noCluster
        have memberFine : ∀ d ∈ checkNode ([name] ++ [m.1])
            (group.groupType?.or (Members.groupType? ms)) m.2, d.isError = false := by
          intro d found
          refine fine d (List.mem_append_right _ (List.mem_flatMap.2 ⟨_, inDocument, ?_⟩))
          rw [if_neg (by simp [entryNotMeta, notBrand]), checkEntry]
          refine List.mem_append_right _ ?_
          exact (mem_checkMembers_iff_exists_member _ _ group d).2 ⟨m, mem, notMeta, found⟩
        exact hasValue_of_fine memberFine (noCluster m mem notMeta)
      · rintro ⟨_, same, flat⟩ ⟨name, value⟩ inDocument
        cases same
        cases isGroup : isTokenGroup name value with
        | true =>
            obtain ⟨group, rfl⟩ := exists_members_of_isTokenGroup isGroup
            rw [clustersOfEntry, if_pos isGroup, clustersIn_eq_nil_iff]
            intro m mem notMeta
            exact clustersAt_of_hasValue (flat name group inDocument isGroup m mem notMeta) _ _ _ _
        | false => exact clustersOfEntry_of_isTokenGroup_eq_false isGroup
  | _ => cases valid

namespace Example

/-- A typed group with two tokens, one of them in the old spelling. -/
def flatSpaces : Json :=
  .obj [("$description", .str "Space"), ("spacing", .obj [("$type", .str "dimension"),
    ("near", .obj [("$value", .str "4px")]), ("far", .obj [("value", .str "16px")])])]

/-- The tokens of `flatSpaces` once more, with a group around them. -/
def nestedSpaces : Json :=
  .obj [("spacing", .obj [("$type", .str "dimension"),
    ("inline", .obj [("near", .obj [("$value", .str "4px")]), ("far", .obj [("value", .str "16px")])])])]

/-- Both documents are valid.  One is flat; the other is not, and a cluster is found in it. -/
theorem flatSpaces_isFlat :
    (lenient.validate flatSpaces).isValid = true ∧ (lenient.validate flatSpaces).clusters = [] ∧
      (∃ ms, flatSpaces = .obj ms ∧ Members.IsFlat ms) ∧
      (lenient.validate nestedSpaces).isValid = true ∧
      (lenient.validate nestedSpaces).clusters ≠ [] := by
  have valid : (lenient.validate flatSpaces).isValid = true := rfl
  have noClusters : (lenient.validate flatSpaces).clusters = [] := rfl
  have nestedValid : (lenient.validate nestedSpaces).isValid = true := rfl
  refine ⟨valid, noClusters, (clusters_eq_nil_iff_isFlat lenient valid).1 noClusters, nestedValid, ?_⟩
  intro noClusters
  obtain ⟨_, same, flat⟩ := (clusters_eq_nil_iff_isFlat lenient nestedValid).1 noClusters
  cases same
  cases flat "spacing" _ (List.mem_singleton_self _) rfl _ (List.mem_cons_of_mem _
    (List.mem_singleton_self _)) rfl

end Example

end DesignTokens
