/-
# DesignTokens.Proofs.Validation.Visits -- the tokens that a check visits

A check walks from each token group down through its children.  `Members.Leads` is that walk without
the checking: a chain of keys leads from a group to a node if no key on it is metadata and every
object passed on the way is a group.  `Visits` adds where the walk starts, at a root entry that is a
token group, and where it ends, at an object with a value.

A root entry is walked as a group even if it carries a value itself.  Every visited token is checked
under the display path of its chain (`checkToken_sublist_of_visits`).
-/
import DesignTokens.Proofs.Json.Members
import DesignTokens.Validation

namespace DesignTokens

set_option autoImplicit false

/-! ## Chains of keys -/

/-- The node at the end of a chain of keys. -/
def Json.at? : Json → KeyChain → Option Json
  | node, [] => some node
  | .obj ms, key :: rest => (Members.get? ms key).bind fun child => child.at? rest
  | _, _ :: _ => none

@[simp] theorem Json.at?_nil (node : Json) : node.at? [] = some node := by
  cases node <;> rfl

theorem Json.at?_cons (ms : Members) (key : String) (rest : KeyChain) :
    (Json.obj ms).at? (key :: rest) = (ms.get? key).bind fun child => child.at? rest := rfl

theorem Json.at?_append (value : Json) (front back : KeyChain) :
    value.at? (front ++ back) = (value.at? front).bind fun node => node.at? back := by
  induction front generalizing value with
  | nil => simp
  | cons key front ih =>
      cases value with
      | obj ms =>
          rw [List.cons_append, Json.at?_cons, Json.at?_cons, Option.bind_assoc]
          congr 1
          funext child
          exact ih child
      | _ => rfl

theorem Json.at?_concat {value : Json} {above : KeyChain} {ms : Members}
    (around : value.at? above = some (.obj ms)) (name : String) :
    value.at? (above ++ [name]) = ms.get? name := by
  rw [Json.at?_append, around, Option.bind_some, Json.at?_cons]
  cases ms.get? name <;> simp

/-- A chain leads down from the members of a group to a node, through groups alone. -/
inductive Members.Leads : Members → KeyChain → Json → Prop
  | here {ms : Members} {key : String} {node : Json} :
      Key.isMeta key = false → ms.get? key = some node → Leads ms [key] node
  | under {ms group : Members} {key : String} {rest : KeyChain} {node : Json} :
      Key.isMeta key = false → ms.get? key = some (.obj group) → group.isToken = false →
        Leads group rest node → Leads ms (key :: rest) node

/-- Where a chain leads depends on the children only. -/
theorem Members.Leads.congr {ms other : Members} {chain : KeyChain} {node : Json}
    (leads : ms.Leads chain node)
    (same : ∀ key, Key.isMeta key = false → other.get? key = ms.get? key) :
    other.Leads chain node := by
  cases leads with
  | here notMeta found => exact .here notMeta ((same _ notMeta).trans found)
  | under notMeta found group more => exact .under notMeta ((same _ notMeta).trans found) group more

theorem Members.Leads.at? {ms : Members} {chain : KeyChain} {node : Json}
    (leads : ms.Leads chain node) : (Json.obj ms).at? chain = some node := by
  induction leads with
  | here _ found => rw [Json.at?_cons, found]; exact Json.at?_nil _
  | under _ found _ _ ih => rw [Json.at?_cons, found]; exact ih

/-- A check of a document visits a token: the chain starts at a token group, the root entry `name`
with the members `group`, and leads on below it. -/
structure Visits (document : Json) (name : String) (group : Members) (below : KeyChain)
    (token : Members) : Prop where
  entry : document.at? [name] = some (.obj group)
  isGroup : isTokenGroup name (.obj group) = true
  leads : group.Leads below (.obj token)
  hasValue : token.hasValue = true

theorem Visits.get? {ms : Members} {name : String} {group token : Members} {below : KeyChain}
    (visits : Visits (.obj ms) name group below token) : ms.get? name = some (.obj group) := by
  simpa [Json.at?_cons] using visits.entry

/-! ## What is visited is checked -/

namespace Validation

theorem checkNode_sublist (keys : KeyChain) (inherited : Option TokenType) {ms : Members}
    {key : String} {node : Json} (notMeta : Key.isMeta key = false)
    (found : ms.get? key = some node) :
    (checkNode (keys ++ [key]) inherited node).Sublist (checkMembers keys inherited ms) := by
  induction ms with
  | nil => cases found
  | cons m rest ih =>
      obtain ⟨k, v⟩ := m
      rw [Members.get?_cons] at found
      rw [checkMembers]
      split at found
      · rename_i same
        cases found
        rw [← same, notMeta]
        exact List.sublist_append_left _ _
      · exact (ih found).trans (List.sublist_append_right _ _)

theorem checkToken_sublist_of_leads {ms token : Members} {chain : KeyChain}
    (leads : ms.Leads chain (.obj token)) (isToken : token.isToken = true) (keys : KeyChain)
    (inherited : Option TokenType) :
    ∃ handed, (checkToken token (Path.join (keys ++ chain)) handed).Sublist
      (checkMembers keys inherited ms) := by
  generalize same : Json.obj token = node at leads
  induction leads generalizing keys inherited with
  | @here ms key node notMeta found =>
      subst same
      have sub := checkNode_sublist keys inherited notMeta found
      rw [checkNode, if_pos isToken] at sub
      exact ⟨inherited, sub⟩
  | @under ms group key rest node notMeta found isGroup more ih =>
      obtain ⟨handed, sub⟩ := ih (keys ++ [key]) (group.groupType?.or inherited) same
      have step := checkNode_sublist keys inherited notMeta found
      rw [checkNode, if_neg (by simp [isGroup])] at step
      refine ⟨handed, ?_⟩
      rw [List.append_cons]
      exact sub.trans ((List.sublist_append_right _ _).trans step)

/-- Each token group at the root is checked. -/
theorem checkEntry_sublist (v : Validator) {document : Members} {name : String} {value : Json}
    (found : document.get? name = some value) (isGroup : isTokenGroup name value = true) :
    (checkEntry name document.groupType? value).Sublist (checkDocument v document) := by
  refine .trans ?_ (List.sublist_append_right _ _)
  rw [List.flatMap_def]
  apply List.sublist_flatten_of_mem
  refine List.mem_map.2 ⟨(name, value), Members.mem_of_get? found, if_neg ?_⟩
  simp only [isTokenGroup, Bool.and_eq_true, Bool.not_eq_true', bne_iff_ne, ne_eq] at isGroup
  simp [isGroup.1]

/-- Every visited token is checked, under the display path of its chain. -/
theorem checkToken_sublist_of_visits {document : Members} {name : String} {group token : Members}
    {below : KeyChain} (visits : Visits (.obj document) name group below token) (v : Validator) :
    ∃ handed, (checkToken token (Path.join (name :: below)) handed).Sublist
      (checkDocument v document) := by
  have isToken : token.isToken = true := by rw [Members.isToken, visits.hasValue]; rfl
  obtain ⟨handed, inMembers⟩ := checkToken_sublist_of_leads visits.leads isToken [name]
    (group.groupType?.or document.groupType?)
  have inEntry : (checkMembers [name] (group.groupType?.or document.groupType?) group).Sublist
      (checkEntry name document.groupType? (.obj group)) := List.sublist_append_right _ _
  exact ⟨handed, inMembers.trans (inEntry.trans (checkEntry_sublist v visits.get? visits.isGroup))⟩

end Validation

end DesignTokens
