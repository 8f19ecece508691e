/-
# DesignTokens.Proofs.Fix.Alone -- what a collected fix does on its own

Fixes are collected on walks down from the root and applied by a search along their chains of keys.
The two agree whatever the keys are, for the chain of a fix leads to the node that it was made for
(`Fix.Offered.at?_keys`).  A new fixer therefore applies every collected fix, and puts the members of
the fix where its node stood (`Fix.Fits.apply_alone`).

The document differs afterwards only along the chain of the fix and below it, and at the flat names of
a cluster (`Fix.Fits.at?_apart`).  Flat names are not in use before, so no node that was there is lost.
-/
import DesignTokens.Proofs.Fix.Overlaps
import DesignTokens.Proofs.Fix.Types

namespace DesignTokens

set_option autoImplicit false

/-! ## Nodes apart from the one that is replaced -/

namespace Json

/-- New members at the end of a chain are seen only along it. -/
theorem at?_withParent_of_apart {value : Json} {above chain : KeyChain} {parent : Members}
    (around : value.at? above = some (.obj parent)) (name : String) (new : Members)
    (apart : Path.overlap above chain = false) :
    (value.withParent (above ++ [name]) new).at? chain = value.at? chain := by
  induction above generalizing value chain with
  | nil => cases apart
  | cons key above ih =>
      cases value with
      | obj ms =>
          rw [at?_cons] at around
          obtain ⟨child, found, onward⟩ := Option.bind_eq_some_iff.1 around
          rw [List.cons_append, withParent_cons found (by simp)]
          cases chain with
          | nil => cases apart
          | cons k chain =>
              rw [at?_cons, at?_cons]
              by_cases same : k = key
              · subst same
                rw [Path.overlap, beq_self_eq_true, Bool.true_and] at apart
                rw [Members.get?_put_self, found]
                exact ih onward apart
              · rw [Members.get?_put_of_ne _ _ same]
      | _ => cases around

/-- Below the parent, the new members lead on. -/
theorem at?_withParent_append {value : Json} {above : KeyChain} {parent : Members}
    (around : value.at? above = some (.obj parent)) (name : String) (new : Members) (rest : KeyChain) :
    (value.withParent (above ++ [name]) new).at? (above ++ rest) = (Json.obj new).at? rest := by
  rw [at?_append, at?_withParent around, Option.bind_some]

end Json

theorem Path.not_prefix_of_apart {a b : KeyChain} (apart : overlap a b = false) :
    ¬ a <+: b ∧ ¬ b <+: a := by
  rw [← not_or, ← overlap_iff, apart]
  exact Bool.false_ne_true

/-- A chain apart from a longer one is apart from its front, or goes on from there under another key. -/
theorem Path.apart_concat {above chain : KeyChain} {name : String}
    (apart : overlap (above ++ [name]) chain = false) :
    overlap above chain = false ∨ ∃ key rest, chain = above ++ key :: rest ∧ key ≠ name := by
  obtain ⟨notBelow, notAbove⟩ := not_prefix_of_apart apart
  cases front : overlap above chain with
  | false => exact .inl rfl
  | true =>
      rcases (overlap_iff _ _).1 front with ⟨more, rfl⟩ | isPrefix
      · cases more with
        | nil => exact absurd (by simp) notAbove
        | cons key rest =>
            refine .inr ⟨key, rest, rfl, ?_⟩
            rintro rfl
            exact notBelow (by simp)
      · exact absurd (isPrefix.trans (List.prefix_append _ _)) notAbove

namespace Fix

section Alone

variable {document : Members} {f : Fix} {above : KeyChain} {name : String} {parent : Members}
  {node : Json}

/-- The members of a fix are found by their keys. -/
theorem Fits.at?_inPlace (fits : f.Fits document above name parent node) {key : String} {value : Json}
    (found : f.inPlace.get? key = some value) :
    ((Json.obj document).withParent f.target (parent.splice name f.inPlace)).at? (above ++ [key]) =
      some value := by
  have inNew : (parent.splice name f.inPlace).get? key = some value :=
    Members.get?_splice_of_mem (Members.mem_keys_of_get? fits.found) found
      (fits.unused key (Members.mem_keys_of_get? found))
  rw [fits.target, Json.at?_withParent_append fits.around, Json.at?_cons, inNew]
  exact Json.at?_nil _

/-- Apart from its node, and from what the fix brings besides, every chain leads where it led. -/
theorem Fits.at?_apart (fits : f.Fits document above name parent node) {chain : KeyChain}
    (apart : Path.overlap f.target chain = false)
    (notNew : ∀ key ∈ f.inPlace.keys, ¬ above ++ [key] <+: chain) :
    ((Json.obj document).withParent f.target (parent.splice name f.inPlace)).at? chain =
      (Json.obj document).at? chain := by
  rw [fits.target] at apart ⊢
  -- The chain leaves that of the fix above the parent, or in the parent itself.
  rcases Path.apart_concat apart with apartAbove | ⟨key, rest, rfl, ne⟩
  · exact Json.at?_withParent_of_apart fits.around name _ apartAbove
  · have other : key ∉ f.inPlace.keys := fun mem => notNew key mem (by simp)
    rw [Json.at?_withParent_append fits.around, Json.at?_append, fits.around, Option.bind_some,
      Json.at?_cons, Json.at?_cons, Members.get?_splice_of_not_mem ne other]

/-- Nothing stood where a fix brings something new. -/
theorem Fits.at?_eq_none (fits : f.Fits document above name parent node) {key : String}
    (mem : key ∈ f.inPlace.keys) (ne : key ≠ name) {chain : KeyChain} (new : above ++ [key] <+: chain) :
    (Json.obj document).at? chain = none := by
  obtain ⟨rest, rfl⟩ := new
  have absent : parent.get? key = none := (Members.get?_eq_none_iff _ _).2 (fits.unused key mem ne)
  rw [Json.at?_append, Json.at?_concat fits.around, absent]
  rfl

/-- The new members of a fix aside, every node apart from its own stays. -/
theorem Fits.at?_kept (fits : f.Fits document above name parent node) {chain : KeyChain} {value : Json}
    (apart : Path.overlap f.target chain = false) (found : (Json.obj document).at? chain = some value) :
    ((Json.obj document).withParent f.target (parent.splice name f.inPlace)).at? chain = some value := by
  rw [fits.at?_apart apart, found]
  intro key mem new
  by_cases same : key = name
  · rw [same, ← fits.target] at new
    exact (Path.not_prefix_of_apart apart).1 new
  · rw [fits.at?_eq_none mem same new] at found
    cases found

/-- The keys of a typing lead to the token that it was made for. -/
theorem Offered.before_of_addType (offered : f.Offered document)
    (keyed : (Json.obj document).isKeyed = true) (types : f.type = .addType) :
    (Json.obj document).at? f.keys = some f.before := by
  cases offered with
  | @addType u mem index approved =>
      obtain ⟨entry, group, below, found, -, keysEq, stands⟩ := mem_untypedTokens mem keyed
      calc (Json.obj document).at? u.keys = (document.get? entry).bind fun child => child.at? below := by
            rw [keysEq, Json.at?_cons]
        _ = some (.obj u.token) := by rw [found, Option.bind_some, stands.leads.at?]
  | flatten => cases types

/-- The keys of a flattening lead to the cluster that it was made for, and it has the cluster under its
name and the flat members. -/
theorem Offered.before_of_flatten (offered : f.Offered document)
    (keyed : (Json.obj document).isKeyed = true) (flattens : f.type = .flatten) :
    ∃ name node, f.keys.getLast? = some name ∧ (Json.obj document).at? f.keys = some node ∧
      f.before = .obj [(name, node)] ∧ f.after = .obj f.inPlace := by
  cases offered with
  | addType => cases flattens
  | @flatten c mem fixable index approved =>
      obtain ⟨group, found, -, stands⟩ := mem_clusters mem keyed
      refine ⟨c.name, .obj c.node, List.getLast?_concat, ?_, rfl, rfl⟩
      calc (Json.obj document).at? c.keys =
            (document.get? c.group).bind fun child => child.at? (c.above ++ [c.name]) := by
            rw [Cluster.keys, List.cons_append, Json.at?_cons]
        _ = some (.obj c.node) := by rw [found, Option.bind_some, stands.leads.at?]

end Alone

/-- **Every collected fix is sound on its own.**  Its keys lead to the node that it was made for, and a
new fixer applies it.  A typing leaves its replacement at those keys and nothing else is changed; a
flattening leaves its entries under their own keys in the parent of the cluster.  Every node whose chain
is neither a beginning nor a continuation of the keys of the fix stays, and apart from them and from the
new entries no other node appears. -/
theorem sound_alone {document : Members} (keyed : (Json.obj document).isKeyed = true) {f : Fix}
    (mem : f ∈ collect (.obj document)) :
    ∃ (above : KeyChain) (name : String) (node patched : Json), f.keys = above ++ [name] ∧
      (Json.obj document).at? f.keys = some node ∧
      (Fixer.ofDocument (.obj document)).apply f = (⟨patched, [f]⟩, .applied) ∧
      (f.type = .addType → f.before = node ∧ patched.at? f.keys = some f.after ∧
        ∀ chain, Path.overlap f.keys chain = false →
          patched.at? chain = (Json.obj document).at? chain) ∧
      (f.type = .flatten → ∃ before flat : Members, f.before = .obj before ∧
        before.get? name = some node ∧ f.after = .obj flat ∧
        (∀ m ∈ flat, patched.at? (above ++ [m.1]) = some m.2) ∧
        ∀ chain, Path.overlap f.keys chain = false → (∀ key ∈ flat.keys, ¬ above ++ [key] <+: chain) →
          patched.at? chain = (Json.obj document).at? chain) ∧
      ∀ chain value, Path.overlap f.keys chain = false → (Json.obj document).at? chain = some value →
        patched.at? chain = some value := by
  have offered := offered_of_mem_collect mem
  obtain ⟨above, name, parent, node, fits⟩ := offered.fits keyed
  have keys := offered.target_eq_keys keyed
  have found := fits.at?_target
  rw [keys] at found
  refine ⟨above, name, node, _, keys ▸ fits.target, found, fits.apply_alone keyed, ?typing, ?flattening,
    fun chain value apart => fits.at?_kept (keys ▸ apart)⟩
  case typing =>
    intro types
    have single := inPlace_of_addType types fits.target
    have inNew : f.inPlace.get? name = some f.after := by rw [single, Members.get?_cons, if_pos rfl]
    refine ⟨?_, ?_, fun chain apart => fits.at?_apart (keys ▸ apart) fun key inKeys new => ?_⟩
    · exact Option.some.inj ((offered.before_of_addType keyed types).symm.trans found)
    · rw [← keys, fits.target, ← fits.at?_inPlace inNew, fits.target]
    · rw [single] at inKeys
      rw [List.mem_singleton.1 inKeys, ← fits.target, keys] at new
      exact (Path.not_prefix_of_apart apart).1 new
  case flattening =>
    intro flattens
    obtain ⟨name', node', last, found', before, after⟩ := offered.before_of_flatten keyed flattens
    rw [← keys, fits.target, List.getLast?_concat] at last
    cases last
    cases found.symm.trans found'
    refine ⟨_, _, before, by rw [Members.get?_cons, if_pos rfl], after, fun m inFlat => ?_,
      fun chain apart notNew => fits.at?_apart (keys ▸ apart) notNew⟩
    exact fits.at?_inPlace (Members.get?_of_mem fits.distinct inFlat)

end Fix

namespace Example

/-- A cluster without a name under a key with a dot, with a default token and one that lacks its type. -/
def oddKeys : Members :=
  [("sizes", .obj [("4.5", .obj [("", .obj [
      ("DEFAULT", .obj [("$value", .str "#111"), ("$type", .str "color")]),
      ("wide.", .obj [("$value", .str "#222")])])]),
    ("value.", .obj [("$value", .str "#333"), ("$type", .str "color")])])]

def redToken : Json := .obj [("$value", .str "#111"), ("$type", .str "color")]

/-- Both fixes are applied, each to a document of its own: the token gets its type, and the default
token takes the place of its cluster. -/
theorem oddKeys_applied :
    (Json.obj oddKeys).isKeyed = true ∧ ∃ f g typed flat, Fix.collect (.obj oddKeys) = [f, g] ∧
      f.keys = ["sizes", "4.5", "", "wide."] ∧ g.keys = ["sizes", "4.5", ""] ∧
      (Fixer.ofDocument (.obj oddKeys)).apply f = (⟨typed, [f]⟩, .applied) ∧
      typed.at? ["sizes", "4.5", "", "wide."] = some f.after ∧
      typed.at? ["sizes", "4.5", "", "DEFAULT"] = some redToken ∧
      (Fixer.ofDocument (.obj oddKeys)).apply g = (⟨flat, [g]⟩, .applied) ∧
      flat.at? ["sizes", "4.5", ""] = some redToken ∧
      flat.at? ["sizes", "value."] = (Json.obj oddKeys).at? ["sizes", "value."] := by
  have keyed : (Json.obj oddKeys).isKeyed = true := by decide
  obtain ⟨f, g, both, types, flattens, keys, keys', typedToken, after⟩ : ∃ f g,
      Fix.collect (.obj oddKeys) = [f, g] ∧ f.type = .addType ∧ g.type = .flatten ∧
      f.keys = ["sizes", "4.5", "", "wide."] ∧ g.keys = ["sizes", "4.5", ""] ∧
      ∃ typedToken, g.after = .obj [("", redToken), ("-wide.", typedToken)] :=
    ⟨_, _, rfl, rfl, rfl, rfl, rfl, _, rfl⟩
  have isFirst : f ∈ Fix.collect (.obj oddKeys) := both ▸ List.mem_cons_self
  have isSecond : g ∈ Fix.collect (.obj oddKeys) := both ▸ List.mem_cons_of_mem _ List.mem_cons_self
  obtain ⟨_, _, _, typed, -, -, call, typing, -, kept⟩ := Fix.sound_alone keyed isFirst
  obtain ⟨above, name, _, flat, split, -, call', -, flattening, kept'⟩ := Fix.sound_alone keyed isSecond
  obtain ⟨-, atToken, -⟩ := typing types
  obtain ⟨_, entries, -, -, after', placed, -⟩ := flattening flattens
  have parent : above = ["sizes", "4.5"] := by
    have front := congrArg List.dropLast (keys'.symm.trans split)
    rw [List.dropLast_concat] at front
    exact front.symm
  cases after.symm.trans after'
  refine ⟨keyed, f, g, typed, flat, both, keys, keys', call, keys ▸ atToken, ?_, call', ?_, ?_⟩
  · exact kept _ _ (by rw [keys]; decide) rfl
  · subst parent
    exact placed _ List.mem_cons_self
  · exact kept' _ _ (by rw [keys']; decide) rfl

end Example

end DesignTokens
