/-
# DesignTokens.Proofs.Fix.Overlaps -- which of the collected fixes overlap

The tokens that lack a type and the clusters are found on two walks, which stop at different nodes.
What one walk finds never overlaps: two finds below different members part at their keys
(`pairwise_flatMap_apart`), and a walk does not go on below what it finds.  So of the fixes that a
document offers two overlap only if one flattens a cluster and the other gives a type to a token inside
it (`Fix.StandsAbove`).

The clusters are found at the ends of the chains that lead through plain groups alone
(`Members.LeadsPlainly`); the group at the root where a chain starts may be of any kind.
-/
import DesignTokens.Proofs.Fix.Fits

namespace DesignTokens

set_option autoImplicit false

/-! ## Chains that part -/

theorem Path.overlap_append_left (front a b : KeyChain) :
    overlap (front ++ a) (front ++ b) = overlap a b := by
  induction front with
  | nil => rfl
  | cons key front ih => rw [List.cons_append, List.cons_append, overlap, beq_self_eq_true, Bool.true_and, ih]

/-- Chains that part at a key do not overlap. -/
theorem Path.overlap_eq_false_of_part {front a b : KeyChain} {key key' : String} (ne : key ≠ key')
    (first : front ++ [key] <+: a) (second : front ++ [key'] <+: b) : overlap a b = false := by
  obtain ⟨rest, rfl⟩ := first
  obtain ⟨rest', rfl⟩ := second
  have parted : (key == key') = false := by simpa using ne
  rw [List.append_assoc, List.append_assoc, overlap_append_left, List.singleton_append,
    List.singleton_append, overlap, parted, Bool.false_and]

/-- What a walk finds at or below different members is apart, and so is all that it finds if this holds
for each member. -/
theorem pairwise_flatMap_apart {α : Type} {chain : α → KeyChain} {ms : Members} (front : KeyChain)
    {find : String × Json → List α} (distinct : ms.keys.Nodup)
    (below : ∀ m ∈ ms, ∀ x ∈ find m, front ++ [m.1] <+: chain x)
    (each : ∀ m ∈ ms, (find m).Pairwise fun x y => Path.overlap (chain x) (chain y) = false) :
    (ms.flatMap find).Pairwise fun x y => Path.overlap (chain x) (chain y) = false := by
  refine List.pairwise_flatMap.2 ⟨each, ?_⟩
  have apart : ms.Pairwise fun m m' => m.1 ≠ m'.1 := List.pairwise_map.1 distinct
  refine apart.imp_of_mem fun inMs inMs' ne x found y found' => ?_
  exact Path.overlap_eq_false_of_part ne (below _ inMs x found) (below _ inMs' y found')

/-! ## The walk to tokens without a type -/

theorem prefix_of_mem_untypedAt {keys : KeyChain} {inherited : Option TokenType} {node : Json}
    (keyed : node.isKeyed = true) {u : UntypedToken} (mem : u ∈ untypedAt keys inherited node) :
    keys <+: u.keys := by
  cases node with
  | obj ms =>
      rw [untypedAt] at mem
      split at mem
      · obtain ⟨same, -⟩ := UntypedToken.of?_eq_some (Option.mem_toList.1 mem)
        exact same ▸ List.prefix_refl keys
      · obtain ⟨below, same, -⟩ := untypedIn_stands ms keyed keys inherited mem
        rw [same]
        exact List.prefix_append _ _
  | _ => cases mem

/-- Tokens that lack a type do not lie inside one another. -/
theorem pairwise_untypedIn (ms : Members) (keyed : (Json.obj ms).isKeyed = true) (keys : KeyChain)
    (inherited : Option TokenType) :
    (untypedIn keys inherited ms).Pairwise fun u v => Path.overlap u.keys v.keys = false := by
  induction ms using Members.nested_induction generalizing keys inherited with
  | step ms ih =>
      obtain ⟨distinct, membersKeyed⟩ := (isKeyed_obj_iff ms).1 keyed
      rw [untypedIn_eq_flatMap]
      refine pairwise_flatMap_apart keys distinct ?below ?each
      case below =>
        intro m inMs u found
        split at found
        · cases found
        · exact prefix_of_mem_untypedAt (membersKeyed m inMs) found
      case each =>
        intro m inMs
        obtain ⟨key, node⟩ := m
        dsimp only
        split
        · exact .nil
        · cases node with
          | obj inner =>
              rw [untypedAt]
              split
              · cases UntypedToken.of? (keys ++ [key]) inherited inner with
                | none => exact .nil
                | some u => exact List.pairwise_singleton _ u
              · exact ih key inner inMs (membersKeyed _ inMs) _ _
          | _ => exact .nil

theorem prefix_of_mem_untypedOfEntry {name : String} {value : Json} (keyed : value.isKeyed = true)
    {rootType : Option TokenType} {u : UntypedToken} (mem : u ∈ untypedOfEntry rootType name value) :
    [name] <+: u.keys := by
  cases value with
  | obj ms =>
      dsimp only [untypedOfEntry] at mem
      split at mem
      · obtain ⟨below, same, -⟩ := untypedIn_stands ms keyed [name] rootType mem
        rw [same]
        exact List.prefix_append _ _
      · cases mem
  | _ => cases mem

theorem pairwise_untypedTokens {document : Members} (keyed : (Json.obj document).isKeyed = true) :
    (untypedTokens document).Pairwise fun u v => Path.overlap u.keys v.keys = false := by
  obtain ⟨distinct, membersKeyed⟩ := (isKeyed_obj_iff document).1 keyed
  refine pairwise_flatMap_apart [] distinct
    (fun m inDocument u found => prefix_of_mem_untypedOfEntry (membersKeyed m inDocument) found) ?_
  intro m inDocument
  obtain ⟨name, value⟩ := m
  cases value with
  | obj ms =>
      dsimp only [untypedOfEntry]
      split
      · exact pairwise_untypedIn ms (membersKeyed _ inDocument) _ _
      · exact .nil
  | _ => exact .nil

/-! ## The walk to clusters -/

theorem prefix_of_mem_clustersAt {group name : String} {above : KeyChain} {siblings : Members}
    {node : Json} (keyed : node.isKeyed = true) {c : Cluster}
    (mem : c ∈ clustersAt group above siblings name node) : group :: above ++ [name] <+: c.keys := by
  cases node with
  | obj ms =>
      rw [clustersAt] at mem
      split at mem
      · cases mem
      · rw [List.mem_singleton.1 mem]
        exact List.prefix_refl _
      · obtain ⟨below, sameGroup, aboveEq, -⟩ := clustersIn_stands ms keyed group _ mem
        exact ⟨below ++ [c.name], by simp [Cluster.keys, sameGroup, aboveEq]⟩
  | _ => cases mem

/-- Clusters do not lie inside one another. -/
theorem pairwise_clustersIn (ms : Members) (keyed : (Json.obj ms).isKeyed = true) (group : String)
    (above : KeyChain) (siblings : Members) :
    (clustersIn group above siblings ms).Pairwise fun c c' => Path.overlap c.keys c'.keys = false := by
  induction ms using Members.nested_induction generalizing above siblings with
  | step ms ih =>
      obtain ⟨distinct, membersKeyed⟩ := (isKeyed_obj_iff ms).1 keyed
      rw [clustersIn_eq_flatMap]
      refine pairwise_flatMap_apart (group :: above) distinct ?below ?each
      case below =>
        intro m inMs c found
        split at found
        · cases found
        · exact prefix_of_mem_clustersAt (membersKeyed m inMs) found
      case each =>
        intro m inMs
        obtain ⟨key, node⟩ := m
        dsimp only
        split
        · exact .nil
        · cases node with
          | obj inner =>
              rw [clustersAt]
              split
              · exact .nil
              · exact List.pairwise_singleton _ _
              · exact ih key inner inMs (membersKeyed _ inMs) _ _
          | _ => exact .nil

theorem pairwise_clusters {document : Members} (keyed : (Json.obj document).isKeyed = true) :
    (clusters document).Pairwise fun c c' => Path.overlap c.keys c'.keys = false := by
  obtain ⟨distinct, membersKeyed⟩ := (isKeyed_obj_iff document).1 keyed
  refine pairwise_flatMap_apart [] distinct ?below ?each
  case below =>
    intro m inDocument c found
    obtain ⟨name, value⟩ := m
    cases value with
    | obj ms =>
        dsimp only [clustersOfEntry] at found
        split at found
        · obtain ⟨below, sameGroup, -, -⟩ :=
            clustersIn_stands ms (membersKeyed _ inDocument) name [] found
          rw [Cluster.keys, sameGroup]
          exact List.prefix_append [name] _
        · cases found
    | _ => cases found
  case each =>
    intro m inDocument
    obtain ⟨name, value⟩ := m
    cases value with
    | obj ms =>
        dsimp only [clustersOfEntry]
        split
        · exact pairwise_clustersIn ms (membersKeyed _ inDocument) _ _ _
        · exact .nil
    | _ => exact .nil

/-! ## Where clusters stand -/

/-- A chain leads down from the members of a group to an object, through plain groups alone. -/
inductive Members.LeadsPlainly : Members → KeyChain → Members → Prop
  | here {ms node : Members} {key : String} : Key.isMeta key = false →
      ms.get? key = some (.obj node) → LeadsPlainly ms [key] node
  | under {ms group node : Members} {key : String} {rest : KeyChain} : Key.isMeta key = false →
      ms.get? key = some (.obj group) → group.kind = .group → LeadsPlainly group rest node →
        LeadsPlainly ms (key :: rest) node

theorem exists_cluster_of_leadsPlainly {ms node : Members} {below : KeyChain}
    (leads : ms.LeadsPlainly below node) (isCluster : node.kind = .nestedTokens) (group : String)
    (above : KeyChain) :
    ∃ c ∈ clustersIn group above ms ms, c.keys = group :: above ++ below ∧ c.node = node := by
  induction leads generalizing above with
  | @here ms node key notMeta found =>
      refine ⟨⟨group, above, key, node, ms⟩, ?_, rfl, rfl⟩
      refine (mem_clustersIn_iff _ _ _ _ _).2 ⟨_, Members.mem_of_get? found, notMeta, ?_⟩
      rw [clustersAt, isCluster]
      exact List.mem_singleton_self _
  | @under ms inner node key rest notMeta found isPlain _ ih =>
      obtain ⟨c, mem, keysEq, sameNode⟩ := ih isCluster (above ++ [key])
      refine ⟨c, ?_, ?_, sameNode⟩
      · refine (mem_clustersIn_iff _ _ _ _ _).2 ⟨_, Members.mem_of_get? found, notMeta, ?_⟩
        rw [clustersAt, isPlain]
        exact mem
      · rw [keysEq, List.cons_append, List.cons_append, List.append_assoc]
        rfl

theorem Members.Leads.plainly {ms node : Members} {chain : KeyChain} {value : Json}
    (leads : ms.Leads chain value) (isObject : value = .obj node)
    (plain : ∀ front group, front <+: chain → front ≠ [] → front ≠ chain →
      (Json.obj ms).at? front = some (.obj group) → Members.kind group = .group) :
    ms.LeadsPlainly chain node := by
  induction leads with
  | here notMeta found =>
      subst isObject
      exact .here notMeta found
  | @under ms group key rest _ notMeta found _ onward ih =>
      have atGroup : (Json.obj ms).at? [key] = some (.obj group) := by
        rw [Json.at?_cons, found, Option.bind_some, Json.at?_nil]
      obtain ⟨k, more, -, rfl, -⟩ := onward.exists_member
      refine .under notMeta found (plain [key] group (by simp) (by simp) (by simp) atGroup)
        (ih isObject fun front inner isPrefix below strict atFront => ?_)
      refine plain (key :: front) inner (List.cons_prefix_cons.2 ⟨rfl, isPrefix⟩) (by simp)
        (by simpa using strict) ?_
      rw [Json.at?_cons, found]
      exact atFront

theorem Cluster.Stands.leadsPlainly {c : Cluster} {ms : Members} {above : KeyChain}
    (stands : c.Stands ms above) : ms.LeadsPlainly (above ++ [c.name]) c.node := by
  refine stands.leads.plainly rfl fun front group isPrefix more strict atFront => ?_
  rcases List.prefix_concat_iff.1 isPrefix with whole | inAbove
  · exact absurd whole strict
  · exact stands.plain front group inAbove more atFront

/-- **Where clusters are reported.** -/
theorem exists_cluster_iff {document : Members} (keyed : (Json.obj document).isKeyed = true)
    (chain : KeyChain) (node : Members) :
    (∃ c ∈ clusters document, c.keys = chain ∧ c.node = node) ↔
      ∃ (entry : String) (group : Members) (below : KeyChain), chain = entry :: below ∧
        document.get? entry = some (.obj group) ∧ isTokenGroup entry (.obj group) = true ∧
          group.LeadsPlainly below node ∧ node.kind = .nestedTokens := by
  constructor
  · rintro ⟨c, mem, rfl, rfl⟩
    obtain ⟨group, found, isGroup, stands⟩ := mem_clusters mem keyed
    exact ⟨c.group, group, c.above ++ [c.name], rfl, found, isGroup, stands.leadsPlainly,
      stands.isCluster⟩
  · rintro ⟨entry, group, below, rfl, found, isGroup, leads, isCluster⟩
    obtain ⟨c, mem, keysEq, sameNode⟩ := exists_cluster_of_leadsPlainly leads isCluster entry []
    refine ⟨c, List.mem_flatMap.2 ⟨(entry, .obj group), Members.mem_of_get? found, ?_⟩, keysEq, sameNode⟩
    rwa [clustersOfEntry, if_pos isGroup]

/-- A cluster is mended if none of its flat names but its own is in use beside it. -/
theorem Cluster.isFixable_iff {document : Members} (keyed : (Json.obj document).isKeyed = true)
    {c : Cluster} (mem : c ∈ clusters document) :
    c.isFixable = true ↔ ∀ key ∈ c.flattened.keys, key ≠ c.name →
      (Json.obj document).at? (c.group :: c.above ++ [key]) = none := by
  obtain ⟨group, found, -, stands⟩ := mem_clusters mem keyed
  have around : (Json.obj document).at? (c.group :: c.above) = some (.obj c.siblings) := by
    rw [Json.at?_cons, found]
    exact stands.around
  rw [isFixable, clashes, List.isEmpty_iff, List.filter_eq_nil_iff]
  refine forall₂_congr fun key _ => ?_
  rw [Json.at?_concat around, Members.get?_eq_none_iff, ← Members.has_iff_mem_keys]
  simp

namespace Fix

/-! ## Fixes above fixes -/

/-- One fix flattens a cluster, and another gives a type to a token inside the cluster. -/
structure StandsAbove (outer inner : Fix) : Prop where
  flattens : outer.type = .flatten
  types : inner.type = .addType
  inside : outer.keys <+: inner.keys
  strict : outer.keys ≠ inner.keys

theorem Offered.target_eq_keys {document : Members} (keyed : (Json.obj document).isKeyed = true)
    {f : Fix} (offered : f.Offered document) : f.target = f.keys := by
  cases offered with
  | addType mem index approved =>
      obtain ⟨entry, group, below, -, -, keysEq, -⟩ := mem_untypedTokens mem keyed
      exact (target_toFix_untyped keysEq index approved).trans keysEq.symm
  | flatten mem fixable index approved => exact target_toFix_cluster _ index approved

/-- No node is a token and a cluster at once. -/
theorem Offered.target_ne {document : Members} (keyed : (Json.obj document).isKeyed = true)
    {typing flattening : Fix} (offered : typing.Offered document)
    (offered' : flattening.Offered document) (types : typing.type = .addType)
    (flattens : flattening.type = .flatten) : flattening.target ≠ typing.target := by
  obtain ⟨entry, group, below, node, place⟩ := offered.exists_place keyed
  obtain ⟨entry', group', below', node', place'⟩ := offered'.exists_place keyed
  rw [place.target, place'.target]
  rintro ⟨⟩
  cases place.found.symm.trans place'.found
  cases place.leads.at?.symm.trans place'.leads.at?
  have isGroup := Members.isToken_of_kind (by rw [place'.cluster flattens]; decide)
  rw [place.token types] at isGroup
  cases isGroup

/-- **A typing and a flattening overlap exactly if the flattening stands above.** -/
theorem Offered.overlaps_iff {document : Members} (keyed : (Json.obj document).isKeyed = true)
    {typing flattening : Fix} (offered : typing.Offered document)
    (offered' : flattening.Offered document) (types : typing.type = .addType)
    (flattens : flattening.type = .flatten) :
    typing.overlaps flattening = true ↔ flattening.StandsAbove typing := by
  have ne := offered.target_ne keyed offered' types flattens
  rw [overlaps, Path.overlap_iff, offered.target_eq_keys keyed, offered'.target_eq_keys keyed]
  rw [offered.target_eq_keys keyed, offered'.target_eq_keys keyed] at ne
  constructor
  · rintro (⟨rest, inside⟩ | isPrefix)
    · have strict : rest ≠ [] := by
        rintro rfl
        exact ne (by rw [← inside, List.append_nil])
      rw [← offered.target_eq_keys keyed, ← offered'.target_eq_keys keyed] at inside
      have outer := (offered.types_of_inside keyed offered' inside.symm strict).1
      rw [types] at outer
      cases outer
    · exact ⟨flattens, types, isPrefix, ne⟩
  · exact fun above => .inr above.inside

theorem StandsAbove.type_ne {outer inner : Fix} (above : outer.StandsAbove inner) :
    outer.type ≠ inner.type := by
  rw [above.flattens, above.types]
  decide

/-- Two offered fixes of different kinds overlap exactly if one of them stands above the other. -/
theorem Offered.overlaps_iff_of_type_ne {document : Members} (keyed : (Json.obj document).isKeyed = true)
    {f g : Fix} (offered : f.Offered document) (offered' : g.Offered document) (ne : f.type ≠ g.type) :
    f.overlaps g = true ↔ f.StandsAbove g ∨ g.StandsAbove f := by
  cases type : f.type with
  | addType =>
      have flattens : g.type = .flatten := by
        cases type' : g.type with
        | flatten => rfl
        | addType => exact absurd (type.trans type'.symm) ne
      rw [offered.overlaps_iff keyed offered' type flattens]
      refine (or_iff_right fun above => ?_).symm
      cases type.symm.trans above.flattens
  | flatten =>
      have types : g.type = .addType := by
        cases type' : g.type with
        | addType => rfl
        | flatten => exact absurd (type.trans type'.symm) ne
      rw [overlaps_comm, offered'.overlaps_iff keyed offered types type]
      refine (or_iff_left fun above => ?_).symm
      cases types.symm.trans above.flattens

/-! ## Collected fixes -/

/-- Numbering items does not bring any two of them into another relation. -/
theorem pairwise_map_zipIdx {α : Type} {items : List α} {R : Fix → Fix → Prop} {make : α × Nat → Fix}
    (pairwise : items.Pairwise fun x y => ∀ i j, R (make (x, i)) (make (y, j))) :
    (items.zipIdx.map make).Pairwise R := by
  rw [List.pairwise_map]
  rw [← List.zipIdx_map_fst 0 items, List.pairwise_map] at pairwise
  exact pairwise.imp fun related => related _ _

/-- Fixes of one kind are apart. -/
theorem pairwise_collect {document : Members} (keyed : (Json.obj document).isKeyed = true) :
    (collect (.obj document)).Pairwise fun f g => f.type = g.type → Path.overlap f.keys g.keys = false := by
  refine List.pairwise_append.2 ⟨?typings, ?flattenings, ?between⟩
  case typings =>
    exact pairwise_map_zipIdx ((pairwise_untypedTokens keyed).imp fun apart _ _ _ => apart)
  case flattenings =>
    have fixable := (pairwise_clusters keyed).filter Cluster.isFixable
    exact pairwise_map_zipIdx (fixable.imp fun apart _ _ _ => apart)
  case between =>
    intro f typing g flattening same
    obtain ⟨u, -, rfl⟩ := List.mem_map.1 typing
    obtain ⟨c, -, rfl⟩ := List.mem_map.1 flattening
    cases same

/-- The fixes that flatten are those of the clusters that can be mended, in order. -/
theorem map_keys_filter_flatten (document : Members) :
    ((collect (.obj document)).filter fun f => f.type == .flatten).map keys =
      ((clusters document).filter Cluster.isFixable).map Cluster.keys := by
  have typings : ((untypedTokens document).zipIdx.map fun u => u.1.toFix u.2).filter
      (fun f => f.type == .flatten) = [] := by
    refine List.filter_eq_nil_iff.2 fun f mem => ?_
    obtain ⟨u, -, rfl⟩ := List.mem_map.1 mem
    exact Bool.false_ne_true
  have flattenings : (((clusters document).filter Cluster.isFixable).zipIdx.map fun c =>
      c.1.toFix ((untypedTokens document).length + c.2)).filter (fun f => f.type == .flatten) =
        ((clusters document).filter Cluster.isFixable).zipIdx.map fun c =>
          c.1.toFix ((untypedTokens document).length + c.2) := by
    refine List.filter_eq_self.2 fun f mem => ?_
    obtain ⟨c, -, rfl⟩ := List.mem_map.1 mem
    rfl
  rw [collect, ofMembers, List.filter_append, typings, flattenings, List.nil_append, List.map_map]
  conv_rhs => rw [← List.zipIdx_map_fst 0 ((clusters document).filter Cluster.isFixable), List.map_map]
  rfl

/-- **Which fixes overlap, and what is flattened.**  Of the fixes that a document offers two overlap
exactly if one flattens a cluster and the other gives a type to a token inside it, so two of one kind
never do.  No reported cluster lies inside another.  The flattened ones are those that can be mended,
where no flat name is in use beside the cluster; and the clusters stand where a chain leads from a token
group through plain groups alone to an object that is one. -/
theorem collect_shape {document : Members} (keyed : (Json.obj document).isKeyed = true) :
    ((collect (.obj document)).Pairwise fun f g =>
      f.overlaps g = true ↔ f.StandsAbove g ∨ g.StandsAbove f) ∧
    ((collect (.obj document)).Pairwise fun f g => f.type = g.type → f.overlaps g = false) ∧
    ((clusters document).Pairwise fun c c' => Path.overlap c.keys c'.keys = false) ∧
    ((collect (.obj document)).filter fun f => f.type == .flatten).map keys =
      ((clusters document).filter Cluster.isFixable).map Cluster.keys ∧
    (∀ c ∈ clusters document, c.isFixable = true ↔ ∀ key ∈ c.flattened.keys, key ≠ c.name →
      (Json.obj document).at? (c.group :: c.above ++ [key]) = none) ∧
    ∀ (chain : KeyChain) (node : Members),
      (∃ c ∈ clusters document, c.keys = chain ∧ c.node = node) ↔
        ∃ (entry : String) (group : Members) (below : KeyChain), chain = entry :: below ∧
          document.get? entry = some (.obj group) ∧ isTokenGroup entry (.obj group) = true ∧
            group.LeadsPlainly below node ∧ node.kind = .nestedTokens := by
  have offered : ∀ f ∈ collect (.obj document), f.Offered document :=
    fun _ mem => offered_of_mem_collect mem
  have apart : (collect (.obj document)).Pairwise fun f g => f.type = g.type → f.overlaps g = false := by
    refine (pairwise_collect keyed).imp_of_mem fun mem mem' apart same => ?_
    rw [overlaps, (offered _ mem).target_eq_keys keyed, (offered _ mem').target_eq_keys keyed]
    exact apart same
  refine ⟨apart.imp_of_mem fun mem mem' apart => ?_, apart, pairwise_clusters keyed,
    map_keys_filter_flatten document, fun c mem => c.isFixable_iff keyed mem, exists_cluster_iff keyed⟩
  rename_i f g
  by_cases same : f.type = g.type
  · refine iff_of_false (by simp [apart same]) ?_
    rintro (above | above)
    · exact above.type_ne same
    · exact above.type_ne same.symm
  · exact (offered f mem).overlaps_iff_of_type_ne keyed (offered g mem') same

end Fix

namespace Example

/-- A cluster with a token that lacks its type, below a plain group; and beside the cluster a token that
has one of the names of another cluster. -/
def nestedColours : Members :=
  [("colors", .obj [("ui", .obj [("brand", .obj [("hover", .obj [("$value", .str "#111")])])]),
    ("text", .obj [("soft", .obj [("$value", .str "#222"), ("$type", .str "color")])]),
    ("text-soft", .obj [("$value", .str "#333"), ("$type", .str "color")])])]

/-- The token is typed inside the cluster that is flattened; the cluster without a free name is reported,
but not flattened. -/
theorem nestedColours_shape :
    (Json.obj nestedColours).isKeyed = true ∧
      (Fix.collect (.obj nestedColours)).map Fix.keys =
        [["colors", "ui", "brand", "hover"], ["colors", "ui", "brand"]] ∧
      ((Fix.collect (.obj nestedColours)).Pairwise fun f g => f.overlaps g = true) ∧
      (∃ c ∈ clusters nestedColours, c.keys = ["colors", "text"]) ∧
      ((clusters nestedColours).filter Cluster.isFixable).map Cluster.keys =
        [["colors", "ui", "brand"]] := by
  have keyed : (Json.obj nestedColours).isKeyed = true := by decide
  obtain ⟨overlapping, -, -, flattened, -, reported⟩ := Fix.collect_shape keyed
  refine ⟨keyed, rfl, ?_, ?_, flattened.symm.trans rfl⟩
  · obtain ⟨f, g, both, above⟩ : ∃ f g, Fix.collect (.obj nestedColours) = [f, g] ∧ g.StandsAbove f :=
      ⟨_, _, rfl, rfl, rfl, ⟨["hover"], rfl⟩, by decide⟩
    rw [both] at overlapping ⊢
    have overlaps := (List.pairwise_pair.1 overlapping).2 (.inr above)
    exact List.pairwise_pair.2 overlaps
  · obtain ⟨c, mem, sameKeys, -⟩ := (reported ["colors", "text"] _).2
      ⟨"colors", _, ["text"], rfl, rfl, by decide, .here (by decide) rfl, by decide⟩
    exact ⟨c, mem, sameKeys⟩

end Example

end DesignTokens
