import NetworkLoading.Engine
import NetworkLoading.Proofs.Network

/-!
# Layouts are closed

The layout of a built network is closed: whoever starts from one of its links finds the node at the
end of the link, in the same partition, and this node takes agents from exactly the links which lead
to it. Hence no look-up of a time step fails.
-/

namespace NetworkLoading

/-- A junction without its partition. -/
def Junction.bare (node : Junction) : Junction :=
  { node with partition := 0 }

namespace Layout

/-- The ids of the links, in their order. -/
def linkIds (l : Layout) : List LinkId :=
  l.links.map (·.id)

/-- The ids of the nodes, in their order. -/
def nodeIds (l : Layout) : List NodeId :=
  l.junctions.map (·.id)

section Unloaded

variable {l : Layout}

theorem link?_eq_none_iff {id : LinkId} : l.link? id = none ↔ id ∉ l.linkIds := by
  simp [link?, linkIds, List.find?_eq_none]

theorem junction?_eq_none_iff {id : NodeId} : l.junction? id = none ↔ id ∉ l.nodeIds := by
  simp [junction?, nodeIds, List.find?_eq_none]

theorem link_eq_error {id : LinkId} (h : id ∉ l.linkIds) :
    l.link id = .error (.linkNotLoaded id.name) := by
  simp only [Layout.link, link?_eq_none_iff.2 h]

theorem junction_eq_error {id : NodeId} (h : id ∉ l.nodeIds) :
    l.junction id = .error (.nodeNotLoaded id.name) := by
  simp only [junction, junction?_eq_none_iff.2 h]

end Unloaded

/-- Links and nodes fit together, and their partitions are those of the layout. -/
structure Closed (l : Layout) : Prop where
  links_apart : Id.Apart l.linkIds
  junctions_apart : Id.Apart l.nodeIds
  target : ∀ link ∈ l.links, ∃ node ∈ l.junctions,
    node.id = link.toNode ∧ node.partition = link.partition
  inLinks : ∀ node ∈ l.junctions,
    node.inLinks = (l.links.filter (·.toNode = node.id)).map (·.id)
  part_lt : ∀ node ∈ l.junctions, node.partition.toNat < l.numParts

namespace Closed

variable {l : Layout}

theorem link?_eq (hc : l.Closed) {link : Link} (h : link ∈ l.links) : l.link? link.id = some link :=
  Id.find?_eq_some hc.links_apart.nodup h

theorem junction?_eq (hc : l.Closed) {node : Junction} (h : node ∈ l.junctions) :
    l.junction? node.id = some node :=
  Id.find?_eq_some hc.junctions_apart.nodup h

theorem link_eq (hc : l.Closed) {link : Link} (h : link ∈ l.links) : l.link link.id = .ok link := by
  simp only [Layout.link, hc.link?_eq h]

theorem junction_eq (hc : l.Closed) {node : Junction} (h : node ∈ l.junctions) :
    l.junction node.id = .ok node := by
  simp only [Layout.junction, hc.junction?_eq h]

theorem mem_inLinks (hc : l.Closed) {node : Junction} (h : node ∈ l.junctions) {id : LinkId} :
    id ∈ node.inLinks ↔ ∃ link ∈ l.links, link.id = id ∧ link.toNode = node.id := by
  simp only [hc.inLinks node h, List.mem_map, List.mem_filter, decide_eq_true_eq]
  constructor
  · rintro ⟨link, ⟨hl, hto⟩, hid⟩
    exact ⟨link, hl, hid, hto⟩
  · rintro ⟨link, hl, hid, hto⟩
    exact ⟨link, ⟨hl, hto⟩, hid⟩

theorem mem_linkIds_of_mem_inLinks (hc : l.Closed) {node : Junction} (h : node ∈ l.junctions)
    {id : LinkId} (hid : id ∈ node.inLinks) : id ∈ l.linkIds := by
  obtain ⟨link, hl, rfl, -⟩ := (hc.mem_inLinks h).1 hid
  exact List.mem_map_of_mem hl

theorem nodup_inLinks (hc : l.Closed) {node : Junction} (h : node ∈ l.junctions) :
    node.inLinks.Nodup := by
  rw [hc.inLinks node h]
  exact hc.links_apart.nodup.sublist (List.filter_sublist.map _)

/-- Elements with the same id are the same. -/
theorem link_inj (hc : l.Closed) {a b : Link} (ha : a ∈ l.links) (hb : b ∈ l.links)
    (h : a.id = b.id) : a = b :=
  List.inj_on_of_nodup_map hc.links_apart.nodup ha hb h

theorem junction_inj (hc : l.Closed) {a b : Junction} (ha : a ∈ l.junctions)
    (hb : b ∈ l.junctions) (h : a.id = b.id) : a = b :=
  List.inj_on_of_nodup_map hc.junctions_apart.nodup ha hb h

/-- A link leads to one node only. -/
theorem inLinks_disjoint (hc : l.Closed) {a b : Junction} (ha : a ∈ l.junctions)
    (hb : b ∈ l.junctions) {id : LinkId} (hida : id ∈ a.inLinks) (hidb : id ∈ b.inLinks) :
    a = b := by
  obtain ⟨link, hl, rfl, hto⟩ := (hc.mem_inLinks ha).1 hida
  obtain ⟨other, hother, he, hto'⟩ := (hc.mem_inLinks hb).1 hidb
  obtain rfl := hc.link_inj hother hl he
  exact hc.junction_inj ha hb (hto.symm.trans hto')

theorem link_part_lt (hc : l.Closed) {link : Link} (h : link ∈ l.links) :
    link.partition.toNat < l.numParts := by
  obtain ⟨node, hn, -, hp⟩ := hc.target link h
  exact hp ▸ hc.part_lt node hn

end Closed

/-! ## The layout of a network -/

theorem ofNetwork_eq_ok {net : Network} {modes : List ModeId} {l : Layout}
    (h : ofNetwork net modes = .ok l) :
    l.links = usable net modes ∧ l.junctions = joined net ((usable net modes).map (·.id)) ∧
      ∀ node ∈ l.junctions, node.partition.toNat < l.numParts := by
  unfold ofNetwork partsOf at h
  dsimp only at h
  split at h
  · cases h
  · cases h
    refine ⟨rfl, rfl, fun node hn => ?_⟩
    have hle := (Table.le_foldl_max ((joined net ((usable net modes).map (·.id))).map
      fun node => node.partition.toNat + 1) 1).2 _ (List.mem_map_of_mem hn)
    exact Nat.lt_of_lt_of_le hle (Nat.le_max_left _ _)

theorem mem_joined {net : Network} {links : List LinkId} {node : Junction} :
    node ∈ joined net links ↔ ∃ old ∈ net.nodes,
      (∃ id ∈ old.inLinks ++ old.outLinks, id ∈ links) ∧
        { id := old.id, inLinks := old.inLinks.filter (· ∈ links), partition := old.partition } =
          node := by
  simp only [joined, List.mem_map, List.mem_filter, List.any_eq_true, decide_eq_true_eq]
  constructor
  · rintro ⟨old, ⟨hold, hany⟩, he⟩
    exact ⟨old, hold, hany, he⟩
  · rintro ⟨old, hold, hany, he⟩
    exact ⟨old, ⟨hold, hany⟩, he⟩

/-- A link of the network is loaded if its id is one of those which are. -/
theorem id_mem_usable_iff {net : Network} (hw : net.Wired) {modes : List ModeId} {link : Link}
    (hl : link ∈ net.links) :
    link.id ∈ (usable net modes).map (·.id) ↔ link ∈ usable net modes := by
  constructor
  · intro hid
    obtain ⟨other, hother, he⟩ := List.mem_map.1 hid
    have hmem : other ∈ net.links := List.mem_of_mem_filter hother
    exact List.inj_on_of_nodup_map hw.links_nodup hmem hl he ▸ hother
  · exact fun hl => List.mem_map_of_mem hl

theorem closed_ofNetwork {ids : IdStore} {net : Network} (hb : net.Built ids)
    {modes : List ModeId} {l : Layout} (h : ofNetwork net modes = .ok l) : l.Closed := by
  obtain ⟨hlinks, hjunctions, hpart⟩ := ofNetwork_eq_ok h
  have hw := hb.wired
  obtain ⟨hissued, hissued'⟩ := hb.issued
  have hnodeIds : l.nodeIds.Sublist (net.nodes.map (·.id)) := by
    rw [nodeIds, hjunctions]
    simp only [joined, List.map_map]
    exact List.filter_sublist.map _
  have hlinkIds : l.linkIds.Sublist (net.links.map (·.id)) := by
    rw [linkIds, hlinks]
    exact List.filter_sublist.map _
  refine ⟨(Id.apart_of_issued hissued' hw.links_nodup).sublist hlinkIds,
    (Id.apart_of_issued hissued hw.nodes_nodup).sublist hnodeIds, ?_, ?_, hpart⟩
  · intro link hl
    rw [hlinks] at hl
    have hmem : link ∈ net.links := List.mem_of_mem_filter hl
    -- The node at the end of a loaded link has a loaded link, so it is loaded, too.
    obtain ⟨node, hn, hid⟩ := List.mem_map.1 (hw.toNode_mem link hmem)
    have hin : link.id ∈ node.inLinks := by
      rw [hw.inLinks node hn]
      exact List.mem_map_of_mem (List.mem_filter.2 ⟨hmem, decide_eq_true hid.symm⟩)
    refine ⟨_, hjunctions ▸ mem_joined.2 ⟨node, hn, ⟨link.id, List.mem_append_left _ hin,
      List.mem_map_of_mem hl⟩, rfl⟩, hid, (hb.aligned link hmem node hn hid).symm⟩
  · intro node hn
    rw [hjunctions] at hn
    obtain ⟨old, hold, -, rfl⟩ := mem_joined.1 hn
    simp only [hw.inLinks old hold, hlinks, List.filter_map, usable, List.filter_filter,
      Function.comp_def]
    refine congrArg _ (List.filter_congr fun link hl => ?_)
    have husable : (link.id ∈ (usable net modes).map (·.id)) ↔
        (modes.isEmpty || modes.any link.allows) = true := by
      rw [id_mem_usable_iff hw hl, usable, List.mem_filter, and_iff_right hl]
    rw [Bool.and_comm]
    exact congrArg _ (Bool.eq_iff_iff.2 (decide_eq_true_iff.trans husable))

/-! ## Layouts which differ in their partitions -/

/-- Two layouts with the same links and nodes, whatever their partitions are. -/
structure SameWiring (l l' : Layout) : Prop where
  links : l.links.map Link.bare = l'.links.map Link.bare
  junctions : l.junctions.map Junction.bare = l'.junctions.map Junction.bare

theorem sameWiring_ofNetwork {net net' : Network} (hn : net.bare = net'.bare) {modes : List ModeId}
    {l l' : Layout} (h : ofNetwork net modes = .ok l) (h' : ofNetwork net' modes = .ok l') :
    SameWiring l l' := by
  have hnodes : net.nodes.map Node.bare = net'.nodes.map Node.bare := congrArg Network.nodes hn
  have hlinks : net.links.map Link.bare = net'.links.map Link.bare := congrArg Network.links hn
  have husable (net : Network) : (usable net modes).map Link.bare =
      (net.links.map Link.bare).filter fun link => modes.isEmpty || modes.any link.allows := by
    rw [usable, List.filter_map]
    rfl
  have hjoined (net : Network) (ids : List LinkId) : (joined net ids).map Junction.bare =
      joined net.bare ids := by
    simp only [joined, Network.bare, List.filter_map, List.map_map]
    rfl
  obtain ⟨hl, hj, -⟩ := ofNetwork_eq_ok h
  obtain ⟨hl', hj', -⟩ := ofNetwork_eq_ok h'
  -- Partitions do not count in what is usable, so both networks keep the same links.
  have hids : (usable net modes).map (·.id) = (usable net' modes).map (·.id) := by
    have he := congrArg (List.map (·.id)) (((husable net).trans (hlinks ▸ rfl)).trans
      (husable net').symm)
    rw [List.map_map, List.map_map] at he
    exact he
  refine ⟨?_, ?_⟩
  · rw [hl, hl', husable, husable, hlinks]
  · rw [hj, hj', hids, hjoined, hjoined, hn]

end Layout

end NetworkLoading
