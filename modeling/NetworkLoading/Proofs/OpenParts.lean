import NetworkLoading.Proofs.Edits
import NetworkLoading.Proofs.State

/-!
# Open parts of networks

The part of a built network which is open to some modes can always be laid out. It holds the links
which one of the modes may use and the nodes at their ends, no others, and all of them are as they
are in the network. There are as many partitions as in the network, with an active set each for
links and for nodes, and no element is beyond them.
-/

namespace NetworkLoading

namespace Layout

variable {ids : IdStore} {net : Network} {modes : List ModeId} {l : Layout}

/-! ## Links and nodes which are loaded -/

theorem mem_usable {link : Link} : link ∈ usable net modes ↔
    link ∈ net.links ∧ (modes = [] ∨ ∃ mode ∈ modes, link.modes = [] ∨ mode ∈ link.modes) := by
  simp [usable, Link.allows]

/-- A node knows a loaded link if one of the loaded links starts or ends there. -/
theorem knows_usable_iff (hb : net.Built ids) {node : Node} (hnode : node ∈ net.nodes) :
    (∃ id ∈ node.inLinks ++ node.outLinks, id ∈ (usable net modes).map (·.id)) ↔
      ∃ link ∈ usable net modes, link.fromNode = node.id ∨ link.toNode = node.id := by
  have hwired := hb.wired
  rw [hwired.inLinks node hnode, hb.sourced.links_eq node hnode]
  simp only [List.mem_append, List.mem_map, List.mem_filter, decide_eq_true_eq]
  constructor
  · rintro ⟨_, ⟨link, ⟨hlink, hto⟩, rfl⟩ | ⟨link, ⟨hlink, hfrom⟩, rfl⟩, hid⟩
    · exact ⟨link, (id_mem_usable_iff hwired hlink).1 (List.mem_map.2 hid), .inr hto⟩
    · exact ⟨link, (id_mem_usable_iff hwired hlink).1 (List.mem_map.2 hid), .inl hfrom⟩
  · rintro ⟨link, hlink, hfrom | hto⟩
    · exact ⟨link.id, .inr ⟨link, ⟨(mem_usable.1 hlink).1, hfrom⟩, rfl⟩, link, hlink, rfl⟩
    · exact ⟨link.id, .inl ⟨link, ⟨(mem_usable.1 hlink).1, hto⟩, rfl⟩, link, hlink, rfl⟩

/-- The loaded nodes are those at which a loaded link starts or ends. -/
theorem nodeIds_of_built (hb : net.Built ids) (h : ofNetwork net modes = .ok l) :
    l.nodeIds = (net.nodes.map (·.id)).filter fun id =>
      l.links.any fun link => link.fromNode = id || link.toNode = id := by
  obtain ⟨hlinks, hjunctions, -⟩ := ofNetwork_eq_ok h
  have hkept : net.nodes.filter (fun node =>
        (node.inLinks ++ node.outLinks).any (· ∈ (usable net modes).map (·.id))) =
      net.nodes.filter fun node =>
        (usable net modes).any fun link => link.fromNode = node.id || link.toNode = node.id := by
    refine List.filter_congr fun node hnode => ?_
    rw [Bool.eq_iff_iff]
    simpa only [List.any_eq_true, Bool.or_eq_true, decide_eq_true_eq]
      using knows_usable_iff hb hnode
  rw [nodeIds, hjunctions, joined, List.map_map, hkept, List.filter_map, hlinks]
  rfl

theorem mem_nodeIds (hb : net.Built ids) (h : ofNetwork net modes = .ok l) {id : NodeId} :
    id ∈ l.nodeIds ↔
      id ∈ net.nodes.map (·.id) ∧ ∃ link ∈ l.links, link.fromNode = id ∨ link.toNode = id := by
  rw [nodeIds_of_built hb h, List.mem_filter]
  simp only [List.any_eq_true, Bool.or_eq_true, decide_eq_true_eq]

/-! ## Partitions -/

theorem foldl_max_le {ns : List Nat} {least bound : Nat} (hleast : least ≤ bound)
    (hns : ∀ n ∈ ns, n ≤ bound) : ns.foldl max least ≤ bound := by
  induction ns generalizing least with
  | nil => exact hleast
  | cons n ns ih =>
    obtain ⟨hn, hns⟩ := List.forall_mem_cons.1 hns
    exact ih (Nat.max_le.2 ⟨hleast, hn⟩) hns

/-- As every node is in one of the partitions of the network, its layout has as many. -/
theorem exists_ofNetwork (hb : net.Built ids) (modes : List ModeId) :
    ∃ l, ofNetwork net modes = .ok l ∧ l.numParts = net.numParts.toNat := by
  have hhoused := hb.housed
  have hpart {node : Junction} (hnode : node ∈ joined net ((usable net modes).map (·.id))) :
      node.partition.toNat + 1 ≤ net.numParts.toNat := by
    obtain ⟨old, hold, -, rfl⟩ := mem_joined.1 hnode
    exact UInt32.lt_iff_toNat_lt.1 (hhoused.lt old hold)
  have hlast : ¬ (joined net ((usable net modes).map (·.id))).any
      fun node => node.partition.toNat + 1 = UInt32.size := by
    rw [List.any_eq_true]
    rintro ⟨node, hnode, hfull⟩
    have hle := hpart hnode
    rw [of_decide_eq_true hfull] at hle
    exact absurd net.numParts.toNat_lt_size (Nat.not_lt.2 hle)
  -- The loaded nodes alone may need fewer, but a layout never has fewer than its network.
  refine ⟨_, by rw [ofNetwork, partsOf, if_neg hlast]; rfl, ?_⟩
  exact Nat.max_eq_right (foldl_max_le (UInt32.lt_iff_toNat_lt.1 hhoused.pos)
    (List.forall_mem_map.2 fun _ => hpart))

/-! ## The open part -/

/-- The layout is the part of a network which is open to some of the modes. -/
structure OpenPart (net : Network) (modes : List ModeId) (l : Layout) : Prop where
  /-- The links are those which one of the modes may use, or all of them if there are no modes. They
  are as they are in the network, and in the same order. -/
  mem_links : ∀ link, link ∈ l.links ↔
    link ∈ net.links ∧ (modes = [] ∨ ∃ mode ∈ modes, link.modes = [] ∨ mode ∈ link.modes)
  links_sublist : l.links.Sublist net.links
  link : ∀ link ∈ l.links, l.link link.id = .ok link ∧ net.link link.id = .ok link
  no_link : ∀ id, id ∉ l.linkIds → l.link id = .error (.linkNotLoaded id.name)
  /-- The nodes are those at which one of these links starts or ends. -/
  nodes : l.nodeIds = (net.nodes.map (·.id)).filter fun id =>
    l.links.any fun link => link.fromNode = id || link.toNode = id
  node : ∀ node ∈ l.junctions, l.junction node.id = .ok node ∧
    ∃ whole, net.node node.id = .ok whole ∧ node.partition = whole.partition
  no_node : ∀ id, id ∉ l.nodeIds → l.junction id = .error (.nodeNotLoaded id.name)
  /-- Both ends of a link are there, the second one in the partition of the link. -/
  ends : ∀ link ∈ l.links, (∃ source, l.junction link.fromNode = .ok source) ∧
    ∃ target, l.junction link.toNode = .ok target ∧ link.partition = target.partition
  /-- Every node takes agents from the links which lead to it, in the order of the links. -/
  inLinks : ∀ node ∈ l.junctions,
    node.inLinks = (l.links.filter (·.toNode = node.id)).map (·.id)
  /-- There are as many partitions as in the network, and no element is beyond them. -/
  numParts : l.numParts = net.numParts.toNat
  link_part_lt : ∀ link ∈ l.links, link.partition.toNat < l.numParts
  node_part_lt : ∀ node ∈ l.junctions, node.partition.toNat < l.numParts
  /-- The traffic has queues for every link, a mark for every node, and a set of each kind for every
  partition. -/
  queues : ∀ link ∈ l.links, (Traffic.empty l).links.get? link.id = some {}
  marks : ∀ node ∈ l.junctions, (Traffic.empty l).nodes.get? node.id = some false
  activeLinks : (Traffic.empty l).activeLinks.parts.length = l.numParts
  activeNodes : (Traffic.empty l).activeNodes.parts.length = l.numParts

/-- Whichever the modes are, the part of a built network which is open to them can be laid out. -/
theorem exists_openPart (hb : net.Built ids) (modes : List ModeId) :
    ∃ l, ofNetwork net modes = .ok l ∧ l.OpenPart net modes := by
  obtain ⟨l, h, hparts⟩ := exists_ofNetwork hb modes
  obtain ⟨hlinks, hjunctions, hpart⟩ := ofNetwork_eq_ok h
  have hwired := hb.wired
  have hclosed := closed_ofNetwork hb h
  have hmem {link : Link} (hlink : link ∈ l.links) : link ∈ net.links :=
    (mem_usable.1 (hlinks ▸ hlink)).1
  refine ⟨l, h,
    { mem_links := fun link => hlinks ▸ mem_usable
      links_sublist := hlinks ▸ List.filter_sublist
      link := fun link hlink => ⟨hclosed.link_eq hlink, hwired.link_eq (hmem hlink)⟩
      no_link := fun _ => link_eq_error
      nodes := nodeIds_of_built hb h
      node := fun node hnode => ⟨hclosed.junction_eq hnode, ?node⟩
      no_node := fun _ => junction_eq_error
      ends := fun link hlink => ⟨?source, ?target⟩
      inLinks := hclosed.inLinks
      numParts := hparts
      link_part_lt := fun link hlink => hclosed.link_part_lt hlink
      node_part_lt := hpart
      queues := fun _ hlink => Table.get?_ofKeys_of_mem (List.mem_map_of_mem hlink)
      marks := fun _ hnode => Table.get?_ofKeys_of_mem (List.mem_map_of_mem hnode)
      activeLinks := List.length_replicate
      activeNodes := List.length_replicate }⟩
  case node =>
    obtain ⟨whole, hwhole, -, rfl⟩ := mem_joined.1 (hjunctions ▸ hnode)
    exact ⟨whole, hwired.node_eq hwhole, rfl⟩
  case source =>
    -- The node a link starts at is kept because the link is.
    have hid : link.fromNode ∈ l.nodeIds := (mem_nodeIds hb h).2
      ⟨hb.sourced.end_mem link (hmem hlink), link, hlink, .inl rfl⟩
    obtain ⟨source, hsource, he⟩ := List.mem_map.1 hid
    exact ⟨source, he ▸ hclosed.junction_eq hsource⟩
  case target =>
    obtain ⟨target, htarget, he, hsame⟩ := hclosed.target link hlink
    exact ⟨target, he ▸ hclosed.junction_eq htarget, hsame.symm⟩

end Layout

namespace Sample

def islandIds : IdStore :=
  .ofNames [(.mode, ["walk", "car"]), (.link, ["bridge", "tunnel"]),
    (.node, ["quay", "isle", "cape"])]

def walk : ModeId := ⟨0, "walk"⟩
def quay : NodeId := ⟨0, "quay"⟩
def isle : NodeId := ⟨1, "isle"⟩
def cape : NodeId := ⟨2, "cape"⟩
def bridge : LinkId := ⟨0, "bridge"⟩
def tunnel : LinkId := ⟨1, "tunnel"⟩

/-- A bridge to walk over, and behind it a tunnel for cars to a node with a partition of its own. -/
def islandEdits : List Network.Edit :=
  let way : Link := { id := bridge, fromNode := quay, toNode := isle, length := 1, freespeed := 1 }
  [.addNode quay 0 0, .addNode isle 1 0, .addNode cape 2 0, .setPartition cape 4,
    .addLink (way.withModes [walk]),
    .addLink ({ way with id := tunnel, fromNode := isle, toNode := cape }.withModes [⟨1, "car"⟩])]

end Sample

namespace Layout

/-- Nobody walks through the tunnel, so only the bridge and its ends are loaded. -/
theorem exists_openPart_islands :
    ∃ net l, net.Built Sample.islandIds ∧ ofNetwork net [Sample.walk] = .ok l ∧
      l.linkIds = [Sample.bridge] ∧ l.nodeIds = [Sample.quay, Sample.isle] ∧ l.numParts = 5 ∧
      ∃ isle, l.junction Sample.isle = .ok isle ∧ isle.inLinks = [Sample.bridge] := by
  have hnamed : ∀ e ∈ Sample.islandEdits, e.Named Sample.islandIds := by
    simp only [Sample.islandEdits, List.forall_mem_cons]
    exact ⟨rfl, rfl, rfl, trivial, rfl, rfl, nofun⟩
  have h : Sample.islandEdits.foldlM Network.edit .empty = .ok _ := rfl
  have hbuilt := (Network.Built.empty.foldlM_edit hnamed h).1
  obtain ⟨l, hl, hopen⟩ := exists_openPart hbuilt [Sample.walk]
  have heval := hl
  cases heval
  exact ⟨_, _, hbuilt, hl, rfl, rfl, hopen.numParts, _, rfl, rfl⟩

end Layout

end NetworkLoading
