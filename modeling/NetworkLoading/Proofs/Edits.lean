import NetworkLoading.Proofs.Balance
import NetworkLoading.Proofs.Stores

/-!
# Networks after a series of edits

Whoever adds nodes and links and assigns nodes to partitions, in any order, finds again what was
added: every element under its id, at every node the links which start and end there in the order in
which they were added, and every link in the partition of the node it leads to. No partition is
beyond the number of partitions, however often this number changes.
-/

namespace NetworkLoading

namespace Network

/-- Every node knows the links which start at it. -/
theorem Built.sourced {ids : IdStore} {net : Network} (h : net.Built ids) :
    net.Knows (·.fromNode) (·.outLinks) := by
  have hbare {net net' : Network} (hsame : net'.bare = net.bare)
      (hknows : net.Knows (·.fromNode) (·.outLinks)) : net'.Knows (·.fromNode) (·.outLinks) :=
    (knows_bare (fun _ => rfl) fun _ => rfl).1
      (hsame ▸ (knows_bare (fun _ => rfl) fun _ => rfl).2 hknows)
  induction h with
  | empty => exact ⟨nofun, nofun⟩
  | addNode hb _ ha ih => exact ih.addNode hb.wired.indexed rfl ha
  | addLink hb _ ha ih =>
    have hi := hb.wired.indexed
    exact ih.addLink hi (fun _ => rfl) (addLink_eq_ok hi ha).2.1 (fun _ => rfl) ha
  | divide _ hd ih => exact hbare (bare_divide hd) ih
  | setPartition _ hs ih => exact hbare (bare_setPartition hs) ih

/-! ## Numbers of partitions -/

/-- There is a partition, and every node is in one of those which there are. -/
structure Housed (net : Network) : Prop where
  pos : 0 < net.numParts
  lt : ∀ node ∈ net.nodes, node.partition < net.numParts

theorem housed_addLink {net net' : Network} (h : net.Housed) (hi : net.Indexed) {link : Link}
    (ha : net.addLink link = .ok () net') : net'.Housed := by
  obtain ⟨-, -, target, -, -, rfl⟩ := addLink_eq_ok hi ha
  exact ⟨h.pos, List.forall_mem_map.2 h.lt⟩

theorem housed_addNode {net net' : Network} (h : net.Housed) (hi : net.Indexed) {id : NodeId}
    {x y : Float} (ha : net.addNode { id, x, y } = .ok net') : net'.Housed := by
  obtain ⟨-, rfl⟩ := addNode_eq_ok hi ha
  exact ⟨h.pos, List.forall_mem_append.2 ⟨h.lt, List.forall_mem_singleton.2 h.pos⟩⟩

theorem housed_divide {net net' : Network} {parts : UInt32} {method : PartitionMethod}
    (h : net.divide parts method = .ok net') : net'.Housed := by
  have hpos := parts_pos h
  have hparts : net'.numParts = parts := numParts_divide h
  refine ⟨?_, fun node hnode => ?_⟩
  · rw [hparts, UInt32.lt_iff_toNat_lt]
    exact hpos
  · obtain ⟨i, hi⟩ := List.mem_iff_getElem?.1 hnode
    obtain ⟨hlt, he⟩ := partition_of_getElem? h hi
    rw [hparts, he]
    exact method.part_lt hpos hlt

/-- The number of partitions grows with the partitions to which nodes are assigned. -/
theorem housed_setPartition {net net' : Network} (h : net.Housed) (hi : net.Indexed)
    {id : NodeId} {part : UInt32} (hs : net.setPartition id part = .ok () net') : net'.Housed := by
  unfold setPartition at hs
  split at hs
  · cases hs
  dsimp only at hs
  split at hs
  · rename_i hfits
    cases hs
    -- The number after the partition is one of 32 bits, or the assignment had been refused.
    have hsucc : (part + 1).toNat = part.toNat + 1 := by
      rw [UInt32.toNat_add]
      exact Nat.mod_eq_of_lt hfits
    have hgrown {part' : UInt32} (hpart : part' < net.numParts ∨ part' = part) :
        part' < max net.numParts (part + 1) := by
      rw [UInt32.lt_iff_toNat_lt, UInt32.toNat_max, hsucc]
      rcases hpart with hpart | rfl
      · exact lt_max_of_lt_left (UInt32.lt_iff_toNat_lt.1 hpart)
      · exact lt_max_of_lt_right (Nat.lt_succ_self _)
    refine ⟨hgrown (.inl h.pos), fun node hnode => ?_⟩
    obtain ⟨old, hold, rfl⟩ := hi.mem_updateNode.1 hnode
    split
    · exact hgrown (.inr rfl)
    · exact hgrown (.inl (h.lt old hold))
  · cases hs

theorem Built.housed {ids : IdStore} {net : Network} (h : net.Built ids) : net.Housed := by
  induction h with
  | empty => exact ⟨by decide, nofun⟩
  | addNode hb _ ha ih => exact housed_addNode ih hb.wired.indexed ha
  | addLink hb _ ha ih => exact housed_addLink ih hb.wired.indexed ha
  | divide _ hd _ => exact housed_divide hd
  | setPartition hb hs ih => exact housed_setPartition ih hb.wired.indexed hs

/-! ## Edits -/

/-- What can be done to a network. -/
inductive Edit where
  | addNode (id : NodeId) (x y : Float)
  | addLink (link : Link)
  | divide (parts : UInt32) (method : PartitionMethod)
  | setPartition (id : NodeId) (part : UInt32)

namespace Edit

/-- The node which an edit adds. -/
def node? : Edit → Option Node
  | addNode id x y => some { id, x, y }
  | _ => none

/-- The link which an edit adds. -/
def link? : Edit → Option Link
  | addLink link => some link
  | _ => none

/-- What an edit adds has an id of the store. -/
def Named (ids : IdStore) : Edit → Prop
  | addNode id _ _ => ids.Issued id
  | addLink link => ids.Issued link.id
  | _ => True

end Edit

/-- The network which an edit leaves that does not fault. -/
def edit (net : Network) : Edit → Except Fault Network
  | .addNode id x y => net.addNode { id, x, y }
  | .addLink link => settled (net.addLink link)
  | .divide parts method => net.divide parts method
  | .setPartition id part => settled (net.setPartition id part)

end Network

/-- What a node is apart from its links and its partition. -/
def Node.site (node : Node) : Node :=
  { node with inLinks := [], outLinks := [], partition := 0 }

namespace Network

variable {ids : IdStore} {net net' : Network} {e : Edit} {edits : List Edit}

theorem Built.edit (h : net.Built ids) (hnamed : e.Named ids) (he : net.edit e = .ok net') :
    net'.Built ids := by
  cases e with
  | addNode id x y => exact h.addNode hnamed he
  | addLink link => exact h.addLink hnamed (eq_ok_of_settled he)
  | divide parts method => exact h.divide he
  | setPartition id part => exact h.setPartition (eq_ok_of_settled he)

/-- An edit adds an element at the end, or changes nothing but partitions. -/
theorem elements_edit (hi : net.Indexed) (he : net.edit e = .ok net') :
    net'.nodes.map Node.site = net.nodes.map Node.site ++ e.node?.toList ∧
      net'.links.map Link.bare = net.links.map Link.bare ++ e.link?.toList.map Link.bare := by
  -- Assigning partitions adds nothing, so that the bare network tells all there is to compare.
  have hkept (hbare : net'.bare = net.bare) :
      net'.nodes.map Node.site = net.nodes.map Node.site ∧
        net'.links.map Link.bare = net.links.map Link.bare := by
    have hnodes := congrArg (·.nodes.map Node.site) hbare
    simp only [bare, List.map_map] at hnodes
    exact ⟨hnodes, congrArg Network.links hbare⟩
  cases e with
  | addNode id x y =>
    obtain ⟨-, rfl⟩ := addNode_eq_ok hi he
    simp [Edit.node?, Edit.link?, Node.site]
  | addLink link =>
    obtain ⟨-, -, target, -, -, rfl⟩ := addLink_eq_ok hi (eq_ok_of_settled he)
    simp [Edit.node?, Edit.link?, Link.bare, Node.site, Node.wire, Function.comp_def]
  | divide parts method => simpa [Edit.node?, Edit.link?] using hkept (bare_divide he)
  | setPartition id part =>
    simpa [Edit.node?, Edit.link?] using hkept (bare_setPartition (eq_ok_of_settled he))

/-- Edits one after the other leave a built network of all that was added. -/
theorem Built.foldlM_edit (h : net.Built ids) (hnamed : ∀ e ∈ edits, e.Named ids)
    (he : edits.foldlM Network.edit net = .ok net') :
    net'.Built ids ∧
      net'.nodes.map Node.site = net.nodes.map Node.site ++ edits.filterMap Edit.node? ∧
      net'.links.map Link.bare =
        net.links.map Link.bare ++ (edits.filterMap Edit.link?).map Link.bare := by
  induction edits generalizing net with
  | nil =>
    cases he
    simpa using h
  | cons e rest ih =>
    obtain ⟨hfirst, hrest⟩ := List.forall_mem_cons.1 hnamed
    rw [List.foldlM_cons] at he
    cases hmiddle : net.edit e with
    | error fault =>
      -- The series would have ended here.
      rw [hmiddle] at he
      cases he
    | ok middle =>
      rw [hmiddle] at he
      obtain ⟨hnodes, hlinks⟩ := elements_edit h.wired.indexed hmiddle
      obtain ⟨hbuilt, hnodes', hlinks'⟩ := ih (h.edit hfirst hmiddle) hrest he
      refine ⟨hbuilt, ?_, ?_⟩
      · rw [hnodes', hnodes, List.append_assoc, List.filterMap_cons]
        cases e.node? <;> rfl
      · rw [hlinks', hlinks, List.append_assoc, List.filterMap_cons]
        cases e.link? <;> rfl

/-- What is found in a network after a series of edits. -/
structure Holds (edits : List Edit) (net : Network) : Prop where
  nodes_apart : Id.Apart (net.nodes.map (·.id))
  links_apart : Id.Apart (net.links.map (·.id))
  /-- The indices tell for every element when it was added, and name no other ones. -/
  nodeIndex : net.nodeIndex.Indexes ((edits.filterMap Edit.node?).map (·.id))
  linkIndex : net.linkIndex.Indexes ((edits.filterMap Edit.link?).map (·.id))
  /-- The nodes are those which were added, in this order. -/
  nodes : net.nodes.map Node.site = edits.filterMap Edit.node?
  /-- The links are those which were added, in this order. -/
  links : net.links.map Link.bare = (edits.filterMap Edit.link?).map Link.bare
  /-- Under the id of a node which was added, this node is found. -/
  node : ∀ node ∈ edits.filterMap Edit.node?,
    ∃ found ∈ net.nodes, net.node node.id = .ok found ∧ found.site = node
  no_node : ∀ id, id ∉ (edits.filterMap Edit.node?).map (·.id) →
    net.node id = .error (.nodeNotInNetwork id.name)
  /-- Under the id of a link which was added, this link is found. -/
  link : ∀ link ∈ edits.filterMap Edit.link?,
    ∃ found ∈ net.links, net.link link.id = .ok found ∧ found.bare = link.bare
  no_link : ∀ id, id ∉ (edits.filterMap Edit.link?).map (·.id) →
    net.link id = .error (.linkNotInNetwork id.name)
  /-- Every node knows the links which lead to it, and a loop both ways. -/
  inLinks : ∀ node ∈ net.nodes, node.inLinks.Nodup ∧
    node.inLinks = (net.links.filter (·.toNode = node.id)).map (·.id)
  outLinks : ∀ node ∈ net.nodes, node.outLinks.Nodup ∧
    node.outLinks = (net.links.filter (·.fromNode = node.id)).map (·.id)
  /-- Both ends of a link are nodes of the network, and it is in the partition of the second. -/
  ends : ∀ link ∈ net.links, (∃ source, net.node link.fromNode = .ok source) ∧
    ∃ target, net.node link.toNode = .ok target ∧ link.partition = target.partition
  /-- There is a partition, and every node is in one of those which there are. -/
  numParts_pos : 1 ≤ net.numParts
  partition_lt : ∀ node ∈ net.nodes, node.partition < net.numParts

theorem Wired.node_eq (h : net.Wired) {node : Node} (hnode : node ∈ net.nodes) :
    net.node node.id = .ok node := by
  rw [Network.node, h.indexed.node?_eq_some.2 ⟨hnode, rfl⟩]

theorem Wired.link_eq (h : net.Wired) {link : Link} (hlink : link ∈ net.links) :
    net.link link.id = .ok link := by
  rw [Network.link, h.indexed.link?_eq_some.2 ⟨hlink, rfl⟩]

theorem Wired.exists_node (h : net.Wired) {id : NodeId} (hid : id ∈ net.nodes.map (·.id)) :
    ∃ node ∈ net.nodes, node.id = id ∧ net.node id = .ok node := by
  obtain ⟨node, hnode, rfl⟩ := List.mem_map.1 hid
  exact ⟨node, hnode, rfl, h.node_eq hnode⟩

theorem Wired.nodup_filter (h : net.Wired) (p : Link → Bool) :
    ((net.links.filter p).map (·.id)).Nodup :=
  h.links_nodup.sublist (List.filter_sublist.map _)

/-- Both ends of a link are nodes of a built network, and the link is in the partition of the
second. -/
theorem Built.ends (h : net.Built ids) {link : Link} (hlink : link ∈ net.links) :
    (∃ source, net.node link.fromNode = .ok source) ∧
      ∃ target, net.node link.toNode = .ok target ∧ link.partition = target.partition := by
  obtain ⟨source, -, -, hsource⟩ := h.wired.exists_node (h.sourced.end_mem link hlink)
  obtain ⟨target, hmem, hid, htarget⟩ := h.wired.exists_node (h.wired.toNode_mem link hlink)
  exact ⟨⟨source, hsource⟩, target, htarget, h.aligned link hlink target hmem hid⟩

/-- Whatever is added to the empty network, and however nodes are assigned to partitions meanwhile,
afterwards the network holds what was added, with every node wired to its links and every link in
the partition of the node it leads to. -/
theorem holds_of_edits (hnamed : ∀ e ∈ edits, e.Named ids)
    (h : edits.foldlM edit .empty = .ok net) : net.Holds edits := by
  obtain ⟨hbuilt, hnodes, hlinks⟩ := Built.empty.foldlM_edit hnamed h
  change net.nodes.map Node.site = edits.filterMap Edit.node? at hnodes
  change net.links.map Link.bare = (edits.filterMap Edit.link?).map Link.bare at hlinks
  have hwired := hbuilt.wired
  -- The index is about the ids of what was added, in the order in which it was.
  have hnodeIds : net.nodes.map (·.id) = (edits.filterMap Edit.node?).map (·.id) := by
    rw [← hnodes, List.map_map]
    rfl
  have hlinkIds : net.links.map (·.id) = (edits.filterMap Edit.link?).map (·.id) := by
    have hsame := congrArg (List.map Link.id) hlinks
    rwa [List.map_map, List.map_map] at hsame
  have hin (node : Node) (hnode : node ∈ net.nodes) := hwired.inLinks node hnode
  have hout (node : Node) (hnode : node ∈ net.nodes) := hbuilt.sourced.links_eq node hnode
  refine
    { nodes_apart := Id.apart_of_issued hbuilt.issued.1 hwired.nodes_nodup
      links_apart := Id.apart_of_issued hbuilt.issued.2 hwired.links_nodup
      nodeIndex := hnodeIds ▸ hwired.indexed.nodes
      linkIndex := hlinkIds ▸ hwired.indexed.links
      nodes := hnodes
      links := hlinks
      node := fun node hnode => ?node
      no_node := fun id hid => ?no_node
      link := fun link hlink => ?link
      no_link := fun id hid => ?no_link
      inLinks := fun node hnode => ⟨hin node hnode ▸ hwired.nodup_filter _, hin node hnode⟩
      outLinks := fun node hnode => ⟨hout node hnode ▸ hwired.nodup_filter _, hout node hnode⟩
      ends := fun link => hbuilt.ends
      numParts_pos := UInt32.le_iff_toNat_le.2 (UInt32.lt_iff_toNat_lt.1 hbuilt.housed.pos)
      partition_lt := hbuilt.housed.lt }
  case node =>
    obtain ⟨found, hmem, rfl⟩ := List.mem_map.1 (hnodes ▸ hnode)
    exact ⟨found, hmem, hwired.node_eq hmem, rfl⟩
  case no_node =>
    rw [Network.node, hwired.indexed.node?_eq_none.2 (hnodeIds ▸ hid)]
  case link =>
    have hmem : link.bare ∈ net.links.map Link.bare := hlinks ▸ List.mem_map_of_mem hlink
    obtain ⟨found, hmem, he⟩ := List.mem_map.1 hmem
    have hid : found.id = link.id := (congrArg Link.id he :)
    exact ⟨found, hmem, hid ▸ hwired.link_eq hmem, he⟩
  case no_link =>
    rw [Network.link, hwired.indexed.link?_eq_none.2 (hlinkIds ▸ hid)]

end Network

namespace Sample

def portIds : IdStore :=
  .ofNames [(.node, ["pier", "dock"]), (.link, ["berth", "turn"])]

def pier : NodeId := ⟨0, "pier"⟩
def dock : NodeId := ⟨1, "dock"⟩
def berth : LinkId := ⟨0, "berth"⟩
def turn : LinkId := ⟨1, "turn"⟩

/-- A link and a loop, added while the number of partitions goes up and down. -/
def portEdits : List Network.Edit :=
  [.addNode pier 0 0, .divide 4 .roundRobin, .addNode dock 100 0,
    .addLink { id := berth, fromNode := pier, toNode := dock, length := 100, freespeed := 10 },
    .setPartition dock 6,
    .addLink { id := turn, fromNode := dock, toNode := dock, length := 100, freespeed := 10 },
    .divide 2 .blocks]

end Sample

namespace Network

theorem holds_of_edits_port : (∀ e ∈ Sample.portEdits, e.Named Sample.portIds) ∧
    ∃ net node, Sample.portEdits.foldlM edit .empty = .ok net ∧ net.Holds Sample.portEdits ∧
      net.nodeIndex.get? Sample.dock = some 1 ∧ net.linkIndex.get? Sample.turn = some 1 ∧
      net.node Sample.dock = .ok node ∧ node.partition < net.numParts ∧
      node.inLinks = [Sample.berth, Sample.turn] ∧ node.outLinks = [Sample.turn] := by
  have hnamed : ∀ e ∈ Sample.portEdits, e.Named Sample.portIds := by
    simp only [Sample.portEdits, List.forall_mem_cons]
    exact ⟨rfl, trivial, rfl, rfl, trivial, rfl, trivial, nofun⟩
  -- Neither the network nor its index has to be written out.
  have h : Sample.portEdits.foldlM edit .empty = .ok _ := rfl
  have hholds := holds_of_edits hnamed h
  obtain ⟨node, hmem, hnode, hsite⟩ := hholds.node { id := Sample.dock, x := 100, y := 0 }
    (by simp [Sample.portEdits, Edit.node?])
  have hid : node.id = Sample.dock := congrArg Node.id hsite
  refine ⟨hnamed, _, node, h, hholds, (hholds.nodeIndex _ 1).2 rfl, (hholds.linkIndex _ 1).2 rfl,
    hnode, hholds.partition_lt node hmem, ?_, ?_⟩
  · rw [(hholds.inLinks node hmem).2, hid]
    rfl
  · rw [(hholds.outLinks node hmem).2, hid]
    rfl

end Network

end NetworkLoading
