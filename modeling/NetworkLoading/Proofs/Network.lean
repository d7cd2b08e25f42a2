import NetworkLoading.Network.Partition
import NetworkLoading.Proofs.Ids

/-!
# Networks which were built

A network is built from nothing by adding nodes and links and by assigning nodes to partitions.
Whatever the order, every node knows exactly the links which lead to it, and every link is in the
partition of the node it leads to. Partitions are all that dividing a network changes.
-/

namespace NetworkLoading

/-- A node without its partition. -/
def Node.bare (node : Node) : Node :=
  { node with partition := 0 }

/-- A node which comes to know a link, if the link starts or ends at it. -/
def Node.wire (link : Link) (node : Node) : Node :=
  { node with
    inLinks := node.inLinks ++ if node.id = link.toNode then [link.id] else []
    outLinks := node.outLinks ++ if node.id = link.fromNode then [link.id] else [] }

/-- A link without its partition. -/
def Link.bare (link : Link) : Link :=
  { link with partition := 0 }

namespace Network

/-- A network without its partitions. -/
def bare (net : Network) : Network :=
  { net with nodes := net.nodes.map Node.bare, links := net.links.map Link.bare, numParts := 1 }

/-- The network which an operation leaves that does not fault. -/
def settled : EStateM.Result Fault Network Unit → Except Fault Network
  | .ok () net => .ok net
  | .error fault _ => .error fault

theorem eq_ok_of_settled {result : EStateM.Result Fault Network Unit} {net : Network}
    (h : settled result = .ok net) : result = .ok () net := by
  cases result with
  | ok _ _ =>
    cases h
    rfl
  | error _ _ => cases h

/-- The networks that successful operations make of the empty one, with ids of one store. A node is
added without links. -/
inductive Built (ids : IdStore) : Network → Prop
  | empty : Built ids .empty
  | addNode {net net' : Network} {id : NodeId} {x y : Float} :
      Built ids net → ids.Issued id → net.addNode { id, x, y } = .ok net' → Built ids net'
  | addLink {net net' : Network} {link : Link} :
      Built ids net → ids.Issued link.id → net.addLink link = .ok () net' → Built ids net'
  | divide {net net' : Network} {parts : UInt32} {method : PartitionMethod} :
      Built ids net → net.divide parts method = .ok net' → Built ids net'
  | setPartition {net net' : Network} {id : NodeId} {part : UInt32} :
      Built ids net → net.setPartition id part = .ok () net' → Built ids net'

/-- The networks which assigning nodes to partitions makes of one. -/
inductive Repartitioned (net : Network) : Network → Prop
  | refl : Repartitioned net net
  | divide {net' net'' : Network} {parts : UInt32} {method : PartitionMethod} :
      Repartitioned net net' → net'.divide parts method = .ok net'' → Repartitioned net net''
  | setPartition {net' net'' : Network} {id : NodeId} {part : UInt32} :
      Repartitioned net net' → net'.setPartition id part = .ok () net'' → Repartitioned net net''

theorem Built.repartitioned {ids : IdStore} {net net' : Network} (h : net.Built ids)
    (hr : net.Repartitioned net') : net'.Built ids := by
  induction hr with
  | refl => exact h
  | divide _ hd ih => exact ih.divide hd
  | setPartition _ hs ih => exact ih.setPartition hs

/-! ## Wiring -/

/-- The indices tell where the nodes and the links stand. -/
structure Indexed (net : Network) : Prop where
  nodes : net.nodeIndex.Indexes (net.nodes.map (·.id))
  links : net.linkIndex.Indexes (net.links.map (·.id))

/-- Nodes and links fit together. -/
structure Wired (net : Network) : Prop where
  indexed : net.Indexed
  inLinks : ∀ node ∈ net.nodes,
    node.inLinks = (net.links.filter (·.toNode = node.id)).map (·.id)
  toNode_mem : ∀ link ∈ net.links, link.toNode ∈ net.nodes.map (·.id)

/-- The nodes know the links which have one of their ends there, in the order of the links, and
every such end is at a node. -/
structure Knows (net : Network) (endOf : Link → NodeId) (linksOf : Node → List LinkId) : Prop where
  links_eq : ∀ node ∈ net.nodes,
    linksOf node = (net.links.filter (endOf · = node.id)).map (·.id)
  end_mem : ∀ link ∈ net.links, endOf link ∈ net.nodes.map (·.id)

theorem Wired.nodes_nodup {net : Network} (h : net.Wired) : (net.nodes.map (·.id)).Nodup :=
  h.indexed.nodes.nodup

theorem Wired.links_nodup {net : Network} (h : net.Wired) : (net.links.map (·.id)).Nodup :=
  h.indexed.links.nodup

theorem wired_iff {net : Network} :
    net.Wired ↔ net.Indexed ∧ net.Knows (·.toNode) (·.inLinks) :=
  ⟨fun h => ⟨h.indexed, h.inLinks, h.toNode_mem⟩,
    fun ⟨hindexed, hknows⟩ => ⟨hindexed, hknows.links_eq, hknows.end_mem⟩⟩

/-- Every link is in the partition of the node it leads to. -/
def Aligned (net : Network) : Prop :=
  ∀ link ∈ net.links, ∀ node ∈ net.nodes, node.id = link.toNode → link.partition = node.partition

/-- Partitions do not matter. -/
theorem knows_bare {net : Network} {endOf : Link → NodeId} {linksOf : Node → List LinkId}
    (hend : ∀ link, endOf link.bare = endOf link)
    (hlinks : ∀ node, linksOf node.bare = linksOf node) :
    net.bare.Knows endOf linksOf ↔ net.Knows endOf linksOf := by
  have hids : net.bare.nodes.map (·.id) = net.nodes.map (·.id) := by
    simp [bare, Function.comp_def, Node.bare]
  -- The links at a node are named by their ends, which partitions do not touch.
  have hfilter (id : NodeId) : (net.bare.links.filter (endOf · = id)).map (·.id) =
      (net.links.filter (endOf · = id)).map (·.id) := by
    simp only [bare, List.filter_map, List.map_map, Function.comp_def, hend]
    rfl
  constructor
  · intro h
    refine ⟨fun node hnode => ?_, fun link hlink => ?_⟩
    · rw [← hlinks]
      exact (h.links_eq node.bare (List.mem_map_of_mem hnode)).trans (hfilter node.id)
    · rw [← hend, ← hids]
      exact h.end_mem link.bare (List.mem_map_of_mem hlink)
  · intro h
    refine ⟨fun node hnode => ?_, fun link hlink => ?_⟩
    · obtain ⟨node, hmem, rfl⟩ := List.mem_map.1 hnode
      rw [hlinks]
      exact (h.links_eq node hmem).trans (hfilter node.id).symm
    · obtain ⟨link, hmem, rfl⟩ := List.mem_map.1 hlink
      rw [hend, hids]
      exact h.end_mem link hmem

theorem indexed_bare {net : Network} : net.bare.Indexed ↔ net.Indexed := by
  have hnodes : net.bare.nodes.map (·.id) = net.nodes.map (·.id) := by
    simp [bare, Function.comp_def, Node.bare]
  have hlinks : net.bare.links.map (·.id) = net.links.map (·.id) := by
    simp [bare, Function.comp_def, Link.bare]
  constructor
  · intro h
    exact ⟨hnodes ▸ h.nodes, hlinks ▸ h.links⟩
  · intro h
    exact ⟨hnodes ▸ h.nodes, hlinks ▸ h.links⟩

theorem wired_bare {net : Network} : net.bare.Wired ↔ net.Wired := by
  rw [wired_iff, wired_iff, knows_bare (fun _ => rfl) (fun _ => rfl), indexed_bare]

/-! ## Looking up and replacing nodes -/

theorem ids_updateNode (net : Network) (id : NodeId) {f : Node → Node}
    (hf : ∀ node, (f node).id = node.id) :
    (net.updateNode id f).nodes.map (·.id) = net.nodes.map (·.id) :=
  net.nodeIndex.map_modify net.nodes id hf

section

variable {net : Network} (h : net.Indexed)
include h

theorem Indexed.node?_eq_none {id : NodeId} : net.node? id = none ↔ id ∉ net.nodes.map (·.id) :=
  h.nodes.find?_eq_none

theorem Indexed.link?_eq_none {id : LinkId} : net.link? id = none ↔ id ∉ net.links.map (·.id) :=
  h.links.find?_eq_none

theorem Indexed.node?_eq_some {id : NodeId} {node : Node} :
    net.node? id = some node ↔ node ∈ net.nodes ∧ node.id = id :=
  h.nodes.find?_eq_some

theorem Indexed.link?_eq_some {id : LinkId} {link : Link} :
    net.link? id = some link ↔ link ∈ net.links ∧ link.id = id :=
  h.links.find?_eq_some

/-- The node at the place which the index tells is the one with the id. -/
theorem Indexed.updateNode_eq (id : NodeId) (f : Node → Node) :
    net.updateNode id f =
      { net with nodes := net.nodes.map fun node => if node.id = id then f node else node } := by
  rw [updateNode, h.nodes.modify_eq id f]

theorem Indexed.mem_updateNode {id : NodeId} {f : Node → Node} {node : Node} :
    node ∈ (net.updateNode id f).nodes ↔
      ∃ old ∈ net.nodes, (if old.id = id then f old else old) = node := by
  rw [h.updateNode_eq, List.mem_map]

theorem Indexed.updateNode (id : NodeId) {f : Node → Node} (hf : ∀ node, (f node).id = node.id) :
    (net.updateNode id f).Indexed :=
  ⟨(ids_updateNode net id hf).symm ▸ h.nodes, h.links⟩

end

/-! ## Adding elements -/

/-- What adding a node does: it becomes the last one. -/
theorem addNode_eq_ok {net net' : Network} (hi : net.Indexed) {node : Node}
    (h : net.addNode node = .ok net') :
    node.id ∉ net.nodes.map (·.id) ∧ net' = { net with
      nodes := net.nodes ++ [node]
      nodeIndex := net.nodeIndex.insert node.id net.nodes.length } := by
  simp only [addNode, Option.isSome_iff_ne_none, ne_eq, hi.node?_eq_none, Decidable.not_not] at h
  split at h
  · cases h
  · rename_i hnew
    cases h
    exact ⟨hnew, rfl⟩

theorem Knows.addNode {net net' : Network} {endOf : Link → NodeId} {linksOf : Node → List LinkId}
    (h : net.Knows endOf linksOf) (hi : net.Indexed) {node : Node} (hnew : linksOf node = [])
    (ha : net.addNode node = .ok net') : net'.Knows endOf linksOf := by
  obtain ⟨hid, rfl⟩ := addNode_eq_ok hi ha
  refine ⟨fun other hother => ?_, fun link hlink => ?_⟩
  · rcases List.mem_append.1 hother with hold | hself
    · exact h.links_eq other hold
    · obtain rfl := List.mem_singleton.1 hself
      -- A link at the new node would have been refused before the node was there.
      have hnone : net.links.filter (endOf · = other.id) = [] := by
        refine List.filter_eq_nil_iff.2 fun link hlink he => hid ?_
        rw [← of_decide_eq_true he]
        exact h.end_mem link hlink
      rw [hnew, hnone]
      rfl
  · rw [List.map_append]
    exact List.mem_append_left _ (h.end_mem link hlink)

theorem Indexed.addNode {net net' : Network} (h : net.Indexed) {node : Node}
    (ha : net.addNode node = .ok net') : net'.Indexed := by
  obtain ⟨hnew, rfl⟩ := addNode_eq_ok h ha
  have hnodes := h.nodes.insert (h.nodes.get?_eq_none.2 hnew)
  rw [List.length_map] at hnodes
  refine ⟨?_, h.links⟩
  rw [List.map_append]
  exact hnodes

theorem wired_addNode {net net' : Network} (h : net.Wired) {id : NodeId} {x y : Float}
    (ha : net.addNode { id, x, y } = .ok net') : net'.Wired := by
  obtain ⟨hindexed, hknows⟩ := wired_iff.1 h
  exact wired_iff.2 ⟨hindexed.addNode ha, hknows.addNode hindexed rfl ha⟩

theorem aligned_addNode {net net' : Network} (h : net.Wired) (hal : net.Aligned) {id : NodeId}
    {x y : Float} (ha : net.addNode { id, x, y } = .ok net') : net'.Aligned := by
  obtain ⟨hnew, rfl⟩ := addNode_eq_ok h.indexed ha
  intro link hlink node hnode he
  rcases List.mem_append.1 hnode with hold | hself
  · exact hal link hlink node hold he
  · obtain rfl := List.mem_singleton.1 hself
    refine absurd ?_ hnew
    rw [show id = link.toNode from he]
    exact h.toNode_mem link hlink

/-- What adding a link does: both of its nodes come to know it, and it joins the partition of the
node it leads to. -/
theorem addLink_eq_ok {net net' : Network} (hi : net.Indexed) {link : Link}
    (h : net.addLink link = .ok () net') :
    link.id ∉ net.links.map (·.id) ∧ link.fromNode ∈ net.nodes.map (·.id) ∧
      ∃ target ∈ net.nodes, target.id = link.toNode ∧
        net' = { net with
          nodes := net.nodes.map (·.wire link)
          links := net.links ++ [{ link with partition := target.partition }]
          linkIndex := net.linkIndex.insert link.id net.links.length } := by
  unfold addLink at h
  split at h
  · cases h
  rename_i hnew
  refine ⟨hi.link?_eq_none.1 (by simpa using hnew), ?_⟩
  split at h
  · cases h
  rename_i source hsource
  obtain ⟨hsource_mem, hsource_id⟩ := hi.node?_eq_some.1 hsource
  refine ⟨hsource_id ▸ List.mem_map_of_mem hsource_mem, ?_⟩
  dsimp only at h
  split at h
  · cases h
  rename_i target htarget
  cases h
  -- The target is read after the link was noted at its source, which changes no partition.
  have hnoted := hi.updateNode link.fromNode
    (f := fun node => { node with outLinks := node.outLinks ++ [link.id] }) fun _ => rfl
  obtain ⟨hmem, hid⟩ := hnoted.node?_eq_some.1 htarget
  obtain ⟨old, hold, rfl⟩ := hi.mem_updateNode.1 hmem
  refine ⟨old, hold, ?_, ?_⟩
  · rw [← hid]
    split <;> rfl
  · rw [hnoted.updateNode_eq, hi.updateNode_eq]
    simp only [apply_ite Node.partition, ite_self, List.map_map, mk.injEq, and_true]
    refine List.map_congr_left fun node _ => ?_
    -- A loop is noted at the same node twice, once at either end.
    by_cases hfrom : node.id = link.fromNode
    · by_cases hto : link.fromNode = link.toNode <;> simp [Node.wire, hfrom, hto]
    · by_cases hto : node.id = link.toNode
      · have hne : link.toNode ≠ link.fromNode := hto ▸ hfrom
        simp [Node.wire, hto, hne]
      · simp [Node.wire, hfrom, hto]

theorem ids_wire (nodes : List Node) (link : Link) :
    (nodes.map (·.wire link)).map (·.id) = nodes.map (·.id) := by
  rw [List.map_map]
  rfl

/-- The node at an end of a new link comes to know it as the last one. -/
theorem Knows.addLink {net net' : Network} {endOf : Link → NodeId} {linksOf : Node → List LinkId}
    (h : net.Knows endOf linksOf) (hi : net.Indexed)
    (hend : ∀ link, endOf link.bare = endOf link) {link : Link}
    (hmem : endOf link ∈ net.nodes.map (·.id))
    (hwire : ∀ node, linksOf (node.wire link) =
      linksOf node ++ if node.id = endOf link then [link.id] else [])
    (ha : net.addLink link = .ok () net') : net'.Knows endOf linksOf := by
  obtain ⟨-, -, target, -, -, rfl⟩ := addLink_eq_ok hi ha
  -- The new link only takes its partition from its target; its ends stay.
  have hsame : endOf { link with partition := target.partition } = endOf link :=
    (hend { link with partition := target.partition }).symm.trans (hend link)
  refine ⟨fun node hnode => ?_, fun other hother => ?_⟩
  · obtain ⟨old, hold, rfl⟩ := List.mem_map.1 hnode
    have hid : (old.wire link).id = old.id := rfl
    rw [hwire, h.links_eq old hold, hid, List.filter_append, List.map_append]
    by_cases he : endOf link = old.id <;> simp [hsame, he, eq_comm (a := old.id)]
  · rw [ids_wire]
    rcases List.mem_append.1 hother with hold | hself
    · exact h.end_mem other hold
    · obtain rfl := List.mem_singleton.1 hself
      exact hsame ▸ hmem

theorem Indexed.addLink {net net' : Network} (h : net.Indexed) {link : Link}
    (ha : net.addLink link = .ok () net') : net'.Indexed := by
  obtain ⟨hnew, -, target, -, -, rfl⟩ := addLink_eq_ok h ha
  have hlinks := h.links.insert (h.links.get?_eq_none.2 hnew)
  rw [List.length_map] at hlinks
  refine ⟨(ids_wire net.nodes link).symm ▸ h.nodes, ?_⟩
  rw [List.map_append]
  exact hlinks

theorem wired_addLink {net net' : Network} (h : net.Wired) {link : Link}
    (ha : net.addLink link = .ok () net') : net'.Wired := by
  obtain ⟨hindexed, hknows⟩ := wired_iff.1 h
  obtain ⟨-, -, target, htarget, hid, -⟩ := addLink_eq_ok hindexed ha
  exact wired_iff.2 ⟨hindexed.addLink ha, hknows.addLink hindexed (fun _ => rfl)
    (hid ▸ List.mem_map_of_mem htarget) (fun _ => rfl) ha⟩

theorem aligned_addLink {net net' : Network} (h : net.Wired) (hal : net.Aligned) {link : Link}
    (ha : net.addLink link = .ok () net') : net'.Aligned := by
  obtain ⟨-, -, target, htarget, hid, rfl⟩ := addLink_eq_ok h.indexed ha
  intro other hother node hn he
  obtain ⟨old, hold, rfl⟩ := List.mem_map.1 hn
  change old.id = other.toNode at he
  rcases List.mem_append.1 hother with hmem | hself
  · exact hal other hmem old hold he
  · obtain rfl := List.mem_singleton.1 hself
    obtain rfl := List.inj_on_of_nodup_map h.nodes_nodup hold htarget (he.trans hid.symm)
    rfl

/-! ## Partitions -/

theorem bare_alignLinks (net : Network) : net.alignLinks.bare = net.bare := by
  simp only [bare, alignLinks, List.map_map, mk.injEq, true_and, and_true]
  apply List.map_congr_left
  intro link _
  simp only [Function.comp_apply]
  split <;> rfl

theorem aligned_alignLinks {net : Network} (h : net.alignLinks.Indexed) :
    net.alignLinks.Aligned := by
  intro link hlink node hnode he
  obtain ⟨old, -, rfl⟩ := List.mem_map.1 hlink
  -- Where a link leads does not change when its partition does.
  have hold : node.id = old.toNode := by
    rw [he]
    split <;> rfl
  have hfound : net.node? old.toNode = some node := h.nodes.find?_eq_some.2 ⟨hnode, hold⟩
  simp only [hfound]

theorem bare_updateNode (net : Network) (id : NodeId) {f : Node → Node}
    (hf : ∀ node, (f node).bare = node.bare) : (net.updateNode id f).bare = net.bare := by
  rw [bare, bare, updateNode, net.nodeIndex.map_modify net.nodes id hf]

theorem bare_divide {net net' : Network} {parts : UInt32} {method : PartitionMethod}
    (h : net.divide parts method = .ok net') : net'.bare = net.bare := by
  unfold divide at h
  split at h
  · cases h
  · cases h
    rw [bare_alignLinks]
    simp only [bare, mk.injEq, and_true]
    apply List.ext_getElem (by simp)
    intro i _ _
    simp [Node.bare]

theorem bare_setPartition {net net' : Network} {id : NodeId} {part : UInt32}
    (h : net.setPartition id part = .ok () net') : net'.bare = net.bare := by
  unfold setPartition at h
  split at h
  · cases h
  · dsimp only at h
    split at h
    · cases h
      rw [bare_alignLinks]
      exact bare_updateNode net id fun _ => rfl
    · cases h

theorem aligned_divide {net net' : Network} (h : net.Wired) {parts : UInt32}
    {method : PartitionMethod} (hd : net.divide parts method = .ok net') : net'.Aligned := by
  have hwired : net'.Wired := wired_bare.1 (bare_divide hd ▸ wired_bare.2 h)
  unfold divide at hd
  split at hd
  · cases hd
  · cases hd
    exact aligned_alignLinks hwired.indexed

theorem aligned_setPartition {net net' : Network} (h : net.Wired) {id : NodeId} {part : UInt32}
    (hs : net.setPartition id part = .ok () net') : net'.Aligned := by
  have hwired : net'.Wired := wired_bare.1 (bare_setPartition hs ▸ wired_bare.2 h)
  unfold setPartition at hs
  split at hs
  · cases hs
  · dsimp only at hs
    split at hs
    · cases hs
      exact aligned_alignLinks hwired.indexed
    · cases hs

theorem Repartitioned.bare_eq {net net' : Network} (h : net.Repartitioned net') :
    net'.bare = net.bare := by
  induction h with
  | refl => rfl
  | divide _ hd ih => exact (bare_divide hd).trans ih
  | setPartition _ hs ih => exact (bare_setPartition hs).trans ih

/-! ## Built networks -/

theorem Built.wired {ids : IdStore} {net : Network} (h : net.Built ids) : net.Wired := by
  induction h with
  | empty => exact ⟨⟨Dictionary.indexes_empty, Dictionary.indexes_empty⟩, nofun, nofun⟩
  | addNode _ _ ha ih => exact wired_addNode ih ha
  | addLink _ _ ha ih => exact wired_addLink ih ha
  | divide _ hd ih => exact wired_bare.1 (bare_divide hd ▸ wired_bare.2 ih)
  | setPartition _ hs ih => exact wired_bare.1 (bare_setPartition hs ▸ wired_bare.2 ih)

theorem Built.aligned {ids : IdStore} {net : Network} (h : net.Built ids) : net.Aligned := by
  induction h with
  | empty => exact fun link hlink => absurd hlink List.not_mem_nil
  | addNode hb _ ha ih => exact aligned_addNode hb.wired ih ha
  | addLink hb _ ha ih => exact aligned_addLink hb.wired ih ha
  | divide hb hd _ => exact aligned_divide hb.wired hd
  | setPartition hb hs _ => exact aligned_setPartition hb.wired hs

theorem ids_of_bare_eq {net net' : Network} (h : net'.bare = net.bare) :
    net'.nodes.map (·.id) = net.nodes.map (·.id) ∧
      net'.links.map (·.id) = net.links.map (·.id) := by
  have hnodes := congrArg (fun n : Network => n.nodes.map (·.id)) h
  have hlinks := congrArg (fun n : Network => n.links.map (·.id)) h
  simp only [bare, List.map_map] at hnodes hlinks
  exact ⟨hnodes, hlinks⟩

/-- All ids of a built network come from the store. -/
theorem Built.issued {ids : IdStore} {net : Network} (h : net.Built ids) :
    (∀ id ∈ net.nodes.map (·.id), ids.Issued id) ∧ ∀ id ∈ net.links.map (·.id), ids.Issued id := by
  induction h with
  | empty => simp [Network.empty]
  | addNode hb hi ha ih =>
    obtain ⟨-, rfl⟩ := addNode_eq_ok hb.wired.indexed ha
    refine ⟨?_, ih.2⟩
    simp only [List.map_append, List.map_cons, List.map_nil, List.mem_append, List.mem_singleton]
    rintro id (hold | rfl)
    · exact ih.1 id hold
    · exact hi
  | addLink hb hi ha ih =>
    obtain ⟨-, -, target, -, -, rfl⟩ := addLink_eq_ok hb.wired.indexed ha
    refine ⟨(ids_wire _ _).symm ▸ ih.1, ?_⟩
    simp only [List.map_append, List.map_cons, List.map_nil, List.mem_append, List.mem_singleton]
    rintro id (hold | rfl)
    · exact ih.2 id hold
    · exact hi
  -- Dividing and setting a partition change no id.
  | divide _ hd ih =>
    obtain ⟨hnodes, hlinks⟩ := ids_of_bare_eq (bare_divide hd)
    rwa [hnodes, hlinks]
  | setPartition _ hs ih =>
    obtain ⟨hnodes, hlinks⟩ := ids_of_bare_eq (bare_setPartition hs)
    rwa [hnodes, hlinks]

end Network

end NetworkLoading
