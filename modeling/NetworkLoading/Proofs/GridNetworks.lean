import Mathlib.Algebra.BigOperators.Ring.List
import Mathlib.Tactic.Ring
import NetworkLoading.Proofs.Edits
import NetworkLoading.Proofs.Grid

/-!
# Complete grids

The network which is made for the settings has a node for every place of the grid and exactly one
link in each direction between any two neighbours. At every node as many links end as start, and
they come from the nodes to which the others lead.
-/

namespace NetworkLoading

/-- The links from one node to another one. -/
def Network.linksBetween (net : Network) (source target : NodeId) : List Link :=
  net.links.filter fun link => link.fromNode = source ∧ link.toNode = target

/-- The nodes from which and to which the links lead. -/
def Network.arcs (net : Network) : List (NodeId × NodeId) :=
  net.links.map fun link => (link.fromNode, link.toNode)

/-- The links which end at a node and those which start there. The nodes at their other ends are the
same. -/
structure Network.Mirrors (net : Network) (node : Node) (ins outs : List Link) : Prop where
  inLinks : node.inLinks = ins.map (·.id)
  outLinks : node.outLinks = outs.map (·.id)
  toNode : ∀ link ∈ ins, net.link link.id = .ok link ∧ link.toNode = node.id
  fromNode : ∀ link ∈ outs, net.link link.id = .ok link ∧ link.fromNode = node.id
  neighbours : (ins.map (·.fromNode)).Perm (outs.map (·.toNode))

namespace Grid

variable {size : Nat} {p q : Point}

/-! ## Numbers of places and links -/

/-- No coordinate needs more than 32 bits. -/
theorem side_lt (c : Config.Scenario) : side c < UInt32.size :=
  max_lt c.gridSize.toNat_lt_size (by decide)

theorem length_points (size : Nat) : (points size).length = size * size := by
  simp [points, List.length_flatMap]

theorem length_linksAt (size : Nat) (p : Point) : (linksAt size p).length =
    (if p.x + 1 < size then 2 else 0) + if p.y + 1 < size then 2 else 0 := by
  unfold linksAt
  dsimp only
  split <;> split <;> rfl

/-- All places of a row but the last one have a next one. -/
theorem sum_next (size count : Nat) (h : count ≤ size) :
    ((List.range count).map fun x => if x + 1 < size then 2 else 0).sum =
      2 * min count (size - 1) := by
  induction count with
  | zero => simp
  | succ count ih =>
    rw [List.range_succ, List.map_append, List.sum_append, ih (by omega)]
    simp only [List.map_cons, List.map_nil, List.sum_singleton]
    split <;> omega

theorem length_linkEnds (size : Nat) : (linkEnds size).length = 4 * size * (size - 1) := by
  have hsum := sum_next size size le_rfl
  rw [Nat.min_eq_right (Nat.sub_le size 1)] at hsum
  have hconst (n : Nat) : ((List.range size).map fun _ => n).sum = size * n := by simp
  have hrow (y : Nat) : ((List.range size).map fun x => (linksAt size { x, y }).length).sum =
      2 * (size - 1) + size * if y + 1 < size then 2 else 0 := by
    simp only [length_linksAt, List.sum_map_add, hsum]
    exact congrArg (2 * (size - 1) + ·) (hconst (if y + 1 < size then 2 else 0))
  calc (linkEnds size).length
      = ((List.range size).map fun y =>
          ((List.range size).map fun x => (linksAt size { x, y }).length).sum).sum := by
        simp [linkEnds, points, List.length_flatMap, List.flatMap_assoc, List.flatMap_map]
    _ = size * (2 * (size - 1)) + size * (2 * (size - 1)) := by
        simp only [hrow, List.sum_map_add, hconst, List.sum_map_mul_left, hsum]
    _ = 4 * size * (size - 1) := by ring

theorem swap_mem_linkEnds (h : (p, q) ∈ linkEnds size) : (q, p) ∈ linkEnds size := by
  obtain ⟨hp, hq, hadjacent⟩ := mem_linkEnds.1 h
  refine mem_linkEnds.2 ⟨hq, hp, ?_⟩
  unfold Adjacent at hadjacent ⊢
  omega

/-! ## Links between places -/

instance : Decidable (Adjacent p q) :=
  instDecidableOr

section Spans

variable {grid : NamedNetwork} (h : Spans grid size)
include h

/-- There is one link from a place to a neighbour, and there are no links to other places. -/
theorem names_linksBetween (hp : p.Inside size) (hq : q.Inside size) {source target : NodeId}
    (hsource : grid.ids.Issued source) (htarget : grid.ids.Issued target)
    (hsource_name : source.name = p.name) (htarget_name : target.name = q.name) :
    (grid.network.linksBetween source target).map Link.names =
      if Adjacent p q then [(linkName p q, p.name, q.name)] else [] := by
  -- Nodes of the same name are one node, because both have ids of the store.
  have hbetween : grid.network.linksBetween source target =
      grid.network.links.filter fun link => link.names.2 = (p.name, q.name) := by
    refine List.filter_congr fun link hlink => decide_eq_decide.2 ?_
    rw [← hsource_name, ← htarget_name, Link.names, Prod.mk.injEq]
    exact and_congr
      ⟨congrArg Id.name, (h.fromNode link hlink).eq_of_name hsource⟩
      ⟨congrArg Id.name, (issued_toNode h hlink).eq_of_name htarget⟩
  have hends (ends : Point × Point) : (ends.1.name, ends.2.name) = (p.name, q.name) ↔
      ends = (p, q) := by
    rw [Prod.mk.injEq, Prod.ext_iff]
    exact and_congr ⟨pointName_injective, congrArg Point.name⟩
      ⟨pointName_injective, congrArg Point.name⟩
  have hone : (linkEnds size).filter (· = (p, q)) = if Adjacent p q then [(p, q)] else [] := by
    rw [List.filter_eq, (nodup_linkEnds size).count]
    by_cases hadjacent : Adjacent p q
    · rw [if_pos (mem_linkEnds.2 ⟨hp, hq, hadjacent⟩), if_pos hadjacent]
      rfl
    · rw [if_neg fun hmem => hadjacent (mem_linkEnds.1 hmem).2.2, if_neg hadjacent]
      rfl
  calc (grid.network.linksBetween source target).map Link.names
      = (grid.network.links.map Link.names).filter (fun names => names.2 = (p.name, q.name)) := by
        rw [hbetween, List.filter_map]
        rfl
    _ = ((linkEnds size).filter (· = (p, q))).map fun ends =>
          (linkName ends.1 ends.2, ends.1.name, ends.2.name) := by
        rw [h.links_eq, List.filter_map]
        refine congrArg _ (List.filter_congr fun ends _ => decide_eq_decide.2 (hends ends))
    _ = if Adjacent p q then [(linkName p q, p.name, q.name)] else [] := by
        rw [hone]
        split <;> rfl

/-! ## Both directions -/

theorem nodup_arcs : grid.network.arcs.Nodup := by
  refine List.Nodup.of_map (fun arc : NodeId × NodeId => (arc.1.name, arc.2.name)) ?_
  have hnames := congrArg (List.map Prod.snd) h.links_eq
  rw [List.map_map, List.map_map] at hnames
  rw [Network.arcs, List.map_map]
  refine hnames ▸ (nodup_linkEnds size).map fun a b hab => ?_
  obtain ⟨hfrom, hto⟩ := Prod.mk.inj hab
  exact Prod.ext (pointName_injective hfrom) (pointName_injective hto)

/-- Where a link leads, another one leads back. -/
theorem swap_mem_arcs {arc : NodeId × NodeId} (harc : arc ∈ grid.network.arcs) :
    arc.swap ∈ grid.network.arcs := by
  obtain ⟨link, hlink, rfl⟩ := List.mem_map.1 harc
  obtain ⟨p, q, hpq, hnames⟩ := exists_ends h hlink
  obtain ⟨back, hback, hnames'⟩ := exists_link h (swap_mem_linkEnds hpq)
  simp only [Link.names, Prod.mk.injEq] at hnames hnames'
  refine List.mem_map.2 ⟨back, hback, Prod.ext ?_ ?_⟩
  · exact (h.fromNode back hback).eq_of_name (issued_toNode h hlink)
      (hnames'.2.1.trans hnames.2.2.symm)
  · exact (issued_toNode h hback).eq_of_name (h.fromNode link hlink)
      (hnames'.2.2.trans hnames.2.1.symm)

/-- As many links lead from one node to another one as lead back. -/
theorem perm_swap_arcs : (grid.network.arcs.map Prod.swap).Perm grid.network.arcs := by
  have hnodup := nodup_arcs h
  -- No two links lead the same way, so it is enough that links lead both ways.
  refine (List.perm_ext_iff_of_nodup (hnodup.map Prod.swap_injective) hnodup).2 fun arc =>
    ⟨fun hmem => ?_, fun hmem => List.mem_map.2 ⟨_, swap_mem_arcs h hmem, Prod.swap_swap arc⟩⟩
  obtain ⟨there, hthere, rfl⟩ := List.mem_map.1 hmem
  exact swap_mem_arcs h hthere

/-- The links of a node mirror each other. -/
theorem exists_mirrors {node : Node} (hnode : node ∈ grid.network.nodes) :
    ∃ ins outs, grid.network.Mirrors node ins outs := by
  have hwired := h.built.wired
  refine ⟨grid.network.links.filter (·.toNode = node.id),
    grid.network.links.filter (·.fromNode = node.id), hwired.inLinks node hnode,
    h.built.sourced.links_eq node hnode, fun link hlink => ?_, fun link hlink => ?_, ?_⟩
  · obtain ⟨hmem, hto⟩ := List.mem_filter.1 hlink
    exact ⟨hwired.link_eq hmem, of_decide_eq_true hto⟩
  · obtain ⟨hmem, hfrom⟩ := List.mem_filter.1 hlink
    exact ⟨hwired.link_eq hmem, of_decide_eq_true hfrom⟩
  · have hperm := ((perm_swap_arcs h).filter (·.1 = node.id)).map Prod.snd
    simp only [Network.arcs, List.filter_map, List.map_map] at hperm
    exact hperm

end Spans

/-! ## The whole grid -/

/-- A network is a square grid: there is a node at every place, one link from every place to each
neighbour, and no other link. -/
structure Complete (size : Nat) (net : Network) : Prop where
  nodes : net.nodes.map (·.id.name) = (points size).map Point.name
  length_nodes : net.nodes.length = size * size
  length_links : net.links.length = 4 * size * (size - 1)
  nodes_apart : Id.Apart (net.nodes.map (·.id))
  links_apart : Id.Apart (net.links.map (·.id))
  between : ∀ p q : Point, p.Inside size → q.Inside size →
    ∃ source ∈ net.nodes, ∃ target ∈ net.nodes, source.id.name = p.name ∧ target.id.name = q.name ∧
      (net.linksBetween source.id target.id).map (·.id.name) =
        if Adjacent p q then [linkName p q] else []
  mirrors : ∀ node ∈ net.nodes, node.inLinks.length = node.outLinks.length ∧
    ∃ ins outs, net.Mirrors node ins outs

/-- Whatever the size in the settings is, a complete grid is made, with at least two nodes along
each side and no coordinate of more than 32 bits. -/
theorem network_complete (ids : IdStore) (c : Config.Scenario) :
    2 ≤ side c ∧ side c < UInt32.size ∧
      ∃ grid, network ids c = .ok grid ∧ Complete (side c) grid.network := by
  obtain ⟨grid, hgrid, h⟩ := exists_network ids c
  have hwired := h.built.wired
  have hnodes := congrArg List.length h.nodes_eq
  have hlinks := congrArg List.length h.links_eq
  simp only [List.length_map, length_points, length_linkEnds] at hnodes hlinks
  refine ⟨Nat.le_max_right _ _, side_lt c, grid, hgrid,
    { nodes := h.nodes_eq
      length_nodes := hnodes
      length_links := hlinks
      nodes_apart := Id.apart_of_issued h.built.issued.1 hwired.nodes_nodup
      links_apart := Id.apart_of_issued h.built.issued.2 hwired.links_nodup
      between := fun p q hp hq => ?between
      mirrors := fun node hnode => ?mirrors }⟩
  case between =>
    obtain ⟨_, hsource_name, hsource, hsource_id⟩ :=
      h.node (List.mem_map_of_mem (mem_points.2 hp))
    obtain ⟨_, htarget_name, htarget, htarget_id⟩ :=
      h.node (List.mem_map_of_mem (mem_points.2 hq))
    -- Links between two places are found by their names, of which there is one or none.
    have hnames := congrArg (List.map Prod.fst)
      (names_linksBetween h hp hq hsource htarget hsource_name htarget_name)
    obtain ⟨source, hsource_mem, rfl⟩ := List.mem_map.1 hsource_id
    obtain ⟨target, htarget_mem, rfl⟩ := List.mem_map.1 htarget_id
    refine ⟨source, hsource_mem, target, htarget_mem, hsource_name, htarget_name, ?_⟩
    rw [List.map_map] at hnames
    refine hnames.trans ?_
    split <;> rfl
  case mirrors =>
    obtain ⟨ins, outs, hmirrors⟩ := exists_mirrors h hnode
    refine ⟨?_, ins, outs, hmirrors⟩
    have hlength := hmirrors.neighbours.length_eq
    rw [hmirrors.inLinks, hmirrors.outLinks]
    simpa using hlength

/-- A grid of three by three places has nine nodes and 24 links, of which one joins the first two
places of the first row. -/
theorem network_complete_three :
    ∃ grid, network .empty { gridSize := 3 } = .ok grid ∧ Complete 3 grid.network ∧
      grid.network.nodes.length = 9 ∧ grid.network.links.length = 24 ∧
      ∃ source ∈ grid.network.nodes, ∃ target ∈ grid.network.nodes, source.id.name = "0_0" ∧
        target.id.name = "1_0" ∧
        (grid.network.linksBetween source.id target.id).map (·.id.name) = ["0_0-1_0"] := by
  obtain ⟨-, -, grid, hgrid, hcomplete⟩ :=
    network_complete .empty ({ gridSize := 3 } : Config.Scenario)
  exact ⟨grid, hgrid, hcomplete, hcomplete.length_nodes,
    hcomplete.length_links, hcomplete.between ⟨0, 0⟩ ⟨1, 0⟩ ⟨by decide, by decide⟩
      ⟨by decide, by decide⟩⟩

end Grid

end NetworkLoading
