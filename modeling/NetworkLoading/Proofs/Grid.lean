import Mathlib.Data.List.Chain
import Mathlib.Data.List.Nodup
import Mathlib.Data.List.Range
import Mathlib.Data.Nat.Dist
import NetworkLoading.Proofs.Stores
import NetworkLoading.Scenario.Grid

/-!
# Grids and the paths on them

The places of a grid have different names, and so have its links, of which there is one in each
direction between any two neighbours. A grid can therefore be built in every store, and whoever goes
from one of its places to another one along a path moves on links of which each starts where the one
before ends.
-/

namespace NetworkLoading.Grid

/-! ## Names -/

theorem not_mem_repr {c : Char} (hc : c.isDigit = false) (n : Nat) : c ∉ (Nat.repr n).toList := by
  intro h
  rw [Nat.toList_repr] at h
  rw [Nat.isDigit_of_mem_toDigits (by decide) (by decide) h] at hc
  cases hc

theorem repr_injective {m n : Nat} (h : (Nat.repr m).toList = (Nat.repr n).toList) : m = n := by
  rw [Nat.toList_repr, Nat.toList_repr] at h
  have hread := congrArg (Nat.ofDigitChars 10 · 0) h
  simpa only [Nat.ofDigitChars_toDigits (b := 10) (by decide) (by decide)] using hread

theorem toList_pointName (p : Point) :
    p.name.toList = (Nat.repr p.x).toList ++ '_' :: (Nat.repr p.y).toList := by
  simp [Point.name]
  rfl

theorem toList_linkName (a b : Point) :
    (linkName a b).toList = a.name.toList ++ '-' :: b.name.toList := by
  simp [linkName]
  rfl

theorem pointName_injective {p q : Point} (h : p.name = q.name) : p = q := by
  have hlist := congrArg String.toList h
  rw [toList_pointName, toList_pointName, List.append_cons_inj_of_notMem (not_mem_repr rfl _)
    (not_mem_repr rfl _)] at hlist
  obtain ⟨hx, -, hy⟩ := hlist
  cases p
  cases q
  simp only [Point.mk.injEq]
  exact ⟨repr_injective hx, repr_injective hy⟩

theorem hyphen_not_mem_pointName (p : Point) : '-' ∉ p.name.toList := by
  rw [toList_pointName]
  simp only [List.mem_append, List.mem_cons, not_or]
  exact ⟨not_mem_repr rfl _, by decide, not_mem_repr rfl _⟩

theorem linkName_injective {a b c d : Point} (h : linkName a b = linkName c d) :
    a = c ∧ b = d := by
  have hlist := congrArg String.toList h
  rw [toList_linkName, toList_linkName, List.append_cons_inj_of_notMem
    (hyphen_not_mem_pointName _) (hyphen_not_mem_pointName _)] at hlist
  obtain ⟨ha, -, hb⟩ := hlist
  exact ⟨pointName_injective (String.toList_injective ha),
    pointName_injective (String.toList_injective hb)⟩

/-! ## Places and links -/

/-- The place belongs to the grid. -/
structure Point.Inside (size : Nat) (p : Point) : Prop where
  x_lt : p.x < size
  y_lt : p.y < size

/-- The places are neighbours in a row or in a column. -/
def Adjacent (p q : Point) : Prop :=
  p.y = q.y ∧ (q.x = p.x + 1 ∨ p.x = q.x + 1) ∨ p.x = q.x ∧ (q.y = p.y + 1 ∨ p.y = q.y + 1)

variable {size : Nat} {p q : Point}

theorem mem_points : p ∈ points size ↔ p.Inside size := by
  obtain ⟨x, y⟩ := p
  simp only [points, List.mem_flatMap, List.mem_map, List.mem_range, Point.mk.injEq]
  constructor
  · rintro ⟨y, hy, x, hx, rfl, rfl⟩
    exact ⟨hx, hy⟩
  · rintro ⟨hx, hy⟩
    exact ⟨y, hy, x, hx, rfl, rfl⟩

theorem nodup_points (size : Nat) : (points size).Nodup := by
  refine List.nodup_flatMap.2 ⟨fun y _ => ?_, List.nodup_range.imp fun hne => ?_⟩
  · exact List.nodup_range.map fun a b h => congrArg Point.x h
  · intro p hp hq
    obtain ⟨_, -, rfl⟩ := List.mem_map.1 hp
    obtain ⟨_, -, hy⟩ := List.mem_map.1 hq
    exact hne (congrArg Point.y hy).symm

theorem mem_linksAt {base : Point} : (p, q) ∈ linksAt size base ↔
    (base.x + 1 < size ∧ (p = base ∧ q = { base with x := base.x + 1 } ∨
      p = { base with x := base.x + 1 } ∧ q = base)) ∨
    (base.y + 1 < size ∧ (p = base ∧ q = { base with y := base.y + 1 } ∨
      p = { base with y := base.y + 1 } ∧ q = base)) := by
  unfold linksAt
  dsimp only
  rw [List.mem_append]
  split <;> split <;> simp [*]

/-- There is a link between two places of the grid if and only if they are neighbours. -/
theorem mem_linkEnds :
    (p, q) ∈ linkEnds size ↔ p.Inside size ∧ q.Inside size ∧ Adjacent p q := by
  simp only [linkEnds, List.mem_flatMap, mem_points, mem_linksAt]
  constructor
  · rintro ⟨base, ⟨hx, hy⟩, ⟨hlt, ⟨rfl, rfl⟩ | ⟨rfl, rfl⟩⟩ | ⟨hlt, ⟨rfl, rfl⟩ | ⟨rfl, rfl⟩⟩⟩
    all_goals exact ⟨⟨by assumption, by assumption⟩, ⟨by assumption, by assumption⟩, by
      simp [Adjacent]⟩
  · obtain ⟨px, py⟩ := p
    obtain ⟨qx, qy⟩ := q
    rintro ⟨⟨hpx, hpy⟩, ⟨hqx, hqy⟩, hadjacent⟩
    dsimp only [Adjacent] at hpx hpy hqx hqy hadjacent
    rcases hadjacent with ⟨rfl, rfl | rfl⟩ | ⟨rfl, rfl | rfl⟩
    · exact ⟨⟨px, py⟩, ⟨hpx, hpy⟩, .inl ⟨hqx, .inl ⟨rfl, rfl⟩⟩⟩
    · exact ⟨⟨qx, py⟩, ⟨hqx, hpy⟩, .inl ⟨hpx, .inr ⟨rfl, rfl⟩⟩⟩
    · exact ⟨⟨px, py⟩, ⟨hpx, hpy⟩, .inr ⟨hqy, .inl ⟨rfl, rfl⟩⟩⟩
    · exact ⟨⟨px, qy⟩, ⟨hpx, hqy⟩, .inr ⟨hpy, .inr ⟨rfl, rfl⟩⟩⟩

theorem nodup_linksAt (size : Nat) (base : Point) : (linksAt size base).Nodup := by
  obtain ⟨x, y⟩ := base
  unfold linksAt
  dsimp only
  split <;> split <;> simp

/-- The place with which a link is added is the lower one of its ends. -/
theorem base_of_mem_linksAt {base : Point} (h : (p, q) ∈ linksAt size base) :
    base = { x := min p.x q.x, y := min p.y q.y } := by
  obtain ⟨x, y⟩ := base
  rcases mem_linksAt.1 h with ⟨-, ⟨rfl, rfl⟩ | ⟨rfl, rfl⟩⟩ | ⟨-, ⟨rfl, rfl⟩ | ⟨rfl, rfl⟩⟩ <;> simp

theorem nodup_linkEnds (size : Nat) : (linkEnds size).Nodup := by
  refine List.nodup_flatMap.2 ⟨fun base _ => nodup_linksAt size base,
    (nodup_points size).imp fun hne => ?_⟩
  rintro ⟨p, q⟩ ha hb
  exact hne ((base_of_mem_linksAt ha).trans (base_of_mem_linksAt hb).symm)

/-- The elements of the network are those of a grid, and called after their places. -/
abbrev Spans (grid : NamedNetwork) (size : Nat) : Prop :=
  grid.Called ((points size).map Point.name)
    ((linkEnds size).map fun ends => (linkName ends.1 ends.2, ends.1.name, ends.2.name))

/-- The grid can be built in every store. -/
theorem exists_network (ids : IdStore) (c : Config.Scenario) :
    ∃ grid, network ids c = .ok grid ∧ Spans grid (side c) := by
  have hpoints : ((points (side c)).map Point.name).Nodup :=
    (nodup_points _).map fun _ _ => pointName_injective
  have hlinks : ((linkEnds (side c)).map fun ends => linkName ends.1 ends.2).Nodup := by
    refine (nodup_linkEnds _).map fun a b h => ?_
    obtain ⟨hfrom, hto⟩ := linkName_injective h
    exact Prod.ext hfrom hto
  obtain ⟨places, hplaces, hcalled⟩ := (NamedNetwork.called_empty ids).addNodes hpoints
    (fun p => Float.ofNat p.x * c.linkLength) (fun p => Float.ofNat p.y * c.linkLength)
  -- Every link finds both of its nodes, which were all added before.
  have hends : ∀ ends ∈ linkEnds (side c), ends.1.name ∈ (points (side c)).map Point.name ∧
      ends.2.name ∈ (points (side c)).map Point.name := by
    rintro ⟨p, q⟩ hmem
    obtain ⟨hp, hq, -⟩ := mem_linkEnds.1 hmem
    exact ⟨List.mem_map_of_mem (mem_points.2 hp), List.mem_map_of_mem (mem_points.2 hq)⟩
  obtain ⟨grid, hgrid, hcalled'⟩ := hcalled.addLinks hlinks hends c.linkLength c.linkFreespeed
  refine ⟨grid, ?_, hcalled'⟩
  rw [network, hplaces]
  exact hgrid

section Spans

variable {grid : NamedNetwork} (h : Spans grid size)
include h

/-- Every link is that between two neighbours. -/
theorem exists_ends {link : Link} (hlink : link ∈ grid.network.links) :
    ∃ p q, (p, q) ∈ linkEnds size ∧ link.names = (linkName p q, p.name, q.name) := by
  have hmem : link.names ∈ grid.network.links.map Link.names := List.mem_map_of_mem hlink
  rw [h.links_eq] at hmem
  obtain ⟨⟨p, q⟩, hends, hnames⟩ := List.mem_map.1 hmem
  exact ⟨p, q, hends, hnames.symm⟩

/-- Between two neighbours there is a link. -/
theorem exists_link (hends : (p, q) ∈ linkEnds size) :
    ∃ link ∈ grid.network.links, link.names = (linkName p q, p.name, q.name) := by
  have hmem := List.mem_map_of_mem
    (f := fun ends : Point × Point => (linkName ends.1 ends.2, ends.1.name, ends.2.name)) hends
  rw [← h.links_eq] at hmem
  exact List.mem_map.1 hmem

theorem issued_toNode {link : Link} (hlink : link ∈ grid.network.links) :
    grid.ids.Issued link.toNode :=
  h.built.issued.1 _ (h.built.wired.toNode_mem link hlink)

end Spans

/-! ## Paths -/

/-- From one number to another one it takes steps of one. -/
theorem isChain_steps (a b : Nat) :
    (a :: steps a b).IsChain fun m n => n = m + 1 ∨ m = n + 1 := by
  unfold steps
  split
  · have hup := (List.isChain_range' a (b - a + 1) 1).imp
      fun m n (h : n = m + 1) => Or.inl (b := m = n + 1) h
    rwa [List.range'_succ] at hup
  · have hdown := (List.isChain_range' b (a - b + 1) 1).imp
      fun m n (h : n = m + 1) => Or.inr (a := m = n + 1) h
    rw [← List.isChain_reverse, List.range'_1_concat, List.reverse_append] at hdown
    have hlast : b + (a - b) = a := by omega
    rw [hlast] at hdown
    exact hdown

theorem getLast?_steps (a b : Nat) : (a :: steps a b).getLast? = some b := by
  unfold steps
  split
  · rename_i hle
    rw [← List.range'_succ, List.getLast?_range']
    simp
    omega
  · rename_i hlt
    obtain ⟨n, hn⟩ : ∃ n, a - b = n + 1 := ⟨a - b - 1, by omega⟩
    rw [hn, List.range'_succ, List.reverse_cons, ← List.cons_append, List.getLast?_append]
    rfl

theorem nodup_steps (a b : Nat) : (a :: steps a b).Nodup := by
  unfold steps
  split
  · rw [← List.range'_succ]
    exact List.nodup_range'
  · rename_i hlt
    have hlast : a ∉ List.range' b (a - b) := by
      rw [List.mem_range'_1]
      omega
    exact List.nodup_cons.2
      ⟨fun hmem => hlast (List.mem_reverse.1 hmem), List.nodup_reverse.2 List.nodup_range'⟩

theorem length_steps (a b : Nat) : (steps a b).length = Nat.dist a b := by
  unfold steps Nat.dist
  split
  · rw [List.length_range']
    omega
  · rw [List.length_reverse, List.length_range']
    omega

theorem mem_steps {a b n : Nat} (h : n ∈ steps a b) : n ≤ max a b := by
  unfold steps at h
  split at h
  · rw [List.mem_range'_1] at h
    omega
  · rw [List.mem_reverse, List.mem_range'_1] at h
    omega

/-- The first place is part of the row. -/
theorem path_eq (a b : Point) : path a b =
    (a.x :: steps a.x b.x).map (fun x => { a with x }) ++
      (steps a.y b.y).map fun y => { b with y } :=
  rfl

/-- Places which follow each other on a path are neighbours. -/
theorem isChain_path (a b : Point) : (path a b).IsChain Adjacent := by
  have hrow : ((a.x :: steps a.x b.x).map fun x => { a with x }).IsChain Adjacent := by
    rw [List.isChain_map]
    exact (isChain_steps a.x b.x).imp fun m n h => .inl ⟨rfl, h⟩
  have hcolumn : ((a.y :: steps a.y b.y).map fun y => { b with y }).IsChain Adjacent := by
    rw [List.isChain_map]
    exact (isChain_steps a.y b.y).imp fun m n h => .inr ⟨rfl, h⟩
  rw [List.map_cons, List.isChain_cons] at hcolumn
  rw [path_eq]
  refine List.IsChain.append hrow hcolumn.2 fun corner hcorner => ?_
  -- The row ends where the column begins.
  rw [List.getLast?_map, getLast?_steps] at hcorner
  obtain rfl := Option.some.inj hcorner
  exact hcolumn.1

theorem inside_of_mem_path {a b : Point} (ha : a.Inside size) (hb : b.Inside size)
    (hp : p ∈ path a b) : p.Inside size := by
  obtain ⟨hax, hay⟩ := ha
  obtain ⟨hbx, hby⟩ := hb
  simp only [path, List.cons_append, List.mem_cons, List.mem_append, List.mem_map] at hp
  rcases hp with rfl | ⟨x, hx, rfl⟩ | ⟨y, hy, rfl⟩
  · exact ⟨hax, hay⟩
  · have hle := mem_steps hx
    exact ⟨by dsimp only; omega, hay⟩
  · have hle := mem_steps hy
    exact ⟨hbx, by dsimp only; omega⟩

/-- The number of links from one place to another one, along the row and along the column. -/
def Point.distance (a b : Point) : Nat :=
  Nat.dist a.x b.x + Nat.dist a.y b.y

theorem distance_pos {a b : Point} (h : a ≠ b) : 0 < a.distance b := by
  refine Nat.pos_of_ne_zero fun hzero => h ?_
  obtain ⟨hx, hy⟩ := Nat.add_eq_zero_iff.1 hzero
  obtain ⟨x, y⟩ := a
  obtain ⟨x', y'⟩ := b
  exact Point.mk.injEq .. ▸ ⟨Nat.eq_of_dist_eq_zero hx, Nat.eq_of_dist_eq_zero hy⟩

/-- The places lead from one to another one over neighbours, first along the row and then along the
column, without a detour. -/
structure Way (a b : Point) (places : List Point) : Prop where
  start : places.head? = some a
  goal : places.getLast? = some b
  neighbours : places.IsChain Adjacent
  turn : ∃ row column, places = row ++ column ∧ (∀ p ∈ row, p.y = a.y) ∧ ∀ p ∈ column, p.x = b.x
  nodup : places.Nodup
  length : places.length = a.distance b + 1

theorem getLast?_path (a b : Point) : (path a b).getLast? = some b := by
  have hrow := getLast?_steps a.x b.x
  have hcolumn := getLast?_steps a.y b.y
  rw [path_eq, List.getLast?_append, List.getLast?_map, List.getLast?_map, hrow]
  rw [List.getLast?_cons] at hcolumn
  cases hlast : (steps a.y b.y).getLast? <;> simp_all

theorem nodup_path (a b : Point) : (path a b).Nodup := by
  have hrow : ((a.x :: steps a.x b.x).map fun x => { a with x }).Nodup :=
    (nodup_steps a.x b.x).map fun m n h => congrArg Point.x h
  obtain ⟨hleft, hcolumn⟩ := List.nodup_cons.1 (nodup_steps a.y b.y)
  rw [path_eq]
  refine List.nodup_append.2 ⟨hrow, hcolumn.map fun m n h => congrArg Point.y h, ?_⟩
  -- The column has left the row.
  rintro p hp _ hq rfl
  obtain ⟨x, -, rfl⟩ := List.mem_map.1 hp
  obtain ⟨y, hy, he⟩ := List.mem_map.1 hq
  exact hleft (congrArg Point.y he ▸ hy)

theorem way_path (a b : Point) : Way a b (path a b) where
  start := rfl
  goal := getLast?_path a b
  neighbours := isChain_path a b
  turn := by
    exact ⟨_, _, path_eq a b, List.forall_mem_map.2 fun x _ => rfl,
      List.forall_mem_map.2 fun y _ => rfl⟩
  nodup := nodup_path a b
  length := by
    rw [path_eq, List.length_append, List.length_map, List.length_map, List.length_cons,
      length_steps, length_steps, Point.distance]
    omega

theorem length_linksAlong_path (a b : Point) : (linksAlong (path a b)).length = a.distance b := by
  have hlength := (way_path a b).length
  rw [linksAlong, List.length_map, List.length_zip, List.length_tail]
  omega

end NetworkLoading.Grid
