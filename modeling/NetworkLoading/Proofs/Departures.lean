import NetworkLoading.Proofs.Grid
import NetworkLoading.Proofs.Results
import NetworkLoading.Scenario.Departures

/-!
# Departures

Whatever the dice show, every agent departs, from one place of the grid to another one and without a
detour. The departures are sorted by time, and those at the same time by the numbers of the agents.
The routes are walks on every grid which is made for the same settings.
-/

namespace NetworkLoading

open NetworkLoading.Random

/-! ## Walks -/

/-- The links lead from each of the nodes to the next one. -/
inductive Walk (links : List Link) : List LinkId → List NodeId → Prop where
  | stay (node : NodeId) : Walk links [] [node]
  | go {link : Link} {node next : NodeId} {route : List LinkId} {nodes : List NodeId}
      (hlink : link ∈ links) (hfrom : link.fromNode = node) (hto : link.toNode = next)
      (rest : Walk links route (next :: nodes)) :
      Walk links (link.id :: route) (node :: next :: nodes)

namespace Grid

variable {grid : NamedNetwork} {size : Nat} (h : Spans grid size) {whole : IdStore}
  (hgrown : whole.Extends grid.ids)
include h hgrown

/-- The link from a place to a neighbour is the one with the right name, and it leads to the node
with the right name: all ids come from one store. -/
theorem exists_link_of_names {p q : Point} (hends : (p, q) ∈ linkEnds size) {id : LinkId}
    (hid : whole.Issued id) (hname : id.name = linkName p q) {next : NodeId}
    (hnext : grid.ids.Issued next) (hnext_name : next.name = q.name) :
    ∃ link ∈ grid.network.links, link.id = id ∧ link.fromNode.name = p.name ∧
      link.toNode = next := by
  obtain ⟨link, hlink, hnames⟩ := exists_link h hends
  simp only [Link.names, Prod.mk.injEq] at hnames
  obtain ⟨hlink_name, hfrom, hto⟩ := hnames
  have hlink_id := (h.built.issued.2 _ (List.mem_map_of_mem hlink)).mono hgrown
  exact ⟨link, hlink, hlink_id.eq_of_name hid (hlink_name.trans hname.symm), hfrom,
    (issued_toNode h hlink).eq_of_name hnext (hto.trans hnext_name.symm)⟩

/-- Whoever moves from neighbour to neighbour walks on the grid. -/
theorem exists_walk {place : Point} {places : List Point}
    (hchain : (place :: places).IsChain Adjacent) (hinside : ∀ p ∈ place :: places, p.Inside size)
    {route : List LinkId} (hnames : route.map (·.name) = linksAlong (place :: places))
    (hissued : ∀ id ∈ route, whole.Issued id) :
    ∃ node nodes, Walk grid.network.links route (node :: nodes) ∧ grid.ids.Issued node ∧
      node.name = place.name ∧ nodes.map (·.name) = places.map Point.name := by
  induction places generalizing place route with
  | nil =>
    obtain rfl := List.map_eq_nil_iff.1 hnames
    obtain ⟨node, hname, hnode, -⟩ :=
      h.node (List.mem_map_of_mem (mem_points.2 (hinside place List.mem_cons_self)))
    exact ⟨node, [], .stay node, hnode, hname, rfl⟩
  | cons next places ih =>
    obtain ⟨hplace, hinside⟩ := List.forall_mem_cons.1 hinside
    obtain ⟨hadjacent, hchain⟩ := List.isChain_cons_cons.1 hchain
    cases route with
    | nil => cases hnames
    | cons id route =>
      obtain ⟨hname, hnames⟩ := List.cons.inj hnames
      obtain ⟨hid, hissued⟩ := List.forall_mem_cons.1 hissued
      -- The first link is put in front of a walk which starts where it ends.
      obtain ⟨node, nodes, hwalk, hnode, hnode_name, hnodes⟩ := ih hchain hinside hnames hissued
      have hends := mem_linkEnds.2 ⟨hplace, hinside next List.mem_cons_self, hadjacent⟩
      obtain ⟨link, hlink, rfl, hfrom, hto⟩ :=
        exists_link_of_names h hgrown hends hid hname hnode hnode_name
      exact ⟨link.fromNode, node :: nodes, .go hlink rfl hto hwalk, h.fromNode link hlink, hfrom,
        congrArg₂ List.cons hnode_name hnodes⟩

end Grid

/-! ## Trips -/

namespace Trip

variable {σ : Type} {size window : Nat} {modes : List String}

/-- The trip leads from one place of the grid to another one, with one of the modes. -/
structure Possible (size window : Nat) (modes : List String) (t : Trip) : Prop where
  origin : t.origin.Inside size
  destination : t.destination.Inside size
  apart : t.origin ≠ t.destination
  mode : t.mode ∈ modes
  delay : t.delay < window

theorem inside_rollPoint (dice : Dice σ) (s : σ) (h : 0 < size) :
    (rollPoint dice s size).1.Inside size :=
  ⟨dice.roll_lt _ _ h, dice.roll_lt _ _ h⟩

theorem inside_otherThan {origin drawn : Grid.Point} (ho : origin.Inside size)
    (hd : drawn.Inside size) : (otherThan size origin drawn).Inside size := by
  unfold otherThan
  split
  · exact ⟨Nat.mod_lt _ (Nat.zero_lt_of_lt ho.x_lt), ho.y_lt⟩
  · exact hd

theorem ne_otherThan {origin drawn : Grid.Point} (hsize : 2 ≤ size) (ho : origin.Inside size) :
    origin ≠ otherThan size origin drawn := by
  unfold otherThan
  split
  · intro he
    have hx : origin.x = (origin.x + 1) % size := congrArg Grid.Point.x he
    have hlt := ho.x_lt
    rcases Nat.lt_or_ge (origin.x + 1) size with hin | hout
    · rw [Nat.mod_eq_of_lt hin] at hx
      omega
    · have hlast : origin.x + 1 = size := by omega
      rw [hlast, Nat.mod_self] at hx
      omega
  · rename_i hne
    exact fun he => hne he.symm

theorem possible_roll (dice : Dice σ) (s : σ) (hsize : 2 ≤ size) (hwindow : 0 < window)
    (hmodes : modes ≠ []) :
    (roll dice s size window modes hmodes).1.Possible size window modes := by
  have hpos : 0 < size := by omega
  have horigin := inside_rollPoint dice s hpos
  exact ⟨horigin, inside_otherThan horigin (inside_rollPoint dice _ hpos),
    ne_otherThan hsize horigin, List.getElem_mem _, dice.roll_lt _ _ hwindow⟩

end Trip

/-! ## Departures -/

/-- The agent departs for a trip at the right time, and all that it needs has ids of the store. -/
structure Departure.Takes (t : Trip) (start : UInt32) (ids : IdStore) (d : Departure) : Prop where
  time : d.time.toNat = start.toNat + t.delay
  position : d.agent.position = 0
  person : ids.Issued d.agent.id
  mode : d.agent.mode.name = t.mode
  mode_issued : ids.Issued d.agent.mode
  route : d.agent.route.map (·.name) = Grid.linksAlong (Grid.path t.origin t.destination)
  route_issued : ∀ id ∈ d.agent.route, ids.Issued id

theorem Departure.Takes.mono {t : Trip} {start : UInt32} {ids later : IdStore} {d : Departure}
    (h : d.Takes t start ids) (hgrown : later.Extends ids) : d.Takes t start later :=
  { h with
    person := h.person.mono hgrown
    mode_issued := h.mode_issued.mono hgrown
    route_issued := fun id hid => (h.route_issued id hid).mono hgrown }

theorem Departure.Takes.length {t : Trip} {start : UInt32} {ids : IdStore} {d : Departure}
    (h : d.Takes t start ids) : d.agent.route.length = t.origin.distance t.destination := by
  rw [← Grid.length_linksAlong_path, ← h.route, List.length_map]

/-- Whoever departs for a trip walks on the grid. -/
theorem Departure.Takes.exists_walk {t : Trip} {start : UInt32} {ids whole : IdStore}
    {d : Departure} (h : d.Takes t start ids) {size window : Nat} {modes : List String}
    (ht : t.Possible size window modes) {grid : NamedNetwork} (hgrid : Grid.Spans grid size)
    (hgrown : whole.Extends grid.ids) (hgrown' : whole.Extends ids) :
    ∃ nodes, Walk grid.network.links d.agent.route nodes ∧
      nodes.map (·.name) = (Grid.path t.origin t.destination).map Grid.Point.name := by
  obtain ⟨node, nodes, hwalk, -, hname, hnames⟩ := Grid.exists_walk hgrid hgrown
    (Grid.isChain_path t.origin t.destination)
    (fun _ hplace => Grid.inside_of_mem_path ht.origin ht.destination hplace) h.route
    fun id hid => (h.route_issued id hid).mono hgrown'
  exact ⟨node :: nodes, hwalk, congrArg₂ List.cons hname hnames⟩

/-- The time of departure is one of 32 bits. -/
def Trip.InTime (start : UInt32) (t : Trip) : Prop :=
  start.toNat + t.delay < UInt32.size

instance (start : UInt32) (t : Trip) : Decidable (t.InTime start) :=
  inferInstanceAs (Decidable (_ < _))

theorem Trip.Possible.inTime {size window : Nat} {modes : List String} {t : Trip}
    (ht : t.Possible size window modes) {start : UInt32}
    (hstart : start.toNat + window ≤ UInt32.size) : t.InTime start :=
  Nat.lt_of_lt_of_le (Nat.add_lt_add_left ht.delay _) hstart

/-- Whoever can make a trip departs for it, if this is in time. -/
theorem Trip.Possible.departure {size window : Nat} {modes : List String} {t : Trip}
    (ht : t.Possible size window modes) {start : UInt32} (htime : t.InTime start)
    (ids : IdStore) (number : Nat) :
    ∃ d later, t.departure ids start number = .ok (d, later) ∧ later.Extends ids ∧
      d.agent.id.name = Nat.repr number ∧ d.Takes t start later := by
  rw [Trip.departure]
  have hroute := ids.createsAll .link (Grid.linksAlong (Grid.path t.origin t.destination))
  generalize ids.createAll .link (Grid.linksAlong (Grid.path t.origin t.destination)) = created
    at hroute ⊢
  obtain ⟨route, ids'⟩ := created
  have hperson := ids'.creates .person (Nat.repr number)
  have hmode := (ids'.create .person (Nat.repr number)).2.creates .mode t.mode
  have hgrown := hperson.grown.trans hmode.grown
  -- Another place is at least one link away.
  have hne : route ≠ [] := by
    rintro rfl
    have hpos := Grid.distance_pos ht.apart
    rw [← Grid.length_linksAlong_path, ← hroute.names_eq] at hpos
    exact Nat.lt_irrefl 0 hpos
  have hsum : (start + UInt32.ofNat t.delay).toNat = start.toNat + t.delay := by
    rw [UInt32.toNat_add, UInt32.toNat_ofNat', Nat.add_mod_mod, Nat.mod_eq_of_lt htime]
  let agent : Agent :=
    { id := (ids'.create .person (Nat.repr number)).1
      mode := ((ids'.create .person (Nat.repr number)).2.create .mode t.mode).1
      route, route_ne_nil := hne }
  have htakes : Departure.Takes t start _ ⟨start + UInt32.ofNat t.delay, agent⟩ :=
    { time := hsum
      position := rfl
      person := hperson.issued.mono hmode.grown
      mode := hmode.name_eq
      mode_issued := hmode.issued
      route := hroute.names_eq
      route_issued := fun id hid => (hroute.issued id hid).mono hgrown }
  refine ⟨_, _, ?_, hroute.grown.trans hgrown, hperson.name_eq, htakes⟩
  simp only [if_neg (Nat.not_le.2 htime), Agent.start, hne, ↓reduceDIte, Except.map]
  rfl

namespace Departure

variable {σ : Type} {ids : IdStore} {c : Config}

/-- The number of places from which a departure time is drawn. -/
def window (c : Config) : Nat :=
  max c.scenario.departureWindow.toNat 1

/-- The trips of `count` agents, which are drawn one after the other. -/
def rollTrips (dice : Dice σ) (c : Config) (hmodes : c.multimodal.speeds.modes ≠ []) (s : σ) :
    Nat → List Trip
  | 0 => []
  | count + 1 =>
    let drawn := Trip.roll dice s (Grid.side c.scenario) (window c) _ hmodes
    drawn.1 :: rollTrips dice c hmodes drawn.2 count

/-- The trips of all agents. Without a mode there are none. -/
def trips (dice : Dice σ) (s : σ) (c : Config) : List Trip :=
  if hmodes : c.multimodal.speeds.modes = [] then []
  else rollTrips dice c hmodes s c.scenario.numAgents.toNat

theorem possible_roll (dice : Dice σ) (hmodes : c.multimodal.speeds.modes ≠ []) (s : σ) :
    (Trip.roll dice s (Grid.side c.scenario) (window c) _ hmodes).1.Possible
      (Grid.side c.scenario) (window c) c.multimodal.speeds.modes :=
  Trip.possible_roll dice s (Nat.le_max_right _ _) (Nat.le_max_right _ _) hmodes

theorem possible_of_mem_rollTrips {dice : Dice σ} {hmodes : c.multimodal.speeds.modes ≠ []} {s : σ}
    {count : Nat} {t : Trip} (ht : t ∈ rollTrips dice c hmodes s count) :
    t.Possible (Grid.side c.scenario) (window c) c.multimodal.speeds.modes := by
  induction count generalizing s with
  | zero => cases ht
  | succ count ih =>
    rcases List.mem_cons.1 ht with rfl | ht
    · exact possible_roll dice hmodes s
    · exact ih ht

theorem length_rollTrips (dice : Dice σ) (hmodes : c.multimodal.speeds.modes ≠ []) (s : σ)
    (count : Nat) : (rollTrips dice c hmodes s count).length = count := by
  induction count generalizing s with
  | zero => rfl
  | succ count ih => rw [rollTrips, List.length_cons, ih]

/-- If all trips are in time, every agent departs for its own one, under its own number. -/
theorem exists_rollAll_of_inTime (dice : Dice σ) (hmodes : c.multimodal.speeds.modes ≠ []) (s : σ)
    (ids : IdStore) (number count : Nat)
    (htime : ∀ t ∈ rollTrips dice c hmodes s count, t.InTime c.simulation.startTime) :
    ∃ departures later, rollAll dice c c.multimodal.speeds.modes hmodes s ids number count =
        .ok (departures, later) ∧
      later.Extends ids ∧
      departures.map (·.agent.id.name) = (List.range' number count).map Nat.repr ∧
      ∀ d ∈ departures, ∃ t ∈ rollTrips dice c hmodes s count,
        d.Takes t c.simulation.startTime later := by
  induction count generalizing s ids number with
  | zero => exact ⟨[], ids, rfl, .refl ids, rfl, nofun⟩
  | succ count ih =>
    obtain ⟨hfirst_time, hrest_time⟩ := List.forall_mem_cons.1 htime
    obtain ⟨first, middle, hfirst, hgrown, hname, htakes⟩ :=
      (possible_roll dice hmodes s).departure hfirst_time ids number
    obtain ⟨rest, later, hrest, hgrown', hnames, htaken⟩ :=
      ih _ middle (number + 1) hrest_time
    -- The ids of the first agent are kept while the rest is drawn.
    refine ⟨first :: rest, later, ?_, hgrown.trans hgrown', congrArg₂ List.cons hname hnames,
      List.forall_mem_cons.2 ⟨⟨_, List.mem_cons_self, htakes.mono hgrown'⟩, fun d hd => ?_⟩⟩
    · unfold window at hfirst hrest
      simp only [rollAll, hfirst, Except.bind, hrest, Except.map]
    · obtain ⟨t, ht, htakes'⟩ := htaken d hd
      exact ⟨t, List.mem_cons_of_mem _ ht, htakes'⟩

/-- Every agent departs, each under its own number. -/
theorem exists_rollAll (dice : Dice σ) (hmodes : c.multimodal.speeds.modes ≠ [])
    (hstart : c.simulation.startTime.toNat + window c ≤ UInt32.size) (s : σ) (ids : IdStore)
    (number count : Nat) :
    ∃ departures later, rollAll dice c c.multimodal.speeds.modes hmodes s ids number count =
        .ok (departures, later) ∧
      later.Extends ids ∧
      departures.map (·.agent.id.name) = (List.range' number count).map Nat.repr ∧
      ∀ d ∈ departures, ∃ t : Trip,
        t.Possible (Grid.side c.scenario) (window c) c.multimodal.speeds.modes ∧
        d.Takes t c.simulation.startTime later := by
  obtain ⟨departures, later, hdrawn, hgrown, hnames, htaken⟩ :=
    exists_rollAll_of_inTime dice hmodes s ids number count fun _ ht =>
      (possible_of_mem_rollTrips ht).inTime hstart
  refine ⟨departures, later, hdrawn, hgrown, hnames, fun d hd => ?_⟩
  obtain ⟨t, ht, htakes⟩ := htaken d hd
  exact ⟨t, possible_of_mem_rollTrips ht, htakes⟩

theorem generate_of_rollAll {dice : Dice σ} {s : σ} (hmodes : c.multimodal.speeds.modes ≠ [])
    {departures : List Departure} {later : IdStore}
    (h : rollAll dice c c.multimodal.speeds.modes hmodes s ids 0 c.scenario.numAgents.toNat =
      .ok (departures, later)) :
    generate dice s c ids =
      .ok (sortBy (fun a b => a.time < b.time) departures, later) := by
  rw [generate, dif_neg hmodes, h]
  rfl

theorem generate_of_modes_eq_nil {dice : Dice σ} {s : σ} (hmodes : c.multimodal.speeds.modes = []) :
    generate dice s c ids = .ok ([], ids) := by
  rw [generate, dif_pos hmodes]

theorem possible_of_mem_trips {dice : Dice σ} {s : σ} {t : Trip} (ht : t ∈ trips dice s c) :
    t.Possible (Grid.side c.scenario) (window c) c.multimodal.speeds.modes := by
  unfold trips at ht
  split at ht
  · cases ht
  · exact possible_of_mem_rollTrips ht

/-- If all trips are in time, every agent departs. -/
theorem exists_generate_of_inTime (dice : Dice σ) (s : σ) (ids : IdStore)
    (htime : ∀ t ∈ trips dice s c, t.InTime c.simulation.startTime) :
    ∃ departures later, generate dice s c ids = .ok (departures, later) ∧
      later.Extends ids ∧ departures.length = (trips dice s c).length ∧
      ∀ d ∈ departures, ∃ t ∈ trips dice s c, d.Takes t c.simulation.startTime later := by
  unfold trips at htime ⊢
  split at htime
  · rename_i hmodes
    rw [dif_pos hmodes]
    exact ⟨[], ids, generate_of_modes_eq_nil hmodes, .refl ids, rfl, nofun⟩
  · rename_i hmodes
    rw [dif_neg hmodes]
    obtain ⟨drawn, later, hdrawn, hgrown, hnames, htaken⟩ :=
      exists_rollAll_of_inTime dice hmodes s ids 0 c.scenario.numAgents.toNat htime
    have hlength := congrArg List.length hnames
    rw [List.length_map, List.length_map, List.length_range'] at hlength
    exact ⟨_, later, generate_of_rollAll hmodes hdrawn, hgrown,
      by rw [length_sortBy, hlength, length_rollTrips],
      fun d hd => htaken d (mem_sortBy.1 hd)⟩

theorem length_rollAll (dice : Dice σ) (hmodes : c.multimodal.speeds.modes ≠ []) {s : σ}
    {number count : Nat} {departures : List Departure} {later : IdStore}
    (h : rollAll dice c c.multimodal.speeds.modes hmodes s ids number count =
      .ok (departures, later)) : departures.length = count := by
  induction count generalizing s ids number departures later with
  | zero =>
    cases h
    rfl
  | succ count ih =>
    obtain ⟨first, -, h⟩ := exists_of_bind_eq_ok h
    obtain ⟨rest, hrest, he⟩ := exists_of_map_eq_ok h
    cases he
    rw [List.length_cons, ih hrest]

/-- There are no more departures than agents. -/
theorem length_generate_le (dice : Dice σ) {s : σ} {departures : List Departure} {later : IdStore}
    (h : generate dice s c ids = .ok (departures, later)) :
    departures.length ≤ c.scenario.numAgents.toNat := by
  unfold generate at h
  dsimp only at h
  split at h
  · cases h
    exact Nat.zero_le _
  · rename_i hmodes
    obtain ⟨drawn, hdrawn, he⟩ := exists_of_map_eq_ok h
    cases he
    rw [length_sortBy, length_rollAll dice hmodes hdrawn]

/-! ## Order -/

/-- One agent departs before the other one, or at the same time if it has the smaller number. -/
def Precedes (a b : Departure) : Prop :=
  a.time < b.time ∨ a.time = b.time ∧
    ∃ m n : Nat, a.agent.id.name = m.repr ∧ b.agent.id.name = n.repr ∧ m < n

theorem Precedes.trans {a b d : Departure} (hab : a.Precedes b) (hbd : b.Precedes d) :
    a.Precedes d := by
  rcases hab with hab | ⟨hab, m, n, ha, hb, hmn⟩
  · rcases hbd with hbd | ⟨hbd, -⟩
    · exact .inl (UInt32.lt_trans hab hbd)
    · exact .inl (hbd ▸ hab)
  · rcases hbd with hbd | ⟨hbd, n', k, hb', hd, hnk⟩
    · exact .inl (hab ▸ hbd)
    · obtain rfl : n = n' := Grid.repr_injective (congrArg String.toList (hb.symm.trans hb'))
      exact .inr ⟨hab.trans hbd, m, k, ha, hd, hmn.trans hnk⟩

/-- Who departs at the same time is sorted by number, because the sort is stable. -/
theorem precedes_sortBy {departures : List Departure} {number count : Nat}
    (h : departures.map (·.agent.id.name) = (List.range' number count).map Nat.repr) :
    (sortBy (fun a b => a.time < b.time) departures).Pairwise Precedes := by
  -- Before they are sorted, the agents are listed by number.
  have hnumbers : (departures.map (·.agent.id.name)).Pairwise fun x y =>
      ∃ m n : Nat, x = m.repr ∧ y = n.repr ∧ m < n := by
    rw [h, List.pairwise_map]
    exact (List.pairwise_lt_range' 1 Nat.one_pos).imp fun {m n} hlt => ⟨m, n, rfl, rfl, hlt⟩
  rw [List.pairwise_map] at hnumbers
  refine pairwise_sortBy (R := Precedes) (fun _ _ _ => Precedes.trans)
    (hnumbers.imp fun {a b} hab => ?_)
  split
  · rename_i hlt
    exact .inl (of_decide_eq_true hlt)
  · rename_i hle
    have hle : a.time ≤ b.time := UInt32.not_lt.1 fun hlt => hle (decide_eq_true hlt)
    rcases UInt32.lt_or_eq_of_le hle with hlt | heq
    · exact .inl hlt
    · exact .inr ⟨heq, hab⟩

/-! ## Departures on a grid -/

/-- The agent departs within the window, with a mode which has a speed, and travels to another place
of the grid. Its route is a walk on every grid of the settings, be it made before or after the
departures, and comes through no node twice. -/
structure Travels (c : Config) (ids : IdStore) (t : Trip) (d : Departure) : Prop where
  possible : t.Possible (Grid.side c.scenario) (window c) c.multimodal.speeds.modes
  takes : d.Takes t c.simulation.startTime ids
  start_le_time : c.simulation.startTime ≤ d.time
  time_lt : d.time.toNat < c.simulation.startTime.toNat + window c
  mode : d.agent.mode.name ∈ c.multimodal.speeds.modes
  way : Grid.Way t.origin t.destination (Grid.path t.origin t.destination)
  length : d.agent.route.length = t.origin.distance t.destination
  length_pos : 1 ≤ d.agent.route.length
  walk : ∀ {first whole : IdStore} {grid : NamedNetwork},
    Grid.network first c.scenario = .ok grid → whole.Extends grid.ids → whole.Extends ids →
    ∃ nodes, Walk grid.network.links d.agent.route nodes ∧ nodes.Nodup ∧
      nodes.map (·.name) = (Grid.path t.origin t.destination).map Grid.Point.name

theorem Takes.travels {t : Trip} {d : Departure}
    (ht : t.Possible (Grid.side c.scenario) (window c) c.multimodal.speeds.modes)
    (hd : d.Takes t c.simulation.startTime ids) : d.Travels c ids t where
  possible := ht
  takes := hd
  start_le_time := by
    rw [UInt32.le_iff_toNat_le, hd.time]
    exact Nat.le_add_right _ _
  time_lt := by
    rw [hd.time]
    exact Nat.add_lt_add_left ht.delay _
  mode := hd.mode ▸ ht.mode
  way := Grid.way_path _ _
  length := hd.length
  length_pos := hd.length ▸ Grid.distance_pos ht.apart
  walk := by
    intro first whole grid hgrid hgrown hgrown'
    -- A grid can always be made, so what was made is this grid.
    obtain ⟨_, hgrid', hspans⟩ := Grid.exists_network first c.scenario
    obtain rfl := Except.ok.inj (hgrid.symm.trans hgrid')
    obtain ⟨nodes, hwalk, hnames⟩ := hd.exists_walk ht hspans hgrown hgrown'
    refine ⟨nodes, hwalk, .of_map (·.name) ?_, hnames⟩
    rw [hnames]
    exact (Grid.nodup_path _ _).map fun _ _ => Grid.pointName_injective

/-- If there is a mode and the departure times fit into 32 bits, all agents depart, sorted by time
and then by number, each of them for a trip across the grid. -/
theorem generate_travels (dice : Dice σ) (s : σ) (ids : IdStore)
    (hmodes : c.multimodal.speeds.modes ≠ [])
    (hstart : c.simulation.startTime.toNat + window c - 1 ≤ 4294967295) :
    ∃ departures later, generate dice s c ids = .ok (departures, later) ∧
      later.Extends ids ∧
      departures.length = c.scenario.numAgents.toNat ∧
      (departures.map (·.agent.id.name)).Perm
        ((List.range c.scenario.numAgents.toNat).map Nat.repr) ∧
      departures.Pairwise Precedes ∧
      ∀ d ∈ departures, ∃ t, d.Travels c later t := by
  have hwindow : c.simulation.startTime.toNat + window c ≤ UInt32.size := by
    simp only [window, UInt32.size] at hstart ⊢
    omega
  obtain ⟨drawn, later, hdrawn, hgrown, hnames, htaken⟩ :=
    exists_rollAll dice hmodes hwindow s ids 0 c.scenario.numAgents.toNat
  have hlength := congrArg List.length hnames
  rw [List.length_map, List.length_map, List.length_range'] at hlength
  refine ⟨_, later, generate_of_rollAll hmodes hdrawn, hgrown, ?_, ?_,
    precedes_sortBy hnames, fun d hd => ?_⟩
  · rw [length_sortBy, hlength]
  · rw [List.range_eq_range', ← hnames]
    exact (sortBy_perm _ _).map _
  · obtain ⟨t, ht, htakes⟩ := htaken d (mem_sortBy.1 hd)
    exact ⟨t, htakes.travels ht⟩

end Departure

namespace Sample

/-- Dice which show one number after the other, as far as they have sides for them. -/
def counting : Dice Nat where
  roll s n := (s % n, s + 1)
  roll_lt s _ h := Nat.mod_lt s h

/-- Two agents, of whom the second departs first. -/
def village : Config where
  multimodal := { speeds := Speeds.empty.insert "bike" 5 }
  scenario := { gridSize := 3, numAgents := 2, departureWindow := 7 }

/-- The numbers of the agents in the order in which they depart. -/
def villageOrder : List String :=
  match Grid.network .empty village.scenario with
  | .error _ => []
  | .ok grid =>
    match Departure.generate counting 0 village grid.ids with
    | .error _ => []
    | .ok (departures, _) => departures.map (·.agent.id.name)

theorem villageOrder_eq : villageOrder = ["1", "0"] := by
  decide +kernel

end Sample

namespace Departure

theorem generate_travels_village : Sample.village.multimodal.speeds.modes ≠ [] ∧
    ∃ grid departures later, Grid.network .empty Sample.village.scenario = .ok grid ∧
      generate Sample.counting 0 Sample.village grid.ids = .ok (departures, later) ∧
      departures.map (·.agent.id.name) = ["1", "0"] ∧ departures.Pairwise Precedes ∧
      ∀ d ∈ departures, d.time.toNat < 7 ∧ d.agent.mode.name = "bike" ∧
        1 ≤ d.agent.route.length ∧
        ∃ nodes, Walk grid.network.links d.agent.route nodes ∧ nodes.Nodup := by
  have hmodes : Sample.village.multimodal.speeds.modes ≠ [] := by
    decide
  obtain ⟨grid, hgrid, hcalled⟩ :=
    Grid.exists_network .empty Sample.village.scenario
  obtain ⟨departures, later, hgenerate, hgrown, -, -, hsorted, htravels⟩ :=
    generate_travels Sample.counting 0 grid.ids hmodes (by decide)
  -- The order in which the two depart is found by running the model.
  have horder := Sample.villageOrder_eq
  unfold Sample.villageOrder at horder
  rw [hgrid] at horder
  dsimp only at horder
  rw [hgenerate] at horder
  refine ⟨hmodes, grid, departures, later, hgrid, hgenerate, horder, hsorted, fun d hd => ?_⟩
  obtain ⟨t, ht⟩ := htravels d hd
  obtain ⟨nodes, hwalk, hnodup, -⟩ := ht.walk hgrid hgrown (.refl later)
  exact ⟨ht.time_lt, List.mem_singleton.1 ht.mode, ht.length_pos, nodes, hwalk, hnodup⟩

end Departure

end NetworkLoading
