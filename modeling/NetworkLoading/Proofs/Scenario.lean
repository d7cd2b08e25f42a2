import NetworkLoading.Proofs.Departures
import NetworkLoading.Proofs.TravelTimes
import NetworkLoading.Scenario
import NetworkLoading.TravelTime.FreeSpeed

/-!
# Scenarios are consistent

If all agents depart in time, a scenario is built, and its agents travel on links of its network
each of which starts where the one before ends. They are at the start of their routes, and their
modes are among those which have a speed.
-/

namespace NetworkLoading

open NetworkLoading.Random

/-! ## Routes -/

/-- All links of a route are there, and each of them ends where the next one starts. -/
structure Connected (links : List Link) (route : List LinkId) : Prop where
  mem : ∀ id ∈ route, id ∈ links.map (·.id)
  joined : route.IsChain fun a b =>
    ∃ x ∈ links, ∃ y ∈ links, x.id = a ∧ y.id = b ∧ x.toNode = y.fromNode

/-- Partitions do not matter. -/
theorem Connected.of_bare_eq {links links' : List Link} {route : List LinkId}
    (h : Connected links route) (hbare : links.map Link.bare = links'.map Link.bare) :
    Connected links' route := by
  -- A link without its partition still has its id and both ends.
  have hsame {x : Link} (hx : x ∈ links) :
      ∃ x' ∈ links', x'.id = x.id ∧ x'.fromNode = x.fromNode ∧ x'.toNode = x.toNode := by
    have hmem : x.bare ∈ links'.map Link.bare := hbare ▸ List.mem_map_of_mem hx
    obtain ⟨x', hx', he⟩ := List.mem_map.1 hmem
    have hid := congrArg Link.id he
    have hfrom := congrArg Link.fromNode he
    have hto := congrArg Link.toNode he
    exact ⟨x', hx', hid, hfrom, hto⟩
  refine ⟨fun id hid => ?_, h.joined.imp fun a b => ?_⟩
  · obtain ⟨x, hx, rfl⟩ := List.mem_map.1 (h.mem id hid)
    obtain ⟨x', hx', he, -⟩ := hsame hx
    exact he ▸ List.mem_map_of_mem hx'
  · rintro ⟨x, hx, y, hy, rfl, rfl, hjoin⟩
    obtain ⟨x', hx', hxid, -, hto⟩ := hsame hx
    obtain ⟨y', hy', hyid, hfrom, -⟩ := hsame hy
    exact ⟨x', hx', y', hy', hxid, hyid, hto.trans (hjoin.trans hfrom.symm)⟩

theorem Walk.connected {links : List Link} {route : List LinkId} {nodes : List NodeId}
    (h : Walk links route nodes) : Connected links route := by
  induction h with
  | stay => exact ⟨nofun, .nil⟩
  | @go link _ _ _ _ hlink _ hto rest ih =>
    refine ⟨List.forall_mem_cons.2 ⟨List.mem_map_of_mem hlink, ih.mem⟩,
      List.isChain_cons.2 ⟨fun id hid => ?_, ih.joined⟩⟩
    cases rest with
    | stay => cases hid
    | @go next _ _ _ _ hnext hfrom _ _ =>
      obtain rfl := Option.some.inj hid
      exact ⟨link, hlink, next, hnext, rfl, rfl, hto.trans hfrom.symm⟩

namespace Grid

variable {grid : NamedNetwork} {ids : IdStore} {size : Nat}

/-- The network has the nodes and links of a grid, and a later store its ids. -/
structure Loaded (grid : NamedNetwork) (size : Nat) (ids : IdStore) : Prop where
  called : grid.Called ((points size).map Point.name)
    ((linkEnds size).map fun ends => (linkName ends.1 ends.2, ends.1.name, ends.2.name))
  grown : ids.Extends grid.ids

theorem Loaded.mono {later : IdStore} (h : Loaded grid size ids) (hgrown : later.Extends ids) :
    Loaded grid size later :=
  ⟨h.called, h.grown.trans hgrown⟩

end Grid

/-! ## Departures -/

/-- The agent is at the start of a connected route, and its mode is one of those listed. -/
structure Departure.Ready (links : List Link) (modes : List String) (ids : IdStore)
    (d : Departure) : Prop where
  position : d.agent.position = 0
  route : Connected links d.agent.route
  issued : ids.Issued d.agent.mode
  mode : d.agent.mode.name ∈ modes

/-- Whoever departs for a trip is ready to travel on the grid. -/
theorem Departure.Takes.ready {grid : NamedNetwork} {ids : IdStore} {size window : Nat}
    {modes : List String} {t : Trip} {start : UInt32} {d : Departure} (hd : d.Takes t start ids)
    (ht : t.Possible size window modes) (h : Grid.Loaded grid size ids) :
    d.Ready grid.network.links modes ids := by
  obtain ⟨nodes, hwalk, -⟩ := hd.exists_walk ht h.called h.grown (.refl ids)
  exact ⟨hd.position, hwalk.connected, hd.mode_issued, hd.mode ▸ ht.mode⟩

namespace Departure

variable {σ : Type} {grid : NamedNetwork} {ids : IdStore} {c : Config}

/-- If all trips are in time, every agent is ready to depart for one of them. -/
theorem ready_generate (dice : Dice σ) (s : σ)
    (htime : ∀ t ∈ trips dice s c, t.InTime c.simulation.startTime)
    (h : Grid.Loaded grid (Grid.side c.scenario) ids) :
    ∃ departures later, generate dice s c ids = .ok (departures, later) ∧
      Grid.Loaded grid (Grid.side c.scenario) later ∧
      departures.length = (trips dice s c).length ∧
      ∀ d ∈ departures, d.Ready grid.network.links c.multimodal.speeds.modes later := by
  obtain ⟨departures, later, hdrawn, hgrown, hlength, htaken⟩ :=
    exists_generate_of_inTime dice s ids htime
  have hloaded := h.mono hgrown
  refine ⟨departures, later, hdrawn, hloaded, hlength, fun d hd => ?_⟩
  obtain ⟨t, ht, htakes⟩ := htaken d hd
  exact htakes.ready (possible_of_mem_trips ht) hloaded

end Departure

/-! ## Scenarios -/

/-- The network of a scenario is built with ids of a store and open to all modes, and its agents can
make their trips on it. -/
structure Scenario.Planned (modes : List String) (ids : IdStore) (x : Scenario) : Prop where
  built : x.network.Built ids
  unrestricted : ∀ link ∈ x.network.links, link.modes = []
  departures : ∀ d ∈ x.departures, d.Ready x.network.links modes ids

/-- If all trips are in time, a scenario is built. -/
theorem Scenario.exists_build_of_inTime {σ : Type} (dice : Dice σ) (s : σ) {c : Config}
    (htime : ∀ t ∈ Departure.trips dice s c, t.InTime c.simulation.startTime)
    (ids : IdStore) :
    ∃ scenario later, build dice s c ids = .ok (scenario, later) ∧
      scenario.departures.length = (Departure.trips dice s c).length ∧
      scenario.Planned c.multimodal.speeds.modes later := by
  obtain ⟨grid, hgrid, hcalled⟩ := Grid.exists_network ids c.scenario
  obtain ⟨departures, later, hdepartures, hloaded, hlength, hready⟩ :=
    Departure.ready_generate dice s htime ⟨hcalled, .refl _⟩
  refine ⟨{ network := grid.network, departures }, later, ?_, hlength,
    hcalled.built.mono hloaded.grown, hcalled.modes, hready⟩
  simp only [build, hgrid, Except.bind, hdepartures, Except.map]

/-- If the window of departures ends in time, a scenario is built, whatever the dice show. -/
theorem Scenario.exists_build {σ : Type} (dice : Dice σ) (s : σ) {c : Config}
    (hstart : c.simulation.startTime.toNat + Departure.window c ≤ UInt32.size)
    (ids : IdStore) :
    ∃ scenario later, build dice s c ids = .ok (scenario, later) ∧
      scenario.Planned c.multimodal.speeds.modes later := by
  obtain ⟨scenario, later, hbuild, -, hplanned⟩ := exists_build_of_inTime dice s
    (fun _ ht => (Departure.possible_of_mem_trips ht).inTime hstart) ids
  exact ⟨scenario, later, hbuild, hplanned⟩

/-! ## Travel times -/

namespace TravelTimes

variable {ids : IdStore}

/-- Every mode which is named gets a rule, and none loses one. -/
theorem isSome_insertNamed (ids : IdStore) (t : TravelTimes)
    (entries : List (String × TravelTime)) :
    (t.insertNamed ids entries).2.Extends ids ∧
      ∀ mode, (t.insertNamed ids entries).2.Issued mode →
        (t.get? mode).isSome ∨ mode.name ∈ entries.map (·.1) →
        ((t.insertNamed ids entries).1.get? mode).isSome := by
  induction entries generalizing t ids with
  | nil => exact ⟨.refl ids, fun mode _ h => h.elim id nofun⟩
  | cons entry entries ih =>
    obtain ⟨name, rule⟩ := entry
    have hcreates := ids.creates .mode name
    obtain ⟨hgrown, hrules⟩ :=
      ih (ids.create .mode name).2 (t.insert (ids.create .mode name).1 rule)
    refine ⟨hcreates.grown.trans hgrown, fun mode hmode h => hrules mode hmode ?_⟩
    rw [isSome_get?_insert, Bool.or_eq_true, decide_eq_true_eq]
    -- A rule is there by the first entry, by the mode it names, or by one of the rest.
    rcases h with hrule | hname
    · exact .inl (.inl hrule)
    · rcases List.mem_cons.1 hname with hname | hname
      · exact .inl (.inr ((hcreates.issued.mono hgrown).eq_of_name hmode
          (hcreates.name_eq.trans hname.symm)))
      · exact .inr hname

/-- Every mode with a speed has a travel time. -/
theorem isSome_ofSpeeds (speeds : Speeds) {mode : ModeId}
    (hmode : ids.Issued mode) (hname : mode.name ∈ speeds.modes) :
    ((ofSpeeds speeds ids).1.get? mode).isSome := by
  obtain ⟨hgrown, hrules⟩ := isSome_insertNamed ids {}
    (speeds.entries.map fun entry => (entry.1, .freeSpeed entry.2))
  refine hrules mode (hmode.mono hgrown) (.inr ?_)
  rw [List.map_map]
  exact hname

end TravelTimes

end NetworkLoading
