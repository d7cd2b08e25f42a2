import NetworkLoading.Program
import NetworkLoading.Proofs.Loops
import NetworkLoading.Proofs.OnCourse

/-!
# Simulations of generated scenarios

The agents of a generated scenario find their way, whatever the settings are and whatever the dice
show. No departure is turned down, and unless a time step fails, agents are lost only when the run
ends: those who are still on the network then.
-/

namespace NetworkLoading

/-! ## Departures -/

/-- A departure that was handed to an engine, and the answer. -/
abbrev Note := Departure × Except Rejected Bool

namespace Program

/-- Lets all agents depart whose time has come, and notes them with the answers. -/
def departNoting (engine : Engine) (now : UInt32) (s : Loading) (notes : List Note) :
    List Departure → Except Fault ((List Departure × List Note) × Loading)
  | [] => .ok (([], notes), s)
  | d :: rest =>
    if d.time ≤ now then
      (engine.depart s d.agent d.link now).bind fun (result, s) =>
        let notes := notes ++ [(d, result)]
        match result with
        | .ok _ => departNoting engine now s notes rest
        | .error rejected => departNoting engine now (turnAway s d.link rejected) notes rest
    else .ok ((d :: rest, notes), s)

/-- The controller of the program, which also notes every departure with the answer. -/
def noting (engine : Engine) : Controller (List Departure × List Note) :=
  fun (departures, notes) s now =>
    (departNoting engine now s notes departures).map fun ((rest, notes), s) =>
      (if rest.isEmpty then .exhausted else .continue, (rest, notes), s)

theorem departDue_eq (engine : Engine) (now : UInt32) (s : Loading) (notes : List Note)
    (departures : List Departure) : departDue engine now s departures =
      (departNoting engine now s notes departures).map fun ((rest, _), s) => (rest, s) := by
  induction departures generalizing s notes with
  | nil => rfl
  | cons d rest ih =>
    unfold departDue departNoting
    split
    · cases engine.depart s d.agent d.link now with
      | error fault => rfl
      | ok x =>
        obtain ⟨result, s⟩ := x
        cases result <;> exact ih ..
    · rfl

theorem forgets_noting (engine : Engine) :
    Engine.Forgets Prod.fst (noting engine) (controller engine) := by
  rintro ⟨departures, notes⟩ s now
  simp only [controller, noting, departDue_eq engine now s notes departures]
  cases departNoting engine now s notes departures <;> rfl

/-- Every departure was noted or is left, and none which was noted was turned down. -/
structure Accepted (departures : List Departure) (c : List Departure × List Note) : Prop where
  all : c.2.map (·.1) ++ c.1 = departures
  taken : ∀ note ∈ c.2, note.2.isOk = true

variable {engine : Engine} {s : Loading}

/-- The agent departs at the start of a connected route of loaded links, and its mode has a rule. -/
structure Routed (engine : Engine) (d : Departure) : Prop where
  position : d.agent.position = 0
  route : Connected engine.supply.layout.links d.agent.route
  mode : (engine.supply.travelTimes.get? d.agent.mode).isSome = true

theorem Accepted.departNoting (hc : engine.supply.layout.Closed) {all : List Departure}
    {departures : List Departure} {notes : List Note} (h : Accepted all (departures, notes))
    (hrouted : ∀ d ∈ departures, Routed engine d) (hs : s.Orderly engine.supply.layout)
    (now : UInt32) :
    ∃ rest later t, departNoting engine now s notes departures = .ok ((rest, later), t) ∧
      Accepted all (rest, later) ∧ t.Orderly engine.supply.layout := by
  induction departures generalizing s notes with
  | nil => exact ⟨[], notes, s, rfl, h, hs⟩
  | cons d rest ih =>
    obtain ⟨hd, hrest⟩ := List.forall_mem_cons.1 hrouted
    unfold Program.departNoting
    split
    · obtain ⟨onto, t, ht, horderly⟩ := hs.depart hc hd.position hd.route hd.mode now
      have haccepted : Accepted all (rest, notes ++ [(d, .ok onto)]) :=
        ⟨by simpa using h.all, List.forall_mem_append.2 ⟨h.taken, List.forall_mem_singleton.2 rfl⟩⟩
      obtain ⟨left, later, u, hu, hdone⟩ := ih haccepted hrest horderly
      refine ⟨left, later, u, ?_, hdone⟩
      rw [Departure.link, ht]
      exact hu
    · -- The first who is not due ends the turn; those behind it are not looked at.
      exact ⟨d :: rest, notes, s, rfl, h, hs⟩

/-! ## Runs -/

/-- A run which had come to `s` before it stopped ended in `t`: until then nobody had left the
network who had not arrived, and everyone who was on it is removed. -/
structure Concludes (l : Layout) (stopped : UInt32) (s t : Loading) : Prop where
  finished : t = (Engine.finish s stopped).2
  arrived : ∀ agent ∈ s.record.handedOver.toList, agent.hasArrived = true
  unstuck : ∀ e ∈ s.record.events.toList, e.kind ≠ .stuck
  onNetwork : s.traffic.onNetwork = UInt64.ofNat (s.everyone l).length
  times : ∀ e ∈ t.record.events.toList, e.kind = .stuck → e.time = stopped
  stuck : t.record.events.toList.countP (·.kind = .stuck) = (s.everyone l).length
  paired : t.record.events.toList.countP (·.kind = .entered) =
    t.record.events.toList.countP (·.kind = .left)

/-- The empty network on which the agents of some departures are awaited. -/
def outset (engine : Engine) (departures : List Departure) : Loading :=
  .empty engine.supply.layout { living := Int64.ofNat departures.length }

/-- If the departures of a program have connected routes, its steps do not fault. Whatever happens,
none of the departures is turned down; if no step fails, nobody is lost. -/
theorem exists_steps (hc : engine.supply.layout.Closed) {departures : List Departure}
    (hrouted : ∀ d ∈ departures, Routed engine d) :
    ∃ result d s,
      engine.steps (noting engine) (departures, []) (outset engine departures) =
        .ok (result, d, s) ∧
      Accepted departures d ∧
      ∀ stopped, result = .ok stopped → Accepted departures d ∧ s.Orderly engine.supply.layout := by
  have hempty : (outset engine departures).Orderly engine.supply.layout :=
    Loading.orderly_empty _ _
  refine Engine.loop_keeps (P := fun c s => Accepted departures c ∧ s.Orderly _)
    (fun _ _ h => h.1) (fun _ _ line h => ⟨h.1, h.2.say line⟩) ?_
    (fun _ s now h => ?_) _ ⟨⟨rfl, nofun⟩, hempty.say _⟩
  · -- The departures which are left are among those of the program, so they are routed, too.
    rintro ⟨left, notes⟩ s now ⟨haccepted, hs⟩
    have hleft : ∀ d ∈ left, Routed engine d := fun d hd =>
      hrouted d (haccepted.all ▸ List.mem_append_right _ hd)
    obtain ⟨rest, later, t, ht, hdone⟩ := haccepted.departNoting hc hleft hs now
    refine ⟨if rest.isEmpty then .exhausted else .continue, (rest, later), t, ?_, hdone⟩
    rw [noting, ht]
    rfl
  · obtain ⟨stats, t, ht, hkept⟩ := h.2.step hc now
    exact ⟨stats, t, ht, fun counts hcounts => ⟨h.1, hkept counts hcounts⟩⟩

/-- If the departures of a program have connected routes, its run accepts all of them. -/
theorem exists_run (hc : engine.supply.layout.Closed) {departures : List Departure}
    (hrouted : ∀ d ∈ departures, Routed engine d) :
    ∃ result rest notes t,
      engine.run (noting engine) (departures, []) (outset engine departures) =
        .ok (result, (rest, notes), t) ∧
      engine.run (controller engine) departures (outset engine departures) =
        .ok (result, rest, t) ∧
      Accepted departures (rest, notes) ∧
      ∀ stopped, result = .ok stopped →
        ∃ s, engine.steps (controller engine) departures (outset engine departures) =
            .ok (.ok stopped, rest, s) ∧
          Concludes engine.supply.layout stopped s t := by
  obtain ⟨result, ⟨rest, notes⟩, s, hsteps, haccepted, hok⟩ := exists_steps hc hrouted
  -- The program which takes no notes takes the same steps.
  have hplain : engine.steps (controller engine) departures (outset engine departures) =
      .ok (result, rest, s) :=
    (Engine.loop_forget (forgets_noting engine) _ (departures, []) _ _ _).trans
      (congrArg (Except.map _) hsteps)
  rw [Engine.run_eq_steps, Engine.run_eq_steps, hsteps, hplain]
  cases result with
  | error error => exact ⟨.error error, rest, notes, s, rfl, rfl, haccepted, nofun⟩
  | ok stopped =>
    obtain ⟨-, hs⟩ := hok stopped rfl
    obtain ⟨t, ht, htimes, hstuck, hpaired⟩ := hs.finish hc stopped
    obtain ⟨_, hbalances⟩ := hs.balances
    refine ⟨.ok stopped, rest, notes, t, ?_, ?_, haccepted, ?_⟩
    · simp only [Except.map, ht]
    · simp only [Except.map, ht]
    · rintro _ ⟨⟩
      exact ⟨s, rfl, by rw [ht], hs.arrived, hs.unstuck, hbalances.onNetwork, htimes, hstuck,
        hpaired⟩

end Program

/-! ## Generated scenarios -/

/-- On links without modes every mode may travel. -/
theorem Layout.usable_eq_links {net : Network} (h : ∀ link ∈ net.links, link.modes = [])
    (modes : List ModeId) : usable net modes = net.links := by
  refine List.filter_eq_self.2 fun link hlink => ?_
  have hallows (mode : ModeId) : link.allows mode = true := by
    rw [Link.allows, h link hlink]
    rfl
  cases modes <;> simp [hallows]

/-- All agents of a scenario have routes on the engine that is built for it. -/
theorem Scenario.Planned.routed {x : Scenario} {modes : List String} {ids : IdStore}
    (h : x.Planned modes ids) {c : Config} {travelTimes : TravelTimes} {wanted : List ModeId}
    {built : Engine.Built}
    (htravel : ∀ mode, ids.Issued mode → mode.name ∈ modes → (travelTimes.get? mode).isSome)
    (hbuilt : Engine.build x.network c wanted travelTimes = .ok (.ok built)) :
    built.engine.supply.layout.Closed ∧ ∀ d ∈ x.departures, Program.Routed built.engine d := by
  have hconstructed : built.engine.Constructed :=
    ⟨ids, x.network, c, wanted, travelTimes, built.log, h.built, hbuilt⟩
  obtain ⟨parted, hparted, hlayout, htimes⟩ := Engine.build_eq_ok hbuilt
  obtain ⟨hlinks, -, -⟩ := Layout.ofNetwork_eq_ok hlayout
  have hbare : parted.links.map Link.bare = x.network.links.map Link.bare :=
    congrArg Network.links hparted.bare_eq
  -- A scenario restricts no link to modes, so the engine keeps all of them.
  have hopen : ∀ link ∈ parted.links, link.modes = [] := by
    intro link hlink
    have hmem : link.bare ∈ x.network.links.map Link.bare := hbare ▸ List.mem_map_of_mem hlink
    obtain ⟨old, hold, he⟩ := List.mem_map.1 hmem
    have hmodes := congrArg Link.modes he
    exact hmodes.symm.trans (h.unrestricted old hold)
  rw [Layout.usable_eq_links hopen] at hlinks
  refine ⟨hconstructed.closed, fun d hd => ?_⟩
  obtain ⟨hposition, hroute, hissued, hmode⟩ := h.departures d hd
  refine ⟨hposition, hlinks ▸ hroute.of_bare_eq hbare.symm, ?_⟩
  rw [htimes]
  exact htravel _ hissued hmode

/-! ## Runs which come to an end -/

namespace Program

/-- A program whose run came to its end. -/
structure Finished where
  engine : Engine
  departures : List Departure
  stopped : UInt32
  /-- The departures whose time had not come. -/
  rest : List Departure
  notes : List Note
  final : Loading

/-- Builds the scenario of the settings with the given dice, and runs it to its end. -/
def finished {σ : Type} (dice : Random.Dice σ) (state : σ) (c : Config) : Option Finished :=
  match Scenario.build dice state c .empty with
  | .error _ => none
  | .ok (scenario, ids) =>
    let (travelTimes, ids) := TravelTimes.ofSpeeds c.multimodal.speeds ids
    match Engine.build scenario.network c (c.networkModes ids).1 travelTimes with
    | .ok (.ok built) =>
      match built.engine.run (noting built.engine) (scenario.departures, [])
          (outset built.engine scenario.departures) with
      | .ok (.ok stopped, (rest, notes), final) =>
        some ⟨built.engine, scenario.departures, stopped, rest, notes, final⟩
      | _ => none
    | _ => none

theorem of_finished {σ : Type} {dice : Random.Dice σ} {state : σ} {c : Config} {x : Finished}
    (h : finished dice state c = some x) :
    ∃ scenario ids built, Scenario.build dice state c .empty = .ok (scenario, ids) ∧
      Engine.build scenario.network c
          (c.networkModes (TravelTimes.ofSpeeds c.multimodal.speeds ids).2).1
          (TravelTimes.ofSpeeds c.multimodal.speeds ids).1 = .ok (.ok built) ∧
      built.engine = x.engine ∧ scenario.departures = x.departures ∧
      x.engine.run (noting x.engine) (x.departures, []) (outset x.engine x.departures) =
        .ok (.ok x.stopped, (x.rest, x.notes), x.final) := by
  unfold finished at h
  split at h
  · cases h
  · rename_i scenario ids hscenario
    dsimp only at h
    split at h
    · rename_i built hbuilt
      split at h
      · rename_i hrun
        cases h
        exact ⟨scenario, ids, built, hscenario, hbuilt, rfl, rfl, hrun⟩
      · cases h
    · cases h

/-- How many events of a kind a run told of. -/
def Finished.count (x : Finished) (kind : EventKind) : Nat :=
  x.final.record.events.toList.countP (·.kind = kind)

end Program

namespace Sample

/-- Three agents with routes of three links each. Two of them walk, and are still under way when the
time is up. -/
def town : Config where
  simulation := { endTime := 6 }
  multimodal := { speeds := (Speeds.empty.insert "bike" 2).insert "walk" 1 }
  scenario := { gridSize := 3, numAgents := 3, departureWindow := 4, linkLength := 2, seed := 6 }

/-- The run of the town, with the dice of its seed. -/
def townRun : Option Program.Finished :=
  Program.finished Random.seeded (.ofSeed town.scenario.seed) town

theorem townRun_counts : townRun.map (fun x =>
    (x.stopped, x.notes.length, x.count .entered, x.count .stuck)) = some (6, 3, 6, 2) := by
  decide +kernel

end Sample

namespace Program

/-- Whatever the settings are and whatever the dice show, if the departure times fit into 32 bits,
the scenario is built; and if an engine can be built for it, the program runs without a fault. Every
departure which is handed to the engine is accepted. If no step fails, nobody has left the network
before the end but those who arrived, all who are left then are stuck at the time at which the run
stopped, and as many links were entered as were left. -/
theorem simulation_on_course {σ : Type} (dice : Random.Dice σ) (state : σ) (c : Config)
    (hstart : c.simulation.startTime.toNat + max c.scenario.departureWindow.toNat 1 - 1 ≤
      4294967295) :
    ∃ scenario ids, Scenario.build dice state c .empty = .ok (scenario, ids) ∧
      ∀ built, Engine.build scenario.network c
          (c.networkModes (TravelTimes.ofSpeeds c.multimodal.speeds ids).2).1
          (TravelTimes.ofSpeeds c.multimodal.speeds ids).1 = .ok (.ok built) →
        ∃ result rest notes t,
          built.engine.run (noting built.engine) (scenario.departures, [])
              (outset built.engine scenario.departures) = .ok (result, (rest, notes), t) ∧
          built.engine.run (controller built.engine) scenario.departures
              (outset built.engine scenario.departures) = .ok (result, rest, t) ∧
          Accepted scenario.departures (rest, notes) ∧
          ∀ stopped, result = .ok stopped →
            ∃ s, built.engine.steps (controller built.engine) scenario.departures
                (outset built.engine scenario.departures) = .ok (.ok stopped, rest, s) ∧
              Concludes built.engine.supply.layout stopped s t := by
  -- The latest time which the dice can give is still one of the clock.
  have hwindow : c.simulation.startTime.toNat + Departure.window c ≤ UInt32.size := by
    simp only [Departure.window, UInt32.size]
    omega
  obtain ⟨scenario, ids, hscenario, hplanned⟩ :=
    Scenario.exists_build dice state hwindow .empty
  refine ⟨scenario, ids, hscenario, fun built hbuilt => ?_⟩
  obtain ⟨hc, hrouted⟩ := hplanned.routed
    (fun mode hmode hname => TravelTimes.isSome_ofSpeeds _ hmode hname) hbuilt
  exact exists_run hc hrouted

theorem simulation_on_course_town : ∃ scenario ids built rest notes s t,
    Scenario.build Random.seeded (.ofSeed Sample.town.scenario.seed) Sample.town .empty =
      .ok (scenario, ids) ∧
    Engine.build scenario.network Sample.town
        (Sample.town.networkModes (TravelTimes.ofSpeeds Sample.town.multimodal.speeds ids).2).1
        (TravelTimes.ofSpeeds Sample.town.multimodal.speeds ids).1 = .ok (.ok built) ∧
    built.engine.run (noting built.engine) (scenario.departures, [])
        (outset built.engine scenario.departures) = .ok (.ok 6, (rest, notes), t) ∧
    Accepted scenario.departures (rest, notes) ∧ notes.length = 3 ∧
    built.engine.steps (controller built.engine) scenario.departures
        (outset built.engine scenario.departures) = .ok (.ok 6, rest, s) ∧
    Concludes built.engine.supply.layout 6 s t ∧
    (s.everyone built.engine.supply.layout).length = 2 ∧
    t.record.events.toList.countP (·.kind = .entered) = 6 := by
  obtain ⟨scenario, ids, hscenario, hruns⟩ := simulation_on_course Random.seeded
    (.ofSeed Sample.town.scenario.seed) Sample.town (by decide)
  obtain ⟨x, hx, hcounts⟩ := Option.map_eq_some_iff.1 Sample.townRun_counts
  simp only [Prod.mk.injEq] at hcounts
  obtain ⟨hstopped, hnotes, hentered, hstuck⟩ := hcounts
  obtain ⟨_, _, built, hscenario', hbuilt, he, hd, hrun⟩ := of_finished hx
  cases hscenario.symm.trans hscenario'
  obtain ⟨result, rest, notes, t, ht, -, haccepted, hconcludes⟩ := hruns built hbuilt
  rw [← he, ← hd, ht, hstopped] at hrun
  cases hrun
  obtain ⟨s, hsteps, hends⟩ := hconcludes 6 rfl
  exact ⟨scenario, ids, built, x.rest, x.notes, s, x.final, hscenario, hbuilt, ht, haccepted,
    hnotes, hsteps, hends, hends.stuck.symm.trans hstuck, hentered⟩

end Program

end NetworkLoading
