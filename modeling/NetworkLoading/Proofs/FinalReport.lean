import NetworkLoading.Proofs.Losses
import NetworkLoading.Proofs.Simulation

/-!
# The last message of a program

A program ends with two numbers: how many agents arrived, and how many were lost. Lost are those who
were removed as stuck and those who could not depart. As arrived, however, everyone is counted who
was handed over, so that who was removed as stuck is told of twice.
-/

namespace NetworkLoading

/-! ## Numbers of agents -/

/-- How many agents were handed over when their legs had ended. -/
def Loading.arrived (s : Loading) : Nat :=
  s.record.handedOver.toList.countP (·.hasArrived)

/-- How many agents were handed over when they had been taken out of the simulation. -/
def Loading.aborted (s : Loading) : Nat :=
  s.record.handedOver.toList.countP (·.isAborted)

namespace Loading

variable {s : Loading} {population : Population}

theorem aborted_eq (s : Loading) :
    s.aborted = (s.record.handedOver.toList.filterMap Agent.loss?).length :=
  countP_isAborted _

/-- Whoever was handed over has arrived or was aborted. -/
theorem Tallies.length_handedOver (h : s.Tallies population) :
    s.record.handedOver.toList.length = s.arrived + s.aborted :=
  length_eq_arrived_add_aborted h.ended

/-- A loss which the engine does not know of is counted, too. -/
theorem Tallies.turnAway (h : s.Tallies population) (link : LinkId) (rejected : Rejected) :
    (Program.turnAway s link rejected).Tallies population.lose := by
  refine ⟨h.losses, ?_, h.ended⟩
  have hpopulation : (Program.turnAway s link rejected).record.population =
      s.record.population.lose := rfl
  have hcommute (count : Nat) :
      (Population.lose^[count] population).lose = Population.lose^[count] population.lose :=
    (Function.iterate_succ_apply' _ _ _).symm.trans (Function.iterate_succ_apply _ _ _)
  rw [hpopulation, h.population, hcommute]
  rfl

end Loading

/-! ## Generated scenarios -/

/-- A scenario has no more departures than agents, and the layout of an engine which is built for it
is closed. -/
theorem Scenario.of_build {σ : Type} (dice : Random.Dice σ) {state : σ} {c : Config}
    {scenario : Scenario} {ids : IdStore}
    (h : Scenario.build dice state c .empty = .ok (scenario, ids)) :
    scenario.departures.length ≤ c.scenario.numAgents.toNat ∧
      ∀ {wanted : List ModeId} {travelTimes : TravelTimes} {built : Engine.Built},
        Engine.build scenario.network c wanted travelTimes = .ok (.ok built) →
        built.engine.supply.layout.Closed := by
  obtain ⟨grid, hgrid, hcalled⟩ := Grid.exists_network .empty c.scenario
  simp only [Scenario.build, hgrid, Except.bind] at h
  obtain ⟨drawn, hdrawn, he⟩ := exists_of_map_eq_ok h
  cases he
  refine ⟨Departure.length_generate_le dice hdrawn, fun hbuilt => ?_⟩
  exact Engine.Constructed.closed
    ⟨grid.ids, grid.network, c, _, _, _, hcalled.built, hbuilt⟩

namespace Program

variable {engine : Engine} {departures : List Departure} {s t : Loading}

/-! ## Departures are accounted for -/

/-- The persons whom the engine took over. -/
def admitted (notes : List Note) : List PersonId :=
  (notes.filter (·.2.isOk)).map (·.1.agent.id)

/-- How many departures were turned down. -/
def turnedDown (notes : List Note) : Nat :=
  notes.countP fun note => !note.2.isOk

theorem length_admitted (notes : List Note) :
    (admitted notes).length + turnedDown notes = notes.length := by
  rw [admitted, List.length_map, ← List.countP_eq_length_filter, turnedDown,
    List.length_eq_countP_add_countP (fun note : Note => note.2.isOk) (l := notes)]
  simp

/-- Every departure was noted or is left. Those whom the engine took over are accounted for, and the
population counts the losses of the engine as well as the departures which were turned down. -/
structure Booked (engine : Engine) (departures : List Departure)
    (c : List Departure × List Note) (s : Loading) : Prop where
  sound : s.Sound engine.supply.layout
  all : c.2.map (·.1) ++ c.1 = departures
  balances : s.Balances engine.supply.layout (admitted c.2) []
  tallies : s.Tallies (Population.lose^[turnedDown c.2]
    { living := Int64.ofNat departures.length })

namespace Booked

theorem say {c : List Departure × List Note} (h : Booked engine departures c s) (line : LogLine) :
    Booked engine departures c (s.say line) :=
  ⟨h.sound.of_traffic_eq rfl, h.all, ⟨h.balances.persons, h.balances.onNetwork⟩,
    ⟨h.tallies.losses, h.tallies.population, h.tallies.ended⟩⟩

theorem outset (engine : Engine) (departures : List Departure) :
    Booked engine departures (departures, []) (outset engine departures) :=
  ⟨Loading.sound_empty _ _, rfl, Loading.balances_empty _ _, Loading.tallies_empty _ _⟩

/-- The first departure which is left is handed to the engine. -/
theorem depart (hc : engine.supply.layout.Closed) {d : Departure} {rest : List Departure}
    {notes : List Note} (h : Booked engine departures (d :: rest, notes) s) (now : UInt32) :
    ∃ result t, engine.depart s d.agent d.link now = .ok (result, t) ∧
      Booked engine departures (rest, notes ++ [(d, result)]) (match result with
        | .ok _ => t
        | .error rejected => turnAway t d.link rejected) := by
  have hperforms : engine.Performs s (.depart d.agent d.link now) _ _ := .land (.depart d.link)
  have hsound := hperforms.sound hc h.sound
  have hbalances := h.balances.performs hc h.sound hperforms
  have htallies := h.tallies.performs hc h.sound hperforms
  refine ⟨_, _, Loading.depart_eq_ok hc h.sound.fits d.agent d.link now, ?_⟩
  have hall : (notes ++ [(d, (engine.departing d.agent d.link).departed d.agent)]).map (·.1) ++
      rest = departures := by
    simpa using h.all
  cases hresult : (engine.departing d.agent d.link).departed d.agent with
  | ok onto =>
    rw [hresult] at hall hbalances
    refine ⟨hsound, hall, ?_, ?_⟩
    · simpa [admitted, Stage.accepted, Stage.dropped, Except.isOk, Except.toBool] using hbalances
    · simpa [turnedDown, Except.isOk, Except.toBool] using htallies
  | error rejected =>
    rw [hresult] at hall hbalances
    refine ⟨hsound.of_traffic_eq rfl, hall, ?_, ?_⟩
    · have hsame : admitted (notes ++ [(d, .error rejected)]) = admitted notes := by
        simp [admitted, Except.isOk, Except.toBool]
      simp only [hsame]
      simp only [Stage.accepted, Stage.dropped, List.append_nil] at hbalances
      exact ⟨hbalances.persons, hbalances.onNetwork⟩
    -- The engine did not count this loss, the program does.
    · have hone : turnedDown (notes ++ [(d, .error rejected)]) = turnedDown notes + 1 := by
        simp [turnedDown, Except.isOk, Except.toBool]
      simp only [hone, Function.iterate_succ_apply']
      exact htallies.turnAway d.link rejected

theorem departNoting (hc : engine.supply.layout.Closed) {left : List Departure}
    {notes : List Note} (h : Booked engine departures (left, notes) s) (now : UInt32) :
    ∃ rest later t, departNoting engine now s notes left = .ok ((rest, later), t) ∧
      Booked engine departures (rest, later) t := by
  induction left generalizing s notes with
  | nil => exact ⟨[], notes, s, rfl, h⟩
  | cons d rest ih =>
    unfold Program.departNoting
    split
    · obtain ⟨result, t, ht, hbooked⟩ := h.depart hc now
      rw [ht]
      cases result with
      | ok onto => exact ih hbooked
      | error rejected => exact ih hbooked
    · exact ⟨d :: rest, notes, s, rfl, h⟩

theorem moved {c : List Departure × List Note} (hc : engine.supply.layout.Closed)
    (h : Booked engine departures c s) {now : UInt32} (hmoved : s.Moved engine.supply now t) :
    Booked engine departures c t :=
  ⟨hmoved.sound, h.all, h.balances.moved hc h.sound.fits hmoved,
    h.tallies.moved hc h.sound.fits hmoved⟩

/-- All who are left on the network are removed. -/
theorem finish {c : List Departure × List Note} (hc : engine.supply.layout.Closed)
    (h : Booked engine departures c s) (now : UInt32) :
    ∃ t, Engine.finish s now = ((s.everyone engine.supply.layout).length, t) ∧
      t.everyone engine.supply.layout = [] ∧ Booked engine departures c t := by
  obtain ⟨t, ht, hemptied⟩ := Loading.emptied_finish hc h.sound.fits now
  have hperforms : engine.Performs s (.finish now) _ t := .finish hemptied
  refine ⟨t, ht, hemptied.vacant.everyone, hperforms.sound hc h.sound, h.all, ?_,
    h.tallies.performs hc h.sound hperforms⟩
  simpa [Stage.accepted, Stage.dropped] using h.balances.performs hc h.sound hperforms

end Booked

/-- The run of a program does not fault, and all departures are accounted for. -/
theorem exists_booked (hc : engine.supply.layout.Closed) (departures : List Departure) :
    ∃ result c t,
      engine.run (noting engine) (departures, []) (outset engine departures) =
        .ok (result, c, t) ∧
      ∀ stopped, result = .ok stopped →
        t.everyone engine.supply.layout = [] ∧ Booked engine departures c t := by
  have hkeeps : ∃ result c s,
      engine.steps (noting engine) (departures, []) (outset engine departures) =
        .ok (result, c, s) ∧ True ∧
      ∀ stopped, result = .ok stopped → Booked engine departures c s := by
    -- A failing step is no end of a run that is reported, so nothing is kept of it.
    refine Engine.loop_keeps (P := Booked engine departures) (Q := fun _ => True)
      (fun _ _ _ => trivial) (fun _ _ line h => h.say line) ?_ (fun _ s now h => ?_) _
      ((Booked.outset engine departures).say _)
    · rintro ⟨left, notes⟩ s now h
      obtain ⟨rest, later, t, ht, hbooked⟩ := h.departNoting hc now
      refine ⟨if rest.isEmpty then .exhausted else .continue, (rest, later), t, ?_, hbooked⟩
      rw [noting, ht]
      rfl
    · obtain ⟨stats, t, ht, hproceeds⟩ :=
        h.sound.stepInOrder hc (Orders.whole_ascending _) now
      exact ⟨stats, t, ht, fun _ _ => h.moved hc hproceeds.moved⟩
  obtain ⟨result, c, s, hsteps, -, hok⟩ := hkeeps
  rw [Engine.run_eq_steps, hsteps]
  cases result with
  | error error =>
    refine ⟨.error error, c, s, rfl, fun stopped hstopped => ?_⟩
    cases hstopped
  | ok stopped =>
    obtain ⟨t, ht, hnobody, hbooked⟩ := (hok stopped rfl).finish hc stopped
    refine ⟨.ok stopped, c, t, ?_, fun _ _ => ⟨hnobody, hbooked⟩⟩
    simp only [Except.map, ht]

/-! ## What is reported -/

theorem toString_ofNat {count : Nat} (h : count < 9223372036854775808) :
    toString (Int64.ofNat count) = toString count := by
  have hint : (Int64.ofNat count).toInt = count :=
    Int64.toInt_ofNat_of_lt (Nat.lt_of_lt_of_eq h (by decide))
  change toString (Int64.ofNat count).toInt = _
  rw [hint]
  rfl

/-- What the last message tells of a run which stopped in `t`. Every departure which was noted is
that of an agent who arrived, was aborted, or was turned down, so that there are no more of them
than departures. The message, however, counts those who were aborted as arrived and as lost. -/
structure Reports (departures : List Departure) (messages : List LogLine) (stopped : UInt32)
    (rest : List Departure) (notes : List Note) (t : Loading) : Prop where
  all : notes.map (·.1) ++ rest = departures
  each : t.arrived + t.aborted + turnedDown notes = notes.length
  within : t.arrived + (t.aborted + turnedDown notes) ≤ departures.length
  message : messages.getLast? = some (.info
    (s!"Simulation stopped at {stopped}. {t.arrived + t.aborted} agents arrived, "
      ++ s!"{t.aborted + turnedDown notes} agents lost."))

theorem Booked.reports {rest : List Departure} {notes : List Note}
    (h : Booked engine departures (rest, notes) t)
    (hnobody : t.everyone engine.supply.layout = [])
    (hcount : departures.length < 9223372036854775808)
    (stopped : UInt32) (before : List LogLine) :
    Reports departures (before ++ closing t stopped) stopped rest notes t := by
  have hover : t.record.handedOver.size = t.arrived + t.aborted := h.tallies.length_handedOver
  -- Nobody is left on the network, so whoever was taken over has been handed over.
  have heach : t.arrived + t.aborted + turnedDown notes = notes.length := by
    have hpersons := h.balances.persons.length_eq
    simp only [hnobody, List.map_nil, List.nil_append, List.append_nil, List.length_map,
      Array.length_toList] at hpersons
    rw [← hover, ← hpersons, length_admitted]
  have hlost : t.record.population.lost = Int64.ofNat (t.aborted + turnedDown notes) := by
    rw [h.tallies.population, Population.lost_lose_iterate, Population.lost_lose_iterate,
      ← Loading.aborted_eq, Int64.ofNat_add, Int64.add_comm]
    simp
  have hall : notes.length + rest.length = departures.length := by
    simpa using congrArg List.length h.all
  have hfew : t.aborted + turnedDown notes < 9223372036854775808 := by omega
  refine ⟨h.all, heach, by omega, ?_⟩
  rw [List.getLast?_append, closing]
  simp only [List.getLast?_cons_cons, List.getLast?_singleton, Option.some_or, hover, hlost,
    toString_ofNat hfew]

/-- The program itself, which takes no notes, runs alike. -/
theorem run_controller {result : Except LoadingError UInt32} {rest : List Departure}
    {notes : List Note}
    (h : engine.run (noting engine) (departures, []) (outset engine departures) =
      .ok (result, (rest, notes), t)) :
    engine.run (controller engine) departures (outset engine departures) =
      .ok (result, rest, t) :=
  (Engine.run_forget (forgets_noting engine) (departures, []) _).trans (congrArg (Except.map _) h)

theorem exit_of_finished {σ : Type} {dice : Random.Dice σ} {state : σ} {c : Config} {x : Finished}
    (h : finished dice state c = some x) : (simulate dice state c).exit = 0 := by
  obtain ⟨scenario, ids, built, hscenario, hbuilt, he, hd, hrun⟩ := of_finished h
  rw [← he, ← hd] at hrun
  have hplain := run_controller hrun
  rw [outset] at hplain
  simp only [simulate, hscenario, hbuilt, drive, hplain]

/-- If a program comes to the end of its run, its last message reports it. -/
theorem reports_drive (hc : engine.supply.layout.Closed)
    (hcount : departures.length < 9223372036854775808) {before : List LogLine}
    (hexit : (drive engine departures before).exit = 0) :
    ∃ stopped rest notes t,
      engine.run (noting engine) (departures, []) (outset engine departures) =
        .ok (.ok stopped, (rest, notes), t) ∧
      Reports departures (drive engine departures before).messages stopped rest notes t := by
  obtain ⟨result, ⟨rest, notes⟩, t, hrun, hok⟩ := exists_booked hc departures
  have hplain := run_controller hrun
  unfold drive at hexit ⊢
  rw [outset] at hplain
  simp only [hplain] at hexit ⊢
  cases result with
  | error error => cases hexit
  | ok stopped =>
    obtain ⟨hnobody, hbooked⟩ := hok stopped rfl
    exact ⟨stopped, rest, notes, t, hrun, hbooked.reports hnobody hcount stopped _⟩

/-- Whatever the settings are and whatever the dice show, if the program comes to its end, its last
message tells of the run on the generated departures: as arrived it counts those whose legs ended
and those who were aborted, as lost those who were aborted and those who were turned down. -/
theorem last_message {σ : Type} (dice : Random.Dice σ) (state : σ) (c : Config)
    (hexit : (simulate dice state c).exit = 0) :
    ∃ scenario ids built, Scenario.build dice state c .empty = .ok (scenario, ids) ∧
      Engine.build scenario.network c
          (c.networkModes (TravelTimes.ofSpeeds c.multimodal.speeds ids).2).1
          (TravelTimes.ofSpeeds c.multimodal.speeds ids).1 = .ok (.ok built) ∧
      ∃ stopped rest notes t,
        built.engine.run (noting built.engine) (scenario.departures, [])
            (outset built.engine scenario.departures) = .ok (.ok stopped, (rest, notes), t) ∧
        Reports scenario.departures (simulate dice state c).messages stopped rest notes t := by
  unfold simulate at hexit ⊢
  split at hexit
  · cases hexit
  · rename_i scenario ids hscenario
    dsimp only at hexit
    split at hexit
    · cases hexit
    · cases hexit
    · rename_i built hbuilt
      obtain ⟨hfew, hclosed⟩ := Scenario.of_build dice hscenario
      have hc : built.engine.supply.layout.Closed := hclosed hbuilt
      -- There are fewer than 2 ^ 32 departures, so that the 64 bits of the count do not wrap.
      have hlarge : scenario.departures.length < 9223372036854775808 :=
        Nat.lt_of_le_of_lt hfew (Nat.lt_trans (UInt32.toNat_lt _) (by decide))
      obtain ⟨stopped, rest, notes, t, hrun, hreports⟩ := reports_drive hc hlarge hexit
      refine ⟨scenario, ids, built, hscenario, hbuilt, stopped, rest, notes, t, hrun, ?_⟩
      simp only [hbuilt]
      exact hreports

theorem last_message_town :
    ∃ departures rest notes t,
      (simulate Random.seeded (.ofSeed Sample.town.scenario.seed) Sample.town).exit = 0 ∧
      Reports departures
        (simulate Random.seeded (.ofSeed Sample.town.scenario.seed) Sample.town).messages
        6 rest notes t ∧
      t.arrived = 1 ∧ t.aborted = 2 ∧ turnedDown notes = 0 := by
  have hcounts : Sample.townRun.map (fun x =>
      (x.stopped, x.final.arrived, x.final.aborted, turnedDown x.notes)) = some (6, 1, 2, 0) := by
    decide +kernel
  obtain ⟨x, hx, hcounts⟩ := Option.map_eq_some_iff.1 hcounts
  simp only [Prod.mk.injEq] at hcounts
  obtain ⟨hstopped, harrived, haborted, hturned⟩ := hcounts
  obtain ⟨scenario, ids, built, hscenario, hbuilt, stopped, rest, notes, t, hrun, hreports⟩ :=
    last_message _ _ _ (exit_of_finished hx)
  obtain ⟨_, _, _, hscenario', hbuilt', he, hd, hrun'⟩ := of_finished hx
  cases hscenario.symm.trans hscenario'
  -- The run which is reported is the one that was evaluated.
  cases hbuilt.symm.trans hbuilt'
  rw [← he, ← hd, hrun, hstopped] at hrun'
  cases hrun'
  exact ⟨scenario.departures, x.rest, x.notes, x.final, exit_of_finished hx, hreports, harrived,
    haborted, hturned⟩

end Program

/-! ## An agent who is told of twice -/

namespace Sample

/-- A single agent, who enters a link in the only time step. -/
def cutShort : Config where
  simulation := { endTime := 1 }
  multimodal := { speeds := Speeds.empty.insert "walk" 1 }
  scenario := { gridSize := 3, numAgents := 1, departureWindow := 1, seed := 1 }

/-- The only agent of a program is under way when the time is up. It is reported as arrived and as
lost. -/
theorem walker_told_twice : ∃ scenario ids built rest notes t,
    Scenario.build Random.seeded (.ofSeed cutShort.scenario.seed) cutShort .empty =
      .ok (scenario, ids) ∧
    scenario.departures.length = 1 ∧
    Engine.build scenario.network cutShort
        (cutShort.networkModes (TravelTimes.ofSpeeds cutShort.multimodal.speeds ids).2).1
        (TravelTimes.ofSpeeds cutShort.multimodal.speeds ids).1 = .ok (.ok built) ∧
    built.engine.run (Program.noting built.engine) (scenario.departures, [])
        (Program.outset built.engine scenario.departures) = .ok (.ok 1, (rest, notes), t) ∧
    t.arrived = 0 ∧ t.aborted = 1 ∧ Program.turnedDown notes = 0 ∧
    (Program.simulate Random.seeded (.ofSeed cutShort.scenario.seed) cutShort).exit = 0 ∧
    (Program.simulate Random.seeded (.ofSeed cutShort.scenario.seed) cutShort).messages.getLast? =
      some (.info "Simulation stopped at 1. 1 agents arrived, 1 agents lost.") := by
  have hcounts : (Program.finished Random.seeded (.ofSeed cutShort.scenario.seed) cutShort).map
      (fun x => (x.departures.length, x.stopped, x.final.arrived, x.final.aborted,
        Program.turnedDown x.notes)) = some (1, 1, 0, 1, 0) := by
    decide +kernel
  obtain ⟨x, hx, hcounts⟩ := Option.map_eq_some_iff.1 hcounts
  simp only [Prod.mk.injEq] at hcounts
  obtain ⟨hlength, hstopped, harrived, haborted, hturned⟩ := hcounts
  obtain ⟨scenario, ids, built, hscenario, hbuilt, he, hd, hrun⟩ := Program.of_finished hx
  rw [← he, ← hd, hstopped] at hrun
  exact ⟨scenario, ids, built, x.rest, x.notes, x.final, hscenario, hd ▸ hlength, hbuilt, hrun,
    harrived, haborted, hturned, Program.exit_of_finished hx, by decide +kernel⟩

end Sample

end NetworkLoading
