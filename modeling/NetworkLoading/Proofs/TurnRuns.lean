import Mathlib.Algebra.BigOperators.Group.List.Basic
import NetworkLoading.Proofs.Accounts
import NetworkLoading.Proofs.Alone
import NetworkLoading.Proofs.Losses

/-!
# Runs whose threads take turns

In a run of an engine with several partitions the threads of every time step may take any turns. The
events which tell of losses, the agents who are handed over as aborted and the population agree
after every call. Within a step, however, a thread which has told of a loss may be overtaken before
it hands the agent over, so that both need not come in the same order.
-/

namespace NetworkLoading

/-! ## Calls -/

namespace Engine

/-- Calls an engine, the threads of which take the given turns in a time step. -/
def performInTurns (engine : Engine) (turns : Turns) (s : Loading) :
    Call → Except Fault (Answer × Loading)
  | .step now => (engine.stepInTurns s now turns).map fun (result, s) => (.stepped result, s)
  | call => engine.perform (.ascending engine.supply.layout) s call

/-- If no turns are given, the partitions follow their numbers. -/
theorem performInTurns_nil (engine : Engine) (s : Loading) (call : Call) :
    engine.performInTurns {} s call =
      engine.perform (.ascending engine.supply.layout) s call := by
  cases call with
  | step now =>
    simp only [performInTurns, stepInTurns_nil]
    rfl
  | depart | enter | finish | reset => rfl

/-- The calls of a run which starts in a state, and the state in which it ends. The threads may take
other turns in every step. -/
inductive RunsInTurns (engine : Engine) (s : Loading) : List Stage → Loading → Prop
  | start : RunsInTurns engine s [] s
  | call {stages : List Stage} {t u : Loading} (turns : Turns) {call : Call} {answer : Answer} :
      RunsInTurns engine s stages t → engine.performInTurns turns t call = .ok (answer, u) →
      RunsInTurns engine s (stages ++ [⟨t, call, answer, u⟩]) u

end Engine

/-- A call tells of every agent whom it hands over as aborted, counts them, and accounts for all
others. -/
structure Stage.Settled (l : Layout) (x : Stage) : Prop where
  events : x.after.record.events.toList = x.before.record.events.toList ++ x.events
  handedOver : x.after.record.handedOver.toList = x.before.record.handedOver.toList ++ x.handedOver
  losses : (x.events.filterMap Event.loss?).Perm (x.handedOver.filterMap Agent.loss?)
  inOrder : (l.numParts = 1 ∨ ∀ now, x.call ≠ .step now) →
    x.events.filterMap Event.loss? = x.handedOver.filterMap Agent.loss?
  lost : x.after.record.population.lost = x.before.record.population.lost +
    Int64.ofNat (x.handedOver.filterMap Agent.loss?).length
  living : x.after.record.population.living = x.before.record.population.living -
    Int64.ofNat (x.handedOver.filterMap Agent.loss?).length
  ended : ∀ agent ∈ x.handedOver, agent.hasArrived = agent.loss?.isNone
  agents : (x.before.everyone l).length + x.accepted.length =
    (x.after.everyone l).length + x.handedOver.length + (x.dropped l).length

namespace Loading

variable {l : Layout} {s t : Loading} {engine : Engine} {call : Call} {answer : Answer}

/-- Transfers which are told settle a call, if they are what it takes over and drops. -/
theorem Undergoes.settled {x : Transfer} (h : s.Undergoes l x t) (htold : x.Told)
    (hcount : x.off.length + (Stage.accepted ⟨s, call, answer, t⟩).length =
      x.on.length + x.handedOver.length + (Stage.dropped l ⟨s, call, answer, t⟩).length) :
    Stage.Settled l ⟨s, call, answer, t⟩ := by
  have hevents : Stage.events ⟨s, call, answer, t⟩ = x.events := Stage.events_eq h.events
  have hover : Stage.handedOver ⟨s, call, answer, t⟩ = x.handedOver :=
    Stage.handedOver_eq h.handedOver
  constructor
  · rw [hevents, h.events]
  · rw [hover, h.handedOver]
  · rw [hevents, hover, htold.losses]
  · intro _
    rw [hevents, hover, htold.losses]
  · rw [hover, h.population, Population.lost_lose_iterate]
  · rw [hover, h.population, Population.living_lose_iterate]
  · rw [hover]
    exact htold.ended
  · -- Those whom the transfer does not touch count on both sides.
    obtain ⟨others, hbefore, hafter⟩ := h.agents
    rw [hover]
    have hbefore := hbefore.length_eq
    have hafter := hafter.length_eq
    rw [List.length_append] at hbefore hafter
    dsimp only
    omega

theorem settled_of_performs (hc : engine.supply.layout.Closed) (hs : s.Fits engine.supply.layout)
    (hcall : ∀ now, call ≠ .step now) (h : engine.Performs s call answer t) :
    Stage.Settled engine.supply.layout ⟨s, call, answer, t⟩ := by
  cases h with
  | @land agent now x _ _ hlands =>
    refine (undergoes_land hc hs agent hlands.within now).settled (x.told_transfer now agent) ?_
    rw [← hlands.persons_transfer, hlands.dropped]
    simp [Transfer.persons, Landing.transfer]
  | step => exact absurd rfl (hcall _)
  | finish hemptied =>
    refine hemptied.undergoes_purge.settled (Transfer.told_purge _ _) ?_
    simp [Stage.accepted, Stage.dropped, Transfer.purge]
  | reset hemptied =>
    refine hemptied.undergoes_discard.settled (Transfer.told_discard _) ?_
    simp [Stage.accepted, Stage.dropped, Transfer.discard]

/-- Deeds settle a step if they are, in another order, those of threads which account for their
agents. -/
theorem Booked.settled {now : UInt32} {stats : Except LoadingError StepStats}
    {deeds told : List Deed} (h : Booked l s deeds t) (hperm : deeds.Perm told)
    (htold : Accounted 0 told 0) (hone : l.numParts = 1 → deeds = told) :
    Stage.Settled l ⟨s, .step now, .stepped stats, t⟩ := by
  have hevents : Stage.events ⟨s, .step now, .stepped stats, t⟩ = deeds.filterMap Deed.event? :=
    Stage.events_eq h.events
  have hover : Stage.handedOver ⟨s, .step now, .stepped stats, t⟩ =
      deeds.filterMap Deed.handedOver? := Stage.handedOver_eq h.handedOver
  have hhanded := hperm.filterMap Deed.handedOver?
  have hlosses := hhanded.filterMap Agent.loss?
  constructor
  · rw [hevents, h.events]
  · rw [hover, h.handedOver]
  · rw [hevents, hover]
    exact ((hperm.filterMap _).filterMap _).trans (htold.losses ▸ hlosses.symm)
  · -- With one partition nobody comes between, so the deeds are in the order they are told.
    rintro (hparts | hcall)
    · rw [hevents, hover, hone hparts, htold.losses]
    · exact absurd rfl (hcall now)
  · rw [hover, h.lost, hperm.countP_eq, htold.lost, hlosses.length_eq]
  · rw [hover, h.living, hperm.countP_eq, htold.living, hlosses.length_eq]
  · rw [hover]
    exact fun agent hagent => htold.ended agent (hhanded.mem_iff.1 hagent)
  · have hagents := h.agents
    have hcount := htold.agents
    rw [(hperm.map _).sum_eq, (hperm.map _).sum_eq] at hagents
    rw [hover, hhanded.length_eq]
    simp only [Stage.accepted, Stage.dropped, List.length_nil]
    omega

theorem Sound.performInTurns_of_ne_step (hc : engine.supply.layout.Closed)
    (hs : s.Sound engine.supply.layout) (turns : Turns) (hcall : ∀ now, call ≠ .step now)
    (he : engine.performInTurns turns s call =
      engine.perform (.ascending engine.supply.layout) s call) :
    ∃ answer t, engine.performInTurns turns s call = .ok (answer, t) ∧
      t.Sound engine.supply.layout ∧ Stage.Settled engine.supply.layout ⟨s, call, answer, t⟩ := by
  obtain ⟨answer, t, ht, hperforms⟩ := hs.fits.perform hc (.ascending _) hcall
  exact ⟨answer, t, he.trans ht, hperforms.sound hc hs,
    settled_of_performs hc hs.fits hcall hperforms⟩

/-- No call faults, whatever turns threads take, and each of them settles its accounts. -/
theorem Sound.performInTurns (hc : engine.supply.layout.Closed) (hs : s.Sound engine.supply.layout)
    (turns : Turns) (call : Call) :
    ∃ answer t, engine.performInTurns turns s call = .ok (answer, t) ∧
      t.Sound engine.supply.layout ∧ Stage.Settled engine.supply.layout ⟨s, call, answer, t⟩ := by
  cases call with
  | step now =>
    obtain ⟨stats, t, deeds, told, hstep, ht, hbooked, hperm, htold, hone⟩ :=
      hs.stepInTurns hc now turns
    refine ⟨.stepped stats, t, ?_, ht, hbooked.settled hperm htold hone⟩
    simp only [Engine.performInTurns, hstep, Except.map]
  | depart | enter | finish | reset =>
    exact hs.performInTurns_of_ne_step hc turns (by simp) rfl

/-! ## Runs -/

/-- The three accounts of losses agree, and nobody is missing. -/
structure Agrees (l : Layout) (living : Int64) (accepted dropped : Nat) (s : Loading) : Prop where
  losses : (s.record.events.toList.filterMap Event.loss?).Perm
    (s.record.handedOver.toList.filterMap Agent.loss?)
  inOrder : l.numParts = 1 → s.record.events.toList.filterMap Event.loss? =
    s.record.handedOver.toList.filterMap Agent.loss?
  lost : s.record.population.lost =
    Int64.ofNat (s.record.handedOver.toList.filterMap Agent.loss?).length
  living : s.record.population.living =
    living - Int64.ofNat (s.record.handedOver.toList.filterMap Agent.loss?).length
  ended : ∀ agent ∈ s.record.handedOver.toList, agent.hasArrived = agent.loss?.isNone
  agents : accepted = (s.everyone l).length + s.record.handedOver.toList.length + dropped

variable {living : Int64} {accepted dropped : Nat}

theorem agrees_empty (l : Layout) (living : Int64) :
    (Loading.empty l { living }).Agrees l living 0 0 := by
  have hnobody := (vacant_empty l { population := { living } }).everyone
  refine ⟨.refl _, fun _ => rfl, rfl, ?_, nofun, ?_⟩
  · simp [Loading.empty]
  · rw [Loading.empty, hnobody]
    rfl

theorem Agrees.settled (h : s.Agrees l living accepted dropped)
    (hsettled : Stage.Settled l ⟨s, call, answer, t⟩) :
    t.Agrees l living (accepted + (Stage.accepted ⟨s, call, answer, t⟩).length)
      (dropped + (Stage.dropped l ⟨s, call, answer, t⟩).length) := by
  have hevents : t.record.events.toList = s.record.events.toList ++ _ := hsettled.events
  have hover : t.record.handedOver.toList = s.record.handedOver.toList ++ _ := hsettled.handedOver
  constructor
  · rw [hevents, hover, List.filterMap_append, List.filterMap_append]
    exact h.losses.append hsettled.losses
  · intro hparts
    rw [hevents, hover, List.filterMap_append, List.filterMap_append, h.inOrder hparts,
      hsettled.inOrder (.inl hparts)]
  · have hlost : t.record.population.lost = s.record.population.lost + _ := hsettled.lost
    rw [hlost, h.lost, hover, List.filterMap_append, List.length_append, Int64.ofNat_add]
  · have hliving : t.record.population.living = s.record.population.living - _ := hsettled.living
    rw [hliving, h.living, hover, List.filterMap_append, List.length_append, Int64.ofNat_add]
    grind
  · rw [hover]
    exact List.forall_mem_append.2 ⟨h.ended, hsettled.ended⟩
  · have hagents := hsettled.agents
    have hbefore := h.agents
    rw [hover, List.length_append]
    dsimp only at hagents
    omega

end Loading

namespace Engine.RunsInTurns

variable {engine : Engine} {s t : Loading} {living : Int64} {stages : List Stage}

/-- Every call of a run settles its accounts. -/
theorem settled (hc : engine.supply.layout.Closed) (hs : s.Sound engine.supply.layout)
    (h : engine.RunsInTurns s stages t) :
    t.Sound engine.supply.layout ∧ ∀ stage ∈ stages, stage.Settled engine.supply.layout := by
  induction h with
  | start => exact ⟨hs, List.forall_mem_nil _⟩
  | call turns _ hcall ih =>
    obtain ⟨_, _, hagain, hsound, hsettled⟩ := ih.1.performInTurns hc turns _
    cases hcall.symm.trans hagain
    refine ⟨hsound, List.forall_mem_append.2 ⟨ih.2, ?_⟩⟩
    exact List.forall_mem_singleton.2 hsettled

theorem agrees (hc : engine.supply.layout.Closed)
    (h : engine.RunsInTurns (.empty engine.supply.layout { living }) stages t) :
    t.Agrees engine.supply.layout living (stages.flatMap (·.accepted)).length
      (stages.flatMap (·.dropped engine.supply.layout)).length := by
  have hsettled := (h.settled hc (Loading.sound_empty _ _)).2
  induction h with
  | start => exact Loading.agrees_empty _ _
  | call _ _ _ ih =>
    obtain ⟨hbefore, hlast⟩ := List.forall_mem_append.1 hsettled
    have hagrees := (ih hbefore).settled (hlast _ (List.mem_singleton_self _))
    simpa using hagrees

/-- After any calls, whatever turns the threads took, as many events tell of a loss of a person at a
time as agents were handed over with this loss, and the population counts them. Within a call both
are in the same order, unless it is a step of several partitions. All others who were accepted have
arrived, are on the network or were dropped in a reset. -/
theorem losses_agree (hb : engine.Constructed)
    (h : engine.RunsInTurns (.empty engine.supply.layout { living }) stages t) :
    (t.record.events.toList.filterMap Event.loss?).Perm
      (t.record.handedOver.toList.filterMap Agent.loss?) ∧
    (∀ stage ∈ stages, (stage.events.filterMap Event.loss?).Perm
      (stage.handedOver.filterMap Agent.loss?)) ∧
    (∀ stage ∈ stages, (engine.supply.layout.numParts = 1 ∨ ∀ now, stage.call ≠ .step now) →
      stage.events.filterMap Event.loss? = stage.handedOver.filterMap Agent.loss?) ∧
    (engine.supply.layout.numParts = 1 →
      t.record.events.toList.filterMap Event.loss? =
        t.record.handedOver.toList.filterMap Agent.loss?) ∧
    t.record.events.toList.countP (·.kind = .stuck) =
      t.record.handedOver.toList.countP (·.isAborted) ∧
    t.record.population.lost = Int64.ofNat (t.record.events.toList.countP (·.kind = .stuck)) ∧
    t.record.population.living + t.record.population.lost = living ∧
    t.record.handedOver.toList.countP (·.hasArrived) +
        t.record.handedOver.toList.countP (·.isAborted) +
        (t.everyone engine.supply.layout).length +
        (stages.flatMap (·.dropped engine.supply.layout)).length =
      (stages.flatMap (·.accepted)).length := by
  have hc := hb.closed
  have hsettled := (h.settled hc (Loading.sound_empty _ _)).2
  have hagrees := h.agrees hc
  -- Every count follows from the agreement of the two logs of losses.
  have hstuck : t.record.events.toList.countP (·.kind = .stuck) =
      (t.record.handedOver.toList.filterMap Agent.loss?).length :=
    (countP_stuck _).trans hagrees.losses.length_eq
  refine ⟨hagrees.losses, fun stage hstage => (hsettled stage hstage).losses,
    fun stage hstage => (hsettled stage hstage).inOrder, hagrees.inOrder,
    hstuck.trans (countP_isAborted _).symm, ?_, ?_, ?_⟩
  · rw [hstuck, hagrees.lost]
  · rw [hagrees.living, hagrees.lost]
    grind
  · have hagents := hagrees.agents
    rw [length_eq_arrived_add_aborted hagrees.ended] at hagents
    omega

end Engine.RunsInTurns

/-! ## A thread which is overtaken -/

namespace Sample

/-- The ring with its nodes in two partitions. -/
def ringHalves : Network :=
  { ring with
    nodes := [{ place gate with inLinks := [track], outLinks := [lane] },
      { place yard with inLinks := [lane], outLinks := [track], partition := 1 }]
    links := [{ road with partition := 1 }, returning]
    numParts := 2 }

def ringHalvesEngine : Engine where
  supply :=
    { layout :=
        { links := ringHalves.links, junctions := [⟨gate, [track], 0⟩, ⟨yard, [lane], 1⟩]
          numParts := 2 }
      travelTimes }
  schedule := .ofSettings {}

theorem constructed_ringHalvesEngine : ringHalvesEngine.Constructed := by
  have hpart : ring.setPartition yard 1 = .ok () ringHalves := rfl
  exact ⟨ids, ringHalves, { partitioning := { numParts := 2 } }, [], travelTimes, _,
    .setPartition built_ring hpart, rfl⟩

/-- An agent who wants to enter a link from its own end. -/
def loiterer (person : PersonId) (link : LinkId) : Agent :=
  { id := person, mode := car, route := [link, link], route_ne_nil := nofun }

def eric : PersonId := ⟨4, "eric"⟩

/-- The thread of the second partition tells of a loss, and is overtaken by the first one. -/
def overtaken : Turns where
  forNodes := List.replicate 8 1 ++ List.replicate 12 0

/-- Two agents are lost at different nodes in a step, and a third one is removed as stuck. Another
one has arrived, and the last one is dropped. -/
theorem runs_overtaken : ∃ stages t,
    ringHalvesEngine.RunsInTurns (.empty ringHalvesEngine.supply.layout { living := 5 }) stages t ∧
    (stages.flatMap (·.accepted)).length = 5 ∧
    t.record.events.toList.filterMap Event.loss? = [(ben, 6), (ann, 6), (cleo, 8)] ∧
    t.record.handedOver.toList.filterMap Agent.loss? = [(ann, 6), (ben, 6), (cleo, 8)] := by
  have h : ringHalvesEngine.RunsInTurns (.empty ringHalvesEngine.supply.layout { living := 5 })
      [⟨_, .depart (loiterer ann track) track 5, _, _⟩,
        ⟨_, .depart (loiterer ben lane) lane 5, _, _⟩, ⟨_, .step 6, _, _⟩,
        ⟨_, .depart (loiterer cleo lane) lane 7, _, _⟩, ⟨_, .finish 8, _, _⟩,
        ⟨_, .depart { loiterer dora lane with position := 1 } lane 9, _, _⟩,
        ⟨_, .depart (loiterer eric lane) lane 9, _, _⟩, ⟨_, .reset, _, _⟩] _ :=
    .call {} (.call {} (.call {} (.call {} (.call {} (.call overtaken (.call {} (.call {} .start
      rfl) rfl) rfl) rfl) rfl) rfl) rfl) rfl
  exact ⟨_, _, h, rfl, rfl, rfl⟩

end Sample

namespace Engine.RunsInTurns

theorem losses_agree_overtaken : ∃ stages t,
    Sample.ringHalvesEngine.RunsInTurns
      (.empty Sample.ringHalvesEngine.supply.layout { living := 5 }) stages t ∧
    (t.record.events.toList.filterMap Event.loss?).Perm
      (t.record.handedOver.toList.filterMap Agent.loss?) ∧
    t.record.population.lost = 3 ∧
    t.record.population.living + t.record.population.lost = 5 := by
  obtain ⟨stages, t, h, -, hevents, -⟩ := Sample.runs_overtaken
  obtain ⟨hlosses, -, -, -, -, hlost, hpopulation, -⟩ :=
    losses_agree Sample.constructed_ringHalvesEngine h
  refine ⟨stages, t, h, hlosses, ?_, hpopulation⟩
  rw [hlost, countP_stuck, hevents]
  rfl

/-- With several partitions, the agents who are lost in a step need not be handed over in the order
in which events tell of them. -/
theorem losses_out_of_order : ∃ stages t, Sample.ringHalvesEngine.Constructed ∧
    Sample.ringHalvesEngine.RunsInTurns
      (.empty Sample.ringHalvesEngine.supply.layout { living := 5 }) stages t ∧
    (t.record.events.toList.filterMap Event.loss?)[0]? = some (Sample.ben, 6) ∧
    (t.record.handedOver.toList.filterMap Agent.loss?)[0]? = some (Sample.ann, 6) := by
  obtain ⟨stages, t, h, -, hevents, hover⟩ := Sample.runs_overtaken
  refine ⟨stages, t, Sample.constructed_ringHalvesEngine, h, ?_, ?_⟩
  · rw [hevents]
    rfl
  · rw [hover]
    rfl

end Engine.RunsInTurns

end NetworkLoading
