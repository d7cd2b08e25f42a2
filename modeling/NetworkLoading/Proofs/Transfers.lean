import NetworkLoading.Proofs.Runs

/-!
# Transfers

Whatever happens to agents, some leave the links they are on, some come onto links, and something is
told about it: events are published and agents are handed over. A transfer says which agents these
are. Everybody else stays on the same link.
-/

namespace NetworkLoading

/-! ## Agents whose legs are over -/

/-- Whether an agent has arrived. -/
def Agent.hasArrived (agent : Agent) : Bool :=
  match agent.state with
  | .arrived _ => true
  | .leg | .aborted _ => false

/-- Who was lost, and when. -/
def Agent.loss? (agent : Agent) : Option (PersonId × UInt32) :=
  match agent.state with
  | .aborted time => some (agent.id, time)
  | .leg | .arrived _ => none

/-- Whose loss an event tells of, and when it happened. -/
def Event.loss? : Event → Option (PersonId × UInt32)
  | .stuck time _ person _ => some (person, time)
  | .entered .. | .left .. | .waits .. => none

@[simp] theorem Agent.hasArrived_arrive (agent : Agent) (now : UInt32) :
    (agent.arrive now).hasArrived = true := rfl

@[simp] theorem Agent.hasArrived_abort (agent : Agent) (now : UInt32) :
    (agent.abort now).hasArrived = false := rfl

@[simp] theorem Agent.loss?_arrive (agent : Agent) (now : UInt32) :
    (agent.arrive now).loss? = none := rfl

@[simp] theorem Agent.loss?_abort (agent : Agent) (now : UInt32) :
    (agent.abort now).loss? = some (agent.id, now) := rfl

/-- Records which differ in their messages alone tell the same of all agents. -/
theorem Record.silent_iff {r r' : Record} : r.silent = r'.silent ↔
    r.population = r'.population ∧ r.events = r'.events ∧ r.handedOver = r'.handedOver := by
  simp [Record.silent]

/-! ## Transfers -/

/-- Who leaves links and who comes onto links, and what is told about it. -/
structure Transfer where
  off : List (LinkId × Agent) := []
  on : List (LinkId × Agent) := []
  events : List Event := []
  handedOver : List Agent := []

namespace Transfer

/-- Agents whose legs end on a link. -/
def arrivals (now : UInt32) (link : LinkId) (agents : List Agent) : Transfer where
  off := agents.map (link, ·)
  handedOver := agents.map (·.arrive now)

/-- Agents who are removed as stuck. -/
def purge (now : UInt32) (agents : List (LinkId × Agent)) : Transfer where
  off := agents
  events := agents.map fun x => .stuck now x.1 x.2.id (some x.2.mode)
  handedOver := agents.map (·.2.abort now)

/-- Agents who are dropped without a trace. -/
def discard (agents : List (LinkId × Agent)) : Transfer where
  off := agents

/-- Whoever leaves a link comes onto another one or is handed over. -/
def Balanced (x : Transfer) : Prop :=
  (x.off.map (·.2.id)).Perm (x.on.map (·.2.id) ++ x.handedOver.map (·.id))

/-- The persons whom a transfer concerns. -/
def persons (x : Transfer) : List PersonId :=
  x.off.map (·.2.id) ++ x.on.map (·.2.id) ++ x.handedOver.map (·.id)

/-- Events tell of those whom the transfer concerns. Whoever is handed over has arrived, or an event
tells of the loss. -/
structure Told (x : Transfer) : Prop where
  persons : ∀ e ∈ x.events, e.person ∈ x.persons
  losses : x.events.filterMap Event.loss? = x.handedOver.filterMap Agent.loss?
  ended : ∀ agent ∈ x.handedOver, agent.hasArrived = agent.loss?.isNone

/-- Everyone whom a balanced transfer concerns leaves a link. -/
theorem Balanced.mem_persons {x : Transfer} (h : x.Balanced) {p : PersonId} (hp : p ∈ x.persons) :
    p ∈ x.off.map (·.2.id) := by
  simp only [persons, List.mem_append, or_assoc] at hp
  exact hp.elim id fun hp => h.mem_iff.2 (List.mem_append.2 hp)

theorem balanced_arrivals (now : UInt32) (link : LinkId) (agents : List Agent) :
    (arrivals now link agents).Balanced := by
  simp [Balanced, arrivals, Function.comp_def]

theorem balanced_purge (now : UInt32) (agents : List (LinkId × Agent)) :
    (purge now agents).Balanced := by
  simp [Balanced, purge, Function.comp_def]

theorem told_arrivals (now : UInt32) (link : LinkId) (agents : List Agent) :
    (arrivals now link agents).Told := by
  constructor <;> simp [arrivals, List.filterMap_map, Function.comp_def]

theorem told_purge (now : UInt32) (agents : List (LinkId × Agent)) :
    (purge now agents).Told := by
  constructor
  · intro e he
    obtain ⟨x, hx, rfl⟩ := List.mem_map.1 he
    have hoff : x.2.id ∈ agents.map (·.2.id) := List.mem_map_of_mem hx
    simp only [persons, purge, List.mem_append]
    exact .inl (.inl hoff)
  · simp [purge, List.filterMap_map, Function.comp_def, Event.loss?]
  · intro agent h
    obtain ⟨x, -, rfl⟩ := List.mem_map.1 h
    rfl

theorem told_discard (agents : List (LinkId × Agent)) : (discard agents).Told :=
  ⟨nofun, rfl, nofun⟩

end Transfer

namespace Crossing

/-- Where the agent is afterwards, if it is on the network. -/
def seat? (x : Crossing) : Option (LinkId × Agent) :=
  match x.turn with
  | .onto link _ => some (link, x.agent.proceed)
  | .lost _ | .refused .. => none

/-- The agent moves from one link to another one, or it is lost. -/
def transfer (now : UInt32) (x : Crossing) : Transfer where
  off := [(x.inLink, x.agent)]
  on := x.seat?.toList
  events := x.events now
  handedOver := (x.ousted? now).toList

theorem balanced_transfer (now : UInt32) (x : Crossing) : (x.transfer now).Balanced := by
  unfold transfer Transfer.Balanced seat? ousted?
  cases x.turn <;> simp

theorem told_transfer (now : UInt32) (x : Crossing) : (x.transfer now).Told := by
  unfold transfer events ousted?
  cases x.turn <;> exact ⟨by simp [Transfer.persons, Event.person], rfl, by simp⟩

/-- The transfer concerns nobody but the agent. -/
theorem transfer_own {x : Crossing} {p : PersonId} (hp : x.agent.id = p) (now : UInt32) :
    (x.transfer now).events.filter (·.person = p) = x.events now ∧
      (x.transfer now).on.filter (·.2.id = p) = x.seat?.toList ∧
      (x.transfer now).handedOver.filter (·.id = p) = (x.ousted? now).toList := by
  subst hp
  unfold transfer events seat? ousted?
  cases x.turn <;> simp [Event.person]

end Crossing

namespace Landing

/-- Where the agent is afterwards, if it is on the network. -/
def seat? (agent : Agent) : Landing → Option (LinkId × Agent)
  | refused _ | arrives => none
  | waits link | enters link _ => some (link, agent)

/-- The agent comes onto a link, or it has arrived, or nothing happens. -/
def transfer (now : UInt32) (agent : Agent) (x : Landing) : Transfer where
  on := (x.seat? agent).toList
  events := x.events now agent
  handedOver := (x.arrived? now agent).toList

theorem told_transfer (now : UInt32) (agent : Agent) (x : Landing) :
    (x.transfer now agent).Told := by
  unfold transfer
  cases x <;> refine ⟨?_, rfl, by simp [arrived?]⟩ <;>
    simp [Landing.events, Transfer.persons, Event.person, seat?]

end Landing

/-- Whom a landing concerns is accepted. -/
theorem Engine.Lands.persons_transfer {engine : Engine} {agent : Agent} {now : UInt32} {x : Landing}
    {call : Call} {answer : Answer} (h : engine.Lands agent now x call answer) (s t : Loading) :
    (x.transfer now agent).persons = Stage.accepted ⟨s, call, answer, t⟩ := by
  cases h with
  | depart link =>
    cases engine.departing agent link <;> simp [Transfer.persons, Landing.transfer, Landing.seat?,
      Landing.arrived?, Stage.accepted, Landing.departed]
  | enter link =>
    cases engine.entering agent link now <;> simp [Transfer.persons, Landing.transfer,
      Landing.seat?, Landing.arrived?, Stage.accepted, Landing.entered]

/-- No landing drops anybody. -/
theorem Engine.Lands.dropped {engine : Engine} {agent : Agent} {now : UInt32} {x : Landing}
    {call : Call} {answer : Answer} (h : engine.Lands agent now x call answer) (s t : Loading)
    (l : Layout) : Stage.dropped l ⟨s, call, answer, t⟩ = [] := by
  cases h <;> rfl

/-! ## The agents in the queues of a link -/

namespace LinkQueue

@[simp] theorem agents_unmarked (q : LinkQueue) : q.unmarked.agents = q.agents := rfl

theorem agents_advance (q : LinkQueue) (link : LinkId) (now : UInt32) :
    q.agents.Perm (q.arriving link now ++ (q.advance link now).agents) := by
  have hdue : ((q.due now).map (·.agent)).Perm (q.arriving link now ++ q.continuing link now) := by
    have hsplit := List.filter_append_perm (fun agent : Agent => agent.endsOn link)
      ((q.due now).map (·.agent))
    simpa [arriving, continuing] using hsplit.symm
  have htransit : q.inTransit.map (·.agent) =
      (q.due now).map (·.agent) ++ (q.advance link now).inTransit.map (·.agent) := by
    rw [← List.map_append]
    exact congrArg _ (List.takeWhile_append_dropWhile (l := q.inTransit)).symm
  -- The queues are appended in another order, which counting does not see.
  refine List.perm_iff_count.2 fun agent => ?_
  have hcount := hdue.count_eq agent
  simp only [agents, htransit, List.count_append, advance, List.count_nil] at hcount ⊢
  omega

theorem agents_enter (q : LinkQueue) (t : Traveller) :
    (q.enter t).agents.Perm (t.agent :: q.agents) :=
  (((insertTraveller_perm t q.inTransit).map _).append_right _).append_right _

theorem agents_depart (q : LinkQueue) (agent : Agent) :
    (q.depart agent).agents.Perm (agent :: q.agents) := by
  simp only [agents, depart, List.append_assoc, List.singleton_append]
  exact (List.perm_middle.append_left _).trans List.perm_middle

theorem agents_erase {q : LinkQueue} {agent : Agent} (h : agent ∈ q.toLeave) :
    q.agents.Perm (agent :: { q with toLeave := q.toLeave.erase agent }.agents) :=
  ((List.perm_cons_erase h).append_left _).trans List.perm_middle

end LinkQueue

namespace Loading

variable {l : Layout} {s t u : Loading} {now : UInt32} {supply : Supply}

/-! ## Agents on links -/

@[simp] theorem everyone_clearActive (l : Layout) (s : Loading) :
    s.clearActive.everyone l = s.everyone l := by
  simp only [everyone, stranded, queue_clearActive]
  rfl

theorem mem_everyone {id : LinkId} {agent : Agent} :
    (id, agent) ∈ s.everyone l ↔ id ∈ l.linkIds ∧ agent ∈ (s.queue id).agents := by
  simp [everyone, stranded, Id.sort, mem_sortBy]

/-- The agents on one link, and those on all others. -/
theorem everyone_perm_append {id : LinkId} (hid : id ∈ l.linkIds) (s : Loading) :
    (s.everyone l).Perm
      ((s.queue id).agents.map (id, ·) ++ s.stranded (l.linkIds.erase id)) :=
  (everyone_perm l s).trans ((List.perm_cons_erase hid).flatMap_right _)

/-- Agents who are taken from one link are missing there only. -/
theorem everyone_perm_of_taken (hc : l.Closed) {id : LinkId} (hid : id ∈ l.linkIds)
    (agents : List Agent) (hq : (s.queue id).agents.Perm (agents ++ (t.queue id).agents))
    (hsame : ∀ other ∈ l.linkIds, other ≠ id →
      (t.queue other).agents = (s.queue other).agents) :
    (s.everyone l).Perm (agents.map (id, ·) ++ t.everyone l) := by
  have hrest : t.stranded (l.linkIds.erase id) = s.stranded (l.linkIds.erase id) := by
    refine List.flatMap_congr fun other hother => ?_
    obtain ⟨hne, hmem⟩ := (hc.links_apart.nodup.mem_erase_iff).1 hother
    rw [hsame other hmem hne]
  refine (everyone_perm_append hid s).trans
    (.trans ?_ ((everyone_perm_append hid t).symm.append_left _))
  rw [hrest, ← List.append_assoc, ← List.map_append]
  exact (hq.map _).append_right _

/-! ## Changes of state -/

/-- Agents are transferred from one state to the next. -/
structure Undergoes (l : Layout) (s : Loading) (x : Transfer) (t : Loading) : Prop where
  agents : ∃ others, (s.everyone l).Perm (x.off ++ others) ∧ (t.everyone l).Perm (x.on ++ others)
  events : t.record.events.toList = s.record.events.toList ++ x.events
  handedOver : t.record.handedOver.toList = s.record.handedOver.toList ++ x.handedOver
  population : t.record.population =
    Population.lose^[(x.handedOver.filterMap Agent.loss?).length] s.record.population
  onNetwork : t.traffic.onNetwork + UInt64.ofNat x.off.length =
    s.traffic.onNetwork + UInt64.ofNat x.on.length

theorem undergoes_flow (hc : l.Closed) (hs : s.Fits l) {id : LinkId} (hid : id ∈ l.linkIds)
    (now : UInt32) :
    s.Undergoes l (.arrivals now id ((s.queue id).arriving id now)) (s.flow now id) := by
  have hq {other : LinkId} (ho : other ∈ l.linkIds) : (s.flow now id).queue other = _ :=
    queue_flow hc hs hid ho
  refine ⟨⟨(s.flow now id).everyone l, ?_, .refl _⟩, ?_, ?_, ?_, ?_⟩
  · refine everyone_perm_of_taken hc hid _ ?_ fun other ho hne => ?_
    · rw [hq hid, if_pos rfl]
      exact LinkQueue.agents_advance _ id now
    · rw [hq ho, if_neg hne]
  all_goals rw [flow, arriveAll_eq]
  all_goals simp [updateQueue, Transfer.arrivals, List.filterMap_map, Function.comp_def]

theorem everyone_release (hc : l.Closed) (hs : s.Fits l) {id : LinkId} (hid : id ∈ l.linkIds)
    {agent : Agent} (h : agent ∈ (s.queue id).toLeave) (now : UInt32) :
    (s.everyone l).Perm ((id, agent) :: (s.release now id agent).everyone l) := by
  have hq {other : LinkId} (ho : other ∈ l.linkIds) :
      (s.release now id agent).queue other = _ :=
    queue_updateQueue hc hs hid ho fun q => { q with toLeave := q.toLeave.erase agent }
  refine everyone_perm_of_taken hc hid [agent] ?_ fun other ho hne => ?_
  · rw [hq hid, if_pos rfl]
    exact LinkQueue.agents_erase h
  · rw [hq ho, if_neg hne]

theorem everyone_entered (hc : l.Closed) (hs : s.Fits l) {id : LinkId} (hid : id ∈ l.linkIds)
    (traveller : Traveller) :
    ((s.updateQueue id (·.enter traveller)).everyone l).Perm
      ((id, traveller.agent) :: s.everyone l) := by
  have hq {other : LinkId} (ho : other ∈ l.linkIds) :=
    queue_updateQueue hc hs hid ho (·.enter traveller)
  refine everyone_perm_of_taken hc hid [traveller.agent] ?_ fun other ho hne => ?_
  · rw [hq hid, if_pos rfl]
    exact LinkQueue.agents_enter _ traveller
  · rw [hq ho, if_neg hne]

theorem undergoes_pass (hc : l.Closed) (hs : s.Fits l) {x : Crossing} (hx : x.Within l)
    (h : x.agent ∈ (s.queue x.inLink).toLeave) (now : UInt32) :
    s.Undergoes l (x.transfer now) (s.pass now x) := by
  have hseat : ((s.pass now x).everyone l).Perm
      (x.seat?.toList ++ (s.release now x.inLink x.agent).everyone l) := by
    have hreleased : (s.release now x.inLink x.agent).Fits l :=
      hs.of_shape_eq (shape_release now s x.inLink x.agent)
    unfold pass Crossing.seat?
    cases hturn : x.turn with
    | onto link exitTime =>
      have hentered : (((s.release now x.inLink x.agent).publish (.entered now link
          x.agent.id)).countIn 1).Fits l := hreleased.of_shape_eq rfl
      exact everyone_entered hc hentered (hx.onto link exitTime hturn) _
    | lost error => exact .refl _
    | refused link error => exact .refl _
  -- A single crossing is a sequence of one.
  have hone : s.pass now x = [x].foldl (pass now) s := rfl
  refine ⟨⟨_, everyone_release hc hs hx.inLink h now, hseat⟩, ?_, ?_, ?_, ?_⟩
  · rw [hone, events_foldl_pass, List.flatMap_singleton]
    rfl
  · rw [hone, handedOver_foldl_pass]
    unfold Crossing.transfer Crossing.ousted?
    cases hturn : x.turn <;> simp [hturn]
  · rw [hone, population_foldl_pass]
    unfold Crossing.transfer Crossing.ousted?
    cases hturn : x.turn <;> simp [hturn]
  · rw [hone, onNetwork_foldl_pass]
    unfold Crossing.transfer Crossing.seat? Crossing.ousted?
    cases hturn : x.turn <;> simp [hturn]

/-- Whatever moves in a step, nobody gets lost on the way and every loss is told. -/
theorem Motion.undergoes (hc : supply.layout.Closed) (hs : s.Fits supply.layout)
    (h : Motion supply now s t) :
    ∃ x : Transfer, s.Undergoes supply.layout x t ∧ x.Balanced ∧ x.Told := by
  cases h with
  | @flow id hid =>
    exact ⟨_, undergoes_flow hc hs hid now, Transfer.balanced_arrivals now id _,
      Transfer.told_arrivals now id _⟩
  | @pass node inLink agent hn hin hwaits =>
    have hx := within_crossing node (hc.mem_linkIds_of_mem_inLinks hn hin) now agent
    exact ⟨_, undergoes_pass hc hs hx hwaits now, Crossing.balanced_transfer now _,
      Crossing.told_transfer now _⟩

theorem undergoes_land (hc : l.Closed) (hs : s.Fits l) (agent : Agent) {x : Landing}
    (hx : x.Within l) (now : UInt32) :
    s.Undergoes l (x.transfer now agent) (s.land l now agent x) := by
  obtain ⟨hrecord, hcount, -⟩ := record_land hc s agent hx now
  -- Who is on a link does not depend on its mark.
  have hq {id : LinkId} (hid : id ∈ l.linkIds) :
      ((s.land l now agent x).queue id).agents = (x.fill agent id (s.queue id)).agents := by
    rw [← LinkQueue.agents_unmarked, queue_land hc hs agent hx hid, LinkQueue.agents_unmarked]
  refine ⟨⟨s.everyone l, .refl _, ?_⟩, ?_, ?_, ?_, ?_⟩
  · cases x with
    | refused error => exact .refl _
    | arrives => exact .refl _
    | waits id =>
      refine everyone_perm_of_taken hc hx [agent] ?_ fun other ho hne => ?_
      · rw [hq hx, Landing.fill, if_pos rfl]
        exact LinkQueue.agents_depart _ agent
      · rw [hq ho, Landing.fill, if_neg hne.symm]
    | enters id exitTime =>
      refine everyone_perm_of_taken hc hx [agent] ?_ fun other ho hne => ?_
      · rw [hq hx, Landing.fill, if_pos rfl]
        exact LinkQueue.agents_enter _ { exitTime, agent }
      · rw [hq ho, Landing.fill, if_neg hne.symm]
  · rw [hrecord]
    simp [Landing.transfer]
  · rw [hrecord]
    simp [Landing.transfer]
  · rw [hrecord]
    cases x <;> rfl
  · rw [hcount]
    cases x <;> simp [Landing.transfer, Landing.isIn, Landing.seat?]

theorem Vacant.everyone (h : s.Vacant l) : s.everyone l = [] := by
  refine List.flatMap_eq_nil_iff.2 fun id hid => ?_
  rw [h.queue id (mem_sortBy.1 hid)]
  rfl

theorem Emptied.undergoes_purge (h : s.Emptied l (s.record.lose now (s.everyone l)) t) :
    s.Undergoes l (.purge now (s.everyone l)) t := by
  obtain ⟨hpopulation, hevents, hhanded⟩ := Record.silent_iff.1 h.record
  refine ⟨⟨[], by simp [Transfer.purge], by simp [Transfer.purge, h.vacant.everyone]⟩, ?_, ?_, ?_,
    ?_⟩
  · simp [hevents, Record.lose, Transfer.purge]
  · simp [hhanded, Record.lose, Transfer.purge]
  · simp [hpopulation, Record.lose, Transfer.purge, List.filterMap_map, Function.comp_def]
  · simp [h.onNetwork, Transfer.purge]

theorem Emptied.undergoes_discard (h : s.Emptied l s.record t) :
    s.Undergoes l (.discard (s.everyone l)) t := by
  obtain ⟨hpopulation, hevents, hhanded⟩ := Record.silent_iff.1 h.record
  refine ⟨⟨[], by simp [Transfer.discard], by simp [Transfer.discard, h.vacant.everyone]⟩, ?_, ?_,
    hpopulation, ?_⟩
  · simp [hevents, Transfer.discard]
  · simp [hhanded, Transfer.discard]
  · simp [h.onNetwork, Transfer.discard]

/-! ## One person -/

/-- Where a person is on the network. -/
def seatsOf (l : Layout) (p : PersonId) (s : Loading) : List (LinkId × Agent) :=
  (s.everyone l).filter (·.2.id = p)

/-- The events of a person. -/
def eventsOf (p : PersonId) (s : Loading) : List Event :=
  s.record.events.toList.filter (·.person = p)

/-- How a person was handed over. -/
def handedOverOf (p : PersonId) (s : Loading) : List Agent :=
  s.record.handedOver.toList.filter (·.id = p)

variable {p : PersonId} {x : Transfer}

@[simp] theorem seatsOf_clearActive (l : Layout) (p : PersonId) (s : Loading) :
    s.clearActive.seatsOf l p = s.seatsOf l p := by
  rw [seatsOf, everyone_clearActive, seatsOf]

@[simp] theorem eventsOf_clearActive (p : PersonId) (s : Loading) :
    s.clearActive.eventsOf p = s.eventsOf p := rfl

@[simp] theorem handedOverOf_clearActive (p : PersonId) (s : Loading) :
    s.clearActive.handedOverOf p = s.handedOverOf p := rfl

namespace Undergoes

theorem eventsOf (h : s.Undergoes l x t) (p : PersonId) :
    t.eventsOf p = s.eventsOf p ++ x.events.filter (·.person = p) := by
  rw [Loading.eventsOf, h.events, List.filter_append, Loading.eventsOf]

theorem handedOverOf (h : s.Undergoes l x t) (p : PersonId) :
    t.handedOverOf p = s.handedOverOf p ++ x.handedOver.filter (·.id = p) := by
  rw [Loading.handedOverOf, h.handedOver, List.filter_append, Loading.handedOverOf]

theorem seatsOf (h : s.Undergoes l x t) (p : PersonId) :
    ∃ others, (s.seatsOf l p).Perm (x.off.filter (·.2.id = p) ++ others) ∧
      (t.seatsOf l p).Perm (x.on.filter (·.2.id = p) ++ others) := by
  obtain ⟨others, hbefore, hafter⟩ := h.agents
  refine ⟨others.filter (·.2.id = p), ?_, ?_⟩
  · rw [← List.filter_append]
    exact hbefore.filter _
  · rw [← List.filter_append]
    exact hafter.filter _

/-- Nothing changes for a person whom the transfer does not concern. -/
theorem untouched (h : s.Undergoes l x t) (htold : x.Told) (hp : p ∉ x.persons) :
    t.eventsOf p = s.eventsOf p ∧ (t.seatsOf l p).Perm (s.seatsOf l p) ∧
      t.handedOverOf p = s.handedOverOf p := by
  simp only [Transfer.persons, List.mem_append, not_or] at hp
  obtain ⟨⟨hoff, hon⟩, hover⟩ := hp
  -- What a transfer holds of a person who is not in it is nothing.
  have hnone {α : Type} {person : α → PersonId} {xs : List α} (hp : p ∉ xs.map person) :
      xs.filter (person · = p) = [] := by
    refine List.filter_eq_nil_iff.2 fun x hx he => hp ?_
    exact of_decide_eq_true he ▸ List.mem_map_of_mem hx
  refine ⟨?_, ?_, ?_⟩
  · have hevents : p ∉ x.events.map (·.person) := by
      intro hmem
      obtain ⟨e, he, rfl⟩ := List.mem_map.1 hmem
      have hpersons := htold.persons e he
      simp only [Transfer.persons, List.mem_append] at hpersons
      exact hpersons.elim (fun h => h.elim hoff hon) hover
    rw [h.eventsOf, hnone hevents, List.append_nil]
  · obtain ⟨others, hbefore, hafter⟩ := h.seatsOf p
    rw [hnone hoff] at hbefore
    rw [hnone hon] at hafter
    exact hafter.trans hbefore.symm
  · rw [h.handedOverOf, hnone hover, List.append_nil]

/-- Who leaves a link was there. -/
theorem mem_everyone (h : s.Undergoes l x t) {seat : LinkId × Agent} (hseat : seat ∈ x.off) :
    seat ∈ s.everyone l := by
  obtain ⟨others, hbefore, -⟩ := h.agents
  exact hbefore.mem_iff.2 (List.mem_append_left _ hseat)

end Undergoes

end Loading

end NetworkLoading
