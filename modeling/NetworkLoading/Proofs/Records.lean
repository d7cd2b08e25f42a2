import NetworkLoading.Proofs.Results
import NetworkLoading.Proofs.Runs

/-!
# The record is only written

Nothing that an engine does depends on what was recorded before. A call to an engine whose record
goes on from an earlier one is answered in the same way, moves the agents in the same way and adds
the same to the record.
-/

namespace NetworkLoading

/-! ## Records one after the other -/

/-- What was recorded in two parts of a loading. Whoever was lost in the second part is missing in
the population. -/
def Record.followedBy (past r : Record) : Record where
  population :=
    { living := past.population.living + r.population.living
      lost := past.population.lost + r.population.lost }
  events := past.events ++ r.events
  handedOver := past.handedOver ++ r.handedOver
  log := past.log ++ r.log

/-- A record of nothing. -/
def Record.blank : Record where
  population := { living := 0, lost := 0 }

theorem Record.followedBy_blank (past : Record) : past.followedBy .blank = past := by
  simp [followedBy, blank]

theorem Record.silent_followedBy (past r : Record) :
    (past.followedBy r).silent = past.silent.followedBy r.silent := by
  simp [followedBy, silent]

namespace Loading

variable {s : Loading} {supply : Supply} {now : UInt32} {past : Record}

/-- The state, if what it recorded goes on from an earlier record. -/
def after (past : Record) (s : Loading) : Loading :=
  { s with record := past.followedBy s.record }

/-- A result together with a state that goes on from an earlier record. -/
def result (past : Record) {α : Type} (x : α × Loading) : α × Loading :=
  (x.1, x.2.after past)

/-! ## What is recorded -/

@[simp] theorem traffic_after (past : Record) (s : Loading) : (s.after past).traffic = s.traffic :=
  rfl

@[simp] theorem queue_after (past : Record) (s : Loading) (id : LinkId) :
    (s.after past).queue id = s.queue id := rfl

@[simp] theorem nodeActive_after (past : Record) (s : Loading) (id : NodeId) :
    (s.after past).nodeActive id = s.nodeActive id := rfl

@[simp] theorem updateQueue_after (past : Record) (s : Loading) (id : LinkId)
    (f : LinkQueue → LinkQueue) :
    (s.after past).updateQueue id f = (s.updateQueue id f).after past := rfl

@[simp] theorem markNode_after (past : Record) (s : Loading) (id : NodeId) (active : Bool) :
    (s.after past).markNode id active = (s.markNode id active).after past := rfl

@[simp] theorem countIn_after (past : Record) (s : Loading) (count : Nat) :
    (s.after past).countIn count = (s.countIn count).after past := rfl

@[simp] theorem countOut_after (past : Record) (s : Loading) (count : Nat) :
    (s.after past).countOut count = (s.countOut count).after past := rfl

@[simp] theorem publish_after (past : Record) (s : Loading) (e : Event) :
    (s.after past).publish e = (s.publish e).after past := by
  simp [publish, after, Record.followedBy]

@[simp] theorem handOver_after (past : Record) (s : Loading) (agent : Agent) :
    (s.after past).handOver agent = (s.handOver agent).after past := by
  simp [handOver, after, Record.followedBy]

@[simp] theorem say_after (past : Record) (s : Loading) (line : LogLine) :
    (s.after past).say line = (s.say line).after past := by
  simp [say, after, Record.followedBy]

@[simp] theorem lose_after (past : Record) (s : Loading) :
    (s.after past).updatePopulation (·.lose) = (s.updatePopulation (·.lose)).after past := by
  have hliving : past.population.living + s.record.population.living - 1 =
      past.population.living + (s.record.population.living - 1) := by grind
  have hlost : past.population.lost + s.record.population.lost + 1 =
      past.population.lost + (s.record.population.lost + 1) := by grind
  simp only [updatePopulation, after, Record.followedBy, Population.lose, Population.incLost,
    Population.decLiving, hliving, hlost]

@[simp] theorem abort_after (past : Record) (s : Loading) (agent : Agent) (link : LinkId)
    (now : UInt32) : (s.after past).abort agent link now = (s.abort agent link now).after past := by
  simp only [abort, publish_after, lose_after, handOver_after]

/-! ## Links -/

theorem activateLink_after (past : Record) (s : Loading) (link : Link) :
    (s.after past).activateLink link = (s.activateLink link).map (result past) := by
  unfold activateLink
  rw [queue_after, traffic_after]
  by_cases h : (s.queue link.id).active
  · rw [if_pos h, if_pos h]
    rfl
  · rw [if_neg h, if_neg h]
    cases s.traffic.activeLinks.enqueue link.partition.toNat link.id <;> rfl

theorem activateNode_after (past : Record) (s : Loading) (node : Junction) :
    (s.after past).activateNode node = (s.activateNode node).map (result past) := by
  unfold activateNode
  rw [nodeActive_after, traffic_after]
  by_cases h : s.nodeActive node.id
  · rw [if_pos h, if_pos h]
    rfl
  · rw [if_neg h, if_neg h]
    cases s.traffic.activeNodes.enqueue node.partition.toNat node.id <;> rfl

theorem enterLink_after (past : Record) (s : Loading) (link : Link) (agent : Agent) :
    (s.after past).enterLink supply link agent now =
      (s.enterLink supply link agent now).map (result past) := by
  unfold enterLink
  cases supply.travelTimes.exitTime link now agent with
  | error error => rfl
  | ok exitTime =>
    simp only [publish_after, countIn_after, updateQueue_after, activateLink_after]
    exact map_map_of_comm fun _ => rfl

theorem departOn_after (past : Record) (s : Loading) (link : Link) (agent : Agent) :
    (s.after past).departOn link agent now = (s.departOn link agent now).map (after past) := by
  unfold departOn
  simp only [publish_after, countIn_after, updateQueue_after, activateLink_after]
  exact map_map_of_comm fun _ => rfl

theorem arriveAll_after (past : Record) (s : Loading) (agents : List Agent) :
    agents.foldl (fun s agent => s.arrive now agent) (s.after past) =
      (agents.foldl (fun (s : Loading) agent => s.arrive now agent) s).after past := by
  refine List.foldl_hom (after past) (fun s agent => ?_)
  rw [arrive, arrive, countOut_after, handOver_after]

theorem advanceLink_after (past : Record) (s : Loading) (link : Link) :
    (s.after past).advanceLink supply link now =
      (s.advanceLink supply link now).map (result past) := by
  unfold advanceLink
  simp only [queue_after, arriveAll_after, updateQueue_after, activateNode_after]
  split
  · rfl
  · cases supply.layout.junction link.toNode with
    | error fault => rfl
    | ok node => exact map_map_of_comm fun _ => rfl

theorem pull_after (past : Record) (s : Loading) (link : LinkId) :
    (s.after past).pull link now = result past (s.pull link now) := by
  unfold pull
  simp only [queue_after, updateQueue_after, countOut_after, publish_after]
  cases (s.queue link).toLeave <;> rfl

theorem visitLink_after (past : Record) (s : Loading) (id : LinkId) :
    (s.after past).visitLink supply now id = (s.visitLink supply now id).map (after past) := by
  unfold visitLink deactivateLink
  cases supply.layout.link id with
  | error fault => rfl
  | ok link =>
    simp only [Except.bind, updateQueue_after, advanceLink_after]
    refine bind_map_of_comm ?_
    rintro ⟨inTransit, t⟩
    simp only [result, activateLink_after]
    split
    · exact map_map_of_comm fun _ => rfl
    · rfl

/-! ## Nodes -/

theorem moveOver_after (past : Record) (s : Loading) (node : Junction) (inLink : LinkId)
    (agent : Agent) :
    (s.after past).moveOver supply node inLink agent now =
      (s.moveOver supply node inLink agent now).map (result past) := by
  unfold moveOver
  cases nextLink supply.layout node inLink agent with
  | error error =>
    simp only [say_after, abort_after]
    rfl
  | ok link =>
    simp only [enterLink_after]
    cases agent.moveTo link.id with
    | error fault _ => rfl
    | ok _ moved =>
      -- Entering the next link and the abort behind it add to the record and never read it.
      refine map_map_of_comm ?_
      rintro ⟨entered, t⟩
      cases entered with
      | ok _ => rfl
      | error rejected => exact congrArg (_, ·) (abort_after past t _ _ now)

theorem drain_after (past : Record) (s : Loading) (node : Junction) (inLink : LinkId)
    (count : Nat) :
    (s.after past).drain supply node inLink now count =
      (s.drain supply node inLink now count).map (result past) := by
  induction count generalizing s with
  | zero => rfl
  | succ count ih =>
    unfold drain
    -- Whom the link gives out does not depend on the record.
    rw [pull_after]
    obtain ⟨pulled, t⟩ := s.pull inLink now
    cases pulled with
    | none => rfl
    | some agent =>
      simp only [result, moveOver_after]
      refine bind_map_of_comm ?_
      rintro ⟨moved, u⟩
      cases moved with
      | error error => rfl
      | ok _ =>
        simp only [result, ih]
        exact map_map_of_comm fun _ => rfl

theorem drainAll_after (past : Record) (s : Loading) (node : Junction) (links : List LinkId) :
    (s.after past).drainAll supply node now links =
      (s.drainAll supply node now links).map (result past) := by
  induction links generalizing s with
  | nil => rfl
  | cons inLink rest ih =>
    unfold drainAll
    cases supply.layout.link inLink with
    | error fault => rfl
    | ok link =>
      simp only [Except.bind, queue_after, drain_after]
      refine bind_map_of_comm ?_
      rintro ⟨taken, t⟩
      cases taken with
      | error error => rfl
      | ok taken =>
        simp only [result, ih]
        exact map_map_of_comm fun _ => rfl

theorem visitNode_after (past : Record) (s : Loading) (id : NodeId) :
    (s.after past).visitNode supply now id = (s.visitNode supply now id).map (result past) := by
  unfold visitNode deactivateNode advanceNode
  cases supply.layout.junction id with
  | error fault => rfl
  | ok node =>
    simp only [Except.bind, markNode_after, drainAll_after]
    refine bind_map_of_comm ?_
    rintro ⟨moved, t⟩
    cases moved with
    | error error => rfl
    | ok moved =>
      simp only [result, activateNode_after]
      split
      · exact map_map_of_comm fun _ => rfl
      · rfl

theorem visitNodes_after (past : Record) (s : Loading) (ids : List NodeId) :
    (s.after past).visitNodes supply now ids = (s.visitNodes supply now ids).map (result past) := by
  induction ids generalizing s with
  | nil => rfl
  | cons id rest ih =>
    unfold visitNodes
    rw [visitNode_after]
    refine bind_map_of_comm ?_
    rintro ⟨moved, t⟩
    cases moved with
    | error error => rfl
    | ok moved =>
      simp only [result, ih]
      exact map_map_of_comm fun _ => rfl

/-! ## Sweeps -/

theorem visitLinks_after (past : Record) (s : Loading) (ids : List LinkId) :
    ids.foldlM (fun s id => s.visitLink supply now id) (s.after past) =
      (ids.foldlM (fun (s : Loading) id => s.visitLink supply now id) s).map (after past) := by
  induction ids generalizing s with
  | nil => rfl
  | cons id rest ih =>
    rw [List.foldlM_cons, List.foldlM_cons, visitLink_after]
    exact bind_map_of_comm fun t => ih t

theorem sweepLinks_after (past : Record) (s : Loading) (part : Nat) :
    (s.after past).sweepLinks supply part now =
      (s.sweepLinks supply part now).map (result past) := by
  unfold sweepLinks
  rw [traffic_after]
  cases s.traffic.activeLinks.take part with
  | error fault => rfl
  | ok taken =>
    obtain ⟨ids, activeLinks⟩ := taken
    have hvisits := @visitLinks_after supply now past
      { s with traffic := { s.traffic with activeLinks } } ids
    exact (congrArg (Except.map fun t => (ids.length, t)) hvisits).trans
      (map_map_of_comm fun _ => rfl)

theorem sweepNodes_after (past : Record) (s : Loading) (part : Nat) :
    (s.after past).sweepNodes supply part now =
      (s.sweepNodes supply part now).map (result past) := by
  unfold sweepNodes
  rw [traffic_after]
  cases s.traffic.activeNodes.take part with
  | error fault => rfl
  | ok taken =>
    obtain ⟨ids, activeNodes⟩ := taken
    have hvisits := @visitNodes_after supply now past
      { s with traffic := { s.traffic with activeNodes } } ids
    exact (congrArg (Except.map fun x : Outcome Nat =>
      (x.1.map fun agents => (ids.length, agents), x.2)) hvisits).trans
      (map_map_of_comm fun _ => rfl)

/-! ## Emptying the network -/

@[simp] theorem clearActive_after (past : Record) (s : Loading) :
    (s.after past).clearActive = s.clearActive.after past := rfl

theorem abortAll_after (past : Record) (s : Loading) (link : LinkId) (agents : List Agent) :
    agents.foldl (fun s agent => s.abort agent link now) (s.after past) =
      (agents.foldl (fun (s : Loading) agent => s.abort agent link now) s).after past :=
  List.foldl_hom (after past) fun s agent => abort_after past s agent link now

theorem clearLink_after (past : Record) (s : Loading) (link : LinkId) :
    (s.after past).clearLink link now = result past (s.clearLink link now) := by
  simp only [clearLink, queue_after, abortAll_after, countOut_after, updateQueue_after]
  rfl

theorem clearLinks_after (past : Record) (s : Loading) (links : List LinkId) (count : Nat) :
    links.foldl (fun (count, s) link =>
      let (cleared, s) := s.clearLink link now
      (count + cleared, s)) (count, s.after past) =
    result past (links.foldl (fun (count, (s : Loading)) link =>
      let (cleared, s) := s.clearLink link now
      (count + cleared, s)) (count, s)) := by
  induction links generalizing count s with
  | nil => rfl
  | cons link rest ih =>
    rw [List.foldl_cons, List.foldl_cons]
    simp only [clearLink_after, result]
    exact ih ..

theorem clear_after (past : Record) (s : Loading) :
    (s.after past).clear now = result past (s.clear now) :=
  congrArg (fun x : Nat × Loading => (x.1, x.2.clearActive)) (clearLinks_after past s s.occupied 0)

theorem drop_after (past : Record) (s : Loading) : (s.after past).drop = result past s.drop := rfl

end Loading

namespace Engine

open Loading

variable {engine : Engine} {now : UInt32} {past : Record}

/-! ## Calls -/

theorem depart_after (past : Record) (s : Loading) (agent : Agent) (link : LinkId) :
    engine.depart (s.after past) agent link now =
      (engine.depart s agent link now).map (result past) := by
  unfold depart
  cases engine.supply.layout.link? link with
  | none => rfl
  | some link =>
    dsimp only
    split
    · rfl
    · split
      · rw [handOver_after]
        rfl
      · rw [departOn_after]
        exact map_map_of_comm fun _ => rfl

theorem enter_after (past : Record) (s : Loading) (agent : Agent) (link : LinkId) :
    engine.enter (s.after past) agent link now =
      (engine.enter s agent link now).map (result past) := by
  unfold enter
  cases engine.supply.layout.link? link with
  | none => rfl
  | some link => exact enterLink_after past s link agent

theorem linkPhase_after (past : Record) (s : Loading) (parts : List Nat) :
    engine.linkPhase (s.after past) now parts =
      (engine.linkPhase s now parts).map (result past) := by
  induction parts generalizing s with
  | nil => rfl
  | cons part rest ih =>
    unfold linkPhase
    rw [sweepLinks_after]
    refine bind_map_of_comm ?_
    rintro ⟨links, t⟩
    simp only [result, ih]
    exact map_map_of_comm fun _ => rfl

theorem nodePhase_after (past : Record) (s : Loading) (parts : List Nat) :
    engine.nodePhase (s.after past) now parts =
      (engine.nodePhase s now parts).map (result past) := by
  induction parts generalizing s with
  | nil => rfl
  | cons part rest ih =>
    unfold nodePhase
    rw [sweepNodes_after]
    refine bind_map_of_comm ?_
    rintro ⟨moved, t⟩
    simp only [result, ih]
    exact map_map_of_comm fun _ => rfl

theorem stepInOrder_after (past : Record) (s : Loading) (forLinks forNodes : List Nat) :
    engine.stepInOrder (s.after past) now forLinks forNodes =
      (engine.stepInOrder s now forLinks forNodes).map (result past) := by
  unfold stepInOrder
  rw [linkPhase_after]
  refine bind_map_of_comm ?_
  rintro ⟨links, t⟩
  simp only [result, nodePhase_after]
  exact map_map_of_comm fun _ => rfl

theorem reset_after (past : Record) (s : Loading) :
    reset (s.after past) = (reset s).after past := by
  unfold reset
  rw [drop_after]
  simp only [result, say_after]
  exact (apply_ite (after past) _ _ _).symm

/-- A run ends with the network being cleared and with messages. -/
theorem finish_eq_clear (s : Loading) (now : UInt32) :
    ∃ t, finish s now = ((s.clear now).1, t) ∧ t.traffic = (s.clear now).2.traffic ∧
      t.record.silent = (s.clear now).2.record.silent := by
  unfold finish
  dsimp only
  split
  · exact ⟨_, rfl, by rw [traffic_say, traffic_say], by rw [silent_say, silent_say]⟩
  · exact ⟨_, rfl, by rw [traffic_say], by rw [silent_say]⟩

/-- What is answered to a call, where it leads and what it adds to the record do not depend on what
was recorded before, apart from the messages. -/
theorem perform_after (past : Record) {orders : Orders} {s t : Loading} {call : Call}
    {answer : Answer} (h : engine.perform orders s call = .ok (answer, t)) :
    ∃ u, engine.perform orders (s.after past) call = .ok (answer, u) ∧ u.traffic = t.traffic ∧
      u.record.silent = (past.followedBy t.record).silent := by
  cases call with
  | depart agent link now =>
    obtain ⟨⟨result, u⟩, hu, he⟩ := exists_of_map_eq_ok h
    cases he
    exact ⟨t.after past, by simp only [perform, depart_after, hu]; rfl, rfl, rfl⟩
  | enter agent link now =>
    obtain ⟨⟨result, u⟩, hu, he⟩ := exists_of_map_eq_ok h
    cases he
    exact ⟨t.after past, by simp only [perform, enter_after, hu]; rfl, rfl, rfl⟩
  | step now =>
    obtain ⟨⟨result, u⟩, hu, he⟩ := exists_of_map_eq_ok h
    cases he
    exact ⟨t.after past, by simp only [perform, stepInOrder_after, hu]; rfl, rfl, rfl⟩
  | finish now =>
    -- The message at the end tells the population, so it does depend on what was before.
    obtain ⟨v, hv, htraffic, hrecord⟩ := finish_eq_clear s now
    obtain ⟨u, hu, htraffic', hrecord'⟩ := finish_eq_clear (s.after past) now
    simp only [clear_after, result] at hu htraffic' hrecord'
    simp only [perform, hv] at h
    cases h
    refine ⟨u, by simp only [perform, hu], htraffic'.trans htraffic.symm, ?_⟩
    rw [hrecord', Record.silent_followedBy, hrecord, ← Record.silent_followedBy]
    rfl
  | reset =>
    cases h
    exact ⟨(reset s).after past, by simp only [perform, reset_after], rfl, rfl⟩

end Engine

end NetworkLoading
