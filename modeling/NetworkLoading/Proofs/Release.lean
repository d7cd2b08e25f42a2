import NetworkLoading.Proofs.Turnover

/-!
# When agents leave their links

An agent in transit leaves its link in the first time step which is not earlier than its exit time,
and an agent who ended an activity in the next one. Nobody is moved over more than one node in a
step. Time steps may come in any order.
-/

namespace NetworkLoading

/-! ## Landings -/

namespace Landing

variable {x : Landing} {agent : Agent} {link : LinkId} {q : LinkQueue}

theorem mem_inTransit_fill {v : Traveller} : v ∈ (x.fill agent link q).inTransit ↔
    v ∈ q.inTransit ∨ x = .enters link v.exitTime ∧ v.agent = agent := by
  cases x with
  | refused error => simp [fill]
  | arrives => simp [fill]
  | waits id => by_cases hid : id = link <;> simp [fill, hid, LinkQueue.depart]
  | enters id exitTime =>
    by_cases hid : id = link
    · simp only [fill, if_pos hid, LinkQueue.enter, (LinkQueue.insertTraveller_perm _ _).mem_iff]
      cases v
      simp [hid, eq_comm, or_comm]
    · simp [fill, hid]

theorem mem_afterActivity_fill {other : Agent} : other ∈ (x.fill agent link q).afterActivity ↔
    other ∈ q.afterActivity ∨ x = .waits link ∧ other = agent := by
  cases x with
  | refused error => simp [fill]
  | arrives => simp [fill]
  | waits id => by_cases hid : id = link <;> simp [fill, hid, LinkQueue.depart]
  | enters id exitTime => by_cases hid : id = link <;> simp [fill, hid, LinkQueue.enter]

theorem entered_mem_events {now since : UInt32} {p : PersonId} :
    Event.entered since link p ∈ x.events now agent ↔
      since = now ∧ p = agent.id ∧ ∃ exitTime, x = .enters link exitTime := by
  cases x <;> simp [events, eq_comm]
  tauto

theorem length_events_le (now : UInt32) (agent : Agent) (x : Landing) :
    (x.events now agent).length ≤ 1 := by
  cases x <;> simp [events]

end Landing

namespace Loading

variable {l : Layout} {s : Loading} {x : Landing} {id : LinkId} {now : UInt32}

/-- In transit after a landing are those who were before, and the agent if it entered a link. -/
theorem mem_inTransit_land (hc : l.Closed) (hs : s.Fits l) (agent : Agent) (hx : x.Within l)
    (hid : id ∈ l.linkIds) (now : UInt32) {v : Traveller} :
    v ∈ ((s.land l now agent x).queue id).inTransit ↔
      v ∈ (s.queue id).inTransit ∨ x = .enters id v.exitTime ∧ v.agent = agent := by
  rw [← LinkQueue.inTransit_unmarked, queue_land hc hs agent hx hid, LinkQueue.inTransit_unmarked,
    Landing.mem_inTransit_fill]

theorem mem_afterActivity_land (hc : l.Closed) (hs : s.Fits l) (agent : Agent) (hx : x.Within l)
    (hid : id ∈ l.linkIds) (now : UInt32) {other : Agent} :
    other ∈ ((s.land l now agent x).queue id).afterActivity ↔
      other ∈ (s.queue id).afterActivity ∨ x = .waits id ∧ other = agent := by
  rw [← LinkQueue.afterActivity_unmarked, queue_land hc hs agent hx hid,
    LinkQueue.afterActivity_unmarked, Landing.mem_afterActivity_fill]

end Loading

/-! ## Calls which succeed -/

namespace Engine

variable {engine : Engine} {agent : Agent} {id link : LinkId} {now exitTime : UInt32}

/-- Who departs is not in transit. -/
theorem departing_ne_enters : engine.departing agent id ≠ .enters link exitTime := by
  unfold departing
  split
  · nofun
  · split
    · nofun
    · split <;> nofun

theorem entering_timed (h : engine.entering agent id now = .enters link exitTime) :
    (⟨exitTime, agent⟩ : Traveller).Timed engine.supply now link := by
  unfold entering at h
  split at h
  · cases h
  · rename_i road hroad
    split at h
    · cases h
    · rename_i time htime
      cases h
      exact ⟨road, (Loading.mem_links_of_link? hroad).1, rfl, htime⟩

/-- Whoever is put into transit by a call has the exit time which is told then. -/
theorem Lands.timed {call : Call} {answer : Answer}
    (h : engine.Lands agent now (.enters link exitTime) call answer) :
    (⟨exitTime, agent⟩ : Traveller).Timed engine.supply now link := by
  generalize hx : Landing.enters link exitTime = x at h
  cases h with
  | depart id => exact absurd hx.symm departing_ne_enters
  | enter id => exact entering_timed hx.symm

end Engine

/-- Whether a call puts an agent onto the network, or is a step which does not fail. -/
def Stage.smooth (x : Stage) : Bool :=
  match x.call with
  | .depart .. | .enter .. => true
  | .step _ => !x.answer.failed
  | .finish _ | .reset => false

/-- What such a call does. -/
inductive Engine.Succeeds (engine : Engine) (s : Loading) : Call → Answer → Loading → Prop
  | land {agent : Agent} {now : UInt32} {x : Landing} {call : Call} {answer : Answer}
      (h : engine.Lands agent now x call answer) :
      Succeeds engine s call answer (s.land engine.supply.layout now agent x)
  | step {now : UInt32} {orders : Orders} {stats : StepStats} {t : Loading}
      (ho : orders.Whole engine.supply.layout)
      (h : s.Stepped engine now orders.forLinks orders.forNodes stats t) :
      Succeeds engine s (.step now) (.stepped (.ok stats)) t

theorem Loading.Settled.succeeds {engine : Engine} {s t : Loading} {orders : Orders} {call : Call}
    {answer : Answer} (hc : engine.supply.layout.Closed) (hs : s.Settled engine.supply.layout)
    (ho : orders.Whole engine.supply.layout) (h : engine.perform orders s call = .ok (answer, t))
    (hsmooth : Stage.smooth ⟨s, call, answer, t⟩ = true) : engine.Succeeds s call answer t := by
  cases hs.sound.performs hc ho h with
  | land hlands => exact .land hlands
  | @step now stats _ _ =>
    obtain ⟨_, _, ht, -, -, hok⟩ := hs.stepInOrder hc ho.forLinks ho.forNodes now
    simp only [Engine.perform, ht, Except.map] at h
    cases h
    cases stats with
    | error error => cases hsmooth
    | ok counts => exact .step ho (hok counts rfl)
  | finish _ => cases hsmooth
  | reset _ => cases hsmooth

namespace Engine.Succeeds

variable {engine : Engine} {s t : Loading} {call : Call} {answer : Answer}

theorem settled (hc : engine.supply.layout.Closed) (hs : s.Settled engine.supply.layout)
    (h : engine.Succeeds s call answer t) : t.Settled engine.supply.layout := by
  cases h with
  | land hlands => exact hs.land hc _ hlands.within _
  | step _ hstep => exact hstep.settled

/-- Whoever is told to enter a link is in transit there after the call. -/
theorem exists_of_entered (hc : engine.supply.layout.Closed) (hs : s.Settled engine.supply.layout)
    (h : engine.Succeeds s call answer t) {since : UInt32} {link : LinkId} {p : PersonId}
    (hentered : Event.entered since link p ∈ Stage.events ⟨s, call, answer, t⟩) :
    ∃ v ∈ (t.queue link).inTransit, v.agent.id = p ∧ v.Timed engine.supply since link := by
  cases h with
  | @land agent now x _ _ hlands =>
    have hwithin := hlands.within
    rw [Stage.events_eq (Loading.undergoes_land hc hs.fits agent hwithin now).events] at hentered
    obtain ⟨rfl, rfl, exitTime, rfl⟩ := Landing.entered_mem_events.1 hentered
    exact ⟨⟨exitTime, agent⟩, (Loading.mem_inTransit_land hc hs.fits agent hwithin hwithin since).2
      (.inr ⟨rfl, rfl⟩), rfl, hlands.timed⟩
  | step ho hstep =>
    rw [Stage.events_eq (hstep.events hc hs ho.forLinks)] at hentered
    exact hstep.exists_of_entered hc hs ho.forLinks hentered

/-- Whoever is in transit after a call was there before, or entered the link in the call. -/
theorem entered_of_mem (hc : engine.supply.layout.Closed) (hs : s.Settled engine.supply.layout)
    (h : engine.Succeeds s call answer t) {link : LinkId}
    (hlink : link ∈ engine.supply.layout.linkIds) {v : Traveller}
    (hv : v ∈ (t.queue link).inTransit) :
    v ∈ (s.queue link).inTransit ∨ ∃ since, v.Timed engine.supply since link ∧
      Event.entered since link v.agent.id ∈ Stage.events ⟨s, call, answer, t⟩ := by
  cases h with
  | @land agent now x _ _ hlands =>
    have hwithin := hlands.within
    rw [Stage.events_eq (Loading.undergoes_land hc hs.fits agent hwithin now).events]
    refine ((Loading.mem_inTransit_land hc hs.fits agent hwithin hlink now).1 hv).imp_right ?_
    rintro ⟨rfl, rfl⟩
    exact ⟨now, hlands.timed, Landing.entered_mem_events.2 ⟨rfl, rfl, v.exitTime, rfl⟩⟩
  | step ho hstep =>
    rw [Stage.events_eq (hstep.events hc hs ho.forLinks)]
    exact (hstep.entered_of_mem hc hs ho.forLinks hlink hv).imp_right fun h => ⟨_, h⟩

/-- No call publishes two events of one kind about a person. -/
theorem countP_events (hc : engine.supply.layout.Closed) (hs : s.Settled engine.supply.layout)
    (hdistinct : s.Distinct engine.supply.layout) (h : engine.Succeeds s call answer t)
    (p : PersonId) (kind : EventKind) :
    ((Stage.events ⟨s, call, answer, t⟩).filter (·.person = p)).countP (·.kind = kind) ≤ 1 := by
  cases h with
  | @land agent now x _ _ hlands =>
    rw [Stage.events_eq (Loading.undergoes_land hc hs.fits agent hlands.within now).events]
    calc (((x.events now agent).filter (·.person = p)).countP (·.kind = kind))
        ≤ ((x.events now agent).filter (·.person = p)).length := List.countP_le_length
      _ ≤ (x.events now agent).length := List.length_filter_le ..
      _ ≤ 1 := Landing.length_events_le now agent x
  | @step now orders _ _ ho hstep =>
    rw [Stage.events_eq (hstep.events hc hs ho.forLinks)]
    exact (hdistinct.drive hc hs.fits now orders.forLinks).countP_events_allMoves hc ho.forNodes
      now p kind

end Engine.Succeeds

/-- Who departs onto the network waits on the link. -/
theorem Engine.Performs.mem_afterActivity {engine : Engine} {s t : Loading} {agent : Agent}
    {link : LinkId} {now : UInt32} (hc : engine.supply.layout.Closed)
    (hs : s.Fits engine.supply.layout)
    (h : engine.Performs s (.depart agent link now) (.departed (.ok true)) t) :
    link ∈ engine.supply.layout.linkIds ∧ agent ∈ (t.queue link).afterActivity := by
  generalize hanswer : Answer.departed (.ok true) = answer at h
  cases h with
  | land hlands =>
    have hwithin := hlands.within
    cases hlands
    obtain ⟨hwaits, -⟩ := Loading.departing_eq_waits (Answer.departed.inj hanswer).symm
    rw [hwaits] at hwithin ⊢
    exact ⟨hwithin, (Loading.mem_afterActivity_land hc hs agent hwithin hwithin now).2
      (.inr ⟨rfl, rfl⟩)⟩

/-! ## Agents who are released -/

/-- An agent is taken from a link: it arrives there, or the link is left. -/
def Stage.Releases (x : Stage) (now : UInt32) (link : LinkId) (agent : Agent) : Prop :=
  agent ∉ (x.after.queue link).agents ∧
    if agent.endsOn link then agent.arrive now ∈ x.handedOver
    else Event.left now link agent.id ∈ x.events

namespace Loading.Stepped

variable {engine : Engine} {s t : Loading} {now : UInt32} {orders : Orders} {stats : StepStats}
  {id : LinkId}

/-- A step releases whoever is in transit and due. -/
theorem releases (hc : engine.supply.layout.Closed) (hs : s.Settled engine.supply.layout)
    (hdistinct : s.Distinct engine.supply.layout) (ho : orders.Whole engine.supply.layout)
    (h : s.Stepped engine now orders.forLinks orders.forNodes stats t)
    (hid : id ∈ engine.supply.layout.linkIds) {v : Traveller} (hv : v ∈ (s.queue id).inTransit)
    (hdue : v.exitTime ≤ now) :
    Stage.Releases ⟨s, .step now, .stepped (.ok stats), t⟩ now id v.agent := by
  refine ⟨h.not_mem_agents hc hs hdistinct ho.forLinks hid ?_ ?_, ?_⟩
  · exact List.mem_append_left _ (List.mem_append_left _ (List.mem_map_of_mem hv))
  · -- Nobody else has this id.
    intro w hw he
    have hsame := List.inj_on_of_nodup_map (hdistinct.nodup_inTransit hid) hw hv
      (congrArg Agent.id he)
    exact hsame ▸ hdue
  · have hreleased := released_of_due hc hs ho.forLinks ho.forNodes hid hv hdue
    have hover := h.handedOver hc hs ho.forLinks
    rw [List.append_assoc] at hover
    rw [Stage.events_eq (h.events hc hs ho.forLinks), Stage.handedOver_eq hover]
    split
    · rename_i hends
      rw [if_pos hends] at hreleased
      exact List.mem_append_left _ (List.mem_map_of_mem hreleased)
    · rename_i hgoes
      rw [if_neg hgoes] at hreleased
      exact hreleased

/-- Whoever ended an activity leaves its link in a step. -/
theorem leaves (hc : engine.supply.layout.Closed) (hs : s.Settled engine.supply.layout)
    (hdistinct : s.Distinct engine.supply.layout) (ho : orders.Whole engine.supply.layout)
    (h : s.Stepped engine now orders.forLinks orders.forNodes stats t)
    (hid : id ∈ engine.supply.layout.linkIds) {agent : Agent}
    (hagent : agent ∈ (s.queue id).afterActivity) :
    agent ∉ (t.queue id).agents ∧
      Event.left now id agent.id ∈ Stage.events ⟨s, .step now, .stepped (.ok stats), t⟩ := by
  refine ⟨h.not_mem_agents hc hs hdistinct ho.forLinks hid ?_ ?_, ?_⟩
  · exact List.mem_append_left _ (List.mem_append_right _ hagent)
  · -- Nobody of this id is in transit.
    intro w hw he
    have hall := hdistinct.nodup_agents hid
    simp only [LinkQueue.agents, List.map_append, List.map_map] at hall
    have hapart := (List.nodup_append.1 (List.nodup_append.1 hall).1).2.2
    exact absurd (congrArg Agent.id he)
      (hapart _ (List.mem_map_of_mem hw) _ (List.mem_map_of_mem hagent))
  · rw [Stage.events_eq (h.events hc hs ho.forLinks)]
    exact left_of_afterActivity hc hs ho.forLinks ho.forNodes hid hagent now

end Loading.Stepped

/-! ## Agents who wait for a step -/

/-- In all calls that follow a place is kept, until the first step which is due; this one releases
it. -/
inductive HeldUntil (due : UInt32 → Prop) (place : Loading → Prop)
    (release : UInt32 → Stage → Prop) : List Stage → Prop
  | nil : HeldUntil due place release []
  | keeps {x : Stage} {rest : List Stage} (hcall : ∀ now, x.call = .step now → ¬ due now)
      (hplace : place x.after) (hrest : HeldUntil due place release rest) :
      HeldUntil due place release (x :: rest)
  | releases {x : Stage} {rest : List Stage} {now : UInt32} (hcall : x.call = .step now)
      (hdue : due now) (hrelease : release now x) : HeldUntil due place release (x :: rest)

namespace Engine.Runs

variable {engine : Engine} {s t u : Loading} {accepted dropped : List PersonId}
  {stages later : List Stage}

/-- A place which landings and early steps keep, and which a step that is due releases, is held
until then. -/
theorem heldUntil (hc : engine.supply.layout.Closed) {due : UInt32 → Prop} {place : Loading → Prop}
    {release : UInt32 → Stage → Prop}
    (hland : ∀ s agent x now, s.Settled engine.supply.layout → x.Within engine.supply.layout →
      place s → place (s.land engine.supply.layout now agent x))
    (hearly : ∀ s now (orders : Orders) stats t, s.Settled engine.supply.layout →
      orders.Whole engine.supply.layout →
      s.Stepped engine now orders.forLinks orders.forNodes stats t → ¬ due now → place s → place t)
    (hdue : ∀ s now (orders : Orders) stats t, s.Settled engine.supply.layout →
      s.Distinct engine.supply.layout → orders.Whole engine.supply.layout →
      s.Stepped engine now orders.forLinks orders.forNodes stats t → due now → place s →
      release now ⟨s, .step now, .stepped (.ok stats), t⟩)
    (h : engine.Runs s later u) (hs : s.Settled engine.supply.layout)
    (hsmooth : ∀ x ∈ later, x.smooth = true)
    (hbalances : s.Balances engine.supply.layout accepted dropped)
    (hids : (accepted ++ later.flatMap (·.accepted)).Nodup) (hplace : place s) :
    HeldUntil due place release later := by
  induction later generalizing s accepted dropped with
  | nil => exact .nil
  | cons x rest ih =>
    obtain ⟨before, call, answer, t⟩ := x
    obtain ⟨hbefore, ⟨orders, ho, hcall⟩, hrest⟩ := h.head
    obtain rfl : before = s := hbefore
    dsimp only at hcall hrest
    obtain ⟨hfirst, hlater⟩ := List.forall_mem_cons.1 hsmooth
    have hsucceeds := hs.succeeds hc ho hcall hfirst
    -- Whoever the call accepts is counted with those before, so that ids stay distinct.
    have hgoes : place t → HeldUntil due place release rest := by
      refine ih hrest (hsucceeds.settled hc hs) hlater
        (hbalances.performs hc hs.sound (hs.sound.performs hc ho hcall)) ?_
      rwa [List.append_assoc, ← List.flatMap_cons]
    have hdistinct := hbalances.distinct (List.nodup_append.1 hids).1
    cases hsucceeds with
    | @land agent now x _ _ hlands =>
      have hkept := hland before agent x now hs hlands.within hplace
      refine .keeps (fun now he => ?_) hkept (hgoes hkept)
      cases hlands <;> cases he
    | @step now orders stats _ ho hstep =>
      by_cases hnow : due now
      · exact .releases rfl hnow (hdue before now orders stats t hs hdistinct ho hstep hnow hplace)
      · have hkept := hearly before now orders stats t hs ho hstep hnow hplace
        refine .keeps (fun other he => ?_) hkept (hgoes hkept)
        cases he
        exact hnow

/-- Who is in transit stays there until it is due, and is taken from the link then. -/
theorem heldUntil_inTransit (hc : engine.supply.layout.Closed) (h : engine.Runs s later u)
    (hs : s.Settled engine.supply.layout) (hsmooth : ∀ x ∈ later, x.smooth = true)
    (hbalances : s.Balances engine.supply.layout accepted dropped)
    (hids : (accepted ++ later.flatMap (·.accepted)).Nodup) {id : LinkId}
    (hid : id ∈ engine.supply.layout.linkIds) {v : Traveller} (hv : v ∈ (s.queue id).inTransit) :
    HeldUntil (v.exitTime ≤ ·) (fun s => v ∈ (s.queue id).inTransit)
      (fun now x => x.Releases now id v.agent) later := by
  refine heldUntil hc ?_ ?_ ?_ h hs hsmooth hbalances hids hv
  · intro s agent x now hs hx hv
    exact (Loading.mem_inTransit_land hc hs.fits agent hx hid now).2 (.inl hv)
  · intro s now orders stats t hs ho hstep hearly hv
    exact (hstep.mem_inTransit hc hs ho.forLinks hid).2 (.inl ⟨hv, UInt32.not_le.1 hearly⟩)
  · intro s now orders stats t hs hdistinct ho hstep hdue hv
    exact hstep.releases hc hs hdistinct ho hid hv hdue

/-- Who ended an activity waits for the next step and leaves the link in it. -/
theorem heldUntil_afterActivity (hc : engine.supply.layout.Closed) (h : engine.Runs s later u)
    (hs : s.Settled engine.supply.layout) (hsmooth : ∀ x ∈ later, x.smooth = true)
    (hbalances : s.Balances engine.supply.layout accepted dropped)
    (hids : (accepted ++ later.flatMap (·.accepted)).Nodup) {id : LinkId}
    (hid : id ∈ engine.supply.layout.linkIds) {agent : Agent}
    (hagent : agent ∈ (s.queue id).afterActivity) :
    HeldUntil (fun _ => True) (fun s => agent ∈ (s.queue id).afterActivity)
      (fun now x => agent ∉ (x.after.queue id).agents ∧ Event.left now id agent.id ∈ x.events)
      later := by
  refine heldUntil hc ?_ ?_ ?_ h hs hsmooth hbalances hids hagent
  · intro s other x now hs hx hagent
    exact (Loading.mem_afterActivity_land hc hs.fits other hx hid now).2 (.inl hagent)
  · intro s now orders stats t hs ho hstep hnever hagent
    exact absurd trivial hnever
  · intro s now orders stats t hs hdistinct ho hstep _ hagent
    exact hstep.leaves hc hs hdistinct ho hid hagent

/-- Calls which succeed leave no agent to wait for a node. -/
theorem settled (hc : engine.supply.layout.Closed) (h : engine.Runs s stages t)
    (hs : s.Settled engine.supply.layout) (hsmooth : ∀ x ∈ stages, x.smooth = true) :
    t.Settled engine.supply.layout := by
  induction h with
  | start => exact hs
  | call _ ho hcall ih =>
    obtain ⟨hearlier, hlast⟩ := List.forall_mem_append.1 hsmooth
    have hbefore := ih hearlier
    exact (hbefore.succeeds hc ho hcall (hlast _ List.mem_cons_self)).settled hc hbefore

end Engine.Runs

/-! ## Runs without failures -/

/-- Who is put into transit by a call, and when those who are on links after it leave them. -/
structure Stage.Punctual (supply : Supply) (x : Stage) (later : List Stage) : Prop where
  /-- Whoever enters a link is in transit there, and its exit time is told then. -/
  entered : ∀ since link p, Event.entered since link p ∈ x.events →
    ∃ v ∈ (x.after.queue link).inTransit, v.agent.id = p ∧ v.Timed supply since link
  /-- Nobody else is put into transit, and no exit time changes. -/
  timed : ∀ link ∈ supply.layout.linkIds, ∀ v ∈ (x.after.queue link).inTransit,
    v ∈ (x.before.queue link).inTransit ∨
      ∃ since, v.Timed supply since link ∧ Event.entered since link v.agent.id ∈ x.events
  /-- Whoever is in transit stays there until the first step which is not earlier than its exit
  time. In this one it arrives or leaves the link. -/
  inTransit : ∀ link ∈ supply.layout.linkIds, ∀ v ∈ (x.after.queue link).inTransit,
    HeldUntil (v.exitTime ≤ ·) (fun s => v ∈ (s.queue link).inTransit)
      (fun now stage => stage.Releases now link v.agent) later
  /-- Who departs onto the network leaves its link in the next step. -/
  departed : ∀ agent link since, x.call = .depart agent link since →
    x.answer = .departed (.ok true) → agent ∈ (x.after.queue link).afterActivity ∧
      HeldUntil (fun _ => True) (fun s => agent ∈ (s.queue link).afterActivity)
        (fun now stage => agent ∉ (stage.after.queue link).agents ∧
          Event.left now link agent.id ∈ stage.events) later
  /-- No person leaves two links in one step, or enters two. -/
  once : ∀ p kind, (x.events.filter (·.person = p)).countP (·.kind = kind) ≤ 1

namespace Engine.Runs

variable {engine : Engine} {population : Population} {early later : List Stage} {t : Loading}

/-- In every run of injections and steps, none of which fails, and in which no two agents share an
id, agents leave their links on time, whatever the times of the steps are. -/
theorem punctual (hb : engine.Constructed) {x : Stage}
    (h : engine.Runs (.empty engine.supply.layout population) (early ++ x :: later) t)
    (hsmooth : ∀ stage ∈ early ++ x :: later, stage.smooth = true)
    (hids : ((early ++ x :: later).flatMap (·.accepted)).Nodup) :
    x.Punctual engine.supply later := by
  have hc := hb.closed
  obtain ⟨s, hearly, hrest⟩ := h.split
  obtain ⟨before, call, answer, after⟩ := x
  obtain ⟨hbefore, ⟨orders, ho, hcall⟩, hlater⟩ := hrest.head
  obtain rfl : before = s := hbefore
  dsimp only at hcall hlater
  obtain ⟨hsmoothEarly, hsmoothRest⟩ := List.forall_mem_append.1 hsmooth
  obtain ⟨hsmoothNow, hsmoothLater⟩ := List.forall_mem_cons.1 hsmoothRest
  -- The calls before `x` lead to a state from which all calls that follow can be traced.
  have hs := hearly.settled hc (Loading.vacant_empty _ _).settled hsmoothEarly
  have hperforms := hs.sound.performs hc ho hcall
  have hsucceeds := hs.succeeds hc ho hcall hsmoothNow
  have hafter := hsucceeds.settled hc hs
  have hbefore := hearly.balances hc
  have hbalances := hbefore.performs hc hs.sound hperforms
  rw [List.flatMap_append, List.flatMap_cons, ← List.append_assoc] at hids
  refine ⟨fun since link p => hsucceeds.exists_of_entered hc hs,
    fun link hlink v => hsucceeds.entered_of_mem hc hs hlink,
    fun link hlink v => hlater.heldUntil_inTransit hc hafter hsmoothLater hbalances hids hlink,
    ?_, hsucceeds.countP_events hc hs (hbefore.distinct ?_)⟩
  · rintro agent link since rfl rfl
    obtain ⟨hlink, hwaits⟩ := hperforms.mem_afterActivity hc hs.fits
    exact ⟨hwaits, hlater.heldUntil_afterActivity hc hafter hsmoothLater hbalances hids hlink
      hwaits⟩
  · exact (List.nodup_append.1 (List.nodup_append.1 hids).1).1

/-- A cyclist enters its second link in a step at 6 and has to stay there until 16. Another one, who
was put onto this link at 7, is due at 17, and leaves it in the step at 20. -/
theorem punctual_mixed : ∃ early x later t,
    Sample.mixedEngine.Runs (.empty Sample.mixedEngine.supply.layout ⟨2, 0⟩)
      (early ++ x :: later) t ∧
    x.events = [.left 6 Sample.lane Sample.ann, .entered 6 Sample.track Sample.ann] ∧
    (x.after.queue Sample.track).inTransit = [⟨16, (Sample.cyclist Sample.ann).proceed⟩] ∧
    later.map (·.events) = [[.entered 7 Sample.track Sample.ben], [], [],
      [.left 20 Sample.track Sample.ben, .entered 20 Sample.lane Sample.ben]] ∧
    later.map (·.handedOver) = [[], [], [(Sample.cyclist Sample.ann).proceed.arrive 16], []] ∧
    x.Punctual Sample.mixedEngine.supply later := by
  have hwhole := Orders.whole_ascending Sample.mixedEngine.supply.layout
  have h : Sample.mixedEngine.Runs (.empty Sample.mixedEngine.supply.layout ⟨2, 0⟩)
      ([⟨_, .depart (Sample.cyclist Sample.ann) Sample.lane 5, _, _⟩] ++ ⟨_, .step 6, _, _⟩ ::
        [⟨_, .enter { Sample.driver Sample.ben with mode := Sample.bike } Sample.track 7, _, _⟩,
          ⟨_, .step 3, _, _⟩, ⟨_, .step 16, _, _⟩, ⟨_, .step 20, _, _⟩]) _ :=
    .call (.call (.call (.call (.call (.call .start hwhole rfl) hwhole rfl) hwhole rfl) hwhole rfl)
      hwhole rfl) hwhole rfl
  refine ⟨_, _, _, _, h, rfl, rfl, rfl, rfl, punctual Sample.constructed_mixedEngine h ?_ ?_⟩
  · simp only [List.cons_append, List.nil_append, List.forall_mem_cons]
    exact ⟨rfl, rfl, rfl, rfl, rfl, rfl, List.forall_mem_nil _⟩
  · decide

end Engine.Runs

end NetworkLoading
