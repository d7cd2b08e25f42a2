import NetworkLoading.Proofs.Journeys
import NetworkLoading.Proofs.Release
import NetworkLoading.Proofs.Scenario

/-!
# Agents on connected routes

As long as every agent who departs has a connected route of loaded links and a mode with a rule, no
departure is turned down, and no step that succeeds takes anybody off the network who has not
arrived. Whoever leaves a link then enters the next one.
-/

namespace NetworkLoading

theorem Crossing.events_of_onto {x : Crossing} {link : LinkId} {exitTime : UInt32}
    (h : x.turn = .onto link exitTime) (now : UInt32) :
    x.events now = [.left now x.inLink x.agent.id, .entered now link x.agent.id] ∧
      x.ousted? now = none := by
  simp [events, ousted?, h]

namespace Loading

variable {l : Layout} {s t : Loading} {now : UInt32} {supply : Supply} {engine : Engine}

/-! ## Who crosses a node -/

/-- Everyone on the network is on the link at its position of a connected route. -/
def OnCourse (l : Layout) (s : Loading) : Prop :=
  ∀ seat ∈ s.everyone l, seat.2.current? = some seat.1 ∧ Connected l.links seat.2.route

/-- The link after the one at the position of a connected route starts where that one ends. -/
theorem joined_of_connected {agent : Agent} (h : Connected l.links agent.route) {a b : LinkId}
    (ha : agent.current? = some a) (hb : agent.next? = some b) : l.Joined a b := by
  obtain ⟨_, rfl⟩ := List.getElem?_eq_some_iff.1 ha
  obtain ⟨hlt, rfl⟩ := List.getElem?_eq_some_iff.1 hb
  exact List.isChain_iff_getElem.1 h.joined agent.position hlt

/-- Whoever is on course and goes on comes to the next link of its route, unless the step fails. -/
theorem OnCourse.onto (hc : supply.layout.Closed) (h : s.OnCourse supply.layout)
    (honward : s.Onward supply.layout) {id : NodeId} {x : Crossing}
    (hx : x ∈ s.moves supply now id) (hgranted : x.error? = none) :
    ∃ link exitTime, x.turn = .onto link exitTime ∧ x.agent.next? = some link := by
  obtain ⟨node, hnode, -, hx⟩ := mem_moves hx
  obtain ⟨inLink, hin, agent, hagent, rfl⟩ := mem_crossingsFrom.1 hx
  have hloaded := hc.mem_linkIds_of_mem_inLinks hnode hin
  obtain ⟨hcurrent, hroute⟩ := h _ (mem_everyone_of_toLeave hloaded hagent)
  have hgoes := honward inLink hloaded agent (List.mem_append_right _ hagent)
  obtain ⟨next, hnext⟩ := agent.exists_next? hcurrent hgoes
  simp only [Supply.crossing, Supply.turn, Crossing.error?] at hgranted ⊢
  cases hroad : nextLink supply.layout node inLink agent with
  -- A next link which does not start here would break the route.
  | error error =>
    exact absurd (joined_of_connected hroute hcurrent hnext)
      (apart_of_nextLink hc hnode hin hnext hroad)
  | ok road =>
    rw [hroad] at hgranted
    dsimp only at hgranted ⊢
    cases hexit : supply.travelTimes.exitTime road now agent.proceed with
    | error error =>
      rw [hexit] at hgranted
      cases hgranted
    | ok exitTime => exact ⟨road.id, exitTime, rfl, (nextLink_eq_ok hroad).2.1⟩

/-! ## States in which nobody has been lost -/

/-- Everyone is on course, and nobody left the network but those who arrived. -/
structure Orderly (l : Layout) (s : Loading) : Prop where
  settled : s.Settled l
  onward : s.Onward l
  onCourse : s.OnCourse l
  arrived : ∀ agent ∈ s.record.handedOver.toList, agent.hasArrived = true
  unstuck : ∀ e ∈ s.record.events.toList, e.kind ≠ .stuck
  paired : s.record.events.toList.countP (·.kind = .entered) =
    s.record.events.toList.countP (·.kind = .left)
  balances : ∃ accepted, s.Balances l accepted []

theorem orderly_empty (l : Layout) (population : Population) :
    (Loading.empty l population).Orderly l := by
  have hvacant := vacant_empty l { population }
  refine ⟨hvacant.settled, hvacant.onward, ?_, nofun, nofun, rfl, [], balances_empty l population⟩
  intro seat hseat
  have hnobody : (Loading.empty l population).everyone l = [] := hvacant.everyone
  rw [hnobody] at hseat
  cases hseat

/-- Messages do not matter. -/
theorem Orderly.say (h : s.Orderly l) (line : LogLine) : (s.say line).Orderly l := by
  obtain ⟨accepted, hpersons, hcount⟩ := h.balances
  exact ⟨h.settled.of_traffic_eq rfl, h.onward, h.onCourse, h.arrived, h.unstuck, h.paired,
    accepted, hpersons, hcount⟩

/-- A transfer which loses nobody and brings nobody off course. -/
theorem Orderly.undergo (h : s.Orderly l) (hsettled : t.Settled l) (honward : t.Onward l)
    {x : Transfer} (hx : s.Undergoes l x t)
    (hon : ∀ seat ∈ x.on, seat.2.current? = some seat.1 ∧ Connected l.links seat.2.route)
    (harrived : ∀ agent ∈ x.handedOver, agent.hasArrived = true)
    (hunstuck : ∀ e ∈ x.events, e.kind ≠ .stuck)
    (hpaired : x.events.countP (·.kind = .entered) = x.events.countP (·.kind = .left))
    (hbalances : ∃ accepted, t.Balances l accepted []) : t.Orderly l := by
  obtain ⟨others, hbefore, hafter⟩ := hx.agents
  refine ⟨hsettled, honward, fun seat hseat => ?_, ?_, ?_, ?_, hbalances⟩
  · -- Those whom the transfer does not touch were on course before.
    rcases List.mem_append.1 (hafter.mem_iff.1 hseat) with hseat | hseat
    · exact hon seat hseat
    · exact h.onCourse seat (hbefore.mem_iff.2 (List.mem_append_right _ hseat))
  · rw [hx.handedOver]
    exact List.forall_mem_append.2 ⟨h.arrived, harrived⟩
  · rw [hx.events]
    exact List.forall_mem_append.2 ⟨h.unstuck, hunstuck⟩
  · rw [hx.events, List.countP_append, List.countP_append, h.paired, hpaired]

/-! ## Departures -/

/-- An agent at the start of a connected route whose mode has a rule is not turned down. -/
theorem departing_of_connected (hc : engine.supply.layout.Closed) {agent : Agent}
    (hroute : Connected engine.supply.layout.links agent.route)
    (hmode : (engine.supply.travelTimes.get? agent.mode).isSome) :
    engine.departing agent agent.origin = .arrives ∨
      engine.departing agent agent.origin = .waits agent.origin := by
  have horigin : agent.origin ∈ engine.supply.layout.links.map (·.id) :=
    hroute.mem _ (List.head_mem agent.route_ne_nil)
  obtain ⟨link, hl, hid⟩ := List.mem_map.1 horigin
  have hmissing : (engine.supply.travelTimes.get? agent.mode).isNone = false := by
    simpa using hmode
  simp only [Engine.departing, ← hid, hc.link?_eq hl, hmissing]
  cases agent.endsOn link.id
  · exact .inr rfl
  · exact .inl rfl

theorem Orderly.depart (hc : engine.supply.layout.Closed) (h : s.Orderly engine.supply.layout)
    {agent : Agent} (hposition : agent.position = 0)
    (hroute : Connected engine.supply.layout.links agent.route)
    (hmode : (engine.supply.travelTimes.get? agent.mode).isSome) (now : UInt32) :
    ∃ onto t, engine.depart s agent agent.origin now = .ok (.ok onto, t) ∧
      t.Orderly engine.supply.layout := by
  have hlands : engine.Lands agent now (engine.departing agent agent.origin)
      (.depart agent agent.origin now) _ := .depart agent.origin
  have hdepart := depart_eq_ok hc h.settled.fits agent agent.origin now
  have hsettled := h.settled.land hc agent hlands.within now
  have honward : (s.land engine.supply.layout now agent _).Onward engine.supply.layout :=
    h.onward.land hc h.settled.fits hlands.within fun _ => goes_of_lands hlands
  have hx := undergoes_land hc h.settled.fits agent hlands.within now
  obtain ⟨accepted, hbalances⟩ := h.balances
  have hkept := hbalances.performs hc h.settled.sound (.land hlands)
  rw [Stage.dropped, List.append_nil] at hkept
  have hcurrent : agent.current? = some agent.origin := by
    rw [Agent.current?, hposition, ← List.head?_eq_getElem?]
    exact List.head?_eq_some_head agent.route_ne_nil
  -- A route of one link ends where it begins; the agent arrives without touching the network.
  rcases departing_of_connected hc hroute hmode with hturn | hturn <;>
    rw [hturn] at hdepart hsettled honward hx hkept
  · refine ⟨false, _, hdepart, h.undergo hsettled honward hx (List.forall_mem_nil _) ?_
      (List.forall_mem_nil _) rfl ⟨_, hkept⟩⟩
    intro other hother
    obtain rfl := List.mem_singleton.1 hother
    rfl
  · refine ⟨true, _, hdepart, h.undergo hsettled honward hx ?_ (List.forall_mem_nil _) ?_ rfl
      ⟨_, hkept⟩⟩
    · intro seat hseat
      obtain rfl := List.mem_singleton.1 hseat
      exact ⟨hcurrent, hroute⟩
    · intro e he
      obtain rfl := List.mem_singleton.1 he
      exact EventKind.noConfusion

/-! ## Steps -/

theorem Onward.drive (hc : l.Closed) (hs : s.Fits l) (h : s.Onward l) (now : UInt32)
    {parts : List Nat} (hl : parts.Perm (List.range l.numParts)) :
    (s.drive l now parts).Onward l := by
  intro id hid
  rw [queue_drive hc hs hl hid]
  exact (show (s.queue id).unmarked.Onward id from h id hid).advance now

theorem OnCourse.drive (hc : l.Closed) (hs : s.Fits l) (h : s.OnCourse l) (now : UInt32)
    (parts : List Nat) : (s.drive l now parts).OnCourse l := by
  obtain ⟨gone, hgone⟩ := everyone_drive hc hs now parts
  exact fun seat hseat => h seat (hgone.mem_iff.2 (List.mem_append_right _ hseat))

/-- Whoever is on a link after a step was there before, or came onto it as the next link of its
route. -/
theorem OnCourse.stepped (hc : engine.supply.layout.Closed) (hs : s.Settled engine.supply.layout)
    (h : s.OnCourse engine.supply.layout) {forLinks forNodes : List Nat} {stats : StepStats}
    (hl : forLinks.Perm (List.range engine.supply.layout.numParts))
    (hstepped : s.Stepped engine now forLinks forNodes stats t)
    (hmoves : ∀ x ∈ (s.drive engine.supply.layout now forLinks).allMoves engine.supply now forNodes,
      ∃ link exitTime, x.turn = .onto link exitTime ∧ x.agent.next? = some link) :
    t.OnCourse engine.supply.layout := by
  rintro ⟨id, agent⟩ hseat
  obtain ⟨hid, hagent⟩ := mem_everyone.1 hseat
  rw [hstepped.agents_queue hc hs hl hid] at hagent
  obtain ⟨v, hv, rfl⟩ := List.mem_map.1 hagent
  -- Whoever is in transit was so before or has just come over a node.
  rcases (hstepped.mem_inTransit hc hs hl hid).1 hv with ⟨hold, -⟩ | ⟨x, hx, hentrant⟩
  · refine h (id, v.agent) (mem_everyone.2 ⟨hid, ?_⟩)
    exact List.mem_append_left _ (List.mem_append_left _ (List.mem_map_of_mem hold))
  · obtain ⟨hturn, hproceed⟩ := Crossing.turn_of_entrant hentrant
    obtain ⟨link, exitTime, honto, hnext⟩ := hmoves x hx
    obtain ⟨rfl, -⟩ := Turn.onto.inj (honto.symm.trans hturn)
    obtain ⟨node, -, hmove⟩ := List.mem_flatMap.1 hx
    have hroute := (h.drive hc hs.fits now forLinks _ (mem_everyone_of_move hc hmove)).2
    rw [hproceed]
    exact ⟨hnext, hroute⟩

theorem Orderly.stepped (hc : engine.supply.layout.Closed) (h : s.Orderly engine.supply.layout)
    {forLinks forNodes : List Nat} {stats : StepStats}
    (hl : forLinks.Perm (List.range engine.supply.layout.numParts))
    (hstepped : s.Stepped engine now forLinks forNodes stats t)
    (honward : t.Onward engine.supply.layout)
    (hbalances : ∃ accepted, t.Balances engine.supply.layout accepted []) :
    t.Orderly engine.supply.layout := by
  have hs := h.settled
  have hmoves (x) (hx : x ∈ (s.drive engine.supply.layout now forLinks).allMoves engine.supply now
      forNodes) : ∃ link exitTime, x.turn = .onto link exitTime ∧ x.agent.next? = some link := by
    obtain ⟨node, -, hmove⟩ := List.mem_flatMap.1 hx
    exact (h.onCourse.drive hc hs.fits now forLinks).onto hc (h.onward.drive hc hs.fits now hl)
      hmove
      (hstepped.granted x hx)
  have hcourse := h.onCourse.stepped hc hs hl hstepped hmoves
  have hevents := hstepped.events hc hs hl
  have hover := hstepped.handedOver hc hs hl
  generalize (s.drive engine.supply.layout now forLinks).allMoves engine.supply now forNodes = xs
    at hmoves hevents hover
  -- Nobody is refused, so every crossing is a link left and a link entered.
  have hpair (x) (hx : x ∈ xs) : ∃ link,
      x.events now = [.left now x.inLink x.agent.id, .entered now link x.agent.id] ∧
        x.ousted? now = none := by
    obtain ⟨link, exitTime, hturn, -⟩ := hmoves x hx
    exact ⟨link, Crossing.events_of_onto hturn now⟩
  refine ⟨hstepped.settled, honward, hcourse, ?_, ?_, ?_, hbalances⟩
  · have hnobody : xs.filterMap (·.ousted? now) = [] := List.filterMap_eq_nil_iff.2 fun x hx => by
      obtain ⟨_, -, hnone⟩ := hpair x hx
      exact hnone
    rw [hover, hnobody, List.append_nil]
    refine List.forall_mem_append.2 ⟨h.arrived, fun agent hagent => ?_⟩
    obtain ⟨_, -, rfl⟩ := List.mem_map.1 hagent
    rfl
  · rw [hevents]
    refine List.forall_mem_append.2 ⟨h.unstuck, fun e he => ?_⟩
    obtain ⟨x, hx, he⟩ := List.mem_flatMap.1 he
    obtain ⟨link, hpair, -⟩ := hpair x hx
    rw [hpair] at he
    rcases List.mem_pair.1 he with rfl | rfl <;> nofun
  · rw [hevents, List.countP_append, List.countP_append, h.paired, List.countP_flatMap,
      List.countP_flatMap]
    refine congrArg _ (congrArg List.sum (List.map_congr_left fun x hx => ?_))
    obtain ⟨link, hpair, -⟩ := hpair x hx
    simp [hpair, Event.kind]

/-- A step does not fault, and if it succeeds, it loses nobody. -/
theorem Orderly.step (hc : engine.supply.layout.Closed) (h : s.Orderly engine.supply.layout)
    (now : UInt32) : ∃ stats t, engine.step s now = .ok (stats, t) ∧
      ∀ counts, stats = .ok counts → t.Orderly engine.supply.layout := by
  have ho := Orders.whole_ascending engine.supply.layout
  obtain ⟨stats, t, ht, -, -, hok⟩ := h.settled.stepInOrder hc ho.forLinks ho.forNodes now
  have hperform : engine.perform (.ascending engine.supply.layout) s (.step now) =
      .ok (.stepped stats, t) := by
    rw [Engine.perform, ht]
    rfl
  have hperforms := h.settled.sound.performs hc ho hperform
  obtain ⟨accepted, hbalances⟩ := h.balances
  have hkept := hbalances.performs hc h.settled.sound hperforms
  have honward := h.onward.performs hc h.settled.sound hperforms
  exact ⟨stats, t, ht, fun counts hcounts =>
    h.stepped hc ho.forLinks (hok counts hcounts) honward ⟨_, hkept⟩⟩

/-! ## The end -/

/-- Everyone who is left on the network is removed at the end, and an event tells of each. -/
theorem Orderly.finish (hc : l.Closed) (h : s.Orderly l) (now : UInt32) :
    ∃ t, Engine.finish s now = ((s.everyone l).length, t) ∧
      (∀ e ∈ t.record.events.toList, e.kind = .stuck → e.time = now) ∧
      t.record.events.toList.countP (·.kind = .stuck) = (s.everyone l).length ∧
      t.record.events.toList.countP (·.kind = .entered) =
        t.record.events.toList.countP (·.kind = .left) := by
  obtain ⟨t, ht, hemptied⟩ := emptied_finish hc h.settled.fits now
  have hevents := hemptied.undergoes_purge.events
  refine ⟨t, ht, ?_, ?_, ?_⟩ <;> rw [hevents]
  · refine List.forall_mem_append.2 ⟨fun e he hstuck => absurd hstuck (h.unstuck e he), ?_⟩
    intro e he _
    obtain ⟨seat, -, rfl⟩ := List.mem_map.1 he
    rfl
  · -- Nobody was lost before, so every loss is one of the purge.
    have hnone : s.record.events.toList.countP (·.kind = .stuck) = 0 :=
      List.countP_eq_zero.2 fun e he => by simpa using h.unstuck e he
    have hall : (Transfer.purge now (s.everyone l)).events.countP (·.kind = .stuck) =
        (s.everyone l).length := by
      rw [Transfer.purge, List.countP_map]
      exact List.countP_eq_length.2 fun _ _ => rfl
    rw [List.countP_append, hnone, hall, Nat.zero_add]
  · have hother (kind : EventKind) (hkind : kind ≠ .stuck) :
        (Transfer.purge now (s.everyone l)).events.countP (·.kind = kind) = 0 := by
      refine List.countP_eq_zero.2 fun e he => ?_
      obtain ⟨seat, -, rfl⟩ := List.mem_map.1 he
      exact fun hsame => hkind (of_decide_eq_true hsame).symm
    rw [List.countP_append, List.countP_append, h.paired, hother .entered (by decide),
      hother .left (by decide)]

end Loading

end NetworkLoading
