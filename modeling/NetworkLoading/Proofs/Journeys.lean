import NetworkLoading.Proofs.Conservation

/-!
# What becomes of an agent who departs

The events of an agent tell which links of its route it came to, one after the other, each of them
starting where the one before ends. The journey goes on, or it ended in one of four ways: the agent
arrived at the end of its route, it was removed with everyone else, its route was broken, or it had
no valid travel time on the next link.
-/

namespace NetworkLoading

/-! ## Agents who wait do not end their legs -/

namespace LinkQueue

variable {q : LinkQueue} {link : LinkId}

/-- Nobody who waits on a link ends a leg there. -/
def Onward (q : LinkQueue) (link : LinkId) : Prop :=
  ∀ agent ∈ q.afterActivity ++ q.toLeave, agent.endsOn link = false

theorem Onward.advance (h : q.Onward link) (now : UInt32) : (q.advance link now).Onward link := by
  intro agent hagent
  simp only [LinkQueue.advance, continuing, List.nil_append, List.mem_append,
    List.mem_filter] at hagent
  rcases hagent with (hwaits | ⟨-, hgoes⟩) | hwaits
  · exact h agent (List.mem_append_right _ hwaits)
  · simpa using hgoes
  · exact h agent (List.mem_append_left _ hwaits)

theorem Onward.carry (h : q.Onward link) (x : Crossing) : (x.carry link q).Onward link := by
  intro agent hagent
  refine h agent ?_
  rw [Crossing.afterActivity_carry, Crossing.toLeave_carry] at hagent
  split at hagent
  · exact List.mem_append.2 ((List.mem_append.1 hagent).imp_right List.mem_of_mem_erase)
  · exact hagent

/-- Nobody starts to wait where the leg ends. -/
theorem Onward.fill (h : q.Onward link) {agent : Agent} {x : Landing}
    (hgoes : x = .waits link → agent.endsOn link = false) : (x.fill agent link q).Onward link := by
  unfold Landing.fill
  cases x with
  | refused error => exact h
  | arrives => exact h
  | waits id =>
    dsimp only
    split
    · rename_i he
      intro other hother
      simp only [depart, List.mem_append, List.mem_singleton] at hother
      -- Only the new one could have reached its destination here.
      rcases hother with (hwaits | rfl) | hwaits
      · exact h other (List.mem_append_left _ hwaits)
      · exact hgoes (he ▸ rfl)
      · exact h other (List.mem_append_right _ hwaits)
    · exact h
  | enters id exitTime =>
    dsimp only
    split <;> exact h

end LinkQueue

namespace Loading

variable {l : Layout} {s t : Loading} {now : UInt32} {supply : Supply} {engine : Engine}

/-- Nobody who waits on any link ends a leg there. -/
def Onward (l : Layout) (s : Loading) : Prop :=
  ∀ id ∈ l.linkIds, (s.queue id).Onward id

theorem onward_clearActive : s.clearActive.Onward l ↔ s.Onward l :=
  forall₂_congr fun id _ => by rw [queue_clearActive]; rfl

theorem Vacant.onward (h : s.Vacant l) : s.Onward l := by
  intro id hid
  rw [h.queue id hid]
  exact nofun

theorem Onward.motion (hc : supply.layout.Closed) (hs : s.Fits supply.layout)
    (h : s.Onward supply.layout) (hmotion : Motion supply now s t) : t.Onward supply.layout := by
  intro id hid
  cases hmotion with
  | @flow link hlink =>
    rw [queue_flow hc hs hlink hid]
    split
    · rename_i he
      exact he ▸ (h id hid).advance now
    · exact h id hid
  | @pass node inLink agent hn hin hwaits =>
    have hloaded := hc.mem_linkIds_of_mem_inLinks hn hin
    rw [queue_pass hc hs (within_crossing node hloaded now agent) hid]
    exact (h id hid).carry _

theorem Onward.land (hc : l.Closed) (hs : s.Fits l) (h : s.Onward l) {agent : Agent} {x : Landing}
    (hx : x.Within l) (hgoes : ∀ id, x = .waits id → agent.endsOn id = false) :
    (s.land l now agent x).Onward l := by
  intro id hid
  have hfill : ((s.land l now agent x).queue id).unmarked.Onward id := by
    rw [queue_land hc hs agent hx hid]
    exact (h id hid).fill (hgoes id)
  exact hfill

/-- Whoever is made to wait by a call has a leg which goes on. -/
theorem goes_of_lands {agent : Agent} {x : Landing} {call : Call} {answer : Answer}
    (h : engine.Lands agent now x call answer) {id : LinkId} (hx : x = .waits id) :
    agent.endsOn id = false := by
  cases h with
  | depart link =>
    have hanswer : (engine.departing agent link).departed agent = .ok true := by
      rw [hx]
      rfl
    obtain ⟨hwaits, hgoes⟩ := departing_eq_waits hanswer
    obtain rfl := Landing.waits.inj (hx.symm.trans hwaits)
    exact hgoes
  | enter link =>
    unfold Engine.entering at hx
    split at hx
    · cases hx
    · split at hx <;> cases hx

theorem Onward.performs {call : Call} {answer : Answer} (hc : engine.supply.layout.Closed)
    (hs : s.Sound engine.supply.layout) (h : s.Onward engine.supply.layout)
    (hperforms : engine.Performs s call answer t) : t.Onward engine.supply.layout := by
  cases hperforms with
  | land hlands => exact h.land hc hs.fits hlands.within fun _ => goes_of_lands hlands
  | step hmoved =>
    refine hmoved.keeps hs.fits (fun _ => onward_clearActive) h ?_
    intro s t hs h hmotion
    exact h.motion hc hs hmotion
  | finish hemptied => exact hemptied.vacant.onward
  | reset hemptied => exact hemptied.vacant.onward

end Loading

theorem Engine.Runs.onward {engine : Engine} {population : Population} {stages : List Stage}
    {t : Loading} (hc : engine.supply.layout.Closed)
    (h : engine.Runs (.empty engine.supply.layout population) stages t) :
    t.Onward engine.supply.layout := by
  refine induct hc (Loading.sound_empty _ _) (P := fun _ t => t.Onward engine.supply.layout)
    (Loading.vacant_empty _ _).onward ?_ h
  intro stages t call answer u _ hsound hperforms ih
  exact ih.performs hc hsound hperforms

/-! ## Journeys -/

namespace Layout

/-- A link ends where another one starts; both are loaded. -/
def Joined (l : Layout) (a b : LinkId) : Prop :=
  ∃ x ∈ l.links, ∃ y ∈ l.links, x.id = a ∧ y.id = b ∧ x.toNode = y.fromNode

end Layout

/-- An agent at another position of its route. -/
def Agent.movedTo (agent : Agent) (position : Nat) : Agent :=
  { agent with position }

/-- The events of an agent who departed and came to a position of its route. -/
inductive Travels (l : Layout) (agent : Agent) (departure : UInt32) : Nat → List Event → Prop
  | departs {link : LinkId} (hroute : 1 < agent.route.length)
      (hlink : agent.route[0]? = some link) :
      Travels l agent departure 0 [.waits departure link agent.id (some agent.mode)]
  | crosses {k : Nat} {events : List Event} {now : UInt32} {link next : LinkId}
      (h : Travels l agent departure k events) (hlink : agent.route[k]? = some link)
      (hnext : agent.route[k + 1]? = some next) (hjoined : l.Joined link next) :
      Travels l agent departure (k + 1)
        (events ++ [.left now link agent.id, .entered now next agent.id])

/-- What becomes of an agent who departed: its events, where it is on the network, and how it was
handed over. -/
inductive Journey (supply : Supply) (agent : Agent) (departure : UInt32) :
    List Event → List (LinkId × Agent) → List Agent → Prop
  /-- The agent is on the link of its last event. -/
  | underway {k : Nat} {events : List Event} {link : LinkId}
      (h : Travels supply.layout agent departure k events) (hlink : agent.route[k]? = some link) :
      Journey supply agent departure events [(link, agent.movedTo k)] []
  /-- The agent arrived on the last link of its route. -/
  | arrived {k : Nat} {events : List Event} {now : UInt32}
      (h : Travels supply.layout agent departure (k + 1) events)
      (hlast : k + 2 = agent.route.length) :
      Journey supply agent departure events [] [(agent.movedTo (k + 1)).arrive now]
  /-- The agent was removed from the link of its last event. -/
  | removed {k : Nat} {events : List Event} {link : LinkId} {now : UInt32}
      (h : Travels supply.layout agent departure k events) (hlink : agent.route[k]? = some link) :
      Journey supply agent departure (events ++ [.stuck now link agent.id (some agent.mode)]) []
        [(agent.movedTo k).abort now]
  /-- The next link is not loaded, or it starts somewhere else. -/
  | astray {k : Nat} {events : List Event} {link next : LinkId} {now : UInt32}
      (h : Travels supply.layout agent departure k events) (hlink : agent.route[k]? = some link)
      (hnext : agent.route[k + 1]? = some next) (hapart : ¬ supply.layout.Joined link next) :
      Journey supply agent departure
        (events ++ [.left now link agent.id, .stuck now link agent.id (some agent.mode)]) []
        [(agent.movedTo k).abort now]
  /-- There is no valid travel time on the next link. -/
  | refused {k : Nat} {events : List Event} {link : LinkId} {road : Link} {now : UInt32}
      {error : LoadingError} (h : Travels supply.layout agent departure k events)
      (hlink : agent.route[k]? = some link) (hnext : agent.route[k + 1]? = some road.id)
      (hjoined : supply.layout.Joined link road.id)
      (herror : supply.travelTimes.exitTime road now (agent.movedTo (k + 1)) = .error error) :
      Journey supply agent departure
        (events ++ [.left now link agent.id, .stuck now road.id agent.id (some agent.mode)]) []
        [(agent.movedTo (k + 1)).abort now]

namespace Agent

variable {agent : Agent} {link : LinkId}

/-- An agent who does not end its leg on the link it is on has a next link. -/
theorem exists_next? (hlink : agent.current? = some link) (hgoes : agent.endsOn link = false) :
    ∃ next, agent.next? = some next := by
  cases hnext : agent.next? with
  | some next => exact ⟨next, rfl⟩
  | none =>
    -- The position is that of the last element, which is the destination.
    exfalso
    unfold current? at hlink
    unfold next? at hnext
    obtain ⟨hlt, hget⟩ := List.getElem?_eq_some_iff.1 hlink
    have hle := List.getElem?_eq_none_iff.1 hnext
    have hlast : link = agent.destination := by
      rw [destination, List.getLast_eq_getElem, ← hget]
      congr 1
      omega
    simp [endsOn, next?, hnext, hlast] at hgoes

theorem length_of_endsOn {k : Nat} (hlink : agent.route[k]? = some link)
    (hends : (agent.movedTo k).endsOn link = true) : k + 1 = agent.route.length := by
  obtain ⟨hlt, -⟩ := List.getElem?_eq_some_iff.1 hlink
  have hnext : agent.route[k + 1]? = none := by
    simpa [endsOn, next?, movedTo] using (Bool.and_eq_true_iff.1 hends).2
  have hle := List.getElem?_eq_none_iff.1 hnext
  omega

end Agent

namespace Travels

variable {l : Layout} {agent : Agent} {departure : UInt32} {k : Nat} {events : List Event}

theorem one_lt_length (h : Travels l agent departure k events) : 1 < agent.route.length := by
  induction h with
  | departs hroute _ => exact hroute
  | crosses _ _ _ _ ih => exact ih

end Travels

namespace Journey

variable {supply : Supply} {agent : Agent} {departure : UInt32} {events : List Event}
  {seats seats' : List (LinkId × Agent)} {handedOver : List Agent}

theorem seats_eq (h : Journey supply agent departure events seats handedOver)
    (hperm : seats'.Perm seats) : seats' = seats := by
  cases h with
  | underway h hlink => exact List.perm_singleton.1 hperm
  | arrived h hlast => exact hperm.eq_nil
  | removed h hlink => exact hperm.eq_nil
  | astray h hlink hnext hapart => exact hperm.eq_nil
  | refused h hlink hnext hjoined herror => exact hperm.eq_nil

/-- An agent who is on the network is underway. -/
theorem of_mem_seats (h : Journey supply agent departure events seats handedOver)
    {seat : LinkId × Agent} (hseat : seat ∈ seats) :
    ∃ k, Travels supply.layout agent departure k events ∧ agent.route[k]? = some seat.1 ∧
      seat.2 = agent.movedTo k ∧ seats = [seat] ∧ handedOver = [] := by
  cases h with
  | @underway k _ link h hlink =>
    obtain rfl := List.mem_singleton.1 hseat
    exact ⟨k, h, hlink, rfl, rfl, rfl⟩
  | arrived h hlast => cases hseat
  | removed h hlink => cases hseat
  | astray h hlink hnext hapart => cases hseat
  | refused h hlink hnext hjoined herror => cases hseat

end Journey

namespace Loading

variable {l : Layout} {s t : Loading} {now : UInt32} {supply : Supply} {engine : Engine}
  {agent : Agent} {departure : UInt32}

/-! ### Links which follow each other -/

theorem joined_of_nextLink (hc : l.Closed) {node : Junction} (hn : node ∈ l.junctions)
    {inLink : LinkId} (hin : inLink ∈ node.inLinks) {road : Link}
    (h : nextLink l node inLink agent = .ok road) : l.Joined inLink road.id := by
  obtain ⟨x, hx, hid, hto⟩ := (hc.mem_inLinks hn).1 hin
  obtain ⟨hroad, -, hfrom⟩ := nextLink_eq_ok h
  exact ⟨x, hx, road, hroad, hid, rfl, hto.trans hfrom.symm⟩

theorem apart_of_nextLink (hc : l.Closed) {node : Junction} (hn : node ∈ l.junctions)
    {inLink next : LinkId} (hin : inLink ∈ node.inLinks) (hnext : agent.next? = some next)
    {error : LoadingError} (h : nextLink l node inLink agent = .error error) :
    ¬ l.Joined inLink next := by
  rintro ⟨x, hx, y, hy, hxid, rfl, hjoin⟩
  obtain ⟨x', hx', hid', hto⟩ := (hc.mem_inLinks hn).1 hin
  obtain rfl := hc.link_inj hx hx' (hxid.trans hid'.symm)
  rw [nextLink, hnext] at h
  simp only [hc.link?_eq hy, ← hjoin, hto, ↓reduceIte] at h
  cases h

/-- An agent who crosses a node comes to the next link of its route, or it is lost. -/
theorem journey_crossing (hc : supply.layout.Closed) {node : Junction}
    (hn : node ∈ supply.layout.junctions) {inLink : LinkId} (hin : inLink ∈ node.inLinks) {k : Nat}
    {events : List Event} (h : Travels supply.layout agent departure k events)
    (hlink : agent.route[k]? = some inLink) (hgoes : (agent.movedTo k).endsOn inLink = false)
    (now : UInt32) :
    let x := supply.crossing node now inLink (agent.movedTo k)
    Journey supply agent departure (events ++ x.events now) x.seat?.toList
      (x.ousted? now).toList := by
  -- An agent that does not end its leg here has a next link, if perhaps a wrong one.
  obtain ⟨next, hnext⟩ := (agent.movedTo k).exists_next? hlink hgoes
  simp only [Supply.crossing, Supply.turn, Crossing.events, Crossing.seat?, Crossing.ousted?]
  cases hroad : nextLink supply.layout node inLink (agent.movedTo k) with
  | error error => exact .astray h hlink hnext (apart_of_nextLink hc hn hin hnext hroad)
  | ok road =>
    have hjoined := joined_of_nextLink hc hn hin hroad
    obtain ⟨-, hid, -⟩ := nextLink_eq_ok hroad
    dsimp only
    cases hexit : supply.travelTimes.exitTime road now (agent.movedTo k).proceed with
    | error error => exact .refused h hlink hid hjoined hexit
    | ok exitTime => exact .underway (.crosses h hlink hid hjoined) hid

/-! ### Journeys go on -/

/-- What is told of an agent who departed is a journey. -/
def HasJourney (supply : Supply) (agent : Agent) (departure : UInt32) (s : Loading) : Prop :=
  Journey supply agent departure (s.eventsOf agent.id) (s.seatsOf supply.layout agent.id)
    (s.handedOverOf agent.id)

theorem hasJourney_clearActive :
    s.clearActive.HasJourney supply agent departure ↔ s.HasJourney supply agent departure := by
  simp [HasJourney]

/-- A journey does not change when only others are concerned. -/
theorem HasJourney.untouched (h : s.HasJourney supply agent departure) {x : Transfer}
    (hx : s.Undergoes supply.layout x t) (htold : x.Told) (hp : agent.id ∉ x.persons) :
    t.HasJourney supply agent departure := by
  obtain ⟨hevents, hseats, hover⟩ := hx.untouched htold hp
  unfold HasJourney
  rw [hevents, hover, h.seats_eq hseats]
  exact h

/-- An agent who leaves the link it is on is underway, and nobody else is of its id. -/
theorem HasJourney.leaves (h : s.HasJourney supply agent departure) {x : Transfer}
    (hx : s.Undergoes supply.layout x t) {seat : LinkId × Agent} (hseat : seat ∈ x.off)
    (hid : seat.2.id = agent.id) :
    ∃ k, Travels supply.layout agent departure k (s.eventsOf agent.id) ∧
      agent.route[k]? = some seat.1 ∧ seat.2 = agent.movedTo k ∧
      s.handedOverOf agent.id = [] ∧ x.off.filter (·.2.id = agent.id) = [seat] ∧
      (t.seatsOf supply.layout agent.id).Perm (x.on.filter (·.2.id = agent.id)) := by
  have hmem : seat ∈ s.seatsOf supply.layout agent.id :=
    List.mem_filter.2 ⟨hx.mem_everyone hseat, decide_eq_true hid⟩
  obtain ⟨k, htravels, hlink, hplace, hseats, hover⟩ := h.of_mem_seats hmem
  obtain ⟨others, hbefore, hafter⟩ := hx.seatsOf agent.id
  -- The only seat is among those which are left, so that no other one remains.
  have hoff : seat ∈ x.off.filter (·.2.id = agent.id) :=
    List.mem_filter.2 ⟨hseat, decide_eq_true hid⟩
  rw [hseats] at hbefore
  have hlength := hbefore.length_eq
  have hpos := List.length_pos_of_mem hoff
  simp only [List.length_append, List.length_singleton] at hlength
  obtain rfl : others = [] := List.length_eq_zero_iff.1 (by omega)
  rw [List.append_nil] at hbefore hafter
  exact ⟨k, htravels, hlink, hplace, hover, List.perm_singleton.1 hbefore.symm, hafter⟩

theorem HasJourney.flow (hc : supply.layout.Closed) (hs : s.Fits supply.layout)
    (h : s.HasJourney supply agent departure) {id : LinkId} (hid : id ∈ supply.layout.linkIds)
    (now : UInt32) : (s.flow now id).HasJourney supply agent departure := by
  have hx := undergoes_flow hc hs hid now
  by_cases hp : agent.id ∈ (Transfer.arrivals now id ((s.queue id).arriving id now)).persons
  · -- The agent is among those who arrive.
    obtain ⟨other, hother, hsame⟩ :
        ∃ other ∈ (s.queue id).arriving id now, other.id = agent.id := by
      simpa [Transfer.persons, Transfer.arrivals] using hp
    obtain ⟨k, htravels, hlink, rfl, hover, hoff, hafter⟩ :=
      h.leaves hx (List.mem_map_of_mem hother) hsame
    have hends : (agent.movedTo k).endsOn id = true := (List.mem_filter.1 hother).2
    have hlength := Agent.length_of_endsOn hlink hends
    have hroute := htravels.one_lt_length
    -- Whoever arrives has moved over a node, since nobody arrives on the link of its departure.
    obtain ⟨k, rfl⟩ : ∃ j, k = j + 1 := ⟨k - 1, by omega⟩
    have hself : ((s.queue id).arriving id now).filter (·.id = agent.id) =
        [agent.movedTo (k + 1)] := by
      simp only [Transfer.arrivals, List.filter_map, Function.comp_def] at hoff
      obtain ⟨other, hother, he⟩ := List.map_eq_singleton_iff.1 hoff
      rw [hother, (Prod.mk.inj he).2]
    have harrived : (((s.queue id).arriving id now).map (·.arrive now)).filter
        (·.id = agent.id) = [(agent.movedTo (k + 1)).arrive now] := by
      rw [List.filter_map]
      exact congrArg (List.map (·.arrive now)) hself
    unfold HasJourney
    rw [hx.eventsOf, hx.handedOverOf, hover, hafter.eq_nil]
    simp only [Transfer.arrivals, List.filter_nil, List.append_nil, List.nil_append, harrived]
    exact .arrived htravels hlength
  · exact h.untouched hx (Transfer.told_arrivals now id _) hp

theorem HasJourney.pass (hc : supply.layout.Closed) (hs : s.Fits supply.layout)
    (h : s.HasJourney supply agent departure) (honward : s.Onward supply.layout) {node : Junction}
    (hn : node ∈ supply.layout.junctions) {inLink : LinkId} (hin : inLink ∈ node.inLinks)
    {other : Agent} (hwaits : other ∈ (s.queue inLink).toLeave) :
    (s.pass now (supply.crossing node now inLink other)).HasJourney supply agent departure := by
  have hlink : inLink ∈ supply.layout.linkIds := hc.mem_linkIds_of_mem_inLinks hn hin
  have hx := undergoes_pass hc hs (within_crossing node hlink now other) hwaits now
  by_cases hp : agent.id = other.id
  · obtain ⟨k, htravels, hplace, rfl, hover, -, hafter⟩ :=
      h.leaves hx (List.mem_singleton_self _) hp.symm
    -- Nobody waits at the end of the link on which the leg ends.
    have hgoes : (agent.movedTo k).endsOn inLink = false :=
      honward inLink hlink _ (List.mem_append_right _ hwaits)
    have hjourney := journey_crossing hc hn hin htravels hplace hgoes now
    obtain ⟨hevents, hseat, housted⟩ := Crossing.transfer_own (p := agent.id)
      (x := supply.crossing node now inLink (agent.movedTo k)) rfl now
    rw [hseat] at hafter
    unfold HasJourney
    rw [hx.eventsOf, hx.handedOverOf, hover, hevents, housted, hjourney.seats_eq hafter]
    exact hjourney
  · refine h.untouched hx (Crossing.told_transfer now _) fun hmem => hp ?_
    have hoff := (Crossing.balanced_transfer now _).mem_persons hmem
    simpa [Crossing.transfer, Supply.crossing] using hoff

theorem HasJourney.finish (h : s.HasJourney supply agent departure)
    (hemptied : s.Emptied supply.layout (s.record.lose now (s.everyone supply.layout)) t) :
    t.HasJourney supply agent departure := by
  have hx := hemptied.undergoes_purge
  by_cases hp : agent.id ∈ (s.everyone supply.layout).map (·.2.id)
  -- The agent has one seat, so it is told of once and handed over once.
  · obtain ⟨⟨link, other⟩, hseat, hsame⟩ := List.mem_map.1 hp
    obtain ⟨k, htravels, hlink, rfl, hover, hoff, hafter⟩ := h.leaves hx hseat hsame
    have hevents : ((s.everyone supply.layout).map fun x : LinkId × Agent =>
        Event.stuck now x.1 x.2.id (some x.2.mode)).filter (·.person = agent.id) =
          [.stuck now link agent.id (some agent.mode)] := by
      rw [List.filter_map]
      exact congrArg (List.map fun x : LinkId × Agent =>
        Event.stuck now x.1 x.2.id (some x.2.mode)) hoff
    have hlost : ((s.everyone supply.layout).map (·.2.abort now)).filter (·.id = agent.id) =
        [(agent.movedTo k).abort now] := by
      rw [List.filter_map]
      exact congrArg (List.map (·.2.abort now)) hoff
    unfold HasJourney
    rw [hx.eventsOf, hx.handedOverOf, hover, hafter.eq_nil]
    simp only [Transfer.purge, hevents, hlost, List.nil_append]
    exact .removed htravels hlink
  · refine h.untouched hx (Transfer.told_purge _ _) fun hmem => hp ?_
    exact (Transfer.balanced_purge now _).mem_persons hmem

/-! ### Calls which concern others -/

theorem HasJourney.performs (hc : engine.supply.layout.Closed) (hs : s.Sound engine.supply.layout)
    (honward : s.Onward engine.supply.layout) (h : s.HasJourney engine.supply agent departure)
    {call : Call} {answer : Answer} (hperforms : engine.Performs s call answer t)
    (hreset : call ≠ .reset) (hnew : agent.id ∉ Stage.accepted ⟨s, call, answer, t⟩) :
    t.HasJourney engine.supply agent departure := by
  cases hperforms with
  | land hlands =>
    rw [← hlands.persons_transfer] at hnew
    exact h.untouched (undergoes_land hc hs.fits _ hlands.within _) (Landing.told_transfer _ _ _)
      hnew
  | step hmoved =>
    -- On the way nobody comes to wait where the leg ends, either.
    have hboth := hmoved.keeps hs.fits
      (P := fun s => s.Onward engine.supply.layout ∧ s.HasJourney engine.supply agent departure)
      (fun _ => and_congr onward_clearActive hasJourney_clearActive) ⟨honward, h⟩ ?_
    · exact hboth.2
    · rintro s t hs ⟨honward, h⟩ hmotion
      refine ⟨honward.motion hc hs hmotion, ?_⟩
      cases hmotion with
      | flow hid => exact h.flow hc hs hid _
      | pass hn hin hwaits => exact h.pass hc hs honward hn hin hwaits
  | finish hemptied => exact h.finish hemptied
  | reset hemptied => exact absurd rfl hreset

/-! ### Before the departure -/

/-- Nothing is known of a person. -/
structure Absent (l : Layout) (p : PersonId) (s : Loading) : Prop where
  events : s.eventsOf p = []
  seats : s.seatsOf l p = []
  handedOver : s.handedOverOf p = []

theorem Absent.untouched {p : PersonId} (h : s.Absent l p) {x : Transfer}
    (hx : s.Undergoes l x t) (htold : x.Told) (hp : p ∉ x.persons) : t.Absent l p := by
  obtain ⟨hevents, hseats, hover⟩ := hx.untouched htold hp
  exact ⟨hevents.trans h.events, (h.seats ▸ hseats).eq_nil, hover.trans h.handedOver⟩

/-- Who is not on the network cannot leave a link. -/
theorem Absent.not_mem_persons {p : PersonId} (h : s.Absent l p) {x : Transfer}
    (hx : s.Undergoes l x t) (hleave : p ∈ x.persons → p ∈ x.off.map (·.2.id)) :
    p ∉ x.persons := by
  intro hp
  obtain ⟨seat, hseat, hid⟩ := List.mem_map.1 (hleave hp)
  have hmem : seat ∈ s.seatsOf l p :=
    List.mem_filter.2 ⟨hx.mem_everyone hseat, decide_eq_true hid⟩
  rw [h.seats] at hmem
  cases hmem

theorem absent_clearActive {p : PersonId} : s.clearActive.Absent l p ↔ s.Absent l p := by
  constructor <;> rintro ⟨h₁, h₂, h₃⟩ <;>
    exact ⟨by simpa using h₁, by simpa using h₂, by simpa using h₃⟩

theorem Absent.performs {p : PersonId} (hc : engine.supply.layout.Closed)
    (hs : s.Sound engine.supply.layout) (h : s.Absent engine.supply.layout p) {call : Call}
    {answer : Answer} (hperforms : engine.Performs s call answer t)
    (hnew : p ∉ Stage.accepted ⟨s, call, answer, t⟩) : t.Absent engine.supply.layout p := by
  cases hperforms with
  | land hlands =>
    rw [← hlands.persons_transfer] at hnew
    exact h.untouched (undergoes_land hc hs.fits _ hlands.within _) (Landing.told_transfer _ _ _)
      hnew
  | step hmoved =>
    refine hmoved.keeps hs.fits (fun _ => absent_clearActive) h ?_
    intro s t hs h hmotion
    obtain ⟨x, hx, hbalanced, htold⟩ := hmotion.undergoes hc hs
    exact h.untouched hx htold (h.not_mem_persons hx hbalanced.mem_persons)
  | finish hemptied =>
    have hx := hemptied.undergoes_purge
    exact h.untouched hx (Transfer.told_purge _ _)
      (h.not_mem_persons hx (Transfer.balanced_purge _ _).mem_persons)
  | reset hemptied =>
    have hx := hemptied.undergoes_discard
    exact h.untouched hx (Transfer.told_discard _)
      (h.not_mem_persons hx (by simp [Transfer.persons, Transfer.discard]))

theorem absent_empty (l : Layout) (population : Population) (p : PersonId) :
    (Loading.empty l population).Absent l p := by
  have hnobody : (Loading.empty l population).everyone l = [] :=
    (vacant_empty l { population }).everyone
  refine ⟨rfl, ?_, rfl⟩
  rw [seatsOf, hnobody]
  rfl

/-! ### Departures -/

/-- A journey begins with the departure of an agent nothing was known of. -/
theorem Absent.departs (hc : engine.supply.layout.Closed) (hs : s.Sound engine.supply.layout)
    (h : s.Absent engine.supply.layout agent.id) (hfresh : agent.position = 0)
    (hanswer : (engine.departing agent agent.origin).departed agent = .ok true) :
    (s.land engine.supply.layout departure agent
      (engine.departing agent agent.origin)).HasJourney engine.supply agent departure := by
  have hx := undergoes_land hc hs.fits agent (within_departing agent agent.origin) departure
  obtain ⟨hwaits, hgoes⟩ := departing_eq_waits hanswer
  rw [hwaits] at hx ⊢
  have horigin : agent.route[0]? = some agent.origin := by
    rw [← List.head?_eq_getElem?, List.head?_eq_some_head agent.route_ne_nil]
    rfl
  have hplace : agent.movedTo 0 = agent := by
    rw [← hfresh]
    rfl
  obtain ⟨next, hnext⟩ := agent.exists_next? (by rwa [Agent.current?, hfresh]) hgoes
  have hroute : 1 < agent.route.length := by
    rw [Agent.next?, hfresh] at hnext
    exact (List.getElem?_eq_some_iff.1 hnext).1
  have hjourney : Journey engine.supply agent departure
      [.waits departure agent.origin agent.id (some agent.mode)]
        [(agent.origin, agent.movedTo 0)] [] :=
    .underway (.departs hroute horigin) horigin
  -- The agent was not on the network, so that its new place is the only one.
  obtain ⟨others, hbefore, hafter⟩ := hx.seatsOf agent.id
  rw [h.seats] at hbefore
  obtain rfl : others = [] := (List.append_eq_nil_iff.1 hbefore.symm.eq_nil).2
  rw [List.append_nil] at hafter
  have hseats := hjourney.seats_eq (by simpa [Landing.transfer, Landing.seat?, hplace] using hafter)
  unfold HasJourney
  rw [hx.eventsOf, hx.handedOverOf, h.events, h.handedOver, hseats]
  simpa [Landing.transfer, Landing.events, Landing.arrived?, Event.person] using hjourney

end Loading

/-! ## Runs -/

namespace Engine.Runs

variable {engine : Engine} {population : Population} {stages : List Stage} {t : Loading}

/-- Nothing is known of a person who was not accepted. -/
theorem absent (hc : engine.supply.layout.Closed)
    (h : engine.Runs (.empty engine.supply.layout population) stages t) {p : PersonId}
    (hp : p ∉ stages.flatMap (·.accepted)) : t.Absent engine.supply.layout p := by
  refine induct hc (Loading.sound_empty _ _)
    (P := fun stages t => p ∉ stages.flatMap (·.accepted) → t.Absent engine.supply.layout p)
    (fun _ => Loading.absent_empty _ _ p) ?_ h hp
  intro stages t call answer u _ hsound hperforms ih hp
  simp only [List.flatMap_append, List.flatMap_singleton, List.mem_append, not_or] at hp
  exact (ih hp.1).performs hc hsound hperforms hp.2

/-- In every run without resets, in which no two agents share an id, all that is told of an agent
who departed at the start of its route is a journey. -/
theorem journey (hb : engine.Constructed)
    (h : engine.Runs (.empty engine.supply.layout population) stages t)
    (hreset : ∀ stage ∈ stages, stage.call ≠ .reset)
    (hids : (stages.flatMap (·.accepted)).Nodup) {agent : Agent} (hfresh : agent.position = 0)
    {before after : Loading} {departure : UInt32}
    (hdeparted : ⟨before, .depart agent agent.origin departure, .departed (.ok true), after⟩ ∈
      stages) :
    Journey engine.supply agent departure (t.eventsOf agent.id)
      (t.seatsOf engine.supply.layout agent.id) (t.handedOverOf agent.id) := by
  have hc := hb.closed
  -- The induction is on the run; the claim grows with the call by which the agent departs.
  refine induct hc (Loading.sound_empty _ _) (P := fun stages t =>
    (∀ stage ∈ stages, stage.call ≠ .reset) → (stages.flatMap (·.accepted)).Nodup →
      ⟨before, .depart agent agent.origin departure, .departed (.ok true), after⟩ ∈ stages →
        t.HasJourney engine.supply agent departure) nofun ?_ h hreset hids hdeparted
  intro stages t call answer u hrun hsound hperforms ih hreset hids hmem
  obtain ⟨hearlier, hcall⟩ := List.forall_mem_append.1 hreset
  simp only [List.flatMap_append, List.flatMap_singleton] at hids
  obtain ⟨hnodup, -, hapart⟩ := List.nodup_append.1 hids
  rcases List.mem_append.1 hmem with hmem | hmem
  · -- The agent departed earlier, and nobody of its id is accepted again.
    have haccepted : agent.id ∈ stages.flatMap (·.accepted) :=
      List.mem_flatMap.2 ⟨_, hmem, List.mem_singleton_self _⟩
    exact (ih hearlier hnodup hmem).performs hc hsound (hrun.onward hc) hperforms
      (hcall _ List.mem_cons_self) fun hnew => hapart _ haccepted _ hnew rfl
  · cases List.mem_singleton.1 hmem
    have habsent := hrun.absent hc (p := agent.id) fun hold =>
      hapart _ hold _ (List.mem_singleton_self _) rfl
    generalize hanswer : Answer.departed (.ok true) = answer at hperforms
    obtain ⟨⟨⟩⟩ := hperforms
    exact habsent.departs hc hsound hfresh (Answer.departed.inj hanswer).symm

/-- An agent who departs and is refused by the second link of its route. -/
theorem journey_ring : ∃ stages t,
    Sample.ringEngine.Runs (.empty Sample.ringEngine.supply.layout ⟨2, 0⟩) stages t ∧
    t.eventsOf Sample.ann = [.waits 5 Sample.lane Sample.ann (some Sample.car),
      .left 6 Sample.lane Sample.ann, .stuck 6 Sample.track Sample.ann (some Sample.car)] ∧
    Journey Sample.ringEngine.supply (Sample.stray Sample.ann) 5 (t.eventsOf Sample.ann)
      (t.seatsOf Sample.ringEngine.supply.layout Sample.ann) (t.handedOverOf Sample.ann) := by
  have hwhole := Orders.whole_ascending Sample.ringEngine.supply.layout
  have h : Sample.ringEngine.Runs (.empty Sample.ringEngine.supply.layout ⟨2, 0⟩)
      [⟨_, .depart (Sample.stray Sample.ann) Sample.lane 5, _, _⟩, ⟨_, .step 6, _, _⟩] _ :=
    .call (.call .start hwhole rfl) hwhole rfl
  refine ⟨_, _, h, rfl, journey Sample.constructed_ringEngine h ?_ ?_ rfl (List.mem_cons_self ..)⟩
  · simp
  · decide

end Engine.Runs

end NetworkLoading
