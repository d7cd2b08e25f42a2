import NetworkLoading.Proofs.Emptying

/-!
# Agents who come onto the network

What comes of an agent who is put onto a link depends on the agent and the link, and on nothing that
happened before: it is turned down, it has arrived already, or it joins one of the queues of the
link.
-/

namespace NetworkLoading

/-- What comes of an agent who is put onto the network. -/
inductive Landing where
  | refused (error : LoadingError)
  /-- The leg ends where it starts. -/
  | arrives
  /-- The agent waits on a link after an activity. -/
  | waits (link : LinkId)
  /-- The agent is in transit on a link. -/
  | enters (link : LinkId) (exitTime : UInt32)

namespace Landing

/-- The queues of a link after the landing. -/
def fill (agent : Agent) (link : LinkId) (x : Landing) (q : LinkQueue) : LinkQueue :=
  match x with
  | refused _ | arrives => q
  | waits id => if id = link then q.depart agent else q
  | enters id exitTime => if id = link then q.enter { exitTime, agent } else q

/-- The events of the landing. -/
def events (now : UInt32) (agent : Agent) : Landing → List Event
  | refused _ | arrives => []
  | waits id => [.waits now id agent.id (some agent.mode)]
  | enters id _ => [.entered now id agent.id]

/-- The agent, if it has arrived. -/
def arrived? (now : UInt32) (agent : Agent) : Landing → Option Agent
  | refused _ | waits _ | enters .. => none
  | arrives => some (agent.arrive now)

/-- Whether the agent is on the network. -/
def isIn : Landing → Bool
  | refused _ | arrives => false
  | waits _ | enters .. => true

/-- The answer to an agent who departs. -/
def departed (agent : Agent) : Landing → Except Rejected Bool
  | refused error => .error { agent, error }
  | arrives => .ok false
  | waits _ | enters .. => .ok true

/-- The answer to an agent who is moved onto a link. -/
def entered (agent : Agent) : Landing → Except Rejected Unit
  | refused error => .error { agent, error }
  | arrives | waits _ | enters .. => .ok ()

/-- The link of the landing is loaded. -/
def Within (l : Layout) : Landing → Prop
  | refused _ | arrives => True
  | waits id | enters id _ => id ∈ l.linkIds

end Landing

namespace Engine

variable (engine : Engine)

/-- What comes of an agent who ended an activity on a link. -/
def departing (agent : Agent) (id : LinkId) : Landing :=
  match engine.supply.layout.link? id with
  | none => .refused (.unknownLink id)
  | some link =>
    if (engine.supply.travelTimes.get? agent.mode).isNone then
      .refused (.missingTravelTime agent.mode)
    else if agent.endsOn id then .arrives
    else .waits link.id

/-- What comes of an agent who is moved onto a link. -/
def entering (agent : Agent) (id : LinkId) (now : UInt32) : Landing :=
  match engine.supply.layout.link? id with
  | none => .refused (.unknownLink id)
  | some link =>
    match engine.supply.travelTimes.exitTime link now agent with
    | .error error => .refused error
    | .ok exitTime => .enters link.id exitTime

end Engine

namespace Loading

variable {l : Layout} {s t : Loading} {now : UInt32} {engine : Engine}

/-- Puts an agent onto a link, into the queue which `f` changes. -/
def inject (l : Layout) (s : Loading) (event : Event) (id : LinkId) (f : LinkQueue → LinkQueue) :
    Loading :=
  match l.link? id with
  | some link => (((s.publish event).countIn 1).updateQueue link.id f).wakeLink link
  | none => s

/-- The state after a landing. -/
def land (l : Layout) (now : UInt32) (s : Loading) (agent : Agent) (x : Landing) : Loading :=
  match x with
  | .refused _ => s
  | .arrives => s.handOver (agent.arrive now)
  | .waits id => s.inject l (.waits now id agent.id (some agent.mode)) id (·.depart agent)
  | .enters id exitTime => s.inject l (.entered now id agent.id) id (·.enter { exitTime, agent })

/-! ## Calls -/

theorem mem_links_of_link? {id : LinkId} {link : Link} (h : l.link? id = some link) :
    link ∈ l.links ∧ link.id = id :=
  ⟨List.mem_of_find?_eq_some h, by simpa using List.find?_some h⟩

theorem within_departing (agent : Agent) (id : LinkId) :
    (engine.departing agent id).Within engine.supply.layout := by
  unfold Engine.departing
  split
  · trivial
  · rename_i link h
    split
    · trivial
    · split
      · trivial
      · exact List.mem_map_of_mem (mem_links_of_link? h).1

/-- Who departs onto the network waits on the link, and its leg does not end there. -/
theorem departing_eq_waits {link : LinkId}
    (h : (engine.departing agent link).departed agent = .ok true) :
    engine.departing agent link = .waits link ∧ agent.endsOn link = false := by
  unfold Engine.departing at h ⊢
  split at h
  · cases h
  · rename_i road hroad
    split at h
    · cases h
    · rename_i hmode
      split at h
      · cases h
      · rename_i hends
        refine ⟨?_, eq_false_of_ne_true hends⟩
        simp only [hmode, hends, (mem_links_of_link? hroad).2]
        rfl

theorem within_entering (agent : Agent) (id : LinkId) (now : UInt32) :
    (engine.entering agent id now).Within engine.supply.layout := by
  unfold Engine.entering
  split
  · trivial
  · rename_i link h
    split
    · trivial
    · exact List.mem_map_of_mem (mem_links_of_link? h).1

theorem depart_eq_ok (hc : engine.supply.layout.Closed) (hs : s.Fits engine.supply.layout)
    (agent : Agent) (id : LinkId) (now : UInt32) :
    engine.depart s agent id now =
      .ok ((engine.departing agent id).departed agent,
        s.land engine.supply.layout now agent (engine.departing agent id)) := by
  unfold Engine.depart Engine.departing
  cases h : engine.supply.layout.link? id with
  | none => rfl
  | some link =>
    obtain ⟨hl, rfl⟩ := mem_links_of_link? h
    dsimp only
    split
    · rfl
    · split
      · rfl
      -- Nothing but the queue of a link has changed when it is activated.
      · have hfits : ((((s.publish (.waits now link.id agent.id (some agent.mode))).countIn
            1)).updateQueue link.id (·.depart agent)).Fits engine.supply.layout := by
          refine hs.of_shape_eq ?_
          rw [shape_updateQueue, shape_countIn, traffic_publish]
        simp only [departOn, activateLink_eq_ok hc hfits hl, Except.map, land, inject, h,
          Landing.departed]

theorem enter_eq_ok (hc : engine.supply.layout.Closed) (hs : s.Fits engine.supply.layout)
    (agent : Agent) (id : LinkId) (now : UInt32) :
    engine.enter s agent id now =
      .ok ((engine.entering agent id now).entered agent,
        s.land engine.supply.layout now agent (engine.entering agent id now)) := by
  unfold Engine.enter Engine.entering
  cases h : engine.supply.layout.link? id with
  | none => rfl
  | some link =>
    obtain ⟨hl, rfl⟩ := mem_links_of_link? h
    dsimp only
    unfold enterLink
    cases engine.supply.travelTimes.exitTime link now agent with
    | error error => rfl
    | ok exitTime =>
      have hfits : ((((s.publish (.entered now link.id agent.id)).countIn 1)).updateQueue link.id
          (·.enter { exitTime, agent })).Fits engine.supply.layout := by
        refine hs.of_shape_eq ?_
        rw [shape_updateQueue, shape_countIn, traffic_publish]
      simp only [activateLink_eq_ok hc hfits hl, Except.map, land, inject, h, Landing.entered]

/-! ## What a landing changes -/

theorem Settled.of_traffic_eq (h : s.Settled l) (ht : t.traffic = s.traffic) : t.Settled l := by
  have hq : t.queue = s.queue := funext fun id => by rw [queue, ht, queue]
  have ha : t.nodeActive = s.nodeActive := funext fun id => by rw [nodeActive, ht, nodeActive]
  refine ⟨h.fits.of_shape_eq (by rw [ht]), hq ▸ h.live, ?_, ?_, hq ▸ h.quiet, hq ▸ h.ordered⟩
  · exact h.links.congr (by rw [ht]) fun id _ => by rw [hq]
  · exact h.nodes.congr (by rw [ht]) fun id _ => by rw [ha]

/-- What putting an agent into a queue does to the queues. -/
theorem queue_inject (hc : l.Closed) (hs : s.Fits l) (event : Event) {id : LinkId}
    (hid : id ∈ l.linkIds) (f : LinkQueue → LinkQueue) {other : LinkId} (ho : other ∈ l.linkIds) :
    (s.inject l event id f).queue other =
      if other = id then { f (s.queue other) with active := true } else s.queue other := by
  obtain ⟨link, hl, rfl⟩ := List.mem_map.1 hid
  have hentered : ((s.publish event).countIn 1).Fits l := hs.of_shape_eq rfl
  have hfits : (((s.publish event).countIn 1).updateQueue link.id f).Fits l :=
    hs.of_shape_eq (shape_updateQueue _ _ _)
  simp only [inject, hc.link?_eq hl]
  rw [queue_wakeLink hc hfits hl ho, queue_updateQueue hc hentered hid ho]
  by_cases he : other = link.id
  · simp only [if_pos he]
    rfl
  · simp only [if_neg he]
    rfl

theorem Settled.inject (hc : l.Closed) (h : s.Settled l) (event : Event) {id : LinkId}
    (hid : id ∈ l.linkIds) {f : LinkQueue → LinkQueue}
    (hactive : ∀ q, (f q).active = q.active) (hbusy : ∀ q, (f q).busy = true)
    (hquiet : ∀ q, (f q).toLeave = q.toLeave) (hordered : ∀ q, q.Ordered → (f q).Ordered) :
    (s.inject l event id f).Settled l := by
  have hq {other : LinkId} (ho : other ∈ l.linkIds) :=
    queue_inject hc h.fits event hid f ho
  obtain ⟨link, hl, rfl⟩ := List.mem_map.1 hid
  have hentered : ((s.publish event).countIn 1).Fits l := h.fits.of_shape_eq rfl
  have hfits : (((s.publish event).countIn 1).updateQueue link.id f).Fits l :=
    h.fits.of_shape_eq (shape_updateQueue _ _ _)
  have hinject : s.inject l event link.id f =
      (((s.publish event).countIn 1).updateQueue link.id f).wakeLink link := by
    simp only [Loading.inject, hc.link?_eq hl]
  refine ⟨?_, ?_, ?_, ?_, ?_, ?_⟩
  · rw [hinject]
    exact hfits.of_shape_eq (shape_wakeLink _ _)
  · intro other ho
    rw [hq ho]
    split
    · exact (hbusy _).symm
    · exact h.live other ho
  · -- The agent is queued first, and the link keeps its old mark until it is activated.
    rw [hinject]
    refine LinkMarks.wakeLink hc hfits (h.links.congr rfl fun other ho => ?_) hl List.not_mem_nil
    rw [queue_updateQueue hc hentered hid ho]
    split
    · exact hactive _
    · rfl
  · rw [hinject]
    refine h.nodes.congr (activeNodes_wakeLink _ _) ?_
    intro other _
    rw [nodeActive_wakeLink]
    rfl
  · intro other ho
    rw [hq ho]
    split
    · exact (hquiet _).trans (h.quiet other ho)
    · exact h.quiet other ho
  · intro other ho
    rw [hq ho]
    split
    · exact hordered _ (h.ordered other ho)
    · exact h.ordered other ho

theorem Settled.land (hc : l.Closed) (h : s.Settled l) (agent : Agent) {x : Landing}
    (hx : x.Within l) (now : UInt32) : (s.land l now agent x).Settled l := by
  cases x with
  | refused error => exact h
  | arrives => exact h.of_traffic_eq rfl
  | waits id =>
    refine h.inject hc _ hx (fun _ => rfl) (fun q => ?_) (fun _ => rfl) fun _ hq => hq
    exact LinkQueue.busy_eq_true.2 (.inr (by simp [LinkQueue.depart]))
  | enters id exitTime =>
    refine h.inject hc _ hx (fun _ => rfl) (fun q => ?_) (fun _ => rfl) fun q hq => ?_
    · exact LinkQueue.busy_enter q _
    · exact LinkQueue.Ordered.enter hq _

/-- What a landing does to the queues. -/
theorem queue_land (hc : l.Closed) (hs : s.Fits l) (agent : Agent) {x : Landing}
    (hx : x.Within l) {id : LinkId} (hid : id ∈ l.linkIds) :
    ((s.land l now agent x).queue id).unmarked = (x.fill agent id (s.queue id)).unmarked := by
  -- Only the mark tells an agent who was put onto a marked link from one who was not.
  cases x with
  | refused error => rfl
  | arrives => rfl
  | waits other =>
    simp only [Loading.land, queue_inject hc hs _ hx _ hid, Landing.fill, eq_comm]
    split <;> rfl
  | enters other exitTime =>
    simp only [Loading.land, queue_inject hc hs _ hx _ hid, Landing.fill, eq_comm]
    split <;> rfl

theorem record_inject (hc : l.Closed) (s : Loading) (event : Event) {id : LinkId}
    (hid : id ∈ l.linkIds) (f : LinkQueue → LinkQueue) :
    (s.inject l event id f).record = (s.publish event).record ∧
      (s.inject l event id f).traffic.onNetwork = s.traffic.onNetwork + 1 ∧
      (s.inject l event id f).nodeActive = s.nodeActive := by
  obtain ⟨link, hl, rfl⟩ := List.mem_map.1 hid
  simp only [inject, hc.link?_eq hl]
  refine ⟨?_, ?_, funext fun node => ?_⟩
  · rw [record_wakeLink]
    rfl
  · rw [onNetwork_wakeLink]
    rfl
  · rw [nodeActive_wakeLink]
    rfl

/-- What a landing leaves in the record. -/
theorem record_land (hc : l.Closed) (s : Loading) (agent : Agent) {x : Landing}
    (hx : x.Within l) (now : UInt32) :
    (s.land l now agent x).record = { s.record with
        events := s.record.events ++ (x.events now agent).toArray
        handedOver := s.record.handedOver ++ (x.arrived? now agent).toList.toArray } ∧
      (s.land l now agent x).traffic.onNetwork =
        (if x.isIn then s.traffic.onNetwork + 1 else s.traffic.onNetwork) ∧
      (s.land l now agent x).nodeActive = s.nodeActive := by
  cases x with
  | refused error => simp [land, Landing.events, Landing.arrived?, Landing.isIn]
  | arrives => simp [land, Landing.events, Landing.arrived?, Landing.isIn, handOver]; rfl
  | waits id =>
    obtain ⟨hrecord, hcount, hactive⟩ :=
      record_inject hc s (.waits now id agent.id (some agent.mode)) hx (·.depart agent)
    refine ⟨hrecord.trans ?_, hcount, hactive⟩
    simp [Landing.events, Landing.arrived?, publish]
  | enters id exitTime =>
    obtain ⟨hrecord, hcount, hactive⟩ :=
      record_inject hc s (.entered now id agent.id) hx (·.enter { exitTime, agent })
    refine ⟨hrecord.trans ?_, hcount, hactive⟩
    simp [Landing.events, Landing.arrived?, publish]

end Loading

end NetworkLoading
