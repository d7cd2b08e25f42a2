import NetworkLoading.Proofs.Conservation
import NetworkLoading.Proofs.Marks
import NetworkLoading.Proofs.Noninterference

/-!
# Who is on a link after a step

When no two agents on the network share an id, those on a link after a step are those in transit who
were not due yet, and those who crossed a node onto it. Nobody crosses more than one node.
-/

namespace NetworkLoading

theorem LinkQueue.mem_foldl_insertTraveller {v : Traveller} {ts us : List Traveller} :
    v ∈ ts.foldl (fun us t => insertTraveller t us) us ↔ v ∈ ts ∨ v ∈ us := by
  induction ts generalizing us with
  | nil => simp
  | cons t rest ih =>
    rw [List.foldl_cons, ih, (insertTraveller_perm t us).mem_iff, List.mem_cons, List.mem_cons]
    tauto

theorem Crossing.turn_of_entrant {x : Crossing} {link : LinkId} {v : Traveller}
    (h : x.entrant? link = some v) :
    x.turn = .onto link v.exitTime ∧ v.agent = x.agent.proceed := by
  unfold entrant? at h
  split at h
  · rename_i next exitTime hturn
    split at h
    · rename_i he
      cases h
      exact ⟨he ▸ hturn, rfl⟩
    · cases h
  · cases h
  · cases h

/-- Who enters a link is put into transit there. -/
theorem Crossing.entrant_of_entered {x : Crossing} {now since : UInt32} {link : LinkId}
    {p : PersonId} (h : Event.entered since link p ∈ x.events now) :
    since = now ∧ ∃ v, x.entrant? link = some v ∧ v.agent.id = p := by
  unfold events at h
  unfold entrant?
  cases hturn : x.turn with
  | onto next exitTime =>
    rw [hturn] at h
    simp only [List.mem_cons, reduceCtorEq, List.not_mem_nil, Event.entered.injEq, or_false,
      false_or] at h
    obtain ⟨rfl, rfl, rfl⟩ := h
    exact ⟨rfl, _, if_pos rfl, rfl⟩
  | lost error => simp [hturn] at h
  | refused next error => simp [hturn] at h

theorem Crossing.entered_of_entrant {x : Crossing} {link : LinkId} {v : Traveller}
    (h : x.entrant? link = some v) (now : UInt32) :
    Event.entered now link v.agent.id ∈ x.events now := by
  obtain ⟨hturn, hproceed⟩ := turn_of_entrant h
  simp [events, hturn, hproceed]

theorem Crossing.countP_events_le (now : UInt32) (x : Crossing) (kind : EventKind) :
    (x.events now).countP (·.kind = kind) ≤ 1 := by
  unfold events
  cases x.turn <;> cases kind <;> simp [Event.kind]

/-- A traveller may leave its link at the time which was told when it entered. -/
def Traveller.Timed (supply : Supply) (since : UInt32) (link : LinkId) (v : Traveller) : Prop :=
  ∃ road ∈ supply.layout.links, road.id = link ∧
    supply.travelTimes.exitTime road since v.agent = .ok v.exitTime

theorem Supply.timed_of_entrant {supply : Supply} {node : Junction} {now : UInt32}
    {inLink link : LinkId} {agent : Agent} {v : Traveller}
    (h : (supply.crossing node now inLink agent).entrant? link = some v) :
    v.Timed supply now link := by
  obtain ⟨hturn, hproceed⟩ := Crossing.turn_of_entrant h
  obtain ⟨road, hl, hid, -, hexit⟩ := Loading.exists_road_of_onto hturn
  exact ⟨road, hl, hid, hproceed ▸ hexit⟩

namespace Loading

variable {l : Layout} {s t : Loading} {now : UInt32} {engine : Engine}

/-! ## Persons who are on the network once -/

/-- No two agents on the network share an id. -/
def Distinct (l : Layout) (s : Loading) : Prop :=
  ((s.everyone l).map (·.2.id)).Nodup

theorem Balances.distinct {accepted dropped : List PersonId} (h : s.Balances l accepted dropped)
    (hids : accepted.Nodup) : s.Distinct l := by
  have hall := h.persons.nodup_iff.1 hids
  exact (List.nodup_append.1 (List.nodup_append.1 hall).1).1

/-- Agents of one id are one agent on one link. -/
theorem Distinct.eq (h : s.Distinct l) {a b : LinkId × Agent} (ha : a ∈ s.everyone l)
    (hb : b ∈ s.everyone l) (hid : a.2.id = b.2.id) : a = b :=
  List.inj_on_of_nodup_map h ha hb hid

theorem Distinct.nodup_agents (h : s.Distinct l) {id : LinkId} (hid : id ∈ l.linkIds) :
    ((s.queue id).agents.map (·.id)).Nodup := by
  have hall := ((everyone_perm_append hid s).map fun x : LinkId × Agent => x.2.id).nodup_iff.1 h
  rw [List.map_append, List.map_map] at hall
  exact (List.nodup_append.1 hall).1

theorem Distinct.nodup_inTransit (h : s.Distinct l) {id : LinkId} (hid : id ∈ l.linkIds) :
    ((s.queue id).inTransit.map (·.agent.id)).Nodup := by
  have hall := h.nodup_agents hid
  simp only [LinkQueue.agents, List.map_append, List.map_map] at hall
  exact (List.nodup_append.1 (List.nodup_append.1 hall).1).1

/-- The agents who stay when links advance, and those who arrive. -/
theorem everyone_foldl_flow (hc : l.Closed) (hs : s.Fits l) {ids : List LinkId}
    (hids : ids ⊆ l.linkIds) (now : UInt32) :
    ∃ gone, (s.everyone l).Perm (gone ++ (ids.foldl (Loading.flow now) s).everyone l) := by
  induction ids generalizing s with
  | nil => exact ⟨[], .refl _⟩
  | cons id rest ih =>
    obtain ⟨hid, hrest⟩ := List.cons_subset.1 hids
    obtain ⟨others, hbefore, hafter⟩ := (undergoes_flow hc hs hid now).agents
    obtain ⟨gone, hgone⟩ := ih (hs.flow now id) hrest
    refine ⟨((s.queue id).arriving id now).map (id, ·) ++ gone, hbefore.trans ?_⟩
    rw [List.append_assoc]
    exact (hafter.symm.trans hgone).append_left _

theorem everyone_drive (hc : l.Closed) (hs : s.Fits l) (now : UInt32) (parts : List Nat) :
    ∃ gone, (s.everyone l).Perm (gone ++ (s.drive l now parts).everyone l) := by
  rw [← everyone_clearActive]
  exact everyone_foldl_flow hc (fits_clearActive.2 hs) (hc.linkTours_subset parts) now

theorem Distinct.drive (hc : l.Closed) (hs : s.Fits l) (h : s.Distinct l) (now : UInt32)
    (parts : List Nat) : (s.drive l now parts).Distinct l := by
  obtain ⟨gone, hgone⟩ := everyone_drive hc hs now parts
  have hall := (hgone.map fun x : LinkId × Agent => x.2.id).nodup_iff.1 h
  rw [List.map_append] at hall
  exact (List.nodup_append.1 hall).2.1

/-! ## A step -/

section Step

theorem mem_everyone_of_toLeave {id : LinkId} (hid : id ∈ l.linkIds) {agent : Agent}
    (h : agent ∈ (s.queue id).toLeave) : (id, agent) ∈ s.everyone l :=
  mem_everyone.2 ⟨hid, List.mem_append_right _ h⟩

variable {forLinks forNodes : List Nat} {stats : StepStats}

/-- Whoever waits at the end of a link when the nodes advance crosses one of them. -/
theorem exists_move (hc : engine.supply.layout.Closed)
    (hn : forNodes.Perm (List.range engine.supply.layout.numParts)) {id : LinkId}
    (hid : id ∈ engine.supply.layout.linkIds) {agent : Agent}
    (hwaits : agent ∈ (s.queue id).toLeave) (now : UInt32) :
    ∃ x ∈ s.allMoves engine.supply now forNodes, x.inLink = id ∧ x.agent = agent := by
  obtain ⟨link, hl, rfl⟩ := List.mem_map.1 hid
  obtain ⟨node, hnode, hto, -⟩ := hc.target link hl
  have htours := hc.nodeTours_perm hn
  have hmem : link.toNode ∈ forNodes.flatMap engine.supply.layout.nodeTour :=
    htours.mem_iff.2 (hto ▸ List.mem_map_of_mem hnode)
  rw [← leaving_moves hc hl (htours.nodup_iff.2 hc.junctions_apart.nodup) hmem] at hwaits
  obtain ⟨x, hx, he⟩ := List.mem_map.1 hwaits
  obtain ⟨hx, hin⟩ := List.mem_filter.1 hx
  exact ⟨x, hx, of_decide_eq_true hin, he⟩

/-- Whoever crosses a node waited at the end of a link that leads to it. -/
theorem of_mem_moves (hc : engine.supply.layout.Closed) {id : NodeId} {x : Crossing}
    (hx : x ∈ s.moves engine.supply now id) :
    ∃ node, x.inLink ∈ engine.supply.layout.linkIds ∧ x.agent ∈ (s.queue x.inLink).toLeave ∧
      x = engine.supply.crossing node now x.inLink x.agent := by
  obtain ⟨node, hn, -, hx⟩ := mem_moves hx
  obtain ⟨inLink, hin, agent, hagent, rfl⟩ := mem_crossingsFrom.1 hx
  exact ⟨node, hc.mem_linkIds_of_mem_inLinks hn hin, hagent, rfl⟩

theorem mem_everyone_of_move (hc : engine.supply.layout.Closed) {id : NodeId} {x : Crossing}
    (hx : x ∈ s.moves engine.supply now id) :
    (x.inLink, x.agent) ∈ s.everyone engine.supply.layout := by
  obtain ⟨node, hin, hwaits, -⟩ := of_mem_moves hc hx
  exact mem_everyone_of_toLeave hin hwaits

theorem timed_of_mem_moves (hc : engine.supply.layout.Closed) {id : NodeId} {x : Crossing}
    (hx : x ∈ s.moves engine.supply now id) {link : LinkId} {v : Traveller}
    (hv : x.entrant? link = some v) : v.Timed engine.supply now link := by
  obtain ⟨node, -, -, hcrossing⟩ := of_mem_moves hc hx
  rw [hcrossing] at hv
  exact Supply.timed_of_entrant hv

/-- No person crosses a node twice. -/
theorem Distinct.nodup_moves (hc : engine.supply.layout.Closed)
    (h : s.Distinct engine.supply.layout) {node : Junction}
    (hnode : node ∈ engine.supply.layout.junctions) (now : UInt32) :
    ((s.moves engine.supply now node.id).map (·.agent.id)).Nodup := by
  have hloaded {link : LinkId} (hlink : link ∈ node.inLinks) :=
    hc.mem_linkIds_of_mem_inLinks hnode hlink
  rw [moves_eq hc hnode, crossings, crossingsFrom, List.map_flatMap]
  -- Nobody waits twice on a link, or on two links.
  refine List.nodup_flatMap.2 ⟨fun link hlink => ?_,
    (hc.nodup_inLinks hnode).imp_of_mem fun {i j} hi hj hne => ?_⟩
  · have hall := h.nodup_agents (hloaded hlink)
    rw [LinkQueue.agents, List.map_append] at hall
    rw [List.map_map]
    exact (List.nodup_append.1 hall).2.1
  · intro p hp hp'
    obtain ⟨x, hx, rfl⟩ := List.mem_map.1 hp
    obtain ⟨y, hy, hid⟩ := List.mem_map.1 hp'
    obtain ⟨a, ha, rfl⟩ := List.mem_map.1 hx
    obtain ⟨b, hb, rfl⟩ := List.mem_map.1 hy
    have hseats := h.eq (mem_everyone_of_toLeave (hloaded hi) ha)
      (mem_everyone_of_toLeave (hloaded hj) hb) hid.symm
    exact hne (Prod.mk.inj hseats).1

/-- No person crosses two nodes in a step. -/
theorem Distinct.nodup_allMoves (hc : engine.supply.layout.Closed)
    (hn : forNodes.Perm (List.range engine.supply.layout.numParts))
    (h : s.Distinct engine.supply.layout) (now : UInt32) :
    ((s.allMoves engine.supply now forNodes).map (·.agent.id)).Nodup := by
  have hnodes : (forNodes.flatMap engine.supply.layout.nodeTour).Nodup :=
    (hc.nodeTours_perm hn).nodup_iff.2 hc.junctions_apart.nodup
  rw [allMoves, List.map_flatMap]
  refine List.nodup_flatMap.2 ⟨fun id hid => ?_, hnodes.imp fun {i j} hne => ?_⟩
  · obtain ⟨node, hnode, rfl⟩ := List.mem_map.1 (hc.nodeTours_subset forNodes hid)
    exact h.nodup_moves hc hnode now
  · intro p hp hp'
    obtain ⟨x, hx, rfl⟩ := List.mem_map.1 hp
    obtain ⟨y, hy, hid⟩ := List.mem_map.1 hp'
    have hseats := h.eq (mem_everyone_of_move hc hx) (mem_everyone_of_move hc hy) hid.symm
    exact hne (target_unique hc hx hy (Prod.mk.inj hseats).1)

namespace Stepped

/-- In transit are those who are not due yet, and those who crossed a node. -/
theorem mem_inTransit (hc : engine.supply.layout.Closed) (hs : s.Settled engine.supply.layout)
    (hl : forLinks.Perm (List.range engine.supply.layout.numParts))
    (h : Stepped engine now forLinks forNodes s stats t) {id : LinkId}
    (hid : id ∈ engine.supply.layout.linkIds) {v : Traveller} :
    v ∈ (t.queue id).inTransit ↔ (v ∈ (s.queue id).inTransit ∧ now < v.exitTime) ∨
      ∃ x ∈ (s.drive engine.supply.layout now forLinks).allMoves engine.supply now forNodes,
        x.entrant? id = some v := by
  have hqueue := congrArg LinkQueue.inTransit (h.queue hc hs hl hid)
  rw [LinkQueue.inTransit_unmarked] at hqueue
  rw [hqueue, LinkQueue.mem_foldl_insertTraveller, List.mem_filterMap, or_comm]
  refine or_congr_left ?_
  rw [LinkQueue.advance, dropWhile_eq_filter ((hs.ordered id hid).due_of_due now), List.mem_filter]
  simp

/-- After a step everyone on a link is in transit. -/
theorem agents_queue (hc : engine.supply.layout.Closed) (hs : s.Settled engine.supply.layout)
    (hl : forLinks.Perm (List.range engine.supply.layout.numParts))
    (h : Stepped engine now forLinks forNodes s stats t) {id : LinkId}
    (hid : id ∈ engine.supply.layout.linkIds) :
    (t.queue id).agents = (t.queue id).inTransit.map (·.agent) := by
  have hactivity := congrArg LinkQueue.afterActivity (h.queue hc hs hl hid)
  rw [LinkQueue.afterActivity_unmarked] at hactivity
  rw [LinkQueue.agents, hactivity, h.settled.quiet id hid, List.append_nil, List.append_nil]

/-- Who was on a link is no longer there unless it is in transit and not due yet. -/
theorem not_mem_agents (hc : engine.supply.layout.Closed) (hs : s.Settled engine.supply.layout)
    (hdistinct : s.Distinct engine.supply.layout)
    (hl : forLinks.Perm (List.range engine.supply.layout.numParts))
    (h : Stepped engine now forLinks forNodes s stats t) {id : LinkId}
    (hid : id ∈ engine.supply.layout.linkIds) {agent : Agent} (hagent : agent ∈ (s.queue id).agents)
    (hdue : ∀ v ∈ (s.queue id).inTransit, v.agent = agent → v.exitTime ≤ now) :
    agent ∉ (t.queue id).agents := by
  rw [h.agents_queue hc hs hl hid]
  intro hmem
  obtain ⟨v, hv, rfl⟩ := List.mem_map.1 hmem
  rcases (h.mem_inTransit hc hs hl hid).1 hv with ⟨hold, hlate⟩ | ⟨x, hx, hentrant⟩
  · exact UInt32.not_lt.2 (hdue v hold rfl) hlate
  · -- Whoever enters a link was there before, but at an earlier position of its route.
    obtain ⟨node, -, hx⟩ := List.mem_flatMap.1 hx
    obtain ⟨gone, hgone⟩ := everyone_drive hc hs.fits now forLinks
    have hbefore : (x.inLink, x.agent) ∈ s.everyone engine.supply.layout :=
      hgone.mem_iff.2 (List.mem_append_right _ (mem_everyone_of_move hc hx))
    obtain ⟨-, hproceed⟩ := Crossing.turn_of_entrant hentrant
    have hsame := hdistinct.eq hbefore (mem_everyone.2 ⟨hid, hagent⟩) (by rw [hproceed]; rfl)
    have hposition := congrArg Agent.position ((Prod.mk.inj hsame).2.trans hproceed)
    simp [Agent.proceed] at hposition

/-- Who waits at the end of a link when the nodes advance leaves the link. -/
theorem left_of_toLeave (hc : engine.supply.layout.Closed)
    (hn : forNodes.Perm (List.range engine.supply.layout.numParts)) {id : LinkId}
    (hid : id ∈ engine.supply.layout.linkIds) {agent : Agent}
    (hwaits : agent ∈ (s.queue id).toLeave) (now : UInt32) :
    Event.left now id agent.id ∈
      (s.allMoves engine.supply now forNodes).flatMap (·.events now) := by
  obtain ⟨x, hx, rfl, rfl⟩ := exists_move hc hn hid hwaits now
  exact List.mem_flatMap.2 ⟨x, hx, Crossing.left_mem_events now x⟩

/-- Who ended an activity on a link leaves it. -/
theorem left_of_afterActivity (hc : engine.supply.layout.Closed)
    (hs : s.Settled engine.supply.layout)
    (hl : forLinks.Perm (List.range engine.supply.layout.numParts))
    (hn : forNodes.Perm (List.range engine.supply.layout.numParts)) {id : LinkId}
    (hid : id ∈ engine.supply.layout.linkIds) {agent : Agent}
    (hwaits : agent ∈ (s.queue id).afterActivity) (now : UInt32) :
    Event.left now id agent.id ∈
      ((s.drive engine.supply.layout now forLinks).allMoves engine.supply now forNodes).flatMap
        (·.events now) := by
  refine left_of_toLeave hc hn hid ?_ now
  rw [queue_drive hc hs.fits hl hid]
  exact List.mem_append_right _ hwaits

/-- Who is due arrives or leaves the link. -/
theorem released_of_due (hc : engine.supply.layout.Closed) (hs : s.Settled engine.supply.layout)
    (hl : forLinks.Perm (List.range engine.supply.layout.numParts))
    (hn : forNodes.Perm (List.range engine.supply.layout.numParts)) {id : LinkId}
    (hid : id ∈ engine.supply.layout.linkIds) {v : Traveller} (hv : v ∈ (s.queue id).inTransit)
    (hdue : v.exitTime ≤ now) :
    if v.agent.endsOn id then
      v.agent ∈ s.arrivals now (forLinks.flatMap engine.supply.layout.linkTour)
    else Event.left now id v.agent.id ∈
      ((s.drive engine.supply.layout now forLinks).allMoves engine.supply now forNodes).flatMap
        (·.events now) := by
  -- The link drives before the nodes are visited, and whoever is due leaves the transit then.
  have hmem : v.agent ∈ ((s.queue id).due now).map (·.agent) := by
    refine List.mem_map_of_mem ?_
    rw [LinkQueue.due, takeWhile_eq_filter ((hs.ordered id hid).due_of_due now)]
    exact List.mem_filter.2 ⟨hv, decide_eq_true hdue⟩
  split
  · rename_i hends
    have htour : id ∈ forLinks.flatMap engine.supply.layout.linkTour :=
      (hc.linkTours_perm hl).mem_iff.2 hid
    exact List.mem_flatMap.2 ⟨id, htour, List.mem_filter.2 ⟨hmem, hends⟩⟩
  · rename_i hgoes
    refine left_of_toLeave hc hn hid ?_ now
    rw [queue_drive hc hs.fits hl hid]
    refine List.mem_append_left _ (List.mem_append_right _ (List.mem_filter.2 ⟨hmem, ?_⟩))
    simpa using hgoes

/-- Whoever enters a link in a step is in transit there afterwards. -/
theorem exists_of_entered (hc : engine.supply.layout.Closed) (hs : s.Settled engine.supply.layout)
    (hl : forLinks.Perm (List.range engine.supply.layout.numParts))
    (h : Stepped engine now forLinks forNodes s stats t) {since : UInt32} {link : LinkId}
    {p : PersonId} (hentered : Event.entered since link p ∈
      ((s.drive engine.supply.layout now forLinks).allMoves engine.supply now forNodes).flatMap
        (·.events now)) :
    ∃ v ∈ (t.queue link).inTransit, v.agent.id = p ∧ v.Timed engine.supply since link := by
  obtain ⟨x, hx, he⟩ := List.mem_flatMap.1 hentered
  obtain ⟨rfl, v, hv, hid⟩ := Crossing.entrant_of_entered he
  obtain ⟨id, -, hmove⟩ := List.mem_flatMap.1 hx
  have hloaded : link ∈ engine.supply.layout.linkIds :=
    (within_of_mem_moves hc hmove).onto link _ (Crossing.turn_of_entrant hv).1
  exact ⟨v, (h.mem_inTransit hc hs hl hloaded).2 (.inr ⟨x, hx, hv⟩), hid,
    timed_of_mem_moves hc hmove hv⟩

/-- Whoever is in transit after a step was there before, or entered the link in the step. -/
theorem entered_of_mem (hc : engine.supply.layout.Closed) (hs : s.Settled engine.supply.layout)
    (hl : forLinks.Perm (List.range engine.supply.layout.numParts))
    (h : Stepped engine now forLinks forNodes s stats t) {id : LinkId}
    (hid : id ∈ engine.supply.layout.linkIds) {v : Traveller} (hv : v ∈ (t.queue id).inTransit) :
    v ∈ (s.queue id).inTransit ∨ v.Timed engine.supply now id ∧ Event.entered now id v.agent.id ∈
      ((s.drive engine.supply.layout now forLinks).allMoves engine.supply now forNodes).flatMap
        (·.events now) := by
  rcases (h.mem_inTransit hc hs hl hid).1 hv with ⟨hold, -⟩ | ⟨x, hx, hentrant⟩
  · exact .inl hold
  · obtain ⟨node, -, hmove⟩ := List.mem_flatMap.1 hx
    exact .inr ⟨timed_of_mem_moves hc hmove hentrant,
      List.mem_flatMap.2 ⟨x, hx, Crossing.entered_of_entrant hentrant now⟩⟩

end Stepped

/-- No step publishes two events of one kind about a person. -/
theorem Distinct.countP_events_allMoves (hc : engine.supply.layout.Closed)
    (hn : forNodes.Perm (List.range engine.supply.layout.numParts))
    (h : s.Distinct engine.supply.layout) (now : UInt32) (p : PersonId) (kind : EventKind) :
    (((s.allMoves engine.supply now forNodes).flatMap (·.events now)).filter
      (·.person = p)).countP (·.kind = kind) ≤ 1 := by
  -- The events about a person are those of a single crossing, if there are any.
  rw [Crossing.filter_flatMap_agent (Crossing.person_of_mem_events now)]
  have hone : ((s.allMoves engine.supply now forNodes).filter (·.agent.id = p)).length ≤ 1 := by
    rw [← List.countP_eq_length_filter]
    have hcount := List.nodup_iff_count_le_one.1 (h.nodup_allMoves hc hn now) p
    rw [List.count_eq_countP, List.countP_map] at hcount
    refine Nat.le_trans (Nat.le_of_eq (List.countP_congr fun x _ => ?_)) hcount
    simp
  generalize (s.allMoves engine.supply now forNodes).filter (·.agent.id = p) = xs at hone ⊢
  cases xs with
  | nil => exact Nat.zero_le 1
  | cons x rest =>
    obtain rfl : rest = [] := List.length_eq_zero_iff.1 (by simpa using hone)
    rw [List.flatMap_singleton]
    exact Crossing.countP_events_le now x kind

end Step

end Loading

end NetworkLoading
