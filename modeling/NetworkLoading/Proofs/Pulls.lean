import NetworkLoading.Proofs.Runs

/-!
# Whom a node pulls, and what becomes of them

A node pulls the agents who wait at the ends of its links: link by link as they were added to the
network, and on a link the first who came is the first who goes. Nobody starts to wait meanwhile,
even if an agent gets back onto the link it left. An agent whose route is broken is lost, and the
node goes on; one who has no valid travel time is lost, too, and all behind it stay where they are.
-/

namespace NetworkLoading

/-! ## What becomes of an agent -/

/-- What becomes of an agent whom a node pulls from a link. Nothing but its route, the links and the
travel times matters. -/
inductive Supply.Sends (supply : Supply) (node : Junction) (now : UInt32) (inLink : LinkId)
    (agent : Agent) : Turn → Prop
  /-- The next link of the route starts at the node, and the agent has a travel time there. -/
  | onto {link : Link} {exitTime : UInt32} (hlink : link ∈ supply.layout.links)
      (hnext : agent.next? = some link.id) (hfrom : link.fromNode = node.id)
      (htime : supply.travelTimes.exitTime link now agent.proceed = .ok exitTime) :
      Sends supply node now inLink agent (.onto link.id exitTime)
  /-- The next link of the route starts at the node, but no travel time is accepted there. -/
  | refused {link : Link} {error : LoadingError} (hlink : link ∈ supply.layout.links)
      (hnext : agent.next? = some link.id) (hfrom : link.fromNode = node.id)
      (htime : supply.travelTimes.exitTime link now agent.proceed = .error error) :
      Sends supply node now inLink agent (.refused link.id error)
  /-- The route has no next link. -/
  | ended (hnext : agent.next? = none) :
      Sends supply node now inLink agent (.lost (.noNextLink agent.id inLink))
  /-- The next link of the route is none of those which are loaded. -/
  | unknown {next : LinkId} (hnext : agent.next? = some next)
      (hlink : next ∉ supply.layout.linkIds) :
      Sends supply node now inLink agent (.lost (.unknownLink next))
  /-- The next link of the route starts at another node. -/
  | unconnected {link : Link} (hlink : link ∈ supply.layout.links)
      (hnext : agent.next? = some link.id) (hfrom : link.fromNode ≠ node.id) :
      Sends supply node now inLink agent
        (.lost (.unconnectedLinks agent.id inLink link.id node.id))

theorem Supply.sends_turn (supply : Supply) (node : Junction) (now : UInt32) (inLink : LinkId)
    (agent : Agent) : supply.Sends node now inLink agent (supply.turn node inLink now agent) := by
  unfold Supply.turn Loading.nextLink
  cases hnext : agent.next? with
  | none => exact .ended hnext
  | some next =>
    dsimp only
    cases hfound : supply.layout.link? next with
    | none => exact .unknown hnext (Layout.link?_eq_none_iff.1 hfound)
    | some link =>
      have hlink : link ∈ supply.layout.links := List.mem_of_find?_eq_some hfound
      obtain rfl : link.id = next := by simpa using List.find?_some hfound
      dsimp only
      by_cases hfrom : link.fromNode = node.id
      · rw [if_pos hfrom]
        dsimp only
        cases htime : supply.travelTimes.exitTime link now agent.proceed with
        | ok exitTime => exact .onto hlink hnext hfrom htime
        | error error => exact .refused hlink hnext hfrom htime
      · rw [if_neg hfrom]
        exact .unconnected hlink hnext hfrom

namespace Crossing

/-- Whether the agent enters a link. -/
def enters (link : LinkId) (x : Crossing) : Bool :=
  (x.entrant? link).isSome

/-- The message about an agent whose route is broken. -/
def warning? (now : UInt32) (x : Crossing) : Option LogLine :=
  match x.turn with
  | .lost error =>
    some (.warn s!"Removing agent {x.agent.id.name} at time {now}: {error.message}")
  | .onto .. | .refused .. => none

/-- Either all crossings take place, or those up to the first agent who is refused. -/
theorem cut_cases (xs : List Crossing) :
    ((∀ x ∈ xs, x.error? = none) ∧ tally xs = .ok xs.length ∧ cut xs = xs) ∨
      ∃ before x after error, xs = before ++ x :: after ∧ (∀ y ∈ before, y.error? = none) ∧
        x.error? = some error ∧ tally xs = .error error ∧ cut xs = before ++ [x] := by
  induction xs with
  | nil => exact .inl ⟨nofun, rfl, rfl⟩
  | cons x rest ih =>
    rw [tally, cut]
    cases he : x.error? with
    -- The first refusal ends the turn, and the refused agent is still pulled.
    | some error => exact .inr ⟨[], x, rest, error, rfl, nofun, he, rfl, rfl⟩
    | none =>
      rcases ih with ⟨hnone, htally, hcut⟩ |
          ⟨before, y, after, error, rfl, hbefore, hy, htally, hcut⟩
      · refine .inl ⟨List.forall_mem_cons.2 ⟨he, hnone⟩, ?_, ?_⟩
        · rw [htally]
          rfl
        · simp [hcut]
      · refine .inr ⟨x :: before, y, after, error, rfl, List.forall_mem_cons.2 ⟨he, hbefore⟩, hy,
          ?_, ?_⟩
        · rw [htally]
          rfl
        · simp [hcut]

end Crossing

namespace Loading

variable {l : Layout} {s t u : Loading} {now : UInt32} {supply : Supply} {xs ys : List Crossing}

/-! ## Marks -/

theorem mem_activeLinks_wakeLink (hc : l.Closed) (hs : s.Fits l) {link : Link} (h : link ∈ l.links)
    {part : Nat} {id : LinkId} : id ∈ (s.wakeLink link).traffic.activeLinks.ids part ↔
      id ∈ s.traffic.activeLinks.ids part ∨
        (s.queue link.id).active = false ∧ link.partition.toNat = part ∧ id = link.id := by
  have hlt : link.partition.toNat < s.traffic.activeLinks.parts.length := by
    rw [hs.length_activeLinks]
    exact hc.link_part_lt h
  unfold wakeLink
  split
  · rename_i hactive
    simp [hactive]
  · rename_i hactive
    rw [and_iff_right (Bool.eq_false_iff.2 hactive)]
    exact ActiveSets.mem_ids_insert hlt

/-- What some crossings do to the marks: the links which agents enter are marked, and those of them
which were not before are added to the active sets of their partitions. -/
structure Wakes (l : Layout) (xs : List Crossing) (s t : Loading) : Prop where
  active : ∀ id ∈ l.linkIds, (t.queue id).active = ((s.queue id).active || xs.any (·.enters id))
  activeLinks : ∀ part, ∀ id ∈ l.linkIds, id ∈ t.traffic.activeLinks.ids part ↔
    id ∈ s.traffic.activeLinks.ids part ∨
      xs.any (·.enters id) = true ∧ (s.queue id).active = false ∧ l.linkHome id = part
  strangers : ∀ part, ∀ id ∉ l.linkIds,
    id ∈ t.traffic.activeLinks.ids part ↔ id ∈ s.traffic.activeLinks.ids part
  nodes : t.traffic.nodes = s.traffic.nodes
  activeNodes : t.traffic.activeNodes = s.traffic.activeNodes

theorem Wakes.refl (l : Layout) (s : Loading) : Wakes l [] s s := by
  refine ⟨fun id _ => ?_, fun part id _ => ?_, fun _ _ _ => .rfl, rfl, rfl⟩
  · rw [List.any_nil, Bool.or_false]
  · simp

theorem Wakes.trans (h : Wakes l xs s t) (h' : Wakes l ys t u) : Wakes l (xs ++ ys) s u := by
  refine ⟨fun id hid => ?_, fun part id hid => ?_,
    fun part id hid => (h'.strangers part id hid).trans (h.strangers part id hid),
    h'.nodes.trans h.nodes, h'.activeNodes.trans h.activeNodes⟩
  · rw [h'.active id hid, h.active id hid, List.any_append, Bool.or_assoc]
  · rw [h'.activeLinks part id hid, h.activeLinks part id hid, h.active id hid, List.any_append]
    cases (s.queue id).active <;> cases xs.any (·.enters id) <;> simp

theorem wakes_cross (hc : l.Closed) (hs : s.Fits l) {x : Crossing} (hx : x.Within l)
    (now : UInt32) : Wakes l [x] s (s.cross l now x) := by
  obtain ⟨hnodes, hlinks, hactiveNodes⟩ := nodes_pass now s x
  have hfits := hs.pass now x
  have hactive (id : LinkId) (hid : id ∈ l.linkIds) :
      ((s.pass now x).queue id).active = (s.queue id).active := by
    rw [queue_pass hc hs hx hid, Crossing.active_carry]
  -- Nothing is woken unless the agent enters a link.
  have hnobody (hnone : ∀ id, x.enters id = false) : Wakes l [x] s (s.pass now x) := by
    refine ⟨fun id hid => ?_, fun part id _ => ?_, fun part id _ => ?_, hnodes, hactiveNodes⟩
    · simp [hactive id hid, hnone]
    · simp [hlinks, hnone]
    · rw [hlinks]
  unfold cross
  cases hturn : x.turn with
  | lost error => exact hnobody fun id => by simp [Crossing.enters, Crossing.entrant?, hturn]
  | refused link error =>
    exact hnobody fun id => by simp [Crossing.enters, Crossing.entrant?, hturn]
  | onto next exitTime =>
    obtain ⟨link, hl, rfl⟩ := List.mem_map.1 (hx.onto next exitTime hturn)
    have henters (id : LinkId) : x.enters id = decide (id = link.id) := by
      by_cases he : id = link.id
      · simp [Crossing.enters, Crossing.entrant?, hturn, he]
      · simp [Crossing.enters, Crossing.entrant?, hturn, he, Ne.symm he]
    simp only [follow, hc.link?_eq hl]
    refine ⟨fun id hid => ?_, fun part id hid => ?_, fun part id hid => ?_, ?_, ?_⟩
    · rw [queue_wakeLink hc hfits hl hid, List.any_cons, List.any_nil, Bool.or_false, henters]
      split <;> simp_all
    · rw [mem_activeLinks_wakeLink hc hfits hl, hlinks, hactive _ (List.mem_map_of_mem hl),
        List.any_cons, List.any_nil, Bool.or_false, henters, decide_eq_true_eq]
      refine or_congr_right ?_
      constructor
      · rintro ⟨hmark, hpart, rfl⟩
        exact ⟨rfl, hmark, (hc.linkHome_eq hl).trans hpart⟩
      · rintro ⟨rfl, hmark, hpart⟩
        exact ⟨hmark, (hc.linkHome_eq hl).symm.trans hpart, rfl⟩
    · rw [mem_activeLinks_wakeLink hc hfits hl, hlinks, or_iff_left]
      rintro ⟨-, -, rfl⟩
      exact hid (List.mem_map_of_mem hl)
    · rw [nodes_wakeLink, hnodes]
    · rw [activeNodes_wakeLink, hactiveNodes]

theorem wakes_foldl_cross (hc : l.Closed) (hs : s.Fits l) (hxs : ∀ x ∈ xs, x.Within l)
    (now : UInt32) : Wakes l xs s (xs.foldl (cross l now) s) := by
  induction xs generalizing s with
  | nil => exact .refl l s
  | cons x rest ih =>
    obtain ⟨hx, hrest⟩ := List.forall_mem_cons.1 hxs
    exact (wakes_cross hc hs hx now).trans (ih (hs.cross now x) hrest)

/-! ## Who is gone -/

/-- What some crossings did: they took agents from the heads of queues, told of it, put those who go
on onto their next links and handed over those who are lost. Nothing else has changed, except that
the links which were entered are marked. -/
structure Crossed (l : Layout) (now : UInt32) (xs : List Crossing) (s t : Loading) : Prop where
  events : t.record.events.toList = s.record.events.toList ++ xs.flatMap (·.events now)
  handedOver : t.record.handedOver.toList =
    s.record.handedOver.toList ++ xs.filterMap (·.ousted? now)
  population : t.record.population =
    Population.lose^[(xs.filterMap (·.ousted? now)).length] s.record.population
  log : t.record.log.toList = s.record.log.toList ++ xs.filterMap (·.warning? now)
  onNetwork : t.traffic.onNetwork =
    s.traffic.onNetwork - UInt64.ofNat (xs.filterMap (·.ousted? now)).length
  toLeave : ∀ id ∈ l.linkIds, (s.queue id).toLeave =
    (xs.filter (·.inLink = id)).map (·.agent) ++ (t.queue id).toLeave
  inTransit : ∀ id ∈ l.linkIds, (t.queue id).inTransit =
    (xs.filterMap (·.entrant? id)).foldl (fun ts t => LinkQueue.insertTraveller t ts)
      (s.queue id).inTransit
  afterActivity : ∀ id ∈ l.linkIds, (t.queue id).afterActivity = (s.queue id).afterActivity
  wakes : Wakes l xs s t
  fits : t.Fits l

theorem log_foldl_pass (now : UInt32) (s : Loading) (xs : List Crossing) :
    (xs.foldl (pass now) s).record.log.toList =
      s.record.log.toList ++ xs.filterMap (·.warning? now) := by
  rw [List.filterMap_eq_flatMap_toList]
  refine foldl_append (·.record.log.toList) (fun s x => ?_) s xs
  unfold pass Crossing.warning?
  dsimp only
  cases x.turn <;>
    simp [release, publish, countIn, countOut, updateQueue, say, abort, updatePopulation, handOver]

/-- A node takes the agents from a link in the order in which they wait there. -/
theorem leaving_crossings (hc : supply.layout.Closed) (s : Loading) (now : UInt32) {node : Junction}
    (hn : node ∈ supply.layout.junctions) {id : LinkId} (hid : id ∈ node.inLinks) :
    ((s.crossings supply now node).filter (·.inLink = id)).map (·.agent) =
      (s.queue id).toLeave := by
  obtain ⟨link, hl, rfl, hto⟩ := (hc.mem_inLinks hn).1 hid
  have hleave : (([node.id].flatMap (s.moves supply now)).filter (·.inLink = link.id)).map
      (·.agent) = (s.queue link.id).toLeave :=
    leaving_moves hc hl (List.nodup_singleton node.id) (List.mem_singleton.2 hto)
  rwa [List.flatMap_singleton, moves_eq hc hn] at hleave

theorem within_of_crossings (hc : supply.layout.Closed) {node : Junction}
    (hn : node ∈ supply.layout.junctions) (h : s.crossings supply now node = xs ++ ys) :
    ∀ x ∈ xs, x.Within supply.layout ∧ x.inLink ∈ node.inLinks := by
  intro x hx
  have hmem : x ∈ s.crossings supply now node := h ▸ List.mem_append_left ys hx
  exact ⟨within_of_mem_crossingsFrom (fun _ => hc.mem_linkIds_of_mem_inLinks hn) hmem,
    inLink_mem_of_mem_crossingsFrom hmem⟩

/-- The agents whom a node takes first have crossed. -/
theorem crossed_foldl_cross (hc : supply.layout.Closed) (hs : s.Fits supply.layout)
    {node : Junction} (hn : node ∈ supply.layout.junctions)
    (h : s.crossings supply now node = xs ++ ys) :
    s.Crossed supply.layout now xs (xs.foldl (cross supply.layout now) s) := by
  have hxs := within_of_crossings hc hn h
  have hwithin : ∀ x ∈ xs, x.Within supply.layout := fun x hx => (hxs x hx).1
  -- Marks aside the crossings are plain passes, whose effect on each part is known.
  have hclear := clearActive_foldl_cross supply.layout now s xs
  have hrecord : (xs.foldl (cross supply.layout now) s).record =
      (xs.foldl (pass now) s.clearActive).record := by
    rw [← hclear, record_clearActive]
  have hcount : (xs.foldl (cross supply.layout now) s).traffic.onNetwork =
      (xs.foldl (pass now) s.clearActive).traffic.onNetwork := by
    rw [← hclear, onNetwork_clearActive]
  have hqueue (id : LinkId) (hid : id ∈ supply.layout.linkIds) :
      ((xs.foldl (cross supply.layout now) s).queue id).unmarked =
        xs.foldl (Crossing.carry id) (s.queue id).unmarked := by
    rw [← queue_clearActive, hclear, queue_foldl_pass hc (fits_clearActive.2 hs) hwithin hid,
      queue_clearActive]
  refine ⟨?_, ?_, ?_, ?_, ?_, fun id hid => ?_, fun id hid => ?_, fun id hid => ?_,
    wakes_foldl_cross hc hs hwithin now, fits_foldl_cross hs now xs⟩
  · rw [hrecord, events_foldl_pass, record_clearActive]
  · rw [hrecord, handedOver_foldl_pass, record_clearActive]
  · rw [hrecord, population_foldl_pass, record_clearActive]
  · rw [hrecord, log_foldl_pass, record_clearActive]
  · rw [hcount, onNetwork_foldl_pass, onNetwork_clearActive]
  · have htoLeave := congrArg LinkQueue.toLeave (hqueue id hid)
    rw [Crossing.foldl_carry, LinkQueue.toLeave_unmarked] at htoLeave
    rw [htoLeave, LinkQueue.toLeave_unmarked]
    by_cases hin : id ∈ node.inLinks
    · -- Those who are taken from the link stand in front of those who are not.
      rw [← leaving_crossings hc s now hn hin, h, List.filter_append,
        List.map_append, foldl_erase_append]
    · have hnobody : xs.filter (·.inLink = id) = [] :=
        List.filter_eq_nil_iff.2 fun x hx he => hin (of_decide_eq_true he ▸ (hxs x hx).2)
      rw [hnobody]
      rfl
  · have hinTransit := congrArg LinkQueue.inTransit (hqueue id hid)
    rwa [Crossing.foldl_carry, LinkQueue.inTransit_unmarked] at hinTransit
  · have hafter := congrArg LinkQueue.afterActivity (hqueue id hid)
    rwa [Crossing.foldl_carry, LinkQueue.afterActivity_unmarked] at hafter

/-- The agents whom a node does not get to are still waiting. -/
theorem Crossed.toLeave_eq (hc : supply.layout.Closed) {node : Junction}
    (hn : node ∈ supply.layout.junctions) (h : s.crossings supply now node = xs ++ ys)
    (ht : s.Crossed supply.layout now xs t) {id : LinkId} (hid : id ∈ node.inLinks) :
    (t.queue id).toLeave = (ys.filter (·.inLink = id)).map (·.agent) := by
  have htoLeave := ht.toLeave id (hc.mem_linkIds_of_mem_inLinks hn hid)
  rw [← leaving_crossings hc s now hn hid, h, List.filter_append,
    List.map_append] at htoLeave
  exact (List.append_cancel_left htoLeave).symm

/-! ## All whom a node pulls -/

/-- What comes of a node which is to pull some agents. -/
inductive Pulls (l : Layout) (now : UInt32) (node : Junction) (xs : List Crossing) (s : Loading) :
    Except LoadingError Nat → Loading → Prop
  /-- Every travel time is accepted, and nobody is left waiting. -/
  | all {t : Loading} (haccepted : ∀ x ∈ xs, x.error? = none) (hcrossed : s.Crossed l now xs t)
      (hleft : ∀ id ∈ node.inLinks, (t.queue id).toLeave = []) :
      Pulls l now node xs s (.ok xs.length) t
  /-- An agent is refused. It is the last one who is pulled; those behind it are left waiting. -/
  | upTo {before after : List Crossing} {x : Crossing} {error : LoadingError} {t : Loading}
      (hxs : xs = before ++ x :: after) (haccepted : ∀ y ∈ before, y.error? = none)
      (hrefused : x.error? = some error) (hcrossed : s.Crossed l now (before ++ [x]) t)
      (hleft : ∀ id ∈ node.inLinks,
        (t.queue id).toLeave = (after.filter (·.inLink = id)).map (·.agent)) :
      Pulls l now node xs s (.error error) t

/-- In whatever state the links of a network are: a node pulls the agents who wait at the ends of
the links which lead to it, in the order in which these links were added and in which the agents
wait. What becomes of each of them is settled by its route, the links and the travel times. -/
theorem advanceNode_pulls {ids : IdStore} {net : Network} {modes : List ModeId}
    (hb : net.Built ids) (hlayout : Layout.ofNetwork net modes = .ok supply.layout)
    {node : Junction} (hn : node ∈ supply.layout.junctions) (hs : s.Fits supply.layout)
    (now : UInt32) :
    ∃ xs : List Crossing,
      xs.map (fun x => (x.inLink, x.agent)) =
        ((Layout.usable net modes).filter (·.toNode = node.id)).flatMap (fun link =>
          (s.queue link.id).toLeave.map (link.id, ·)) ∧
      (∀ x ∈ xs, supply.Sends node now x.inLink x.agent x.turn) ∧
      ∃ result t, s.advanceNode supply node now = .ok (result, t) ∧
        s.Pulls supply.layout now node xs result t := by
  have hc := Layout.closed_ofNetwork hb hlayout
  refine ⟨s.crossings supply now node, ?_, fun x hx => ?_, _, _, advanceNode_eq_ok hc hs hn, ?_⟩
  · rw [crossings, crossingsFrom, hc.inLinks node hn, (Layout.ofNetwork_eq_ok hlayout).1,
      List.flatMap_map, List.map_flatMap]
    simp only [List.map_map]
    rfl
  · obtain ⟨id, -, agent, -, rfl⟩ := mem_crossingsFrom.1 hx
    exact supply.sends_turn node now id agent
  · rcases Crossing.cut_cases (s.crossings supply now node) with
      ⟨haccepted, htally, hcut⟩ | ⟨before, x, after, error, hxs, haccepted, hrefused, htally, hcut⟩
    · rw [htally, hcut]
      have hsplit := (List.append_nil (s.crossings supply now node)).symm
      have hcrossed := crossed_foldl_cross hc hs hn hsplit
      exact .all haccepted hcrossed fun id hid => hcrossed.toLeave_eq hc hn hsplit hid
    · rw [htally, hcut]
      -- The refused one is pulled as well, so it counts to the part of the list that is done.
      have hsplit := hxs.trans (List.append_cons before x after)
      have hcrossed := crossed_foldl_cross hc hs hn hsplit
      exact .upTo hxs haccepted hrefused hcrossed fun id hid => hcrossed.toLeave_eq hc hn hsplit hid

end Loading

namespace Sample

/-- A node at the end of one link. -/
def crossing : Junction := ⟨yard, [lane], 0⟩

/-- Three agents wait at the end of a link: the route of the first one ends there, the second one
has no valid travel time on the next link, and the third one has one. -/
def threeWait : Loading :=
  (Loading.empty mixedEngine.supply.layout ⟨3, 0⟩).updateQueue lane fun q =>
    { q with toLeave := [{ stray ann with route := [lane], route_ne_nil := nofun }, stray ben,
      cyclist cleo] }

theorem fits_threeWait : threeWait.Fits mixedEngine.supply.layout :=
  (Loading.fits_empty mixedEngine.supply.layout ⟨⟨3, 0⟩, #[], #[], #[]⟩).of_shape_eq
    (Loading.shape_updateQueue _ _ _)

end Sample

/-- The first agent is lost, the second one is refused, and the third one is left waiting. -/
theorem Loading.advanceNode_pulls_mixed : ∃ xs error t,
    Sample.threeWait.advanceNode Sample.mixedEngine.supply Sample.crossing 6 =
      .ok (.error error, t) ∧
    Sample.threeWait.Pulls Sample.mixedEngine.supply.layout 6 Sample.crossing xs (.error error) t ∧
    t.record.handedOver.toList.map (·.id) = [Sample.ann, Sample.ben] ∧
    (t.queue Sample.lane).toLeave = [Sample.cyclist Sample.cleo] := by
  obtain ⟨xs, -, -, result, t, hrun, hpulls⟩ :=
    advanceNode_pulls Sample.built_ring
      (show Layout.ofNetwork Sample.ring [] = .ok Sample.mixedEngine.supply.layout from rfl)
      (List.mem_cons_of_mem _ List.mem_cons_self) Sample.fits_threeWait 6
  obtain ⟨error, u, hfailed, hgone, hleft⟩ : ∃ error u,
      Sample.threeWait.advanceNode Sample.mixedEngine.supply Sample.crossing 6 =
        .ok (.error error, u) ∧
      u.record.handedOver.toList.map (·.id) = [Sample.ann, Sample.ben] ∧
      (u.queue Sample.lane).toLeave = [Sample.cyclist Sample.cleo] := ⟨_, _, rfl, rfl, rfl⟩
  cases hrun.symm.trans hfailed
  exact ⟨xs, error, t, hrun, hpulls, hgone, hleft⟩

end NetworkLoading
