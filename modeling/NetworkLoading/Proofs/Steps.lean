import NetworkLoading.Proofs.Nodes

/-!
# Time steps

Between two calls nobody waits to leave a link, a link is marked if and only if it is busy, and a
node if and only if it moved agents in the last step. A step keeps this up. What it does to agents
is what advancing all links and then all nodes does, in whatever order the partitions stand.
-/

namespace NetworkLoading

/-- If all elements but one contribute nothing, that one contributes everything. -/
theorem flatMap_eq_single {α β : Type} {f : α → List β} {xs : List α} (hn : xs.Nodup) {a : α}
    (ha : a ∈ xs) (h : ∀ x ∈ xs, x ≠ a → f x = []) : xs.flatMap f = f a := by
  induction xs with
  | nil => cases ha
  | cons x rest ih =>
    obtain ⟨hnew, hnodup⟩ := List.nodup_cons.1 hn
    obtain ⟨hx, hrest⟩ := List.forall_mem_cons.1 h
    rw [List.flatMap_cons]
    rcases List.mem_cons.1 ha with rfl | ha
    · have hnil : rest.flatMap f = [] := List.flatMap_eq_nil_iff.2 fun y hy =>
        hrest y hy (ne_of_mem_of_not_mem hy hnew)
      rw [hnil, List.append_nil]
    · rw [hx (ne_of_mem_of_not_mem ha hnew).symm, ih hnodup ha hrest]
      rfl

namespace Loading

variable {l : Layout} {s t : Loading} {now : UInt32} {supply : Supply}

/-! ## Who leaves a link -/

/-- Those who leave a link in a node phase are those who wait there, in their order. -/
theorem leaving_moves (hc : supply.layout.Closed) {link : Link} (hl : link ∈ supply.layout.links)
    {ids : List NodeId} (hn : ids.Nodup) (hto : link.toNode ∈ ids) :
    ((ids.flatMap (s.moves supply now)).filter (·.inLink = link.id)).map (·.agent) =
      (s.queue link.id).toLeave := by
  obtain ⟨node, hnode, hid, -⟩ := hc.target link hl
  have hin : link.id ∈ node.inLinks := (hc.mem_inLinks hnode).2 ⟨link, hl, rfl, hid.symm⟩
  -- Of all nodes only the one at the end of the link takes agents from it, and of all that this
  -- node takes only those who wait on the link come from there.
  have hothers (id : NodeId) (_ : id ∈ ids) (hne : id ≠ link.toNode) :
      (s.moves supply now id).filter (·.inLink = link.id) = [] := by
    refine List.filter_eq_nil_iff.2 fun x hx he => hne ?_
    obtain ⟨other, hother, rfl, hcross⟩ := mem_moves hx
    have hmem := inLink_mem_of_mem_crossingsFrom hcross
    rw [of_decide_eq_true he] at hmem
    rw [hc.inLinks_disjoint hother hnode hmem hin, hid]
  have hself : ∀ id ∈ node.inLinks, id ≠ link.id →
      ((s.queue id).toLeave.map (supply.crossing node now id)).filter (·.inLink = link.id) =
        [] := by
    intro id _ hne
    refine List.filter_eq_nil_iff.2 fun x hx he => hne ?_
    obtain ⟨agent, -, rfl⟩ := List.mem_map.1 hx
    exact of_decide_eq_true he
  have hall : ((s.queue link.id).toLeave.map (supply.crossing node now link.id)).filter
      (·.inLink = link.id) = (s.queue link.id).toLeave.map (supply.crossing node now link.id) := by
    apply List.filter_eq_self.2
    intro x hx
    obtain ⟨agent, -, rfl⟩ := List.mem_map.1 hx
    exact decide_eq_true rfl
  rw [List.filter_flatMap, flatMap_eq_single hn hto hothers, ← hid, moves_eq hc hnode, crossings,
    crossingsFrom, List.filter_flatMap, flatMap_eq_single (hc.nodup_inLinks hnode) hin hself, hall,
    List.map_map]
  exact List.map_id _

theorem foldl_erase_append {α : Type} [BEq α] [LawfulBEq α] (xs ys : List α) :
    xs.foldl List.erase (xs ++ ys) = ys := by
  induction xs with
  | nil => rfl
  | cons x rest ih => rwa [List.foldl_cons, List.cons_append, List.erase_cons_head]

theorem foldl_erase_self {α : Type} [BEq α] [LawfulBEq α] (xs : List α) :
    xs.foldl List.erase xs = [] := by
  simpa using foldl_erase_append xs []

/-! ## States between two calls -/

/-- What holds between two calls. -/
structure Settled (l : Layout) (s : Loading) : Prop where
  fits : s.Fits l
  live : ∀ id ∈ l.linkIds, (s.queue id).Live
  links : s.LinkMarks l []
  nodes : s.NodeMarks l []
  quiet : ∀ id ∈ l.linkIds, (s.queue id).toLeave = []
  ordered : ∀ id ∈ l.linkIds, (s.queue id).Ordered

theorem Settled.linkPhase (hc : l.Closed) (h : s.Settled l) : s.LinkPhase l s.nodeActive [] := by
  refine ⟨h.fits, h.live, h.links, h.nodes, fun node hn => ?_⟩
  have hawaited : s.awaited node = false := by
    rw [← Bool.not_eq_true, awaited_eq_true]
    rintro ⟨id, hid, hne⟩
    exact hne (h.quiet id (hc.mem_linkIds_of_mem_inLinks hn hid))
  rw [hawaited, Bool.or_false]

theorem LinkPhase.nodePhase {old : NodeId → Bool} (h : s.LinkPhase l old []) :
    s.NodePhase l [] :=
  ⟨h.fits, h.live, h.links, h.nodes⟩

/-- After a link phase, nodes which are not marked have nobody to move. -/
theorem LinkPhase.moves_eq_nil {old : NodeId → Bool} (hc : supply.layout.Closed)
    (h : s.LinkPhase supply.layout old []) {id : NodeId} (hid : id ∈ supply.layout.nodeIds)
    (now : UInt32) (hmark : s.nodeActive id = false) : s.moves supply now id = [] := by
  obtain ⟨node, hn, rfl⟩ := List.mem_map.1 hid
  rw [moves_eq hc hn]
  apply List.eq_nil_iff_forall_not_mem.2
  intro x hx
  obtain ⟨id, hin, agent, hagent, -⟩ := mem_crossingsFrom.1 hx
  rw [h.alerted node hn, Bool.or_eq_false_iff] at hmark
  have hawaited : s.awaited node = true :=
    awaited_eq_true.2 ⟨id, hin, List.ne_nil_of_mem hagent⟩
  rw [hawaited] at hmark
  cases hmark.2

/-! ## A step -/

/-- The state without marks after all links of some partitions advanced. -/
def drive (l : Layout) (now : UInt32) (s : Loading) (parts : List Nat) : Loading :=
  (parts.flatMap l.linkTour).foldl (flow now) s.clearActive

theorem fits_drive (hs : s.Fits l) (now : UInt32) (parts : List Nat) :
    (s.drive l now parts).Fits l :=
  fits_foldl_flow (fits_clearActive.2 hs) now _

theorem queue_drive (hc : l.Closed) (hs : s.Fits l) {parts : List Nat}
    (hp : parts.Perm (List.range l.numParts)) {id : LinkId} (hid : id ∈ l.linkIds) :
    (s.drive l now parts).queue id = (s.queue id).unmarked.advance id now := by
  have htours := hc.linkTours_perm hp
  rw [drive, queue_foldl_flow hc (fits_clearActive.2 hs)
    (htours.nodup_iff.2 hc.links_apart.nodup) htours.subset hid, if_pos (htours.mem_iff.2 hid),
    queue_clearActive]

/-- The agents who cross the nodes of some partitions. -/
def allMoves (supply : Supply) (now : UInt32) (s : Loading) (parts : List Nat) : List Crossing :=
  (parts.flatMap supply.layout.nodeTour).flatMap (s.moves supply now)

theorem within_of_mem_allMoves (hc : supply.layout.Closed) {parts : List Nat} {x : Crossing}
    (hx : x ∈ s.allMoves supply now parts) : x.Within supply.layout := by
  obtain ⟨_, -, hx⟩ := List.mem_flatMap.1 hx
  exact within_of_mem_moves hc hx

theorem flatten_partMoves (supply : Supply) (now : UInt32) (s : Loading) (parts : List Nat) :
    (parts.map (s.partMoves supply now)).flatten = s.allMoves supply now parts := by
  rw [← List.flatMap_def, allMoves, List.flatMap_assoc]
  rfl

/-- What a successful step does. -/
structure Stepped (engine : Engine) (now : UInt32) (forLinks forNodes : List Nat) (s : Loading)
    (stats : StepStats) (t : Loading) : Prop where
  settled : t.Settled engine.supply.layout
  content : t.clearActive =
    ((s.drive engine.supply.layout now forLinks).allMoves engine.supply now forNodes).foldl
      (pass now) (s.drive engine.supply.layout now forLinks)
  granted : ∀ x ∈ (s.drive engine.supply.layout now forLinks).allMoves engine.supply now forNodes,
    x.error? = none
  marks : ∀ id ∈ engine.supply.layout.nodeIds, t.nodeActive id =
    !((s.drive engine.supply.layout now forLinks).moves engine.supply now id).isEmpty
  now_eq : stats.now = now
  links : stats.links = (s.busyLinks engine.supply.layout.linkIds).length
  nodes : stats.nodes = (engine.supply.layout.junctions.filter fun node =>
    s.nodeActive node.id || (s.drive engine.supply.layout now forLinks).awaited node).length
  agents : stats.agents =
    ((s.drive engine.supply.layout now forLinks).allMoves engine.supply now forNodes).length

/-- Crossings of all nodes leave nobody who waits to leave a link. -/
theorem quiet_foldl_pass (hc : supply.layout.Closed) (hs : s.Fits supply.layout)
    {parts : List Nat} (hp : parts.Perm (List.range supply.layout.numParts)) {id : LinkId}
    (hid : id ∈ supply.layout.linkIds) :
    (((s.allMoves supply now parts).foldl (pass now) s).queue id).toLeave = [] := by
  obtain ⟨link, hl, rfl⟩ := List.mem_map.1 hid
  obtain ⟨node, hn, hto, -⟩ := hc.target link hl
  have htours := hc.nodeTours_perm hp
  have hmem : link.toNode ∈ parts.flatMap supply.layout.nodeTour :=
    htours.mem_iff.2 (hto ▸ List.mem_map_of_mem hn)
  rw [queue_foldl_pass hc hs (fun _ => within_of_mem_allMoves hc) hid, Crossing.foldl_carry,
    allMoves,    leaving_moves hc hl (htours.nodup_iff.2 hc.junctions_apart.nodup) hmem]
  exact foldl_erase_self _

theorem settled_of_content {engine : Engine} (hc : engine.supply.layout.Closed)
    {forLinks forNodes : List Nat}
    (hl : forLinks.Perm (List.range engine.supply.layout.numParts))
    (hn : forNodes.Perm (List.range engine.supply.layout.numParts))
    (h : s.Settled engine.supply.layout) (hphase : t.NodePhase engine.supply.layout [])
    (ht : t.clearActive =
      ((s.drive engine.supply.layout now forLinks).allMoves engine.supply now forNodes).foldl
        (pass now) (s.drive engine.supply.layout now forLinks)) :
    t.Settled engine.supply.layout := by
  have hfits := fits_drive h.fits now forLinks
  have hq (id : LinkId) : (t.queue id).unmarked = _ :=
    (queue_clearActive t id).symm.trans (congrArg (fun u => u.queue id) ht)
  -- The marks are those of the node phase; what is left to show is about the agents alone.
  refine ⟨hphase.fits, hphase.live, hphase.links, hphase.nodes, ?_, ?_⟩
  · intro id hid
    rw [← LinkQueue.toLeave_unmarked, hq]
    exact quiet_foldl_pass hc hfits hn hid
  · intro id hid
    have hordered : (t.queue id).unmarked.Ordered := by
      rw [hq, queue_foldl_pass hc hfits (fun _ => within_of_mem_allMoves hc) hid,
        queue_drive hc h.fits hl hid]
      exact Crossing.ordered_foldl_carry id _ (LinkQueue.Ordered.advance (h.ordered id hid) id now)
    exact hordered

/-- A node phase in which nobody is refused completes a step. -/
theorem LinkPhase.stepped {engine : Engine} (hc : engine.supply.layout.Closed) {m : Loading}
    (h : s.Settled engine.supply.layout) {forLinks forNodes : List Nat}
    (hl : forLinks.Perm (List.range engine.supply.layout.numParts))
    (hn : forNodes.Perm (List.range engine.supply.layout.numParts))
    (hphase : m.LinkPhase engine.supply.layout s.nodeActive [])
    (hdrive : m.clearActive = s.drive engine.supply.layout now forLinks) {nodes agents : Nat}
    (htally : Crossing.tallyAll (forNodes.map
      ((s.drive engine.supply.layout now forLinks).partMoves engine.supply now)) = .ok agents)
    (hcontent : t.clearActive = (forNodes.flatMap fun part => Crossing.cut
      ((s.drive engine.supply.layout now forLinks).partMoves engine.supply now part)).foldl
        (pass now) (s.drive engine.supply.layout now forLinks))
    (hdone : NodesDone engine.supply now forNodes [] m nodes t) :
    Stepped engine now forLinks forNodes s
      { now, links := (s.busyLinks (forLinks.flatMap engine.supply.layout.linkTour)).length, nodes,
        agents } t := by
  obtain ⟨hcuts, hagents⟩ := Crossing.tallyAll_eq_ok htally
  -- Nobody was refused, so in no partition anything was cut off.
  have hall : (forNodes.flatMap fun part => Crossing.cut
      ((s.drive engine.supply.layout now forLinks).partMoves engine.supply now part)) =
        (s.drive engine.supply.layout now forLinks).allMoves engine.supply now forNodes := by
    rw [allMoves, List.flatMap_assoc]
    exact List.flatMap_congr fun part hpart => hcuts _ (List.mem_map_of_mem hpart)
  rw [hall] at hcontent
  refine ⟨settled_of_content hc hl hn h hdone.phase hcontent, hcontent, ?_, ?_, rfl, ?_, ?_, ?_⟩
  · intro x hx
    by_contra hrefused
    rw [← flatten_partMoves] at hx
    obtain ⟨error, herror⟩ :=
      Crossing.tallyAll_eq_error.2 ⟨x, hx, Option.isSome_iff_ne_none.2 hrefused⟩
    rw [herror] at htally
    cases htally
  · intro id hid
    rw [hdone.marks id hid, if_pos ((hc.nodeTours_perm hn).mem_iff.2 hid), ← moves_clearActive,
      hdrive]
  · exact ((hc.linkTours_perm hl).filter _).length_eq
  · -- When the node phase begins, the marked nodes are the old ones and those with agents waiting.
    have hmark (node : Junction) (hnode : node ∈ engine.supply.layout.junctions) :
        m.nodeActive node.id = (s.nodeActive node.id ||
          (s.drive engine.supply.layout now forLinks).awaited node) := by
      rw [hphase.alerted node hnode, ← hdrive, awaited_clearActive]
    dsimp only
    rw [hdone.nodes_eq, ((hc.nodeTours_perm hn).filter _).length_eq, Layout.nodeIds,
      List.filter_map, List.length_map]
    exact congrArg _ (List.filter_congr hmark)
  · rw [← flatten_partMoves]
    exact hagents

/-- A step never faults, and it advances all links and then all nodes, as far as agents can tell. -/
theorem Settled.stepInOrder {engine : Engine} (hc : engine.supply.layout.Closed)
    (h : s.Settled engine.supply.layout) {forLinks forNodes : List Nat}
    (hl : forLinks.Perm (List.range engine.supply.layout.numParts))
    (hn : forNodes.Perm (List.range engine.supply.layout.numParts)) (now : UInt32) :
    ∃ stats t, engine.stepInOrder s now forLinks forNodes = .ok (stats, t) ∧
      stats.map (·.agents) = Crossing.tallyAll (forNodes.map
        ((s.drive engine.supply.layout now forLinks).partMoves engine.supply now)) ∧
      t.clearActive = (forNodes.flatMap fun part => Crossing.cut
        ((s.drive engine.supply.layout now forLinks).partMoves engine.supply now part)).foldl
          (pass now) (s.drive engine.supply.layout now forLinks) ∧
      ∀ counts, stats = .ok counts → Stepped engine now forLinks forNodes s counts t := by
  have hlt {parts : List Nat} (hp : parts.Perm (List.range engine.supply.layout.numParts)) :
      ∀ part ∈ parts, part < engine.supply.layout.numParts :=
    fun part hpart => List.mem_range.1 (hp.mem_iff.1 hpart)
  obtain ⟨m, hm, hdrive, hphase⟩ :=
    (h.linkPhase hc).linkPhase hc (hl.nodup_iff.2 List.nodup_range) (hlt hl) now
  rw [← drive] at hdrive
  have hidle (id : NodeId) (hid : id ∈ forNodes.flatMap engine.supply.layout.nodeTour) :=
    hphase.moves_eq_nil hc (hc.nodeTours_subset forNodes hid) now
  obtain ⟨moved, t, ht, htally, hcontent, hok⟩ :=
    hphase.nodePhase.nodePhase hc (hn.nodup_iff.2 List.nodup_range) (hlt hn)
      (by intro id hid; cases hid) hidle
  -- The node phase only looks at the agents, and so it starts from what the links have driven.
  have hparts : m.partMoves engine.supply now =
      (s.drive engine.supply.layout now forLinks).partMoves engine.supply now := by
    funext part
    rw [← partMoves_clearActive, hdrive]
  rw [hparts] at htally hcontent
  rw [hdrive] at hcontent
  refine ⟨moved.map fun counts =>
    { now, links := (s.busyLinks (forLinks.flatMap engine.supply.layout.linkTour)).length,
      nodes := counts.1, agents := counts.2 }, t, ?_, ?_, hcontent, ?_⟩
  · simp only [Engine.stepInOrder, hm, ht, Except.bind, Except.map]
  · rw [← htally]
    cases moved <;> rfl
  · intro counts hcounts
    cases moved with
    | error error => cases hcounts
    | ok pair =>
      cases hcounts
      exact hphase.stepped hc h hl hn hdrive htally.symm hcontent (hok pair.1 pair.2 rfl)

/-! ## What a step leaves behind -/

/-- A step starts with the arrivals. -/
theorem record_drive (hc : l.Closed) (hs : s.Fits l) {parts : List Nat}
    (hl : parts.Perm (List.range l.numParts)) (now : UInt32) :
    (s.drive l now parts).record =
        { s.record with
          handedOver := s.record.handedOver ++
            ((s.arrivals now (parts.flatMap l.linkTour)).map (·.arrive now)).toArray } ∧
      (s.drive l now parts).traffic.onNetwork =
        s.traffic.onNetwork - UInt64.ofNat (s.arrivals now (parts.flatMap l.linkTour)).length := by
  have htours := hc.linkTours_perm hl
  have hsame : s.clearActive.arrivals now (parts.flatMap l.linkTour) =
      s.arrivals now (parts.flatMap l.linkTour) :=
    List.flatMap_congr fun id _ => by rw [queue_clearActive, LinkQueue.arriving_unmarked]
  rw [← hsame]
  exact foldl_flow_record hc (fits_clearActive.2 hs)
    (htours.nodup_iff.2 hc.links_apart.nodup) htours.subset now

namespace Stepped

variable {engine : Engine} {forLinks forNodes : List Nat} {stats : StepStats}

/-- After a step a link has the agents who were not due yet, and those who entered it. -/
theorem queue (hc : engine.supply.layout.Closed) (hs : s.Settled engine.supply.layout)
    (hl : forLinks.Perm (List.range engine.supply.layout.numParts))
    (h : Stepped engine now forLinks forNodes s stats t) {id : LinkId}
    (hid : id ∈ engine.supply.layout.linkIds) :
    (t.queue id).unmarked =
      { inTransit := (((s.drive engine.supply.layout now forLinks).allMoves engine.supply now
          forNodes).filterMap (Crossing.entrant? id)).foldl
            (fun ts t => LinkQueue.insertTraveller t ts)
              ((s.queue id).advance id now).inTransit } := by
  -- That nobody waits to leave is known, so the agents who were erased need not be counted.
  have hquiet : (t.queue id).unmarked.toLeave = [] := h.settled.quiet id hid
  have hcarried := congrArg (fun u : Loading => u.queue id) h.content
  rw [queue_clearActive, queue_foldl_pass hc (fits_drive hs.fits now forLinks)
    (fun _ => within_of_mem_allMoves hc) hid, queue_drive hc hs.fits hl hid,
    Crossing.foldl_carry] at hcarried
  rw [hcarried] at hquiet ⊢
  simp only [LinkQueue.mk.injEq]
  exact ⟨rfl, rfl, rfl, hquiet⟩

/-- All events of a step tell who crossed the nodes. -/
theorem events (hc : engine.supply.layout.Closed) (hs : s.Settled engine.supply.layout)
    (hl : forLinks.Perm (List.range engine.supply.layout.numParts))
    (h : Stepped engine now forLinks forNodes s stats t) :
    t.record.events.toList = s.record.events.toList ++
      ((s.drive engine.supply.layout now forLinks).allMoves engine.supply now forNodes).flatMap
        (·.events now) := by
  rw [← record_clearActive t, h.content, events_foldl_pass, (record_drive hc hs.fits hl now).1]

/-- Agents are handed over when they arrive, and then when they are lost at nodes. -/
theorem handedOver (hc : engine.supply.layout.Closed) (hs : s.Settled engine.supply.layout)
    (hl : forLinks.Perm (List.range engine.supply.layout.numParts))
    (h : Stepped engine now forLinks forNodes s stats t) :
    t.record.handedOver.toList = s.record.handedOver.toList ++
      (s.arrivals now (forLinks.flatMap engine.supply.layout.linkTour)).map (·.arrive now) ++
        ((s.drive engine.supply.layout now forLinks).allMoves engine.supply now forNodes).filterMap
          (·.ousted? now) := by
  rw [← record_clearActive t, h.content, handedOver_foldl_pass, (record_drive hc hs.fits hl now).1]
  simp

theorem population (hc : engine.supply.layout.Closed) (hs : s.Settled engine.supply.layout)
    (hl : forLinks.Perm (List.range engine.supply.layout.numParts))
    (h : Stepped engine now forLinks forNodes s stats t) :
    t.record.population = Population.lose^[(((s.drive engine.supply.layout now
      forLinks).allMoves engine.supply now forNodes).filterMap (·.ousted? now)).length]
        s.record.population := by
  rw [← record_clearActive t, h.content, population_foldl_pass, (record_drive hc hs.fits hl now).1]

theorem onNetwork (hc : engine.supply.layout.Closed) (hs : s.Settled engine.supply.layout)
    (hl : forLinks.Perm (List.range engine.supply.layout.numParts))
    (h : Stepped engine now forLinks forNodes s stats t) :
    t.traffic.onNetwork = s.traffic.onNetwork -
      UInt64.ofNat (s.arrivals now (forLinks.flatMap engine.supply.layout.linkTour)).length -
        UInt64.ofNat (((s.drive engine.supply.layout now forLinks).allMoves engine.supply now
          forNodes).filterMap (·.ousted? now)).length := by
  rw [← onNetwork_clearActive t, h.content, onNetwork_foldl_pass,
    (record_drive hc hs.fits hl now).2]

end Stepped

end Loading

end NetworkLoading
