import NetworkLoading.Proofs.Calls

/-!
# Steps which visit everything

A step visits the links and nodes in the active sets only. In every state to which calls lead, it
does to the agents what the naive step does which advances every link and then every node: whoever
is left out has nothing to do.
-/

namespace NetworkLoading

namespace Engine

variable (engine : Engine)

/-! ## The naive step -/

/-- Advances every link of a partition, in the order of the ids. -/
def eagerLinks (s : Loading) (now : UInt32) (part : Nat) : Except Fault Loading :=
  (engine.supply.layout.linkTour part).foldlM (fun (s : Loading) id =>
    (engine.supply.layout.link id).bind fun link =>
      (s.advanceLink engine.supply link now).map (·.2)) s

/-- Advances a node. -/
def eagerNode (now : UInt32) (s : Loading) (id : NodeId) : Except Fault (Outcome Nat) :=
  (engine.supply.layout.junction id).bind fun node => s.advanceNode engine.supply node now

/-- Advances every node of a partition, in the order of the ids, until one of them fails. -/
def eagerNodes (s : Loading) (now : UInt32) (part : Nat) : Except Fault (Outcome Nat) :=
  s.visitEach (engine.eagerNode now) (engine.supply.layout.nodeTour part)

/-- Advances every link, partition by partition. -/
def eagerLinkPhase (s : Loading) (now : UInt32) : List Nat → Except Fault Loading
  | [] => .ok s
  | part :: rest => (engine.eagerLinks s now part).bind fun s => eagerLinkPhase s now rest

/-- Advances every node, partition by partition. A failure ends the phase of its own partition only;
the first one is kept. Yields how many agents moved. -/
def eagerNodePhase (s : Loading) (now : UInt32) : List Nat → Except Fault (Outcome Nat)
  | [] => .ok (.ok 0, s)
  | part :: rest =>
    (engine.eagerNodes s now part).bind fun (moved, s) =>
      (eagerNodePhase s now rest).map fun (more, s) =>
        (moved.bind fun agents => more.map (agents + ·), s)

/-- Advances every link, then every node. Yields how many agents moved. -/
def eagerStep (s : Loading) (now : UInt32) : Except Fault (Outcome Nat) :=
  let parts := List.range engine.supply.layout.numParts
  (engine.eagerLinkPhase s now parts).bind fun s => engine.eagerNodePhase s now parts

end Engine

namespace Loading

variable {s t : Loading} {now : UInt32} {engine : Engine}

/-! ## What the naive step does -/

theorem advanceLinks_eq_ok (hc : engine.supply.layout.Closed) (hs : s.Fits engine.supply.layout)
    {ids : List LinkId} (hids : ids ⊆ engine.supply.layout.linkIds) (now : UInt32) :
    ∃ t, ids.foldlM (fun (s : Loading) id => (engine.supply.layout.link id).bind fun link =>
        (s.advanceLink engine.supply link now).map (·.2)) s = .ok t ∧
      t.clearActive = ids.foldl (flow now) s.clearActive := by
  induction ids generalizing s with
  | nil => exact ⟨s, rfl, rfl⟩
  | cons id rest ih =>
    obtain ⟨hid, hrest⟩ := List.cons_subset.1 hids
    obtain ⟨link, hl, rfl⟩ := List.mem_map.1 hid
    have hfits : ((s.flow now link.id).alert engine.supply.layout link).Fits
        engine.supply.layout :=
      (hs.flow now link.id).alert link
    obtain ⟨t, ht, hcontent⟩ := ih hfits hrest
    refine ⟨t, ?_, ?_⟩
    · rw [List.foldlM_cons, hc.link_eq hl]
      simp only [Except.bind, advanceLink_eq_ok hc hs hl, Except.map]
      exact ht
    -- Alerting the node leaves a mark only, which is not compared.
    · rw [hcontent, clearActive_alert, clearActive_flow, List.foldl_cons]

theorem eagerLinkPhase_eq_ok (hc : engine.supply.layout.Closed)
    (hs : s.Fits engine.supply.layout) (now : UInt32) (parts : List Nat) :
    ∃ t, engine.eagerLinkPhase s now parts = .ok t ∧
      t.clearActive = s.drive engine.supply.layout now parts := by
  induction parts generalizing s with
  | nil => exact ⟨s, rfl, rfl⟩
  | cons part rest ih =>
    -- All links of the partition are visited, the active ones among them.
    have hids : engine.supply.layout.linkTour part ⊆ engine.supply.layout.linkIds :=
      hc.linkTour_subset
    obtain ⟨t, ht, hcontent⟩ := advanceLinks_eq_ok hc hs hids now
    have hfits : t.Fits engine.supply.layout := by
      rw [← fits_clearActive, hcontent]
      exact fits_foldl_flow (fits_clearActive.2 hs) now _
    obtain ⟨u, hu, hcontent'⟩ := ih hfits
    refine ⟨u, ?_, ?_⟩
    · rw [Engine.eagerLinkPhase, Engine.eagerLinks, ht]
      exact hu
    · rw [hcontent', drive, hcontent, drive, List.flatMap_cons, List.foldl_append]

theorem moves_eagerNode (hc : engine.supply.layout.Closed) (now : UInt32) :
    Moves engine.supply now (engine.eagerNode now) := by
  intro s hs id hid
  obtain ⟨node, hn, rfl⟩ := List.mem_map.1 hid
  rw [moves_eq hc hn]
  refine ⟨_, ?_, clearActive_foldl_cross engine.supply.layout now s _⟩
  simp only [Engine.eagerNode, hc.junction_eq hn, Except.bind, advanceNode_eq_ok hc hs hn]

theorem eagerNodePhase_eq_ok (hc : engine.supply.layout.Closed)
    (hs : s.Fits engine.supply.layout) (now : UInt32) {parts : List Nat} (hn : parts.Nodup) :
    ∃ t, engine.eagerNodePhase s now parts =
        .ok (Crossing.tallyAll (parts.map (s.partMoves engine.supply now)), t) ∧
      t.clearActive = (parts.flatMap fun part =>
        Crossing.cut (s.partMoves engine.supply now part)).foldl (pass now) s.clearActive := by
  induction parts generalizing s with
  | nil => exact ⟨s, rfl, rfl⟩
  | cons part rest ih =>
    have htour : (engine.supply.layout.nodeTour part).Nodup := hc.nodup_nodeTour part
    obtain ⟨t, ht, hcontent⟩ := (moves_eagerNode hc now).visitEach hc hs htour hc.nodeTour_subset
    rw [← partMoves] at ht hcontent
    -- The partitions which follow move whom they would have moved if this one had been left out.
    have hparts (other : Nat) (ho : other ∈ rest) :
        t.partMoves engine.supply now other = s.partMoves engine.supply now other :=
      partMoves_of_content hc hs (ne_of_mem_of_not_mem ho (List.nodup_cons.1 hn).1)
        (Crossing.cut_subset _) hcontent
    obtain ⟨u, hu, hcontent'⟩ := ih (fits_of_content hs hcontent) (List.nodup_cons.1 hn).2
    rw [List.map_congr_left hparts] at hu
    refine ⟨u, ?_, ?_⟩
    · simp only [Engine.eagerNodePhase, Engine.eagerNodes, ht, Except.bind, hu, Except.map,
        List.map_cons, Crossing.tallyAll]
    · have hcuts : (rest.flatMap fun part =>
          Crossing.cut (t.partMoves engine.supply now part)) =
            rest.flatMap fun part => Crossing.cut (s.partMoves engine.supply now part) :=
        List.flatMap_congr fun other ho => by rw [hparts other ho]
      rw [hcontent', hcuts, hcontent, List.flatMap_cons, List.foldl_append]

/-! ## Lazy and eager steps -/

/-- Two states hold the same agents in the same places, and the same has come of them. -/
structure SameLoad (l : Layout) (s t : Loading) : Prop where
  inTransit : ∀ link ∈ l.links, (s.queue link.id).inTransit = (t.queue link.id).inTransit
  afterActivity : ∀ link ∈ l.links,
    (s.queue link.id).afterActivity = (t.queue link.id).afterActivity
  toLeave : ∀ link ∈ l.links, (s.queue link.id).toLeave = (t.queue link.id).toLeave
  onNetwork : s.traffic.onNetwork = t.traffic.onNetwork
  record : s.record = t.record

theorem sameLoad_of_clearActive_eq (l : Layout) (h : s.clearActive = t.clearActive) :
    s.SameLoad l t := by
  have hq (id : LinkId) : (s.queue id).unmarked = (t.queue id).unmarked := by
    rw [← queue_clearActive, h, queue_clearActive]
  refine ⟨?_, ?_, ?_, ?_, ?_⟩
  · intro link _
    simpa using congrArg LinkQueue.inTransit (hq link.id)
  · intro link _
    simpa using congrArg LinkQueue.afterActivity (hq link.id)
  · intro link _
    simpa using congrArg LinkQueue.toLeave (hq link.id)
  · simpa only [onNetwork_clearActive] using congrArg (fun u : Loading => u.traffic.onNetwork) h
  · simpa only [record_clearActive] using congrArg Loading.record h

/-- In every state to which calls lead, a step does what the naive step does. -/
theorem step_eq_eagerStep (hb : engine.Constructed) {history : List (Call × List Event)}
    (h : engine.Reaches history s) (now : UInt32) :
    ∃ stats moved t u, engine.step s now = .ok (stats, t) ∧
      engine.eagerStep s now = .ok (moved, u) ∧ stats.map (·.agents) = moved ∧
      t.SameLoad engine.supply.layout u := by
  have hc := hb.closed
  have hsettled := h.settled hc
  have hwhole := Orders.whole_ascending engine.supply.layout
  obtain ⟨stats, t, ht, htally, hcontent, -⟩ :=
    hsettled.stepInOrder hc hwhole.forLinks hwhole.forNodes now
  obtain ⟨m, hm, hdrive⟩ :=
    eagerLinkPhase_eq_ok hc hsettled.fits now (List.range engine.supply.layout.numParts)
  have hfits : m.Fits engine.supply.layout := by
    rw [← fits_clearActive, hdrive]
    exact fits_drive hsettled.fits now _
  have hn : (List.range engine.supply.layout.numParts).Nodup := List.nodup_range
  obtain ⟨u, hu, hcontent'⟩ := eagerNodePhase_eq_ok hc hfits now hn
  -- Up to marks, both link phases lead to the same state, and so both node phases find the same
  -- agents waiting.
  have hparts : m.partMoves engine.supply now =
      (s.drive engine.supply.layout now (List.range engine.supply.layout.numParts)).partMoves
        engine.supply now := by
    funext part
    rw [← partMoves_clearActive, hdrive]
  rw [hparts] at hu hcontent'
  rw [hdrive] at hcontent'
  refine ⟨stats, _, t, u, ht, ?_, htally, ?_⟩
  · rw [Engine.eagerStep, hm]
    exact hu
  · exact sameLoad_of_clearActive_eq _ (hcontent.trans hcontent'.symm)

theorem step_eq_eagerStep_sample : ∃ (history : List (Call × List Event)) (s : Loading),
    Sample.engine.Reaches history s ∧ (s.queue Sample.lane).active = true ∧
      ∃ stats moved t u, Sample.engine.step s 7 = .ok (stats, t) ∧
        Sample.engine.eagerStep s 7 = .ok (moved, u) ∧ stats.map (·.agents) = moved ∧
          t.SameLoad Sample.engine.supply.layout u := by
  obtain ⟨history, s, h, -, hlink⟩ := Sample.reaches_engine
  exact ⟨history, s, h, hlink, step_eq_eagerStep Sample.constructed_engine h 7⟩

end Loading

end NetworkLoading
