import NetworkLoading.Proofs.Runs

/-!
# Steps which fail

A failure ends the node phase of its partition. The nodes behind the one which failed were taken
from the active set with all others, and nobody visits them: they stay marked, but they stand in no
set. Agents who wait for them, or for the node which failed, are not moved in the next step.
-/

namespace NetworkLoading

/-- Elements which pass the test of a search can be left out beforehand. -/
theorem takeWhile_filter {α : Type} {keep ok : α → Bool} {xs : List α}
    (h : ∀ x ∈ xs, keep x = false → ok x = true) :
    (xs.filter keep).takeWhile ok = (xs.takeWhile ok).filter keep ∧
      ((xs.filter keep).dropWhile ok).tail = ((xs.dropWhile ok).tail).filter keep := by
  induction xs with
  | nil => exact ⟨rfl, rfl⟩
  | cons x rest ih =>
    obtain ⟨hx, hrest⟩ := List.forall_mem_cons.1 h
    obtain ⟨htake, hdrop⟩ := ih hrest
    cases hkeep : keep x with
    | true => cases hok : ok x <;> simp [hkeep, hok, htake, hdrop]
    | false => simp [hkeep, hx hkeep, htake, hdrop]

namespace Loading

variable {l : Layout} {s t : Loading} {now : UInt32} {supply : Supply} {engine : Engine}

/-! ## The marks after a sweep -/

@[simp] theorem served_clearActive (supply : Supply) (now : UInt32) (s : Loading)
    (ids : List NodeId) : s.clearActive.served supply now ids = s.served supply now ids :=
  (grants_congr fun id _ => moves_clearActive supply now s id).1

@[simp] theorem skipped_clearActive (supply : Supply) (now : UInt32) (s : Loading)
    (ids : List NodeId) : s.clearActive.skipped supply now ids = s.skipped supply now ids :=
  (grants_congr fun id _ => moves_clearActive supply now s id).2

namespace NodePhase

variable {pending : List NodeId}

/-- Nodes which are not marked can be added to those which were not visited. -/
theorem add_pending (h : s.NodePhase l pending) {more : List NodeId}
    (hsub : pending ⊆ more) (hmarks : ∀ id ∈ more, id ∉ pending → s.nodeActive id = false) :
    s.NodePhase l more := by
  refine ⟨h.fits, h.live, h.links, ActiveSets.Tracks.congr h.nodes fun id _ => ?_⟩
  by_cases hmem : id ∈ pending
  · simp [hmem, hsub hmem]
  · by_cases hmore : id ∈ more
    · simp [hmem, hmore, hmarks id hmore hmem]
    · simp [hmem, hmore]

/-- What a sweep over the nodes of a partition leaves of the marks. -/
theorem sweepNodes_marks (hc : supply.layout.Closed) {part : Nat}
    (hlt : part < supply.layout.numParts) (h : s.NodePhase supply.layout pending)
    (hp : ∀ id ∈ pending, supply.layout.nodeHome id ≠ part)
    (hidle : ∀ id ∈ supply.layout.nodeTour part,
      s.nodeActive id = false → s.moves supply now id = [])
    {moved : Except LoadingError (Nat × Nat)} (hr : s.sweepNodes supply part now = .ok (moved, t)) :
    t.NodePhase supply.layout (s.skipped supply now (supply.layout.nodeTour part) ++ pending) ∧
      ∀ id ∈ supply.layout.nodeIds, t.nodeActive id =
        if supply.layout.nodeHome id = part then
          s.markAfter supply now (supply.layout.nodeTour part) id
        else s.nodeActive id := by
  have hsub := dueNodes_subset supply.layout s part
  rw [h.sweepNodes_eq hc hlt hp] at hr
  obtain ⟨⟨count, u⟩, hvisit, he⟩ := exists_of_map_eq_ok hr
  cases he
  obtain ⟨hphase, hactive⟩ := h.visitDue hc hp hvisit
  -- Nodes which are not due have nobody to move, so a failure comes just as early without them.
  have hpasses (id : NodeId) (hid : id ∈ supply.layout.nodeTour part)
      (hmark : s.nodeActive id = false) : s.grants supply now id = true := by
    rw [grants, hidle id hid hmark]
    rfl
  obtain ⟨hserved, hskipped⟩ := takeWhile_filter hpasses
  have hserved : s.served supply now (s.dueNodes supply.layout part) =
      (s.served supply now (supply.layout.nodeTour part)).filter s.nodeActive := hserved
  have hskipped : s.skipped supply now (s.dueNodes supply.layout part) =
      (s.skipped supply now (supply.layout.nodeTour part)).filter s.nodeActive := hskipped
  have hkept (id : NodeId) (hid : id ∈ supply.layout.nodeIds) (hmark : s.nodeActive id = false) :
      t.nodeActive id = false := by
    have hnot : id ∉ s.dueNodes supply.layout part := fun hmem => by
      rw [(List.mem_filter.1 hmem).2] at hmark
      cases hmark
    rw [hactive id hid, if_neg hnot]
    exact hmark
  refine ⟨?_, fun id hid => ?_⟩
  · rw [hskipped] at hphase
    refine hphase.add_pending (fun id hid => ?_) fun id hid hnot => ?_
    · exact List.mem_append.2 ((List.mem_append.1 hid).imp_left fun h => (List.mem_filter.1 h).1)
    · simp only [List.mem_append, List.mem_filter, not_or, not_and, Bool.not_eq_true] at hid hnot
      rcases hid with hid | hid
      · have htour := (skipped_sublist supply now s _).subset hid
        exact hkept id (hc.nodeTour_subset htour) (hnot.1 hid)
      · exact absurd hid hnot.2
  · by_cases hhome : supply.layout.nodeHome id = part
    · have htour : id ∈ supply.layout.nodeTour part := hc.mem_nodeTour.2 ⟨hid, hhome⟩
      rw [if_pos hhome]
      cases hmark : s.nodeActive id with
      | true =>
        have hmem : id ∈ s.dueNodes supply.layout part := List.mem_filter.2 ⟨htour, hmark⟩
        rw [hactive id hid, if_pos hmem, markAfter, markAfter, hserved, hskipped]
        simp only [List.mem_filter, hmark, and_true]
      | false =>
        rw [hkept id hid hmark, markAfter, hidle id htour hmark, hmark]
        simp
    · have hnot : id ∉ s.dueNodes supply.layout part := fun hmem =>
        hhome (hc.mem_nodeTour.1 (hsub hmem)).2
      rw [if_neg hhome, hactive id hid, if_neg hnot]

/-- What the node phases of some partitions leave of the marks. -/
theorem nodePhase_marks (hc : engine.supply.layout.Closed) {parts : List Nat} (hn : parts.Nodup)
    (hlt : ∀ part ∈ parts, part < engine.supply.layout.numParts)
    (h : s.NodePhase engine.supply.layout pending)
    (hp : ∀ id ∈ pending, engine.supply.layout.nodeHome id ∉ parts)
    (hidle : ∀ id ∈ parts.flatMap engine.supply.layout.nodeTour,
      s.nodeActive id = false → s.moves engine.supply now id = [])
    {moved : Except LoadingError (Nat × Nat)} (hr : engine.nodePhase s now parts = .ok (moved, t)) :
    t.NodePhase engine.supply.layout ((parts.flatMap fun part =>
        s.skipped engine.supply now (engine.supply.layout.nodeTour part)) ++ pending) ∧
      ∀ id ∈ engine.supply.layout.nodeIds, t.nodeActive id =
        if engine.supply.layout.nodeHome id ∈ parts then s.markAfter engine.supply now
          (engine.supply.layout.nodeTour (engine.supply.layout.nodeHome id)) id
        else s.nodeActive id := by
  induction parts generalizing s pending moved with
  | nil =>
    cases hr
    exact ⟨h, fun _ _ => rfl⟩
  | cons part rest ih =>
    obtain ⟨hpart, hrest⟩ := List.forall_mem_cons.1 hlt
    obtain ⟨hnew, hnodup⟩ := List.nodup_cons.1 hn
    have hpart_pending (id : NodeId) (hid : id ∈ pending) :
        engine.supply.layout.nodeHome id ≠ part := fun he => hp id hid (he ▸ List.mem_cons_self)
    have hrest_pending (id : NodeId) (hid : id ∈ pending) :
        engine.supply.layout.nodeHome id ∉ rest :=
      fun hmem => hp id hid (List.mem_cons_of_mem _ hmem)
    have hidle_part (id : NodeId) (hid : id ∈ engine.supply.layout.nodeTour part) :=
      hidle id (List.mem_flatMap.2 ⟨part, List.mem_cons_self, hid⟩)
    obtain ⟨u, hsweep, hswept⟩ : ∃ u, _ ∧ NodesSwept engine.supply now part pending s u :=
      h.sweepNodes hc hpart hpart_pending hidle_part
    obtain ⟨hphase, hactive⟩ := h.sweepNodes_marks hc hpart hpart_pending hidle_part hsweep
    rw [Engine.nodePhase, hsweep] at hr
    obtain ⟨⟨more, w⟩, hrun, he⟩ := exists_of_map_eq_ok hr
    cases he
    -- The partitions which follow find the same agents and marks at their nodes.
    have hother (id : NodeId) (hid : engine.supply.layout.nodeHome id ∈ rest) :
        id ∉ engine.supply.layout.nodeTour part := fun hmem =>
      hnew ((hc.mem_nodeTour.1 hmem).2 ▸ hid)
    have hmoves (other : Nat) (ho : other ∈ rest) (id : NodeId)
        (hid : id ∈ engine.supply.layout.nodeTour other) :
        u.moves engine.supply now id = s.moves engine.supply now id :=
      hswept.moves_eq hc h.fits (hother id ((hc.mem_nodeTour.1 hid).2 ▸ ho))
    have hidle_rest (id : NodeId) (hid : id ∈ rest.flatMap engine.supply.layout.nodeTour)
        (hmark : u.nodeActive id = false) : u.moves engine.supply now id = [] := by
      obtain ⟨other, ho, htour⟩ := List.mem_flatMap.1 hid
      obtain ⟨hnode, hhome⟩ := hc.mem_nodeTour.1 htour
      exact hswept.idle hc h.fits hnode (hother id (hhome ▸ ho))
        (hidle id (List.mem_append_right _ hid)) hmark
    have hskip_pending (id : NodeId) (hid : id ∈ s.skipped engine.supply now
        (engine.supply.layout.nodeTour part) ++ pending) :
        engine.supply.layout.nodeHome id ∉ rest := by
      rcases List.mem_append.1 hid with hid | hid
      · rwa [(hc.mem_nodeTour.1 ((skipped_sublist _ _ _ _).subset hid)).2]
      · exact hrest_pending id hid
    obtain ⟨hphase', hactive'⟩ := ih hnodup hrest hphase hskip_pending hidle_rest hrun
    have hskipped : (rest.flatMap fun part =>
        u.skipped engine.supply now (engine.supply.layout.nodeTour part)) =
          rest.flatMap fun part =>
            s.skipped engine.supply now (engine.supply.layout.nodeTour part) :=
      List.flatMap_congr fun other ho => (grants_congr (hmoves other ho)).2
    rw [hskipped] at hphase'
    refine ⟨hphase'.add_pending (fun id hid => ?_) (fun id hid hnot => absurd ?_ hnot),
      fun id hid => ?_⟩
    · simpa [or_left_comm] using hid
    · simpa [or_left_comm] using hid
    · rw [hactive' id hid, hactive id hid]
      by_cases hhome : engine.supply.layout.nodeHome id ∈ rest
      · have hne : engine.supply.layout.nodeHome id ≠ part := ne_of_mem_of_not_mem hhome hnew
        obtain ⟨hserved, hskipped⟩ := grants_congr (hmoves _ hhome)
        have htour := hc.mem_nodeTour.2 ⟨hid, rfl⟩
        have hmark : u.nodeActive id = s.nodeActive id := by rw [hactive id hid, if_neg hne]
        rw [if_pos hhome, if_pos (List.mem_cons_of_mem _ hhome), markAfter, markAfter, hserved,
          hskipped, hmoves _ hhome id htour, hmark]
      · by_cases hself : engine.supply.layout.nodeHome id = part
        · rw [if_neg hhome, if_pos hself, if_pos (hself ▸ List.mem_cons_self), hself]
        · rw [if_neg hhome, if_neg hself, if_neg (by simp [hself, hhome])]

end NodePhase

/-! ## Who is left at the ends of links -/

/-- The crossings which take place are those at the nodes served, and some at the one which
fails. -/
theorem cut_moves (supply : Supply) (now : UInt32) (s : Loading) (ids : List NodeId) :
    Crossing.cut (ids.flatMap (s.moves supply now)) =
      (s.served supply now ids).flatMap (s.moves supply now) ++
        ((ids.dropWhile (s.grants supply now)).take 1).flatMap fun id =>
          Crossing.cut (s.moves supply now id) := by
  induction ids with
  | nil => rfl
  | cons id rest ih =>
    have hgrants := Crossing.isOk_tally (s.moves supply now id)
    rw [← grants] at hgrants
    -- The cut goes through the node at which the first crossing fails, and through no other.
    rw [List.flatMap_cons, Crossing.cut_append]
    cases htally : Crossing.tally (s.moves supply now id) with
    | error error =>
      have hfails : s.grants supply now id = false := by rw [← hgrants, htally]; rfl
      simp [served, hfails]
    | ok n =>
      have hpasses : s.grants supply now id = true := by rw [← hgrants, htally]; rfl
      simp [served, hpasses, ih]

/-- Who is taken from a link crosses the node at its end. -/
theorem toNode_of_mem_moves (hc : supply.layout.Closed) {link : Link}
    (hl : link ∈ supply.layout.links) {id : NodeId} {x : Crossing}
    (hx : x ∈ s.moves supply now id) (he : x.inLink = link.id) : id = link.toNode := by
  obtain ⟨node, hn, rfl, hcross⟩ := mem_moves hx
  have hin := inLink_mem_of_mem_crossingsFrom hcross
  obtain ⟨other, hother, hid, hto⟩ := (hc.mem_inLinks hn).1 (he ▸ hin)
  obtain rfl := hc.link_inj hother hl hid
  exact hto.symm

/-- Nobody leaves a link while other nodes are visited. -/
theorem leaving_moves_of_not_mem (hc : supply.layout.Closed) {link : Link}
    (hl : link ∈ supply.layout.links) {ids : List NodeId} (hto : link.toNode ∉ ids)
    {f : NodeId → List Crossing} (hf : ∀ id, f id ⊆ s.moves supply now id) :
    (ids.flatMap f).filter (·.inLink = link.id) = [] := by
  refine List.filter_eq_nil_iff.2 fun x hx he => hto ?_
  obtain ⟨id, hid, hx⟩ := List.mem_flatMap.1 hx
  exact toNode_of_mem_moves hc hl (hf id hx) (of_decide_eq_true he) ▸ hid

/-- Nodes are served, fail or are skipped. -/
theorem tour_split (supply : Supply) (now : UInt32) (s : Loading) (ids : List NodeId) :
    s.served supply now ids ++ ((ids.dropWhile (s.grants supply now)).take 1 ++
      s.skipped supply now ids) = ids := by
  rw [skipped, ← List.drop_one, List.take_append_drop, served, List.takeWhile_append_dropWhile]

/-- Who waits for a node that is served leaves the link, and who waits for one that is skipped does
not. -/
theorem toLeave_of_content (hc : supply.layout.Closed) (hs : s.Fits supply.layout)
    {parts : List Nat} (hp : parts.Perm (List.range supply.layout.numParts))
    (ht : t.clearActive = (parts.flatMap fun part =>
      Crossing.cut (s.partMoves supply now part)).foldl (pass now) s)
    {link : Link} (hl : link ∈ supply.layout.links) :
    (link.toNode ∈ s.served supply now
        (supply.layout.nodeTour (supply.layout.nodeHome link.toNode)) →
      (t.queue link.id).toLeave = []) ∧
    (link.toNode ∈ s.skipped supply now
        (supply.layout.nodeTour (supply.layout.nodeHome link.toNode)) →
      (t.queue link.id).toLeave = (s.queue link.id).toLeave) := by
  obtain ⟨node, hnode, hto, -⟩ := hc.target link hl
  have hhome : supply.layout.nodeHome link.toNode ∈ parts :=
    hp.mem_iff.2 (List.mem_range.2 (hto ▸ hc.nodeHome_lt (List.mem_map_of_mem hnode)))
  have hwithin (x : Crossing) (hx : x ∈ parts.flatMap fun part =>
      Crossing.cut (s.partMoves supply now part)) : x.Within supply.layout := by
    obtain ⟨part, -, hx⟩ := List.mem_flatMap.1 hx
    obtain ⟨id, -, hx⟩ := List.mem_flatMap.1 (Crossing.cut_subset _ hx)
    exact within_of_mem_moves hc hx
  have hothers (part : Nat) (_ : part ∈ parts) (hne : part ≠ supply.layout.nodeHome link.toNode) :
      (Crossing.cut (s.partMoves supply now part)).filter (·.inLink = link.id) = [] := by
    refine List.filter_eq_nil_iff.2 fun x hx he => hne ?_
    obtain ⟨id, hid, hx⟩ := List.mem_flatMap.1 (Crossing.cut_subset _ hx)
    rw [← toNode_of_mem_moves hc hl hx (of_decide_eq_true he)]
    exact (hc.mem_nodeTour.1 hid).2.symm
  have hleave := congrArg (fun u : Loading => (u.queue link.id).toLeave) ht
  simp only [queue_clearActive, LinkQueue.toLeave_unmarked,
    queue_foldl_pass hc hs hwithin (List.mem_map_of_mem hl), Crossing.foldl_carry] at hleave
  rw [List.filter_flatMap, flatMap_eq_single (hp.nodup_iff.2 List.nodup_range) hhome hothers,
    partMoves, cut_moves, List.filter_append] at hleave
  -- The nodes of the partition fall into those served, the one which fails and those skipped.
  have hsplit := hc.nodup_nodeTour (supply.layout.nodeHome link.toNode)
  rw [← tour_split supply now s (supply.layout.nodeTour _)] at hsplit
  obtain ⟨hserved, hbehind, hapart⟩ := List.nodup_append.1 hsplit
  have hfailed (hid : link.toNode ∉ ((supply.layout.nodeTour
      (supply.layout.nodeHome link.toNode)).dropWhile (s.grants supply now)).take 1) :=
    leaving_moves_of_not_mem hc hl hid fun id => Crossing.cut_subset (s.moves supply now id)
  constructor
  · intro hmem
    have hnot := hfailed fun hid => hapart _ hmem _ (List.mem_append_left _ hid) rfl
    rw [hleave, hnot, List.append_nil, leaving_moves hc hl hserved hmem]
    exact foldl_erase_self _
  · intro hmem
    have hnot := hfailed fun hid => (List.nodup_append.1 hbehind).2.2 _ hid _ hmem rfl
    have hnone := leaving_moves_of_not_mem (s := s) hc hl
      (fun hid => hapart _ hid _ (List.mem_append_right _ hmem) rfl)
      fun id => List.Subset.refl (s.moves supply now id)
    rw [hleave, hnot, hnone]
    rfl

/-! ## Steps -/

theorem awaited_eq (hc : supply.layout.Closed) {node : Junction}
    (hn : node ∈ supply.layout.junctions) (now : UInt32) :
    s.awaited node = !(s.moves supply now node.id).isEmpty := by
  rw [Bool.eq_iff_iff, awaited_eq_true, moves_eq hc hn]
  simp [crossings, crossingsFrom]

/-- What a step leaves of the marks and of those who wait, whether or not it fails: `d` is the state
in which all links have advanced. -/
structure MarksLeft (supply : Supply) (now : UInt32) (s d t : Loading) : Prop where
  links : ∀ part id, id ∈ t.traffic.activeLinks.ids part ↔
    id ∈ supply.layout.linkIds ∧ supply.layout.linkHome id = part ∧ (t.queue id).active
  busy : ∀ id ∈ supply.layout.linkIds, (t.queue id).active = (t.queue id).busy
  nodes : ∀ part id, id ∈ t.traffic.activeNodes.ids part ↔
    id ∈ d.served supply now (supply.layout.nodeTour part) ∧ d.moves supply now id ≠ []
  served : ∀ part, ∀ id ∈ d.served supply now (supply.layout.nodeTour part),
    t.nodeActive id = !(d.moves supply now id).isEmpty
  failed : ∀ part, ∀ id ∈ supply.layout.nodeTour part,
    id ∉ d.served supply now (supply.layout.nodeTour part) →
      id ∉ d.skipped supply now (supply.layout.nodeTour part) → t.nodeActive id = false
  skipped : ∀ part, ∀ id ∈ d.skipped supply now (supply.layout.nodeTour part),
    t.nodeActive id = (s.nodeActive id || !(d.moves supply now id).isEmpty)
  moved : ∀ part, ∀ link ∈ supply.layout.links,
    link.toNode ∈ d.served supply now (supply.layout.nodeTour part) →
      (t.queue link.id).toLeave = []
  left : ∀ part, ∀ link ∈ supply.layout.links,
    link.toNode ∈ d.skipped supply now (supply.layout.nodeTour part) →
      (t.queue link.id).toLeave = (d.queue link.id).toLeave

/-- A node which is served is not skipped in any partition. -/
theorem not_mem_skipped_of_served (hc : supply.layout.Closed) {part : Nat} {id : NodeId}
    (h : id ∈ s.served supply now (supply.layout.nodeTour part)) (parts : List Nat) :
    id ∉ parts.flatMap fun part => s.skipped supply now (supply.layout.nodeTour part) := by
  intro hmem
  obtain ⟨other, -, hmem⟩ := List.mem_flatMap.1 hmem
  have hhome := (hc.mem_nodeTour.1 ((served_sublist supply now s _).subset h)).2
  have hother := (hc.mem_nodeTour.1 ((skipped_sublist supply now s _).subset hmem)).2
  obtain rfl : part = other := hhome.symm.trans hother
  have hsplit := hc.nodup_nodeTour part
  rw [← tour_split supply now s (supply.layout.nodeTour part)] at hsplit
  exact (List.nodup_append.1 hsplit).2.2 _ h _ (List.mem_append_right _ hmem) rfl

theorem Settled.marksLeft (hc : engine.supply.layout.Closed) (hs : s.Settled engine.supply.layout)
    {orders : Orders} (ho : orders.Whole engine.supply.layout)
    {stats : Except LoadingError StepStats}
    (hstep : engine.stepInOrder s now orders.forLinks orders.forNodes = .ok (stats, t)) :
    MarksLeft engine.supply now s (s.drive engine.supply.layout now orders.forLinks) t := by
  have hnodup {parts : List Nat} (hp : parts.Perm (List.range engine.supply.layout.numParts)) :
      parts.Nodup := hp.nodup_iff.2 List.nodup_range
  have hlt {parts : List Nat} (hp : parts.Perm (List.range engine.supply.layout.numParts)) :
      ∀ part ∈ parts, part < engine.supply.layout.numParts :=
    fun part hpart => List.mem_range.1 (hp.mem_iff.1 hpart)
  obtain ⟨_, _, he, -, hcontent, -⟩ := hs.stepInOrder hc ho.forLinks ho.forNodes now
  cases hstep.symm.trans he
  obtain ⟨m, hm, hdrive, hphase⟩ :=
    (hs.linkPhase hc).linkPhase hc (hnodup ho.forLinks) (hlt ho.forLinks) now
  rw [← drive] at hdrive
  have hidle (id : NodeId) (hid : id ∈ orders.forNodes.flatMap engine.supply.layout.nodeTour) :=
    hphase.moves_eq_nil hc (hc.nodeTours_subset orders.forNodes hid) now
  rw [Engine.stepInOrder, hm] at hstep
  obtain ⟨⟨moved, u⟩, hrun, he⟩ := exists_of_map_eq_ok hstep
  cases he
  obtain ⟨hleft, hmarks⟩ := hphase.nodePhase.nodePhase_marks hc (hnodup ho.forNodes)
    (hlt ho.forNodes) (List.forall_mem_nil _) hidle hrun
  have hqueue {link : Link} (hl : link ∈ engine.supply.layout.links) :=
    toLeave_of_content hc (fits_drive hs.fits now orders.forLinks) ho.forNodes hcontent hl
  have hhome {part : Nat} {id : NodeId} (hid : id ∈ engine.supply.layout.nodeTour part) :
      engine.supply.layout.nodeHome id = part := (hc.mem_nodeTour.1 hid).2
  have hserved {part : Nat} := (served_sublist engine.supply now m
    (engine.supply.layout.nodeTour part)).subset
  have hskipped {part : Nat} := (skipped_sublist engine.supply now m
    (engine.supply.layout.nodeTour part)).subset
  -- What a node does is read off the state in which the node phase began.
  have hmark {part : Nat} {id : NodeId} (hid : id ∈ engine.supply.layout.nodeTour part) :
      t.nodeActive id =
        m.markAfter engine.supply now (engine.supply.layout.nodeTour part) id := by
    have hpart : part ∈ orders.forNodes := by
      rw [ho.forNodes.mem_iff, List.mem_range, ← hhome hid]
      exact hc.nodeHome_lt (hc.mem_nodeTour.1 hid).1
    rw [hmarks id (hc.mem_nodeTour.1 hid).1, hhome hid, if_pos hpart]
  rw [← hdrive] at hqueue ⊢
  simp only [served_clearActive, skipped_clearActive] at hqueue
  refine ⟨?_, hleft.live, ?_, ?_, ?_, ?_, ?_, ?_⟩
  · intro part id
    rw [hleft.links.mem part id]
    simp
  · intro part id
    rw [hleft.nodes.mem part id, served_clearActive, moves_clearActive, List.append_nil,
      Bool.and_eq_true, decide_eq_true_eq]
    constructor
    · rintro ⟨hid, hpart, hactive, hnot⟩
      have htour : id ∈ engine.supply.layout.nodeTour part := hc.mem_nodeTour.2 ⟨hid, hpart⟩
      have hmem : part ∈ orders.forNodes := by
        rw [ho.forNodes.mem_iff, List.mem_range, ← hpart]
        exact hc.nodeHome_lt hid
      rw [hmark htour, markAfter] at hactive
      split at hactive
      · rename_i hserved
        exact ⟨hserved, by simpa using hactive⟩
      · rw [Bool.and_eq_true, decide_eq_true_eq] at hactive
        exact absurd (List.mem_flatMap.2 ⟨part, hmem, hactive.1⟩) hnot
    · rintro ⟨hid, hne⟩
      have htour := hc.mem_nodeTour.1 (hserved hid)
      refine ⟨htour.1, htour.2, ?_, not_mem_skipped_of_served hc hid _⟩
      rw [hmark (hserved hid), markAfter, if_pos hid]
      simpa using hne
  · intro part id hid
    rw [served_clearActive] at hid
    rw [hmark (hserved hid), markAfter, if_pos hid, moves_clearActive]
  · intro part id hid hnot hnot'
    rw [served_clearActive] at hnot
    rw [skipped_clearActive] at hnot'
    rw [hmark hid, markAfter, if_neg hnot]
    simp [hnot']
  · intro part id hid
    rw [skipped_clearActive] at hid
    obtain ⟨node, hn, rfl⟩ := List.mem_map.1 (hc.mem_nodeTour.1 (hskipped hid)).1
    have hnot (hmem : node.id ∈ m.served engine.supply now (engine.supply.layout.nodeTour part)) :=
      not_mem_skipped_of_served hc hmem [part] (by simpa using hid)
    rw [hmark (hskipped hid), markAfter, if_neg hnot, decide_eq_true hid, Bool.true_and,
      hphase.alerted node hn, awaited_eq hc hn now, moves_clearActive]
  · intro part link hl hid
    rw [served_clearActive] at hid
    have hpart := hhome (hserved hid)
    exact (hqueue hl).1 (by rwa [hpart])
  · intro part link hl hid
    rw [skipped_clearActive] at hid
    have hpart := hhome (hskipped hid)
    exact (hqueue hl).2 (by rwa [hpart])

end Loading

/-- The first of two nodes fails, and an agent waits for the second one. -/
theorem Sample.fails_mixedEngine : ∃ history s error t, mixedEngine.Reaches history s ∧
    mixedEngine.step s 6 = .ok (.error error, t) ∧ t.nodeActive yard = true ∧
    t.traffic.activeNodes.ids 0 = [] ∧ (t.queue lane).toLeave = [cyclist ben] := by
  have hwhole := Orders.whole_ascending mixedEngine.supply.layout
  have hann : mixedEngine.Reaches _ _ :=
    .call (.depart (driver ann) track 5) (.start ⟨⟨2, 0⟩, #[], #[], #[]⟩) hwhole rfl rfl
  have hben : mixedEngine.Reaches _ _ :=
    .call (.depart (cyclist ben) lane 5) hann hwhole rfl rfl
  exact ⟨_, _, _, _, hben, rfl, rfl, rfl, rfl⟩

namespace Engine

variable {engine : Engine} {history : List (Call × List Event)} {s t : Loading} {now : UInt32}

/-- A step which fails forgets some nodes. All links keep their wake-ups. In some partition a node
fails, and only the nodes in front of it stand in the active set afterwards, if they moved agents.
The nodes behind it stay marked and in no set, and those who wait for them are left where they are.
-/
theorem step_failed (hb : engine.Constructed) (h : engine.Reaches history s) {orders : Orders}
    (ho : orders.Whole engine.supply.layout) {error : LoadingError}
    (hstep : engine.stepInOrder s now orders.forLinks orders.forNodes = .ok (.error error, t)) :
    let d := s.drive engine.supply.layout now orders.forLinks
    (∃ part < engine.supply.layout.numParts, ∃ failing,
      engine.supply.layout.nodeTour part =
        d.served engine.supply now (engine.supply.layout.nodeTour part) ++
          failing :: d.skipped engine.supply now (engine.supply.layout.nodeTour part) ∧
      ∃ x ∈ d.moves engine.supply now failing, x.error?.isSome) ∧
    Loading.MarksLeft engine.supply now s d t := by
  have hc := hb.closed
  have hs := h.settled hc
  refine ⟨?_, hs.marksLeft hc ho hstep⟩
  obtain ⟨_, _, he, htally, -⟩ := hs.stepInOrder hc ho.forLinks ho.forNodes now
  cases hstep.symm.trans he
  obtain ⟨x, hx, hrefused⟩ := Crossing.tallyAll_eq_error.1 ⟨error, htally.symm⟩
  obtain ⟨_, hparts, hx⟩ := List.mem_flatten.1 hx
  obtain ⟨part, hpart, rfl⟩ := List.mem_map.1 hparts
  obtain ⟨id, hid, hx⟩ := List.mem_flatMap.1 hx
  have hsplit := Loading.tour_split engine.supply now
    (s.drive engine.supply.layout now orders.forLinks) (engine.supply.layout.nodeTour part)
  have hfirst := List.head?_dropWhile_not
    ((s.drive engine.supply.layout now orders.forLinks).grants engine.supply now)
    (engine.supply.layout.nodeTour part)
  refine ⟨part, List.mem_range.1 (ho.forNodes.mem_iff.1 hpart), ?_⟩
  cases hdrop : (engine.supply.layout.nodeTour part).dropWhile
      ((s.drive engine.supply.layout now orders.forLinks).grants engine.supply now) with
  | nil =>
    -- Otherwise nobody would have been refused.
    have hpasses := List.dropWhile_eq_nil_iff.1 hdrop id hid
    have hgranted := List.all_eq_true.1 hpasses x hx
    rw [Option.isNone_iff_eq_none.1 hgranted] at hrefused
    cases hrefused
  | cons failing rest =>
    rw [hdrop] at hsplit hfirst
    refine ⟨failing, hsplit.symm, ?_⟩
    have hfails : ¬ (s.drive engine.supply.layout now orders.forLinks).grants engine.supply now
        failing = true := ne_true_of_eq_false hfirst
    simpa [Loading.grants, Option.isSome_iff_ne_none] using hfails

theorem step_failed_mixed : ∃ history s error t, Sample.mixedEngine.Reaches history s ∧
    Sample.mixedEngine.step s 6 = .ok (.error error, t) ∧ t.traffic.activeNodes.ids 0 = [] ∧
    Loading.MarksLeft Sample.mixedEngine.supply 6 s
      (s.drive Sample.mixedEngine.supply.layout 6 (List.range 1)) t := by
  obtain ⟨history, s, error, t, h, hstep, -, hids, -⟩ := Sample.fails_mixedEngine
  exact ⟨history, s, error, t, h, hstep, hids,
    (step_failed Sample.constructed_mixedEngine h (Orders.whole_ascending _) hstep).2⟩

/-- A node can stay marked without standing in its set, while an agent waits for it. -/
theorem step_forgets_node : ∃ (engine : Engine) (history : List (Call × List Event)) (s t : Loading)
    (error : LoadingError), engine.Constructed ∧ engine.Reaches history s ∧
    engine.step s 6 = .ok (.error error, t) ∧
    ∃ link ∈ engine.supply.layout.links, (t.queue link.id).toLeave ≠ [] ∧
      t.nodeActive link.toNode = true ∧
      link.toNode ∉ t.traffic.activeNodes.ids (engine.supply.layout.nodeHome link.toNode) := by
  obtain ⟨history, s, error, t, h, hstep, hmark, hids, hwaits⟩ := Sample.fails_mixedEngine
  refine ⟨Sample.mixedEngine, history, s, t, error, Sample.constructed_mixedEngine, h, hstep,
    Sample.road, List.mem_cons_self, ?_, hmark, ?_⟩
  · exact hwaits ▸ List.cons_ne_nil _ _
  · have hhome : Sample.mixedEngine.supply.layout.nodeHome Sample.road.toNode = 0 := rfl
    rw [hhome, hids]
    exact List.not_mem_nil

end Engine

end NetworkLoading
