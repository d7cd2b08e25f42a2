import NetworkLoading.Proofs.Activation

/-!
# Advancing links

What advancing a link does to its agents, apart from all marks, and what it does to the marks: in
every state of a link phase a link is marked if and only if it is busy, and a node if it was marked
before or if agents wait for it. Links which are not busy can be left out.
-/

namespace NetworkLoading

namespace Loading

variable {l : Layout} {s t : Loading} {now : UInt32}

/-! ## Agents -/

/-- Agents whose legs end leave the network, one after the other. -/
def arriveAll (now : UInt32) (s : Loading) (agents : List Agent) : Loading :=
  agents.foldl (fun s agent => s.arrive now agent) s

theorem arriveAll_eq (now : UInt32) (s : Loading) (agents : List Agent) :
    s.arriveAll now agents =
      { traffic := { s.traffic with
          onNetwork := s.traffic.onNetwork - UInt64.ofNat agents.length }
        record := { s.record with
          handedOver := s.record.handedOver ++ (agents.map (·.arrive now)).toArray } } := by
  induction agents generalizing s with
  | nil => simp [arriveAll]
  | cons agent rest ih =>
    rw [arriveAll, List.foldl_cons, ← arriveAll, ih]
    simp only [arrive, countOut, handOver, List.length_cons, List.map_cons, Loading.mk.injEq,
      Traffic.mk.injEq, Record.mk.injEq, true_and, and_true]
    refine ⟨?_, ?_⟩
    · rw [UInt64.ofNat_add]
      grind
    · rw [Array.push_eq_append, Array.append_assoc]
      simp

/-- Moves the agents of a link: those who are due arrive or wait to leave. -/
def flow (now : UInt32) (s : Loading) (id : LinkId) : Loading :=
  (s.arriveAll now ((s.queue id).arriving id now)).updateQueue id fun q => q.advance id now

@[simp] theorem shape_arriveAll (now : UInt32) (s : Loading) (agents : List Agent) :
    (s.arriveAll now agents).traffic.shape = s.traffic.shape := by
  rw [arriveAll_eq]
  rfl

@[simp] theorem queue_arriveAll (now : UInt32) (s : Loading) (agents : List Agent) (id : LinkId) :
    (s.arriveAll now agents).queue id = s.queue id := by
  rw [arriveAll_eq]
  rfl

@[simp] theorem clearActive_arriveAll (now : UInt32) (s : Loading) (agents : List Agent) :
    (s.arriveAll now agents).clearActive = s.clearActive.arriveAll now agents := by
  simp only [arriveAll_eq]
  rfl

@[simp] theorem shape_flow (now : UInt32) (s : Loading) (id : LinkId) :
    (s.flow now id).traffic.shape = s.traffic.shape := by
  rw [flow, shape_updateQueue, shape_arriveAll]

theorem Fits.flow (hs : s.Fits l) (now : UInt32) (id : LinkId) : (s.flow now id).Fits l :=
  hs.of_shape_eq (shape_flow now s id)

theorem queue_flow (hc : l.Closed) (hs : s.Fits l) {id other : LinkId} (h : id ∈ l.linkIds)
    (ho : other ∈ l.linkIds) :
    (s.flow now id).queue other =
      if other = id then (s.queue other).advance id now else s.queue other := by
  rw [flow, queue_updateQueue hc (hs.of_shape_eq (shape_arriveAll _ _ _)) h ho, queue_arriveAll]

@[simp] theorem clearActive_flow (now : UInt32) (s : Loading) (id : LinkId) :
    (s.flow now id).clearActive = s.clearActive.flow now id := by
  rw [flow, clearActive_updateQueue _ (fun q => q.advance id now) fun _ => rfl,
    clearActive_arriveAll, flow, queue_clearActive, LinkQueue.arriving_unmarked]

/-- On a link which is not busy, no agent moves. -/
theorem flow_of_idle {id : LinkId} (h : (s.queue id).busy = false) : s.flow now id = s := by
  rw [flow, LinkQueue.arriving_of_idle h]
  exact updateQueue_eq_self (LinkQueue.advance_of_idle h)

/-- The links among some which are busy. -/
def busyLinks (s : Loading) (ids : List LinkId) : List LinkId :=
  ids.filter fun id => (s.queue id).busy

theorem busyLinks_sublist (s : Loading) (ids : List LinkId) : (s.busyLinks ids).Sublist ids :=
  List.filter_sublist

@[simp] theorem busyLinks_clearActive (s : Loading) (ids : List LinkId) :
    s.clearActive.busyLinks ids = s.busyLinks ids := by
  simp only [busyLinks, queue_clearActive, LinkQueue.busy_unmarked]

theorem fits_foldl_flow (hs : s.Fits l) (now : UInt32) (ids : List LinkId) :
    (ids.foldl (flow now) s).Fits l := by
  induction ids generalizing s with
  | nil => exact hs
  | cons id rest ih => exact ih (hs.flow now id)

theorem queue_foldl_flow (hc : l.Closed) (hs : s.Fits l) {ids : List LinkId} (hn : ids.Nodup)
    (hids : ids ⊆ l.linkIds) {other : LinkId} (ho : other ∈ l.linkIds) :
    (ids.foldl (flow now) s).queue other =
      if other ∈ ids then (s.queue other).advance other now else s.queue other := by
  induction ids generalizing s with
  | nil => simp
  | cons id rest ih =>
    obtain ⟨hid, hrest⟩ := List.cons_subset.1 hids
    obtain ⟨hnew, hn⟩ := List.nodup_cons.1 hn
    rw [List.foldl_cons, ih (hs.flow now id) hn hrest, queue_flow hc hs hid ho]
    -- No link is advanced twice, which is why the ids must differ.
    by_cases he : other = id
    · subst he
      simp [hnew]
    · simp [he]

/-- Advancing links leaves others as busy as they are. -/
theorem busyLinks_foldl_flow (hc : l.Closed) (hs : s.Fits l) {ids others : List LinkId}
    (hn : ids.Nodup) (hids : ids ⊆ l.linkIds) (hothers : others ⊆ l.linkIds)
    (hd : ids.Disjoint others) :
    (ids.foldl (flow now) s).busyLinks others = s.busyLinks others := by
  apply List.filter_congr
  intro id hid
  rw [queue_foldl_flow hc hs hn hids (hothers hid), if_neg fun h => hd h hid]

/-- Links which are not busy can be left out. -/
theorem foldl_flow_busyLinks (hc : l.Closed) (hs : s.Fits l) {ids : List LinkId} (hn : ids.Nodup)
    (hids : ids ⊆ l.linkIds) :
    (s.busyLinks ids).foldl (flow now) s = ids.foldl (flow now) s := by
  induction ids generalizing s with
  | nil => rfl
  | cons id rest ih =>
    obtain ⟨hid, hrest⟩ := List.cons_subset.1 hids
    obtain ⟨hnew, hn⟩ := List.nodup_cons.1 hn
    have hfits : (s.flow now id).Fits l := hs.flow now id
    -- Which of the later links are busy can be told before the first one moves.
    have hbusy : (s.flow now id).busyLinks rest = s.busyLinks rest := by
      apply List.filter_congr
      intro other hother
      rw [queue_flow hc hs hid (hrest hother), if_neg (ne_of_mem_of_not_mem hother hnew)]
    rw [List.foldl_cons, ← ih hfits hn hrest, hbusy, busyLinks, List.filter_cons]
    cases hb : (s.queue id).busy with
    | true => rfl
    | false => rw [flow_of_idle hb]; rfl

/-- The agents whose legs end on some links. -/
def arrivals (now : UInt32) (s : Loading) (ids : List LinkId) : List Agent :=
  ids.flatMap fun id => (s.queue id).arriving id now

/-- All that advancing links leaves in the record are the agents who arrive. -/
theorem foldl_flow_record (hc : l.Closed) (hs : s.Fits l) {ids : List LinkId} (hn : ids.Nodup)
    (hids : ids ⊆ l.linkIds) (now : UInt32) :
    (ids.foldl (flow now) s).record =
        { s.record with
          handedOver :=
            s.record.handedOver ++ ((s.arrivals now ids).map (·.arrive now)).toArray } ∧
      (ids.foldl (flow now) s).traffic.onNetwork =
        s.traffic.onNetwork - UInt64.ofNat (s.arrivals now ids).length := by
  induction ids generalizing s with
  | nil => simp [arrivals]
  | cons id rest ih =>
    obtain ⟨hid, hrest⟩ := List.cons_subset.1 hids
    obtain ⟨hnew, hnodup⟩ := List.nodup_cons.1 hn
    obtain ⟨hrecord, hcount⟩ := ih (hs.flow now id) hnodup hrest
    have hsame : (s.flow now id).arrivals now rest = s.arrivals now rest := by
      apply List.flatMap_congr
      intro other hother
      rw [queue_flow hc hs hid (hrest hother), if_neg (ne_of_mem_of_not_mem hother hnew)]
    have hself : (s.flow now id).record = { s.record with
          handedOver := s.record.handedOver ++
            (((s.queue id).arriving id now).map (·.arrive now)).toArray } ∧
        (s.flow now id).traffic.onNetwork =
          s.traffic.onNetwork - UInt64.ofNat ((s.queue id).arriving id now).length := by
      rw [flow, arriveAll_eq]
      exact ⟨rfl, rfl⟩
    rw [List.foldl_cons, hrecord, hcount, hsame, hself.1, hself.2, arrivals, arrivals,
      List.flatMap_cons]
    refine ⟨by simp, ?_⟩
    rw [List.length_append, UInt64.ofNat_add]
    grind

/-! ## One link -/

/-- The node at the end of a link is activated if agents wait for it. -/
def alert (l : Layout) (s : Loading) (link : Link) : Loading :=
  if (s.queue link.id).toLeave.isEmpty then s
  else
    match l.junction? link.toNode with
    | some node => s.wakeNode node
    | none => s

/-- The state while a sweep visits a link: the link was advanced, and its mark is gone. -/
def runLink (l : Layout) (now : UInt32) (s : Loading) (link : Link) : Loading :=
  ((s.deactivateLink link.id).flow now link.id).alert l link

/-- The state after a sweep visited a link. -/
def attendLink (l : Layout) (now : UInt32) (s : Loading) (link : Link) : Loading :=
  let t := s.runLink l now link
  if (t.queue link.id).inTransit.isEmpty then t else t.wakeLink link

theorem advanceLink_eq_ok {supply : Supply} (hc : supply.layout.Closed) (hs : s.Fits supply.layout)
    {link : Link} (hl : link ∈ supply.layout.links) :
    s.advanceLink supply link now =
      .ok (!((s.flow now link.id).queue link.id).inTransit.isEmpty,
        (s.flow now link.id).alert supply.layout link) := by
  have hid : link.id ∈ supply.layout.linkIds := List.mem_map_of_mem hl
  -- The queues are read before anyone arrives; no arrival changes them.
  have hflow : (((s.queue link.id).arriving link.id now).foldl (fun s agent => s.arrive now agent)
      s).updateQueue link.id (fun _ => (s.queue link.id).advance link.id now) =
        s.flow now link.id := by
    apply updateQueue_congr
    rw [← arriveAll, queue_arriveAll]
  have hafter : (s.queue link.id).advance link.id now = (s.flow now link.id).queue link.id := by
    rw [queue_flow hc hs hid hid, if_pos rfl]
  obtain ⟨node, hn, hto, -⟩ := hc.target link hl
  unfold advanceLink
  dsimp only
  rw [hflow, hafter, alert]
  split
  · rfl
  · have hfits : (s.flow now link.id).Fits supply.layout := hs.flow now link.id
    simp only [← hto, hc.junction_eq hn, hc.junction?_eq hn, Except.bind,
      activateNode_eq_ok hc hfits hn, Except.map]

theorem alert_eq (l : Layout) (s : Loading) (link : Link) :
    s.alert l link = s ∨ ∃ node ∈ l.junctions, s.alert l link = s.wakeNode node := by
  unfold alert
  split
  · exact .inl rfl
  · split
    · rename_i node h
      exact .inr ⟨node, List.mem_of_find?_eq_some h, rfl⟩
    · exact .inl rfl

@[simp] theorem queue_alert (l : Layout) (s : Loading) (link : Link) (id : LinkId) :
    (s.alert l link).queue id = s.queue id := by
  obtain h | ⟨node, -, h⟩ := alert_eq l s link
  · rw [h]
  · rw [h, queue_wakeNode]

@[simp] theorem shape_alert (l : Layout) (s : Loading) (link : Link) :
    (s.alert l link).traffic.shape = s.traffic.shape := by
  obtain h | ⟨node, -, h⟩ := alert_eq l s link
  · rw [h]
  · rw [h, shape_wakeNode]

@[simp] theorem clearActive_alert (l : Layout) (s : Loading) (link : Link) :
    (s.alert l link).clearActive = s.clearActive := by
  obtain h | ⟨node, -, h⟩ := alert_eq l s link
  · rw [h]
  · rw [h, clearActive_wakeNode]

@[simp] theorem activeLinks_alert (l : Layout) (s : Loading) (link : Link) :
    (s.alert l link).traffic.activeLinks = s.traffic.activeLinks := by
  obtain h | ⟨node, -, h⟩ := alert_eq l s link
  · rw [h]
  · rw [h, activeLinks_wakeNode]

theorem Fits.deactivateLink (hs : s.Fits l) (id : LinkId) : (s.deactivateLink id).Fits l :=
  hs.of_shape_eq (shape_updateQueue s id _)

theorem Fits.alert (hs : s.Fits l) (link : Link) : (s.alert l link).Fits l :=
  hs.of_shape_eq (shape_alert l s link)

theorem Fits.runLink (hs : s.Fits l) (now : UInt32) (link : Link) : (s.runLink l now link).Fits l :=
  ((hs.deactivateLink link.id).flow now link.id).alert link

/-- Only the mark of the link tells whether it was activated again. -/
theorem attendLink_cases (l : Layout) (now : UInt32) (s : Loading) (link : Link) :
    s.attendLink l now link = s.runLink l now link ∨
      s.attendLink l now link = (s.runLink l now link).wakeLink link := by
  unfold attendLink
  dsimp only
  split
  · exact .inl rfl
  · exact .inr rfl

theorem visitLink_eq_ok {supply : Supply} (hc : supply.layout.Closed) (hs : s.Fits supply.layout)
    {link : Link} (hl : link ∈ supply.layout.links) :
    s.visitLink supply now link.id = .ok (s.attendLink supply.layout now link) := by
  have hfits : (s.deactivateLink link.id).Fits supply.layout := hs.deactivateLink link.id
  have hrun : (((s.deactivateLink link.id).flow now link.id).alert supply.layout link).Fits
      supply.layout := hs.runLink now link
  simp only [visitLink, hc.link_eq hl, Except.bind, advanceLink_eq_ok hc hfits hl, attendLink,
    runLink, queue_alert]
  cases (((s.deactivateLink link.id).flow now link.id).queue link.id).inTransit.isEmpty with
  | true => rfl
  | false => simp [activateLink_eq_ok hc hrun hl, Except.map]

theorem Fits.attendLink (hs : s.Fits l) (now : UInt32) (link : Link) :
    (s.attendLink l now link).Fits l := by
  obtain h | h := attendLink_cases l now s link
  · rw [h]
    exact hs.runLink now link
  · rw [h]
    exact (hs.runLink now link).of_shape_eq (shape_wakeLink _ link)

/-- Apart from marks, a visit advances the link. -/
@[simp] theorem clearActive_attendLink (l : Layout) (now : UInt32) (s : Loading) (link : Link) :
    (s.attendLink l now link).clearActive = s.clearActive.flow now link.id := by
  have hrun : (s.runLink l now link).clearActive = s.clearActive.flow now link.id := by
    rw [runLink, clearActive_alert, clearActive_flow, clearActive_deactivateLink]
  obtain h | h := attendLink_cases l now s link
  · rw [h, hrun]
  · rw [h, clearActive_wakeLink, hrun]

theorem queue_runLink (hc : l.Closed) (hs : s.Fits l) {link : Link} (hl : link ∈ l.links)
    {other : LinkId} (ho : other ∈ l.linkIds) :
    (s.runLink l now link).queue other =
      if other = link.id then { (s.queue other).advance other now with active := false }
      else s.queue other := by
  have hid : link.id ∈ l.linkIds := List.mem_map_of_mem hl
  rw [runLink, queue_alert, queue_flow hc (hs.deactivateLink link.id) hid ho, deactivateLink,
    queue_updateQueue hc hs hid ho]
  by_cases he : other = link.id <;>
    simp [he, LinkQueue.advance, LinkQueue.continuing, LinkQueue.due]

/-- A visited link is marked if and only if it is still busy. Agents who wait after an activity are
all gone, so that looking at those in transit is enough. -/
theorem queue_attendLink (hc : l.Closed) (hs : s.Fits l) {link : Link} (hl : link ∈ l.links)
    {other : LinkId} (ho : other ∈ l.linkIds) :
    (s.attendLink l now link).queue other =
      if other = link.id then
        { (s.queue other).advance other now with
          active := ((s.queue other).advance other now).busy }
      else s.queue other := by
  have hself : (s.runLink l now link).queue link.id =
      { (s.queue link.id).advance link.id now with active := false } := by
    rw [queue_runLink hc hs hl (List.mem_map_of_mem hl), if_pos rfl]
  unfold attendLink
  dsimp only
  rw [hself]
  by_cases he : other = link.id
  · subst he
    rw [if_pos rfl, LinkQueue.busy_advance]
    split
    · rename_i hempty
      rw [hself, hempty]
      rfl
    · rename_i hempty
      rw [queue_wakeLink hc (hs.runLink now link) hl ho, if_pos rfl, hself]
      simp [hempty]
  · rw [if_neg he]
    split
    · rw [queue_runLink hc hs hl ho, if_neg he]
    · rw [queue_wakeLink hc (hs.runLink now link) hl ho, if_neg he, queue_runLink hc hs hl ho,
        if_neg he]

theorem LinkMarks.attendLink (hc : l.Closed) (hs : s.Fits l) {link : Link} (hl : link ∈ l.links)
    {rest : List LinkId} (h : s.LinkMarks l (link.id :: rest)) (hnew : link.id ∉ rest)
    (now : UInt32) : (s.attendLink l now link).LinkMarks l rest := by
  have hid : link.id ∈ l.linkIds := List.mem_map_of_mem hl
  have hflow : ((s.deactivateLink link.id).flow now link.id).LinkMarks l rest := by
    refine (h.deactivateLink hc hs hid).congr ?_ fun id ho => ?_
    · rw [flow, arriveAll_eq]
      rfl
    · rw [queue_flow hc (hs.deactivateLink link.id) hid ho]
      split <;> rfl
  have hrun : (s.runLink l now link).LinkMarks l rest :=
    hflow.congr (activeLinks_alert _ _ _) fun id _ => by rw [runLink, queue_alert]
  obtain he | he := attendLink_cases l now s link
  · rwa [he]
  · rw [he]
    exact hrun.wakeLink hc (hs.runLink now link) hl hnew

theorem NodeMarks.attendLink (hc : l.Closed) (hs : s.Fits l) (h : s.NodeMarks l []) (link : Link)
    (now : UInt32) : (s.attendLink l now link).NodeMarks l [] := by
  have hfits := (hs.deactivateLink link.id).flow now link.id
  have hflow : ((s.deactivateLink link.id).flow now link.id).NodeMarks l [] := by
    rw [flow, arriveAll_eq]
    exact h.congr rfl fun _ _ => rfl
  have hrun : (s.runLink l now link).NodeMarks l [] := by
    rw [runLink]
    obtain he | ⟨node, hn, he⟩ := alert_eq l ((s.deactivateLink link.id).flow now link.id) link
    · rwa [he]
    · rw [he]
      exact hflow.wakeNode hc hfits hn List.not_mem_nil
  obtain he | he := attendLink_cases l now s link
  · rwa [he]
  · rw [he]
    exact hrun.congr (activeNodes_wakeLink _ _) fun _ _ => nodeActive_wakeLink _ _ _

/-! ## Nodes for which agents wait -/

/-- Whether agents wait to leave one of the links that lead to a node. -/
def awaited (s : Loading) (node : Junction) : Bool :=
  node.inLinks.any fun id => !(s.queue id).toLeave.isEmpty

theorem awaited_eq_true {node : Junction} :
    s.awaited node = true ↔ ∃ id ∈ node.inLinks, (s.queue id).toLeave ≠ [] := by
  simp [awaited]

theorem awaited_congr {node : Junction}
    (h : ∀ id ∈ node.inLinks, (s.queue id).toLeave = (t.queue id).toLeave) :
    s.awaited node = t.awaited node := by
  unfold awaited
  rw [Bool.eq_iff_iff, List.any_eq_true, List.any_eq_true]
  exact exists_congr fun id => and_congr_right fun hid => by rw [h id hid]

@[simp] theorem awaited_clearActive (s : Loading) (node : Junction) :
    s.clearActive.awaited node = s.awaited node :=
  awaited_congr fun id _ => by rw [queue_clearActive, LinkQueue.toLeave_unmarked]

theorem nodeActive_alert (hc : l.Closed) (hs : s.Fits l) {link : Link} (hl : link ∈ l.links)
    {node : Junction} (hn : node ∈ l.junctions) :
    (s.alert l link).nodeActive node.id =
      (s.nodeActive node.id ||
        decide (node.id = link.toNode ∧ (s.queue link.id).toLeave ≠ [])) := by
  obtain ⟨target, ht, hto, -⟩ := hc.target link hl
  unfold alert
  split
  · rename_i h
    simp [List.isEmpty_iff.1 h]
  · rename_i h
    have hne : (s.queue link.id).toLeave ≠ [] := fun he => h (List.isEmpty_iff.2 he)
    simp only [← hto, hc.junction?_eq ht, hne, ne_eq, not_false_eq_true, and_true]
    exact nodeActive_wakeNode hc hs ht (List.mem_map_of_mem hn)

theorem nodeActive_attendLink (hc : l.Closed) (hs : s.Fits l) {link : Link} (hl : link ∈ l.links)
    {node : Junction} (hn : node ∈ l.junctions) :
    (s.attendLink l now link).nodeActive node.id =
      (s.nodeActive node.id || decide (node.id = link.toNode ∧
        ((s.queue link.id).advance link.id now).toLeave ≠ [])) := by
  have hid : link.id ∈ l.linkIds := List.mem_map_of_mem hl
  have hfits : (s.deactivateLink link.id).Fits l := hs.deactivateLink link.id
  -- Clearing the mark of the link changes neither its waiting agents nor the nodes.
  have hq : (((s.deactivateLink link.id).flow now link.id).queue link.id).toLeave =
      ((s.queue link.id).advance link.id now).toLeave := by
    rw [queue_flow hc hfits hid hid, if_pos rfl, deactivateLink, queue_updateQueue hc hs hid hid,
      if_pos rfl]
    rfl
  have hold : ((s.deactivateLink link.id).flow now link.id).nodeActive node.id =
      s.nodeActive node.id := by
    rw [flow, nodeActive_updateQueue, arriveAll_eq]
    rfl
  have hactive : (s.attendLink l now link).nodeActive node.id =
      (s.runLink l now link).nodeActive node.id := by
    obtain he | he := attendLink_cases l now s link
    · rw [he]
    · rw [he, nodeActive_wakeLink]
  rw [hactive, runLink, nodeActive_alert hc (hfits.flow now link.id) hl hn, hold, hq]

/-- A node for which agents wait is one for which they waited before, or it is at the end of the
link that was visited. -/
theorem awaited_attendLink (hc : l.Closed) (hs : s.Fits l) {link : Link} (hl : link ∈ l.links)
    {node : Junction} (hn : node ∈ l.junctions) :
    (s.attendLink l now link).awaited node =
      (s.awaited node || decide (node.id = link.toNode ∧
        ((s.queue link.id).advance link.id now).toLeave ≠ [])) := by
  rw [Bool.eq_iff_iff, Bool.or_eq_true, awaited_eq_true, awaited_eq_true, decide_eq_true_eq]
  constructor
  -- Whoever waits now waits on the visited link, or has waited before.
  · rintro ⟨id, hid, hne⟩
    rw [queue_attendLink hc hs hl (hc.mem_linkIds_of_mem_inLinks hn hid)] at hne
    by_cases he : id = link.id
    · subst he
      obtain ⟨other, hother, he, hto⟩ := (hc.mem_inLinks hn).1 hid
      obtain rfl := hc.link_inj hother hl he
      rw [if_pos rfl] at hne
      exact .inr ⟨hto.symm, hne⟩
    · rw [if_neg he] at hne
      exact .inl ⟨id, hid, hne⟩
  -- Nobody who waits to leave is moved by a link.
  · rintro (⟨id, hid, hne⟩ | ⟨hto, hne⟩)
    · refine ⟨id, hid, ?_⟩
      rw [queue_attendLink hc hs hl (hc.mem_linkIds_of_mem_inLinks hn hid)]
      split
      · exact fun he => hne (List.subset_nil.1 (he ▸ LinkQueue.toLeave_subset_advance _ _ _))
      · exact hne
    · refine ⟨link.id, (hc.mem_inLinks hn).2 ⟨link, hl, rfl, hto.symm⟩, ?_⟩
      rw [queue_attendLink hc hs hl (List.mem_map_of_mem hl), if_pos rfl]
      exact hne

/-! ## The link phase -/

/-- What holds in a link phase of the marks: `old` tells which nodes were marked when it began, and
`pending` are the links which a sweep took and did not visit yet. -/
structure LinkPhase (l : Layout) (old : NodeId → Bool) (pending : List LinkId) (s : Loading) :
    Prop where
  fits : s.Fits l
  live : ∀ id ∈ l.linkIds, (s.queue id).Live
  links : s.LinkMarks l pending
  nodes : s.NodeMarks l []
  alerted : ∀ node ∈ l.junctions, s.nodeActive node.id = (old node.id || s.awaited node)

namespace LinkPhase

variable {old : NodeId → Bool}

theorem attendLink (hc : l.Closed) {link : Link} (hl : link ∈ l.links) {rest : List LinkId}
    (h : s.LinkPhase l old (link.id :: rest)) (hnew : link.id ∉ rest) (now : UInt32) :
    (s.attendLink l now link).LinkPhase l old rest := by
  have hid : link.id ∈ l.linkIds := List.mem_map_of_mem hl
  refine ⟨h.fits.attendLink now link, ?_, ?_, ?_, ?_⟩
  · intro id ho
    rw [queue_attendLink hc h.fits hl ho]
    split
    · rfl
    · exact h.live id ho
  · exact h.links.attendLink hc h.fits hl hnew now
  · exact h.nodes.attendLink hc h.fits link now
  · intro node hn
    rw [nodeActive_attendLink hc h.fits hl hn, awaited_attendLink hc h.fits hl hn,
      h.alerted node hn, Bool.or_assoc]

theorem dueLinks_eq (hc : l.Closed) {pending : List LinkId} (h : s.LinkPhase l old pending)
    (part : Nat) : s.dueLinks l part = s.busyLinks (l.linkTour part) :=
  List.filter_congr fun id hid => h.live id (hc.mem_linkTour.1 hid).1

variable {supply : Supply} {engine : Engine}

theorem visitLinks (hc : supply.layout.Closed) {ids : List LinkId} (hn : ids.Nodup)
    (hids : ids ⊆ supply.layout.linkIds) (h : s.LinkPhase supply.layout old ids) (now : UInt32) :
    ∃ t, ids.foldlM (fun s id => s.visitLink supply now id) s = .ok t ∧
      t.clearActive = ids.foldl (flow now) s.clearActive ∧ t.LinkPhase supply.layout old [] := by
  induction ids generalizing s with
  | nil => exact ⟨s, rfl, rfl, h⟩
  | cons id rest ih =>
    obtain ⟨hid, hrest⟩ := List.cons_subset.1 hids
    obtain ⟨hnew, hnodup⟩ := List.nodup_cons.1 hn
    obtain ⟨link, hl, rfl⟩ := List.mem_map.1 hid
    obtain ⟨t, ht, hcontent, hphase⟩ := ih hnodup hrest (h.attendLink hc hl hnew now)
    refine ⟨t, ?_, ?_, hphase⟩
    · rw [List.foldlM_cons, visitLink_eq_ok hc h.fits hl]
      exact ht
    · rw [hcontent, clearActive_attendLink, List.foldl_cons]

theorem sweepLinks (hc : supply.layout.Closed) {part : Nat} (hlt : part < supply.layout.numParts)
    (h : s.LinkPhase supply.layout old []) (now : UInt32) :
    ∃ t, s.sweepLinks supply part now =
        .ok ((s.busyLinks (supply.layout.linkTour part)).length, t) ∧
      t.clearActive = (supply.layout.linkTour part).foldl (flow now) s.clearActive ∧
      t.LinkPhase supply.layout old [] := by
  have hdue := h.dueLinks_eq hc part
  have htour : (supply.layout.linkTour part).Nodup := hc.nodup_linkTour part
  have hsub : supply.layout.linkTour part ⊆ supply.layout.linkIds := hc.linkTour_subset
  -- The set of the partition is taken as a whole, so its links are pending before the first visit.
  have htaken : (s.takeLinks part).LinkPhase supply.layout old
      (s.busyLinks (supply.layout.linkTour part)) := by
    exact ⟨h.fits.of_shape_eq (shape_takeLinks s part), h.live, hdue ▸ h.links.takeLinks hc part,
      h.nodes, h.alerted⟩
  have hbusy := busyLinks_sublist s (supply.layout.linkTour part)
  obtain ⟨t, ht, hcontent, hphase⟩ :=
    visitLinks hc (htour.sublist hbusy) (List.Subset.trans hbusy.subset hsub) htaken now
  refine ⟨t, ?_, ?_, hphase⟩
  · have htake : s.traffic.activeLinks.take part =
        .ok (s.busyLinks (supply.layout.linkTour part), s.traffic.activeLinks.emptied part) := by
      rw [ActiveSets.take_eq_ok (h.fits.length_activeLinks ▸ hlt), h.links.sort_ids hc, hdue]
    rw [Loading.sweepLinks, htake]
    simp only [Except.bind]
    rw [← takeLinks, ht]
    rfl
  · rw [hcontent, clearActive_takeLinks, ← foldl_flow_busyLinks hc (fits_clearActive.2 h.fits)
      htour hsub, busyLinks_clearActive]

/-- A link phase advances all links of the partitions, as far as agents can tell, and visits those
which are busy. -/
theorem linkPhase (hc : engine.supply.layout.Closed) {parts : List Nat} (hn : parts.Nodup)
    (hlt : ∀ part ∈ parts, part < engine.supply.layout.numParts)
    (h : s.LinkPhase engine.supply.layout old []) (now : UInt32) :
    ∃ t, engine.linkPhase s now parts =
        .ok ((s.busyLinks (parts.flatMap engine.supply.layout.linkTour)).length, t) ∧
      t.clearActive =
        (parts.flatMap engine.supply.layout.linkTour).foldl (flow now) s.clearActive ∧
      t.LinkPhase engine.supply.layout old [] := by
  induction parts generalizing s with
  | nil => exact ⟨s, rfl, rfl, h⟩
  | cons part rest ih =>
    obtain ⟨hpart, hrest⟩ := List.forall_mem_cons.1 hlt
    obtain ⟨t, ht, hcontent, hphase⟩ := h.sweepLinks hc hpart now
    obtain ⟨u, hu, hcontent', hphase'⟩ := ih (List.nodup_cons.1 hn).2 hrest hphase
    have htours := hc.nodup_linkTours hn
    rw [List.flatMap_cons] at htours ⊢
    -- The links of the other partitions are as busy after this sweep as they were before it.
    have hbusy : t.busyLinks (rest.flatMap engine.supply.layout.linkTour) =
        s.busyLinks (rest.flatMap engine.supply.layout.linkTour) := by
      rw [← busyLinks_clearActive, hcontent, busyLinks_foldl_flow hc
        (fits_clearActive.2 h.fits) htours.of_append_left hc.linkTour_subset
        (hc.linkTours_subset rest) (List.disjoint_of_nodup_append htours), busyLinks_clearActive]
    refine ⟨u, ?_, ?_, hphase'⟩
    · simp only [Engine.linkPhase, ht, Except.bind, hu, Except.map, hbusy]
      simp only [busyLinks, List.filter_append, List.length_append]
    · rw [hcontent', hcontent, List.foldl_append]

end LinkPhase

end Loading

end NetworkLoading
