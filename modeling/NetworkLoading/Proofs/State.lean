import NetworkLoading.Proofs.Layout
import NetworkLoading.Proofs.Queue

/-!
# Reading and changing the state of a loading

What every primitive change of the state does to the queues, the marks and the active sets. Two
views leave parts of a state out: its shape, which no operation changes, and the state without any
marks, which tells what an operation does to agents.
-/

namespace NetworkLoading

/-- What a traffic looks like with all its values taken out. -/
def Traffic.shape (t : Traffic) : Traffic where
  links := t.links.map fun _ => {}
  nodes := t.nodes.map fun _ => false
  activeLinks := t.activeLinks.clear
  activeNodes := t.activeNodes.clear
  onNetwork := 0

namespace Loading

/-- The state holds a value for every element of the layout, and a set for every partition. -/
def Fits (l : Layout) (s : Loading) : Prop :=
  s.traffic.shape = (Traffic.empty l).shape

variable {l : Layout} {s : Loading}

/-! ## States which fit a layout -/

theorem Fits.of_shape_eq {t : Loading} (hs : s.Fits l) (h : t.traffic.shape = s.traffic.shape) :
    t.Fits l :=
  h.trans hs

theorem fits_empty (l : Layout) (r : Record) : Fits l ⟨.empty l, r⟩ := rfl

theorem Fits.keys_eq (hs : s.Fits l) : s.traffic.links.keys = l.linkIds :=
  congrArg (fun t : Traffic => t.links.keys) hs

theorem Fits.isSome_link_iff (hs : s.Fits l) {id : LinkId} :
    (s.traffic.links.get? id).isSome ↔ id.index ∈ l.linkIds.map (·.index) := by
  have he := congrArg (fun t : Traffic => (t.links.get? id).isSome) hs
  simp only [Traffic.shape, Traffic.empty, Table.get?_map, Option.isSome_map] at he
  rw [he]
  exact Table.isSome_get?_ofKeys

theorem Fits.isSome_node_iff (hs : s.Fits l) {id : NodeId} :
    (s.traffic.nodes.get? id).isSome ↔ id.index ∈ l.nodeIds.map (·.index) := by
  have he := congrArg (fun t : Traffic => (t.nodes.get? id).isSome) hs
  simp only [Traffic.shape, Traffic.empty, Table.get?_map, Option.isSome_map] at he
  rw [he]
  exact Table.isSome_get?_ofKeys

theorem Fits.isSome_link (hs : s.Fits l) {id : LinkId} (h : id ∈ l.linkIds) :
    (s.traffic.links.get? id).isSome :=
  hs.isSome_link_iff.2 (List.mem_map_of_mem h)

theorem Fits.isSome_node (hs : s.Fits l) {id : NodeId} (h : id ∈ l.nodeIds) :
    (s.traffic.nodes.get? id).isSome :=
  hs.isSome_node_iff.2 (List.mem_map_of_mem h)

theorem Fits.length_activeLinks (hs : s.Fits l) :
    s.traffic.activeLinks.parts.length = l.numParts := by
  have he := congrArg (fun t : Traffic => t.activeLinks.parts.length) hs
  simpa [Traffic.shape, Traffic.empty, ActiveSets.clear, ActiveSets.empty] using he

theorem Fits.length_activeNodes (hs : s.Fits l) :
    s.traffic.activeNodes.parts.length = l.numParts := by
  have he := congrArg (fun t : Traffic => t.activeNodes.parts.length) hs
  simpa [Traffic.shape, Traffic.empty, ActiveSets.clear, ActiveSets.empty] using he

/-! ## The record and the traffic are apart -/

@[simp] theorem traffic_publish (s : Loading) (e : Event) : (s.publish e).traffic = s.traffic := rfl

@[simp] theorem traffic_say (s : Loading) (line : LogLine) : (s.say line).traffic = s.traffic := rfl

@[simp] theorem traffic_abort (s : Loading) (agent : Agent) (link : LinkId) (now : UInt32) :
    (s.abort agent link now).traffic = s.traffic := rfl

theorem queue_eq_of_links_eq {t : Loading} (h : t.traffic.links = s.traffic.links) (id : LinkId) :
    t.queue id = s.queue id := by
  simp only [queue, h]

/-! ## Queues and marks -/

@[simp] theorem shape_updateQueue (s : Loading) (id : LinkId) (f : LinkQueue → LinkQueue) :
    (s.updateQueue id f).traffic.shape = s.traffic.shape := by
  simp only [updateQueue, Traffic.shape, Table.map_const_modify]

@[simp] theorem shape_markNode (s : Loading) (id : NodeId) (active : Bool) :
    (s.markNode id active).traffic.shape = s.traffic.shape := by
  simp only [markNode, Traffic.shape, Table.map_const_modify]

@[simp] theorem shape_countIn (s : Loading) (count : Nat) :
    (s.countIn count).traffic.shape = s.traffic.shape := rfl

@[simp] theorem shape_countOut (s : Loading) (count : Nat) :
    (s.countOut count).traffic.shape = s.traffic.shape := rfl

theorem updateQueue_congr {f g : LinkQueue → LinkQueue} {s : Loading} {id : LinkId}
    (h : f (s.queue id) = g (s.queue id)) : s.updateQueue id f = s.updateQueue id g := by
  have hq : ∀ q, s.traffic.links.get? id = some q → f q = g q := by
    intro q hq
    rwa [queue, hq] at h
  simp only [updateQueue, Table.modify_congr hq]

theorem updateQueue_eq_self {f : LinkQueue → LinkQueue} {s : Loading} {id : LinkId}
    (h : f (s.queue id) = s.queue id) : s.updateQueue id f = s := by
  rw [updateQueue_congr (g := fun q => q) h]
  simp only [updateQueue, Table.modify_id]

theorem queue_updateQueue_of_ne (s : Loading) {id other : LinkId} (h : other.index ≠ id.index)
    (f : LinkQueue → LinkQueue) : (s.updateQueue id f).queue other = s.queue other := by
  simp only [updateQueue, queue, Table.get?_modify_of_ne _ h]

theorem queue_updateQueue_self (hs : s.Fits l) {id : LinkId} (h : id ∈ l.linkIds)
    (f : LinkQueue → LinkQueue) : (s.updateQueue id f).queue id = f (s.queue id) := by
  obtain ⟨q, hq⟩ := Option.isSome_iff_exists.1 (hs.isSome_link h)
  simp only [updateQueue, queue, Table.get?_modify_self, hq, Option.map_some, Option.getD_some]

theorem queue_updateQueue (hc : l.Closed) (hs : s.Fits l) {id other : LinkId}
    (h : id ∈ l.linkIds) (ho : other ∈ l.linkIds) (f : LinkQueue → LinkQueue) :
    (s.updateQueue id f).queue other = if other = id then f (s.queue other) else s.queue other := by
  by_cases he : other = id
  · subst he
    rw [if_pos rfl, queue_updateQueue_self hs h]
  · rw [if_neg he, queue_updateQueue_of_ne s (hc.links_apart.ne ho h he).1]

@[simp] theorem nodeActive_updateQueue (s : Loading) (id : LinkId) (f : LinkQueue → LinkQueue)
    (node : NodeId) : (s.updateQueue id f).nodeActive node = s.nodeActive node := rfl

theorem nodeActive_markNode (hc : l.Closed) (hs : s.Fits l) {id other : NodeId}
    (h : id ∈ l.nodeIds) (ho : other ∈ l.nodeIds) (active : Bool) :
    (s.markNode id active).nodeActive other =
      if other = id then active else s.nodeActive other := by
  by_cases he : other = id
  · subst he
    obtain ⟨b, hb⟩ := Option.isSome_iff_exists.1 (hs.isSome_node h)
    simp only [markNode, nodeActive, Table.get?_modify_self, hb, Option.map_some,
      Option.getD_some, ↓reduceIte]
  · simp only [markNode, nodeActive, he, ↓reduceIte,
      Table.get?_modify_of_ne _ (hc.junctions_apart.ne ho h he).1]

/-! ## Activation -/

/-- The state after a link was activated. -/
def wakeLink (s : Loading) (link : Link) : Loading :=
  if (s.queue link.id).active then s
  else
    let t := s.updateQueue link.id fun q => { q with active := true }
    { t with traffic := { t.traffic with
        activeLinks := t.traffic.activeLinks.insert link.partition.toNat link.id } }

/-- The state after a node was activated. -/
def wakeNode (s : Loading) (node : Junction) : Loading :=
  if s.nodeActive node.id then s
  else
    let t := s.markNode node.id true
    { t with traffic := { t.traffic with
        activeNodes := t.traffic.activeNodes.insert node.partition.toNat node.id } }

theorem activateLink_eq_ok (hc : l.Closed) (hs : s.Fits l) {link : Link} (h : link ∈ l.links) :
    s.activateLink link = .ok (!(s.queue link.id).active, s.wakeLink link) := by
  have hlt : link.partition.toNat < s.traffic.activeLinks.parts.length := by
    rw [hs.length_activeLinks]
    exact hc.link_part_lt h
  unfold activateLink wakeLink
  by_cases ha : (s.queue link.id).active
  · simp [ha]
  · simp only [ha, Bool.false_eq_true, ↓reduceIte, ActiveSets.enqueue_eq_ok hlt, Except.map]
    rfl

theorem activateNode_eq_ok (hc : l.Closed) (hs : s.Fits l) {node : Junction}
    (h : node ∈ l.junctions) :
    s.activateNode node = .ok (!s.nodeActive node.id, s.wakeNode node) := by
  have hlt : node.partition.toNat < s.traffic.activeNodes.parts.length := by
    rw [hs.length_activeNodes]
    exact hc.part_lt node h
  unfold activateNode wakeNode
  by_cases ha : s.nodeActive node.id
  · simp [ha]
  · simp only [ha, Bool.false_eq_true, ↓reduceIte, ActiveSets.enqueue_eq_ok hlt, Except.map]
    rfl

@[simp] theorem record_wakeLink (s : Loading) (link : Link) :
    (s.wakeLink link).record = s.record := by
  unfold wakeLink
  split <;> rfl

@[simp] theorem onNetwork_wakeLink (s : Loading) (link : Link) :
    (s.wakeLink link).traffic.onNetwork = s.traffic.onNetwork := by
  unfold wakeLink
  split <;> rfl

@[simp] theorem shape_wakeLink (s : Loading) (link : Link) :
    (s.wakeLink link).traffic.shape = s.traffic.shape := by
  unfold wakeLink
  split
  · rfl
  · have h := shape_updateQueue s link.id fun q => { q with active := true }
    simpa only [Traffic.shape, ActiveSets.clear_insert] using h

@[simp] theorem shape_wakeNode (s : Loading) (node : Junction) :
    (s.wakeNode node).traffic.shape = s.traffic.shape := by
  unfold wakeNode
  split
  · rfl
  · have h := shape_markNode s node.id true
    simpa only [Traffic.shape, ActiveSets.clear_insert] using h

theorem queue_wakeLink (hc : l.Closed) (hs : s.Fits l) {link : Link} (h : link ∈ l.links)
    {other : LinkId} (ho : other ∈ l.linkIds) :
    (s.wakeLink link).queue other =
      if other = link.id then { s.queue other with active := true } else s.queue other := by
  unfold wakeLink
  split
  · rename_i ha
    by_cases he : other = link.id
    · subst he
      rw [if_pos rfl, ← ha]
    · rw [if_neg he]
  · exact queue_updateQueue hc hs (List.mem_map_of_mem h) ho fun q => { q with active := true }

@[simp] theorem queue_wakeNode (s : Loading) (node : Junction) (link : LinkId) :
    (s.wakeNode node).queue link = s.queue link := by
  unfold wakeNode
  split <;> rfl

@[simp] theorem nodeActive_wakeLink (s : Loading) (link : Link) (node : NodeId) :
    (s.wakeLink link).nodeActive node = s.nodeActive node := by
  unfold wakeLink
  split <;> rfl

theorem nodeActive_wakeNode (hc : l.Closed) (hs : s.Fits l) {node : Junction}
    (h : node ∈ l.junctions) {other : NodeId} (ho : other ∈ l.nodeIds) :
    (s.wakeNode node).nodeActive other = (s.nodeActive other || decide (other = node.id)) := by
  unfold wakeNode
  split
  · rename_i ha
    by_cases he : other = node.id
    · subst he
      simp [ha]
    · simp [he]
  · refine (nodeActive_markNode hc hs (List.mem_map_of_mem h) ho true).trans ?_
    by_cases he : other = node.id <;> simp [he]

@[simp] theorem nodes_wakeLink (s : Loading) (link : Link) :
    (s.wakeLink link).traffic.nodes = s.traffic.nodes := by
  unfold wakeLink
  split <;> rfl

@[simp] theorem activeNodes_wakeLink (s : Loading) (link : Link) :
    (s.wakeLink link).traffic.activeNodes = s.traffic.activeNodes := by
  unfold wakeLink
  split <;> rfl

@[simp] theorem activeLinks_wakeNode (s : Loading) (node : Junction) :
    (s.wakeNode node).traffic.activeLinks = s.traffic.activeLinks := by
  unfold wakeNode
  split <;> rfl

/-! ## States without marks -/

@[simp] theorem shape_clearActive (s : Loading) :
    s.clearActive.traffic.shape = s.traffic.shape := by
  simp [clearActive, Traffic.shape, Table.map_map, Function.comp_def]

theorem fits_clearActive : s.clearActive.Fits l ↔ s.Fits l := by
  unfold Fits
  rw [shape_clearActive]

@[simp] theorem record_clearActive (s : Loading) : s.clearActive.record = s.record := rfl

@[simp] theorem onNetwork_clearActive (s : Loading) :
    s.clearActive.traffic.onNetwork = s.traffic.onNetwork := rfl

@[simp] theorem queue_clearActive (s : Loading) (id : LinkId) :
    s.clearActive.queue id = (s.queue id).unmarked := by
  simp only [queue, clearActive, Table.get?_map]
  cases s.traffic.links.get? id <;> rfl

theorem clearActive_updateQueue (f f' : LinkQueue → LinkQueue)
    (h : ∀ q, (f q).unmarked = f' q.unmarked) (s : Loading) (id : LinkId) :
    (s.updateQueue id f).clearActive = s.clearActive.updateQueue id f' := by
  have hlinks : (s.traffic.links.modify id f).map (fun q => { q with active := false }) =
      (s.traffic.links.map fun q => { q with active := false }).modify id f' :=
    Table.map_modify f f' h s.traffic.links id
  simp only [updateQueue, clearActive, hlinks]

/-- A change of the mark alone goes unseen. -/
theorem clearActive_updateQueue_mark {f : LinkQueue → LinkQueue}
    (h : ∀ q, (f q).unmarked = q.unmarked) (s : Loading) (id : LinkId) :
    (s.updateQueue id f).clearActive = s.clearActive := by
  rw [clearActive_updateQueue f (fun q => q) h, updateQueue_eq_self rfl]

@[simp] theorem clearActive_deactivateLink (s : Loading) (id : LinkId) :
    (s.deactivateLink id).clearActive = s.clearActive :=
  clearActive_updateQueue_mark (f := fun q => { q with active := false }) (fun _ => rfl) s id

@[simp] theorem clearActive_markNode (s : Loading) (id : NodeId) (active : Bool) :
    (s.markNode id active).clearActive = s.clearActive := by
  simp only [markNode, clearActive, Table.map_const_modify]

@[simp] theorem clearActive_wakeLink (s : Loading) (link : Link) :
    (s.wakeLink link).clearActive = s.clearActive := by
  unfold wakeLink
  split
  · rfl
  · have h := clearActive_updateQueue_mark (f := fun q => { q with active := true })
      (fun _ => rfl) s link.id
    simpa only [clearActive, ActiveSets.clear_insert] using h

@[simp] theorem clearActive_wakeNode (s : Loading) (node : Junction) :
    (s.wakeNode node).clearActive = s.clearActive := by
  unfold wakeNode
  split
  · rfl
  · have h := clearActive_markNode s node.id true
    simpa only [clearActive, ActiveSets.clear_insert] using h

end Loading

end NetworkLoading
