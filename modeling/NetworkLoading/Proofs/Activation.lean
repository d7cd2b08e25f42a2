import NetworkLoading.Proofs.State

/-!
# Active sets and marks

Outside of a sweep, an element is marked if and only if it stands in the active set of its own
partition. Within a sweep, those which were taken and not yet visited are still marked. Hence what a
sweep takes are the marked elements of its partition in the order of their ids.
-/

namespace NetworkLoading

namespace ActiveSets

variable {kind : IdKind}

/-- The set of every partition holds those elements at home there which are active. -/
structure Tracks (a : ActiveSets kind) (all : List (Id kind)) (home : Id kind → Nat)
    (active : Id kind → Bool) : Prop where
  mem : ∀ part id, id ∈ a.ids part ↔ id ∈ all ∧ home id = part ∧ active id
  nodup : ∀ part, (a.ids part).Nodup

variable {a : ActiveSets kind} {all : List (Id kind)} {home : Id kind → Nat}
  {active : Id kind → Bool}

theorem tracks_clear (h : ∀ id ∈ all, active id = false) : a.clear.Tracks all home active := by
  refine ⟨?_, ?_⟩
  · intro part id
    rw [ids_clear]
    constructor
    · intro hid
      cases hid
    · rintro ⟨hid, -, hactive⟩
      rw [h id hid] at hactive
      cases hactive
  · intro part
    rw [ids_clear]
    exact List.nodup_nil

namespace Tracks

theorem congr (h : a.Tracks all home active) {active' : Id kind → Bool}
    (he : ∀ id ∈ all, active' id = active id) : a.Tracks all home active' := by
  refine ⟨fun part id => ?_, h.nodup⟩
  rw [h.mem]
  apply and_congr_right
  intro hid
  rw [he id hid]

theorem insert (h : a.Tracks all home active) {id : Id kind} (hid : id ∈ all)
    (hlt : home id < a.parts.length) :
    (a.insert (home id) id).Tracks all home fun x => active x || decide (x = id) := by
  refine ⟨fun part x => ?_, fun part => nodup_ids_insert hlt id (h.nodup part)⟩
  rw [mem_ids_insert hlt, h.mem, Bool.or_eq_true, decide_eq_true_eq]
  constructor
  · rintro (⟨hx, hpart, hactive⟩ | ⟨hpart, rfl⟩)
    · exact ⟨hx, hpart, .inl hactive⟩
    · exact ⟨hid, hpart, .inr rfl⟩
  · rintro ⟨hx, hpart, hactive | rfl⟩
    · exact .inl ⟨hx, hpart, hactive⟩
    · exact .inr ⟨hpart, rfl⟩

/-- What was taken from the set of a partition no longer counts as active. -/
theorem emptied (h : a.Tracks all home active) (part : Nat) :
    (a.emptied part).Tracks all home fun x => active x && decide (x ∉ a.ids part) := by
  refine ⟨?_, ?_⟩
  · intro other x
    rw [ids_emptied, Bool.and_eq_true, decide_eq_true_eq]
    by_cases he : part = other
    · subst he
      simp only [↓reduceIte, List.not_mem_nil, false_iff]
      rintro ⟨hx, hpart, hactive, hnot⟩
      exact hnot ((h.mem part x).2 ⟨hx, hpart, hactive⟩)
    · rw [if_neg he, h.mem]
      constructor
      -- What the emptied set held is at home in its partition, and so in no other set.
      · rintro ⟨hx, hpart, hactive⟩
        refine ⟨hx, hpart, hactive, fun hmem => ?_⟩
        exact he (((h.mem part x).1 hmem).2.1.symm.trans hpart)
      · rintro ⟨hx, hpart, hactive, -⟩
        exact ⟨hx, hpart, hactive⟩
  · intro other
    rw [ids_emptied]
    split
    · exact List.nodup_nil
    · exact h.nodup other

/-- A sorted set consists of the active elements in the order in which all elements stand. -/
theorem sort_ids (h : a.Tracks all home active) (hapart : Id.Apart all) (part : Nat) :
    Id.sort (a.ids part) = (Id.tour all home part).filter active := by
  have hids : Id.sort (a.ids part) = (Id.sort all).filter (· ∈ a.ids part) :=
    Id.sort_eq_filter hapart (h.nodup part) fun id hid => ((h.mem part id).1 hid).1
  rw [hids, Id.tour, List.filter_filter]
  apply List.filter_congr
  intro id hid
  have hmem : id ∈ all := mem_sortBy.1 hid
  rw [Bool.eq_iff_iff, decide_eq_true_eq, h.mem, Bool.and_eq_true, decide_eq_true_eq,
    and_iff_right hmem, and_comm]

end Tracks

end ActiveSets

/-! ## Elements of partitions -/

namespace Layout

/-- The partition of the link with an id. -/
def linkHome (l : Layout) (id : LinkId) : Nat :=
  match l.link? id with
  | some link => link.partition.toNat
  | none => 0

/-- The partition of the node with an id. -/
def nodeHome (l : Layout) (id : NodeId) : Nat :=
  match l.junction? id with
  | some node => node.partition.toNat
  | none => 0

/-- The links of a partition, sorted. -/
def linkTour (l : Layout) (part : Nat) : List LinkId :=
  Id.sort ((l.links.filter (·.partition.toNat = part)).map (·.id))

/-- The nodes of a partition, sorted. -/
def nodeTour (l : Layout) (part : Nat) : List NodeId :=
  Id.sort ((l.junctions.filter (·.partition.toNat = part)).map (·.id))

namespace Closed

variable {l : Layout}

theorem linkHome_eq (hc : l.Closed) {link : Link} (h : link ∈ l.links) :
    l.linkHome link.id = link.partition.toNat := by
  simp only [linkHome, hc.link?_eq h]

theorem nodeHome_eq (hc : l.Closed) {node : Junction} (h : node ∈ l.junctions) :
    l.nodeHome node.id = node.partition.toNat := by
  simp only [nodeHome, hc.junction?_eq h]

theorem linkTour_eq (hc : l.Closed) : l.linkTour = Id.tour l.linkIds l.linkHome := by
  funext part
  have hids : (l.links.filter (·.partition.toNat = part)).map (·.id) =
      l.linkIds.filter (l.linkHome · = part) := by
    rw [linkIds, List.filter_map]
    refine congrArg _ (List.filter_congr fun link hl => ?_)
    simp only [Function.comp_apply, hc.linkHome_eq hl]
  rw [linkTour, hids, Id.sort_filter hc.links_apart, Id.tour]

theorem nodeTour_eq (hc : l.Closed) : l.nodeTour = Id.tour l.nodeIds l.nodeHome := by
  funext part
  have hids : (l.junctions.filter (·.partition.toNat = part)).map (·.id) =
      l.nodeIds.filter (l.nodeHome · = part) := by
    rw [nodeIds, List.filter_map]
    refine congrArg _ (List.filter_congr fun node hn => ?_)
    simp only [Function.comp_apply, hc.nodeHome_eq hn]
  rw [nodeTour, hids, Id.sort_filter hc.junctions_apart, Id.tour]

theorem linkHome_lt (hc : l.Closed) {id : LinkId} (h : id ∈ l.linkIds) :
    l.linkHome id < l.numParts := by
  obtain ⟨link, hl, rfl⟩ := List.mem_map.1 h
  rw [hc.linkHome_eq hl]
  exact hc.link_part_lt hl

theorem nodeHome_lt (hc : l.Closed) {id : NodeId} (h : id ∈ l.nodeIds) :
    l.nodeHome id < l.numParts := by
  obtain ⟨node, hn, rfl⟩ := List.mem_map.1 h
  rw [hc.nodeHome_eq hn]
  exact hc.part_lt node hn

theorem mem_linkTour (hc : l.Closed) {part : Nat} {id : LinkId} :
    id ∈ l.linkTour part ↔ id ∈ l.linkIds ∧ l.linkHome id = part := by
  rw [hc.linkTour_eq, Id.mem_tour]

theorem mem_nodeTour (hc : l.Closed) {part : Nat} {id : NodeId} :
    id ∈ l.nodeTour part ↔ id ∈ l.nodeIds ∧ l.nodeHome id = part := by
  rw [hc.nodeTour_eq, Id.mem_tour]

theorem linkTour_subset (hc : l.Closed) {part : Nat} : l.linkTour part ⊆ l.linkIds :=
  fun _ hid => (hc.mem_linkTour.1 hid).1

theorem nodeTour_subset (hc : l.Closed) {part : Nat} : l.nodeTour part ⊆ l.nodeIds :=
  fun _ hid => (hc.mem_nodeTour.1 hid).1

theorem nodup_linkTour (hc : l.Closed) (part : Nat) : (l.linkTour part).Nodup := by
  rw [hc.linkTour_eq]
  exact Id.nodup_tour hc.links_apart.nodup part

theorem nodup_nodeTour (hc : l.Closed) (part : Nat) : (l.nodeTour part).Nodup := by
  rw [hc.nodeTour_eq]
  exact Id.nodup_tour hc.junctions_apart.nodup part

theorem nodup_linkTours (hc : l.Closed) {parts : List Nat} (hn : parts.Nodup) :
    (parts.flatMap l.linkTour).Nodup := by
  rw [hc.linkTour_eq]
  exact Id.nodup_tours hc.links_apart.nodup hn

theorem nodup_nodeTours (hc : l.Closed) {parts : List Nat} (hn : parts.Nodup) :
    (parts.flatMap l.nodeTour).Nodup := by
  rw [hc.nodeTour_eq]
  exact Id.nodup_tours hc.junctions_apart.nodup hn

theorem linkTours_subset (hc : l.Closed) (parts : List Nat) :
    parts.flatMap l.linkTour ⊆ l.linkIds := by
  rw [hc.linkTour_eq]
  exact Id.tours_subset parts

theorem nodeTours_subset (hc : l.Closed) (parts : List Nat) :
    parts.flatMap l.nodeTour ⊆ l.nodeIds := by
  rw [hc.nodeTour_eq]
  exact Id.tours_subset parts

theorem linkTours_perm (hc : l.Closed) {parts : List Nat} (h : parts.Perm (List.range l.numParts)) :
    (parts.flatMap l.linkTour).Perm l.linkIds := by
  rw [hc.linkTour_eq]
  exact Id.tours_perm hc.links_apart.nodup (fun _ => hc.linkHome_lt) h

theorem nodeTours_perm (hc : l.Closed) {parts : List Nat} (h : parts.Perm (List.range l.numParts)) :
    (parts.flatMap l.nodeTour).Perm l.nodeIds := by
  rw [hc.nodeTour_eq]
  exact Id.tours_perm hc.junctions_apart.nodup (fun _ => hc.nodeHome_lt) h

end Closed

end Layout

/-! ## Marks -/

namespace Loading

/-- The active sets hold the links which are marked, without those which a sweep took and did not
visit yet. -/
def LinkMarks (l : Layout) (s : Loading) (pending : List LinkId) : Prop :=
  s.traffic.activeLinks.Tracks l.linkIds l.linkHome fun id =>
    (s.queue id).active && decide (id ∉ pending)

/-- The active sets hold the nodes which are marked, without those which a sweep took and did not
visit yet. -/
def NodeMarks (l : Layout) (s : Loading) (pending : List NodeId) : Prop :=
  s.traffic.activeNodes.Tracks l.nodeIds l.nodeHome fun id =>
    s.nodeActive id && decide (id ∉ pending)

variable {l : Layout} {s t : Loading}

theorem LinkMarks.congr {pending : List LinkId} (h : s.LinkMarks l pending)
    (hsets : t.traffic.activeLinks = s.traffic.activeLinks)
    (hq : ∀ id ∈ l.linkIds, (t.queue id).active = (s.queue id).active) : t.LinkMarks l pending := by
  unfold LinkMarks at h ⊢
  rw [hsets]
  apply h.congr
  intro id hid
  rw [hq id hid]

theorem NodeMarks.congr {pending : List NodeId} (h : s.NodeMarks l pending)
    (hsets : t.traffic.activeNodes = s.traffic.activeNodes)
    (ha : ∀ id ∈ l.nodeIds, t.nodeActive id = s.nodeActive id) : t.NodeMarks l pending := by
  unfold NodeMarks at h ⊢
  rw [hsets]
  apply h.congr
  intro id hid
  rw [ha id hid]

theorem LinkMarks.wakeLink (hc : l.Closed) (hs : s.Fits l) {pending : List LinkId}
    (h : s.LinkMarks l pending) {link : Link} (hl : link ∈ l.links) (hp : link.id ∉ pending) :
    (s.wakeLink link).LinkMarks l pending := by
  -- If the link is marked already, it stands in its set, since it is not pending.
  by_cases ha : (s.queue link.id).active
  · rwa [Loading.wakeLink, if_pos ha]
  · have hsets : (s.wakeLink link).traffic.activeLinks =
        s.traffic.activeLinks.insert (l.linkHome link.id) link.id := by
      rw [Loading.wakeLink, if_neg ha, hc.linkHome_eq hl]
      rfl
    have hlt : l.linkHome link.id < s.traffic.activeLinks.parts.length := by
      rw [hs.length_activeLinks, hc.linkHome_eq hl]
      exact hc.link_part_lt hl
    unfold LinkMarks
    rw [hsets]
    apply (ActiveSets.Tracks.insert h (List.mem_map_of_mem hl) hlt).congr
    intro id hid
    rw [queue_wakeLink hc hs hl hid]
    by_cases he : id = link.id
    · subst he
      simp [hp]
    · simp [he]

theorem NodeMarks.wakeNode (hc : l.Closed) (hs : s.Fits l) {pending : List NodeId}
    (h : s.NodeMarks l pending) {node : Junction} (hn : node ∈ l.junctions)
    (hp : node.id ∉ pending) : (s.wakeNode node).NodeMarks l pending := by
  by_cases ha : s.nodeActive node.id
  · rwa [Loading.wakeNode, if_pos ha]
  · have hsets : (s.wakeNode node).traffic.activeNodes =
        s.traffic.activeNodes.insert (l.nodeHome node.id) node.id := by
      rw [Loading.wakeNode, if_neg ha, hc.nodeHome_eq hn]
      rfl
    have hlt : l.nodeHome node.id < s.traffic.activeNodes.parts.length := by
      rw [hs.length_activeNodes, hc.nodeHome_eq hn]
      exact hc.part_lt node hn
    unfold NodeMarks
    rw [hsets]
    -- The node enters the set of its partition and gets its mark; no other mark changes.
    apply (ActiveSets.Tracks.insert h (List.mem_map_of_mem hn) hlt).congr
    intro id hid
    rw [nodeActive_wakeNode hc hs hn hid]
    by_cases he : id = node.id
    · subst he
      simp [hp]
    · simp [he]

theorem LinkMarks.deactivateLink (hc : l.Closed) (hs : s.Fits l) {id : LinkId}
    {rest : List LinkId} (h : s.LinkMarks l (id :: rest)) (hid : id ∈ l.linkIds) :
    (s.deactivateLink id).LinkMarks l rest := by
  apply ActiveSets.Tracks.congr h
  intro other hother
  rw [Loading.deactivateLink, queue_updateQueue hc hs hid hother]
  by_cases he : other = id <;> simp [he]

theorem NodeMarks.deactivateNode (hc : l.Closed) (hs : s.Fits l) {id : NodeId}
    {rest : List NodeId} (h : s.NodeMarks l (id :: rest)) (hid : id ∈ l.nodeIds) :
    (s.deactivateNode id).NodeMarks l rest := by
  apply ActiveSets.Tracks.congr h
  intro other hother
  rw [Loading.deactivateNode, nodeActive_markNode hc hs hid hother]
  by_cases he : other = id <;> simp [he]

/-! ## What a sweep takes -/

/-- The marked links of a partition, sorted. -/
def dueLinks (l : Layout) (s : Loading) (part : Nat) : List LinkId :=
  (l.linkTour part).filter fun id => (s.queue id).active

/-- The marked nodes of a partition, sorted. -/
def dueNodes (l : Layout) (s : Loading) (part : Nat) : List NodeId :=
  (l.nodeTour part).filter s.nodeActive

/-- The state after a sweep took the active links of a partition. -/
def takeLinks (s : Loading) (part : Nat) : Loading :=
  { s with traffic := { s.traffic with activeLinks := s.traffic.activeLinks.emptied part } }

/-- The state after a sweep took the active nodes of a partition. -/
def takeNodes (s : Loading) (part : Nat) : Loading :=
  { s with traffic := { s.traffic with activeNodes := s.traffic.activeNodes.emptied part } }

@[simp] theorem shape_takeLinks (s : Loading) (part : Nat) :
    (s.takeLinks part).traffic.shape = s.traffic.shape := by
  simp only [takeLinks, Traffic.shape, ActiveSets.clear_emptied]

@[simp] theorem shape_takeNodes (s : Loading) (part : Nat) :
    (s.takeNodes part).traffic.shape = s.traffic.shape := by
  simp only [takeNodes, Traffic.shape, ActiveSets.clear_emptied]

@[simp] theorem clearActive_takeLinks (s : Loading) (part : Nat) :
    (s.takeLinks part).clearActive = s.clearActive := by
  simp only [clearActive, takeLinks, ActiveSets.clear_emptied]

@[simp] theorem clearActive_takeNodes (s : Loading) (part : Nat) :
    (s.takeNodes part).clearActive = s.clearActive := by
  simp only [clearActive, takeNodes, ActiveSets.clear_emptied]

theorem LinkMarks.sort_ids (hc : l.Closed) (h : s.LinkMarks l []) (part : Nat) :
    Id.sort (s.traffic.activeLinks.ids part) = s.dueLinks l part := by
  rw [ActiveSets.Tracks.sort_ids h hc.links_apart, ← hc.linkTour_eq]
  apply List.filter_congr
  intro id _
  simp

theorem NodeMarks.sort_ids (hc : l.Closed) {pending : List NodeId} (h : s.NodeMarks l pending)
    {part : Nat} (hp : ∀ id ∈ pending, l.nodeHome id ≠ part) :
    Id.sort (s.traffic.activeNodes.ids part) = s.dueNodes l part := by
  rw [ActiveSets.Tracks.sort_ids h hc.junctions_apart, ← hc.nodeTour_eq]
  apply List.filter_congr
  intro id hid
  have hnot : id ∉ pending := fun hmem => hp id hmem (hc.mem_nodeTour.1 hid).2
  simp [hnot]

theorem LinkMarks.takeLinks (hc : l.Closed) (h : s.LinkMarks l []) (part : Nat) :
    (s.takeLinks part).LinkMarks l (s.dueLinks l part) := by
  apply (ActiveSets.Tracks.emptied h part).congr
  intro id _
  rw [← h.sort_ids hc part]
  simp only [List.not_mem_nil, not_false_eq_true, decide_true, Bool.and_true, Id.sort, mem_sortBy]
  rfl

theorem NodeMarks.takeNodes (hc : l.Closed) {pending : List NodeId} (h : s.NodeMarks l pending)
    {part : Nat} (hp : ∀ id ∈ pending, l.nodeHome id ≠ part) :
    (s.takeNodes part).NodeMarks l (s.dueNodes l part ++ pending) := by
  apply (ActiveSets.Tracks.emptied h part).congr
  intro id _
  rw [← h.sort_ids hc hp]
  have hactive : (s.takeNodes part).nodeActive id = s.nodeActive id := rfl
  simp only [hactive, Id.sort, List.mem_append, mem_sortBy, not_or, Bool.decide_and]
  rw [Bool.and_comm (decide (id ∉ s.traffic.activeNodes.ids part)), Bool.and_assoc]

end Loading

end NetworkLoading
