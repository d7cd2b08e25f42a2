import Mathlib.Data.List.TakeWhile
import NetworkLoading.Proofs.Crossings

/-!
# Advancing nodes

A node phase lets all agents cross who wait for one of the nodes, partition by partition and node by
node. Nodes which are not marked have nobody to move and can be left out; a node is marked
afterwards if and only if it moved agents.
-/

namespace NetworkLoading

namespace Loading

variable {s t : Loading} {now : UInt32} {supply : Supply}

/-! ## Crossings of several nodes -/

/-- The agents whom the node with an id takes from its links. -/
def moves (supply : Supply) (now : UInt32) (s : Loading) (id : NodeId) : List Crossing :=
  match supply.layout.junction? id with
  | some node => s.crossings supply now node
  | none => []

theorem moves_eq (hc : supply.layout.Closed) {node : Junction}
    (hn : node ∈ supply.layout.junctions) :
    s.moves supply now node.id = s.crossings supply now node := by
  simp only [moves, hc.junction?_eq hn]

@[simp] theorem moves_clearActive (supply : Supply) (now : UInt32) (s : Loading) (id : NodeId) :
    s.clearActive.moves supply now id = s.moves supply now id := by
  simp only [moves, crossings, crossingsFrom_clearActive]

theorem mem_moves {id : NodeId} {x : Crossing} (hx : x ∈ s.moves supply now id) :
    ∃ node ∈ supply.layout.junctions, node.id = id ∧ x ∈ s.crossings supply now node := by
  unfold moves at hx
  split at hx
  · rename_i node h
    exact ⟨node, List.mem_of_find?_eq_some h, by simpa using List.find?_some h, hx⟩
  · cases hx

theorem within_of_mem_moves (hc : supply.layout.Closed) {id : NodeId} {x : Crossing}
    (hx : x ∈ s.moves supply now id) : x.Within supply.layout := by
  obtain ⟨node, hn, -, hx⟩ := mem_moves hx
  exact within_of_mem_crossingsFrom (fun _ => hc.mem_linkIds_of_mem_inLinks hn) hx

/-- Agents are taken from a link by one node only. -/
theorem target_unique (hc : supply.layout.Closed) {id₁ id₂ : NodeId} {x₁ x₂ : Crossing}
    (hx₁ : x₁ ∈ s.moves supply now id₁) (hx₂ : x₂ ∈ s.moves supply now id₂)
    (h : x₁.inLink = x₂.inLink) : id₁ = id₂ := by
  obtain ⟨node₁, hn₁, rfl, hcross₁⟩ := mem_moves hx₁
  obtain ⟨node₂, hn₂, rfl, hcross₂⟩ := mem_moves hx₂
  have hin₁ := inLink_mem_of_mem_crossingsFrom hcross₁
  have hin₂ := inLink_mem_of_mem_crossingsFrom hcross₂
  exact congrArg _ (hc.inLinks_disjoint hn₁ hn₂ (h ▸ hin₁) hin₂)

/-- Whom a node takes from its links does not depend on the agents who cross other nodes. -/
theorem moves_foldl_pass (hc : supply.layout.Closed) (hs : s.Fits supply.layout)
    {ids : List NodeId} {xs : List Crossing} (hxs : xs ⊆ ids.flatMap (s.moves supply now))
    {id : NodeId} (hid : id ∉ ids) :
    (xs.foldl (pass now) s).moves supply now id = s.moves supply now id := by
  unfold moves
  split
  · rename_i node h
    have hn : node ∈ supply.layout.junctions := List.mem_of_find?_eq_some h
    have hself : node.id = id := by simpa using List.find?_some h
    refine crossingsFrom_foldl_pass hc hs node (fun _ => hc.mem_linkIds_of_mem_inLinks hn) ?_
    intro x hx
    obtain ⟨other, hother, hx⟩ := List.mem_flatMap.1 (hxs hx)
    refine ⟨within_of_mem_moves hc hx, fun hin => ?_⟩
    -- A link ends at one node only, so nobody else takes agents from it.
    obtain ⟨source, hsource, rfl, hcross⟩ := mem_moves hx
    have hsame := hc.inLinks_disjoint hsource hn (inLink_mem_of_mem_crossingsFrom hcross) hin
    exact hid (hself ▸ hsame ▸ hother)
  · rfl

theorem fits_of_content (hs : s.Fits supply.layout) {xs : List Crossing}
    (ht : t.clearActive = xs.foldl (pass now) s.clearActive) : t.Fits supply.layout := by
  rw [← fits_clearActive, ht]
  exact fits_foldl_pass (fits_clearActive.2 hs) now xs

theorem moves_of_content (hc : supply.layout.Closed) (hs : s.Fits supply.layout)
    {ids : List NodeId} {xs : List Crossing} (hxs : xs ⊆ ids.flatMap (s.moves supply now))
    (ht : t.clearActive = xs.foldl (pass now) s.clearActive) {id : NodeId} (hid : id ∉ ids) :
    t.moves supply now id = s.moves supply now id := by
  have hsub : xs ⊆ ids.flatMap (s.clearActive.moves supply now) := by
    intro x hx
    simpa using hxs hx
  rw [← moves_clearActive, ht, moves_foldl_pass hc (fits_clearActive.2 hs) hsub hid,
    moves_clearActive]

/-- The agents whom the nodes of a partition take from their links. -/
def partMoves (supply : Supply) (now : UInt32) (s : Loading) (part : Nat) : List Crossing :=
  (supply.layout.nodeTour part).flatMap (s.moves supply now)

@[simp] theorem partMoves_clearActive (supply : Supply) (now : UInt32) (s : Loading) (part : Nat) :
    s.clearActive.partMoves supply now part = s.partMoves supply now part := by
  simp only [partMoves]
  exact List.flatMap_congr fun id _ => moves_clearActive supply now s id

/-- The agents at the nodes of a partition stay where they are while others cross. -/
theorem partMoves_of_content (hc : supply.layout.Closed) (hs : s.Fits supply.layout)
    {part other : Nat} (hne : other ≠ part) {xs : List Crossing}
    (hxs : xs ⊆ s.partMoves supply now part)
    (ht : t.clearActive = xs.foldl (pass now) s.clearActive) :
    t.partMoves supply now other = s.partMoves supply now other := by
  apply List.flatMap_congr
  intro id hid
  refine moves_of_content hc hs hxs ht fun hmem => hne ?_
  exact (hc.mem_nodeTour.1 hid).2.symm.trans (hc.mem_nodeTour.1 hmem).2

/-! ## Visits in general -/

/-- Visits nodes one after the other, until one of them fails. -/
def visitEach (visit : Loading → NodeId → Except Fault (Outcome Nat)) (s : Loading) :
    List NodeId → Except Fault (Outcome Nat)
  | [] => .ok (.ok 0, s)
  | id :: rest =>
    (visit s id).bind fun (moved, s) =>
      match moved with
      | .error error => .ok (.error error, s)
      | .ok moved => (visitEach visit s rest).map fun (more, s) => (more.map (moved + ·), s)

/-- A visit moves the agents of a node, as far as agents can tell. -/
def Moves (supply : Supply) (now : UInt32)
    (visit : Loading → NodeId → Except Fault (Outcome Nat)) : Prop :=
  ∀ s : Loading, s.Fits supply.layout → ∀ id ∈ supply.layout.nodeIds, ∃ t,
    visit s id = .ok (Crossing.tally (s.moves supply now id), t) ∧
      t.clearActive = (Crossing.cut (s.moves supply now id)).foldl (pass now) s.clearActive

theorem Moves.visitEach (hc : supply.layout.Closed)
    {visit : Loading → NodeId → Except Fault (Outcome Nat)} (hv : Moves supply now visit)
    (hs : s.Fits supply.layout) {ids : List NodeId} (hn : ids.Nodup)
    (hids : ids ⊆ supply.layout.nodeIds) :
    ∃ t, s.visitEach visit ids =
        .ok (Crossing.tally (ids.flatMap (s.moves supply now)), t) ∧
      t.clearActive =
        (Crossing.cut (ids.flatMap (s.moves supply now))).foldl (pass now) s.clearActive := by
  induction ids generalizing s with
  | nil => exact ⟨s, rfl, rfl⟩
  | cons id rest ih =>
    obtain ⟨hid, hrest⟩ := List.cons_subset.1 hids
    obtain ⟨hnew, hnodup⟩ := List.nodup_cons.1 hn
    obtain ⟨t, ht, hcontent⟩ := hv s hs id hid
    rw [List.flatMap_cons, Crossing.tally_append, Crossing.cut_append]
    simp only [Loading.visitEach, ht, Except.bind]
    cases htally : Crossing.tally (s.moves supply now id) with
    | error error => exact ⟨t, rfl, hcontent⟩
    | ok n =>
      obtain ⟨hcut, -⟩ := Crossing.tally_eq_ok htally
      rw [hcut] at hcontent
      -- What the other nodes are going to move can be read off the first state.
      have hsame : rest.flatMap (t.moves supply now) = rest.flatMap (s.moves supply now) := by
        have hself : s.moves supply now id ⊆ [id].flatMap (s.moves supply now) := by
          simp
        apply List.flatMap_congr
        intro other hother
        have hne : other ∉ [id] := by
          simpa using ne_of_mem_of_not_mem hother hnew
        exact moves_of_content hc hs hself hcontent hne
      obtain ⟨u, hu, hcontent'⟩ := ih (fits_of_content hs hcontent) hnodup hrest
      rw [hsame] at hu hcontent'
      refine ⟨u, ?_, ?_⟩
      · simp only [hu, Except.map]
      · rw [hcontent', hcontent, List.foldl_append]

/-! ## One node -/

/-- The state after a sweep visited a node. -/
def attendNode (supply : Supply) (now : UInt32) (s : Loading) (node : Junction) : Loading :=
  let xs := s.crossings supply now node
  let t := (Crossing.cut xs).foldl (cross supply.layout now) (s.deactivateNode node.id)
  match Crossing.tally xs with
  | .ok (_ + 1) => t.wakeNode node
  | .ok 0 | .error _ => t

theorem Fits.deactivateNode {l : Layout} (hs : s.Fits l) (id : NodeId) :
    (s.deactivateNode id).Fits l :=
  hs.of_shape_eq (shape_markNode s id false)

theorem visitNode_eq_ok (hc : supply.layout.Closed) (hs : s.Fits supply.layout) {node : Junction}
    (hn : node ∈ supply.layout.junctions) :
    s.visitNode supply now node.id =
      .ok (Crossing.tally (s.crossings supply now node), s.attendNode supply now node) := by
  have hfits := hs.deactivateNode node.id
  -- Who waits on a link does not depend on the mark of the node.
  have hsame : (s.deactivateNode node.id).crossings supply now node =
      s.crossings supply now node := rfl
  simp only [visitNode, hc.junction_eq hn, Except.bind, advanceNode_eq_ok hc hfits hn, hsame,
    attendNode]
  cases Crossing.tally (s.crossings supply now node) with
  | error error => rfl
  | ok n =>
    cases n with
    | zero => rfl
    | succ n => simp [activateNode_eq_ok hc (fits_foldl_cross hfits now _) hn, Except.map]

theorem clearActive_attendNode (supply : Supply) (now : UInt32) (s : Loading) (node : Junction) :
    (s.attendNode supply now node).clearActive =
      (Crossing.cut (s.crossings supply now node)).foldl (pass now) s.clearActive := by
  have h : ((Crossing.cut (s.crossings supply now node)).foldl (cross supply.layout now)
      (s.deactivateNode node.id)).clearActive =
        (Crossing.cut (s.crossings supply now node)).foldl (pass now) s.clearActive := by
    rw [clearActive_foldl_cross, deactivateNode, clearActive_markNode]
  unfold attendNode
  dsimp only
  split
  · rw [clearActive_wakeNode, h]
  · exact h
  · exact h

theorem moves_visitNode (hc : supply.layout.Closed) (now : UInt32) :
    Moves supply now fun s id => s.visitNode supply now id := by
  intro s hs id hid
  obtain ⟨node, hn, rfl⟩ := List.mem_map.1 hid
  rw [moves_eq hc hn]
  exact ⟨_, visitNode_eq_ok hc hs hn, clearActive_attendNode supply now s node⟩

theorem visitNodes_eq (supply : Supply) (now : UInt32) (s : Loading) (ids : List NodeId) :
    s.visitNodes supply now ids = s.visitEach (fun s id => s.visitNode supply now id) ids := by
  induction ids generalizing s with
  | nil => rfl
  | cons id rest ih =>
    apply congrArg (s.visitNode supply now id).bind
    funext ⟨moved, t⟩
    cases moved with
    | error error => rfl
    | ok moved => simp only [ih]

/-- Either the first node fails, or the visits go on from where it leaves the agents. -/
theorem visitNodes_cons (hc : supply.layout.Closed) (hs : s.Fits supply.layout) {node : Junction}
    (hn : node ∈ supply.layout.junctions) {rest : List NodeId} {moved : Except LoadingError Nat}
    (h : s.visitNodes supply now (node.id :: rest) = .ok (moved, t)) :
    (∃ error, Crossing.tally (s.crossings supply now node) = .error error ∧ moved = .error error ∧
        t = s.attendNode supply now node) ∨
      ∃ n more, Crossing.tally (s.crossings supply now node) = .ok n ∧
        (s.attendNode supply now node).visitNodes supply now rest = .ok (more, t) ∧
          moved = more.map (n + ·) := by
  simp only [visitNodes, visitNode_eq_ok hc hs hn, Except.bind] at h
  cases htally : Crossing.tally (s.crossings supply now node) with
  | error error =>
    rw [htally] at h
    cases h
    exact .inl ⟨error, rfl, rfl, rfl⟩
  | ok n =>
    rw [htally] at h
    obtain ⟨⟨more, u⟩, hvisit, he⟩ := exists_of_map_eq_ok h
    cases he
    exact .inr ⟨n, more, rfl, hvisit, rfl⟩

/-! ## How far visits come -/

/-- Nobody whom a node takes from its links is refused. -/
def grants (supply : Supply) (now : UInt32) (s : Loading) (id : NodeId) : Bool :=
  (s.moves supply now id).all (·.error?.isNone)

/-- The nodes in front of the first one which fails. -/
def served (supply : Supply) (now : UInt32) (s : Loading) (ids : List NodeId) : List NodeId :=
  ids.takeWhile (s.grants supply now)

/-- The nodes behind the first one which fails. -/
def skipped (supply : Supply) (now : UInt32) (s : Loading) (ids : List NodeId) : List NodeId :=
  (ids.dropWhile (s.grants supply now)).tail

theorem skipped_sublist (supply : Supply) (now : UInt32) (s : Loading) (ids : List NodeId) :
    (s.skipped supply now ids).Sublist ids :=
  (List.tail_sublist _).trans (List.dropWhile_sublist _)

theorem served_sublist (supply : Supply) (now : UInt32) (s : Loading) (ids : List NodeId) :
    (s.served supply now ids).Sublist ids :=
  List.takeWhile_sublist _

/-- How far a sweep comes depends on who crosses the nodes alone. -/
theorem grants_congr {ids : List NodeId}
    (h : ∀ id ∈ ids, t.moves supply now id = s.moves supply now id) :
    t.served supply now ids = s.served supply now ids ∧
      t.skipped supply now ids = s.skipped supply now ids := by
  induction ids with
  | nil => exact ⟨rfl, rfl⟩
  | cons id rest ih =>
    obtain ⟨hid, hrest⟩ := List.forall_mem_cons.1 h
    obtain ⟨hserved, hskipped⟩ := ih hrest
    have hgrants : t.grants supply now id = s.grants supply now id := by rw [grants, hid, grants]
    unfold served skipped at *
    cases hg : s.grants supply now id <;> simp_all

/-- If nobody is refused, the visits come to all nodes. -/
theorem served_of_grants {ids : List NodeId} (h : ∀ id ∈ ids, s.grants supply now id = true) :
    s.served supply now ids = ids ∧ s.skipped supply now ids = [] := by
  have hserved : s.served supply now ids = ids := List.takeWhile_eq_self_iff.2 h
  have hrest : ids.dropWhile (s.grants supply now) = [] := List.dropWhile_eq_nil_iff.2 h
  exact ⟨hserved, by rw [skipped, hrest, List.tail_nil]⟩

/-- Whether a node is marked after a sweep over some nodes: those served are if they moved agents,
those skipped if they were, and the one which failed is not. -/
def markAfter (supply : Supply) (now : UInt32) (s : Loading) (ids : List NodeId) (id : NodeId) :
    Bool :=
  if id ∈ s.served supply now ids then !(s.moves supply now id).isEmpty
  else decide (id ∈ s.skipped supply now ids) && s.nodeActive id

/-! ## The node phase -/

theorem flatMap_filter_of_nil {α β : Type} {keep : α → Bool} {f : α → List β} {xs : List α}
    (h : ∀ x ∈ xs, keep x = false → f x = []) : (xs.filter keep).flatMap f = xs.flatMap f := by
  induction xs with
  | nil => rfl
  | cons x rest ih =>
    obtain ⟨hx, hrest⟩ := List.forall_mem_cons.1 h
    rw [List.filter_cons, List.flatMap_cons, ← ih hrest]
    cases hk : keep x with
    | true => rfl
    | false => simp [hx hk]

/-- What holds in a node phase of the marks: `pending` are the nodes which a sweep took and did not
visit. -/
structure NodePhase (l : Layout) (pending : List NodeId) (s : Loading) : Prop where
  fits : s.Fits l
  live : ∀ id ∈ l.linkIds, (s.queue id).Live
  links : s.LinkMarks l []
  nodes : s.NodeMarks l pending

theorem nodes_pass (now : UInt32) (s : Loading) (x : Crossing) :
    (s.pass now x).traffic.nodes = s.traffic.nodes ∧
      (s.pass now x).traffic.activeLinks = s.traffic.activeLinks ∧
      (s.pass now x).traffic.activeNodes = s.traffic.activeNodes := by
  unfold pass
  dsimp only
  cases x.turn with
  | onto link exitTime => exact ⟨rfl, rfl, rfl⟩
  | lost error => exact ⟨rfl, rfl, rfl⟩
  | refused link error => exact ⟨rfl, rfl, rfl⟩

@[simp] theorem nodeActive_cross (l : Layout) (now : UInt32) (s : Loading) (x : Crossing)
    (id : NodeId) : (s.cross l now x).nodeActive id = s.nodeActive id := by
  have h : (s.pass now x).nodeActive id = s.nodeActive id := by
    simp only [nodeActive, (nodes_pass now s x).1]
  unfold cross
  obtain he | ⟨link, -, he⟩ := follow_eq l (s.pass now x) x.turn
  · rw [he, h]
  · rw [he, nodeActive_wakeLink, h]

/-- What a sweep over the nodes of a partition does: `pending` are nodes of other partitions which
were not visited. -/
structure NodesSwept (supply : Supply) (now : UInt32) (part : Nat) (pending : List NodeId)
    (s t : Loading) : Prop where
  content : t.clearActive =
    (Crossing.cut (s.partMoves supply now part)).foldl (pass now) s.clearActive
  phase : ∃ left, left ⊆ supply.layout.nodeTour part ∧ t.NodePhase supply.layout (left ++ pending)
  others : ∀ id ∈ supply.layout.nodeIds, id ∉ supply.layout.nodeTour part →
    t.nodeActive id = s.nodeActive id
  done : ∀ n, Crossing.tally (s.partMoves supply now part) = .ok n →
    t.NodePhase supply.layout pending ∧ ∀ id ∈ supply.layout.nodeTour part,
      t.nodeActive id = !(s.moves supply now id).isEmpty

/-- What the node phases of some partitions do if nobody is refused: `nodes` nodes were visited. -/
structure NodesDone (supply : Supply) (now : UInt32) (parts : List Nat) (pending : List NodeId)
    (s : Loading) (nodes : Nat) (t : Loading) : Prop where
  nodes_eq : nodes = ((parts.flatMap supply.layout.nodeTour).filter s.nodeActive).length
  phase : t.NodePhase supply.layout pending
  marks : ∀ id ∈ supply.layout.nodeIds, t.nodeActive id =
    if id ∈ parts.flatMap supply.layout.nodeTour then !(s.moves supply now id).isEmpty
    else s.nodeActive id

namespace NodePhase

variable {l : Layout} {pending : List NodeId}

theorem cross (hc : l.Closed) (h : s.NodePhase l pending) {x : Crossing} (hx : x.Within l)
    (now : UInt32) : (s.cross l now x).NodePhase l pending := by
  have hfits : (s.pass now x).Fits l := h.fits.pass now x
  have hactive (id : LinkId) (hid : id ∈ l.linkIds) :
      ((s.pass now x).queue id).active = (s.queue id).active := by
    rw [queue_pass hc h.fits hx hid, Crossing.active_carry]
  have hlinks : (s.pass now x).LinkMarks l [] := h.links.congr (nodes_pass now s x).2.1 hactive
  have hnodes : (s.pass now x).NodeMarks l pending := by
    apply h.nodes.congr (nodes_pass now s x).2.2
    intro id _
    simp only [nodeActive, (nodes_pass now s x).1]
  refine ⟨h.fits.cross now x, ?_, ?_, ?_⟩
  · intro id hid
    have hlive : x.entrant? id = none → ((s.pass now x).queue id).Live := by
      intro hnone
      rw [queue_pass hc h.fits hx hid]
      exact Crossing.live_carry hnone (h.live id hid)
    unfold Loading.cross
    cases hturn : x.turn with
    | lost error => exact hlive (by simp [Crossing.entrant?, hturn])
    | refused link error => exact hlive (by simp [Crossing.entrant?, hturn])
    | onto next exitTime =>
      -- The link that is entered becomes busy, and it is marked at once.
      obtain ⟨link, hl, rfl⟩ := List.mem_map.1 (hx.onto next exitTime hturn)
      simp only [follow, hc.link?_eq hl]
      rw [queue_wakeLink hc hfits hl hid]
      split
      · rename_i he
        have hentry : x.entrant? id = some { exitTime, agent := x.agent.proceed } := by
          simp [Crossing.entrant?, hturn, he]
        rw [queue_pass hc h.fits hx hid]
        exact (Crossing.busy_carry hentry _).symm
      · rename_i he
        exact hlive (by simp [Crossing.entrant?, hturn, Ne.symm he])
  · unfold Loading.cross
    obtain he | ⟨link, hl, he⟩ := follow_eq l (s.pass now x) x.turn
    · rwa [he]
    · rw [he]
      exact hlinks.wakeLink hc hfits hl List.not_mem_nil
  · unfold Loading.cross
    obtain he | ⟨link, hl, he⟩ := follow_eq l (s.pass now x) x.turn
    · rwa [he]
    · rw [he]
      exact hnodes.congr (activeNodes_wakeLink _ _) fun _ _ => nodeActive_wakeLink _ _ _

theorem foldl_cross (hc : l.Closed) (h : s.NodePhase l pending) {xs : List Crossing}
    (hxs : ∀ x ∈ xs, x.Within l) (now : UInt32) :
    (xs.foldl (Loading.cross l now) s).NodePhase l pending ∧
      ∀ id, (xs.foldl (Loading.cross l now) s).nodeActive id = s.nodeActive id := by
  induction xs generalizing s with
  | nil => exact ⟨h, fun _ => rfl⟩
  | cons x rest ih =>
    obtain ⟨hx, hrest⟩ := List.forall_mem_cons.1 hxs
    obtain ⟨hphase, hactive⟩ := ih (h.cross hc hx now) hrest
    exact ⟨hphase, fun id => (hactive id).trans (nodeActive_cross l now s x id)⟩

theorem deactivateNode (hc : l.Closed) {id : NodeId} (hid : id ∈ l.nodeIds)
    (h : s.NodePhase l (id :: pending)) : (s.deactivateNode id).NodePhase l pending := by
  refine ⟨h.fits.deactivateNode id, h.live, ?_, h.nodes.deactivateNode hc h.fits hid⟩
  exact h.links.congr rfl fun _ _ => rfl

theorem wakeNode (hc : l.Closed) {node : Junction} (hn : node ∈ l.junctions)
    (hp : node.id ∉ pending) (h : s.NodePhase l pending) :
    (s.wakeNode node).NodePhase l pending := by
  refine ⟨h.fits.of_shape_eq (shape_wakeNode s node), fun id hid => ?_, ?_,
    h.nodes.wakeNode hc h.fits hn hp⟩
  · rw [queue_wakeNode]
    exact h.live id hid
  · exact h.links.congr (activeLinks_wakeNode s node) fun id _ => by rw [queue_wakeNode]

/-- A visited node is marked afterwards if and only if it moved agents, unless one was refused. -/
theorem attendNode (hc : supply.layout.Closed) {node : Junction}
    (hn : node ∈ supply.layout.junctions) (hp : node.id ∉ pending)
    (h : s.NodePhase supply.layout (node.id :: pending)) (now : UInt32) :
    (s.attendNode supply now node).NodePhase supply.layout pending ∧
      ∀ id ∈ supply.layout.nodeIds, (s.attendNode supply now node).nodeActive id =
        if id = node.id then
          match Crossing.tally (s.crossings supply now node) with
          | .ok n => decide (0 < n)
          | .error _ => false
        else s.nodeActive id := by
  have hid : node.id ∈ supply.layout.nodeIds := List.mem_map_of_mem hn
  obtain ⟨hphase, hactive⟩ := (h.deactivateNode hc hid).foldl_cross hc
    (fun x hx => within_of_mem_crossingsFrom (fun _ => hc.mem_linkIds_of_mem_inLinks hn)
      (Crossing.cut_subset (s.crossings supply now node) hx)) now
  have hold (id : NodeId) (ho : id ∈ supply.layout.nodeIds) :
      ((Crossing.cut (s.crossings supply now node)).foldl (Loading.cross supply.layout now)
        (s.deactivateNode node.id)).nodeActive id =
          if id = node.id then false else s.nodeActive id := by
    rw [hactive, Loading.deactivateNode, nodeActive_markNode hc h.fits hid ho]
  unfold Loading.attendNode
  dsimp only
  cases Crossing.tally (s.crossings supply now node) with
  | error error => exact ⟨hphase, hold⟩
  | ok n =>
    cases n with
    | zero => exact ⟨hphase, hold⟩
    | succ n =>
      refine ⟨hphase.wakeNode hc hn hp, fun id ho => ?_⟩
      dsimp only
      rw [nodeActive_wakeNode hc hphase.fits hn ho, hold id ho]
      by_cases he : id = node.id <;> simp [he]

/-- What visits to nodes leave of the marks. -/
theorem visitNodes_marks (hc : supply.layout.Closed) {ids : List NodeId} (hn : ids.Nodup)
    (hp : ∀ id ∈ ids, id ∉ pending) (hids : ids ⊆ supply.layout.nodeIds)
    (h : s.NodePhase supply.layout (ids ++ pending)) {moved : Except LoadingError Nat}
    (hr : s.visitNodes supply now ids = .ok (moved, t)) :
    t.NodePhase supply.layout (s.skipped supply now ids ++ pending) ∧
      ∀ id ∈ supply.layout.nodeIds, t.nodeActive id =
        if id ∈ ids then s.markAfter supply now ids id else s.nodeActive id := by
  induction ids generalizing s moved with
  | nil =>
    cases hr
    exact ⟨h, fun _ _ => rfl⟩
  | cons id rest ih =>
    obtain ⟨hid, hrest⟩ := List.cons_subset.1 hids
    obtain ⟨hnew, hnodup⟩ := List.nodup_cons.1 hn
    obtain ⟨hself, hpending⟩ := List.forall_mem_cons.1 hp
    obtain ⟨node, hnode, rfl⟩ := List.mem_map.1 hid
    have hfree : node.id ∉ rest ++ pending := by
      simp [hnew, hself]
    obtain ⟨hphase, hactive⟩ := h.attendNode hc hnode hfree now
    have hgrants : s.grants supply now node.id =
        (Crossing.tally (s.crossings supply now node)).isOk := by
      rw [grants, moves_eq hc hnode, Crossing.isOk_tally]
    obtain ⟨error, htally, -, rfl⟩ | ⟨n, more, htally, hvisit, -⟩ :=
      visitNodes_cons hc h.fits hnode hr
    · -- The first node fails; nobody visits the others.
      have hfails : s.grants supply now node.id = false := by rw [hgrants, htally]; rfl
      have hserved : s.served supply now (node.id :: rest) = [] := by simp [served, hfails]
      have hskipped : s.skipped supply now (node.id :: rest) = rest := by simp [skipped, hfails]
      refine ⟨by rwa [hskipped], fun id ho => ?_⟩
      rw [hactive id ho, htally, markAfter, hserved, hskipped]
      by_cases he : id = node.id
      · simp [he, hnew]
      · by_cases hmem : id ∈ rest <;> simp [he, hmem]
    · have hpasses : s.grants supply now node.id = true := by rw [hgrants, htally]; rfl
      have hcut : Crossing.cut (s.crossings supply now node) ⊆
          [node.id].flatMap (s.moves supply now) := by
        intro x hx
        simpa [moves_eq hc hnode] using Crossing.cut_subset _ hx
      -- The later nodes find the agents they would have found at the start.
      have hsame (id : NodeId) (hmem : id ∈ rest) :
          (s.attendNode supply now node).moves supply now id = s.moves supply now id := by
        have hne : id ∉ [node.id] := by
          simpa using ne_of_mem_of_not_mem hmem hnew
        exact moves_of_content hc h.fits hcut (clearActive_attendNode supply now s node) hne
      obtain ⟨hserved', hskipped'⟩ := grants_congr hsame
      have hserved : s.served supply now (node.id :: rest) =
          node.id :: s.served supply now rest := by simp [served, hpasses]
      have hskipped : s.skipped supply now (node.id :: rest) = s.skipped supply now rest := by
        simp [skipped, hpasses]
      obtain ⟨hphase', hactive'⟩ := ih hnodup hpending hrest hphase hvisit
      refine ⟨by rwa [hskipped, ← hskipped'], fun id ho => ?_⟩
      rw [hactive' id ho, hactive id ho, markAfter, markAfter, hserved', hskipped', hserved,
        hskipped, htally, hactive id ho]
      by_cases he : id = node.id
      · subst he
        have hmoves := (Crossing.tally_eq_ok htally).2
        rw [if_neg hnew, if_pos rfl, if_pos List.mem_cons_self, if_pos List.mem_cons_self,
          moves_eq hc hnode, hmoves]
        cases s.crossings supply now node <;> rfl
      · by_cases hmem : id ∈ rest
        · simp [he, hmem, hsame id hmem]
        · simp [he, hmem]

theorem dueNodes_subset (l : Layout) (s : Loading) (part : Nat) :
    s.dueNodes l part ⊆ l.nodeTour part :=
  List.filter_subset_self _

theorem dueNodes_subset_nodeIds (hc : l.Closed) (s : Loading) (part : Nat) :
    s.dueNodes l part ⊆ l.nodeIds :=
  List.Subset.trans (dueNodes_subset l s part) hc.nodeTour_subset

theorem nodup_dueNodes (hc : l.Closed) (s : Loading) (part : Nat) : (s.dueNodes l part).Nodup :=
  (hc.nodup_nodeTour part).filter _

/-- The nodes which are due are taken from their set and visited. -/
theorem sweepNodes_eq (hc : supply.layout.Closed) {part : Nat}
    (hlt : part < supply.layout.numParts) (h : s.NodePhase supply.layout pending)
    (hp : ∀ id ∈ pending, supply.layout.nodeHome id ≠ part) :
    s.sweepNodes supply part now =
      ((s.takeNodes part).visitNodes supply now (s.dueNodes supply.layout part)).map
        fun (moved, t) =>
          (moved.map fun agents => ((s.dueNodes supply.layout part).length, agents), t) := by
  have htake : s.traffic.activeNodes.take part =
      .ok (s.dueNodes supply.layout part, s.traffic.activeNodes.emptied part) := by
    rw [ActiveSets.take_eq_ok (h.fits.length_activeNodes ▸ hlt), h.nodes.sort_ids hc hp]
  rw [Loading.sweepNodes, htake]
  rfl

/-- What visits to the nodes which are due leave of the marks. -/
theorem visitDue (hc : supply.layout.Closed) {part : Nat} (h : s.NodePhase supply.layout pending)
    (hp : ∀ id ∈ pending, supply.layout.nodeHome id ≠ part) {moved : Except LoadingError Nat}
    (hr : (s.takeNodes part).visitNodes supply now (s.dueNodes supply.layout part) =
      .ok (moved, t)) :
    t.NodePhase supply.layout (s.skipped supply now (s.dueNodes supply.layout part) ++ pending) ∧
      ∀ id ∈ supply.layout.nodeIds, t.nodeActive id =
        if id ∈ s.dueNodes supply.layout part then
          s.markAfter supply now (s.dueNodes supply.layout part) id
        else s.nodeActive id := by
  have htaken : (s.takeNodes part).NodePhase supply.layout
      (s.dueNodes supply.layout part ++ pending) :=
    ⟨h.fits.of_shape_eq (shape_takeNodes s part), h.live, h.links, h.nodes.takeNodes hc hp⟩
  have hfree (id : NodeId) (hid : id ∈ s.dueNodes supply.layout part) : id ∉ pending :=
    fun hmem => hp id hmem (hc.mem_nodeTour.1 (dueNodes_subset supply.layout s part hid)).2
  -- Taking the nodes from their set changes neither who waits for them nor their marks.
  exact visitNodes_marks (s := s.takeNodes part) hc (nodup_dueNodes hc s part) hfree
    (dueNodes_subset_nodeIds hc s part) htaken hr

/-- A sweep moves the agents of all nodes of a partition, if those which are not marked have nobody
to move. -/
theorem sweepNodes (hc : supply.layout.Closed) {part : Nat} (hlt : part < supply.layout.numParts)
    (h : s.NodePhase supply.layout pending)
    (hp : ∀ id ∈ pending, supply.layout.nodeHome id ≠ part)
    (hidle : ∀ id ∈ supply.layout.nodeTour part,
      s.nodeActive id = false → s.moves supply now id = []) :
    ∃ t, s.sweepNodes supply part now =
        .ok ((Crossing.tally (s.partMoves supply now part)).map
          fun agents => ((s.dueNodes supply.layout part).length, agents), t) ∧
      NodesSwept supply now part pending s t := by
  have hsub := dueNodes_subset supply.layout s part
  -- Those left out have nobody to move, so the visits move all agents of the partition.
  have hmoves : (s.dueNodes supply.layout part).flatMap (s.moves supply now) =
      s.partMoves supply now part :=
    flatMap_filter_of_nil hidle
  have hmoves' : (s.dueNodes supply.layout part).flatMap ((s.takeNodes part).moves supply now) =
      s.partMoves supply now part := hmoves
  obtain ⟨t, ht, hcontent⟩ := (moves_visitNode hc now).visitEach hc
    (h.fits.of_shape_eq (shape_takeNodes s part)) (nodup_dueNodes hc s part)
    (dueNodes_subset_nodeIds hc s part)
  rw [← visitNodes_eq, hmoves'] at ht
  rw [hmoves', clearActive_takeNodes] at hcontent
  obtain ⟨hphase, hactive⟩ := h.visitDue hc hp ht
  have hothers (id : NodeId) (hid : id ∈ supply.layout.nodeIds)
      (hnot : id ∉ s.dueNodes supply.layout part) : t.nodeActive id = s.nodeActive id := by
    rw [hactive id hid, if_neg hnot]
  refine ⟨t, ?_, hcontent, ?_, ?_, ?_⟩
  · rw [h.sweepNodes_eq hc hlt hp, ht]
    rfl
  · have hskipped := (skipped_sublist supply now s (s.dueNodes supply.layout part)).subset
    exact ⟨_, List.Subset.trans hskipped hsub, hphase⟩
  · intro id hid hnot
    exact hothers id hid fun hmem => hnot (hsub hmem)
  · intro n htally
    have hgrants (id : NodeId) (hid : id ∈ s.dueNodes supply.layout part) :
        s.grants supply now id = true := by
      have hall := Crossing.isOk_tally (s.partMoves supply now part)
      rw [htally, ← hmoves, List.all_flatMap] at hall
      exact List.all_eq_true.1 hall.symm id hid
    obtain ⟨hserved, hskipped⟩ := served_of_grants hgrants
    rw [hskipped] at hphase
    refine ⟨hphase, fun id hid => ?_⟩
    cases hmark : s.nodeActive id with
    | true =>
      have hmem : id ∈ s.dueNodes supply.layout part := List.mem_filter.2 ⟨hid, hmark⟩
      rw [hactive id (hc.nodeTour_subset hid), if_pos hmem, markAfter, hserved, if_pos hmem]
    | false =>
      -- A node that was left out keeps its mark, which is not set.
      have hnot : id ∉ s.dueNodes supply.layout part := by
        intro hmem
        rw [(List.mem_filter.1 hmem).2] at hmark
        cases hmark
      rw [hothers id (hc.nodeTour_subset hid) hnot, hidle id hid hmark]
      exact hmark

end NodePhase

/-! ## Several partitions -/

namespace NodesSwept

variable {part : Nat} {rest : List Nat} {pending : List NodeId}

theorem moves_eq (hc : supply.layout.Closed) (hs : s.Fits supply.layout)
    (h : NodesSwept supply now part pending s t) {id : NodeId}
    (hid : id ∉ supply.layout.nodeTour part) : t.moves supply now id = s.moves supply now id :=
  moves_of_content hc hs (Crossing.cut_subset _) h.content hid

/-- Nodes of other partitions which are not marked have nobody to move after the sweep, either. -/
theorem idle (hc : supply.layout.Closed) (hs : s.Fits supply.layout)
    (h : NodesSwept supply now part pending s t) {id : NodeId} (hid : id ∈ supply.layout.nodeIds)
    (hnot : id ∉ supply.layout.nodeTour part)
    (hidle : s.nodeActive id = false → s.moves supply now id = [])
    (hmark : t.nodeActive id = false) : t.moves supply now id = [] := by
  rw [h.moves_eq hc hs hnot]
  exact hidle (h.others id hid hnot ▸ hmark)

/-- The nodes which one partition visits come on top of those which the others visit. -/
theorem cons_done (hc : supply.layout.Closed) (hs : s.Fits supply.layout)
    (h : NodesSwept supply now part pending s t)
    (hmoved : ∀ id ∈ supply.layout.nodeTour part,
      t.nodeActive id = !(s.moves supply now id).isEmpty)
    (hother : ∀ id ∈ rest.flatMap supply.layout.nodeTour, id ∉ supply.layout.nodeTour part)
    {nodes : Nat} {u : Loading} (hd : NodesDone supply now rest pending t nodes u) :
    NodesDone supply now (part :: rest) pending s
      ((s.dueNodes supply.layout part).length + nodes) u := by
  refine ⟨?_, hd.phase, ?_⟩
  · have hactive (id : NodeId) (hid : id ∈ rest.flatMap supply.layout.nodeTour) :
        t.nodeActive id = s.nodeActive id :=
      h.others id (hc.nodeTours_subset rest hid) (hother id hid)
    rw [hd.nodes_eq, List.filter_congr hactive, List.flatMap_cons, List.filter_append,
      List.length_append]
    rfl
  · intro id hid
    rw [hd.marks id hid, List.flatMap_cons]
    -- A node is of one of the other partitions, of this one, or was not visited at all.
    by_cases hrest : id ∈ rest.flatMap supply.layout.nodeTour
    · rw [if_pos hrest, if_pos (List.mem_append_right _ hrest), h.moves_eq hc hs (hother id hrest)]
    · rw [if_neg hrest]
      by_cases hpart : id ∈ supply.layout.nodeTour part
      · rw [if_pos (List.mem_append_left _ hpart), hmoved id hpart]
      · have hnone : id ∉ supply.layout.nodeTour part ++ rest.flatMap supply.layout.nodeTour :=
          fun hmem => (List.mem_append.1 hmem).elim hpart hrest
        rw [if_neg hnone, h.others id hid hpart]

end NodesSwept

/-- A node phase moves the agents of all nodes of the partitions, if those which are not marked have
nobody to move. -/
theorem NodePhase.nodePhase {engine : Engine} (hc : engine.supply.layout.Closed)
    {pending : List NodeId} {parts : List Nat} (hn : parts.Nodup)
    (hlt : ∀ part ∈ parts, part < engine.supply.layout.numParts)
    (h : s.NodePhase engine.supply.layout pending)
    (hp : ∀ id ∈ pending, engine.supply.layout.nodeHome id ∉ parts)
    (hidle : ∀ id ∈ parts.flatMap engine.supply.layout.nodeTour,
      s.nodeActive id = false → s.moves engine.supply now id = []) :
    ∃ moved t, engine.nodePhase s now parts = .ok (moved, t) ∧
      moved.map (·.2) = Crossing.tallyAll (parts.map (s.partMoves engine.supply now)) ∧
      t.clearActive = (parts.flatMap fun part =>
        Crossing.cut (s.partMoves engine.supply now part)).foldl (pass now) s.clearActive ∧
      ∀ nodes agents, moved = .ok (nodes, agents) →
        NodesDone engine.supply now parts pending s nodes t := by
  induction parts generalizing s pending with
  | nil =>
    refine ⟨.ok (0, 0), s, rfl, rfl, rfl, ?_⟩
    rintro nodes agents ⟨⟩
    exact ⟨rfl, h, fun id _ => (if_neg List.not_mem_nil).symm⟩
  | cons part rest ih =>
    obtain ⟨hpart, hrest⟩ := List.forall_mem_cons.1 hlt
    obtain ⟨hnew, hnodup⟩ := List.nodup_cons.1 hn
    have hpart_pending (id : NodeId) (hid : id ∈ pending) :
        engine.supply.layout.nodeHome id ≠ part := fun he => hp id hid (he ▸ List.mem_cons_self)
    have hrest_pending (id : NodeId) (hid : id ∈ pending) :
        engine.supply.layout.nodeHome id ∉ rest :=
      fun hmem => hp id hid (List.mem_cons_of_mem _ hmem)
    have hidle_part (id : NodeId) (hid : id ∈ engine.supply.layout.nodeTour part) :=
      hidle id (List.mem_flatMap.2 ⟨part, List.mem_cons_self, hid⟩)
    have hother (id : NodeId) (hid : id ∈ rest.flatMap engine.supply.layout.nodeTour) :
        id ∉ engine.supply.layout.nodeTour part := by
      have htours := hc.nodup_nodeTours hn
      rw [List.flatMap_cons] at htours
      exact fun hmem => List.disjoint_of_nodup_append htours hmem hid
    obtain ⟨t, ht, hswept⟩ := h.sweepNodes hc hpart hpart_pending hidle_part
    -- For the partitions which follow, it does not matter that this one was swept.
    have hidle_rest (id : NodeId) (hid : id ∈ rest.flatMap engine.supply.layout.nodeTour) :=
      hswept.idle hc h.fits (hc.nodeTours_subset rest hid) (hother id hid)
        (hidle id (List.mem_append_right _ hid))
    have hparts (other : Nat) (ho : other ∈ rest) :
        t.partMoves engine.supply now other = s.partMoves engine.supply now other :=
      partMoves_of_content hc h.fits (ne_of_mem_of_not_mem ho hnew) (Crossing.cut_subset _)
        hswept.content
    have hcuts : (rest.flatMap fun part => Crossing.cut (t.partMoves engine.supply now part)) =
        rest.flatMap fun part => Crossing.cut (s.partMoves engine.supply now part) :=
      List.flatMap_congr fun other ho => by rw [hparts other ho]
    cases htally : Crossing.tally (s.partMoves engine.supply now part) with
    | error error =>
      -- The nodes which the sweep did not come to stay marked, but not in a set.
      obtain ⟨left, hleft, hphase⟩ := hswept.phase
      have hleft_pending (id : NodeId) (hid : id ∈ left ++ pending) :
          engine.supply.layout.nodeHome id ∉ rest := by
        rcases List.mem_append.1 hid with hid | hid
        · rwa [(hc.mem_nodeTour.1 (hleft hid)).2]
        · exact hrest_pending id hid
      obtain ⟨moved, u, hu, -, hcontent, -⟩ := ih hnodup hrest hphase hleft_pending hidle_rest
      refine ⟨.error error, u, ?_, ?_, ?_, by rintro nodes agents ⟨⟩⟩
      · simp only [Engine.nodePhase, ht, htally, Except.bind, hu, Except.map]
      · simp only [List.map_cons, Crossing.tallyAll, htally, Except.bind, Except.map]
      · rw [hcontent, hcuts, hswept.content, List.flatMap_cons, List.foldl_append]
    | ok n =>
      obtain ⟨hphase, hmoved⟩ := hswept.done n htally
      obtain ⟨more, u, hu, htallies, hcontent, hok⟩ :=
        ih hnodup hrest hphase hrest_pending hidle_rest
      rw [List.map_congr_left hparts] at htallies
      refine ⟨more.map fun counts => ((s.dueNodes engine.supply.layout part).length + counts.1,
        n + counts.2), u, ?_, ?_, ?_, ?_⟩
      · simp only [Engine.nodePhase, ht, htally, Except.bind, hu, Except.map]
      · simp only [List.map_cons, Crossing.tallyAll, htally, Except.bind, ← htallies]
        cases more <;> rfl
      · rw [hcontent, hcuts, hswept.content, List.flatMap_cons, List.foldl_append]
      · intro nodes agents hcounts
        cases more with
        | error error => cases hcounts
        | ok counts =>
          cases hcounts
          exact hswept.cons_done hc h.fits hmoved hother (hok counts.1 counts.2 rfl)

end Loading

end NetworkLoading
