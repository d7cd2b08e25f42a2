import Mathlib.Logic.Relation
import NetworkLoading.Proofs.Calls

/-!
# Motions

Within a step agents move in two ways only: a link advances, or an agent who waits at the end of a
link crosses the node there. So a step is a sequence of such motions, whichever links and nodes it
visits. This holds of steps which fail, too, and of those which follow them, when agents wait for
nodes which nobody is going to visit. A step fails only because an agent whose turn it is to cross
is refused.
-/

namespace NetworkLoading

namespace Loading

variable {l : Layout} {s t u : Loading} {now : UInt32} {supply : Supply} {engine : Engine}

/-! ## Sound states -/

/-- What holds between any two calls, even if a step failed: there is a value for every element of
the layout, and nothing else stands in the active sets. -/
structure Sound (l : Layout) (s : Loading) : Prop where
  fits : s.Fits l
  links : ∀ part, s.traffic.activeLinks.ids part ⊆ l.linkIds
  nodes : ∀ part, s.traffic.activeNodes.ids part ⊆ l.nodeIds

theorem Settled.sound (h : s.Settled l) : s.Sound l :=
  ⟨h.fits, fun part id hid => ((h.links.mem part id).1 hid).1,
    fun part id hid => ((h.nodes.mem part id).1 hid).1⟩

namespace Sound

/-- A change which leaves the active sets alone. -/
theorem of_sets_eq (h : s.Sound l) (hshape : t.traffic.shape = s.traffic.shape)
    (hlinks : t.traffic.activeLinks = s.traffic.activeLinks)
    (hnodes : t.traffic.activeNodes = s.traffic.activeNodes) : t.Sound l :=
  ⟨h.fits.of_shape_eq hshape, hlinks ▸ h.links, hnodes ▸ h.nodes⟩

theorem of_traffic_eq (h : s.Sound l) (ht : t.traffic = s.traffic) : t.Sound l :=
  h.of_sets_eq (congrArg Traffic.shape ht) (congrArg Traffic.activeLinks ht)
    (congrArg Traffic.activeNodes ht)

theorem updateQueue (h : s.Sound l) (id : LinkId) (f : LinkQueue → LinkQueue) :
    (s.updateQueue id f).Sound l :=
  h.of_sets_eq (shape_updateQueue s id f) rfl rfl

theorem markNode (h : s.Sound l) (id : NodeId) (active : Bool) : (s.markNode id active).Sound l :=
  h.of_sets_eq (shape_markNode s id active) rfl rfl

theorem insertLink (h : s.Sound l) {part : Nat} (hlt : part < s.traffic.activeLinks.parts.length)
    {id : LinkId} (hid : id ∈ l.linkIds) :
    Sound l { s with traffic := { s.traffic with
      activeLinks := s.traffic.activeLinks.insert part id } } := by
  refine ⟨h.fits.of_shape_eq (by simp [Traffic.shape]), fun other x hx => ?_, h.nodes⟩
  obtain hx | ⟨-, rfl⟩ := (ActiveSets.mem_ids_insert hlt).1 hx
  · exact h.links other hx
  · exact hid

theorem insertNode (h : s.Sound l) {part : Nat} (hlt : part < s.traffic.activeNodes.parts.length)
    {id : NodeId} (hid : id ∈ l.nodeIds) :
    Sound l { s with traffic := { s.traffic with
      activeNodes := s.traffic.activeNodes.insert part id } } := by
  refine ⟨h.fits.of_shape_eq (by simp [Traffic.shape]), h.links, fun other x hx => ?_⟩
  obtain hx | ⟨-, rfl⟩ := (ActiveSets.mem_ids_insert hlt).1 hx
  · exact h.nodes other hx
  · exact hid

theorem wakeLink (hc : l.Closed) (h : s.Sound l) {link : Link} (hl : link ∈ l.links) :
    (s.wakeLink link).Sound l := by
  unfold Loading.wakeLink
  split
  · exact h
  · have hmarked := h.updateQueue link.id fun q => { q with active := true }
    refine hmarked.insertLink ?_ (List.mem_map_of_mem hl)
    exact hmarked.fits.length_activeLinks ▸ hc.link_part_lt hl

theorem wakeNode (hc : l.Closed) (h : s.Sound l) {node : Junction} (hn : node ∈ l.junctions) :
    (s.wakeNode node).Sound l := by
  unfold Loading.wakeNode
  split
  · exact h
  · have hmarked := h.markNode node.id true
    refine hmarked.insertNode ?_ (List.mem_map_of_mem hn)
    exact hmarked.fits.length_activeNodes ▸ hc.part_lt node hn

theorem flow (h : s.Sound l) (now : UInt32) (id : LinkId) : (s.flow now id).Sound l := by
  refine h.of_sets_eq (shape_flow now s id) ?_ ?_ <;> rw [Loading.flow, arriveAll_eq] <;> rfl

theorem attendLink (hc : l.Closed) (h : s.Sound l) {link : Link} (hl : link ∈ l.links)
    (now : UInt32) : (s.attendLink l now link).Sound l := by
  have hflow : ((s.deactivateLink link.id).flow now link.id).Sound l :=
    (h.updateQueue link.id _).flow now link.id
  have hrun : (s.runLink l now link).Sound l := by
    rw [runLink]
    obtain he | ⟨node, hn, he⟩ := alert_eq l ((s.deactivateLink link.id).flow now link.id) link
    · rwa [he]
    · rw [he]
      exact hflow.wakeNode hc hn
  obtain he | he := attendLink_cases l now s link
  · rwa [he]
  · rw [he]
    exact hrun.wakeLink hc hl

theorem cross (hc : l.Closed) (h : s.Sound l) (now : UInt32) (x : Crossing) :
    (s.cross l now x).Sound l := by
  have hpass : (s.pass now x).Sound l :=
    h.of_sets_eq (shape_pass now s x) (nodes_pass now s x).2.1 (nodes_pass now s x).2.2
  unfold Loading.cross
  obtain he | ⟨link, hl, he⟩ := follow_eq l (s.pass now x) x.turn
  · rwa [he]
  · rw [he]
    exact hpass.wakeLink hc hl

theorem takeLinks (h : s.Sound l) (part : Nat) : (s.takeLinks part).Sound l := by
  refine ⟨h.fits.of_shape_eq (shape_takeLinks s part), fun other id hid => ?_, h.nodes⟩
  rw [Loading.takeLinks, ActiveSets.ids_emptied] at hid
  split at hid
  · cases hid
  · exact h.links other hid

theorem takeNodes (h : s.Sound l) (part : Nat) : (s.takeNodes part).Sound l := by
  refine ⟨h.fits.of_shape_eq (shape_takeNodes s part), h.links, fun other id hid => ?_⟩
  rw [Loading.takeNodes, ActiveSets.ids_emptied] at hid
  split at hid
  · cases hid
  · exact h.nodes other hid

theorem inject (hc : l.Closed) (h : s.Sound l) (event : Event) (id : LinkId)
    (f : LinkQueue → LinkQueue) : (s.inject l event id f).Sound l := by
  unfold Loading.inject
  split
  · rename_i link hlink
    have hentered : ((s.publish event).countIn 1).Sound l := h.of_sets_eq rfl rfl rfl
    exact (hentered.updateQueue link.id f).wakeLink hc (mem_links_of_link? hlink).1
  · exact h

theorem land (hc : l.Closed) (h : s.Sound l) (now : UInt32) (agent : Agent) (x : Landing) :
    (s.land l now agent x).Sound l := by
  cases x with
  | refused error => exact h
  | arrives => exact h.of_sets_eq rfl rfl rfl
  | waits id => exact h.inject hc _ id _
  | enters id exitTime => exact h.inject hc _ id _

end Sound

/-! ## What moves agents -/

/-- A single motion of agents in a step. -/
inductive Motion (supply : Supply) (now : UInt32) (s : Loading) : Loading → Prop
  | flow {id : LinkId} (hid : id ∈ supply.layout.linkIds) : Motion supply now s (s.flow now id)
  | pass {node : Junction} {inLink : LinkId} {agent : Agent}
      (hn : node ∈ supply.layout.junctions) (hin : inLink ∈ node.inLinks)
      (hwaits : agent ∈ (s.queue inLink).toLeave) :
      Motion supply now s (s.pass now (supply.crossing node now inLink agent))

theorem Motion.fits (h : Motion supply now s t) (hs : s.Fits supply.layout) :
    t.Fits supply.layout := by
  cases h with
  | flow hid => exact hs.flow now _
  | pass hn hin hwaits => exact hs.pass now _

/-- Apart from marks, all that happens are motions, and the state stays sound. -/
structure Moved (supply : Supply) (now : UInt32) (s t : Loading) : Prop where
  sound : t.Sound supply.layout
  motions : Relation.ReflTransGen (Motion supply now) s.clearActive t.clearActive

theorem Moved.trans (h : s.Moved supply now t) (h' : t.Moved supply now u) :
    s.Moved supply now u :=
  ⟨h'.sound, h.motions.trans h'.motions⟩

/-- Only marks change. -/
theorem moved_of_content (ht : t.Sound supply.layout) (h : t.clearActive = s.clearActive) :
    s.Moved supply now t :=
  ⟨ht, h ▸ .refl⟩

/-- What every motion keeps, whatever is marked, is kept by all that a step does. -/
theorem Moved.keeps {P : Loading → Prop} (h : s.Moved supply now t) (hs : s.Fits supply.layout)
    (hmarks : ∀ s : Loading, P s.clearActive ↔ P s) (hp : P s)
    (hkeeps : ∀ s t, s.Fits supply.layout → P s → Motion supply now s t → P t) : P t := by
  refine (hmarks t).1 ?_
  suffices hall : t.clearActive.Fits supply.layout ∧ P t.clearActive from hall.2
  refine Relation.ReflTransGen.head_induction_on
    (motive := fun s _ => s.Fits supply.layout → P s →
      t.clearActive.Fits supply.layout ∧ P t.clearActive)
    h.motions (fun hfits hp => ⟨hfits, hp⟩) ?_ (fits_clearActive.2 hs) ((hmarks s).2 hp)
  intro s u hmotion _ ih hfits hp
  exact ih (hmotion.fits hfits) (hkeeps s u hfits hp hmotion)

/-! ## What ends a step -/

/-- After some motions, an agent who waits at the end of a link is refused with an error. -/
def Refuses (supply : Supply) (now : UInt32) (s : Loading) (error : LoadingError) : Prop :=
  ∃ t, s.Moved supply now t ∧ ∃ node ∈ supply.layout.junctions, ∃ inLink ∈ node.inLinks,
    ∃ agent ∈ (t.queue inLink).toLeave, (supply.crossing node now inLink agent).error? = some error

/-- What a part of a step comes to: all it does are motions, and if it fails, someone is refused. -/
structure Proceeds (supply : Supply) (now : UInt32) (s : Loading) {α : Type}
    (result : Except LoadingError α) (t : Loading) : Prop where
  moved : s.Moved supply now t
  refuses : ∀ error, result = .error error → s.Refuses supply now error

section Proceeds

variable {α β : Type} {result : Except LoadingError α}

theorem Moved.proceeds (h : s.Moved supply now t) (a : α) : s.Proceeds supply now (.ok a) t :=
  ⟨h, nofun⟩

/-- What follows some motions. -/
theorem Moved.extend (h : s.Moved supply now t) (h' : t.Proceeds supply now result u) :
    s.Proceeds supply now result u := by
  refine ⟨h.trans h'.moved, fun error herror => ?_⟩
  obtain ⟨v, hv, hrefused⟩ := h'.refuses error herror
  exact ⟨v, h.trans hv, hrefused⟩

theorem Proceeds.map (h : s.Proceeds supply now result t) (f : α → β) :
    s.Proceeds supply now (result.map f) t := by
  refine ⟨h.moved, fun error herror => h.refuses error ?_⟩
  cases result with
  | error e =>
    cases herror
    rfl
  | ok a => cases herror

end Proceeds

/-! ## The link phase -/

theorem Sound.visitLinks (hc : supply.layout.Closed) (hs : s.Sound supply.layout)
    {ids : List LinkId} (hids : ids ⊆ supply.layout.linkIds) (now : UInt32) :
    ∃ t, ids.foldlM (fun s id => s.visitLink supply now id) s = .ok t ∧ s.Moved supply now t := by
  induction ids generalizing s with
  | nil => exact ⟨s, rfl, moved_of_content hs rfl⟩
  | cons id rest ih =>
    obtain ⟨hid, hrest⟩ := List.cons_subset.1 hids
    obtain ⟨link, hl, rfl⟩ := List.mem_map.1 hid
    have hsound := hs.attendLink hc hl now
    have hmoved : s.Moved supply now (s.attendLink supply.layout now link) := by
      refine ⟨hsound, ?_⟩
      rw [clearActive_attendLink]
      exact .single (.flow hid)
    obtain ⟨t, ht, hmoved'⟩ := ih hsound hrest
    refine ⟨t, ?_, hmoved.trans hmoved'⟩
    rw [List.foldlM_cons, visitLink_eq_ok hc hs.fits hl]
    exact ht

theorem Sound.sweepLinks (hc : supply.layout.Closed) (hs : s.Sound supply.layout) {part : Nat}
    (hlt : part < supply.layout.numParts) (now : UInt32) :
    ∃ links t, s.sweepLinks supply part now = .ok (links, t) ∧ s.Moved supply now t := by
  have hids : Id.sort (s.traffic.activeLinks.ids part) ⊆ supply.layout.linkIds :=
    fun _ hid => hs.links part (mem_sortBy.1 hid)
  have htaken : s.Moved supply now (s.takeLinks part) :=
    moved_of_content (hs.takeLinks part) (clearActive_takeLinks s part)
  obtain ⟨t, ht, hmoved⟩ := htaken.sound.visitLinks hc hids now
  refine ⟨(Id.sort (s.traffic.activeLinks.ids part)).length, t, ?_, htaken.trans hmoved⟩
  rw [Loading.sweepLinks, ActiveSets.take_eq_ok (hs.fits.length_activeLinks ▸ hlt)]
  simp only [Except.bind]
  rw [← Loading.takeLinks, ht]
  rfl

theorem Sound.linkPhase (hc : engine.supply.layout.Closed) (hs : s.Sound engine.supply.layout)
    {parts : List Nat} (hlt : ∀ part ∈ parts, part < engine.supply.layout.numParts)
    (now : UInt32) :
    ∃ links t, engine.linkPhase s now parts = .ok (links, t) ∧ s.Moved engine.supply now t := by
  induction parts generalizing s with
  | nil => exact ⟨0, s, rfl, moved_of_content hs rfl⟩
  | cons part rest ih =>
    obtain ⟨hpart, hrest⟩ := List.forall_mem_cons.1 hlt
    obtain ⟨links, t, ht, hmoved⟩ := hs.sweepLinks hc hpart now
    obtain ⟨more, u, hu, hmoved'⟩ := ih hmoved.sound hrest
    refine ⟨links + more, u, ?_, hmoved.trans hmoved'⟩
    simp only [Engine.linkPhase, ht, Except.bind, hu, Except.map]

/-! ## The node phase -/

theorem moved_cross (hc : supply.layout.Closed) (hs : s.Sound supply.layout) {node : Junction}
    (hn : node ∈ supply.layout.junctions) {inLink : LinkId} (hin : inLink ∈ node.inLinks)
    {agent : Agent} (hwaits : agent ∈ (s.queue inLink).toLeave) (now : UInt32) :
    s.Moved supply now (s.cross supply.layout now (supply.crossing node now inLink agent)) := by
  refine ⟨hs.cross hc now _, ?_⟩
  rw [clearActive_cross]
  refine .single (.pass hn hin ?_)
  rwa [queue_clearActive, LinkQueue.toLeave_unmarked]

/-- However many agents are asked for, those whom a node takes from a link wait there. -/
theorem Sound.drain (hc : supply.layout.Closed) (hs : s.Sound supply.layout) {node : Junction}
    (hn : node ∈ supply.layout.junctions) {inLink : LinkId} (hin : inLink ∈ node.inLinks)
    (now : UInt32) (count : Nat) :
    ∃ taken t, s.drain supply node inLink now count = .ok (taken, t) ∧
      s.Proceeds supply now taken t := by
  induction count generalizing s with
  | zero => exact ⟨.ok 0, s, rfl, (moved_of_content hs rfl).proceeds 0⟩
  | succ count ih =>
    cases hq : (s.queue inLink).toLeave with
    | nil =>
      refine ⟨.ok 0, s, ?_, (moved_of_content hs rfl).proceeds 0⟩
      simp only [Loading.drain, pull, hq]
    | cons agent rest =>
      have hwaits : agent ∈ (s.queue inLink).toLeave := hq ▸ List.mem_cons_self
      have hmoved := moved_cross hc hs hn hin hwaits now
      obtain ⟨taken, t, ht, hproceeds⟩ := ih hmoved.sound
      simp only [Loading.drain, pull_eq_some hq, moveOver_eq_ok hc hs.fits, Except.bind]
      cases herror : (supply.crossing node now inLink agent).error? with
      | some error =>
        refine ⟨.error error, _, rfl, hmoved, ?_⟩
        -- The motions so far end in the state in which this agent is refused.
        rintro _ ⟨⟩
        exact ⟨s, moved_of_content hs rfl, node, hn, inLink, hin, agent, hwaits, herror⟩
      | none =>
        exact ⟨taken.map (· + 1), t, by simp only [ht, Except.map], hmoved.extend (hproceeds.map _)⟩

theorem Sound.drainAll (hc : supply.layout.Closed) (hs : s.Sound supply.layout) {node : Junction}
    (hn : node ∈ supply.layout.junctions) {links : List LinkId} (hsub : links ⊆ node.inLinks)
    (now : UInt32) :
    ∃ taken t, s.drainAll supply node now links = .ok (taken, t) ∧
      s.Proceeds supply now taken t := by
  induction links generalizing s with
  | nil => exact ⟨.ok 0, s, rfl, (moved_of_content hs rfl).proceeds 0⟩
  | cons inLink rest ih =>
    obtain ⟨hin, hrest⟩ := List.cons_subset.1 hsub
    obtain ⟨link, hl, rfl⟩ := List.mem_map.1 (hc.mem_linkIds_of_mem_inLinks hn hin)
    obtain ⟨taken, t, ht, hproceeds⟩ := hs.drain hc hn hin now (s.queue link.id).toLeave.length
    obtain ⟨more, u, hu, hproceeds'⟩ := ih hproceeds.moved.sound hrest
    simp only [Loading.drainAll, hc.link_eq hl, Except.bind, ht]
    -- A failure on one link ends the node; the links behind it keep their agents.
    cases taken with
    | error error => exact ⟨.error error, t, rfl, hproceeds⟩
    | ok taken =>
      exact ⟨more.map (taken + ·), u, by simp only [hu, Except.map],
        hproceeds.moved.extend (hproceeds'.map _)⟩

theorem Sound.visitNode (hc : supply.layout.Closed) (hs : s.Sound supply.layout)
    {node : Junction} (hn : node ∈ supply.layout.junctions) (now : UInt32) :
    ∃ moved t, s.visitNode supply now node.id = .ok (moved, t) ∧ s.Proceeds supply now moved t := by
  -- The mark is cleared before anybody is pulled, and set again only if somebody moved.
  have hunmarked : s.Moved supply now (s.deactivateNode node.id) :=
    moved_of_content (hs.markNode node.id false) (clearActive_markNode s node.id false)
  obtain ⟨taken, t, ht, hproceeds⟩ :=
    hunmarked.sound.drainAll hc hn (List.Subset.refl node.inLinks) now
  have hboth := hunmarked.extend hproceeds
  simp only [Loading.visitNode, hc.junction_eq hn, Except.bind, advanceNode, ht]
  cases taken with
  | error error => exact ⟨.error error, t, rfl, hboth⟩
  | ok taken =>
    dsimp only
    split
    · have hwoken : t.Moved supply now (t.wakeNode node) :=
        moved_of_content (hboth.moved.sound.wakeNode hc hn) (clearActive_wakeNode t node)
      refine ⟨.ok taken, t.wakeNode node, ?_, (hboth.moved.trans hwoken).proceeds taken⟩
      simp only [activateNode_eq_ok hc hboth.moved.sound.fits hn, Except.map]
    · exact ⟨.ok 0, t, rfl, hboth.moved.proceeds 0⟩

theorem Sound.visitNodes (hc : supply.layout.Closed) (hs : s.Sound supply.layout)
    {ids : List NodeId} (hids : ids ⊆ supply.layout.nodeIds) (now : UInt32) :
    ∃ moved t, s.visitNodes supply now ids = .ok (moved, t) ∧ s.Proceeds supply now moved t := by
  induction ids generalizing s with
  | nil => exact ⟨.ok 0, s, rfl, (moved_of_content hs rfl).proceeds 0⟩
  | cons id rest ih =>
    obtain ⟨hid, hrest⟩ := List.cons_subset.1 hids
    obtain ⟨node, hn, rfl⟩ := List.mem_map.1 hid
    obtain ⟨moved, t, ht, hproceeds⟩ := hs.visitNode hc hn now
    obtain ⟨more, u, hu, hproceeds'⟩ := ih hproceeds.moved.sound hrest
    simp only [Loading.visitNodes, ht, Except.bind]
    cases moved with
    | error error => exact ⟨.error error, t, rfl, hproceeds⟩
    | ok moved =>
      exact ⟨more.map (moved + ·), u, by simp only [hu, Except.map],
        hproceeds.moved.extend (hproceeds'.map _)⟩

theorem Sound.sweepNodes (hc : supply.layout.Closed) (hs : s.Sound supply.layout) {part : Nat}
    (hlt : part < supply.layout.numParts) (now : UInt32) :
    ∃ moved t, s.sweepNodes supply part now = .ok (moved, t) ∧ s.Proceeds supply now moved t := by
  have hids : Id.sort (s.traffic.activeNodes.ids part) ⊆ supply.layout.nodeIds :=
    fun _ hid => hs.nodes part (mem_sortBy.1 hid)
  have htaken : s.Moved supply now (s.takeNodes part) :=
    moved_of_content (hs.takeNodes part) (clearActive_takeNodes s part)
  obtain ⟨moved, t, ht, hproceeds⟩ := htaken.sound.visitNodes hc hids now
  refine ⟨moved.map fun agents => ((Id.sort (s.traffic.activeNodes.ids part)).length, agents), t,
    ?_, htaken.extend (hproceeds.map _)⟩
  rw [Loading.sweepNodes, ActiveSets.take_eq_ok (hs.fits.length_activeNodes ▸ hlt)]
  simp only [Except.bind]
  rw [← Loading.takeNodes, ht]
  rfl

theorem Sound.nodePhase (hc : engine.supply.layout.Closed) (hs : s.Sound engine.supply.layout)
    {parts : List Nat} (hlt : ∀ part ∈ parts, part < engine.supply.layout.numParts)
    (now : UInt32) :
    ∃ moved t, engine.nodePhase s now parts = .ok (moved, t) ∧
      s.Proceeds engine.supply now moved t := by
  induction parts generalizing s with
  | nil => exact ⟨.ok (0, 0), s, rfl, (moved_of_content hs rfl).proceeds (0, 0)⟩
  | cons part rest ih =>
    obtain ⟨hpart, hrest⟩ := List.forall_mem_cons.1 hlt
    obtain ⟨moved, t, ht, hproceeds⟩ := hs.sweepNodes hc hpart now
    obtain ⟨more, u, hu, hproceeds'⟩ := ih hproceeds.moved.sound hrest
    refine ⟨moved.bind fun x => more.map fun y => (x.1 + y.1, x.2 + y.2), u, ?_, ?_⟩
    · simp only [Engine.nodePhase, ht, Except.bind, hu, Except.map]
    · -- The first partition which fails gives the error, but all of them have their turn.
      cases moved with
      | error error =>
        refine ⟨hproceeds.moved.trans hproceeds'.moved, ?_⟩
        rintro _ ⟨⟩
        exact hproceeds.refuses error rfl
      | ok moved => exact hproceeds.moved.extend (hproceeds'.map _)

/-- A step never faults. All it does are motions, whether it fails or not, and it fails only because
someone is refused. -/
theorem Sound.stepInOrder (hc : engine.supply.layout.Closed) (hs : s.Sound engine.supply.layout)
    {orders : Orders} (ho : orders.Whole engine.supply.layout) (now : UInt32) :
    ∃ stats t, engine.stepInOrder s now orders.forLinks orders.forNodes = .ok (stats, t) ∧
      s.Proceeds engine.supply now stats t := by
  have hlt {parts : List Nat} (hp : parts.Perm (List.range engine.supply.layout.numParts)) :
      ∀ part ∈ parts, part < engine.supply.layout.numParts :=
    fun part hpart => List.mem_range.1 (hp.mem_iff.1 hpart)
  obtain ⟨links, t, ht, hmoved⟩ := hs.linkPhase hc (hlt ho.forLinks) now
  obtain ⟨moved, u, hu, hproceeds⟩ := hmoved.sound.nodePhase hc (hlt ho.forNodes) now
  refine ⟨moved.map fun x => { now, links, nodes := x.1, agents := x.2 }, u, ?_,
    hmoved.extend (hproceeds.map _)⟩
  simp only [Engine.stepInOrder, ht, Except.bind, hu, Except.map]

end Loading

end NetworkLoading
