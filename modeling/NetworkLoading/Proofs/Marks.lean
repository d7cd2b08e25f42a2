import NetworkLoading.Proofs.Calls

/-!
# What is marked

In every state to which calls lead, the marks, the active sets and the agents on the network tell
the same: a link is marked if agents are in transit on it or wait there after an activity, and a
node is marked if it took an agent from one of its links in the last step, unless the network was
emptied since.
-/

namespace NetworkLoading

/-! ## Who took agents -/

/-- The call makes a step or empties the network. -/
def Call.isRound : Call → Bool
  | .step _ | .finish _ | .reset => true
  | .depart .. | .enter .. => false

/-- The events tell that an agent left one of the links that lead to a node. -/
def Junction.Pulled (node : Junction) (events : List Event) : Prop :=
  ∃ e ∈ events, e.kind = .left ∧ e.link ∈ node.inLinks

/-- The last call which made a step or emptied the network made a step, and in this step the node
took an agent from one of its links. -/
def Junction.PulledLast (node : Junction) (history : List (Call × List Event)) : Prop :=
  ∃ now events, history.find? (·.1.isRound) = some (.step now, events) ∧ node.Pulled events

namespace Junction

variable {node : Junction} {history : List (Call × List Event)} {events : List Event}

theorem pulledLast_step {now : UInt32} :
    node.PulledLast ((.step now, events) :: history) ↔ node.Pulled events := by
  constructor
  · rintro ⟨other, others, hfind, hpulled⟩
    cases hfind
    exact hpulled
  · exact fun hpulled => ⟨now, events, rfl, hpulled⟩

/-- Agents who come onto the network change nothing. -/
theorem pulledLast_cons {call : Call} (h : call.isRound = false) :
    node.PulledLast ((call, events) :: history) ↔ node.PulledLast history := by
  unfold PulledLast
  rw [List.find?_cons_of_neg (by simp [h])]

theorem not_pulledLast_nil : ¬ node.PulledLast [] := by
  rintro ⟨now, events, hfind, -⟩
  cases hfind

theorem not_pulledLast_finish {now : UInt32} :
    ¬ node.PulledLast ((.finish now, events) :: history) := by
  rintro ⟨other, others, hfind, -⟩
  cases hfind

theorem not_pulledLast_reset : ¬ node.PulledLast ((.reset, events) :: history) := by
  rintro ⟨other, others, hfind, -⟩
  cases hfind

end Junction

namespace Crossing

variable {now : UInt32} {x : Crossing}

theorem left_mem_events (now : UInt32) (x : Crossing) :
    Event.left now x.inLink x.agent.id ∈ x.events now := by
  unfold events
  cases x.turn <;> exact List.mem_cons_self

theorem link_of_left {e : Event} (he : e ∈ x.events now) (hleft : e.kind = .left) :
    e.link = x.inLink := by
  -- Whatever the turn is, the first event is the agent leaving and no other is.
  have hcases : e = .left now x.inLink x.agent.id ∨ e.kind ≠ .left := by
    unfold events at he
    cases hturn : x.turn with
    | onto link exitTime =>
      rw [hturn] at he
      rcases List.mem_cons.1 he with rfl | he
      · exact .inl rfl
      · rw [List.mem_singleton.1 he]
        exact .inr nofun
    | lost error =>
      rw [hturn] at he
      rcases List.mem_cons.1 he with rfl | he
      · exact .inl rfl
      · rw [List.mem_singleton.1 he]
        exact .inr nofun
    | refused link error =>
      rw [hturn] at he
      rcases List.mem_cons.1 he with rfl | he
      · exact .inl rfl
      · rw [List.mem_singleton.1 he]
        exact .inr nofun
  rcases hcases with rfl | hne
  · rfl
  · exact absurd hleft hne

end Crossing

namespace Loading

variable {s t : Loading} {now : UInt32} {engine : Engine}

/-- A node took agents from its links if and only if events tell so. -/
theorem pulled_iff_moves (hc : engine.supply.layout.Closed) {parts : List Nat}
    (hp : parts.Perm (List.range engine.supply.layout.numParts)) {node : Junction}
    (hn : node ∈ engine.supply.layout.junctions) :
    node.Pulled ((s.allMoves engine.supply now parts).flatMap (·.events now)) ↔
      s.moves engine.supply now node.id ≠ [] := by
  constructor
  · rintro ⟨e, he, hleft, hin⟩
    obtain ⟨x, hx, he⟩ := List.mem_flatMap.1 he
    rw [Crossing.link_of_left he hleft] at hin
    obtain ⟨id, -, hx⟩ := List.mem_flatMap.1 hx
    -- The link in the event tells which node it was, as it leads to one node only.
    obtain ⟨other, hother, rfl, hcross⟩ := mem_moves hx
    obtain rfl := hc.inLinks_disjoint hother hn (inLink_mem_of_mem_crossingsFrom hcross) hin
    exact List.ne_nil_of_mem hx
  · intro hne
    obtain ⟨x, hx⟩ := List.exists_mem_of_ne_nil _ hne
    have hcross : x ∈ s.crossings engine.supply now node := moves_eq hc hn ▸ hx
    have hid : node.id ∈ parts.flatMap engine.supply.layout.nodeTour :=
      (hc.nodeTours_perm hp).mem_iff.2 (List.mem_map_of_mem hn)
    refine ⟨.left now x.inLink x.agent.id, ?_, rfl, inLink_mem_of_mem_crossingsFrom hcross⟩
    exact List.mem_flatMap.2 ⟨x, List.mem_flatMap.2 ⟨node.id, hid, hx⟩, x.left_mem_events now⟩

/-- A node is marked if and only if it took agents in the last step, unless the network was emptied
since. -/
theorem nodeActive_iff (hc : engine.supply.layout.Closed) {history : List (Call × List Event)}
    (h : engine.Reaches history s) {node : Junction} (hn : node ∈ engine.supply.layout.junctions) :
    s.nodeActive node.id = true ↔ node.PulledLast history := by
  have hid : node.id ∈ engine.supply.layout.nodeIds := List.mem_map_of_mem hn
  -- Along the history: calls which bring agents leave both sides alone, the others set both.
  induction h with
  | start record =>
    rw [(vacant_empty engine.supply.layout record).marks node.id hid]
    exact iff_of_false nofun Junction.not_pulledLast_nil
  | @call history s t answer orders call hreach hwhole hcall hok ih =>
    have hsettled := hreach.settled hc
    cases call with
    | depart agent link now =>
      simp only [Engine.perform, depart_eq_ok hc hsettled.fits, Except.map] at hcall
      cases hcall
      rw [(record_land hc s agent (within_departing agent link) now).2.2]
      exact ih.trans (Junction.pulledLast_cons rfl).symm
    | enter agent link now =>
      simp only [Engine.perform, enter_eq_ok hc hsettled.fits, Except.map] at hcall
      cases hcall
      rw [(record_land hc s agent (within_entering agent link now) now).2.2]
      exact ih.trans (Junction.pulledLast_cons rfl).symm
    | step now =>
      obtain ⟨stats, u, hu, -, -, hstep⟩ :=
        hsettled.stepInOrder hc hwhole.forLinks hwhole.forNodes now
      simp only [Engine.perform, hu, Except.map] at hcall
      cases hcall
      cases stats with
      | error error => cases hok
      | ok counts =>
        have hstepped := hstep counts rfl
        -- What the step adds to the record are the events of its crossings.
        have hevents := hstepped.events hc hsettled hwhole.forLinks
        rw [hstepped.marks node.id hid, hevents, ← Array.length_toList, List.drop_left,
          Junction.pulledLast_step, pulled_iff_moves hc hwhole.forNodes hn]
        simp
    | finish now =>
      obtain ⟨u, hu, hvacant, -⟩ := finish_eq hc hsettled.fits now
      simp only [Engine.perform, hu] at hcall
      cases hcall
      rw [hvacant.marks node.id hid]
      exact iff_of_false nofun Junction.not_pulledLast_finish
    | reset =>
      simp only [Engine.perform] at hcall
      cases hcall
      rw [(reset_eq hsettled.fits).1.marks node.id hid]
      exact iff_of_false nofun Junction.not_pulledLast_reset

/-! ## Marks and active sets -/

/-- The mark of a link agrees with the active sets and with the agents on the link. -/
structure ExactLink (s : Loading) (link : Link) : Prop where
  own : (s.queue link.id).active = true ↔
    link.id ∈ s.traffic.activeLinks.ids link.partition.toNat
  others : ∀ part, link.id ∈ s.traffic.activeLinks.ids part → part = link.partition.toNat
  busy : (s.queue link.id).active = true ↔
    (s.queue link.id).inTransit ≠ [] ∨ (s.queue link.id).afterActivity ≠ []
  quiet : (s.queue link.id).toLeave = []

/-- The mark of a node agrees with the active sets and with what the node did last. -/
structure ExactNode (history : List (Call × List Event)) (s : Loading) (node : Junction) :
    Prop where
  own : s.nodeActive node.id = true ↔
    node.id ∈ s.traffic.activeNodes.ids node.partition.toNat
  others : ∀ part, node.id ∈ s.traffic.activeNodes.ids part → part = node.partition.toNat
  pulled : s.nodeActive node.id = true ↔ node.PulledLast history

/-- In every state to which calls lead, all marks are exact. -/
theorem marks_exact (hb : engine.Constructed) {history : List (Call × List Event)}
    (h : engine.Reaches history s) :
    (∀ link ∈ engine.supply.layout.links, s.ExactLink link) ∧
      ∀ node ∈ engine.supply.layout.junctions, s.ExactNode history node := by
  have hc := hb.closed
  have hsettled := h.settled hc
  refine ⟨?_, ?_⟩
  · intro link hl
    have hid : link.id ∈ engine.supply.layout.linkIds := List.mem_map_of_mem hl
    -- The sets are kept per partition; a link is only ever in that of its own.
    have hmem (part : Nat) : link.id ∈ s.traffic.activeLinks.ids part ↔
        link.partition.toNat = part ∧ (s.queue link.id).active = true := by
      rw [hsettled.links.mem, hc.linkHome_eq hl]
      simp [hid]
    refine ⟨by simp [hmem], fun part hpart => ((hmem part).1 hpart).1.symm, ?_,
      hsettled.quiet link.id hid⟩
    rw [hsettled.live link.id hid, LinkQueue.busy_eq_true]
  · intro node hn
    have hid : node.id ∈ engine.supply.layout.nodeIds := List.mem_map_of_mem hn
    have hmem (part : Nat) : node.id ∈ s.traffic.activeNodes.ids part ↔
        node.partition.toNat = part ∧ s.nodeActive node.id = true := by
      rw [hsettled.nodes.mem, hc.nodeHome_eq hn]
      simp [hid]
    exact ⟨by simp [hmem], fun part hpart => ((hmem part).1 hpart).1.symm,
      nodeActive_iff hc h hn⟩

theorem marks_exact_sample : ∃ (history : List (Call × List Event)) (s : Loading),
    Sample.engine.Reaches history s ∧ s.nodeActive Sample.yard = true ∧
      (∀ link ∈ Sample.engine.supply.layout.links, s.ExactLink link) ∧
        ∀ node ∈ Sample.engine.supply.layout.junctions, s.ExactNode history node := by
  obtain ⟨history, s, h, hnode, -⟩ := Sample.reaches_engine
  exact ⟨history, s, h, hnode, marks_exact Sample.constructed_engine h⟩

end Loading

end NetworkLoading
