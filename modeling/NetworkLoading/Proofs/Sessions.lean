import NetworkLoading.Proofs.Conservation
import NetworkLoading.Proofs.Records

/-!
# Sessions

In a session an engine is called again and again, whatever it answers. If the engine was
constructed, no session faults. What a session is answered and what it adds to the record depends on
the traffic at its start only. Once the network was emptied, this is the traffic of a new engine, so
nobody can tell what happened before.
-/

namespace NetworkLoading

/-! ## Calls one after the other -/

/-- What a caller learns of a call: the answer, the events which were published and the agents who
were handed over. -/
structure Reply where
  answer : Answer
  events : List Event
  handedOver : List Agent

def Stage.reply (x : Stage) : Reply where
  answer := x.answer
  events := x.events
  handedOver := x.handedOver

/-- Makes calls one after the other. A step which failed does not end the session. -/
def Engine.session (engine : Engine) (s : Loading) :
    List (Call × Orders) → Except Fault (List Stage × Loading)
  | [] => .ok ([], s)
  | (call, orders) :: rest =>
    (engine.perform orders s call).bind fun (answer, t) =>
      (engine.session t rest).map fun (stages, u) => (⟨s, call, answer, t⟩ :: stages, u)

namespace Loading

variable {engine : Engine} {s t : Loading} {orders : Orders} {calls : List (Call × Orders)}

/-- No session faults, whatever happened before. -/
theorem Sound.session (hc : engine.supply.layout.Closed) (hs : s.Sound engine.supply.layout)
    (ho : ∀ entry ∈ calls, entry.2.Whole engine.supply.layout) :
    ∃ stages t, engine.session s calls = .ok (stages, t) ∧ engine.Runs s stages t ∧
      stages.map (·.call) = calls.map (·.1) := by
  induction calls generalizing s with
  | nil => exact ⟨[], s, rfl, .start, rfl⟩
  | cons entry rest ih =>
    obtain ⟨call, orders⟩ := entry
    obtain ⟨hfirst, hrest⟩ := List.forall_mem_cons.1 ho
    obtain ⟨answer, t, ht, hperforms⟩ := hs.perform hc hfirst call
    obtain ⟨later, u, hu, hlater, hcalls⟩ := ih (hperforms.sound hc hs) hrest
    have hone : engine.Runs s ([] ++ [⟨s, call, answer, t⟩]) t := .call .start hfirst ht
    refine ⟨⟨s, call, answer, t⟩ :: later, u, ?_, hone.trans hlater, by simp [hcalls]⟩
    simp only [Engine.session, ht, Except.bind, hu, Except.map]

/-! ## What a session depends on -/

/-- Whatever was recorded before, a call learns what it would learn if nothing had been recorded. -/
theorem Sound.perform_blank (hc : engine.supply.layout.Closed) (hs : s.Sound engine.supply.layout)
    (ho : orders.Whole engine.supply.layout) (call : Call) :
    ∃ answer t u, engine.perform orders ⟨s.traffic, .blank⟩ call = .ok (answer, t) ∧
      engine.perform orders s call = .ok (answer, u) ∧ u.traffic = t.traffic ∧
      Stage.reply ⟨s, call, answer, u⟩ =
        ⟨answer, t.record.events.toList, t.record.handedOver.toList⟩ := by
  have hblank : Sound engine.supply.layout ⟨s.traffic, .blank⟩ := hs.of_traffic_eq rfl
  obtain ⟨answer, t, ht, -⟩ := hblank.perform hc ho call
  obtain ⟨u, hu, htraffic, hrecord⟩ := Engine.perform_after s.record ht
  have hevents := congrArg (·.events.toList) hrecord
  have hhanded := congrArg (·.handedOver.toList) hrecord
  simp only [Record.silent, Record.followedBy, Array.toList_append] at hevents hhanded
  rw [after, Record.followedBy_blank] at hu
  refine ⟨answer, t, u, ht, hu, htraffic, ?_⟩
  rw [Stage.reply, Stage.events_eq hevents, Stage.handedOver_eq hhanded]

/-- Sessions which start with the same traffic learn the same. -/
theorem Sound.session_congr (hc : engine.supply.layout.Closed)
    (hs : s.Sound engine.supply.layout) (h : t.traffic = s.traffic)
    (ho : ∀ entry ∈ calls, entry.2.Whole engine.supply.layout) :
    ∃ stages u stages' u', engine.session s calls = .ok (stages, u) ∧
      engine.session t calls = .ok (stages', u') ∧
      stages'.map (·.reply) = stages.map (·.reply) ∧ u'.traffic = u.traffic := by
  induction calls generalizing s t with
  | nil => exact ⟨[], s, [], t, rfl, rfl, rfl, h⟩
  | cons entry rest ih =>
    obtain ⟨call, orders⟩ := entry
    obtain ⟨hfirst, hrest⟩ := List.forall_mem_cons.1 ho
    obtain ⟨answer, bare, u, hbare, hu, htraffic, hreply⟩ := hs.perform_blank hc hfirst call
    obtain ⟨answer', bare', v, hbare', hv, htraffic', hreply'⟩ :=
      (hs.of_traffic_eq h).perform_blank hc hfirst call
    -- Both calls are read off the same blank state, so one computation serves for both.
    rw [h, hbare] at hbare'
    cases hbare'
    have husound : u.Sound engine.supply.layout := (hs.performs hc hfirst hu).sound hc hs
    obtain ⟨stages, w, stages', w', hw, hw', hreplies, hsame⟩ :=
      ih husound (htraffic'.trans htraffic.symm) hrest
    refine ⟨⟨s, call, answer, u⟩ :: stages, w, ⟨t, call, answer, v⟩ :: stages', w', ?_, ?_, ?_,
      hsame⟩
    · simp only [Engine.session, hu, Except.bind, hw, Except.map]
    · simp only [Engine.session, hv, Except.bind, hw', Except.map]
    · rw [List.map_cons, List.map_cons, hreplies, hreply', hreply]

/-! ## Emptied networks -/

/-- Nobody who calls the engine can tell the state from that of a new one. -/
structure Fresh (engine : Engine) (s : Loading) : Prop where
  traffic : s.traffic = .empty engine.supply.layout
  session : ∀ (population : Population) (calls : List (Call × Orders)),
    (∀ entry ∈ calls, entry.2.Whole engine.supply.layout) →
    ∃ stages t stages' t', engine.session s calls = .ok (stages, t) ∧
      engine.session (.empty engine.supply.layout population) calls = .ok (stages', t') ∧
      stages.map (·.reply) = stages'.map (·.reply) ∧ t.traffic = t'.traffic

theorem fresh_of_traffic_eq (hc : engine.supply.layout.Closed)
    (h : s.traffic = .empty engine.supply.layout) : s.Fresh engine := by
  refine ⟨h, fun population calls ho => ?_⟩
  obtain ⟨stages', t', stages, t, hnew, hold, hreplies, hsame⟩ :=
    (sound_empty engine.supply.layout population).session_congr hc h ho
  exact ⟨stages, t, stages', t', hold, hnew, hreplies, hsame⟩

/-- If the network counted the agents on it, it counts nobody once they have left. -/
theorem Emptied.fresh (hc : engine.supply.layout.Closed) {record : Record}
    (h : s.Emptied engine.supply.layout record t)
    (hcount : s.traffic.onNetwork = UInt64.ofNat (s.everyone engine.supply.layout).length) :
    t.Fresh engine := by
  refine fresh_of_traffic_eq hc (h.vacant.traffic_eq ?_)
  rw [h.onNetwork, hcount]
  exact UInt64.sub_self _

end Loading

/-- Whatever happened, failed steps included: after a reset and after the end of a run the network
is that of a new engine, and no session can tell the difference. -/
theorem Engine.Runs.forgets {engine : Engine} {population : Population} {stages : List Stage}
    {s : Loading} (hb : engine.Constructed)
    (h : engine.Runs (.empty engine.supply.layout population) stages s) (now : UInt32) :
    (Engine.reset s).Fresh engine ∧ (finish s now).2.Fresh engine := by
  have hc := hb.closed
  have hfits := (h.sound hc (Loading.sound_empty _ _)).fits
  have hcount := (h.balances hc).onNetwork
  obtain ⟨t, ht, hfinished⟩ := Loading.emptied_finish hc hfits now
  refine ⟨(Loading.emptied_reset hfits).fresh hc hcount, ?_⟩
  rw [ht]
  exact hfinished.fresh hc hcount

/-- A step failed, so that agents wait for a node which is in no set, and others have departed. -/
theorem Engine.Runs.forgets_mixed : ∃ stages s,
    Sample.mixedEngine.Runs (.empty Sample.mixedEngine.supply.layout ⟨4, 0⟩) stages s ∧
    stages.map (·.answer.failed) = [false, false, true, false, false] ∧
    (s.everyone Sample.mixedEngine.supply.layout).length = 3 ∧
    (Engine.reset s).Fresh Sample.mixedEngine ∧ (finish s 9).2.Fresh Sample.mixedEngine := by
  obtain ⟨stages, s, h, hfailed, -, heveryone⟩ := Sample.runs_mixedEngine
  refine ⟨stages, s, h, hfailed, ?_, h.forgets Sample.constructed_mixedEngine 9⟩
  simpa using congrArg List.length heveryone

/-! ## Why nothing faults -/

namespace Loading

variable {supply : Supply} {s : Loading}

/-- Whatever is looked up is found: what is to be visited is loaded, so is what links and nodes
refer to, and every element has a set to which it can be added. Whoever is moved over a node comes
onto the next link of its route. -/
structure Findable (supply : Supply) (s : Loading) : Prop where
  activeLinks : ∀ part, ∀ id ∈ s.traffic.activeLinks.ids part,
    ∃ link, supply.layout.link id = .ok link
  activeNodes : ∀ part, ∀ id ∈ s.traffic.activeNodes.ids part,
    ∃ node, supply.layout.junction id = .ok node
  targets : ∀ link ∈ supply.layout.links, ∃ node, supply.layout.junction link.toNode = .ok node
  inLinks : ∀ node ∈ supply.layout.junctions, ∀ id ∈ node.inLinks,
    ∃ link, supply.layout.link id = .ok link
  linkSets : ∀ link ∈ supply.layout.links,
    ∃ ids, s.traffic.activeLinks.part link.partition.toNat = .ok ids
  nodeSets : ∀ node ∈ supply.layout.junctions,
    ∃ ids, s.traffic.activeNodes.part node.partition.toNat = .ok ids
  routes : ∀ (node : Junction) (inLink : LinkId) (agent : Agent) (link : Link),
    nextLink supply.layout node inLink agent = .ok link →
      agent.moveTo link.id = .ok () agent.proceed

theorem Sound.findable (hc : supply.layout.Closed) (hs : s.Sound supply.layout) :
    s.Findable supply := by
  -- In a sound state the active sets and the in-links hold ids of the layout only.
  have hlink {id : LinkId} (hid : id ∈ supply.layout.linkIds) :
      ∃ link, supply.layout.link id = .ok link := by
    obtain ⟨link, hl, rfl⟩ := List.mem_map.1 hid
    exact ⟨link, hc.link_eq hl⟩
  refine ⟨fun part id hid => hlink (hs.links part hid), ?_, ?_, ?_, ?_, ?_, ?_⟩
  · intro part id hid
    obtain ⟨node, hn, rfl⟩ := List.mem_map.1 (hs.nodes part hid)
    exact ⟨node, hc.junction_eq hn⟩
  · intro link hl
    obtain ⟨node, hn, hid, -⟩ := hc.target link hl
    exact ⟨node, hid ▸ hc.junction_eq hn⟩
  · exact fun node hn id hid => hlink (hc.mem_linkIds_of_mem_inLinks hn hid)
  · intro link hl
    exact ⟨_, ActiveSets.part_eq_ok (hs.fits.length_activeLinks ▸ hc.link_part_lt hl)⟩
  · intro node hn
    exact ⟨_, ActiveSets.part_eq_ok (hs.fits.length_activeNodes ▸ hc.part_lt node hn)⟩
  · intro node inLink agent link hnext
    exact Agent.moveTo_next? (nextLink_eq_ok hnext).2.1

end Loading

/-- No session with an engine that was constructed faults, whoever is put onto whatever link, and
whatever is looked up afterwards is found. -/
theorem Engine.Constructed.never_faults {engine : Engine} (hb : engine.Constructed)
    (population : Population) {calls : List (Call × Orders)}
    (ho : ∀ entry ∈ calls, entry.2.Whole engine.supply.layout) :
    ∃ stages s,
      engine.session (.empty engine.supply.layout population) calls = .ok (stages, s) ∧
      stages.map (·.call) = calls.map (·.1) ∧ s.Findable engine.supply := by
  have hc := hb.closed
  have hempty := Loading.sound_empty engine.supply.layout population
  obtain ⟨stages, s, hs, hruns, hcalls⟩ := hempty.session hc ho
  exact ⟨stages, s, hs, hcalls, (hruns.sound hc hempty).findable hc⟩

/-- Two agents fail a step, and the session goes on. -/
theorem Engine.Constructed.never_faults_ring : ∃ stages s,
    Sample.ringEngine.session (.empty Sample.ringEngine.supply.layout ⟨2, 0⟩)
      (Sample.strayCalls [Sample.ann, Sample.ben] (.ascending Sample.ringEngine.supply.layout)) =
        .ok (stages, s) ∧
    stages.map (·.answer.failed) = [false, false, true, false] ∧
    s.Findable Sample.ringEngine.supply := by
  have hwhole := Orders.whole_ascending Sample.ringEngine.supply.layout
  obtain ⟨stages, s, hs, -, hfindable⟩ := Sample.constructed_ringEngine.never_faults ⟨2, 0⟩
    (Sample.whole_strayCalls hwhole)
  refine ⟨stages, s, hs, ?_, hfindable⟩
  cases hs
  rfl

end NetworkLoading
