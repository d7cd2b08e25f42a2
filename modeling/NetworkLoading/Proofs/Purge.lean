import Mathlib.Data.List.TakeWhile
import NetworkLoading.Proofs.Losses
import NetworkLoading.Proofs.Turnover

/-!
# In which order the network is emptied

When everyone who is left is removed as stuck, the links follow the order of their names. On a link
those in transit come first, in the order in which they would have left it: earlier exit times
before later ones, and among equal ones the greater name before the smaller one. Behind them come
those who wait after an activity, and then those who wait to leave.
-/

namespace NetworkLoading

/-! ## The order of those in transit -/

/-- `a` does not leave a link behind `b`: the earlier exit time decides, then the greater name. -/
def Traveller.Precedes (a b : Traveller) : Prop :=
  a.exitTime < b.exitTime ∨ a.exitTime = b.exitTime ∧ b.agent.id.name ≤ a.agent.id.name

/-- `a` leaves a link before `b`. -/
def Traveller.Leads (a b : Traveller) : Prop :=
  a.exitTime < b.exitTime ∨ a.exitTime = b.exitTime ∧ b.agent.id.name < a.agent.id.name

namespace Traveller

variable {a b c : Traveller}

/-- An order of names which counts among equal exit times passes on with them. -/
theorem exitTime_trans {r : String → String → Prop}
    (hr : ∀ {x y z}, r x y → r y z → r x z)
    (h : a.exitTime < b.exitTime ∨ a.exitTime = b.exitTime ∧ r b.agent.id.name a.agent.id.name)
    (h' : b.exitTime < c.exitTime ∨ b.exitTime = c.exitTime ∧ r c.agent.id.name b.agent.id.name) :
    a.exitTime < c.exitTime ∨ a.exitTime = c.exitTime ∧ r c.agent.id.name a.agent.id.name := by
  rcases h with h | ⟨he, hname⟩
  · rcases h' with h' | ⟨he', -⟩
    · exact .inl (UInt32.lt_trans h h')
    · exact .inl (he' ▸ h)
  · rcases h' with h' | ⟨he', hname'⟩
    · exact .inl (he ▸ h')
    · exact .inr ⟨he.trans he', hr hname' hname⟩

theorem Precedes.trans (h : a.Precedes b) (h' : b.Precedes c) : a.Precedes c :=
  exitTime_trans (r := (· ≤ ·)) String.le_trans h h'

/-- Travellers with other names do not leave in either order. -/
theorem Precedes.leads (h : a.Precedes b) (hne : a.agent.id.name ≠ b.agent.id.name) :
    a.Leads b := by
  refine h.imp_right fun ⟨he, hname⟩ => ⟨he, ?_⟩
  exact Id.name_lt_of_not_lt hne (String.not_lt.2 hname)

theorem precedes_of_before (h : a.before b)
    (hid : a.agent.id.index = b.agent.id.index → a.agent.id.name = b.agent.id.name) :
    a.Precedes b := by
  unfold before at h
  split at h
  · rename_i he
    rw [Id.before_eq fun hi => (hid hi.symm).symm] at h
    exact .inr ⟨he, String.not_lt.1 (String.lt_asymm (of_decide_eq_true h))⟩
  · exact .inl (of_decide_eq_true h)

theorem precedes_of_not_before (h : ¬ a.before b)
    (hid : a.agent.id.index = b.agent.id.index → a.agent.id.name = b.agent.id.name) :
    b.Precedes a := by
  unfold before at h
  split at h
  · rename_i he
    rw [Id.before_eq fun hi => (hid hi.symm).symm] at h
    exact .inr ⟨he.symm, String.not_lt.1 fun hlt => h (decide_eq_true hlt)⟩
  · rename_i hne
    have hle : b.exitTime ≤ a.exitTime := UInt32.not_lt.1 fun hlt => h (decide_eq_true hlt)
    exact .inl (UInt32.lt_of_le_of_ne hle fun he => hne he.symm)

end Traveller

namespace LinkQueue

variable {q : LinkQueue} {link : LinkId} {accepted : List PersonId}

/-- The queues of a link hold accepted persons only. Those in transit stand in the order in which
they leave, and those who wait after an activity in the order in which they were accepted. -/
structure Lined (accepted : List PersonId) (q : LinkQueue) : Prop where
  persons : ∀ agent ∈ q.agents, agent.id ∈ accepted
  inTransit : q.inTransit.Pairwise Traveller.Precedes
  afterActivity : (q.afterActivity.map (·.id)).Sublist accepted

theorem lined_empty (accepted : List PersonId) : Lined accepted {} :=
  ⟨nofun, .nil, List.nil_sublist _⟩

theorem lined_unmarked : Lined accepted q.unmarked ↔ Lined accepted q :=
  ⟨fun ⟨h₁, h₂, h₃⟩ => ⟨h₁, h₂, h₃⟩, fun ⟨h₁, h₂, h₃⟩ => ⟨h₁, h₂, h₃⟩⟩

/-- More persons are accepted. -/
theorem Lined.mono (h : q.Lined accepted) (more : List PersonId) : q.Lined (accepted ++ more) :=
  ⟨fun agent hagent => List.mem_append_left _ (h.persons agent hagent), h.inTransit,
    h.afterActivity.trans (List.sublist_append_left accepted more)⟩

theorem Lined.advance (h : q.Lined accepted) (link : LinkId) (now : UInt32) :
    (q.advance link now).Lined accepted := by
  refine ⟨fun agent hagent => ?_, h.inTransit.sublist (List.dropWhile_sublist _),
    List.nil_sublist _⟩
  exact h.persons agent ((q.agents_advance link now).mem_iff.2 (List.mem_append_right _ hagent))

theorem pairwise_precedes_insertTraveller {t : Traveller} {ts : List Traveller}
    (hid : ∀ u ∈ ts, u.agent.id.index = t.agent.id.index → u.agent.id.name = t.agent.id.name)
    (h : ts.Pairwise Traveller.Precedes) :
    (insertTraveller t ts).Pairwise Traveller.Precedes := by
  induction ts with
  | nil => simp [insertTraveller]
  | cons u rest ih =>
    obtain ⟨hu, hrest⟩ := List.pairwise_cons.1 h
    obtain ⟨hut, hids⟩ := List.forall_mem_cons.1 hid
    rw [insertTraveller]
    split
    · rename_i hbefore
      refine List.pairwise_cons.2 ⟨?_, ih hids hrest⟩
      intro v hv
      -- Behind the first one stand the rest and the new traveller.
      rcases List.mem_cons.1 ((insertTraveller_perm t rest).mem_iff.1 hv) with rfl | hv
      · exact Traveller.precedes_of_before hbefore hut
      · exact hu v hv
    · rename_i hbefore
      have htu : t.Precedes u := Traveller.precedes_of_not_before hbefore hut
      refine List.pairwise_cons.2 ⟨?_, h⟩
      intro v hv
      rcases List.mem_cons.1 hv with rfl | hv
      · exact htu
      · exact htu.trans (hu v hv)

/-- An accepted agent enters the link. -/
theorem Lined.enter (h : q.Lined accepted) (hids : Id.Apart accepted) {t : Traveller}
    (ht : t.agent.id ∈ accepted) : (q.enter t).Lined accepted := by
  refine ⟨fun agent hagent => ?_, pairwise_precedes_insertTraveller (fun u hu hi => ?_) h.inTransit,
    h.afterActivity⟩
  · rcases List.mem_cons.1 ((q.agents_enter t).mem_iff.1 hagent) with rfl | hagent
    · exact ht
    · exact h.persons agent hagent
  · have hagent : u.agent ∈ q.agents :=
      List.mem_append_left _ (List.mem_append_left _ (List.mem_map_of_mem hu))
    by_cases he : u.agent.id = t.agent.id
    · rw [he]
    · exact absurd hi (hids.ne (h.persons _ hagent) ht he).1

theorem Lined.depart (h : q.Lined accepted) (agent : Agent) :
    (q.depart agent).Lined (accepted ++ [agent.id]) := by
  refine ⟨fun other hother => ?_, h.inTransit, ?_⟩
  · rcases List.mem_cons.1 ((q.agents_depart agent).mem_iff.1 hother) with rfl | hother
    · exact List.mem_append_right _ (List.mem_singleton_self _)
    · exact List.mem_append_left _ (h.persons other hother)
  · simpa [LinkQueue.depart] using h.afterActivity

theorem Lined.carry (h : q.Lined accepted) (hids : Id.Apart accepted) {x : Crossing}
    (hx : x.agent.id ∈ accepted) : (x.carry link q).Lined accepted := by
  have hreleased : Lined accepted
      (if x.inLink = link then { q with toLeave := q.toLeave.erase x.agent } else q) := by
    split
    · refine ⟨fun agent hagent => h.persons agent ?_, h.inTransit, h.afterActivity⟩
      exact ((List.erase_sublist ..).append_left _).subset hagent
    · exact h
  unfold Crossing.carry
  dsimp only
  split
  · rename_i v hv
    refine hreleased.enter hids ?_
    rwa [(Crossing.turn_of_entrant hv).2]
  · exact hreleased

/-- No two agents in transit leave a link in either order if no two share an id. -/
theorem Lined.leads (h : q.Lined accepted) (hids : Id.Apart accepted)
    (hnodup : (q.inTransit.map (·.agent.id)).Nodup) : q.inTransit.Pairwise Traveller.Leads := by
  have hmem {v : Traveller} (hv : v ∈ q.inTransit) : v.agent.id ∈ accepted :=
    h.persons _ (List.mem_append_left _ (List.mem_append_left _ (List.mem_map_of_mem hv)))
  refine (h.inTransit.and (List.pairwise_map.1 hnodup)).imp_of_mem fun ha hb hab => ?_
  exact hab.1.leads (hids.ne (hmem ha) (hmem hb) hab.2).2

/-- At the latest of all times everyone in transit is due. -/
theorem due_last (q : LinkQueue) : q.due 4294967295 = q.inTransit := by
  rw [due, List.takeWhile_eq_self_iff]
  intro v _
  exact decide_eq_true (UInt32.le_iff_toNat_le.2 (Nat.le_of_lt_succ v.exitTime.toNat_lt))

theorem inTransit_advance_last (q : LinkQueue) (link : LinkId) :
    (q.advance link 4294967295).inTransit = [] := by
  have hall : (q.due 4294967295) ++ (q.advance link 4294967295).inTransit = q.inTransit :=
    List.takeWhile_append_dropWhile
  rw [due_last] at hall
  exact List.append_right_eq_self.1 hall

end LinkQueue

namespace Loading

variable {l : Layout} {s t : Loading} {accepted : List PersonId} {now : UInt32} {engine : Engine}

/-- The agents on every link are lined up. -/
def Lined (l : Layout) (accepted : List PersonId) (s : Loading) : Prop :=
  ∀ id ∈ l.linkIds, (s.queue id).Lined accepted

theorem lined_clearActive : s.clearActive.Lined l accepted ↔ s.Lined l accepted :=
  forall₂_congr fun id _ => by rw [queue_clearActive, LinkQueue.lined_unmarked]

/-- A link which is advanced to the latest of all times lets everyone in transit arrive or go on, in
the order in which they stand. -/
theorem advanceLink_last {supply : Supply} (hc : supply.layout.Closed) (hs : s.Fits supply.layout)
    {link : Link} (hl : link ∈ supply.layout.links) :
    ∃ u, s.advanceLink supply link 4294967295 = .ok (false, u) ∧
      u.record.handedOver.toList = s.record.handedOver.toList ++
        (((s.queue link.id).inTransit.map (·.agent)).filter (·.endsOn link.id)).map
          (·.arrive 4294967295) ∧
      (u.queue link.id).toLeave = (s.queue link.id).toLeave ++
        ((s.queue link.id).inTransit.map (·.agent)).filter (! ·.endsOn link.id) ++
        (s.queue link.id).afterActivity := by
  have hid : link.id ∈ supply.layout.linkIds := List.mem_map_of_mem hl
  have hqueue : (s.flow 4294967295 link.id).queue link.id = _ := queue_flow hc hs hid hid
  rw [if_pos rfl] at hqueue
  refine ⟨(s.flow 4294967295 link.id).alert supply.layout link, ?_, ?_, ?_⟩
  · rw [advanceLink_eq_ok hc hs hl, hqueue, LinkQueue.inTransit_advance_last]
    rfl
  · rw [← record_clearActive, clearActive_alert, record_clearActive, flow, arriveAll_eq,
      LinkQueue.arriving, LinkQueue.due_last]
    simp [Loading.updateQueue]
  · rw [queue_alert, hqueue, LinkQueue.advance, LinkQueue.continuing, LinkQueue.due_last]

theorem Vacant.lined (h : s.Vacant l) (accepted : List PersonId) : s.Lined l accepted := by
  intro id hid
  rw [h.queue id hid]
  exact LinkQueue.lined_empty accepted

theorem Lined.motion {supply : Supply} (hc : supply.layout.Closed) (hs : s.Fits supply.layout)
    (hids : Id.Apart accepted) (h : s.Lined supply.layout accepted)
    (hmotion : Motion supply now s t) : t.Lined supply.layout accepted := by
  intro id hid
  cases hmotion with
  | @flow link hlink =>
    rw [queue_flow hc hs hlink hid]
    split
    · exact (h id hid).advance link now
    · exact h id hid
  | @pass node inLink agent hn hin hwaits =>
    have hloaded := hc.mem_linkIds_of_mem_inLinks hn hin
    rw [queue_pass hc hs (within_crossing node hloaded now agent) hid]
    exact (h id hid).carry hids ((h inLink hloaded).persons agent (List.mem_append_right _ hwaits))

/-- Whoever lands is accepted, and stands behind all who were accepted before. -/
theorem Lined.land (hc : l.Closed) (hs : s.Fits l) (h : s.Lined l accepted) (agent : Agent)
    {x : Landing} (hx : x.Within l) (hids : Id.Apart (accepted ++ (x.transfer now agent).persons)) :
    (s.land l now agent x).Lined l (accepted ++ (x.transfer now agent).persons) := by
  intro id hid
  rw [← LinkQueue.lined_unmarked, queue_land hc hs agent hx hid, LinkQueue.lined_unmarked]
  unfold Landing.fill
  cases x with
  | refused error => exact (h id hid).mono _
  | arrives => exact (h id hid).mono _
  | waits link =>
    dsimp only
    split
    · exact (h id hid).depart agent
    · exact (h id hid).mono _
  -- Only an entrant has to find its place, so only here the persons matter.
  | enters link exitTime =>
    dsimp only
    split
    · exact ((h id hid).mono _).enter hids
        (List.mem_append_right _ (List.mem_singleton_self agent.id))
    · exact (h id hid).mono _

theorem Lined.performs {call : Call} {answer : Answer} (hc : engine.supply.layout.Closed)
    (hs : s.Sound engine.supply.layout) (h : s.Lined engine.supply.layout accepted)
    (hperforms : engine.Performs s call answer t)
    (hids : Id.Apart (accepted ++ Stage.accepted ⟨s, call, answer, t⟩)) :
    t.Lined engine.supply.layout (accepted ++ Stage.accepted ⟨s, call, answer, t⟩) := by
  cases hperforms with
  | land hlands =>
    rw [← hlands.persons_transfer] at hids ⊢
    exact h.land hc hs.fits _ hlands.within hids
  | step hmoved =>
    refine hmoved.keeps hs.fits (fun _ => lined_clearActive) (fun id hid => (h id hid).mono _) ?_
    intro s t hs h hmotion
    exact h.motion hc hs hids hmotion
  | finish hemptied => exact hemptied.vacant.lined _
  | reset hemptied => exact hemptied.vacant.lined _

/-! ## Emptying -/

/-- Everyone on the network is removed as stuck, once each, and counted as lost. -/
structure Loses (l : Layout) (now : UInt32) (s : Loading) (stuck : List (LinkId × Agent))
    (t : Loading) : Prop where
  counted : s.traffic.onNetwork = UInt64.ofNat stuck.length
  once : (stuck.map (·.2.id)).Nodup
  events : t.record.events.toList =
    s.record.events.toList ++ stuck.map fun x => .stuck now x.1 x.2.id (some x.2.mode)
  handedOver : t.record.handedOver.toList =
    s.record.handedOver.toList ++ stuck.map fun x => { x.2 with state := .aborted now }
  living : t.record.population.living = s.record.population.living - Int64.ofNat stuck.length
  lost : t.record.population.lost = s.record.population.lost + Int64.ofNat stuck.length
  nobody : t.traffic.onNetwork = 0
  queue : ∀ id ∈ l.linkIds, t.queue id = {}

/-- Those in transit on a link, in the order in which the link lets them arrive or go on when it is
advanced to the latest of all times. -/
structure LastOut (supply : Supply) (s : Loading) (link : Link) (taken : List Traveller) :
    Prop where
  inTransit : taken.Perm (s.queue link.id).inTransit
  ordered : taken.Pairwise Traveller.Leads
  advance : ∃ u, s.advanceLink supply link 4294967295 = .ok (false, u) ∧
    u.record.handedOver.toList = s.record.handedOver.toList ++
      ((taken.map (·.agent)).filter (·.endsOn link.id)).map (·.arrive 4294967295) ∧
    (u.queue link.id).toLeave = (s.queue link.id).toLeave ++
      (taken.map (·.agent)).filter (! ·.endsOn link.id) ++ (s.queue link.id).afterActivity

/-- The order in which agents are removed. The links follow the order of their names. On a link
those in transit come first, in the order in which they would have left it; then those who wait
after an activity, in the order in which they were accepted; then those who wait to leave. -/
def RemovalOrder (supply : Supply) (accepted : List PersonId) (s : Loading)
    (stuck : List (LinkId × Agent)) : Prop :=
  ∃ (links : List LinkId) (taken : LinkId → List Traveller),
    links.Perm supply.layout.linkIds ∧ links.Pairwise (fun a b => a.name < b.name) ∧
    (∀ link ∈ supply.layout.links, s.LastOut supply link (taken link.id) ∧
      ((s.queue link.id).afterActivity.map (·.id)).Sublist accepted) ∧
    stuck = links.flatMap fun id => ((taken id).map (·.agent) ++ (s.queue id).afterActivity ++
      (s.queue id).toLeave).map (id, ·)

theorem Emptied.loses {dropped : List PersonId}
    (h : s.Emptied l (s.record.lose now (s.everyone l)) t) (hs : s.Balances l accepted dropped)
    (hdistinct : s.Distinct l) : s.Loses l now (s.everyone l) t := by
  obtain ⟨hpopulation, hevents, hhanded⟩ := Record.silent_iff.1 h.record
  refine ⟨hs.onNetwork, hdistinct, ?_, ?_, ?_, ?_, ?_, h.vacant.queue⟩
  · simp [hevents, Record.lose]
  · simp [hhanded, Record.lose, Agent.abort]
  · rw [hpopulation, Record.lose, Population.living_lose_iterate]
  · rw [hpopulation, Record.lose, Population.lost_lose_iterate]
  · rw [h.onNetwork, hs.onNetwork, UInt64.sub_self]

theorem Lined.removalOrder {supply : Supply} (hc : supply.layout.Closed)
    (hs : s.Fits supply.layout) (h : s.Lined supply.layout accepted) (hids : Id.Apart accepted)
    (hdistinct : s.Distinct supply.layout) :
    s.RemovalOrder supply accepted (s.everyone supply.layout) := by
  refine ⟨Id.sort supply.layout.linkIds, fun id => (s.queue id).inTransit, sortBy_perm _ _,
    Id.ascending_sort hc.links_apart, ?_, rfl⟩
  intro link hl
  have hid : link.id ∈ supply.layout.linkIds := List.mem_map_of_mem hl
  have hline := h link.id hid
  exact ⟨⟨.refl _, hline.leads hids (hdistinct.nodup_inTransit hid), advanceLink_last hc hs hl⟩,
    hline.afterActivity⟩

end Loading

namespace Engine.Runs

variable {engine : Engine} {population : Population} {stages : List Stage} {s : Loading}

theorem lined (hc : engine.supply.layout.Closed)
    (h : engine.Runs (.empty engine.supply.layout population) stages s)
    (hids : Id.Apart (stages.flatMap (·.accepted))) :
    s.Lined engine.supply.layout (stages.flatMap (·.accepted)) := by
  refine induct hc (Loading.sound_empty _ _) (P := fun stages t =>
    Id.Apart (stages.flatMap (·.accepted)) →
      t.Lined engine.supply.layout (stages.flatMap (·.accepted)))
    (fun _ => (Loading.vacant_empty _ { population }).lined _) ?_ h hids
  intro stages t call answer u _ hsound hperforms ih hids
  simp only [List.flatMap_append, List.flatMap_singleton] at hids ⊢
  exact (ih (hids.sublist (List.sublist_append_left _ _))).performs hc hsound hperforms hids

/-- After any calls, among them steps which failed, emptying the network removes everyone who is on
it, and yields how many they are. -/
theorem finish_in_order (hb : engine.Constructed)
    (h : engine.Runs (.empty engine.supply.layout population) stages s)
    (hids : Id.Apart (stages.flatMap (·.accepted))) (now : UInt32) :
    ∃ stuck t, Engine.finish s now = (stuck.length, t) ∧
      s.Loses engine.supply.layout now stuck t ∧
      s.RemovalOrder engine.supply (stages.flatMap (·.accepted)) stuck := by
  have hc := hb.closed
  have hfits := (h.sound hc (Loading.sound_empty _ _)).fits
  have hdistinct := (h.balances hc).distinct hids.nodup
  obtain ⟨t, ht, hemptied⟩ := Loading.emptied_finish hc hfits now
  exact ⟨_, t, ht, hemptied.loses (h.balances hc) hdistinct,
    (h.lined hc hids).removalOrder hc hfits hids hdistinct⟩

/-- Three agents who are left behind by a step which failed and by departures. -/
theorem finish_in_order_mixed : ∃ stages s stuck t,
    Sample.mixedEngine.Runs (.empty Sample.mixedEngine.supply.layout ⟨4, 0⟩) stages s ∧
    stages.map (·.answer.failed) = [false, false, true, false, false] ∧
    (s.everyone Sample.mixedEngine.supply.layout).length = 3 ∧
    Engine.finish s 9 = (stuck.length, t) ∧
    s.Loses Sample.mixedEngine.supply.layout 9 stuck t ∧
    s.RemovalOrder Sample.mixedEngine.supply
      [Sample.ann, Sample.ben, Sample.cleo, Sample.dora] stuck := by
  obtain ⟨stages, s, h, hfailed, haccepted, hplaces⟩ := Sample.runs_mixedEngine
  have hids : Id.Apart (stages.flatMap (·.accepted)) := by
    rw [haccepted]
    simp [Id.Apart, Sample.ann, Sample.ben, Sample.cleo, Sample.dora]
  obtain ⟨stuck, t, ht, hloses, horder⟩ :=
    finish_in_order Sample.constructed_mixedEngine h hids 9
  have hlength := congrArg List.length hplaces
  rw [List.length_map] at hlength
  exact ⟨stages, s, stuck, t, h, hfailed, hlength, ht, hloses, haccepted ▸ horder⟩

end Engine.Runs

end NetworkLoading
