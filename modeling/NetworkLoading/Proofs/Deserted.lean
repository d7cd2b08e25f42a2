import NetworkLoading.Proofs.Conservation

/-!
# Networks without agents

While nobody is on the network, no time step does anything that is recorded, whatever is still
marked, and no time step fails. The same is true of all calls which put nobody onto the network.
-/

namespace NetworkLoading

/-! ## Calls which bring nobody -/

/-- Whether the agent is given back. -/
def Landing.isRefused : Landing → Bool
  | refused _ => true
  | arrives | waits _ | enters .. => false

/-- Whether the engine takes over an agent in a call. -/
def Engine.admits (engine : Engine) : Call → Bool
  | .depart agent link _ => !(engine.departing agent link).isRefused
  | .enter agent link now => !(engine.entering agent link now).isRefused
  | .step _ | .finish _ | .reset => false

theorem Engine.Lands.exists_refused {engine : Engine} {agent : Agent} {now : UInt32} {x : Landing}
    {call : Call} {answer : Answer} (h : engine.Lands agent now x call answer)
    (hnot : engine.admits call = false) : ∃ error, x = .refused error := by
  have hrefused : x.isRefused = true := by
    cases h <;> simpa [admits] using hnot
  cases x with
  | refused error => exact ⟨error, rfl⟩
  | arrives => cases hrefused
  | waits link => cases hrefused
  | enters link exitTime => cases hrefused

namespace Loading

variable {l : Layout} {s t : Loading} {r : Record} {now : UInt32} {supply : Supply}
  {engine : Engine}

/-! ## States -/

theorem everyone_of_traffic_eq (l : Layout) (h : t.traffic = s.traffic) :
    t.everyone l = s.everyone l := by
  simp only [everyone, stranded, queue, h]

/-- Nobody is on the network, nobody is counted there, and no more than `r` was recorded, apart from
messages. -/
structure Deserted (l : Layout) (r : Record) (s : Loading) : Prop where
  sound : s.Sound l
  nobody : s.everyone l = []
  onNetwork : s.traffic.onNetwork = 0
  record : s.record.silent = r

theorem Deserted.of_resembles (h : s.Deserted l r) (ht : s.Resembles t) : t.Deserted l r :=
  ⟨h.sound.of_traffic_eq ht.traffic, (everyone_of_traffic_eq l ht.traffic).trans h.nobody,
    ht.traffic ▸ h.onNetwork, ht.record.trans h.record⟩

/-- Everyone on the network is counted there. -/
structure Counted (l : Layout) (s : Loading) : Prop where
  sound : s.Sound l
  balances : ∃ accepted dropped, s.Balances l accepted dropped

namespace Counted

theorem of_resembles (h : s.Counted l) (ht : s.Resembles t) : t.Counted l := by
  obtain ⟨accepted, dropped, hpersons, hcount⟩ := h.balances
  refine ⟨h.sound.of_traffic_eq ht.traffic, accepted, dropped, ?_, ?_⟩
  · rwa [everyone_of_traffic_eq l ht.traffic, (Record.silent_iff.1 ht.record).2.2]
  · rwa [everyone_of_traffic_eq l ht.traffic, ht.traffic]

theorem of_step (hc : engine.supply.layout.Closed) (h : s.Counted engine.supply.layout)
    {result : Except LoadingError StepStats} (hstep : engine.step s now = .ok (result, t)) :
    t.Counted engine.supply.layout := by
  obtain ⟨_, _, ht, hproceeds⟩ :=
    h.sound.stepInOrder hc (Orders.whole_ascending engine.supply.layout) now
  cases hstep.symm.trans ht
  obtain ⟨accepted, dropped, hbalances⟩ := h.balances
  exact ⟨hproceeds.moved.sound, accepted, dropped, hbalances.moved hc h.sound.fits hproceeds.moved⟩

/-- The counter wraps around, so it tells that the network is empty only if there are not too many
agents. -/
theorem deserted (h : s.Counted l) (hcount : s.traffic.onNetwork = 0)
    (hfew : (s.everyone l).length < UInt64.size) : s.Deserted l s.record.silent := by
  obtain ⟨accepted, dropped, hbalances⟩ := h.balances
  refine ⟨h.sound, List.length_eq_zero_iff.1 ?_, hcount, rfl⟩
  have hsame := congrArg UInt64.toNat (hcount.symm.trans hbalances.onNetwork)
  rw [UInt64.toNat_ofNat', Nat.mod_eq_of_lt hfew] at hsame
  exact hsame.symm

theorem everyone_ne_nil (h : s.Counted l) (hcount : s.traffic.onNetwork ≠ 0) :
    s.everyone l ≠ [] := by
  obtain ⟨accepted, dropped, hbalances⟩ := h.balances
  intro hnobody
  rw [hbalances.onNetwork, hnobody] at hcount
  exact hcount rfl

end Counted

/-! ## Time steps -/

theorem agents_of_nobody (hnobody : s.everyone l = []) {id : LinkId} (hid : id ∈ l.linkIds) :
    (s.queue id).agents = [] := by
  refine List.eq_nil_iff_forall_not_mem.2 fun agent hagent => ?_
  have hseat : (id, agent) ∈ s.everyone l := mem_everyone.2 ⟨hid, hagent⟩
  rw [hnobody] at hseat
  cases hseat

theorem not_mem_toLeave (hc : l.Closed) (hnobody : s.everyone l = []) {node : Junction}
    (hn : node ∈ l.junctions) {inLink : LinkId} (hin : inLink ∈ node.inLinks) (agent : Agent) :
    agent ∉ (s.queue inLink).toLeave := by
  intro hwaits
  have hmem : agent ∈ (s.queue inLink).agents := List.mem_append_right _ hwaits
  rw [agents_of_nobody hnobody (hc.mem_linkIds_of_mem_inLinks hn hin)] at hmem
  cases hmem

/-- Where nobody is, nobody moves. -/
theorem Motion.eq_self (hc : supply.layout.Closed) (hnobody : s.everyone supply.layout = [])
    (h : Motion supply now s t) : t = s := by
  cases h with
  | flow hid =>
    have hagents := agents_of_nobody hnobody hid
    simp only [LinkQueue.agents, List.append_eq_nil_iff, List.map_eq_nil_iff] at hagents
    exact flow_of_idle (LinkQueue.busy_eq_false.2 hagents.1)
  | pass hn hin hwaits => exact absurd hwaits (not_mem_toLeave hc hnobody hn hin _)

namespace Deserted

theorem moved (hc : supply.layout.Closed) (h : s.Deserted supply.layout r)
    (hmoved : s.Moved supply now t) : t.Deserted supply.layout r := by
  have hkept := hmoved.keeps h.sound.fits
    (P := fun t => t.everyone supply.layout = [] ∧ t.traffic.onNetwork = 0 ∧ t.record.silent = r)
    (fun t => by simp only [everyone_clearActive, onNetwork_clearActive, record_clearActive])
    ⟨h.nobody, h.onNetwork, h.record⟩ (fun t u _ ht hmotion => (hmotion.eq_self hc ht.1).symm ▸ ht)
  exact ⟨hmoved.sound, hkept.1, hkept.2.1, hkept.2.2⟩

/-- A time step succeeds. -/
theorem step (hc : engine.supply.layout.Closed) (h : s.Deserted engine.supply.layout r)
    (now : UInt32) :
    ∃ stats t, engine.step s now = .ok (.ok stats, t) ∧ t.Deserted engine.supply.layout r := by
  obtain ⟨result, t, ht, hproceeds⟩ :=
    h.sound.stepInOrder hc (Orders.whole_ascending engine.supply.layout) now
  cases result with
  | ok stats => exact ⟨stats, t, ht, h.moved hc hproceeds.moved⟩
  | error error =>
    -- Whoever was refused would have waited at the end of a link.
    obtain ⟨u, hu, node, hn, inLink, hin, agent, hwaits, -⟩ := hproceeds.refuses error rfl
    exact absurd hwaits (not_mem_toLeave hc (h.moved hc hu).nobody hn hin agent)

theorem of_step (hc : engine.supply.layout.Closed) (h : s.Deserted engine.supply.layout r)
    {result : Except LoadingError StepStats} (hstep : engine.step s now = .ok (result, t)) :
    (∃ stats, result = .ok stats) ∧ t.Deserted engine.supply.layout r := by
  obtain ⟨stats, u, hu, hdeserted⟩ := h.step hc now
  cases hstep.symm.trans hu
  exact ⟨⟨stats, rfl⟩, hdeserted⟩

/-! ## Calls -/

theorem emptied (h : s.Deserted l r) {record : Record} (hrecord : record.silent = r)
    (hemptied : s.Emptied l record t) : t.Deserted l r := by
  refine ⟨hemptied.vacant.settled.sound, hemptied.vacant.everyone, ?_,
    hemptied.record.trans hrecord⟩
  rw [hemptied.onNetwork, h.onNetwork, h.nobody]
  rfl

theorem lose (h : s.Deserted l r) (now : UInt32) :
    (s.record.lose now (s.everyone l)).silent = r := by
  rw [h.nobody, Record.lose_nil, h.record]

/-- At the end of a run nobody is removed, and the network is a new one. -/
theorem finish (hc : l.Closed) (h : s.Deserted l r) (now : UInt32) :
    (Engine.finish s now).2.traffic = .empty l ∧ (Engine.finish s now).2.record.silent = r := by
  obtain ⟨t, ht, hemptied⟩ := emptied_finish hc h.sound.fits now
  have hdeserted := h.emptied (h.lose now) hemptied
  rw [ht]
  exact ⟨hemptied.vacant.traffic_eq hdeserted.onNetwork, hdeserted.record⟩

theorem performs (hc : engine.supply.layout.Closed) (h : s.Deserted engine.supply.layout r)
    {call : Call} {answer : Answer} (hnot : engine.admits call = false)
    (hperforms : engine.Performs s call answer t) : t.Deserted engine.supply.layout r := by
  cases hperforms with
  | land hlands =>
    obtain ⟨error, rfl⟩ := hlands.exists_refused hnot
    exact h
  | step hmoved => exact h.moved hc hmoved
  | finish hemptied => exact h.emptied (h.lose _) hemptied
  | reset hemptied => exact h.emptied h.record hemptied

end Deserted

end Loading

namespace Engine.Runs

variable {engine : Engine} {s t : Loading} {r : Record} {stages : List Stage}

/-- While nobody comes onto an empty network, it stays empty and nothing is recorded. -/
theorem deserted (hc : engine.supply.layout.Closed) (h : engine.Runs s stages t)
    (hs : s.Deserted engine.supply.layout r)
    (hnobody : ∀ x ∈ stages, engine.admits x.call = false) :
    t.Deserted engine.supply.layout r := by
  revert hnobody
  refine induct hc hs.sound (P := fun stages t => (∀ x ∈ stages, engine.admits x.call = false) →
    t.Deserted engine.supply.layout r) (fun _ => hs) ?_ h
  intro stages t call answer u _ _ hperforms ih hnobody
  obtain ⟨hearlier, hlast⟩ := List.forall_mem_append.1 hnobody
  exact (ih hearlier).performs hc (hlast _ List.mem_cons_self) hperforms

theorem counted (hc : engine.supply.layout.Closed) (h : engine.Runs s stages t)
    (hs : s.Counted engine.supply.layout) : t.Counted engine.supply.layout := by
  refine ⟨h.sound hc hs.sound, induct hc hs.sound (P := fun _ t => ∃ accepted dropped,
    t.Balances engine.supply.layout accepted dropped) hs.balances ?_ h⟩
  rintro stages t call answer u - hsound hperforms ⟨accepted, dropped, hbalances⟩
  exact ⟨_, _, hbalances.performs hc hsound hperforms⟩

end Engine.Runs

end NetworkLoading
