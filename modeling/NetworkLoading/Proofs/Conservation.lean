import NetworkLoading.Proofs.Transfers

/-!
# No agent gets lost or doubled

Everyone whom the engine accepted is on one link, or has been handed over, or was dropped when the
engine was reset; and the network counts those who are on links. This holds after every call,
whether steps fail or not.
-/

namespace NetworkLoading

namespace Loading

variable {l : Layout} {s t : Loading} {accepted dropped : List PersonId} {now : UInt32}
  {supply : Supply}

/-- All who were accepted are accounted for. -/
structure Balances (l : Layout) (accepted dropped : List PersonId) (s : Loading) : Prop where
  persons : accepted.Perm ((s.everyone l).map (·.2.id) ++
    s.record.handedOver.toList.map (·.id) ++ dropped)
  onNetwork : s.traffic.onNetwork = UInt64.ofNat (s.everyone l).length

/-- A transfer is accounted for if those it brings in are those who come onto links, are handed over
or are dropped. -/
theorem Balances.undergo (h : s.Balances l accepted dropped) {x : Transfer}
    (hx : s.Undergoes l x t) (more gone : List PersonId)
    (hmore : (more ++ x.off.map (·.2.id)).Perm
      (x.on.map (·.2.id) ++ x.handedOver.map (·.id) ++ gone)) :
    t.Balances l (accepted ++ more) (dropped ++ gone) := by
  obtain ⟨others, hbefore, hafter⟩ := hx.agents
  constructor
  · -- Everybody is counted before and after; those who stay on their links cancel out.
    refine List.perm_iff_count.2 fun p => ?_
    have hpersons := h.persons.count_eq p
    have hmore := hmore.count_eq p
    have hbefore := (hbefore.map (·.2.id)).count_eq p
    have hafter := (hafter.map (·.2.id)).count_eq p
    simp only [hx.handedOver, List.map_append, List.count_append] at hpersons hmore hbefore hafter ⊢
    omega
  · have hcount := hx.onNetwork
    rw [h.onNetwork, hbefore.length_eq, List.length_append, UInt64.ofNat_add] at hcount
    rw [hafter.length_eq, List.length_append, UInt64.ofNat_add]
    grind

theorem balances_clearActive :
    s.clearActive.Balances l accepted dropped ↔ s.Balances l accepted dropped := by
  constructor <;> rintro ⟨hpersons, hcount⟩ <;>
    exact ⟨by simpa using hpersons, by simpa using hcount⟩

/-- Agents who move stay accounted for. -/
theorem Balances.moved (hc : supply.layout.Closed) (hs : s.Fits supply.layout)
    (h : s.Balances supply.layout accepted dropped) (hmoved : s.Moved supply now t) :
    t.Balances supply.layout accepted dropped := by
  refine hmoved.keeps hs (fun _ => balances_clearActive) h ?_
  intro s t hs h hmotion
  obtain ⟨x, hx, hbalanced, -⟩ := hmotion.undergoes hc hs
  simpa using h.undergo hx [] [] (by simpa [Transfer.Balanced] using hbalanced)

/-- Every call accounts for those it takes over and those it drops. -/
theorem Balances.performs {engine : Engine} {call : Call} {answer : Answer}
    (hc : engine.supply.layout.Closed) (hs : s.Sound engine.supply.layout)
    (h : s.Balances engine.supply.layout accepted dropped)
    (hperforms : engine.Performs s call answer t) :
    t.Balances engine.supply.layout (accepted ++ Stage.accepted ⟨s, call, answer, t⟩)
      (dropped ++ Stage.dropped engine.supply.layout ⟨s, call, answer, t⟩) := by
  cases hperforms with
  -- Whoever lands is accepted, unless the landing is refused or ends the leg at once.
  | @land agent now x _ _ hlands =>
    refine h.undergo (undergoes_land hc hs.fits agent hlands.within now) _ _ ?_
    rw [← hlands.persons_transfer, hlands.dropped]
    simp [Transfer.persons, Landing.transfer]
  | step hmoved => simpa [Stage.accepted, Stage.dropped] using h.moved hc hs.fits hmoved
  | finish hemptied =>
    refine h.undergo hemptied.undergoes_purge _ _ ?_
    simpa [Stage.accepted, Stage.dropped, Transfer.Balanced] using
      Transfer.balanced_purge _ (s.everyone engine.supply.layout)
  | reset hemptied =>
    refine h.undergo hemptied.undergoes_discard _ _ ?_
    simp [Stage.accepted, Stage.dropped, Transfer.discard]

theorem balances_empty (l : Layout) (population : Population) :
    (Loading.empty l population).Balances l [] [] := by
  have hnobody := (vacant_empty l { population }).everyone
  constructor <;> rw [Loading.empty, hnobody] <;> simp [Traffic.empty]

end Loading

namespace Engine.Runs

variable {engine : Engine} {population : Population} {stages : List Stage} {t : Loading}

theorem balances (hc : engine.supply.layout.Closed)
    (h : engine.Runs (.empty engine.supply.layout population) stages t) :
    t.Balances engine.supply.layout (stages.flatMap (·.accepted))
      (stages.flatMap (·.dropped engine.supply.layout)) := by
  refine induct hc (Loading.sound_empty _ _) (P := fun stages t =>
    t.Balances engine.supply.layout (stages.flatMap (·.accepted))
      (stages.flatMap (·.dropped engine.supply.layout))) (Loading.balances_empty _ _) ?_ h
  intro stages t call answer u _ hsound hperforms ih
  simpa using ih.performs hc hsound hperforms

/-- After any calls but resets, the persons who were accepted are those in the queues of the links
and those handed over, each of them once. The network counts the agents in its queues, and after a
reset there are none, and nobody was handed over. -/
theorem conserves (hb : engine.Constructed)
    (h : engine.Runs (.empty engine.supply.layout population) stages t) :
    ((∀ stage ∈ stages, stage.call ≠ .reset) → (stages.flatMap (·.accepted)).Perm
      ((t.everyone engine.supply.layout).map (·.2.id) ++
        t.record.handedOver.toList.map (·.id))) ∧
    t.traffic.onNetwork = UInt64.ofNat (t.everyone engine.supply.layout).length ∧
    (∀ id ∈ engine.supply.layout.linkIds, (reset t).queue id = {}) ∧
    (reset t).traffic.onNetwork = 0 ∧
    (reset t).record.handedOver = t.record.handedOver := by
  have hc := hb.closed
  have hbalances := h.balances hc
  have hemptied := Loading.emptied_reset (h.sound hc (Loading.sound_empty _ _)).fits
  refine ⟨fun hreset => ?_, hbalances.onNetwork, hemptied.vacant.queue, ?_,
    (Record.silent_iff.1 hemptied.record).2.2⟩
  -- Agents are dropped by nothing but a reset.
  · have hnone : stages.flatMap (·.dropped engine.supply.layout) = [] := by
      refine List.flatMap_eq_nil_iff.2 fun stage hstage => ?_
      have hcall := hreset stage hstage
      unfold Stage.dropped
      split
      · contradiction
      all_goals rfl
    have hpersons := hbalances.persons
    rwa [hnone, List.append_nil] at hpersons
  · rw [hemptied.onNetwork, hbalances.onNetwork, UInt64.sub_self]

theorem conserves_ring : ∃ stages t,
    Sample.ringEngine.Runs (.empty Sample.ringEngine.supply.layout ⟨2, 0⟩) stages t ∧
    stages.map (·.answer.failed) = [false, true, false] ∧
    [Sample.ann, Sample.ben].Perm
      ((t.everyone Sample.ringEngine.supply.layout).map (·.2.id) ++
        t.record.handedOver.toList.map (·.id)) ∧
    (reset t).traffic.onNetwork = 0 := by
  obtain ⟨stages, t, h, hfailed, haccepted, hreset⟩ := Sample.runs_ringEngine
  obtain ⟨hpersons, -, -, hcount, -⟩ := conserves Sample.constructed_ringEngine h
  exact ⟨stages, t, h, hfailed, haccepted ▸ hpersons hreset, hcount⟩

end Engine.Runs

end NetworkLoading
