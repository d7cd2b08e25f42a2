import NetworkLoading.Proofs.Conservation

/-!
# Lost agents

Whoever is lost is told of three times: an event is published, the agent is handed over as aborted,
and the population counts the loss. The three stay in step, whatever the reason of the loss is and
whatever else the engine is asked to do.
-/

namespace NetworkLoading

/-- Whether an agent was taken out of the simulation. -/
def Agent.isAborted (agent : Agent) : Bool :=
  match agent.state with
  | .aborted _ => true
  | .leg | .arrived _ => false

theorem Agent.isSome_loss? (agent : Agent) : agent.loss?.isSome = agent.isAborted := by
  unfold loss? isAborted
  cases agent.state <;> rfl

theorem Event.isSome_loss? (e : Event) : e.loss?.isSome = decide (e.kind = .stuck) := by
  cases e <;> rfl

theorem countP_isAborted (agents : List Agent) :
    agents.countP (·.isAborted) = (agents.filterMap Agent.loss?).length := by
  rw [List.length_filterMap_eq_countP]
  exact congrArg (List.countP · _) (funext fun agent => agent.isSome_loss?.symm)

theorem countP_stuck (events : List Event) :
    events.countP (·.kind = .stuck) = (events.filterMap Event.loss?).length := by
  rw [List.length_filterMap_eq_countP]
  exact congrArg (List.countP · _) (funext fun e => e.isSome_loss?.symm)

/-- Agents whose legs are over have arrived or were aborted. -/
theorem length_eq_arrived_add_aborted {agents : List Agent}
    (h : ∀ agent ∈ agents, agent.hasArrived = agent.loss?.isNone) :
    agents.length = agents.countP (·.hasArrived) + agents.countP (·.isAborted) := by
  rw [List.length_eq_countP_add_countP (fun agent : Agent => agent.hasArrived)]
  refine congrArg _ (List.countP_congr fun agent hagent => ?_)
  rw [← Agent.isSome_loss?, h agent hagent]
  cases agent.loss? <;> simp

namespace Population

theorem living_lose_iterate (count : Nat) (p : Population) :
    (lose^[count] p).living = p.living - Int64.ofNat count := by
  induction count generalizing p with
  | zero => simp
  | succ count ih =>
    rw [Function.iterate_succ_apply, ih, living_lose, Int64.ofNat_add]
    grind

theorem lost_lose_iterate (count : Nat) (p : Population) :
    (lose^[count] p).lost = p.lost + Int64.ofNat count := by
  induction count generalizing p with
  | zero => simp
  | succ count ih =>
    rw [Function.iterate_succ_apply, ih, lost_lose, Int64.ofNat_add]
    grind

end Population

namespace Loading

variable {l : Layout} {s t : Loading} {population : Population} {now : UInt32} {supply : Supply}

/-- The three accounts of losses agree. -/
structure Tallies (population : Population) (s : Loading) : Prop where
  losses : s.record.events.toList.filterMap Event.loss? =
    s.record.handedOver.toList.filterMap Agent.loss?
  population : s.record.population =
    Population.lose^[(s.record.handedOver.toList.filterMap Agent.loss?).length] population
  ended : ∀ agent ∈ s.record.handedOver.toList, agent.hasArrived = agent.loss?.isNone

/-- A transfer which is told keeps the accounts in step. -/
theorem Tallies.undergo (h : s.Tallies population) {x : Transfer} (hx : s.Undergoes l x t)
    (htold : x.Told) : t.Tallies population := by
  refine ⟨?_, ?_, ?_⟩
  · rw [hx.events, hx.handedOver, List.filterMap_append, List.filterMap_append, h.losses,
      htold.losses]
  · rw [hx.population, h.population, hx.handedOver, List.filterMap_append, List.length_append,
      Nat.add_comm, Function.iterate_add_apply]
  · rw [hx.handedOver]
    exact List.forall_mem_append.2 ⟨h.ended, htold.ended⟩

theorem tallies_clearActive : s.clearActive.Tallies population ↔ s.Tallies population :=
  ⟨fun ⟨h₁, h₂, h₃⟩ => ⟨h₁, h₂, h₃⟩, fun ⟨h₁, h₂, h₃⟩ => ⟨h₁, h₂, h₃⟩⟩

theorem Tallies.moved (hc : supply.layout.Closed) (hs : s.Fits supply.layout)
    (h : s.Tallies population) (hmoved : s.Moved supply now t) : t.Tallies population := by
  refine hmoved.keeps hs (fun _ => tallies_clearActive) h ?_
  intro s t hs h hmotion
  obtain ⟨x, hx, -, htold⟩ := hmotion.undergoes hc hs
  exact h.undergo hx htold

theorem Tallies.performs {engine : Engine} {call : Call} {answer : Answer}
    (hc : engine.supply.layout.Closed) (hs : s.Sound engine.supply.layout)
    (h : s.Tallies population) (hperforms : engine.Performs s call answer t) :
    t.Tallies population := by
  cases hperforms with
  | land hlands =>
    exact h.undergo (undergoes_land hc hs.fits _ hlands.within _) (Landing.told_transfer _ _ _)
  | step hmoved => exact h.moved hc hs.fits hmoved
  | finish hemptied => exact h.undergo hemptied.undergoes_purge (Transfer.told_purge _ _)
  | reset hemptied => exact h.undergo hemptied.undergoes_discard (Transfer.told_discard _)

theorem tallies_empty (l : Layout) (population : Population) :
    (Loading.empty l population).Tallies population :=
  ⟨rfl, rfl, nofun⟩

end Loading

end NetworkLoading
