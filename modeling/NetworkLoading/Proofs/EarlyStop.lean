import NetworkLoading.Proofs.Plans

/-!
# Stopping early loses nothing

A run may end as soon as nobody is on the network and no more agents are to follow. The time steps
which it saves would have done nothing that is told, so it publishes the same events, hands over the
same agents and leaves the same network as a run which goes on to the end of the schedule.
-/

namespace NetworkLoading

/-! ## Both kinds of runs -/

namespace Engine

variable {engine : Engine} {s t : Loading} {now : UInt32}

/-- The engine, with or without runs which end when the network is empty. -/
def whenEmpty (engine : Engine) (stops : Bool) : Engine :=
  { engine with schedule := { engine.schedule with stopWhenEmpty := stops } }

theorem linkPhase_whenEmpty (stops : Bool) (s : Loading) (parts : List Nat) :
    (engine.whenEmpty stops).linkPhase s now parts = engine.linkPhase s now parts := by
  induction parts generalizing s with
  | nil => rfl
  | cons part rest ih =>
    simp only [linkPhase, ih]
    rfl

theorem nodePhase_whenEmpty (stops : Bool) (s : Loading) (parts : List Nat) :
    (engine.whenEmpty stops).nodePhase s now parts = engine.nodePhase s now parts := by
  induction parts generalizing s with
  | nil => rfl
  | cons part rest ih =>
    simp only [nodePhase, ih]
    rfl

/-- Time steps are the same. -/
theorem step_whenEmpty (stops : Bool) (s : Loading) (now : UInt32) :
    (engine.whenEmpty stops).step s now = engine.step s now := by
  simp only [step, stepInOrder, linkPhase_whenEmpty, nodePhase_whenEmpty]
  rfl

theorem afterStep_ended (engine : Engine) {exhausted : Bool}
    (h : exhausted = true ∧ s.traffic.onNetwork = 0) (stats : StepStats) (now progressAt : UInt32) :
    ∃ t, s.Resembles t ∧ (engine.whenEmpty true).afterStep s stats now progressAt exhausted =
      (.ended (addTime now engine.schedule.step), t) := by
  rw [afterStep_eq]
  simp only [whenEmpty, h, decide_true, Bool.and_self, ↓reduceIte]
  exact ⟨_, (resembles_report engine s stats now progressAt).trans (Loading.resembles_say _ _), rfl⟩

/-- While agents are on the network or may follow, both kinds of runs go on alike. -/
theorem afterStep_again (engine : Engine) {stops exhausted : Bool}
    (h : ¬ (stops = true ∧ exhausted = true ∧ s.traffic.onNetwork = 0)) (stats : StepStats)
    (now progressAt : UInt32) :
    (engine.whenEmpty stops).afterStep s stats now progressAt exhausted =
      (.again (addTime now engine.schedule.step) (engine.report s stats now progressAt).1,
        (engine.report s stats now progressAt).2) := by
  have hgo : (stops && exhausted && decide (s.traffic.onNetwork = 0)) = false := by
    simpa [and_assoc] using h
  rw [afterStep_eq]
  simp only [whenEmpty, hgo]
  rfl

end Engine

/-! ## Loops on an empty network -/

namespace Engine

variable {plan : Plan} {engine : Engine} {stops : Bool} {count budget : Nat} {s : Loading}
  {now progressAt : UInt32} {account : Account Nat} {r : Record}

/-- If no more agents are announced, it is said before every step that there are none. -/
theorem Loops.exhausted (h : (engine.whenEmpty stops).Loops (plan.controller engine) count s now
      progressAt budget account) (hnow : now = engine.schedule.time count)
    (hcloses : plan.ClosesIn engine count account) :
    ∀ round ∈ account.rounds, round.answer = .exhausted := by
  induction h with
  | spent => nofun
  | elapsed => nofun
  | stopped => nofun
  | failed => nofun
  -- The plan closed with this answer, so every later one is the same.
  | emptied hlt hcontrol hanswer =>
    subst hnow
    obtain ⟨rfl, -⟩ := Plan.answer_eq hcontrol
    exact List.forall_mem_singleton.2 ((hcloses.head hlt).exhausted hanswer)
  | again hlt hcontrol hanswer _ hafter _ ih =>
    subst hnow
    obtain ⟨rfl, rfl⟩ := Plan.answer_eq hcontrol
    obtain ⟨hlater, -⟩ := of_afterStep_again hafter
    exact List.forall_mem_cons.2
      ⟨(hcloses.head hlt).exhausted hanswer, ih hlater hcloses.tail⟩

theorem deserted_of_step (hc : engine.supply.layout.Closed)
    (hs : s.Deserted engine.supply.layout r) {answer : RunControl} {next : Nat} {t u : Loading}
    {result : Except LoadingError StepStats}
    (hcontrol : plan.controller engine count s now = .ok (answer, next, t))
    (hcloses : (plan count now).Closes engine)
    (hstep : (engine.whenEmpty stops).step t now = .ok (result, u)) :
    (∃ stats, result = .ok stats) ∧ u.Deserted engine.supply.layout r := by
  rw [step_whenEmpty] at hstep
  exact (Plan.deserted_of_controller hc hs hcontrol hcloses).of_step hc hstep

/-- On an empty network nothing is told as long as nobody is put onto it, and no step fails. -/
theorem Loops.deserted (hc : engine.supply.layout.Closed)
    (h : (engine.whenEmpty stops).Loops (plan.controller engine) count s now progressAt budget
      account) (hs : s.Deserted engine.supply.layout r) (hnow : now = engine.schedule.time count)
    (hcloses : plan.ClosesIn engine count account) :
    account.state.Deserted engine.supply.layout r ∧
      ∃ stopped, account.ending.result = .ok stopped ∧ now ≤ stopped := by
  induction h with
  | spent => exact ⟨hs, _, rfl, UInt32.le_refl _⟩
  | elapsed => exact ⟨hs, _, rfl, UInt32.le_refl _⟩
  | stopped hlt hcontrol =>
    subst hnow
    have ht := Plan.deserted_of_controller hc hs hcontrol (hcloses.head hlt)
    -- What is said about the stop moves nobody.
    exact ⟨ht.of_resembles (Loading.resembles_say _ _), _, rfl, UInt32.le_refl _⟩
  | failed hlt hcontrol _ hstep =>
    subst hnow
    obtain ⟨⟨_, hok⟩, -⟩ := deserted_of_step hc hs hcontrol (hcloses.head hlt) hstep
    cases hok
  | emptied hlt hcontrol _ hstep hafter =>
    subst hnow
    obtain ⟨-, hu⟩ := deserted_of_step hc hs hcontrol (hcloses.head hlt) hstep
    obtain ⟨rfl, hv⟩ := of_afterStep_ended hafter
    exact ⟨hu.of_resembles hv, _, rfl, le_addTime _ _⟩
  | again hlt hcontrol _ hstep hafter _ ih =>
    subst hnow
    obtain ⟨-, hu⟩ := deserted_of_step hc hs hcontrol (hcloses.head hlt) hstep
    obtain ⟨hlater, hv⟩ := of_afterStep_again hafter
    obtain ⟨-, rfl⟩ := Plan.answer_eq hcontrol
    obtain ⟨hend, stopped, hstopped, hle⟩ := ih (hu.of_resembles hv) hlater hcloses.tail
    exact ⟨hend, stopped, hstopped, UInt32.le_trans (hlater ▸ le_addTime _ _) hle⟩

end Engine

/-! ## Runs which stop early -/

/-- A loop ended because the network was empty: after the first step for which this holds and before
which no more agents were to follow. -/
structure Account.EmptiedFirst (l : Layout) (account : Account Nat) : Prop where
  last : ∃ init last, account.rounds = init ++ [last] ∧ last.answer = .exhausted ∧
    last.after.everyone l = []
  first : ∀ init round rest, account.rounds = init ++ round :: rest → rest ≠ [] →
    (∃ r ∈ init ++ [round], r.answer = .exhausted) → round.after.everyone l ≠ []

/-- The first account tells of a loop which ended because the network was empty, and the second one
of the same loop if it goes on. -/
structure Account.Cut (l : Layout) (early full : Account Nat) : Prop where
  rounds : early.rounds <+: full.rounds
  ending : ∃ n m, early.ending = .emptied n ∧ full.ending.result = .ok m ∧ n ≤ m
  deserted : ∃ r, early.state.Deserted l r ∧ full.state.Deserted l r
  first : early.EmptiedFirst l

namespace Account

variable {l : Layout} {early full : Account Nat} {round : Round}

/-- A loop which is cut after its first step. -/
theorem cut_precede {n m : UInt32} {count : Nat} {s : Loading} {r : Record}
    (hanswer : round.answer = .exhausted) (hround : round.after.Deserted l r)
    (hs : round.after.Resembles s) (hfull : full.state.Deserted l r)
    (hresult : full.ending.result = .ok m) (hle : n ≤ m) :
    Cut l ⟨[round], .emptied n, count, s⟩ (full.precede round) := by
  refine ⟨List.cons_prefix_cons.2 ⟨rfl, List.nil_prefix⟩, ⟨n, m, rfl, hresult, hle⟩,
    ⟨r, hround.of_resembles hs, hfull⟩, ?_, ?_⟩
  · exact ⟨[], round, rfl, hanswer, hround.nobody⟩
  · rintro init round rest hrounds hrest -
    have hlength := congrArg List.length hrounds
    simp only [List.length_append, List.length_cons, List.length_nil] at hlength
    exact absurd (List.length_eq_zero_iff.1 (by omega)) hrest

/-- Steps in front of the cut are those which were made while agents were on the network or were to
follow. -/
theorem Cut.precede (h : early.Cut l full)
    (hgo : round.answer = .exhausted → round.after.everyone l ≠ [])
    (hexhausted : round.answer = .exhausted → ∀ x ∈ full.rounds, x.answer = .exhausted) :
    (early.precede round).Cut l (full.precede round) := by
  refine ⟨List.cons_prefix_cons.2 ⟨rfl, h.rounds⟩, h.ending, h.deserted, ?_, ?_⟩
  · obtain ⟨init, last, hrounds, hlast⟩ := h.first.last
    exact ⟨round :: init, last, congrArg (round :: ·) hrounds, hlast⟩
  -- Either the loops part in this round already, or in one of the rounds behind it.
  · rintro (_ | ⟨first, init⟩) x rest hrounds hrest ⟨y, hy, hanswer⟩
    · obtain ⟨rfl, -⟩ := List.cons.inj hrounds
      rw [List.mem_singleton.1 hy] at hanswer
      exact hgo hanswer
    · obtain ⟨rfl, hlater⟩ := List.cons.inj hrounds
      refine h.first.first init x rest hlater hrest ?_
      rcases List.mem_cons.1 hy with rfl | hy
      · -- Once no more agents were to follow, none was announced again.
        have hx : x ∈ full.rounds :=
          h.rounds.subset (hlater ▸ List.mem_append_right _ List.mem_cons_self)
        exact ⟨x, List.mem_append_right _ List.mem_cons_self, hexhausted hanswer x hx⟩
      · exact ⟨y, hy, hanswer⟩

end Account

namespace Engine

variable {plan : Plan} {engine : Engine} {count budget : Nat} {s : Loading}
  {now progressAt : UInt32} {full : Account Nat}

/-- A loop which ends when the network is empty is the same loop as one which goes on, or it is cut
short. -/
theorem Loops.shorten (hc : engine.supply.layout.Closed)
    (h : (engine.whenEmpty false).Loops (plan.controller engine) count s now progressAt budget full)
    (hs : s.Counted engine.supply.layout) (hnow : now = engine.schedule.time count)
    (hwanes : plan.Wanes engine count full)
    (hfew : ∀ round ∈ full.rounds,
      (round.after.everyone engine.supply.layout).length < UInt64.size) :
    ∃ early, (engine.whenEmpty true).Loops (plan.controller engine) count s now progressAt budget
        early ∧
      (early = full ∧ (∀ n, early.ending ≠ .emptied n) ∨ early.Cut engine.supply.layout full) := by
  induction h with
  | spent => exact ⟨_, .spent, .inl ⟨rfl, nofun⟩⟩
  | elapsed hlate => exact ⟨_, .elapsed hlate, .inl ⟨rfl, nofun⟩⟩
  | stopped hlt hcontrol => exact ⟨_, .stopped hlt hcontrol, .inl ⟨rfl, nofun⟩⟩
  | failed hlt hcontrol hanswer hstep =>
    rw [step_whenEmpty] at hstep
    exact ⟨_, .failed hlt hcontrol hanswer ((step_whenEmpty ..).trans hstep), .inl ⟨rfl, nofun⟩⟩
  -- This loop does not look at whether the network is empty.
  | emptied _ _ _ _ hafter =>
    rw [afterStep_again engine (by simp)] at hafter
    cases hafter
  | @again count next s t u v now progressAt later progress budget answer stats rest hlt hcontrol
      hanswer hstep hafter hrest ih =>
    subst hnow
    obtain ⟨hgiven, rfl⟩ := Plan.answer_eq hcontrol
    obtain ⟨stages, hruns, -⟩ := Plan.runs_of_controller hc hs.sound hcontrol
    rw [step_whenEmpty] at hstep
    have hstep' := (step_whenEmpty true t (engine.schedule.time count)).trans hstep
    have hu : u.Counted engine.supply.layout := (hruns.counted hc hs).of_step hc hstep
    obtain ⟨hlater, hv⟩ := of_afterStep_again hafter
    have hcloses : answer = .exhausted → plan.ClosesIn engine (count + 1) rest :=
      fun hexhausted => hwanes.closesIn (hgiven.symm.trans hexhausted)
    by_cases hcut : answer = .exhausted ∧ u.traffic.onNetwork = 0
    · -- Nobody is on the network and nobody follows: from here on the longer loop does nothing.
      obtain ⟨hexhausted, hcount⟩ := hcut
      obtain ⟨w, hw, hended⟩ := afterStep_ended engine ⟨decide_eq_true hexhausted, hcount⟩ stats
        (engine.schedule.time count) progressAt
      have hdeserted := hu.deserted hcount (hfew ⟨_, answer, u⟩ List.mem_cons_self)
      obtain ⟨hend, stopped, hstopped, hle⟩ :=
        hrest.deserted hc (hdeserted.of_resembles hv) hlater (hcloses hexhausted)
      exact ⟨_, .emptied hlt hcontrol hanswer hstep' hended, .inr (Account.cut_precede hexhausted
        hdeserted hw hend hstopped (hlater ▸ hle))⟩
    · rw [afterStep_again engine (by simp)] at hafter
      have hagain : (engine.whenEmpty true).afterStep u stats (engine.schedule.time count)
          progressAt (answer = .exhausted) = (.again later progress, v) :=
        (afterStep_again engine (by simpa using hcut) ..).trans hafter
      obtain ⟨early, hearly, hkind⟩ := ih (hu.of_resembles hv) hlater hwanes.tail
        fun round hround => hfew round (List.mem_cons_of_mem _ hround)
      refine ⟨_, .again hlt hcontrol hanswer hstep' hagain hearly, ?_⟩
      rcases hkind with ⟨rfl, hending⟩ | hkind
      · exact .inl ⟨rfl, hending⟩
      · refine .inr (hkind.precede (fun hexhausted => hu.everyone_ne_nil fun hcount => ?_) ?_)
        · exact hcut ⟨hexhausted, hcount⟩
        · exact fun hexhausted => hrest.exhausted hlater (hcloses hexhausted)

/-- No run with a planned controller faults. -/
theorem exists_tells (hc : engine.supply.layout.Closed) (hs : s.Sound engine.supply.layout)
    (plan : Plan) (stops : Bool) :
    ∃ account, (engine.whenEmpty stops).Tells (plan.controller engine) 0 s account := by
  -- Neither the plan nor the engine faults in a state that can be reached, and both lead to such
  -- states.
  have hcontrol (count : Nat) (s : Loading) (now : UInt32) (hs : s.Sound engine.supply.layout) :
      ∃ answer next t, plan.controller engine count s now = .ok (answer, next, t) ∧
        t.Sound engine.supply.layout := by
    obtain ⟨t, stages, ht, hruns, -⟩ := Plan.controller_eq_ok hc hs count now
    exact ⟨_, _, t, ht, hruns.sound hc hs⟩
  have hstep (_ : Nat) (s : Loading) (now : UInt32) (hs : s.Sound engine.supply.layout) :
      ∃ stats t, (engine.whenEmpty stops).step s now = .ok (stats, t) ∧
        ∀ counts, stats = .ok counts → t.Sound engine.supply.layout := by
    obtain ⟨stats, t, ht, hproceeds⟩ :=
      hs.stepInOrder hc (Orders.whole_ascending engine.supply.layout) now
    exact ⟨stats, t, (step_whenEmpty stops s now).trans ht, fun _ _ => hproceeds.moved.sound⟩
  obtain ⟨result, memory, t, ht, -⟩ : ∃ result memory t,
      (engine.whenEmpty stops).steps (plan.controller engine) 0 s = .ok (result, memory, t) ∧
        True ∧ ∀ stopped, result = .ok stopped → t.Sound engine.supply.layout :=
    loop_keeps (P := fun _ s => s.Sound engine.supply.layout) (fun _ _ _ => trivial)
      (fun _ _ _ hs => hs.of_traffic_eq rfl) hcontrol hstep _ (hs.of_traffic_eq rfl)
  obtain ⟨account, hloops⟩ := exists_loops ht
  exact ⟨account, Loops.tells hloops⟩

end Engine

/-! ## What the runs have in common -/

/-- One run ends no later than another one, and fails only with the same error. -/
inductive NoLater : Except LoadingError UInt32 → Except LoadingError UInt32 → Prop
  | failed (error : LoadingError) : NoLater (.error error) (.error error)
  | ended {n m : UInt32} (hle : n ≤ m) : NoLater (.ok n) (.ok m)

theorem NoLater.refl (result : Except LoadingError UInt32) : NoLater result result := by
  cases result with
  | error error => exact .failed error
  | ok now => exact .ended (UInt32.le_refl now)

/-- A run which may end when the network is empty spares steps only: it leaves the same network, it
tells the same, and all steps which it makes are steps of the longer run. -/
structure Account.Spares (l : Layout) (early full : Account Nat) : Prop where
  final : early.final.Resembles full.final
  result : NoLater early.ending.result full.ending.result
  rounds : early.rounds <+: full.rounds
  first : ∀ stopped, early.ending = .emptied stopped → early.EmptiedFirst l

theorem Account.Cut.spares {l : Layout} (hc : l.Closed) {early full : Account Nat}
    (h : early.Cut l full) : early.Spares l full := by
  obtain ⟨n, m, hearly, hfull, hle⟩ := h.ending
  obtain ⟨r, hdeserted, hdeserted'⟩ := h.deserted
  obtain ⟨hnetwork, hrecord⟩ := hdeserted.finish hc n
  obtain ⟨hnetwork', hrecord'⟩ := hdeserted'.finish hc m
  have hresult : early.ending.result = .ok n := congrArg Ending.result hearly
  refine ⟨?_, ?_, h.rounds, fun _ _ => h.first⟩
  · -- Nobody is removed at the end of either run, and both leave a network like a new one.
    simp only [final, hresult, hfull]
    exact ⟨hnetwork'.trans hnetwork.symm, hrecord'.trans hrecord.symm⟩
  · rw [hresult, hfull]
    exact .ended hle

/-- Whatever state a run starts in and whatever a planned controller does: if it puts no agent onto
the network after it has told that no more will follow, a run which ends as soon as nobody is on the
network then leaves the same network and tells the same as one which goes on. (The counter of agents
is a 64-bit number, so there may not be so many agents that it wraps around.) -/
theorem Engine.Runs.stops_early {engine : Engine} {population : Population} {stages : List Stage}
    {s : Loading} (hb : engine.Constructed)
    (h : engine.Runs (.empty engine.supply.layout population) stages s) (plan : Plan) :
    (∃ full, (engine.whenEmpty false).Tells (plan.controller engine) 0 s full) ∧
      ∀ full, (engine.whenEmpty false).Tells (plan.controller engine) 0 s full →
        plan.Wanes engine 0 full →
        (∀ round ∈ full.rounds,
          (round.after.everyone engine.supply.layout).length < UInt64.size) →
        ∃ early, (engine.whenEmpty true).Tells (plan.controller engine) 0 s early ∧
          early.Spares engine.supply.layout full := by
  have hc := hb.closed
  have hsound := h.sound hc (Loading.sound_empty _ _)
  refine ⟨exists_tells hc hsound plan false, fun full hfull hwanes hfew => ?_⟩
  have hcounted : ((engine.whenEmpty false).announce s).Counted engine.supply.layout :=
    Loading.Counted.of_resembles ⟨hsound, _, _, h.balances hc⟩ (Loading.resembles_say s _)
  obtain ⟨early, hearly, hkind⟩ := hfull.loops.shorten hc hcounted rfl hwanes hfew
  refine ⟨early, hearly.tells, ?_⟩
  rcases hkind with ⟨rfl, hending⟩ | hcut
  · exact ⟨.refl _, .refl _, List.prefix_rfl, fun stopped hstopped => absurd hstopped (hending _)⟩
  · exact hcut.spares hc

/-! ## A short run -/

namespace Sample

/-- Four time steps of ten seconds on a single link. -/
def tens : Engine :=
  { engine with schedule := .ofSettings { endTime := 40, timeStep := 10 } }

theorem constructed_tens : tens.Constructed :=
  ⟨ids, network, { simulation := { endTime := 40, timeStep := 10 } }, [], travelTimes, _,
    built_network, rfl⟩

/-- An agent departs before the second step, and nobody follows. -/
def loneDeparture : Plan := fun count now =>
  match count with
  | 0 => ⟨[], .continue⟩
  | 1 => ⟨[.depart (stray ann) lane now], .exhausted⟩
  | _ + 2 => ⟨[], .exhausted⟩

theorem wanes_loneDeparture (account : Account Nat) : loneDeparture.Wanes tens 0 account := by
  rintro (_ | j) (_ | _ | k) - hlt - - hexhausted
  · cases hlt
  · cases hexhausted
  · exact ⟨nofun, nofun⟩
  · cases hlt
  · omega
  · exact ⟨nofun, nofun⟩

theorem tells_loneDeparture : ∃ full,
    (tens.whenEmpty false).Tells (loneDeparture.controller tens) 0
      (.empty tens.supply.layout ⟨1, 0⟩) full ∧
    full.ending = .elapsed 40 ∧
    full.rounds.map (fun round => (round.after.everyone tens.supply.layout).length) =
      [0, 0, 0, 0] := by
  apply Exists.intro
  constructor
  -- Four rounds of ten seconds each, of which every part is evaluated.
  · apply Engine.Loops.tells
    change Engine.Loops _ _ _ _ 0 0 40 _
    iterate 4
      apply Engine.Loops.again
      · decide
      · rfl
      · nofun
      · rfl
      · rfl
    exact .elapsed (by decide)
  · exact ⟨rfl, rfl⟩

end Sample

/-- The agent departs at 10 and is lost in the step at 10, so that two steps are spared. -/
theorem Engine.Runs.stops_early_tens : ∃ early full,
    (Sample.tens.whenEmpty true).Tells (Sample.loneDeparture.controller Sample.tens) 0
      (.empty Sample.tens.supply.layout ⟨1, 0⟩) early ∧
    (Sample.tens.whenEmpty false).Tells (Sample.loneDeparture.controller Sample.tens) 0
      (.empty Sample.tens.supply.layout ⟨1, 0⟩) full ∧
    early.Spares Sample.tens.supply.layout full ∧
    early.ending.result = .ok 20 ∧ full.ending.result = .ok 40 := by
  obtain ⟨full, hfull, hending, hnobody⟩ := Sample.tells_loneDeparture
  have hfew : ∀ round ∈ full.rounds,
      (round.after.everyone Sample.tens.supply.layout).length < UInt64.size := by
    intro round hround
    have hlength : (round.after.everyone Sample.tens.supply.layout).length ∈ [0, 0, 0, 0] :=
      hnobody ▸ List.mem_map_of_mem hround
    simp only [List.mem_cons, List.not_mem_nil, or_false, or_self] at hlength
    rw [hlength]
    decide
  obtain ⟨early, hearly, hspares⟩ := (stops_early Sample.constructed_tens .start
    Sample.loneDeparture).2 full hfull (Sample.wanes_loneDeparture full) hfew
  -- The time at which the early loop ends is found by running it.
  have hrun : ∃ memory t, (Sample.tens.whenEmpty true).run
      (Sample.loneDeparture.controller Sample.tens) 0 (.empty Sample.tens.supply.layout ⟨1, 0⟩) =
        .ok (.ok 20, memory, t) := ⟨_, _, rfl⟩
  obtain ⟨memory, t, hrun⟩ := hrun
  rw [hearly.run] at hrun
  refine ⟨early, full, hearly, hfull, hspares, ?_, congrArg Ending.result hending⟩
  exact congrArg Prod.fst (Except.ok.inj hrun)

end NetworkLoading
