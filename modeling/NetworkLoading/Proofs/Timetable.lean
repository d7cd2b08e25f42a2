import NetworkLoading.Proofs.EarlyStop

/-!
# The timetable of a run

What a run does to an engine is a sequence of acts: it asks its controller, makes a time step, and
at last removes those who are left. When it does so depends on the schedule, on the answers and on
whether anybody is on the network. Time never stands still before the end, which is why a run needs
no more steps than there are seconds.
-/

namespace NetworkLoading

/-! ## Time -/

theorem toNat_addTime (a b : UInt32) :
    (addTime a b).toNat = min (a.toNat + b.toNat) 4294967295 := by
  unfold addTime
  have ha := a.toNat_lt
  split
  · rename_i hsmall
    rw [UInt32.toNat_add, Nat.mod_eq_of_lt hsmall]
    simp only [UInt32.size] at hsmall
    omega
  · rename_i hlarge
    simp only [UInt32.size] at hlarge
    rw [Nat.min_eq_right (by omega)]
    rfl

/-- The times of a run as the settings give them: a step of zero counts as one, and time goes no
further than to the greatest number of 32 bits. -/
def Config.Simulation.time (c : Config.Simulation) : Nat → Nat
  | 0 => c.startTime.toNat
  | count + 1 => min (c.time count + max c.timeStep.toNat 1) 4294967295

theorem Schedule.toNat_step (c : Config.Simulation) :
    (Schedule.ofSettings c).step.toNat = max c.timeStep.toNat 1 := by
  unfold Schedule.ofSettings
  split
  · rename_i hzero
    rw [hzero]
    rfl
  · rename_i hne
    have hpos : c.timeStep.toNat ≠ 0 := fun he => hne (UInt32.toNat_inj.1 he)
    exact (Nat.max_eq_left (Nat.one_le_iff_ne_zero.2 hpos)).symm

theorem Schedule.toNat_time (c : Config.Simulation) (count : Nat) :
    ((Schedule.ofSettings c).time count).toNat = c.time count := by
  induction count with
  | zero =>
    unfold Schedule.ofSettings
    split <;> rfl
  | succ count ih => rw [Schedule.time, toNat_addTime, ih, toNat_step, Config.Simulation.time]

namespace Schedule

variable {schedule : Schedule} {now : UInt32}

theorem step_pos (schedule : Schedule) : 0 < schedule.step.toNat :=
  Nat.pos_of_ne_zero fun he => schedule.step_ne_zero (UInt32.toNat_inj.1 he)

/-- Before the end of a schedule, time goes on. -/
theorem lt_addTime_step (h : now < schedule.stop) : now < addTime now schedule.step := by
  have hpos := schedule.step_pos
  have hstop := schedule.stop.toNat_lt
  rw [UInt32.lt_iff_toNat_lt] at h ⊢
  rw [toNat_addTime]
  omega

end Schedule

/-! ## Acts -/

/-- Something that a run does to an engine. -/
inductive Act where
  /-- The controller is asked. -/
  | ask (now : UInt32) (answer : RunControl)
  /-- A time step is made, which may fail. -/
  | step (now : UInt32) (error? : Option LoadingError) (after : Loading)
  /-- Those who are left on the network are removed. -/
  | finish (now : UInt32)

/-- When the controller is asked. -/
def Act.asked? : Act → Option UInt32
  | ask now _ => some now
  | step .. | finish _ => none

/-- What is done in a round. -/
def Round.acts (r : Round) : List Act :=
  [.ask r.now r.answer, .step r.now none r.after]

/-- A round after which the run may end early: no more agents will follow, and none is on the
network. -/
structure Schedule.Empties (schedule : Schedule) (r : Round) : Prop where
  allowed : schedule.stopWhenEmpty = true
  answer : r.answer = .exhausted
  onNetwork : r.after.traffic.onNetwork = 0

namespace Engine

variable {σ : Type}

/-- Doing some acts one after the other leads from one state to another one. Apart from them, there
are only messages. -/
inductive Acts (engine : Engine) (control : Controller σ) :
    σ → Loading → List Act → σ → Loading → Prop
  | done {c : σ} {s t : Loading} (h : s.Resembles t) : Acts engine control c s [] c t
  | ask {c d e : σ} {s t u v : Loading} {now : UInt32} {answer : RunControl} {acts : List Act}
      (h : s.Resembles t) (hcontrol : control c t now = .ok (answer, d, u))
      (hrest : Acts engine control d u acts e v) :
      Acts engine control c s (.ask now answer :: acts) e v
  | step {c d : σ} {s t u v : Loading} {now : UInt32} {stats : StepStats} {acts : List Act}
      (h : s.Resembles t) (hstep : engine.step t now = .ok (.ok stats, u))
      (hrest : Acts engine control c u acts d v) :
      Acts engine control c s (.step now none u :: acts) d v
  | failed {c d : σ} {s t u v : Loading} {now : UInt32} {error : LoadingError} {acts : List Act}
      (h : s.Resembles t) (hstep : engine.step t now = .ok (.error error, u))
      (hrest : Acts engine control c u acts d v) :
      Acts engine control c s (.step now (some error) u :: acts) d v
  | finish {c d : σ} {s t v : Loading} {now : UInt32} {acts : List Act} (h : s.Resembles t)
      (hrest : Acts engine control c (finish t now).2 acts d v) :
      Acts engine control c s (.finish now :: acts) d v

variable {engine : Engine} {control : Controller σ} {c d : σ} {s t u : Loading}
  {acts : List Act}

/-- Messages may come first. -/
theorem Acts.of_resembles (h : s.Resembles t) (hacts : engine.Acts control c t acts d u) :
    engine.Acts control c s acts d u := by
  cases hacts with
  | done h' => exact .done (h.trans h')
  | ask h' hcontrol hrest => exact .ask (h.trans h') hcontrol hrest
  | step h' hstep hrest => exact .step (h.trans h') hstep hrest
  | failed h' hstep hrest => exact .failed (h.trans h') hstep hrest
  | finish h' hrest => exact .finish (h.trans h') hrest

end Engine

/-! ## Timetables -/

namespace Schedule

variable {schedule : Schedule} {first : Nat} {rounds : List Round} {last : List Act}
  {result : Except LoadingError UInt32} {r : Round}

/-- What is done behind the last round of a run, if it has one, at the time which follows it; and
what comes of the run. -/
inductive Closes (schedule : Schedule) (last? : Option Round) (now : UInt32) :
    List Act → Except LoadingError UInt32 → Prop
  /-- The time is up. -/
  | elapsed (hlate : schedule.stop ≤ now) : Closes schedule last? now [.finish now] (.ok now)
  /-- The network is empty after the last round. -/
  | emptied {r : Round} (hlast : last? = some r) (hempties : schedule.Empties r) :
      Closes schedule last? now [.finish now] (.ok now)
  /-- The controller ends the run. -/
  | stopped (hnow : now < schedule.stop) (hgo : ∀ r, last? = some r → ¬ schedule.Empties r) :
      Closes schedule last? now [.ask now .stop, .finish now] (.ok now)
  /-- A time step fails. -/
  | failed {answer : RunControl} {error : LoadingError} {after : Loading}
      (hnow : now < schedule.stop) (hgo : ∀ r, last? = some r → ¬ schedule.Empties r)
      (hanswer : answer ≠ .stop) :
      Closes schedule last? now [.ask now answer, .step now (some error) after] (.error error)

/-- The rounds of a run from a place in the timetable on, and how it ends. -/
structure Governs (schedule : Schedule) (first : Nat) (rounds : List Round) (last : List Act)
    (result : Except LoadingError UInt32) : Prop where
  times : rounds.map (·.now) = (List.range' first rounds.length).map schedule.time
  early : ∀ r ∈ rounds, r.now < schedule.stop
  answers : ∀ r ∈ rounds, r.answer ≠ .stop
  goesOn : ∀ r ∈ rounds.dropLast, ¬ schedule.Empties r
  closes : schedule.Closes rounds.getLast? (schedule.time (first + rounds.length)) last result

theorem Closes.of_none {now : UInt32} (h : schedule.Closes none now last result)
    (hgo : ¬ schedule.Empties r) : schedule.Closes (some r) now last result := by
  have hgo' : ∀ r', some r = some r' → ¬ schedule.Empties r' := by
    rintro _ ⟨⟩
    exact hgo
  cases h with
  | elapsed hlate => exact .elapsed hlate
  | emptied hlast => cases hlast
  | stopped hnow => exact .stopped hnow hgo'
  | failed hnow _ hanswer => exact .failed hnow hgo' hanswer

theorem Governs.cons (h : schedule.Governs (first + 1) rounds last result)
    (hnow : r.now = schedule.time first) (hearly : r.now < schedule.stop)
    (hanswer : r.answer ≠ .stop) (hgo : ¬ schedule.Empties r) :
    schedule.Governs first (r :: rounds) last result := by
  refine ⟨?_, List.forall_mem_cons.2 ⟨hearly, h.early⟩,
    List.forall_mem_cons.2 ⟨hanswer, h.answers⟩, ?_, ?_⟩
  · rw [List.map_cons, List.length_cons, List.range'_succ, List.map_cons, h.times, hnow]
  · cases rounds with
    | nil => exact nofun
    | cons r' rest => exact List.forall_mem_cons.2 ⟨hgo, h.goesOn⟩
  · have hcloses := h.closes
    rw [List.length_cons, Nat.add_comm rounds.length, ← Nat.add_assoc]
    cases rounds with
    | nil => exact hcloses.of_none hgo
    | cons r' rest => rwa [List.getLast?_cons_cons]

/-- The controller is asked at the times of the schedule, one after the other, all of them before
its end. -/
theorem Governs.asked (h : schedule.Governs 0 rounds last result) :
    ∃ count, (rounds.flatMap Round.acts ++ last).filterMap Act.asked? =
        (List.range count).map schedule.time ∧
      ∀ k < count, schedule.time k < schedule.stop := by
  have hrounds : (rounds.flatMap Round.acts).filterMap Act.asked? =
      (List.range rounds.length).map schedule.time := by
    rw [List.range_eq_range', ← h.times, List.filterMap_flatMap]
    exact List.map_eq_flatMap.symm
  have hearly (k : Nat) (hk : k < rounds.length) : schedule.time k < schedule.stop := by
    have hmem : schedule.time k ∈ rounds.map (·.now) := by
      rw [h.times, ← List.range_eq_range']
      exact List.mem_map_of_mem (List.mem_range.2 hk)
    obtain ⟨r, hr, he⟩ := List.mem_map.1 hmem
    exact he ▸ h.early r hr
  have hcloses := h.closes
  rw [Nat.zero_add] at hcloses
  rw [List.filterMap_append, hrounds]
  cases hcloses with
  | elapsed => exact ⟨rounds.length, by simp [Act.asked?], hearly⟩
  | emptied => exact ⟨rounds.length, by simp [Act.asked?], hearly⟩
  -- The last round asks the control once more before it ends.
  | stopped hnow | failed hnow =>
    refine ⟨rounds.length + 1, by simp [Act.asked?, List.range_succ], fun k hk => ?_⟩
    rcases Nat.lt_succ_iff_lt_or_eq.1 hk with hk | rfl
    · exact hearly k hk
    · exact hnow

theorem time_le {j k : Nat} (h : j ≤ k) : schedule.time j ≤ schedule.time k := by
  induction h with
  | refl => exact UInt32.le_refl _
  | step _ ih => exact UInt32.le_trans ih (le_addTime _ _)

/-- Times before the end of a schedule grow. -/
theorem pairwise_time {count : Nat} (h : ∀ k < count, schedule.time k < schedule.stop) :
    ((List.range count).map schedule.time).Pairwise (· < ·) := by
  rw [List.pairwise_map]
  refine List.pairwise_lt_range.imp_of_mem fun {j k} hj _ hlt => ?_
  exact UInt32.lt_of_lt_of_le (lt_addTime_step (h j (List.mem_range.1 hj))) (time_le hlt)

end Schedule

/-! ## Runs keep to their timetables -/

namespace Engine

variable {σ : Type} {engine : Engine} {control : Controller σ} {c d : σ} {s t u : Loading}
  {now progressAt later progress : UInt32} {budget : Nat} {answer : RunControl} {stats : StepStats}
  {account : Account σ}

theorem empties_of_afterStep
    (h : engine.afterStep s stats now progressAt (answer = .exhausted) = (.ended later, t)) :
    engine.schedule.Empties ⟨now, answer, s⟩ := by
  rw [afterStep_eq] at h
  dsimp only at h
  split at h
  · rename_i hends
    simp only [Bool.and_eq_true, decide_eq_true_eq] at hends
    exact ⟨hends.1.1, hends.1.2, hends.2⟩
  · cases h

theorem not_empties_of_afterStep
    (h : engine.afterStep s stats now progressAt (answer = .exhausted) =
      (.again later progress, t)) : ¬ engine.schedule.Empties ⟨now, answer, s⟩ := by
  rw [afterStep_eq] at h
  dsimp only at h
  split at h
  · cases h
  · rename_i hgo
    intro hempties
    have hanswer : answer = .exhausted := hempties.answer
    have hcount : s.traffic.onNetwork = 0 := hempties.onNetwork
    exact hgo (by simp [hempties.allowed, hanswer, hcount])

/-- The steps a loop may make are enough, so that it ends for a reason of the timetable. -/
theorem Loops.governs (h : engine.Loops control c s now progressAt budget account) (first : Nat)
    (hnow : now = engine.schedule.time first)
    (hbudget : engine.schedule.stop.toNat ≤ now.toNat + budget) :
    ∃ last, engine.schedule.Governs first account.rounds last account.ending.result ∧
      engine.Acts control c s (account.rounds.flatMap Round.acts ++ last) account.memory
        account.final := by
  induction h generalizing first with
  | @spent c s now progressAt =>
    have hlate : engine.schedule.stop ≤ engine.schedule.time first :=
      UInt32.le_iff_toNat_le.2 (hnow ▸ hbudget)
    subst hnow
    exact ⟨_, ⟨rfl, nofun, nofun, nofun, .elapsed hlate⟩, .finish (.refl _) (.done (.refl _))⟩
  | elapsed hlate =>
    subst hnow
    exact ⟨_, ⟨rfl, nofun, nofun, nofun, .elapsed (UInt32.not_lt.1 hlate)⟩,
      .finish (.refl _) (.done (.refl _))⟩
  | stopped hearly hcontrol =>
    subst hnow
    exact ⟨_, ⟨rfl, nofun, nofun, nofun, .stopped hearly nofun⟩,
      .ask (.refl _) hcontrol (.finish (Loading.resembles_say _ _) (.done (.refl _)))⟩
  | failed hearly hcontrol hanswer hstep =>
    subst hnow
    exact ⟨_, ⟨rfl, nofun, nofun, nofun, .failed hearly nofun hanswer⟩,
      .ask (.refl _) hcontrol (.failed (.refl _) hstep (.done (.refl _)))⟩
  | emptied hearly hcontrol hanswer hstep hafter =>
    obtain ⟨rfl, hsame⟩ := of_afterStep_ended hafter
    subst hnow
    refine ⟨_, ⟨rfl, ?_, ?_, nofun, .emptied rfl (empties_of_afterStep hafter)⟩, ?_⟩
    · exact List.forall_mem_singleton.2 hearly
    · exact List.forall_mem_singleton.2 hanswer
    · exact .ask (.refl _) hcontrol (.step (.refl _) hstep (.finish hsame (.done (.refl _))))
  | again hearly hcontrol hanswer hstep hafter _ ih =>
    obtain ⟨rfl, hsame⟩ := of_afterStep_again hafter
    subst hnow
    -- A step takes at least a second, so one step less is enough for the rest.
    have hlt := UInt32.lt_iff_toNat_lt.1 (Schedule.lt_addTime_step hearly)
    obtain ⟨last, hgoverns, hacts⟩ := ih (first + 1) rfl (by omega)
    exact ⟨last, hgoverns.cons rfl hearly hanswer (not_empties_of_afterStep hafter),
      .ask (.refl _) hcontrol (.step (.refl _) hstep (hacts.of_resembles hsame))⟩

end Engine

/-- A controller does not fault, and leaves a state from which the engine can go on, as every call
to the engine does. -/
def Controller.Safe {σ : Type} (l : Layout) (control : Controller σ) : Prop :=
  ∀ c s now, s.Sound l → ∃ answer d t, control c s now = .ok (answer, d, t) ∧ t.Sound l

theorem Plan.safe {engine : Engine} (hc : engine.supply.layout.Closed) (plan : Plan) :
    Controller.Safe engine.supply.layout (plan.controller engine) := by
  intro count s now hs
  obtain ⟨t, stages, ht, hruns, -⟩ := plan.controller_eq_ok hc hs count now
  exact ⟨_, _, t, ht, hruns.sound hc hs⟩

namespace Engine

variable {σ : Type} {engine : Engine} {control : Controller σ} {s : Loading}

/-- No run with a safe controller faults. -/
theorem exists_tells_of_safe (hc : engine.supply.layout.Closed)
    (hcontrol : control.Safe engine.supply.layout) (hs : s.Sound engine.supply.layout) (c : σ) :
    ∃ account, engine.Tells control c s account := by
  have hstep (_ : σ) (s : Loading) (now : UInt32) (hs : s.Sound engine.supply.layout) :
      ∃ stats t, engine.step s now = .ok (stats, t) ∧
        ∀ counts, stats = .ok counts → t.Sound engine.supply.layout := by
    obtain ⟨stats, t, ht, hproceeds⟩ :=
      hs.stepInOrder hc (Orders.whole_ascending engine.supply.layout) now
    exact ⟨stats, t, ht, fun _ _ => hproceeds.moved.sound⟩
  obtain ⟨result, memory, t, ht, -⟩ : ∃ result memory t,
      engine.steps control c s = .ok (result, memory, t) ∧ True ∧
        ∀ stopped, result = .ok stopped → t.Sound engine.supply.layout :=
    loop_keeps (P := fun _ s => s.Sound engine.supply.layout) (fun _ _ _ => trivial)
      (fun _ _ _ hs => hs.of_traffic_eq rfl) hcontrol hstep _ (hs.of_traffic_eq rfl)
  obtain ⟨account, hloops⟩ := exists_loops ht
  exact ⟨account, hloops.tells⟩

/-- Whatever the settings are, wherever a run starts and whatever its controller does: the run comes
to an end, and what it does until then is governed by its schedule. The controller is asked at the
times of the settings, which grow and lie before the end; whenever it does not end the run, one time
step is made at this time. If a step fails, nothing follows. Otherwise those who are left are
removed once, when the time is up, at the time at which the controller ended the run, or when the
network is empty and no more agents are to follow. -/
theorem run_on_schedule (hb : engine.Constructed) {settings : Config.Simulation}
    (hschedule : engine.schedule = .ofSettings settings)
    (hcontrol : control.Safe engine.supply.layout) (hs : s.Sound engine.supply.layout) (c : σ) :
    ∃ rounds last result d t,
      engine.run control c s = .ok (result, d, t) ∧
      engine.Acts control c s (rounds.flatMap Round.acts ++ last) d t ∧
      engine.schedule.Governs 0 rounds last result ∧
      (∃ count, (rounds.flatMap Round.acts ++ last).filterMap Act.asked? =
          (List.range count).map engine.schedule.time ∧
        ((List.range count).map engine.schedule.time).Pairwise (· < ·) ∧
        ∀ k < count, engine.schedule.time k < engine.schedule.stop) ∧
      (∀ k, (engine.schedule.time k).toNat = settings.time k) ∧
      engine.schedule.stop = settings.endTime ∧
      engine.schedule.stopWhenEmpty = settings.stopWhenEmpty := by
  obtain ⟨account, htells⟩ := exists_tells_of_safe hb.closed hcontrol hs c
  obtain ⟨last, hgoverns, hacts⟩ := htells.loops.governs 0 rfl (by omega)
  obtain ⟨count, hasked, hearly⟩ := hgoverns.asked
  refine ⟨account.rounds, last, account.ending.result, account.memory, account.final, htells.run,
    hacts.of_resembles (Loading.resembles_say s _), hgoverns,
    ⟨count, hasked, Schedule.pairwise_time hearly, hearly⟩, ?_, ?_, ?_⟩
  · rw [hschedule]
    exact Schedule.toNat_time settings
  · rw [hschedule, Schedule.ofSettings]
    split <;> rfl
  · rw [hschedule, Schedule.ofSettings]
    split <;> rfl

/-- A run with a step every ten seconds, from 0 to 40. -/
theorem run_on_schedule_tens : ∃ rounds last d t,
    Sample.tens.run (Sample.loneDeparture.controller Sample.tens) 0
      (.empty Sample.tens.supply.layout ⟨1, 0⟩) = .ok (.ok 40, d, t) ∧
    Sample.tens.Acts (Sample.loneDeparture.controller Sample.tens) 0
      (.empty Sample.tens.supply.layout ⟨1, 0⟩) (rounds.flatMap Round.acts ++ last) d t ∧
    Sample.tens.schedule.Governs 0 rounds last (.ok 40) := by
  obtain ⟨rounds, last, result, d, t, hrun, hacts, hgoverns, -⟩ :=
    run_on_schedule Sample.constructed_tens
      (show Sample.tens.schedule = .ofSettings { endTime := 40, timeStep := 10 } from rfl)
      (Sample.loneDeparture.safe Sample.constructed_tens.closed)
      (Loading.sound_empty Sample.tens.supply.layout ⟨1, 0⟩) 0
  obtain ⟨memory, u, hresult⟩ : ∃ memory u,
      Sample.tens.run (Sample.loneDeparture.controller Sample.tens) 0
        (.empty Sample.tens.supply.layout ⟨1, 0⟩) = .ok (.ok 40, memory, u) := ⟨_, _, rfl⟩
  rw [hrun] at hresult
  obtain rfl : result = .ok 40 := congrArg Prod.fst (Except.ok.inj hresult)
  exact ⟨rounds, last, d, t, hrun, hacts, hgoverns⟩

end Engine

end NetworkLoading
