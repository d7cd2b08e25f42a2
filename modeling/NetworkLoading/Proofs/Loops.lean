import NetworkLoading.Engine.Run
import NetworkLoading.Proofs.Calls

/-!
# Loops over time steps

A loop asks its controller, makes a time step and goes on, until there is a reason to end. What
happens in it is told by an account: the time steps which were made, and how the loop ended.
-/

namespace NetworkLoading

namespace Engine

variable {engine : Engine} {σ τ : Type}

/-- How a loop goes on after a time step. -/
def resume (engine : Engine) (control : Controller σ) (c : σ) (now progressAt : UInt32)
    (budget : Nat) (exhausted : Bool) :
    Outcome StepStats → Except Fault (Except LoadingError UInt32 × σ × Loading)
  | (.error error, s) => .ok (.error error, c, s)
  | (.ok stats, s) =>
    match engine.afterStep s stats now progressAt exhausted with
    | (.ended now, s) => .ok (.ok now, c, s)
    | (.again now progressAt, s) => engine.loop control c s now progressAt budget

theorem loop_succ (control : Controller σ) (c : σ) (s : Loading) (now progressAt : UInt32)
    (budget : Nat) : engine.loop control c s now progressAt (budget + 1) =
      if now < engine.schedule.stop then
        (control c s now).bind fun (answer, c, s) =>
          if answer = .stop then
            .ok (.ok now, c, s.say (.info s!"Stopping network loading at {now}."))
          else
            (engine.step s now).bind
              (engine.resume control c now progressAt budget (answer = .exhausted))
      else .ok (.ok now, c, s) := by
  rw [loop]
  split
  · cases control c s now with
    | error fault => rfl
    | ok x =>
      obtain ⟨answer, c, s⟩ := x
      cases answer
      case stop => rfl
      all_goals
        simp only [Except.bind, reduceCtorEq, ↓reduceIte]
        cases engine.step s now with
        | error fault => rfl
        | ok x =>
          obtain ⟨stats, s⟩ := x
          cases stats <;> rfl
  · rfl

theorem afterStep_keeps (engine : Engine) {P : Loading → Prop}
    (hsay : ∀ s line, P s → P (s.say line)) {s : Loading} (h : P s) (stats : StepStats)
    (now progressAt : UInt32) (exhausted : Bool) :
    P (engine.afterStep s stats now progressAt exhausted).2 := by
  unfold afterStep
  dsimp only
  split <;> split <;> first | exact hsay _ _ (hsay _ _ h) | exact hsay _ _ h | exact h

/-- The message about the progress, if it is due, and when the next one is. -/
def report (engine : Engine) (s : Loading) (stats : StepStats) (now progressAt : UInt32) :
    UInt32 × Loading :=
  if engine.schedule.progress != 0 && progressAt ≤ now then
    (addTime now engine.schedule.progress, s.say (progressLine s stats))
  else (progressAt, s)

theorem resembles_report (engine : Engine) (s : Loading) (stats : StepStats)
    (now progressAt : UInt32) : s.Resembles (engine.report s stats now progressAt).2 := by
  unfold report
  split
  · exact Loading.resembles_say s _
  · exact .refl s

theorem afterStep_eq (engine : Engine) (s : Loading) (stats : StepStats) (now progressAt : UInt32)
    (exhausted : Bool) : engine.afterStep s stats now progressAt exhausted =
      let later := addTime now engine.schedule.step
      let (progress, t) := engine.report s stats now progressAt
      if engine.schedule.stopWhenEmpty && exhausted && s.traffic.onNetwork = 0 then
        (.ended later, t.say (.info s!"No agents left on the network at {later}."))
      else (.again later progress, t) := by
  unfold afterStep report
  by_cases hdue : (engine.schedule.progress != 0 && progressAt ≤ now) = true
  · simp only [if_pos hdue]
    rfl
  · simp only [if_neg hdue]

/-- After a step nothing but messages is added, and time goes on. -/
theorem afterStep_cases (engine : Engine) (s : Loading) (stats : StepStats)
    (now progressAt : UInt32) (exhausted : Bool) :
    ∃ t, s.Resembles t ∧
      (engine.afterStep s stats now progressAt exhausted =
          (.ended (addTime now engine.schedule.step), t) ∨
        ∃ progress, engine.afterStep s stats now progressAt exhausted =
          (.again (addTime now engine.schedule.step) progress, t)) := by
  have hreport := resembles_report engine s stats now progressAt
  rw [afterStep_eq]
  dsimp only
  split
  · exact ⟨_, hreport.trans (Loading.resembles_say _ _), .inl rfl⟩
  · exact ⟨_, hreport, .inr ⟨_, rfl⟩⟩

theorem of_afterStep_ended {engine : Engine} {s t : Loading} {stats : StepStats}
    {now progressAt later : UInt32} {exhausted : Bool}
    (h : engine.afterStep s stats now progressAt exhausted = (.ended later, t)) :
    later = addTime now engine.schedule.step ∧ s.Resembles t := by
  obtain ⟨u, hu, he | ⟨progress, he⟩⟩ := engine.afterStep_cases s stats now progressAt exhausted
  all_goals cases h.symm.trans he
  exact ⟨rfl, hu⟩

theorem of_afterStep_again {engine : Engine} {s t : Loading} {stats : StepStats}
    {now progressAt later progress : UInt32} {exhausted : Bool}
    (h : engine.afterStep s stats now progressAt exhausted = (.again later progress, t)) :
    later = addTime now engine.schedule.step ∧ s.Resembles t := by
  obtain ⟨u, hu, he | ⟨progress, he⟩⟩ := engine.afterStep_cases s stats now progressAt exhausted
  all_goals cases h.symm.trans he
  exact ⟨rfl, hu⟩

/-- What the controller and every step keep holds at the end of a loop in which no step failed. What
follows for the controller holds even then. -/
theorem loop_keeps {control : Controller σ} {P : σ → Loading → Prop} {Q : σ → Prop}
    (hfollows : ∀ c s, P c s → Q c) (hsay : ∀ c s line, P c s → P c (s.say line))
    (hcontrol : ∀ c s now, P c s →
      ∃ answer d t, control c s now = .ok (answer, d, t) ∧ P d t)
    (hstep : ∀ c s now, P c s → ∃ stats t, engine.step s now = .ok (stats, t) ∧
      ∀ counts, stats = .ok counts → P c t) (budget : Nat) {c : σ} {s : Loading}
    {now progressAt : UInt32} (h : P c s) :
    ∃ result d t, engine.loop control c s now progressAt budget = .ok (result, d, t) ∧ Q d ∧
      ∀ stopped, result = .ok stopped → P d t := by
  -- The invariant is asked for before each call of the control, so a failed step may break it.
  induction budget generalizing c s now progressAt with
  | zero => exact ⟨.ok now, c, s, rfl, hfollows c s h, fun _ _ => h⟩
  | succ budget ih =>
    rw [loop_succ]
    split
    · obtain ⟨answer, d, t, hanswer, ht⟩ := hcontrol c s now h
      obtain ⟨stats, u, hu, hok⟩ := hstep d t now ht
      simp only [hanswer, Except.bind, hu]
      split
      · exact ⟨.ok now, d, _, rfl, hfollows d t ht, fun _ _ => hsay d t _ ht⟩
      · cases stats with
        | error error => exact ⟨.error error, d, u, rfl, hfollows d t ht, nofun⟩
        | ok counts =>
          have hafter := afterStep_keeps engine (hsay d) (hok counts rfl) counts now progressAt
            (answer = .exhausted)
          rw [resume]
          split
          · rename_i later v hended
            rw [hended] at hafter
            exact ⟨.ok later, d, v, rfl, hfollows d v hafter, fun _ _ => hafter⟩
          · rename_i later progress v hagain
            rw [hagain] at hafter
            exact ih hafter
    · exact ⟨.ok now, c, s, rfl, hfollows c s h, fun _ _ => h⟩

/-- One controller does the same as another one, which keeps more in mind. -/
def Forgets (forget : σ → τ) (control : Controller σ) (control' : Controller τ) : Prop :=
  ∀ c s now, control' (forget c) s now =
    (control c s now).map fun (answer, c, s) => (answer, forget c, s)

theorem loop_forget {forget : σ → τ} {control : Controller σ} {control' : Controller τ}
    (h : Forgets forget control control') (budget : Nat) (c : σ) (s : Loading)
    (now progressAt : UInt32) :
    engine.loop control' (forget c) s now progressAt budget =
      (engine.loop control c s now progressAt budget).map fun (result, c, s) =>
        (result, forget c, s) := by
  -- Both loops ask their controls, step and look at the counts in lockstep.
  induction budget generalizing c s now progressAt with
  | zero => rfl
  | succ budget ih =>
    rw [loop_succ, loop_succ]
    split
    · rw [h c s now]
      cases control c s now with
      | error fault => rfl
      | ok x =>
        obtain ⟨answer, c, s⟩ := x
        simp only [Except.bind, Except.map]
        split
        · rfl
        · cases engine.step s now with
          | error fault => rfl
          | ok x =>
            obtain ⟨stats, s⟩ := x
            cases stats with
            | error error => rfl
            | ok stats =>
              dsimp only [resume]
              split
              · rfl
              · exact ih ..
    · rfl

/-- The time steps of a run, before those who are left on the network are removed. -/
def steps (engine : Engine) (control : Controller σ) (c : σ) (s : Loading) :
    Except Fault (Except LoadingError UInt32 × σ × Loading) :=
  let start := engine.schedule.start
  let stop := engine.schedule.stop
  let s := s.say (.info (s!"Starting network loading from {start} to {stop} with "
    ++ s!"{engine.supply.layout.numParts} partitions."))
  engine.loop control c s start start (stop.toNat - start.toNat)

theorem run_eq_steps (control : Controller σ) (c : σ) (s : Loading) :
    engine.run control c s = (engine.steps control c s).map fun (result, c, s) =>
      match result with
      | .error error => (.error error, c, s)
      | .ok now => (.ok now, c, (finish s now).2) := rfl

/-- A run with a controller which keeps less in mind comes to the same state. -/
theorem run_forget {forget : σ → τ} {control : Controller σ} {control' : Controller τ}
    (h : Forgets forget control control') (c : σ) (s : Loading) :
    engine.run control' (forget c) s = (engine.run control c s).map fun (result, c, s) =>
      (result, forget c, s) := by
  have hsteps : engine.steps control' (forget c) s =
      (engine.steps control c s).map fun (result, c, s) => (result, forget c, s) :=
    loop_forget h ..
  rw [run_eq_steps, run_eq_steps, hsteps]
  cases engine.steps control c s with
  | error fault => rfl
  | ok x =>
    obtain ⟨result, d, t⟩ := x
    cases result <;> rfl

/-! ## Accounts -/

end Engine

/-- The time at which the controller is asked for the first time, the second time, and so on. -/
def Schedule.time (schedule : Schedule) : Nat → UInt32
  | 0 => schedule.start
  | count + 1 => addTime (schedule.time count) schedule.step

theorem le_addTime (a b : UInt32) : a ≤ addTime a b := by
  unfold addTime
  have ha := a.toNat_lt
  split
  · rename_i hsmall
    rw [UInt32.le_iff_toNat_le, UInt32.toNat_add, Nat.mod_eq_of_lt hsmall]
    exact Nat.le_add_right _ _
  · rw [UInt32.le_iff_toNat_le]
    exact Nat.le_of_lt_succ ha

/-- A time step which succeeded, with the answer of the controller before it and the state after
it. -/
structure Round where
  now : UInt32
  answer : RunControl
  after : Loading

/-- Why no more time steps are made. -/
inductive Ending where
  /-- The time is up. -/
  | elapsed (now : UInt32)
  /-- The controller ended the run. -/
  | stopped (now : UInt32)
  /-- Nobody was left on the network, and no more agents were to follow. -/
  | emptied (now : UInt32)
  | failed (error : LoadingError)

def Ending.result : Ending → Except LoadingError UInt32
  | elapsed now | stopped now | emptied now => .ok now
  | failed error => .error error

/-- What happens in a loop, and the memory of the controller and the state afterwards. -/
structure Account (σ : Type) where
  rounds : List Round
  ending : Ending
  memory : σ
  state : Loading

namespace Account

variable {σ : Type}

/-- What happens in a loop which starts with one more time step. -/
def precede (r : Round) (account : Account σ) : Account σ :=
  { account with rounds := r :: account.rounds }

/-- The state after a run. Unless it failed, all who are left on the network are removed. -/
def final (account : Account σ) : Loading :=
  match account.ending.result with
  | .error _ => account.state
  | .ok now => (Engine.finish account.state now).2

end Account

namespace Engine

variable {σ : Type}

/-- What is said before the first time step. -/
def announce (engine : Engine) (s : Loading) : Loading :=
  let start := engine.schedule.start
  let stop := engine.schedule.stop
  s.say (.info (s!"Starting network loading from {start} to {stop} with "
    ++ s!"{engine.supply.layout.numParts} partitions."))

/-- How a loop which may make a number of time steps proceeds, with what happens in it. -/
inductive Loops (engine : Engine) (control : Controller σ) :
    σ → Loading → UInt32 → UInt32 → Nat → Account σ → Prop
  | spent {c : σ} {s : Loading} {now progressAt : UInt32} :
      Loops engine control c s now progressAt 0 ⟨[], .elapsed now, c, s⟩
  | elapsed {c : σ} {s : Loading} {now progressAt : UInt32} {budget : Nat}
      (hlate : ¬ now < engine.schedule.stop) :
      Loops engine control c s now progressAt (budget + 1) ⟨[], .elapsed now, c, s⟩
  | stopped {c d : σ} {s t : Loading} {now progressAt : UInt32} {budget : Nat}
      (hnow : now < engine.schedule.stop) (hcontrol : control c s now = .ok (.stop, d, t)) :
      Loops engine control c s now progressAt (budget + 1)
        ⟨[], .stopped now, d, t.say (.info s!"Stopping network loading at {now}.")⟩
  | failed {c d : σ} {s t u : Loading} {now progressAt : UInt32} {budget : Nat}
      {answer : RunControl} {error : LoadingError} (hnow : now < engine.schedule.stop)
      (hcontrol : control c s now = .ok (answer, d, t)) (hanswer : answer ≠ .stop)
      (hstep : engine.step t now = .ok (.error error, u)) :
      Loops engine control c s now progressAt (budget + 1) ⟨[], .failed error, d, u⟩
  | emptied {c d : σ} {s t u v : Loading} {now progressAt later : UInt32} {budget : Nat}
      {answer : RunControl} {stats : StepStats} (hnow : now < engine.schedule.stop)
      (hcontrol : control c s now = .ok (answer, d, t)) (hanswer : answer ≠ .stop)
      (hstep : engine.step t now = .ok (.ok stats, u))
      (hafter : engine.afterStep u stats now progressAt (answer = .exhausted) = (.ended later, v)) :
      Loops engine control c s now progressAt (budget + 1)
        ⟨[⟨now, answer, u⟩], .emptied later, d, v⟩
  | again {c d : σ} {s t u v : Loading} {now progressAt later progress : UInt32} {budget : Nat}
      {answer : RunControl} {stats : StepStats} {account : Account σ}
      (hnow : now < engine.schedule.stop) (hcontrol : control c s now = .ok (answer, d, t))
      (hanswer : answer ≠ .stop) (hstep : engine.step t now = .ok (.ok stats, u))
      (hafter : engine.afterStep u stats now progressAt (answer = .exhausted) =
        (.again later progress, v))
      (hrest : Loops engine control d v later progress budget account) :
      Loops engine control c s now progressAt (budget + 1) (account.precede ⟨now, answer, u⟩)

variable {engine : Engine} {control : Controller σ} {c : σ} {s : Loading}
  {now progressAt : UInt32} {budget : Nat} {account : Account σ}

theorem Loops.loop_eq (h : engine.Loops control c s now progressAt budget account) :
    engine.loop control c s now progressAt budget =
      .ok (account.ending.result, account.memory, account.state) := by
  induction h with
  | spent => rfl
  | elapsed hlate =>
    rw [loop_succ, if_neg hlate]
    rfl
  | stopped hnow hcontrol =>
    simp only [loop_succ, if_pos hnow, hcontrol, Except.bind]
    rfl
  | failed hnow hcontrol hanswer hstep =>
    simp only [loop_succ, if_pos hnow, hcontrol, Except.bind, if_neg hanswer, hstep]
    rfl
  | emptied hnow hcontrol hanswer hstep hafter =>
    simp only [loop_succ, if_pos hnow, hcontrol, Except.bind, if_neg hanswer, hstep, resume, hafter]
    rfl
  | again hnow hcontrol hanswer hstep hafter _ ih =>
    simp only [loop_succ, if_pos hnow, hcontrol, Except.bind, if_neg hanswer, hstep, resume, hafter]
    exact ih

/-- Every loop without a fault has an account. -/
theorem exists_loops {x : Except LoadingError UInt32 × σ × Loading}
    (h : engine.loop control c s now progressAt budget = .ok x) :
    ∃ account, engine.Loops control c s now progressAt budget account := by
  -- Each branch the loop takes is one rule of the relation.
  induction budget generalizing c s now progressAt with
  | zero => exact ⟨_, .spent⟩
  | succ budget ih =>
    rw [loop_succ] at h
    split at h
    · rename_i hnow
      obtain ⟨⟨answer, d, t⟩, hcontrol, h⟩ := exists_of_bind_eq_ok h
      dsimp only at h
      split at h
      · rename_i hstop
        subst hstop
        exact ⟨_, .stopped hnow hcontrol⟩
      · rename_i hanswer
        obtain ⟨⟨stats, u⟩, hstep, h⟩ := exists_of_bind_eq_ok h
        cases stats with
        | error error => exact ⟨_, .failed hnow hcontrol hanswer hstep⟩
        | ok stats =>
          rw [resume] at h
          split at h
          · rename_i hafter
            exact ⟨_, .emptied hnow hcontrol hanswer hstep hafter⟩
          · rename_i hafter
            obtain ⟨account, hrest⟩ := ih h
            exact ⟨_, .again hnow hcontrol hanswer hstep hafter hrest⟩
    · rename_i hlate
      exact ⟨_, .elapsed hlate⟩

/-- The account of a run which starts in a state. -/
structure Tells (engine : Engine) (control : Controller σ) (c : σ) (s : Loading)
    (account : Account σ) : Prop where
  loops : engine.Loops control c (engine.announce s) engine.schedule.start engine.schedule.start
    (engine.schedule.stop.toNat - engine.schedule.start.toNat) account
  run : engine.run control c s = .ok (account.ending.result, account.memory, account.final)

theorem Loops.tells (h : engine.Loops control c (engine.announce s) engine.schedule.start
      engine.schedule.start (engine.schedule.stop.toNat - engine.schedule.start.toNat) account) :
    engine.Tells control c s account := by
  refine ⟨h, ?_⟩
  have hsteps : engine.steps control c s = .ok (_, _, _) := h.loop_eq
  rw [run_eq_steps, hsteps, Account.final]
  dsimp only [Except.map]
  cases account.ending.result <;> rfl

end Engine

end NetworkLoading
