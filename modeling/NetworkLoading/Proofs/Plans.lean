import NetworkLoading.Proofs.Deserted
import NetworkLoading.Proofs.Loops
import NetworkLoading.Proofs.Sessions

/-!
# Planned controllers

A controller follows a plan if what it does depends on nothing but how often it was asked before and
on the time. Such a controller makes the same calls in runs of different length.
-/

namespace NetworkLoading

/-! ## Plans -/

/-- What a controller does when it is asked: the calls which it makes, and its answer. -/
structure Directive where
  calls : List Call
  answer : RunControl

/-- No agent is put onto the network, and none is announced. -/
structure Directive.Closes (engine : Engine) (d : Directive) : Prop where
  answer : d.answer ≠ .continue
  calls : ∀ call ∈ d.calls, engine.admits call = false

theorem Directive.Closes.exhausted {engine : Engine} {d : Directive} (h : d.Closes engine)
    (hanswer : d.answer ≠ .stop) : d.answer = .exhausted := by
  have hgo := h.answer
  cases hd : d.answer <;> first | rfl | contradiction

/-- What a controller does depends on nothing but how often it was asked before, and the time. -/
abbrev Plan := Nat → UInt32 → Directive

namespace Plan

variable (plan : Plan) (engine : Engine)

/-- Follows a plan. The memory is how often the controller was asked. -/
def controller : Controller Nat := fun count s now =>
  let calls := (plan count now).calls.map (·, .ascending engine.supply.layout)
  (engine.session s calls).map fun (_, s) => ((plan count now).answer, count + 1, s)

/-- What is planned for the question which follows a number of others. -/
def directive (count : Nat) : Directive :=
  plan count (engine.schedule.time count)

variable {σ : Type}

/-- With no question of a loop the controller puts agents onto the network or announces any. Before
the loop it was asked `count` times. -/
def ClosesIn (count : Nat) (account : Account σ) : Prop :=
  ∀ k, count ≤ k → k ≤ count + account.rounds.length →
    engine.schedule.time k < engine.schedule.stop → (plan.directive engine k).Closes engine

/-- As soon as the controller has told in a loop that no more agents will follow, it puts none onto
the network and announces none. -/
def Wanes (count : Nat) (account : Account σ) : Prop :=
  ∀ j k, count ≤ j → j < k → k ≤ count + account.rounds.length →
    engine.schedule.time k < engine.schedule.stop →
      (plan.directive engine j).answer = .exhausted → (plan.directive engine k).Closes engine

variable {plan engine} {count : Nat} {account : Account σ} {r : Round}

theorem ClosesIn.head (h : plan.ClosesIn engine count account)
    (hlt : engine.schedule.time count < engine.schedule.stop) :
    (plan.directive engine count).Closes engine :=
  h count le_rfl (Nat.le_add_right _ _) hlt

theorem ClosesIn.tail (h : plan.ClosesIn engine count (account.precede r)) :
    plan.ClosesIn engine (count + 1) account := by
  intro k hle hlast
  refine h k (Nat.le_of_succ_le hle) ?_
  simp only [Account.precede, List.length_cons]
  omega

theorem Wanes.tail (h : plan.Wanes engine count (account.precede r)) :
    plan.Wanes engine (count + 1) account := by
  intro j k hle hlt hlast
  refine h j k (Nat.le_of_succ_le hle) hlt ?_
  simp only [Account.precede, List.length_cons]
  omega

theorem Wanes.closesIn (h : plan.Wanes engine count (account.precede r))
    (hexhausted : (plan.directive engine count).answer = .exhausted) :
    plan.ClosesIn engine (count + 1) account := by
  intro k hle hlast hlt
  refine h count k le_rfl hle ?_ hlt hexhausted
  simp only [Account.precede, List.length_cons]
  omega

end Plan

/-! ## Planned controllers -/

namespace Plan

variable {plan : Plan} {engine : Engine} {s t : Loading} {now : UInt32} {count next : Nat}
  {answer : RunControl} {r : Record}

theorem controller_eq_ok (hc : engine.supply.layout.Closed) (hs : s.Sound engine.supply.layout)
    (count : Nat) (now : UInt32) :
    ∃ t stages, plan.controller engine count s now = .ok ((plan count now).answer, count + 1, t) ∧
      engine.Runs s stages t ∧ stages.map (·.call) = (plan count now).calls := by
  have ho : ∀ entry ∈ (plan count now).calls.map (·, Orders.ascending engine.supply.layout),
      entry.2.Whole engine.supply.layout := by
    intro entry hentry
    obtain ⟨call, -, rfl⟩ := List.mem_map.1 hentry
    exact Orders.whole_ascending _
  obtain ⟨stages, t, ht, hruns, hcalls⟩ := hs.session hc ho
  refine ⟨t, stages, ?_, hruns, ?_⟩
  · simp only [controller, ht, Except.map]
  · simpa [Function.comp_def] using hcalls

theorem answer_eq (h : plan.controller engine count s now = .ok (answer, next, t)) :
    answer = (plan count now).answer ∧ next = count + 1 := by
  obtain ⟨x, -, he⟩ := exists_of_map_eq_ok h
  cases he
  exact ⟨rfl, rfl⟩

theorem runs_of_controller (hc : engine.supply.layout.Closed)
    (hs : s.Sound engine.supply.layout)
    (h : plan.controller engine count s now = .ok (answer, next, t)) :
    ∃ stages, engine.Runs s stages t ∧ stages.map (·.call) = (plan count now).calls := by
  obtain ⟨u, stages, hu, hruns, hcalls⟩ := controller_eq_ok hc hs count now
  cases h.symm.trans hu
  exact ⟨stages, hruns, hcalls⟩

/-- A controller which puts nobody onto an empty network leaves it empty. -/
theorem deserted_of_controller (hc : engine.supply.layout.Closed)
    (hs : s.Deserted engine.supply.layout r)
    (h : plan.controller engine count s now = .ok (answer, next, t))
    (hcloses : (plan count now).Closes engine) : t.Deserted engine.supply.layout r := by
  obtain ⟨stages, hruns, hcalls⟩ := runs_of_controller hc hs.sound h
  refine hruns.deserted hc hs fun x hx => hcloses.calls x.call ?_
  rw [← hcalls]
  exact List.mem_map_of_mem hx

end Plan

end NetworkLoading
