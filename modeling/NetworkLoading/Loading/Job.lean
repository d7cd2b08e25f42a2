import NetworkLoading.Loading.Action

/-!
# Threads

What a thread has to do is a job: one action after the other, where each may depend on what was
learnt from those before. Threads which run at the same time take turns. Which of them is next after
an action is up to nobody here, so that the turns are given from outside.
-/

namespace NetworkLoading

/-- What a thread has to do until it yields a result. -/
inductive Job (α : Type) : Type 1 where
  | done (result : α)
  | fail (fault : Fault)
  | act {β : Type} (action : Action β) (next : β → Job α)

namespace Job

variable {α β : Type}

/-- Goes on with the result of a job. -/
def bind : Job α → (α → Job β) → Job β
  | done result, f => f result
  | fail fault, _ => fail fault
  | act action next, f => act action fun answer => (next answer).bind f

instance : Monad Job where
  pure := done
  bind := bind

/-- A single action. -/
def perform (action : Action β) : Job β :=
  act action done

/-- The result of a look-up which may fault. -/
def ofExcept : Except Fault α → Job α
  | .ok result => done result
  | .error fault => fail fault

/-- A thread runs from its first action to its last one. -/
def run (s : Loading) : Job α → Except Fault (α × Loading)
  | done result => .ok (result, s)
  | fail fault => .error fault
  | act action next =>
    match s.act action with
    | .ok (answer, s) => (next answer).run s
    | .error fault => .error fault

end Job

/-! ## Threads at the same time -/

/-- Threads, each with what it still has to do. -/
abbrev Pool (α : Type) := List (Job α)

namespace Pool

variable {α : Type}

/-- One of the threads performs its next action, if it has any left. -/
def turn (s : Loading) (pool : Pool α) (thread : Nat) : Except Fault (Pool α × Loading) :=
  match pool[thread]? with
  | some (.act action next) =>
    (s.act action).map fun (answer, s) => (pool.set thread (next answer), s)
  -- A thread which faults takes the others down.
  | some (.fail fault) => .error fault
  -- A turn of a thread which is at its end, or is not there, goes by without effect.
  | some (.done _) | none => .ok (pool, s)

/-- The threads run to their ends, one after the other. -/
def finish (s : Loading) : Pool α → Except Fault (List α × Loading)
  | [] => .ok ([], s)
  | job :: rest =>
    (job.run s).bind fun (result, s) =>
      (finish s rest).map fun (results, s) => (result :: results, s)

/-- The threads take turns. What is left to do after the given turns is done thread by thread. -/
def run (s : Loading) (pool : Pool α) : List Nat → Except Fault (List α × Loading)
  | [] => pool.finish s
  | thread :: turns => (pool.turn s thread).bind fun (pool, s) => run s pool turns

end Pool

end NetworkLoading
