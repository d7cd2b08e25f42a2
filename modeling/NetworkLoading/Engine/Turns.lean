import NetworkLoading.Engine
import NetworkLoading.Loading.Phases

/-!
# Time steps of several threads

With more than one partition, every partition has a thread of its own. The threads take turns in the
link phase, wait for each other, and take turns in the node phase.
-/

namespace NetworkLoading

/-- Which thread is next, action by action, in the two phases of a time step. -/
structure Turns where
  forLinks : List Nat := []
  forNodes : List Nat := []

namespace Engine

/-- The nodes and agents of all partitions together. The failure of the first partition that failed
is kept. -/
def total : List (Except LoadingError (Nat × Nat)) → Except LoadingError (Nat × Nat)
  | [] => .ok (0, 0)
  | moved :: rest =>
    moved.bind fun (nodes, agents) => (total rest).map fun (n, a) => (nodes + n, agents + a)

/-- A time step whose threads take the given turns. -/
def stepInTurns (engine : Engine) (s : Loading) (now : UInt32) (turns : Turns) :
    Except Fault (Outcome StepStats) :=
  let parts := List.range engine.supply.layout.numParts
  (Pool.run s (parts.map (Job.linkPhase engine.supply now)) turns.forLinks).bind
    fun (links, s) =>
      -- No thread is let into the node phase before every thread has left the link phase.
      (Pool.run s (parts.map (Job.nodePhase engine.supply now)) turns.forNodes).map
        fun (moved, s) =>
          ((total moved).map fun (nodes, agents) =>
            { now, links := links.foldr (· + ·) 0, nodes, agents }, s)

end Engine

end NetworkLoading
