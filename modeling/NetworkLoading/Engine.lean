import NetworkLoading.Config
import NetworkLoading.Loading.Sweep

/-!
# The engine

The engine moves agents over the network, one time step at a time. In every step all partitions
first advance their active links; then all partitions advance their active nodes.
-/

namespace NetworkLoading

/-- When a run starts, ends and tells about itself. Time goes on in every step. -/
structure Schedule where
  start : UInt32
  stop : UInt32
  step : UInt32
  progress : UInt32
  stopWhenEmpty : Bool
  step_ne_zero : step ≠ 0

/-- A time step of zero is replaced by one. -/
def Schedule.ofSettings (c : Config.Simulation) : Schedule :=
  if h : c.timeStep = 0 then
    { start := c.startTime, stop := c.endTime, step := 1, progress := c.progressInterval
      stopWhenEmpty := c.stopWhenEmpty, step_ne_zero := by decide }
  else
    { start := c.startTime, stop := c.endTime, step := c.timeStep, progress := c.progressInterval
      stopWhenEmpty := c.stopWhenEmpty, step_ne_zero := h }

structure Engine where
  supply : Supply
  schedule : Schedule

/-- What happened in one time step, in all partitions together. -/
structure StepStats where
  now : UInt32
  links : Nat := 0
  nodes : Nat := 0
  /-- Agents whom nodes took from links. -/
  agents : Nat := 0
deriving DecidableEq

namespace Engine

/-! ## Construction -/

/-- An engine together with the messages about its construction. -/
structure Built where
  engine : Engine
  log : List LogLine

/-- The modes of the links of a network. -/
def linkModes (net : Network) : List ModeId :=
  (net.links.flatMap (·.modes)).eraseDups

/-- Divides a network into the partitions that are asked for, unless it is already. -/
def divided (net : Network) (c : Config.Partitioning) : Except Fault (Network × List LogLine) :=
  let parts := max c.numParts 1
  -- A network which came with as many partitions keeps them, whatever the method is.
  if net.numParts = parts then .ok (net, [])
  else
    (net.divide parts c.method).map fun net =>
      (net, [.info s!"Partitioning network into {parts} parts with method {c.method.name}."])

/-- An engine for the given modes. Fails if one of them has no travel time; if there are none, the
modes of the links need one. -/
def build (net : Network) (config : Config) (modes : List ModeId) (travelTimes : TravelTimes) :
    Except Fault (Except LoadingError Built) :=
  -- Without modes the network is open to all of its links, so their modes must be able to travel.
  match travelTimes.validate (if modes.isEmpty then linkModes net else modes) with
  | .error error => .ok (.error error)
  | .ok () =>
    (divided net config.partitioning).bind fun (net, log) =>
      (Layout.ofNetwork net modes).map fun layout =>
        let engine :=
          { supply := { layout, travelTimes }, schedule := .ofSettings config.simulation }
        let warning := LogLine.warn "Time step of 0 is not possible. Using 1 instead."
        let warnings := if config.simulation.timeStep = 0 then [warning] else []
        .ok { engine, log := log ++ layout.report net :: warnings }

variable (engine : Engine)

/-! ## Agents who come onto the network -/

/-- An agent ends an activity on a link and starts its leg. If the leg ends there, too, the agent
never comes onto the network. Yields whether it did. -/
def depart (s : Loading) (agent : Agent) (linkId : LinkId) (now : UInt32) :
    Except Fault (Except Rejected Bool × Loading) :=
  match engine.supply.layout.link? linkId with
  | none => .ok (.error { agent, error := .unknownLink linkId }, s)
  | some link =>
    if (engine.supply.travelTimes.get? agent.mode).isNone then
      .ok (.error { agent, error := .missingTravelTime agent.mode }, s)
    -- The agent has been checked like any other before it is found to have arrived.
    else if agent.endsOn linkId then .ok (.ok false, s.handOver (agent.arrive now))
    else (s.departOn link agent now).map fun s => (.ok true, s)

/-- An agent who was moved over a node somewhere else comes onto a link. -/
def enter (s : Loading) (agent : Agent) (linkId : LinkId) (now : UInt32) :
    Except Fault (Except Rejected Unit × Loading) :=
  match engine.supply.layout.link? linkId with
  | none => .ok (.error { agent, error := .unknownLink linkId }, s)
  | some link => s.enterLink engine.supply link agent now

/-! ## Time steps -/

/-- The link phases of partitions, one after the other. Yields the number of links. -/
def linkPhase (s : Loading) (now : UInt32) : List Nat → Except Fault (Nat × Loading)
  | [] => .ok (0, s)
  | part :: rest =>
    (s.sweepLinks engine.supply part now).bind fun (links, s) =>
      (linkPhase s now rest).map fun (more, s) => (links + more, s)

/-- The node phases of partitions, one after the other. A failure ends the phase of its own
partition only; the first one is kept. Yields the number of nodes and of agents. -/
def nodePhase (s : Loading) (now : UInt32) : List Nat → Except Fault (Outcome (Nat × Nat))
  | [] => .ok (.ok (0, 0), s)
  | part :: rest =>
    (s.sweepNodes engine.supply part now).bind fun (moved, s) =>
      (nodePhase s now rest).map fun (more, s) =>
        -- The other partitions were at work at the same time, so what they did is kept.
        (moved.bind fun (nodes, agents) => more.map fun (n, a) => (nodes + n, agents + a), s)

/-- A time step with the partitions in the given orders, one for each phase. -/
def stepInOrder (s : Loading) (now : UInt32) (forLinks forNodes : List Nat) :
    Except Fault (Outcome StepStats) :=
  (engine.linkPhase s now forLinks).bind fun (links, s) =>
    (engine.nodePhase s now forNodes).map fun (moved, s) =>
      (moved.map fun (nodes, agents) => { now, links, nodes, agents }, s)

/-- A time step: all active links, then all active nodes. -/
def step (s : Loading) (now : UInt32) : Except Fault (Outcome StepStats) :=
  let parts := List.range engine.supply.layout.numParts
  engine.stepInOrder s now parts parts

/-- Removes all agents who are still on the network as stuck. Yields their number. -/
def finish (s : Loading) (now : UInt32) : Nat × Loading :=
  let (stuck, s) := s.clear now
  let s :=
    -- There is no warning at the end of a run in which everyone arrived.
    if 0 < stuck then
      s.say (.warn s!"Removed {stuck} stuck agents from the network at {now}.")
    else s
  let p := s.record.population
  (stuck, s.say (.info (s!"Network loading finished at {now}. "
    ++ s!"Living agents: {p.living}, lost agents: {p.lost}.")))

/-- Prepares for another run. Agents who are still on the network are dropped. -/
def reset (s : Loading) : Loading :=
  let (dropped, s) := s.drop
  if 0 < dropped then
    s.say (.warn s!"Dropped {dropped} agents while resetting the network engine.")
  else s

end Engine

end NetworkLoading
