import NetworkLoading.Engine

/-!
# Runs

A run repeats time steps from the start to the end of the schedule. Before each of them a controller
is asked: it may put agents onto the network, and it tells whether more will follow.
-/

namespace NetworkLoading

/-- What a controller tells before a time step. -/
inductive RunControl where
  /-- More agents may follow. -/
  | continue
  /-- No more agents will follow. -/
  | exhausted
  /-- The run ends before this time step. -/
  | stop
deriving DecidableEq

/-- Who is asked before every time step, with a state of its own. -/
abbrev Controller (σ : Type) :=
  σ → Loading → UInt32 → Except Fault (RunControl × σ × Loading)

/-- Addition which stops at the greatest time. -/
def addTime (a b : UInt32) : UInt32 :=
  if a.toNat + b.toNat < UInt32.size then a + b else 4294967295

namespace Engine

variable (engine : Engine)

/-- The message about the progress after a time step. -/
def progressLine (s : Loading) (stats : StepStats) : LogLine :=
  let links := s.traffic.activeLinks.size
  let nodes := s.traffic.activeNodes.size
  let p := s.record.population
  .info <| s!"#{stats.now}: links: {links} active {stats.links} moved, "
    ++ s!"nodes: {nodes} active {stats.nodes} moved, agents: {s.traffic.onNetwork} on network "
    ++ s!"{p.living} living {p.lost} lost"

/-- How the loop over the time steps goes on after a step. -/
inductive Next where
  | ended (now : UInt32)
  | again (now progressAt : UInt32)

/-- What follows a time step: the message if one is due, and the next time. -/
def afterStep (s : Loading) (stats : StepStats) (now progressAt : UInt32) (exhausted : Bool) :
    Next × Loading :=
  let due := engine.schedule.progress != 0 && progressAt ≤ now
  let s := if due then s.say (progressLine s stats) else s
  let progressAt := if due then addTime now engine.schedule.progress else progressAt
  let now := addTime now engine.schedule.step
  -- Whether the network is empty is asked after the step, of the time which comes next.
  if engine.schedule.stopWhenEmpty && exhausted && s.traffic.onNetwork = 0 then
    (.ended now, s.say (.info s!"No agents left on the network at {now}."))
  else (.again now progressAt, s)

/-- At most `budget` time steps from `now` on. Yields when the loop ended. -/
def loop {σ : Type} (control : Controller σ) (c : σ) (s : Loading) (now progressAt : UInt32) :
    Nat → Except Fault (Except LoadingError UInt32 × σ × Loading)
  | 0 => .ok (.ok now, c, s)
  | budget + 1 =>
    -- A run whose end is not after its start takes no step at all.
    if now < engine.schedule.stop then
      (control c s now).bind fun (answer, c, s) =>
        match answer with
        | .stop => .ok (.ok now, c, s.say (.info s!"Stopping network loading at {now}."))
        | answer =>
          (engine.step s now).bind fun (stats, s) =>
            match stats with
            -- The agents are left where they are, and nobody is told of their end.
            | .error error => .ok (.error error, c, s)
            | .ok stats =>
              match engine.afterStep s stats now progressAt (answer = .exhausted) with
              | (.ended now, s) => .ok (.ok now, c, s)
              | (.again now progressAt, s) => loop control c s now progressAt budget
    else .ok (.ok now, c, s)

/-- Runs from the start to the end of the schedule. Agents who are on the network then are removed
as stuck. Yields the time at which the run ended. Every step takes time, so there are no more steps
than seconds between start and end. -/
def run {σ : Type} (control : Controller σ) (c : σ) (s : Loading) :
    Except Fault (Except LoadingError UInt32 × σ × Loading) :=
  let start := engine.schedule.start
  let stop := engine.schedule.stop
  let s := s.say (.info (s!"Starting network loading from {start} to {stop} with "
    ++ s!"{engine.supply.layout.numParts} partitions."))
  (engine.loop control c s start start (stop.toNat - start.toNat)).map fun (result, c, s) =>
    match result with
    | .error error => (.error error, c, s)
    | .ok now => (.ok now, c, (finish s now).2)

end Engine

end NetworkLoading
