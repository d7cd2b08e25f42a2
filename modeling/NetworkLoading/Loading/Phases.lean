import NetworkLoading.Loading.Nodes
import NetworkLoading.Loading.Job

/-!
# What the thread of a partition does

A thread advances the active links of its partition in the link phase of a time step and its active
nodes in the node phase, action by action.
-/

namespace NetworkLoading.Job

/-! ## The record -/

/-- An agent is stuck on a link and lost. Between telling of it and handing the agent over, other
threads may do the same with theirs. -/
def abort (agent : Agent) (link : LinkId) (now : UInt32) : Job Unit := do
  perform (.publish (.stuck now link agent.id (some agent.mode)))
  -- Between the two counts the agent is both lost and living.
  perform .incLost
  perform .decLiving
  perform (.handOver (agent.abort now))

/-! ## Activation -/

/-- Whoever marks a link adds it to the active set of its partition. -/
def activateLink (link : Link) : Job Unit := do
  if ← perform (.markLink link.id) then
    perform (.enqueueLink link.partition.toNat link.id)

/-- Whoever marks a node adds it to the active set of its partition. -/
def activateNode (node : Junction) : Job Unit := do
  if ← perform (.markNode node.id) then
    perform (.enqueueNode node.partition.toNat node.id)

/-! ## Links -/

/-- A node moves an agent onto a link. The agent is in the queue before the link is activated. -/
def enterLink (supply : Supply) (link : Link) (agent : Agent) (now : UInt32) :
    Job (Except Rejected Unit) :=
  match supply.travelTimes.exitTime link now agent with
  | .error error => pure (.error { agent, error })
  | .ok exitTime => do
    perform (.publish (.entered now link.id agent.id))
    perform (.countIn 1)
    perform (.insert link.id { exitTime, agent })
    activateLink link
    pure (.ok ())

/-- Ends the legs of those agents who have reached their destination. Yields the others. -/
def endLegs (link : LinkId) (now : UInt32) : List Agent → Job (List Agent)
  | [] => pure []
  | agent :: rest =>
    if agent.endsOn link then do
      perform (.countOut 1)
      perform (.handOver (agent.arrive now))
      endLegs link now rest
    else do
      let others ← endLegs link now rest
      pure (agent :: others)

/-- Lines those up at the end of a link who may leave it. Yields whether agents are in transit, and
whether any wait. -/
def lineUp (link : LinkId) (now : UInt32) : Job (Bool × Bool) := do
  -- Nobody comes into transit in a link phase, so the answer stays true until it is used.
  let (due, inTransit) ← perform (.release link now)
  let continuing ← endLegs link now due
  let roused ← perform (.rouse link)
  let waits ← perform (.line link (continuing ++ roused))
  pure (inTransit, waits)

/-- Moves the agents of a link. Yields whether agents are still in transit. -/
def advanceLink (supply : Supply) (link : Link) (now : UInt32) : Job Bool := do
  let (inTransit, waits) ← lineUp link.id now
  if waits then
    let node ← ofExcept (supply.layout.junction link.toNode)
    activateNode node
  pure inTransit

/-- Takes the first agent who waits to leave a link. -/
def pull (link : LinkId) (now : UInt32) : Job (Option Agent) := do
  match ← perform (.pull link) with
  | none => pure none
  | some agent => do
    perform (.countOut 1)
    perform (.publish (.left now link agent.id))
    pure (some agent)

/-! ## Nodes -/

/-- Moves an agent taken from `inLink` over a node, or takes it out. -/
def moveOver (supply : Supply) (node : Junction) (inLink : LinkId) (agent : Agent)
    (now : UInt32) : Job (Except LoadingError Unit) :=
  match Loading.nextLink supply.layout node inLink agent with
  | .error error => do
    perform (.say (.warn s!"Removing agent {agent.id.name} at time {now}: {error.message}"))
    abort agent inLink now
    pure (.ok ())
  | .ok link =>
    match agent.moveTo link.id with
    | .error fault _ => fail fault
    | .ok () agent => do
      match ← enterLink supply link agent now with
      | .ok () => pure (.ok ())
      | .error rejected => do
        abort rejected.agent link.id now
        pure (.error rejected.error)

/-- Moves at most `count` of the agents who wait to leave a link over a node. Yields how many were
taken from the link. -/
def drain (supply : Supply) (node : Junction) (inLink : LinkId) (now : UInt32) :
    Nat → Job (Except LoadingError Nat)
  | 0 => pure (.ok 0)
  | count + 1 => do
    match ← pull inLink now with
    | none => pure (.ok 0)
    | some agent => do
      match ← moveOver supply node inLink agent now with
      | .error error => pure (.error error)
      | .ok () => do
        let taken ← drain supply node inLink now count
        pure (taken.map (· + 1))

/-- Moves all agents over a node who wait to leave one of the given links, link by link. Nobody
starts to wait in a node phase, and no other node takes agents from these links: there are as many
as the thread finds when it turns to a link. -/
def drainAll (supply : Supply) (node : Junction) (now : UInt32) :
    List LinkId → Job (Except LoadingError Nat)
  | [] => pure (.ok 0)
  | inLink :: rest => do
    let _ ← ofExcept (supply.layout.link inLink)
    let count ← perform (.waiting inLink)
    match ← drain supply node inLink now count with
    | .error error => pure (.error error)
    | .ok taken => do
      let more ← drainAll supply node now rest
      pure (more.map (taken + ·))

/-! ## Phases -/

/-- Advances a link, which stays active while agents are in transit. -/
def visitLink (supply : Supply) (now : UInt32) (id : LinkId) : Job Unit := do
  let link ← ofExcept (supply.layout.link id)
  -- Whoever activates the link from now on, be it this thread, adds it to the set anew.
  perform (.unmarkLink id)
  if ← advanceLink supply link now then
    activateLink link

def visitLinks (supply : Supply) (now : UInt32) : List LinkId → Job Unit
  | [] => pure ()
  | id :: rest => do
    visitLink supply now id
    visitLinks supply now rest

/-- The link phase of a partition. Yields the number of links. -/
def linkPhase (supply : Supply) (now : UInt32) (part : Nat) : Job Nat := do
  let ids ← perform (.takeLinks part)
  visitLinks supply now ids
  pure ids.length

/-- Advances a node, which stays active if it moved agents. -/
def visitNode (supply : Supply) (now : UInt32) (id : NodeId) : Job (Except LoadingError Nat) := do
  let node ← ofExcept (supply.layout.junction id)
  -- The mark is gone even if the node fails below.
  perform (.unmarkNode id)
  match ← drainAll supply node now node.inLinks with
  | .error error => pure (.error error)
  | .ok moved => do
    if 0 < moved then
      activateNode node
    pure (.ok moved)

/-- Advances nodes one after the other, until one of them fails. -/
def visitNodes (supply : Supply) (now : UInt32) : List NodeId → Job (Except LoadingError Nat)
  | [] => pure (.ok 0)
  | id :: rest => do
    match ← visitNode supply now id with
    | .error error => pure (.error error)
    | .ok moved => do
      -- A failing node ends the phase of the partition, so those behind it are not visited.
      let more ← visitNodes supply now rest
      pure (more.map (moved + ·))

/-- The node phase of a partition. Yields the number of nodes, and of the agents who moved. -/
def nodePhase (supply : Supply) (now : UInt32) (part : Nat) :
    Job (Except LoadingError (Nat × Nat)) := do
  let ids ← perform (.takeNodes part)
  let moved ← visitNodes supply now ids
  pure (moved.map fun agents => (ids.length, agents))

end NetworkLoading.Job
