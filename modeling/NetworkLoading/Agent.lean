import NetworkLoading.Fault

/-!
# Agents

An agent follows a fixed route of links. The first link is where it departs, the last where its
leg ends. The route is never empty; the position on it may come to lie behind its end.
-/

namespace NetworkLoading

/-- How far an agent has come with its leg. -/
inductive AgentState where
  | leg
  | arrived (time : UInt32)
  | aborted (time : UInt32)
deriving DecidableEq

structure Agent where
  id : PersonId
  mode : ModeId
  route : List LinkId
  position : Nat := 0
  state : AgentState := .leg
  route_ne_nil : route ≠ []
deriving DecidableEq

namespace Agent

/-- An agent at the start of a route. -/
def start (id : PersonId) (mode : ModeId) (route : List LinkId) : Except Fault Agent :=
  if h : route = [] then .error (.emptyRoute id.name)
  else .ok { id, mode, route, route_ne_nil := h }

/-- The link where the leg begins. -/
def origin (agent : Agent) : LinkId :=
  agent.route.head agent.route_ne_nil

/-- The link where the leg ends. -/
def destination (agent : Agent) : LinkId :=
  agent.route.getLast agent.route_ne_nil

/-- The link at the position of the agent. -/
def current? (agent : Agent) : Option LinkId :=
  agent.route[agent.position]?

/-- The link the agent wants to enter next; none at the end of the route. -/
def next? (agent : Agent) : Option LinkId :=
  agent.route[agent.position + 1]?

/-- One element further on the route. -/
def proceed (agent : Agent) : Agent :=
  { agent with position := agent.position + 1 }

/-- The agent is moved onto a link, which must be the next one of its route. It has proceeded even
if the link is another one. -/
def moveTo (agent : Agent) (link : LinkId) : EStateM.Result Fault Agent Unit :=
  let agent := agent.proceed
  -- Behind the end of the route there is no link, so nobody can be moved there.
  if agent.current? = some link then .ok () agent
  else .error (.offRoute (some link) agent.current?) agent

/-- The leg ends at its destination. -/
def arrive (agent : Agent) (now : UInt32) : Agent :=
  { agent with state := .arrived now }

/-- The agent is taken out of the simulation. -/
def abort (agent : Agent) (now : UInt32) : Agent :=
  { agent with state := .aborted now }

/-- Whether nothing is left to do on a link: it is the destination and no link follows. -/
def endsOn (agent : Agent) (link : LinkId) : Bool :=
  -- A route may lead over its last link before it ends there, so the position counts as well.
  link = agent.destination && agent.next?.isNone

@[simp] theorem id_proceed (agent : Agent) : agent.proceed.id = agent.id := rfl
@[simp] theorem mode_proceed (agent : Agent) : agent.proceed.mode = agent.mode := rfl
@[simp] theorem current?_proceed (agent : Agent) : agent.proceed.current? = agent.next? := rfl
@[simp] theorem id_arrive (agent : Agent) (now : UInt32) : (agent.arrive now).id = agent.id := rfl
@[simp] theorem id_abort (agent : Agent) (now : UInt32) : (agent.abort now).id = agent.id := rfl

/-- Moving an agent onto the link it chose itself succeeds. -/
theorem moveTo_next? {agent : Agent} {link : LinkId} (h : agent.next? = some link) :
    agent.moveTo link = .ok () agent.proceed := by
  simp [moveTo, h]

end Agent

end NetworkLoading
