import NetworkLoading.Loading.State

/-!
# Agents on links

How agents come onto a link, move along it and leave it.
-/

namespace NetworkLoading.Loading

/-- A node moves an agent onto a link. If no exit time can be told, the agent is given back and
nothing has happened. -/
def enterLink (s : Loading) (supply : Supply) (link : Link) (agent : Agent) (now : UInt32) :
    Except Fault (Except Rejected Unit × Loading) :=
  match supply.travelTimes.exitTime link now agent with
  | .error error => .ok (.error { agent, error }, s)
  | .ok exitTime =>
    -- Only now is it certain that the agent enters, so nothing has to be undone.
    let s := s.publish (.entered now link.id agent.id)
    let s := s.countIn 1
    let s := s.updateQueue link.id (·.enter { exitTime, agent })
    (s.activateLink link).map fun (_, s) => (.ok (), s)

/-- An agent ended an activity on a link and starts its leg there. -/
def departOn (s : Loading) (link : Link) (agent : Agent) (now : UInt32) : Except Fault Loading :=
  let s := s.publish (.waits now link.id agent.id (some agent.mode))
  let s := s.countIn 1
  let s := s.updateQueue link.id (·.depart agent)
  (s.activateLink link).map (·.2)

/-- An agent ends its leg and leaves the network. -/
def arrive (s : Loading) (now : UInt32) (agent : Agent) : Loading :=
  (s.countOut 1).handOver (agent.arrive now)

/-- Moves the agents of a link whose exit time has come into the queue of those who wait to leave,
or off the network if their leg ends; those who ended an activity follow. A node with waiting
agents is activated. Yields whether agents are still in transit. -/
def advanceLink (s : Loading) (supply : Supply) (link : Link) (now : UInt32) :
    Except Fault (Bool × Loading) :=
  let before := s.queue link.id
  let after := before.advance link.id now
  -- They are handed over before the node at the end of the link is told of the others.
  let s := (before.arriving link.id now).foldl (fun s agent => s.arrive now agent) s
  let s := s.updateQueue link.id fun _ => after
  let inTransit := !after.inTransit.isEmpty
  if after.toLeave.isEmpty then .ok (inTransit, s)
  else
    (supply.layout.junction link.toNode).bind fun node =>
      (s.activateNode node).map fun (_, s) => (inTransit, s)

/-- Takes the first agent who waits to leave a link. -/
def pull (s : Loading) (link : LinkId) (now : UInt32) : Option Agent × Loading :=
  match (s.queue link).toLeave with
  | [] => (none, s)
  | agent :: rest =>
    let s := s.updateQueue link fun q => { q with toLeave := rest }
    (some agent, (s.countOut 1).publish (.left now link agent.id))

/-- Removes all agents from a link as stuck. Yields their number. -/
def clearLink (s : Loading) (link : LinkId) (now : UInt32) : Nat × Loading :=
  let agents := (s.queue link).agents
  let s := agents.foldl (fun s agent => s.abort agent link now) s
  -- A link without agents is not to be visited, so its mark goes with them.
  (agents.length, (s.countOut agents.length).updateQueue link fun _ => {})

end NetworkLoading.Loading
