import NetworkLoading.Loading.Links

/-!
# Agents at nodes

How a node takes agents from the links that lead to it and moves them onto their next links.
-/

namespace NetworkLoading.Loading

/-- The link onto which a node moves an agent who waits at the end of `inLink`: the next one of its
route, which must be loaded and start at the node. -/
def nextLink (layout : Layout) (node : Junction) (inLink : LinkId) (agent : Agent) :
    Except LoadingError Link :=
  match agent.next? with
  | none => .error (.noNextLink agent.id inLink)
  | some next =>
    match layout.link? next with
    | none => .error (.unknownLink next)
    | some link =>
      -- The agent stands at the end of `inLink`, so it cannot get onto a link that starts
      -- elsewhere.
      if link.fromNode = node.id then .ok link
      else .error (.unconnectedLinks agent.id inLink link.id node.id)

/-- Moves an agent taken from `inLink` over a node. An agent with a broken route is taken out,
which is no error. An agent without a valid travel time is taken out, too, and ends the step. -/
def moveOver (s : Loading) (supply : Supply) (node : Junction) (inLink : LinkId) (agent : Agent)
    (now : UInt32) : Except Fault (Outcome Unit) :=
  match nextLink supply.layout node inLink agent with
  | .error error =>
    let s := s.say (.warn s!"Removing agent {agent.id.name} at time {now}: {error.message}")
    -- The agent was taken off `inLink`, but has not come onto any other link.
    .ok (.ok (), s.abort agent inLink now)
  | .ok link =>
    match agent.moveTo link.id with
    | .error fault _ => .error fault
    | .ok () agent =>
      (s.enterLink supply link agent now).map fun (result, s) =>
        match result with
        | .ok () => (.ok (), s)
        -- It has proceeded on its route by now, so it is stuck on the link it could not enter.
        | .error rejected => (.error rejected.error, s.abort rejected.agent link.id now)

/-- Moves at most `count` of the agents who wait to leave a link over a node. Yields how many were
taken from the link. -/
def drain (s : Loading) (supply : Supply) (node : Junction) (inLink : LinkId) (now : UInt32) :
    Nat → Except Fault (Outcome Nat)
  | 0 => .ok (.ok 0, s)
  | count + 1 =>
    match s.pull inLink now with
    | (none, s) => .ok (.ok 0, s)
    | (some agent, s) =>
      (s.moveOver supply node inLink agent now).bind fun (result, s) =>
        match result with
        | .error error => .ok (.error error, s)
        | .ok () =>
          (s.drain supply node inLink now count).map fun (taken, s) => (taken.map (· + 1), s)

/-- Moves all agents over a node who wait to leave one of the given links, link by link. No agent
starts to wait meanwhile, so there are as many as at the start. -/
def drainAll (s : Loading) (supply : Supply) (node : Junction) (now : UInt32) :
    List LinkId → Except Fault (Outcome Nat)
  | [] => .ok (.ok 0, s)
  | inLink :: rest =>
    -- The link must be loaded, even though nothing but its queue is needed.
    (supply.layout.link inLink).bind fun _ =>
      (s.drain supply node inLink now (s.queue inLink).toLeave.length).bind fun (taken, s) =>
        match taken with
        | .error error => .ok (.error error, s)
        | .ok taken =>
          (s.drainAll supply node now rest).map fun (more, s) => (more.map (taken + ·), s)

/-- Moves all agents who wait to leave one of the links that lead to a node. Yields how many were
taken from these links. -/
def advanceNode (s : Loading) (supply : Supply) (node : Junction) (now : UInt32) :
    Except Fault (Outcome Nat) :=
  s.drainAll supply node now node.inLinks

end NetworkLoading.Loading
