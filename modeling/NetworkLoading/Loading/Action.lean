import NetworkLoading.Loading.State

/-!
# What threads do

The partitions of a network are advanced by one thread each. The threads share the state of the
loading. An action is what a thread does with it at one go: no other thread comes between. Whatever
takes several actions can be seen half done by the other threads.
-/

namespace NetworkLoading

/-- An action, with the type of what the thread learns from it. -/
inductive Action : Type → Type where
  /-- Empties the active set of a partition and yields its ids, sorted. -/
  | takeLinks (part : Nat) : Action (List LinkId)
  | takeNodes (part : Nat) : Action (List NodeId)
  | enqueueLink (part : Nat) (link : LinkId) : Action Unit
  | enqueueNode (part : Nat) (node : NodeId) : Action Unit
  /-- Marks a link and yields whether this was new. -/
  | markLink (link : LinkId) : Action Bool
  | markNode (node : NodeId) : Action Bool
  | unmarkLink (link : LinkId) : Action Unit
  | unmarkNode (node : NodeId) : Action Unit
  /-- Takes the agents of a link whose exit time has come. Yields whether others are in transit. -/
  | release (link : LinkId) (now : UInt32) : Action (List Agent × Bool)
  /-- Takes the agents of a link who ended an activity. -/
  | rouse (link : LinkId) : Action (List Agent)
  /-- Adds agents to those who wait to leave a link. Yields whether anyone waits. -/
  | line (link : LinkId) (agents : List Agent) : Action Bool
  /-- Counts those who wait to leave a link. -/
  | waiting (link : LinkId) : Action Nat
  /-- Takes the first agent who waits to leave a link. -/
  | pull (link : LinkId) : Action (Option Agent)
  | insert (link : LinkId) (traveller : Traveller) : Action Unit
  | countIn (count : Nat) : Action Unit
  | countOut (count : Nat) : Action Unit
  | publish (e : Event) : Action Unit
  | incLost : Action Unit
  | decLiving : Action Unit
  | handOver (agent : Agent) : Action Unit
  | say (line : LogLine) : Action Unit

namespace Loading

/-- What a thread learns from an action, and the state it leaves. -/
def act (s : Loading) : {β : Type} → Action β → Except Fault (β × Loading)
  | _, .takeLinks part =>
    (s.traffic.activeLinks.take part).map fun (ids, activeLinks) =>
      (ids, { s with traffic := { s.traffic with activeLinks } })
  | _, .takeNodes part =>
    (s.traffic.activeNodes.take part).map fun (ids, activeNodes) =>
      (ids, { s with traffic := { s.traffic with activeNodes } })
  | _, .enqueueLink part link =>
    (s.traffic.activeLinks.enqueue part link).map fun activeLinks =>
      ((), { s with traffic := { s.traffic with activeLinks } })
  | _, .enqueueNode part node =>
    (s.traffic.activeNodes.enqueue part node).map fun activeNodes =>
      ((), { s with traffic := { s.traffic with activeNodes } })
  | _, .markLink link =>
    -- Test and set are one action, so only one of several threads is told that the mark is new.
    if (s.queue link).active then .ok (false, s)
    else .ok (true, s.updateQueue link fun q => { q with active := true })
  | _, .markNode node =>
    if s.nodeActive node then .ok (false, s) else .ok (true, s.markNode node true)
  | _, .unmarkLink link => .ok ((), s.deactivateLink link)
  | _, .unmarkNode node => .ok ((), s.deactivateNode node)
  | _, .release link now =>
    -- Those who are due stand in front, since the queue is in the order of exit times.
    let due := ((s.queue link).due now).map (·.agent)
    let s := s.updateQueue link fun q =>
      { q with inTransit := q.inTransit.dropWhile (·.exitTime ≤ now) }
    .ok ((due, !(s.queue link).inTransit.isEmpty), s)
  | _, .rouse link =>
    .ok ((s.queue link).afterActivity, s.updateQueue link fun q => { q with afterActivity := [] })
  | _, .line link agents =>
    -- Whether anyone waits is asked in the same breath, so that the answer is about this queue.
    let s := s.updateQueue link fun q => { q with toLeave := q.toLeave ++ agents }
    .ok (!(s.queue link).toLeave.isEmpty, s)
  | _, .waiting link => .ok ((s.queue link).toLeave.length, s)
  | _, .pull link =>
    match (s.queue link).toLeave with
    | [] => .ok (none, s)
    | agent :: rest => .ok (some agent, s.updateQueue link fun q => { q with toLeave := rest })
  | _, .insert link traveller => .ok ((), s.updateQueue link (·.enter traveller))
  | _, .countIn count => .ok ((), s.countIn count)
  | _, .countOut count => .ok ((), s.countOut count)
  | _, .publish e => .ok ((), s.publish e)
  | _, .incLost => .ok ((), s.updatePopulation (·.incLost))
  | _, .decLiving => .ok ((), s.updatePopulation (·.decLiving))
  | _, .handOver agent => .ok ((), s.handOver agent)
  | _, .say line => .ok ((), s.say line)

end Loading

end NetworkLoading
