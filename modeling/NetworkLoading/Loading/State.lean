import NetworkLoading.Agent.Population
import NetworkLoading.Event
import NetworkLoading.Loading.ActiveSets
import NetworkLoading.Loading.Layout
import NetworkLoading.Loading.Queue
import NetworkLoading.Table
import NetworkLoading.TravelTime

/-!
# The state of a network loading

The traffic is what is on the network: the queues of the links, the marks of the links and nodes
which are to be visited, and the number of agents. The record is what has come of it: the events,
the agents handed over because they left the network, the population and the messages.
-/

namespace NetworkLoading

/-- What agents move on: the network and the travel times on it. -/
structure Supply where
  layout : Layout
  travelTimes : TravelTimes

structure Traffic where
  links : Table .link LinkQueue
  /-- Whether a node is to be visited. -/
  nodes : Table .node Bool
  activeLinks : ActiveSets .link
  activeNodes : ActiveSets .node
  onNetwork : UInt64
deriving DecidableEq

/-- An empty network. -/
def Traffic.empty (layout : Layout) : Traffic where
  links := .ofKeys (layout.links.map (·.id)) {}
  nodes := .ofKeys (layout.junctions.map (·.id)) false
  -- Every link and node has its queue and its mark from the start, so that none is ever added.
  activeLinks := .empty layout.numParts
  activeNodes := .empty layout.numParts
  onNetwork := 0

structure Record where
  population : Population
  events : Array Event := #[]
  handedOver : Array Agent := #[]
  log : Array LogLine := #[]
deriving DecidableEq

structure Loading where
  traffic : Traffic
  record : Record
deriving DecidableEq

/-- An agent which could not be put onto a link, given back with the reason. -/
structure Rejected where
  agent : Agent
  error : LoadingError

/-- What comes of an operation which an error can end: its result and the state it leaves. -/
abbrev Outcome (α : Type) := Except LoadingError α × Loading

namespace Loading

/-- An empty network before anything has happened. -/
def empty (layout : Layout) (population : Population) : Loading :=
  { traffic := .empty layout, record := { population } }

/-! ## The record -/

def publish (s : Loading) (e : Event) : Loading :=
  { s with record := { s.record with events := s.record.events.push e } }

/-- An agent has left the network for good. -/
def handOver (s : Loading) (agent : Agent) : Loading :=
  { s with record := { s.record with handedOver := s.record.handedOver.push agent } }

def say (s : Loading) (line : LogLine) : Loading :=
  { s with record := { s.record with log := s.record.log.push line } }

def updatePopulation (s : Loading) (f : Population → Population) : Loading :=
  { s with record := { s.record with population := f s.record.population } }

/-- An agent is stuck on a link and lost. -/
def abort (s : Loading) (agent : Agent) (link : LinkId) (now : UInt32) : Loading :=
  ((s.publish (.stuck now link agent.id (some agent.mode))).updatePopulation (·.lose)).handOver
    (agent.abort now)

/-! ## The traffic -/

/-- The queues of a link. A link which is not loaded has empty ones. -/
def queue (s : Loading) (link : LinkId) : LinkQueue :=
  (s.traffic.links.get? link).getD {}

def updateQueue (s : Loading) (link : LinkId) (f : LinkQueue → LinkQueue) : Loading :=
  { s with traffic := { s.traffic with links := s.traffic.links.modify link f } }

/-- Whether a node is to be visited. -/
def nodeActive (s : Loading) (node : NodeId) : Bool :=
  (s.traffic.nodes.get? node).getD false

def markNode (s : Loading) (node : NodeId) (active : Bool) : Loading :=
  { s with traffic := { s.traffic with nodes := s.traffic.nodes.modify node fun _ => active } }

/-- Counts agents who come onto the network. -/
def countIn (s : Loading) (count : Nat) : Loading :=
  { s with traffic := { s.traffic with onNetwork := s.traffic.onNetwork + UInt64.ofNat count } }

/-- Counts agents who leave the network. -/
def countOut (s : Loading) (count : Nat) : Loading :=
  { s with traffic := { s.traffic with onNetwork := s.traffic.onNetwork - UInt64.ofNat count } }

/-! ## Activation -/

/-- Marks a link and adds it to the active set of its partition, unless it is marked already.
Yields whether it was added. -/
def activateLink (s : Loading) (link : Link) : Except Fault (Bool × Loading) :=
  -- A mark without an entry in a set would keep the link from ever being visited again.
  if (s.queue link.id).active then .ok (false, s)
  else
    (s.traffic.activeLinks.enqueue link.partition.toNat link.id).map fun activeLinks =>
      let s := s.updateQueue link.id fun q => { q with active := true }
      (true, { s with traffic := { s.traffic with activeLinks } })

/-- Marks a node and adds it to the active set of its partition, unless it is marked already.
Yields whether it was added. -/
def activateNode (s : Loading) (node : Junction) : Except Fault (Bool × Loading) :=
  if s.nodeActive node.id then .ok (false, s)
  else
    (s.traffic.activeNodes.enqueue node.partition.toNat node.id).map fun activeNodes =>
      let s := s.markNode node.id true
      (true, { s with traffic := { s.traffic with activeNodes } })

def deactivateLink (s : Loading) (link : LinkId) : Loading :=
  s.updateQueue link fun q => { q with active := false }

def deactivateNode (s : Loading) (node : NodeId) : Loading :=
  s.markNode node false

end Loading

end NetworkLoading
