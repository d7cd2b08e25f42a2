import NetworkLoading.Log
import NetworkLoading.Network

/-!
# The layout of a loaded network

The part of a network which is loaded: the links that some of the given modes may use, and the
nodes they join.
-/

namespace NetworkLoading

/-- A node of the loaded network, with the links from which it takes agents. -/
structure Junction where
  id : NodeId
  inLinks : List LinkId
  partition : UInt32
deriving DecidableEq

structure Layout where
  links : List Link
  junctions : List Junction
  numParts : Nat

namespace Layout

def link? (l : Layout) (id : LinkId) : Option Link :=
  l.links.find? (·.id = id)

def junction? (l : Layout) (id : NodeId) : Option Junction :=
  l.junctions.find? (·.id = id)

/-- The link with an id which must be loaded. -/
def link (l : Layout) (id : LinkId) : Except Fault Link :=
  match l.link? id with
  | some link => .ok link
  | none => .error (.linkNotLoaded id.name)

/-- The node with an id which must be loaded. -/
def junction (l : Layout) (id : NodeId) : Except Fault Junction :=
  match l.junction? id with
  | some node => .ok node
  | none => .error (.nodeNotLoaded id.name)

/-- The links which at least one of the modes may use; all links if there are no modes. -/
def usable (net : Network) (modes : List ModeId) : List Link :=
  net.links.filter fun link => modes.isEmpty || modes.any link.allows

/-- The nodes which some of the given links join, each with those of them which lead to it. -/
def joined (net : Network) (links : List LinkId) : List Junction :=
  -- A node counts as joined by links which leave it as well, though it takes nobody from them.
  (net.nodes.filter fun node => (node.inLinks ++ node.outLinks).any (· ∈ links)).map fun node =>
    { id := node.id, inLinks := node.inLinks.filter (· ∈ links), partition := node.partition }

/-- One more than the greatest partition of a node; at least one. -/
def partsOf (nodes : List Junction) : Except Fault Nat :=
  -- The number of parts is counted in 32 bits like the partitions themselves.
  if nodes.any fun node => node.partition.toNat + 1 = UInt32.size then .error .additionOverflow
  else .ok ((nodes.map fun node => node.partition.toNat + 1).foldl max 1)

/-- The layout of the part of a network which is open to some of the modes. -/
def ofNetwork (net : Network) (modes : List ModeId) : Except Fault Layout :=
  let links := usable net modes
  let junctions := joined net (links.map (·.id))
  (partsOf junctions).map fun parts =>
    -- The network may be divided into more parts than its nodes use.
    { links, junctions, numParts := max parts net.numParts.toNat }

/-- How much of a network a layout holds. -/
def report (l : Layout) (net : Network) : LogLine :=
  .info <| s!"Created simulation network with {l.links.length} of {net.links.length} links and "
    ++ s!"{l.junctions.length} of {net.nodes.length} nodes in {l.numParts} partitions."

end Layout

end NetworkLoading
