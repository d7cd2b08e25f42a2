import NetworkLoading.Network

/-!
# Partitions of a network
-/

namespace NetworkLoading

/-- How nodes are assigned to partitions. -/
inductive PartitionMethod where
  /-- Nodes which follow each other end up in the same partition. -/
  | blocks
  /-- Nodes which follow each other end up in different partitions. -/
  | roundRobin
deriving DecidableEq

namespace PartitionMethod

/-- The name of a method, as it is written in settings. -/
def name : PartitionMethod → String
  | .blocks => "Blocks"
  | .roundRobin => "RoundRobin"

/-- The partition of the node at place `i` of `count` nodes. -/
def part (method : PartitionMethod) (parts : UInt32) (count i : Nat) : UInt32 :=
  match method with
  -- The product needs 64 bits, so it is taken of natural numbers.
  | .blocks => UInt32.ofNat (i * parts.toNat / count)
  | .roundRobin => UInt32.ofNat i % parts

end PartitionMethod

namespace Network

/-- Puts every link into the partition of the node it leads to. -/
def alignLinks (net : Network) : Network :=
  { net with
    links := net.links.map fun link =>
      match net.node? link.toNode with
      | some node => { link with partition := node.partition }
      | none => link }

/-- Assigns every node to one of `parts` partitions. -/
def divide (net : Network) (parts : UInt32) (method : PartitionMethod) : Except Fault Network :=
  if parts = 0 then .error .noPartition
  else
    -- Without nodes nothing is divided by this number, yet it must not be zero.
    let count := max net.nodes.length 1
    .ok <| alignLinks { net with
      nodes := net.nodes.mapIdx fun i node => { node with partition := method.part parts count i }
      numParts := parts }

/-- Assigns one node to a partition. The number of partitions grows if need be; the last possible
number has no successor to grow to, and then the links keep their partitions. -/
def setPartition (net : Network) (id : NodeId) (part : UInt32) :
    EStateM.Result Fault Network Unit :=
  match net.node? id with
  | none => .error (.nodeNotInNetwork id.name) net
  | some _ =>
    -- The node has its partition before it is known whether the number of parts can grow.
    let net := net.updateNode id fun node => { node with partition := part }
    if part.toNat + 1 < UInt32.size then
      .ok () (alignLinks { net with numParts := max net.numParts (part + 1) })
    else .error .additionOverflow net

end Network

end NetworkLoading
