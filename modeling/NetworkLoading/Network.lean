import NetworkLoading.Dictionary
import NetworkLoading.Fault

/-!
# The network

Nodes joined by directed links, in the order in which they were added; beside them stand the places
at which they are found under their ids. Every node knows the links which end and start at it. For
parallel work the nodes are spread over partitions; a link belongs to the partition of the node it
leads to.

An operation which can stop half way answers with the network it leaves behind.
-/

namespace NetworkLoading

structure Node where
  id : NodeId
  x : Float
  y : Float
  inLinks : List LinkId := []
  outLinks : List LinkId := []
  partition : UInt32 := 0

structure Link where
  id : LinkId
  fromNode : NodeId
  toNode : NodeId
  length : Float
  freespeed : Float
  /-- The modes which may use the link. If there are none, all may. -/
  modes : List ModeId := []
  partition : UInt32 := 0

/-- Opens a link to the given modes only. -/
def Link.withModes (link : Link) (modes : List ModeId) : Link :=
  { link with modes := modes.eraseDups }

/-- Whether a link is open to a mode. -/
def Link.allows (link : Link) (mode : ModeId) : Bool :=
  link.modes.isEmpty || link.modes.contains mode

structure Network where
  nodes : List Node
  links : List Link
  /-- The places of the nodes. -/
  nodeIndex : Dictionary NodeId Nat := {}
  /-- The places of the links. -/
  linkIndex : Dictionary LinkId Nat := {}
  numParts : UInt32

namespace Network

/-- A network without nodes, as one partition. -/
def empty : Network := { nodes := [], links := [], numParts := 1 }

/-! ## Looking elements up -/

def node? (net : Network) (id : NodeId) : Option Node :=
  net.nodeIndex.find? net.nodes id

def link? (net : Network) (id : LinkId) : Option Link :=
  net.linkIndex.find? net.links id

/-- The node with an id which must be part of the network. -/
def node (net : Network) (id : NodeId) : Except Fault Node :=
  match net.node? id with
  | some node => .ok node
  | none => .error (.nodeNotInNetwork id.name)

/-- The link with an id which must be part of the network. -/
def link (net : Network) (id : LinkId) : Except Fault Link :=
  match net.link? id with
  | some link => .ok link
  | none => .error (.linkNotInNetwork id.name)

/-! ## Adding elements -/

/-- Changes the node with an id, which keeps its place. -/
def updateNode (net : Network) (id : NodeId) (f : Node → Node) : Network :=
  { net with nodes := net.nodeIndex.modify net.nodes id f }

def addNode (net : Network) (node : Node) : Except Fault Network :=
  -- The index could not hold two places for one id.
  if (net.node? node.id).isSome then .error (.nodeExists node.id.name)
  else
    .ok { net with
      nodes := net.nodes ++ [node]
      nodeIndex := net.nodeIndex.insert node.id net.nodes.length }

/-- Adds a link between two nodes of the network, in the partition of the node it leads to. The
first of the nodes knows about the link before the second is looked up. -/
def addLink (net : Network) (link : Link) : EStateM.Result Fault Network Unit :=
  if (net.link? link.id).isSome then .error (.linkExists link.id.name) net
  else
    match net.node? link.fromNode with
    | none => .error (.nodeNotInNetwork link.fromNode.name) net
    | some _ =>
      -- If the link leads nowhere, this end of it stays behind.
      let net := net.updateNode link.fromNode fun node =>
        { node with outLinks := node.outLinks ++ [link.id] }
      match net.node? link.toNode with
      | none => .error (.nodeNotInNetwork link.toNode.name) net
      | some target =>
        let net := net.updateNode link.toNode fun node =>
          { node with inLinks := node.inLinks ++ [link.id] }
        .ok () { net with
          links := net.links ++ [{ link with partition := target.partition }]
          linkIndex := net.linkIndex.insert link.id net.links.length }

end Network

end NetworkLoading
