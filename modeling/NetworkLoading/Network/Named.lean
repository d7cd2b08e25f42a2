import NetworkLoading.Id.Store
import NetworkLoading.Network

/-!
# Adding elements by name

Nodes and links are added under names, for which ids are created. Networks that are generated are
built in this way; the plainest of them is a line.
-/

namespace NetworkLoading

/-- A network together with the store of its ids. -/
structure NamedNetwork where
  network : Network
  ids : IdStore

namespace NamedNetwork

/-- Adds a node at a place. -/
def addNode (n : NamedNetwork) (name : String) (x y : Float) : Except Fault NamedNetwork :=
  let (id, ids) := n.ids.create .node name
  (n.network.addNode { id, x, y }).map fun network => { network, ids }

/-- Adds a link between two nodes whose ids must have been created. -/
def addLink (n : NamedNetwork) (name fromName toName : String) (length freespeed : Float) :
    Except Fault NamedNetwork :=
  let (id, ids) := n.ids.create .link name
  (ids.require .node fromName).bind fun fromNode =>
    (ids.require .node toName).bind fun toNode =>
      -- A network which refuses a link is given up, so it does not matter what it was left with.
      match n.network.addLink { id, fromNode, toNode, length, freespeed } with
      | .error fault _ => .error fault
      | .ok () network => .ok { network, ids }

/-- A line of links, 100 metres long each, from `node0` to `node1` and so on. -/
def line (ids : IdStore) (links : Nat) : Except Fault NamedNetwork :=
  let nodes := (List.range (links + 1)).foldlM (fun (n : NamedNetwork) i =>
    n.addNode s!"node{i}" (Float.ofNat n.network.nodes.length * 100) 0)
    { network := .empty, ids }
  nodes.bind fun n =>
    (List.range links).foldlM (fun (n : NamedNetwork) i =>
      n.addLink s!"link{i}" s!"node{i}" s!"node{i + 1}" 100 10) n

end NamedNetwork

end NetworkLoading
