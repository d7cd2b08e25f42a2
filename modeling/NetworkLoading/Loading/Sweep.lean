import NetworkLoading.Loading.Nodes

/-!
# Sweeps over the network

A sweep takes the active set of a partition and visits its elements in the order of their ids.
What it leaves undone is active again.
-/

namespace NetworkLoading.Loading

/-! ## Links -/

/-- Advances a link. It stays active while agents are in transit. -/
def visitLink (s : Loading) (supply : Supply) (now : UInt32) (id : LinkId) :
    Except Fault Loading :=
  (supply.layout.link id).bind fun link =>
    -- The mark is taken off first, so that agents who come meanwhile set it anew.
    ((s.deactivateLink id).advanceLink supply link now).bind fun (inTransit, s) =>
      if inTransit then (s.activateLink link).map (·.2) else .ok s

/-- Advances all active links of a partition. Yields their number. -/
def sweepLinks (s : Loading) (supply : Supply) (part : Nat) (now : UInt32) :
    Except Fault (Nat × Loading) :=
  (s.traffic.activeLinks.take part).bind fun (ids, activeLinks) =>
    let s := { s with traffic := { s.traffic with activeLinks } }
    (ids.foldlM (fun (s : Loading) id => s.visitLink supply now id) s).map fun s =>
      (ids.length, s)

/-! ## Nodes -/

/-- Advances a node. It stays active if it moved agents. -/
def visitNode (s : Loading) (supply : Supply) (now : UInt32) (id : NodeId) :
    Except Fault (Outcome Nat) :=
  (supply.layout.junction id).bind fun node =>
    ((s.deactivateNode id).advanceNode supply node now).bind fun (moved, s) =>
      match moved with
      | .error error => .ok (.error error, s)
      | .ok moved =>
        -- The last visit finds nobody, and the node is at rest until a link activates it.
        if 0 < moved then (s.activateNode node).map fun (_, s) => (.ok moved, s)
        else .ok (.ok 0, s)

/-- Advances nodes one after the other, until one of them fails. Yields how many agents moved. -/
def visitNodes (s : Loading) (supply : Supply) (now : UInt32) :
    List NodeId → Except Fault (Outcome Nat)
  | [] => .ok (.ok 0, s)
  | id :: rest =>
    (s.visitNode supply now id).bind fun (moved, s) =>
      match moved with
      | .error error => .ok (.error error, s)
      | .ok moved =>
        (s.visitNodes supply now rest).map fun (more, s) => (more.map (moved + ·), s)

/-- Advances all active nodes of a partition. Yields the number of nodes, and of the agents who
moved. -/
def sweepNodes (s : Loading) (supply : Supply) (part : Nat) (now : UInt32) :
    Except Fault (Outcome (Nat × Nat)) :=
  (s.traffic.activeNodes.take part).bind fun (ids, activeNodes) =>
    let s := { s with traffic := { s.traffic with activeNodes } }
    -- The set was emptied before: if a node fails, those behind it are in no set any more.
    (s.visitNodes supply now ids).map fun (moved, s) =>
      (moved.map fun agents => (ids.length, agents), s)

/-! ## Emptying the network -/

/-- Nothing is to be visited any more. -/
def clearActive (s : Loading) : Loading :=
  { s with
    traffic := { s.traffic with
      links := s.traffic.links.map fun q => { q with active := false }
      nodes := s.traffic.nodes.map fun _ => false
      activeLinks := s.traffic.activeLinks.clear
      activeNodes := s.traffic.activeNodes.clear } }

/-- The links with agents, sorted. -/
def occupied (s : Loading) : List LinkId :=
  Id.sort (s.traffic.links.keys.filter fun link => 0 < (s.queue link).size)

/-- Removes all agents from the network as stuck, link by link. Yields their number. -/
def clear (s : Loading) (now : UInt32) : Nat × Loading :=
  let (count, s) := s.occupied.foldl (fun (count, s) link =>
    let (cleared, s) := s.clearLink link now
    (count + cleared, s)) (0, s)
  (count, s.clearActive)

/-- Drops all agents without a trace. Yields their number. -/
def drop (s : Loading) : Nat × Loading :=
  -- Only links hold agents, nobody stays on a node.
  let count := s.traffic.links.entries.foldl (fun n entry => n + entry.2.size) 0
  let s := s.countOut count
  let links := s.traffic.links.map fun _ => {}
  (count, clearActive { s with traffic := { s.traffic with links } })

end NetworkLoading.Loading
