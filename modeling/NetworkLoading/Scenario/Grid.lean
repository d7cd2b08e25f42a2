import NetworkLoading.Config
import NetworkLoading.Network.Named

/-!
# Grids

A square grid of nodes, with links in both directions between neighbours. Links are open to all
modes.
-/

namespace NetworkLoading.Grid

/-- A place on the grid. -/
structure Point where
  x : Nat
  y : Nat
deriving DecidableEq

/-- The name of the node at a place. -/
def Point.name (p : Point) : String :=
  s!"{p.x}_{p.y}"

/-- The name of the link between two places. -/
def linkName (a b : Point) : String :=
  s!"{a.name}-{b.name}"

/-- The number of nodes along each side; at least two. -/
def side (c : Config.Scenario) : Nat :=
  max c.gridSize.toNat 2

/-- All places, row by row. -/
def points (side : Nat) : List Point :=
  (List.range side).flatMap fun y => (List.range side).map fun x => { x, y }

/-- The links that are added with a place: to and from the next place in its row, then to and from
the place above. -/
def linksAt (side : Nat) (p : Point) : List (Point × Point) :=
  let right : Point := { p with x := p.x + 1 }
  let above : Point := { p with y := p.y + 1 }
  -- A place at the right or at the upper border has no neighbour there.
  (if right.x < side then [(p, right), (right, p)] else [])
    ++ if above.y < side then [(p, above), (above, p)] else []

/-- The ends of all links, in the order in which the links are added. -/
def linkEnds (side : Nat) : List (Point × Point) :=
  (points side).flatMap (linksAt side)

/-- The grid with the size, link length and free speed of the settings. -/
def network (ids : IdStore) (c : Config.Scenario) : Except Fault NamedNetwork :=
  let addNode (n : NamedNetwork) (p : Point) :=
    n.addNode p.name (Float.ofNat p.x * c.linkLength) (Float.ofNat p.y * c.linkLength)
  let addLink (n : NamedNetwork) (ends : Point × Point) :=
    n.addLink (linkName ends.1 ends.2) ends.1.name ends.2.name c.linkLength c.linkFreespeed
  -- Links need both of their nodes, so all nodes are added first.
  ((points (side c)).foldlM addNode { network := .empty, ids }).bind fun n =>
    (linkEnds (side c)).foldlM addLink n

/-! ## Paths -/

/-- The numbers after `a` on the way to `b`, up or down. -/
def steps (a b : Nat) : List Nat :=
  -- On the way down the numbers come in reverse, from the one below `a` to `b`.
  if a ≤ b then List.range' (a + 1) (b - a) else (List.range' b (a - b)).reverse

/-- The places on the way from `a` to `b`: first along the row, then along the column. -/
def path (a b : Point) : List Point :=
  a :: (steps a.x b.x).map (fun x => { a with x }) ++ (steps a.y b.y).map (fun y => { b with y })

/-- The names of the links between places that follow each other. -/
def linksAlong (places : List Point) : List String :=
  (places.zip places.tail).map fun (a, b) => linkName a b

end NetworkLoading.Grid
