import NetworkLoading.Agent
import NetworkLoading.Random.Dice
import NetworkLoading.Scenario.Grid

/-!
# Departures

Agents who travel between random places of a grid. Everything about an agent is drawn in a fixed
order, one agent after the other, so the dice determine all of them.
-/

namespace NetworkLoading

open NetworkLoading.Random

/-- An agent who ends an activity and starts its leg. -/
structure Departure where
  time : UInt32
  agent : Agent

/-- The link where the leg begins. -/
def Departure.link (d : Departure) : LinkId :=
  d.agent.origin

/-- What is drawn for one agent. -/
structure Trip where
  origin : Grid.Point
  destination : Grid.Point
  mode : String
  /-- The seconds from the start to the departure. -/
  delay : Nat

namespace Trip

variable {σ : Type}

/-- Draws a place of a grid. -/
def rollPoint (dice : Dice σ) (s : σ) (side : Nat) : Grid.Point × σ :=
  let (x, s) := dice.roll s side
  let (y, s) := dice.roll s side
  ({ x, y }, s)

/-- The place an agent travels to: the one drawn, unless it is the origin. Then it is the next one
in its row, where the last is followed by the first. -/
def otherThan (side : Nat) (origin drawn : Grid.Point) : Grid.Point :=
  if drawn = origin then { origin with x := (origin.x + 1) % side } else drawn

/-- Draws the places, one of the modes and the delay. -/
def roll (dice : Dice σ) (s : σ) (side window : Nat) (modes : List String) (h : modes ≠ []) :
    Trip × σ :=
  let (origin, s) := rollPoint dice s side
  let (drawn, s) := rollPoint dice s side
  let mode := dice.roll s modes.length
  -- The dice know the bound of every draw, so a mode is always found.
  have inBounds : mode.1 < modes.length := dice.roll_lt _ _ (List.length_pos_iff.2 h)
  let (delay, s) := dice.roll mode.2 window
  ({ origin, destination := otherThan side origin drawn, mode := modes[mode.1], delay }, s)

/-- The departure of the agent with a number, who takes the trip. -/
def departure (t : Trip) (ids : IdStore) (start : UInt32) (number : Nat) :
    Except Fault (Departure × IdStore) :=
  let (route, ids) := ids.createAll .link (Grid.linksAlong (Grid.path t.origin t.destination))
  -- The ids of the route are created before the time turns out to be too late.
  if UInt32.size ≤ start.toNat + t.delay then .error .additionOverflow
  else
    let (person, ids) := ids.create .person (Nat.repr number)
    let (mode, ids) := ids.create .mode t.mode
    (Agent.start person mode route).map fun agent =>
      ({ time := start + UInt32.ofNat t.delay, agent }, ids)

end Trip

namespace Departure

variable {σ : Type}

/-- The departures of `count` agents, numbered from `number` on. -/
def rollAll (dice : Dice σ) (c : Config) (modes : List String) (h : modes ≠ []) (s : σ)
    (ids : IdStore) (number : Nat) : Nat → Except Fault (List Departure × IdStore)
  | 0 => .ok ([], ids)
  | count + 1 =>
    -- Without a window everyone departs at the start, since a die needs a side.
    let window := max c.scenario.departureWindow.toNat 1
    let (trip, s) := Trip.roll dice s (Grid.side c.scenario) window modes h
    (trip.departure ids c.simulation.startTime number).bind fun (first, ids) =>
      (rollAll dice c modes h s ids (number + 1) count).map fun (rest, ids) =>
        (first :: rest, ids)

/-- The departures of all agents, sorted by time. The modes are those which have a speed; without
them there are no agents. -/
def generate (dice : Dice σ) (s : σ) (c : Config) (ids : IdStore) :
    Except Fault (List Departure × IdStore) :=
  let modes := c.multimodal.speeds.modes
  -- Nothing is drawn then, the dice are left untouched.
  if h : modes = [] then .ok ([], ids)
  else
    (rollAll dice c modes h s ids 0 c.scenario.numAgents.toNat).map fun (departures, ids) =>
      (sortBy (fun a b => a.time < b.time) departures, ids)

end Departure

end NetworkLoading
