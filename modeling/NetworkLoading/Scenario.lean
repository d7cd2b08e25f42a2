import NetworkLoading.Log
import NetworkLoading.Scenario.Departures

/-!
# Scenarios

A grid network with agents who depart on it.
-/

namespace NetworkLoading

structure Scenario where
  network : Network
  /-- Sorted by time. -/
  departures : List Departure

namespace Scenario

/-- The grid of the settings, and the departures that the dice determine. -/
def build {σ : Type} (dice : Random.Dice σ) (s : σ) (c : Config) (ids : IdStore) :
    Except Fault (Scenario × IdStore) :=
  (Grid.network ids c.scenario).bind fun grid =>
    (Departure.generate dice s c grid.ids).map fun (departures, ids) =>
      ({ network := grid.network, departures }, ids)

/-- How much a scenario holds. -/
def report (s : Scenario) : LogLine :=
  .info <| s!"Created grid scenario with {s.network.nodes.length} nodes, "
    ++ s!"{s.network.links.length} links and {s.departures.length} agents."

end Scenario

end NetworkLoading
