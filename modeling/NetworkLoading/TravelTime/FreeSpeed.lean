import NetworkLoading.Config
import NetworkLoading.Id.Store
import NetworkLoading.Log
import NetworkLoading.TravelTime

/-!
# Travel times from settings

Every mode with a speed in the settings travels with that speed.
-/

namespace NetworkLoading

namespace TravelTimes

/-- Adds rules for modes which are given by name. -/
def insertNamed (t : TravelTimes) (ids : IdStore) :
    List (String × TravelTime) → TravelTimes × IdStore
  | [] => (t, ids)
  | (name, rule) :: rest =>
    let (mode, ids) := ids.create .mode name
    (t.insert mode rule).insertNamed ids rest

/-- The rules of all modes which have a speed. -/
def ofSpeeds (speeds : Speeds) (ids : IdStore) : TravelTimes × IdStore :=
  ({} : TravelTimes).insertNamed ids <| speeds.entries.map fun (name, speed) =>
    (name, .freeSpeed speed)

/-- A message about each of these rules. -/
def report (speeds : Speeds) : List LogLine :=
  speeds.entries.map fun (name, speed) =>
    LogLine.info <| "Using free speed travel time with " ++ Decimal.message.write speed
      ++ s!" m/s for mode {name}."

end TravelTimes

/-- The ids of the modes on the network. -/
def Config.networkModes (c : Config) (ids : IdStore) : List ModeId × IdStore :=
  let (modes, ids) := ids.createAll .mode c.modeNames
  (modes.eraseDups, ids)

end NetworkLoading
