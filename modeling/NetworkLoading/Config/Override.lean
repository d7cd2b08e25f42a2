import NetworkLoading.Config
import NetworkLoading.Config.Error
import NetworkLoading.Decimal.Reading
import NetworkLoading.Log
import NetworkLoading.Text.Blank
import NetworkLoading.Text.Lower
import NetworkLoading.Text.Quoted

/-!
# Overrides

Single settings, each named by its section and its own name, take new values which are given as
text. Overrides are applied one after the other. The first that is not valid ends this; those
before it stay applied.
-/

namespace NetworkLoading

/-- A setting which can be overridden. -/
inductive Setting where
  | startTime
  | endTime
  | timeStep
  | progressInterval
  | stopWhenEmpty
  | numParts
  | method
  | modes
  | outputDir
  | logging
  | gridSize
  | linkLength
  | linkFreespeed
  | numAgents
  | departureWindow
  | seed
  /-- The speed of one mode. -/
  | speed (mode : String)
deriving DecidableEq

namespace Setting

/-- What the keys of speeds begin with, before the name of the mode. -/
def speedsKey : String :=
  "multimodal.speeds."

/-- The setting that a key names. -/
def ofKey? (key : String) : Option Setting :=
  match key with
  | "simulation.start_time" => some .startTime
  | "simulation.end_time" => some .endTime
  | "simulation.time_step" => some .timeStep
  | "simulation.progress_interval" => some .progressInterval
  | "simulation.stop_when_empty" => some .stopWhenEmpty
  | "partitioning.num_parts" => some .numParts
  | "partitioning.method" => some .method
  | "multimodal.modes" => some .modes
  | "output.output_dir" => some .outputDir
  | "output.logging" => some .logging
  | "scenario.grid_size" => some .gridSize
  | "scenario.link_length" => some .linkLength
  | "scenario.link_freespeed" => some .linkFreespeed
  | "scenario.num_agents" => some .numAgents
  | "scenario.departure_window" => some .departureWindow
  | "scenario.seed" => some .seed
  -- Whatever comes behind is the name of a mode, even if it is empty or contains dots.
  | _ => (speedsKey.toList.isPrefixOf? key.toList).map fun mode => .speed (String.ofList mode)

/-- A truth value, spelled exactly. -/
def bool? (s : String) : Option Bool :=
  if s = "true" then some true else if s = "false" then some false else none

/-- A partition method, in letters of any case. -/
def method? (s : String) : Option PartitionMethod :=
  if Text.isWord "blocks" s then some .blocks
  else if Text.isWord "round-robin" s || Text.isWord "roundrobin" s then some .roundRobin
  else none

/-- What is logged to a file, in letters of any case. -/
def logging? (s : String) : Option Config.Logging :=
  if Text.isWord "none" s then some .none
  else if Text.isWord "info" s then some .info
  else none

/-- The names between commas, without white space around them. Empty ones are left out. -/
def names (s : String) : List String :=
  ((s.toList.splitOn ',').map fun name => Text.trim (String.ofList name)).filter (· ≠ "")

/-- What a text changes as the new value of a setting; none if it is no value for it. -/
def change? (setting : Setting) (value : String) : Option (Config → Config) :=
  match setting with
  | .startTime => (Decimal.uint32? value).map fun x c => { c with simulation.startTime := x }
  | .endTime => (Decimal.uint32? value).map fun x c => { c with simulation.endTime := x }
  | .timeStep => (Decimal.uint32? value).map fun x c => { c with simulation.timeStep := x }
  | .progressInterval =>
    (Decimal.uint32? value).map fun x c => { c with simulation.progressInterval := x }
  | .stopWhenEmpty => (bool? value).map fun x c => { c with simulation.stopWhenEmpty := x }
  | .numParts => (Decimal.uint32? value).map fun x c => { c with partitioning.numParts := x }
  | .method => (method? value).map fun x c => { c with partitioning.method := x }
  -- Every text is a list of names, and every text can be the path of a directory.
  | .modes => some fun c => { c with multimodal.modes := names value }
  | .outputDir => some fun c => { c with output.outputDir := value }
  | .logging => (logging? value).map fun x c => { c with output.logging := x }
  | .gridSize => (Decimal.uint32? value).map fun x c => { c with scenario.gridSize := x }
  | .linkLength => (Decimal.float? value).map fun x c => { c with scenario.linkLength := x }
  | .linkFreespeed => (Decimal.float? value).map fun x c => { c with scenario.linkFreespeed := x }
  | .numAgents => (Decimal.uint32? value).map fun x c => { c with scenario.numAgents := x }
  | .departureWindow =>
    (Decimal.uint32? value).map fun x c => { c with scenario.departureWindow := x }
  | .seed => (Decimal.uint64? value).map fun x c => { c with scenario.seed := x }
  | .speed mode =>
    (Decimal.float? value).map fun x c =>
      { c with multimodal.speeds := c.multimodal.speeds.insert mode x }

end Setting

/-- A key and the text of the value it shall get. -/
abbrev Override := String × String

namespace Override

/-- What an override changes, if it is valid. -/
def change (o : Override) : Except ConfigError (Config → Config) :=
  match Setting.ofKey? o.1 with
  -- Without a setting it is not known what the value should be, so the key is complained of first.
  | none => .error (.unknownKey o.1)
  | some setting =>
    match setting.change? o.2 with
    | none => .error (.invalidValue o.1 o.2)
    | some change => .ok change

/-- Applies overrides in their order, up to the first that is not valid. -/
def applyAll (c : Config) : List Override → EStateM.Result ConfigError Config Unit
  | [] => .ok () c
  | o :: rest =>
    match o.change with
    -- Those which follow are not even looked at.
    | .error error => .error error c
    | .ok change => applyAll (change c) rest

/-- The message about overrides, if there are any. -/
def report (overrides : List Override) : List LogLine :=
  if overrides.isEmpty then []
  else
    let texts := overrides.map fun o => s!"({Text.quoted o.1}, {Text.quoted o.2})"
    [.info ("Applying overrides: [" ++ ", ".intercalate texts ++ "]")]

end Override

end NetworkLoading
