import NetworkLoading.Config
import NetworkLoading.Yaml.Document
import NetworkLoading.Yaml.Printer

/-!
# Settings as a document

A document of settings is a mapping of sections, each of them a mapping of settings. What is missing
has its default, and what is not known is ignored.
-/

namespace NetworkLoading

open Yaml (field)

/-! ## Reading -/

/-- A partition method by its exact name. -/
def PartitionMethod.ofNode? (n : Yaml.Node) : Option PartitionMethod :=
  n.text?.bind fun s =>
    -- Unlike in an override, the case of letters counts here.
    if s = blocks.name then some blocks else if s = roundRobin.name then some roundRobin else none

namespace Config

def Logging.ofNode? (n : Yaml.Node) : Option Logging :=
  n.text?.bind fun s =>
    if s = Logging.none.name then some .none else if s = info.name then some info else Option.none

def Simulation.ofNode? (n : Yaml.Node) : Option Simulation := do
  let f ← n.fields? ["start_time", "end_time", "time_step", "progress_interval", "stop_when_empty"]
  let d : Simulation := {}
  return {
    -- A setting which is missing keeps its default, but one of the wrong kind spoils the document.
    startTime := ← field f "start_time" d.startTime Yaml.Node.uint32?
    endTime := ← field f "end_time" d.endTime Yaml.Node.uint32?
    timeStep := ← field f "time_step" d.timeStep Yaml.Node.uint32?
    progressInterval := ← field f "progress_interval" d.progressInterval Yaml.Node.uint32?
    stopWhenEmpty := ← field f "stop_when_empty" d.stopWhenEmpty Yaml.Node.bool? }

def Partitioning.ofNode? (n : Yaml.Node) : Option Partitioning := do
  let f ← n.fields? ["num_parts", "method"]
  let d : Partitioning := {}
  return {
    numParts := ← field f "num_parts" d.numParts Yaml.Node.uint32?
    method := ← field f "method" d.method PartitionMethod.ofNode? }

/-- A speed for each mode. Of several speeds of one mode the last one counts. -/
def speedsOfNode? (n : Yaml.Node) : Option Speeds := do
  let entries ← (← n.entries?).mapM fun (mode, speed) => speed.float?.map (mode, ·)
  -- Keys may be repeated here, since they are names of modes and not of settings.
  return entries.foldl (fun speeds (mode, speed) => speeds.insert mode speed) .empty

def Multimodal.ofNode? (n : Yaml.Node) : Option Multimodal := do
  let f ← n.fields? ["modes", "speeds"]
  let d : Multimodal := {}
  return {
    modes := ← field f "modes" d.modes Yaml.Node.texts?
    speeds := ← field f "speeds" d.speeds speedsOfNode? }

def Output.ofNode? (n : Yaml.Node) : Option Output := do
  let f ← n.fields? ["output_dir", "logging"]
  let d : Output := {}
  return {
    outputDir := ← field f "output_dir" d.outputDir Yaml.Node.text?
    logging := ← field f "logging" d.logging Logging.ofNode? }

def Scenario.ofNode? (n : Yaml.Node) : Option Scenario := do
  let f ← n.fields?
    ["grid_size", "link_length", "link_freespeed", "num_agents", "departure_window", "seed"]
  let d : Scenario := {}
  return {
    gridSize := ← field f "grid_size" d.gridSize Yaml.Node.uint32?
    linkLength := ← field f "link_length" d.linkLength Yaml.Node.float?
    linkFreespeed := ← field f "link_freespeed" d.linkFreespeed Yaml.Node.float?
    numAgents := ← field f "num_agents" d.numAgents Yaml.Node.uint32?
    departureWindow := ← field f "departure_window" d.departureWindow Yaml.Node.uint32?
    seed := ← field f "seed" d.seed Yaml.Node.uint64? }

def ofNode? (n : Yaml.Node) : Option Config := do
  let f ← n.fields? ["simulation", "partitioning", "multimodal", "output", "scenario"]
  let d : Config := {}
  return {
    simulation := ← field f "simulation" d.simulation Simulation.ofNode?
    partitioning := ← field f "partitioning" d.partitioning Partitioning.ofNode?
    multimodal := ← field f "multimodal" d.multimodal Multimodal.ofNode?
    output := ← field f "output" d.output Output.ofNode?
    scenario := ← field f "scenario" d.scenario Scenario.ofNode? }

/-- The settings that a text holds, unless it is no document of settings. -/
def ofText? (text : String) : Option Config :=
  (Yaml.readText text).bind ofNode?

/-! ## Writing -/

open Yaml (Field)

def word (n : Nat) : Field :=
  .word (Nat.repr n)

def floatWord (x : Float) : String :=
  Yaml.Node.float.write x

def Simulation.fields (c : Simulation) : List (String × Field) :=
  [("start_time", word c.startTime.toNat), ("end_time", word c.endTime.toNat),
    ("time_step", word c.timeStep.toNat), ("progress_interval", word c.progressInterval.toNat),
    ("stop_when_empty", .word (toString c.stopWhenEmpty))]

def Partitioning.fields (c : Partitioning) : List (String × Field) :=
  [("num_parts", word c.numParts.toNat), ("method", .word c.method.name)]

def Multimodal.fields (c : Multimodal) : List (String × Field) :=
  [("modes", .texts c.modes),
    ("speeds", .table (c.speeds.entries.map fun (mode, speed) => (mode, floatWord speed)))]

def Output.fields (c : Output) : List (String × Field) :=
  [("output_dir", .text c.outputDir), ("logging", .word c.logging.name)]

def Scenario.fields (c : Scenario) : List (String × Field) :=
  [("grid_size", word c.gridSize.toNat), ("link_length", .word (floatWord c.linkLength)),
    ("link_freespeed", .word (floatWord c.linkFreespeed)), ("num_agents", word c.numAgents.toNat),
    ("departure_window", word c.departureWindow.toNat), ("seed", word c.seed.toNat)]

/-- The text of settings, with all of their sections. -/
def toText (c : Config) : String :=
  String.ofList <|
    -- Every setting is written, those with their defaults, too, so that the text does not depend on
    -- them.
    Yaml.printSection "simulation" c.simulation.fields
      ++ Yaml.printSection "partitioning" c.partitioning.fields
      ++ Yaml.printSection "multimodal" c.multimodal.fields
      ++ Yaml.printSection "output" c.output.fields
      ++ Yaml.printSection "scenario" c.scenario.fields

end Config

end NetworkLoading
