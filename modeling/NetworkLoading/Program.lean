import NetworkLoading.CommandLine
import NetworkLoading.Config.Document
import NetworkLoading.Engine.Run
import NetworkLoading.Host
import NetworkLoading.Scenario
import NetworkLoading.TravelTime.FreeSpeed

/-!
# The program

Reads settings, builds the scenario they describe, and moves its agents over the network from the
start to the end.
-/

namespace NetworkLoading

/-- What has come of the program. -/
structure Report where
  exit : UInt32
  messages : List LogLine := []
  /-- Why there is nothing else to report. -/
  complaint : Option String := none

namespace Report

/-- Failure before there is anything to report. -/
def failure : Report := { exit := 1 }

/-- The end of a program that misuses one of its own parts. -/
def broken (messages : List LogLine) : Report := { exit := 101, messages }

end Report

/-- The exit code of a command line that is not carried out. -/
def UsageError.exit : UsageError → UInt32
  | help | version => 0
  | _ => 2

namespace Program

/-! ## Settings -/

/-- The settings in a file, with the overrides of the command line. -/
def settings (args : Arguments) (file : Except FileFault String) : Except ConfigError Config :=
  match file with
  | .error fault => .error (.ofReading args.config fault)
  | .ok text =>
    match Config.ofText? text with
    | none => .error (.malformed args.config)
    | some config =>
      match Override.applyAll config args.overrides with
      | .ok () config => .ok config
      | .error error _ => .error error

/-! ## Simulation -/

/-- An agent who cannot depart is lost. -/
def turnAway (s : Loading) (link : LinkId) (rejected : Rejected) : Loading :=
  let text := s!"Agent {rejected.agent.id.name} can't depart on link {link.name}: "
    ++ rejected.error.message
  (s.say (.warn text)).updatePopulation (·.lose)

/-- Lets all agents depart whose time has come. The departures are sorted by time; those which are
left come later. -/
def departDue (engine : Engine) (now : UInt32) (s : Loading) :
    List Departure → Except Fault (List Departure × Loading)
  | [] => .ok ([], s)
  | d :: rest =>
    if d.time ≤ now then
      (engine.depart s d.agent d.link now).bind fun (result, s) =>
        match result with
        | .ok _ => departDue engine now s rest
        -- The engine knows nothing of this agent, so it is the program which counts the loss.
        | .error rejected => departDue engine now (turnAway s d.link rejected) rest
    else .ok (d :: rest, s)

/-- Before each time step agents depart. No more will follow when no departures are left. -/
def controller (engine : Engine) : Controller (List Departure) :=
  fun departures s now =>
    (departDue engine now s departures).map fun (rest, s) =>
      (if rest.isEmpty then .exhausted else .continue, rest, s)

/-- The messages at the end: about the events, and about the agents who left the network. -/
def closing (s : Loading) (stopped : UInt32) : List LogLine :=
  let count (kind : EventKind) := (s.record.events.filter (·.kind = kind)).size
  [.info (s!"Events: {count .entered} link enter, {count .left} link leave, "
      ++ s!"{count .stuck} stuck."),
    .info (s!"Simulation stopped at {stopped}. {s.record.handedOver.size} agents arrived, "
      ++ s!"{s.record.population.lost} agents lost.")]

/-- Runs an engine on the departures of a scenario. -/
def drive (engine : Engine) (departures : List Departure) (before : List LogLine) : Report :=
  let population := { living := Int64.ofNat departures.length }
  let s := Loading.empty engine.supply.layout population
  -- All who will ever depart are alive from the start, whether they have departed or not.
  match engine.run (controller engine) departures s with
  | .error _ => .broken before
  | .ok (stopped, _, s) =>
    let messages := before ++ s.record.log.toList
    match stopped with
    | .error _ => { Report.failure with messages }
    | .ok stopped => { exit := 0, messages := messages ++ closing s stopped }

/-- Builds the scenario of the settings with the given dice, and runs it. -/
def simulate {σ : Type} (dice : Random.Dice σ) (state : σ) (c : Config) : Report :=
  match Scenario.build dice state c .empty with
  | .error _ => .broken []
  | .ok (scenario, ids) =>
    let (travelTimes, ids) := TravelTimes.ofSpeeds c.multimodal.speeds ids
    let modes := (c.networkModes ids).1
    let messages := scenario.report :: TravelTimes.report c.multimodal.speeds
    -- The modes on the network need not be those of the agents, which are all that have a speed.
    match Engine.build scenario.network c modes travelTimes with
    | .error _ => .broken messages
    | .ok (.error _) => { Report.failure with messages }
    | .ok (.ok built) => drive built.engine scenario.departures (messages ++ built.log)

/-! ## The whole program -/

variable {m : Type → Type} [Monad m]

/-- The name of the file in the output directory that holds the settings. -/
def settingsFile : String := "output_config.yml"

/-- The name of the file in the output directory that holds the messages. -/
def logFile : String := "log.txt"

/-- Runs the simulation of the settings, whose seed determines the dice. Before it starts, the
output directory is created, with the file of messages, if there shall be one, and that of the
settings. -/
def conduct (host : Host m) (c : Config) : m Report := do
  let directory := c.output.outputDir
  let write (name text : String) := host.write (inDirectory directory name) text
  let logs := c.output.logging = .info
  if !(← host.makeDirectory directory) then return .failure
  else if !(← if logs then write logFile "" else pure true) then return .broken []
  else if !(← write settingsFile c.toText) then return .failure
  else
    let report := simulate Random.seeded (.ofSeed c.scenario.seed) c
    if logs then
      -- It is too late to complain if the messages cannot be written now.
      let _ ← write logFile (String.join (report.messages.map fun line => line.render ++ "\n"))
    return report

/-- Carries out a command line. -/
def run (host : Host m) (words : List String) : m Report := do
  match CommandLine.parse words with
  | .error error => return { exit := error.exit }
  | .ok args =>
    match settings args (← host.read args.config) with
    | .error error => return { Report.failure with complaint := some error.message }
    | .ok c => conduct host c

end Program

end NetworkLoading
