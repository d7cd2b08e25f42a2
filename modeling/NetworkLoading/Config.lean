import NetworkLoading.Network.Partition

/-!
# Settings

All that a simulation can be told from outside, in five sections. Every setting has a default.
-/

namespace NetworkLoading

/-! ## Speeds -/

/-- A speed for each of some modes, in the order of the modes' names. -/
structure Speeds where
  entries : List (String × Float)
  ascending : entries.Pairwise fun a b => a.1 < b.1

namespace Speeds

/-- No speeds. -/
def empty : Speeds := ⟨[], .nil⟩

/-- Two tables are equal if their modes are, and their speeds as numbers. -/
instance : BEq Speeds where
  beq a b := a.entries == b.entries

/-- The modes which have a speed. -/
def modes (s : Speeds) : List String :=
  s.entries.map (·.1)

/-- Sets the speed of a mode in a list that is in order. -/
def insertEntry (mode : String) (speed : Float) : List (String × Float) → List (String × Float)
  | [] => [(mode, speed)]
  | entry :: rest =>
    if mode < entry.1 then (mode, speed) :: entry :: rest
    else if entry.1 < mode then entry :: insertEntry mode speed rest
    -- The mode has a speed already, which is replaced.
    else (mode, speed) :: rest

theorem mem_insertEntry {mode : String} {speed : Float} {entries : List (String × Float)}
    {entry : String × Float} (h : entry ∈ insertEntry mode speed entries) :
    entry = (mode, speed) ∨ entry ∈ entries := by
  induction entries with
  | nil => simpa [insertEntry] using h
  | cons first rest ih =>
    rw [insertEntry] at h
    split at h
    · simpa using h
    · split at h
      · rcases List.mem_cons.1 h with rfl | h
        · exact .inr (List.mem_cons_self ..)
        · exact (ih h).imp_right (List.mem_cons_of_mem _)
      · exact (List.mem_cons.1 h).imp_right (List.mem_cons_of_mem _)

theorem ascending_insertEntry {mode : String} {speed : Float} {entries : List (String × Float)}
    (h : entries.Pairwise fun a b => a.1 < b.1) :
    (insertEntry mode speed entries).Pairwise fun a b => a.1 < b.1 := by
  induction entries with
  | nil => simp [insertEntry]
  | cons first rest ih =>
    obtain ⟨hfirst, hrest⟩ := List.pairwise_cons.1 h
    rw [insertEntry]
    split
    · rename_i hlt
      refine List.pairwise_cons.2 ⟨fun entry he => ?_, h⟩
      rcases List.mem_cons.1 he with rfl | he
      · exact hlt
      · exact String.lt_trans hlt (hfirst entry he)
    · split
      · rename_i hlt
        refine List.pairwise_cons.2 ⟨fun entry he => ?_, ih hrest⟩
        rcases mem_insertEntry he with rfl | he
        · exact hlt
        · exact hfirst entry he
      · rename_i hle hge
        have heq : mode = first.1 := String.le_antisymm hge hle
        exact List.pairwise_cons.2 ⟨fun entry he => heq ▸ hfirst entry he, hrest⟩

/-- Sets the speed of a mode. -/
def insert (s : Speeds) (mode : String) (speed : Float) : Speeds :=
  ⟨insertEntry mode speed s.entries, ascending_insertEntry s.ascending⟩

end Speeds

/-! ## Sections -/

namespace Config

structure Simulation where
  startTime : UInt32 := 0
  endTime : UInt32 := 86400
  timeStep : UInt32 := 1
  /-- Simulated seconds between two messages about the progress; none at all if zero. -/
  progressInterval : UInt32 := 3600
  /-- Whether to stop before the end as soon as no agent is left. -/
  stopWhenEmpty : Bool := false
deriving BEq

structure Partitioning where
  numParts : UInt32 := 1
  method : PartitionMethod := .blocks
deriving BEq

structure Multimodal where
  /-- The modes on the network. Links which are open to none of them are left out. -/
  modes : List String := []
  /-- The free speed of the modes in metres per second. -/
  speeds : Speeds := .empty
deriving BEq

/-- What is written beside the messages on the screen. -/
inductive Logging where
  | none
  | info
deriving DecidableEq

def Logging.name : Logging → String
  | .none => "None"
  | .info => "Info"

structure Output where
  outputDir : String := "./output"
  logging : Logging := .none
deriving BEq

/-- The generated grid and its agents. -/
structure Scenario where
  /-- The number of nodes along each side. -/
  gridSize : UInt32 := 10
  linkLength : Float := 100
  linkFreespeed : Float := 13.9
  numAgents : UInt32 := 1000
  /-- Departures are spread over so many seconds after the start. -/
  departureWindow : UInt32 := 3600
  seed : UInt64 := 42
deriving BEq

end Config

structure Config where
  simulation : Config.Simulation := {}
  partitioning : Config.Partitioning := {}
  multimodal : Config.Multimodal := {}
  output : Config.Output := {}
  scenario : Config.Scenario := {}
deriving BEq

/-- The names of the modes on the network: those listed, else those with a speed. -/
def Config.modeNames (c : Config) : List String :=
  -- By default no modes are listed, and then everyone who has a speed may travel.
  if c.multimodal.modes.isEmpty then c.multimodal.speeds.modes else c.multimodal.modes

end NetworkLoading
