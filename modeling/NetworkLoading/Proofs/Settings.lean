import Mathlib
import NetworkLoading.Program
import NetworkLoading.Proofs.Files
import NetworkLoading.Proofs.Speeds
import NetworkLoading.Proofs.Yaml.Documents
import NetworkLoading.Proofs.Yaml.Words

/-!
# Settings are read back

The text of settings is a document of these settings. Numbers are read back as equal numbers, if the
floats among them are.
-/

namespace NetworkLoading

variable {α : Type} {key other : String} {default : α} {read : Yaml.Node → Option α}

/-! ## Nodes of fields -/

namespace Yaml

variable {node : Node} {fields : List (String × Node)} {keys : List String}

theorem entries?_ofFields (fields : List (String × Node)) :
    (Node.ofFields fields).entries? = some fields := by
  rw [Node.ofFields, Node.entries?, List.mapM_map]
  exact List.mapM_pure.trans (by simp)

theorem fields?_ofFields (h : ((fields.map (·.1)).filter (· ∈ keys)).Nodup) :
    (Node.ofFields fields).fields? keys = some fields := by
  rw [Node.fields?, entries?_ofFields, Option.filter_some, if_pos (decide_eq_true h)]

@[simp] theorem field_cons_self :
    field ((key, node) :: fields) key default read = read node := by
  simp [field]

@[simp] theorem field_cons_of_ne (h : key ≠ other) :
    field ((other, node) :: fields) key default read = field fields key default read := by
  rw [field, List.lookup_cons, beq_eq_false_iff_ne.2 h, field]

@[simp] theorem text?_ofText (s : String) : (Node.ofText s).text? = some s := rfl

@[simp] theorem texts?_node (items : List String) :
    (Field.texts items).node.texts? = some items := by
  rw [Field.node, Node.texts?, List.mapM_map]
  exact List.mapM_pure.trans (by simp)

end Yaml

namespace Config

open Yaml (Node Field Section)

/-! ## Sections -/

/-- All sections, as they are written. -/
def sections (c : Config) : List Section :=
  [("simulation", c.simulation.fields), ("partitioning", c.partitioning.fields),
    ("multimodal", c.multimodal.fields), ("output", c.output.fields),
    ("scenario", c.scenario.fields)]

theorem toText_eq (c : Config) : c.toText = String.ofList (c.sections.flatMap Section.print) := by
  simp [toText, sections, Section.print]

theorem isWord_floatWord (x : Float) : Yaml.isWord (floatWord x) = true :=
  Yaml.isWord_write rfl rfl x

/-- The names of sections and fields are the same for all settings. -/
theorem isName_of_sections (c : Config) :
    ∀ s ∈ c.sections, ∀ name ∈ s.1 :: s.2.map (·.1), Yaml.isName name = true := by
  have hsame : c.sections.map (fun s => s.1 :: s.2.map (·.1)) =
      ({} : Config).sections.map fun s => s.1 :: s.2.map (·.1) := rfl
  have hnames : ∀ names ∈ ({} : Config).sections.map fun s => s.1 :: s.2.map (·.1),
      ∀ name ∈ names, Yaml.isName name = true := by decide +kernel
  exact fun s hs => hnames _ (hsame ▸ List.mem_map_of_mem hs)

theorem writable_fields (c : Config) : ∀ s ∈ c.sections, ∀ f ∈ s.2, f.2.Writable := by
  have hnat (n : Nat) : (word n).Writable := Yaml.isWord_repr n
  have hbool (b : Bool) : (Field.word (toString b)).Writable := Yaml.isWord_toString b
  have hfloat (x : Float) : (Field.word (floatWord x)).Writable := isWord_floatWord x
  have hmethod (m : PartitionMethod) : (Field.word m.name).Writable := by cases m <;> rfl
  have hlogging (l : Logging) : (Field.word l.name).Writable := by cases l <;> rfl
  have htext (s : String) : (Field.text s).Writable := trivial
  have htexts (items : List String) : (Field.texts items).Writable := trivial
  have htable (s : Speeds) :
      (Field.table (s.entries.map fun e => (e.1, floatWord e.2))).Writable := by
    intro entry he
    obtain ⟨e, -, rfl⟩ := List.mem_map.1 he
    exact isWord_floatWord e.2
  simp only [sections, Simulation.fields, Partitioning.fields, Multimodal.fields, Output.fields,
    Scenario.fields, List.forall_mem_cons]
  simp [*]

theorem writable_sections (c : Config) : ∀ s ∈ c.sections, s.Writable := by
  have hne : ∀ s ∈ c.sections, s.2 ≠ [] := by
    simp [sections, Simulation.fields, Partitioning.fields, Multimodal.fields, Output.fields,
      Scenario.fields]
  intro s hs
  have hnames := c.isName_of_sections s hs
  exact ⟨hnames _ List.mem_cons_self, hne s hs,
    fun f hf => hnames _ (List.mem_cons_of_mem _ (List.mem_map_of_mem hf)), c.writable_fields s hs⟩

/-- The text of settings is a document of their sections. -/
theorem readText_toText (c : Config) :
    Yaml.readText c.toText = some (.ofFields (c.sections.map fun s => (s.1, s.node))) := by
  rw [toText_eq]
  exact Yaml.readText_sections (List.cons_ne_nil _ _) c.writable_sections

/-! ## Floats -/

/-- Whether what is written for a float is read back as an equal float. -/
def readsBack (x : Float) : Bool :=
  (Node.floatOf? (floatWord x)).any (· == x)

/-- All floats in the settings. -/
def floats (c : Config) : List Float :=
  c.scenario.linkLength :: c.scenario.linkFreespeed :: c.multimodal.speeds.entries.map (·.2)

theorem exists_float? {x : Float} (h : readsBack x = true) :
    ∃ y, (Node.scalar (floatWord x) true).float? = some y ∧ (y == x) = true :=
  (Option.any_eq_true _ _).1 h

theorem exists_read_entries {entries : List (String × Float)}
    (h : ∀ e ∈ entries, readsBack e.2 = true) :
    ∃ read, entries.mapM (fun e => (Node.scalar (floatWord e.2) true).float?.map (e.1, ·)) =
        some read ∧
      (read == entries) = true ∧ read.map (·.1) = entries.map (·.1) := by
  induction entries with
  | nil => exact ⟨[], rfl, rfl, rfl⟩
  | cons first rest ih =>
    obtain ⟨hfirst, hrest⟩ := List.forall_mem_cons.1 h
    obtain ⟨y, hy, hequal⟩ := exists_float? hfirst
    obtain ⟨read, hread, hequals, hmodes⟩ := ih hrest
    refine ⟨(first.1, y) :: read, ?_, ?_, ?_⟩
    · simp [List.mapM_cons, hy, hread]
    · -- Speeds are compared as floats, so equality is the one of the entries and not `=`.
      have hbeq : ((first.1, y) :: read == first :: rest) =
          ((first.1 == first.1 && y == first.2) && read == rest) := rfl
      rw [hbeq, beq_self_eq_true, hequal, hequals]
      rfl
    · simp [hmodes]

/-- A table of speeds is read back, in the same order. -/
theorem exists_read_speeds {s : Speeds} (h : ∀ e ∈ s.entries, readsBack e.2 = true) :
    ∃ read, speedsOfNode? (Field.table (s.entries.map fun e => (e.1, floatWord e.2))).node =
      some read ∧ (read == s) = true := by
  obtain ⟨entries, hread, hequal, hmodes⟩ := exists_read_entries h
  -- The modes are as they were, so that what is read is in order as well.
  have hascending : entries.Pairwise fun a b => a.1 < b.1 := by
    have hmapped := List.pairwise_map.2 s.ascending
    rwa [← hmodes, List.pairwise_map] at hmapped
  have hnode : (Field.table (s.entries.map fun e => (e.1, floatWord e.2))).node.entries? =
      some (s.entries.map fun e => (e.1, .scalar (floatWord e.2) true)) := by
    rw [Field.node, List.map_map, Node.entries?, List.mapM_map]
    exact List.mapM_pure
  refine ⟨⟨entries, hascending⟩, ?_, hequal⟩
  rw [speedsOfNode?, hnode, ← Speeds.foldl_insert hascending]
  simp [hread, Function.comp_def]

/-! ## Reading sections -/

theorem ofNode?_simulation (c : Simulation) :
    Simulation.ofNode? (Section.node ("simulation", c.fields)) = some c := by
  rw [Simulation.ofNode?, Section.node, Yaml.fields?_ofFields (by simp [Simulation.fields])]
  simp [Simulation.fields, word, Field.node]

@[simp] theorem ofNode?_method (m : PartitionMethod) :
    PartitionMethod.ofNode? (.scalar m.name true) = some m := by
  cases m <;> decide

@[simp] theorem ofNode?_logging (l : Logging) : Logging.ofNode? (.scalar l.name true) = some l := by
  cases l <;> decide

theorem ofNode?_partitioning (c : Partitioning) :
    Partitioning.ofNode? (Section.node ("partitioning", c.fields)) = some c := by
  rw [Partitioning.ofNode?, Section.node, Yaml.fields?_ofFields (by simp [Partitioning.fields])]
  simp [Partitioning.fields, word, Field.node]

theorem ofNode?_output (c : Output) :
    Output.ofNode? (Section.node ("output", c.fields)) = some c := by
  rw [Output.ofNode?, Section.node, Yaml.fields?_ofFields (by simp [Output.fields])]
  simp [Output.fields, Field.node]

theorem exists_read_multimodal {c : Multimodal} (h : ∀ e ∈ c.speeds.entries, readsBack e.2 = true) :
    ∃ d, Multimodal.ofNode? (Section.node ("multimodal", c.fields)) = some d ∧ (d == c) = true := by
  obtain ⟨speeds, hspeeds, hequal⟩ := exists_read_speeds h
  refine ⟨{ c with speeds }, ?_, ?_⟩
  · rw [Multimodal.ofNode?, Section.node, Yaml.fields?_ofFields (by simp [Multimodal.fields])]
    simp [Multimodal.fields, hspeeds]
  · change (c.modes == c.modes && speeds == c.speeds) = true
    rw [beq_self_eq_true, hequal]
    rfl

theorem exists_read_scenario {c : Scenario} (hlength : readsBack c.linkLength = true)
    (hfreespeed : readsBack c.linkFreespeed = true) :
    ∃ d, Scenario.ofNode? (Section.node ("scenario", c.fields)) = some d ∧ (d == c) = true := by
  obtain ⟨linkLength, hlength, hequal⟩ := exists_float? hlength
  obtain ⟨linkFreespeed, hfreespeed, hequal'⟩ := exists_float? hfreespeed
  refine ⟨{ c with linkLength, linkFreespeed }, ?_, ?_⟩
  · rw [Scenario.ofNode?, Section.node, Yaml.fields?_ofFields (by simp [Scenario.fields])]
    simp [Scenario.fields, hlength, hfreespeed, Field.node, word]
  · change (c.gridSize == c.gridSize && (linkLength == c.linkLength &&
      (linkFreespeed == c.linkFreespeed && (c.numAgents == c.numAgents &&
        (c.departureWindow == c.departureWindow && c.seed == c.seed))))) = true
    simp [hequal, hequal']

/-! ## Reading all settings -/

instance : ReflBEq Simulation where
  rfl {c} := by
    change (c.startTime == c.startTime && (c.endTime == c.endTime && (c.timeStep == c.timeStep &&
      (c.progressInterval == c.progressInterval && c.stopWhenEmpty == c.stopWhenEmpty)))) = true
    simp

instance : ReflBEq Partitioning where
  rfl {c} := by
    change (c.numParts == c.numParts && c.method == c.method) = true
    simp

instance : ReflBEq Output where
  rfl {c} := by
    change (c.outputDir == c.outputDir && c.logging == c.logging) = true
    simp

theorem exists_ofText?_toText {c : Config} (h : ∀ x ∈ c.floats, readsBack x = true) :
    ∃ d, ofText? c.toText = some d ∧ (d == c) = true := by
  obtain ⟨hlength, hfreespeed, hspeeds⟩ :
      readsBack c.scenario.linkLength = true ∧ readsBack c.scenario.linkFreespeed = true ∧
        ∀ e ∈ c.multimodal.speeds.entries, readsBack e.2 = true := by
    simp only [floats, List.forall_mem_cons, List.forall_mem_map] at h
    exact h
  obtain ⟨multimodal, hmultimodal, hequal⟩ := exists_read_multimodal hspeeds
  obtain ⟨scenario, hscenario, hequal'⟩ := exists_read_scenario hlength hfreespeed
  refine ⟨{ c with multimodal, scenario }, ?_, ?_⟩
  · rw [ofText?, readText_toText, Option.bind_some, ofNode?,
      Yaml.fields?_ofFields (by simp [sections])]
    simp [sections, ofNode?_simulation, ofNode?_partitioning, hmultimodal, ofNode?_output,
      hscenario]
  · change (c.simulation == c.simulation && (c.partitioning == c.partitioning &&
      (multimodal == c.multimodal && (c.output == c.output && scenario == c.scenario)))) = true
    simp [hequal, hequal']

/-- Settings in which every float is a number can be written into every file that can be written at
all, and settings which are equal to them are read there, provided that the text of every float that
is a number stands for an equal float. -/
theorem write_read_settings {t : FileTree} {path : String} {c : Config} (hroot : t.Rooted)
    (hpath : t.Writable path) (hnan : ∀ x ∈ c.floats, x.isNaN = false)
    (hcodec : ∀ x ∈ c.floats, x.isNaN = false → readsBack x = true) :
    ∃ u d, t.write path c.toText = .ok u ∧
      Program.settings { config := path } (u.read path) = .ok d ∧ (d == c) = true := by
  obtain ⟨u, hwrite, hread⟩ := FileTree.read_write hroot hpath c.toText
  obtain ⟨d, hd, hequal⟩ := exists_ofText?_toText fun x hx => hcodec x hx (hnan x hx)
  refine ⟨u, d, hwrite, ?_, hequal⟩
  simp [Program.settings, hread, hd, Override.applyAll]

/-- Settings whose texts look like something else or need quotes, escapes or lines of their own. -/
def odd : Config where
  simulation := { endTime := 4294967295, stopWhenEmpty := true }
  partitioning := { numParts := 3, method := .roundRobin }
  multimodal :=
    { modes := ["", "no", "1e3", "it's", "two\nlines\n\n", " bike ", "\x07bell"]
      speeds := ⟨[("", 1.4), ("-\ttab", 0.1), ("null", 16.7)], by decide +kernel⟩ }
  output := { outputDir := "~", logging := .info }
  scenario := { linkLength := 1 / 0, linkFreespeed := 1e-7, seed := 18446744073709551615 }

/-- A tree with one file. -/
def single : FileTree where
  here := ["home"]
  directories := [[], ["home"]]
  files := [(["home", "cfg"], "output:\n  output_dir: old\n")]

theorem write_read_odd :
    single.Rooted ∧ single.Writable "cfg" ∧ (∀ x ∈ odd.floats, x.isNaN = false) ∧
      ∃ u d, single.write "cfg" odd.toText = .ok u ∧
        Program.settings { config := "cfg" } (u.read "cfg") = .ok d ∧ (d == odd) = true := by
  have hroot : single.Rooted := by
    intro path
    rw [FileTree.start]
    split <;> rfl
  have hnames : pathNames "cfg" = ["cfg"] := by cbv
  have htarget : single.target "cfg" = .ok ["home", "cfg"] := by
    rw [FileTree.target, hnames]
    decide +kernel
  have hpath : single.Writable "cfg" := ⟨_, htarget, by decide, by decide⟩
  have hnan : ∀ x ∈ odd.floats, x.isNaN = false := by decide +kernel
  have hcodec : ∀ x ∈ odd.floats, x.isNaN = false → readsBack x = true := by decide +kernel
  exact ⟨hroot, hpath, hnan, write_read_settings hroot hpath hnan hcodec⟩

end Config

end NetworkLoading
