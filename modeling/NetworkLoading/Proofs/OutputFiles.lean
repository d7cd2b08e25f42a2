import NetworkLoading.Program
import NetworkLoading.Proofs.Files

/-!
# The files of a program

A program whose host is a tree of files leaves its settings in the output directory, whatever else
it writes there. A command line which is not carried out changes no file.
-/

namespace NetworkLoading

/-! ## Paths -/

section

variable {path directory name : String}

theorem pathNames_of_not_mem (hslash : '/' ∉ name.toList) (hname : name ≠ "") :
    pathNames name = [name] := by
  rw [pathNames, List.splitOn_eq_singleton hslash]
  simp [hname]

theorem pathNames_append (h : path.toList = directory.toList ++ '/' :: name.toList) :
    pathNames path = pathNames directory ++ pathNames name := by
  simp only [pathNames, h, List.splitOn_append_cons_self, List.map_append, List.filter_append]

/-- The path of a file in a directory ends with a slash and the name of the file, unless it is the
directory where paths begin. -/
theorem inDirectory_eq_or (directory name : String) : inDirectory directory name = name ∨
    ∃ above : String, (inDirectory directory name).toList = above.toList ++ '/' :: name.toList := by
  unfold inDirectory
  split
  · rename_i h
    rcases Bool.or_eq_true_iff.1 h with hempty | hends
    · rw [of_decide_eq_true hempty, String.empty_append]
      exact .inl rfl
    · -- The slash at the end of the directory is the one before the name.
      rw [String.endsWith_char_eq_getLast?, beq_iff_eq, List.getLast?_eq_some_iff] at hends
      obtain ⟨above, habove⟩ := hends
      exact .inr ⟨.ofList above, by simp [habove]⟩
  · exact .inr ⟨directory, by simp [toString]⟩

theorem exists_pathNames_inDirectory (directory : String) (hslash : '/' ∉ name.toList)
    (hname : name ≠ "") : ∃ above, pathNames (inDirectory directory name) = above ++ [name] := by
  rcases inDirectory_eq_or directory name with h | ⟨above, h⟩
  · rw [h, pathNames_of_not_mem hslash hname]
    exact ⟨[], rfl⟩
  · rw [pathNames_append h, pathNames_of_not_mem hslash hname]
    exact ⟨pathNames above, rfl⟩

end

/-! ## Actions on a tree -/

namespace FileTree

variable {α β : Type} {t u : FileTree} {path text : String} {Q : α → FileTree → Prop}

/-- What holds of the result of an action on a tree, and of the tree it leaves. -/
def Ensures (t : FileTree) (x : StateM FileTree α) (Q : α → FileTree → Prop) : Prop :=
  Q (x.run t).1 (x.run t).2

namespace Ensures

theorem pure {a : α} (h : Q a t) : t.Ensures (Pure.pure a) Q :=
  h

theorem bind {x : StateM FileTree β} {f : β → StateM FileTree α}
    (h : t.Ensures x fun b u => u.Ensures (f b) Q) : t.Ensures (x >>= f) Q :=
  h

theorem read {Q : Except FileFault String → FileTree → Prop} (h : Q (t.read path) t) :
    t.Ensures (Host.ofTree.read path) Q :=
  h

variable {Q : Bool → FileTree → Prop}

theorem makeDirectory (hfailed : Q false t) (hmade : ∀ u, Q true u) :
    t.Ensures (Host.ofTree.makeDirectory path) Q := by
  unfold Ensures
  simp only [Host.ofTree, StateT.run]
  cases t.makeDirectory path with
  | none => exact hfailed
  | some made => exact hmade made

theorem write (hfailed : Q false t) (hwrote : ∀ u, t.write path text = .ok u → Q true u) :
    t.Ensures (Host.ofTree.write path text) Q := by
  unfold Ensures
  simp only [Host.ofTree, StateT.run]
  cases hwrite : t.write path text with
  | error fault => exact hfailed
  | ok written => exact hwrote written hwrite

end Ensures

end FileTree

/-! ## Output -/

namespace Program

open FileTree

variable {c : Config} {t u : FileTree}

/-- What is written into the file of messages leaves the settings as they are. -/
theorem read_settings_of_write_log {directory text kept : String}
    (h : t.write (inDirectory directory logFile) text = .ok u)
    (hread : t.read (inDirectory directory settingsFile) = .ok kept) :
    u.read (inDirectory directory settingsFile) = .ok kept := by
  obtain ⟨above, hlog⟩ :=
    exists_pathNames_inDirectory directory (show '/' ∉ logFile.toList by decide)
    (by decide)
  obtain ⟨above', hsettings⟩ := exists_pathNames_inDirectory directory
    (show '/' ∉ settingsFile.toList by decide) (by decide)
  exact FileTree.read_of_write_other hlog (by decide) hsettings (by decide) (by decide) h hread

/-- If a program comes to its end, its settings are in the output directory. -/
theorem conduct_keeps_settings (c : Config) (t : FileTree) :
    t.Ensures (conduct .ofTree c) fun report u => report.exit = 0 →
      u.read (inDirectory c.output.outputDir settingsFile) = .ok c.toText := by
  obtain ⟨above, hsettings⟩ := exists_pathNames_inDirectory c.output.outputDir
    (show '/' ∉ settingsFile.toList by decide) (by decide)
  unfold conduct
  refine .bind (.makeDirectory (.pure nofun) fun made => ?_)
  dsimp only
  split
  · exact .pure nofun
  · split
    · refine .bind (.write (.pure nofun) fun opened _ => ?_)
      refine .bind (.write (.pure nofun) fun written hwritten => ?_)
      have hread := read_of_write hsettings hwritten
      -- The report does not depend on whether the messages could be written.
      refine .bind (.write (.pure fun _ => hread) fun closed hclosed => .pure fun _ => ?_)
      exact read_settings_of_write_log hclosed hread
    · refine .bind (.pure (.bind (.write (.pure nofun) fun written hwritten => .pure fun _ => ?_)))
      exact read_of_write hsettings hwritten

/-- A program which does not come to its settings leaves all files as they are. -/
theorem run_of_refused {words : List String} {t : FileTree}
    (h : ∀ args, CommandLine.parse words = .ok args →
      ∀ c, settings args (t.read args.config) ≠ .ok c) :
    t.Ensures (run .ofTree words) fun _ u => u = t := by
  unfold run
  split
  · exact .pure rfl
  · rename_i args hargs
    refine .bind (.read ?_)
    split
    · exact .pure rfl
    · rename_i c hc
      exact absurd hc (h args hargs c)

end Program

end NetworkLoading
