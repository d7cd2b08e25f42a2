import Mathlib.Data.List.Basic
import Mathlib.Data.List.Induction
import NetworkLoading.FileTree
import NetworkLoading.Proofs.Results

/-!
# Files are read back

What has been written into a file is found there, whatever was in the file before.
-/

namespace NetworkLoading.FileTree

variable {t u : FileTree} {path text name : String} {p q : Place} {names : List String}

/-! ## Finding the way -/

theorem step_eq_ok_iff :
    t.step p name = .ok q ↔
      t.isDirectory p = true ∧ name.utf8ByteSize ≤ nameLimit ∧ p.move name = q := by
  rw [step]
  split
  · rename_i hplace
    rw [Bool.not_eq_true'] at hplace
    simp [hplace]
  · rename_i hplace
    split
    · rename_i hlong
      simp [Nat.not_le.2 hlong]
    · rename_i hshort
      simp_all

theorem find_nil : t.find path [] = (checkPath path).map fun _ => t.start path := by
  rw [find]
  cases checkPath path <;> rfl

theorem find_concat :
    t.find path (names ++ [name]) = (t.find path names).bind fun p => t.step p name := by
  rw [find, find]
  cases checkPath path with
  | error fault => rfl
  | ok _ =>
    simp only [Except.bind, List.foldlM_append, List.foldlM_cons, List.foldlM_nil]
    cases names.foldlM t.step (t.start path) with
    | error fault => rfl
    | ok q => exact bind_pure (t.step q name)

/-- The way on from a place which is found. -/
theorem find_concat_eq_ok_iff :
    t.find path (names ++ [name]) = .ok p ↔
      ∃ q, t.find path names = .ok q ∧ t.step q name = .ok p := by
  rw [find_concat]
  cases t.find path names <;> simp [Except.bind]

/-- The way depends on nothing but the directories. -/
theorem find_of_directories (hhere : u.here = t.here) (hsame : u.directories = t.directories)
    (h : t.find path names = .ok p) : u.find path names = .ok p := by
  induction names using List.reverseRecOn generalizing p with
  | nil => rwa [find_nil, start, hhere, ← start, ← find_nil]
  | append_singleton names name ih =>
    obtain ⟨q, hq, hstep⟩ := find_concat_eq_ok_iff.1 h
    refine find_concat_eq_ok_iff.2 ⟨q, ih hq, ?_⟩
    rwa [step_eq_ok_iff, isDirectory, hsame, ← isDirectory, ← step_eq_ok_iff]

/-! ## Writing and reading -/

/-- Paths begin at directories. -/
def Rooted (t : FileTree) : Prop :=
  ∀ path, t.isDirectory (t.start path) = true

/-- A path leads to a place where a file can be written. -/
def Writable (t : FileTree) (path : String) : Prop :=
  ∃ p, t.target path = .ok p ∧ t.isDirectory p = false ∧ t.full.contains p = false

/-- The path of a file in a directory leads to the same place when the file is written and when it
is read, and it does not end like that of a directory. -/
theorem find_of_target_concat (hnames : pathNames path = names ++ [name])
    (h : t.target path = .ok p) :
    t.find path (pathNames path) = .ok p ∧ path.endsWith '/' = false := by
  rw [target, hnames, List.dropLast_concat] at h
  obtain ⟨q, hfind, h⟩ := exists_of_bind_eq_ok h
  split at h
  · cases h
  rename_i hends
  rw [List.getLast?_concat, Option.elim_some] at h
  rw [hnames]
  refine ⟨find_concat_eq_ok_iff.2 ⟨q, hfind, h⟩, ?_⟩
  simpa [(step_eq_ok_iff.1 h).1] using hends

/-- The path of a file that can be written also leads to it when the file is read, and it does not
end like that of a directory. -/
theorem find_of_target (hroot : t.Rooted) (h : t.target path = .ok p)
    (hdirectory : t.isDirectory p = false) :
    t.find path (pathNames path) = .ok p ∧ path.endsWith '/' = false := by
  rcases List.eq_nil_or_concat' (pathNames path) with hnames | ⟨names, name, hnames⟩
  · -- The path leads to where it begins, which is no file.
    rw [target, hnames, List.dropLast_nil, find_nil] at h
    obtain ⟨q, hq, h⟩ := exists_of_bind_eq_ok h
    obtain ⟨_, -, rfl⟩ := exists_of_map_eq_ok hq
    split at h
    · cases h
    · cases h
      rw [hroot path] at hdirectory
      cases hdirectory
  · exact find_of_target_concat hnames h

theorem read_of_find (hfind : t.find path (pathNames path) = .ok p)
    (hdirectory : t.isDirectory p = false) (hends : path.endsWith '/' = false)
    (hfile : t.file? p = some text) : t.read path = .ok text := by
  rw [read, hfind, Except.bind, if_neg (by simp [hdirectory]), hfile]
  simp [hends]

theorem file?_put_self (t : FileTree) (p : Place) (text : String) :
    (t.put p text).file? p = some text := by
  simp [put, file?]

theorem file?_put_of_ne (h : p ≠ q) (text : String) :
    (t.put p text).file? q = t.file? q := by
  have hkept : (t.files.filter (·.1 ≠ p)).find? (·.1 = q) = t.files.find? (·.1 = q) := by
    rw [List.find?_filter]
    congr 1
    funext file
    -- Whoever is at the other place is not among the files which were removed.
    by_cases hq : file.1 = q
    · simp [hq, h.symm]
    · simp [hq]
  rw [file?, put, List.find?_cons_of_neg (by simpa using h), hkept, file?]

theorem find_put (h : t.find path names = .ok p) (text : String) :
    (t.put q text).find path names = .ok p :=
  find_of_directories (t := t) rfl rfl h

/-- What is written at a path is read there. -/
theorem read_write (hroot : t.Rooted) (h : t.Writable path) (text : String) :
    ∃ u, t.write path text = .ok u ∧ u.read path = .ok text := by
  obtain ⟨p, htarget, hdirectory, hfull⟩ := h
  obtain ⟨hfind, hends⟩ := find_of_target hroot htarget hdirectory
  refine ⟨t.put p text, ?_, ?_⟩
  · rw [write, htarget, Except.bind, if_neg (by simp [hdirectory]), if_neg (by simpa using hfull)]
  · exact read_of_find (find_put hfind text) hdirectory hends (file?_put_self t p text)

/-! ## Several files -/

theorem write_eq_ok (h : t.write path text = .ok u) :
    ∃ p, t.target path = .ok p ∧ t.isDirectory p = false ∧ u = t.put p text := by
  obtain ⟨p, htarget, h⟩ := exists_of_bind_eq_ok h
  refine ⟨p, htarget, ?_⟩
  split at h
  · cases h
  · rename_i hdirectory
    split at h
    · cases h
    · cases h
      exact ⟨by simpa using hdirectory, rfl⟩

/-- What was written at the path of a file in a directory is read there. -/
theorem read_of_write (hnames : pathNames path = names ++ [name])
    (h : t.write path text = .ok u) : u.read path = .ok text := by
  obtain ⟨p, htarget, hdirectory, rfl⟩ := write_eq_ok h
  obtain ⟨hfind, hends⟩ := find_of_target_concat hnames htarget
  exact read_of_find (find_put hfind text) hdirectory hends (file?_put_self t p text)

/-- A name which is not made of dots is the last one at the place to which it leads. -/
theorem getLast?_of_find (hname : name ≠ "." ∧ name ≠ "..")
    (h : t.find path (names ++ [name]) = .ok p) : p.getLast? = some name := by
  obtain ⟨q, -, hstep⟩ := find_concat_eq_ok_iff.1 h
  obtain ⟨-, -, rfl⟩ := step_eq_ok_iff.1 hstep
  rw [Place.move, if_neg hname.1, if_neg hname.2, List.getLast?_concat]

/-- A file whose name is another one is left as it was. -/
theorem read_of_write_other {other kept last : String} {others : List String}
    (hnames : pathNames path = names ++ [name]) (hname : name ≠ "." ∧ name ≠ "..")
    (hothers : pathNames other = others ++ [last]) (hlast : last ≠ "." ∧ last ≠ "..")
    (hne : name ≠ last) (h : t.write path text = .ok u) (hread : t.read other = .ok kept) :
    u.read other = .ok kept := by
  obtain ⟨p, htarget, -, rfl⟩ := write_eq_ok h
  obtain ⟨hfind, -⟩ := find_of_target_concat hnames htarget
  obtain ⟨q, hq, hread⟩ := exists_of_bind_eq_ok hread
  have hplaces : p ≠ q := by
    rintro rfl
    rw [hnames] at hfind
    rw [hothers] at hq
    have hsame := (getLast?_of_find hname hfind).symm.trans (getLast?_of_find hlast hq)
    exact hne (Option.some.inj hsame)
  rw [read, find_put hq, Except.bind, file?_put_of_ne hplaces]
  exact hread

end NetworkLoading.FileTree
