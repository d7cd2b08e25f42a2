import Mathlib.Data.List.Nodup
import Mathlib.Data.List.Perm.Lattice
import NetworkLoading.Config

/-!
# Tables of speeds

A table of speeds is determined by what it holds for each mode. Setting the speed of one mode leaves
those of all others alone.
-/

namespace NetworkLoading.Speeds

variable {s t : Speeds} {mode other : String}

/-- The speed of a mode. -/
def get? (s : Speeds) (mode : String) : Option Float :=
  s.entries.lookup mode

theorem lookup_cons_eq {entry : String × Float} {entries : List (String × Float)} :
    (entry :: entries).lookup mode =
      if mode = entry.1 then some entry.2 else entries.lookup mode := by
  rw [List.lookup_cons]
  by_cases h : mode = entry.1
  · simp [h]
  · simp [h, beq_eq_false_iff_ne.2 h]

theorem lookup_insertEntry (mode other : String) (speed : Float) (entries : List (String × Float)) :
    (insertEntry mode speed entries).lookup other =
      if other = mode then some speed else entries.lookup other := by
  induction entries with
  | nil => rw [insertEntry, lookup_cons_eq]
  | cons entry rest ih =>
    rw [insertEntry]
    split
    · rw [lookup_cons_eq]
    · split
      · rename_i hlt
        have hne : entry.1 ≠ mode := String.ne_of_lt hlt
        rw [lookup_cons_eq, lookup_cons_eq, ih]
        by_cases he : other = entry.1
        · rw [if_pos he, if_pos he, if_neg (he ▸ hne)]
        · rw [if_neg he, if_neg he]
      · rename_i hle hge
        -- Neither is less, so the entry is the one of the mode and is replaced.
        obtain rfl : mode = entry.1 := String.le_antisymm hge hle
        rw [lookup_cons_eq, lookup_cons_eq]
        split <;> rfl

@[simp] theorem get?_insert_self (s : Speeds) (mode : String) (speed : Float) :
    (s.insert mode speed).get? mode = some speed := by
  rw [get?, insert, lookup_insertEntry, if_pos rfl]

theorem get?_insert_of_ne (s : Speeds) (h : other ≠ mode) (speed : Float) :
    (s.insert mode speed).get? other = s.get? other := by
  rw [get?, insert, lookup_insertEntry, if_neg h, get?]

theorem nodup_modes (s : Speeds) : s.modes.Nodup :=
  List.pairwise_map.2 (s.ascending.imp String.ne_of_lt)

theorem mem_iff_lookup {entries : List (String × Float)} (h : (entries.map (·.1)).Nodup)
    {speed : Float} : (mode, speed) ∈ entries ↔ entries.lookup mode = some speed := by
  induction entries with
  | nil => simp
  | cons first rest ih =>
    obtain ⟨first, x⟩ := first
    obtain ⟨hfirst, hrest⟩ := List.nodup_cons.1 h
    rw [lookup_cons_eq, List.mem_cons, ih hrest]
    by_cases he : mode = first
    · subst he
      have hnone : rest.lookup mode ≠ some speed := fun hsome =>
        hfirst (List.mem_map.2 ⟨(mode, speed), (ih hrest).2 hsome, rfl⟩)
      simp [hnone, eq_comm]
    · simp [he]

/-- Two tables which hold the same for each mode are the same. -/
theorem ext_get? (h : ∀ mode, s.get? mode = t.get? mode) : s = t := by
  have hmem : ∀ entry, entry ∈ s.entries ↔ entry ∈ t.entries := by
    intro (mode, speed)
    have hmode : s.entries.lookup mode = t.entries.lookup mode := h mode
    rw [mem_iff_lookup s.nodup_modes, mem_iff_lookup t.nodup_modes, hmode]
  have hperm : s.entries.Perm t.entries :=
    (List.perm_ext_iff_of_nodup (s.nodup_modes.of_map) (t.nodup_modes.of_map)).2 hmem
  obtain ⟨entries, ascending⟩ := s
  obtain ⟨entries', ascending'⟩ := t
  obtain rfl : entries = entries' := hperm.eq_of_pairwise
    (fun a b _ _ hab hba => absurd hba (String.lt_asymm hab)) ascending ascending'
  rfl

/-! ## Tables of entries in order -/

theorem insertEntry_of_lt {speed : Float} {entries : List (String × Float)}
    (h : ∀ entry ∈ entries, entry.1 < mode) :
    insertEntry mode speed entries = entries ++ [(mode, speed)] := by
  induction entries with
  | nil => rfl
  | cons first rest ih =>
    obtain ⟨hfirst, hrest⟩ := List.forall_mem_cons.1 h
    rw [insertEntry, if_neg (String.lt_asymm hfirst), if_pos hfirst, ih hrest, List.cons_append]

/-- Entries in order are added at the end, one after the other. -/
theorem entries_foldl_insert {entries : List (String × Float)}
    (h : (s.entries ++ entries).Pairwise fun a b => a.1 < b.1) :
    (entries.foldl (fun s entry => s.insert entry.1 entry.2) s).entries = s.entries ++ entries := by
  induction entries generalizing s with
  | nil => rw [List.foldl_nil, List.append_nil]
  | cons entry rest ih =>
    have hlast : ∀ e ∈ s.entries, e.1 < entry.1 := fun e he =>
      (List.pairwise_append.1 h).2.2 e he entry List.mem_cons_self
    have hinsert : (s.insert entry.1 entry.2).entries = s.entries ++ [entry] :=
      insertEntry_of_lt hlast
    have happend : s.entries ++ entry :: rest = s.entries ++ [entry] ++ rest := by simp
    rw [happend, ← hinsert] at h ⊢
    exact ih h

theorem foldl_insert {entries : List (String × Float)}
    (h : entries.Pairwise fun a b => a.1 < b.1) :
    entries.foldl (fun (s : Speeds) entry => s.insert entry.1 entry.2) .empty = ⟨entries, h⟩ := by
  have hentries := @entries_foldl_insert .empty entries h
  generalize entries.foldl _ Speeds.empty = t at hentries ⊢
  obtain ⟨_, _⟩ := t
  obtain rfl : _ = entries := hentries
  rfl

end NetworkLoading.Speeds
