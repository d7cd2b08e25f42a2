import Mathlib.Data.List.Nodup
import NetworkLoading.Proofs.Ids
import NetworkLoading.TravelTime

/-!
# The rules of modes

Setting the rule of a mode changes no other rule, and no mode has two.
-/

namespace NetworkLoading.TravelTimes

theorem isSome_get? (t : TravelTimes) (mode : ModeId) :
    (t.get? mode).isSome = t.rules.any (·.1 = mode) := by
  rw [get?, Option.isSome_map, List.isSome_find?]

/-- Replacing the rule of a mode keeps the mode. -/
theorem fst_replace (mode : ModeId) (rule : TravelTime) (entry : ModeId × TravelTime) :
    (if entry.1 = mode then (mode, rule) else entry).1 = entry.1 := by
  split
  · rename_i he
    exact he.symm
  · rfl

theorem get?_insert (t : TravelTimes) (mode other : ModeId) (rule : TravelTime) :
    (t.insert mode rule).get? other = if other = mode then some rule else t.get? other := by
  unfold insert
  split
  · rename_i hset
    -- Replacing rules keeps their modes, so the search finds the same entry.
    have hfind : (t.rules.map fun entry => if entry.1 = mode then (mode, rule) else entry).find?
        (·.1 = other) = (t.rules.find? (·.1 = other)).map fun entry =>
          if entry.1 = mode then (mode, rule) else entry := by
      simp only [List.find?_map, Function.comp_def, fst_replace]
    rw [get?, hfind, Option.map_map]
    by_cases he : other = mode
    · subst he
      rw [get?, Option.isSome_map] at hset
      obtain ⟨entry, hentry⟩ := Option.isSome_iff_exists.1 hset
      have hid : entry.1 = other := by simpa using List.find?_some hentry
      simp [hentry, hid]
    · rw [if_neg he, get?]
      cases hentry : t.rules.find? (·.1 = other) with
      | none => rfl
      | some entry =>
        have hid : entry.1 = other := by simpa using List.find?_some hentry
        simp [hid, he]
  · rename_i hset
    rw [get?, List.find?_append]
    by_cases he : other = mode
    · subst he
      have hnone : t.rules.find? (·.1 = other) = none :=
        Option.map_eq_none_iff.1 (Option.not_isSome_iff_eq_none.1 hset)
      simp [hnone]
    · have hne : ¬ mode = other := fun h => he h.symm
      simp [get?, he, hne]

theorem keys_insert (t : TravelTimes) (mode : ModeId) (rule : TravelTime) :
    (t.insert mode rule).rules.map (·.1) =
      if (t.get? mode).isSome then t.rules.map (·.1) else t.rules.map (·.1) ++ [mode] := by
  unfold insert
  split
  · simp only [List.map_map, Function.comp_def, fst_replace]
  · simp

theorem nodup_insert {t : TravelTimes} (h : (t.rules.map (·.1)).Nodup) (mode : ModeId)
    (rule : TravelTime) : ((t.insert mode rule).rules.map (·.1)).Nodup := by
  rw [keys_insert]
  split
  · exact h
  · rename_i hset
    refine List.nodup_append.2 ⟨h, List.nodup_singleton mode, ?_⟩
    rintro a ha b hb rfl
    obtain rfl := List.mem_singleton.1 hb
    obtain ⟨entry, hentry, hid⟩ := List.mem_map.1 ha
    rw [isSome_get?, Bool.not_eq_true, List.any_eq_false] at hset
    exact hset entry hentry (decide_eq_true hid)

theorem isSome_get?_insert (t : TravelTimes) (mode other : ModeId) (rule : TravelTime) :
    ((t.insert mode rule).get? other).isSome =
      ((t.get? other).isSome || decide (mode = other)) := by
  rw [get?_insert]
  by_cases he : other = mode
  · simp [he]
  · have hne : ¬ mode = other := fun h => he h.symm
    simp [he, hne]

/-- The order in which the rules are listed does not show in what a mode gets. -/
theorem get?_eq_of_perm {t u : TravelTimes} (h : (t.rules.map (·.1)).Nodup)
    (hp : u.rules.Perm t.rules) (mode : ModeId) : u.get? mode = t.get? mode := by
  have hfind : u.rules.find? (·.1 = mode) = t.rules.find? (·.1 = mode) := by
    cases hentry : t.rules.find? (·.1 = mode) with
    | none =>
      refine List.find?_eq_none.2 fun entry hmem => ?_
      exact List.find?_eq_none.1 hentry entry (hp.mem_iff.1 hmem)
    | some entry =>
      have hid : entry.1 = mode := by simpa using List.find?_some hentry
      have hmem : entry ∈ u.rules := hp.mem_iff.2 (List.mem_of_find?_eq_some hentry)
      subst hid
      exact Id.find?_eq_some ((hp.map _).nodup_iff.2 h) hmem
  rw [get?, get?, hfind]

end NetworkLoading.TravelTimes
