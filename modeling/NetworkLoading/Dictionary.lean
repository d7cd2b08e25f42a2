/-!
# Dictionaries

A dictionary holds at most one value under each key. Setting a key replaces what was there. A
dictionary of places serves as the index of a list: it tells where a key stands.
-/

namespace NetworkLoading

structure Dictionary (κ α : Type) where
  entries : List (κ × α) := []
deriving Repr

namespace Dictionary

variable {κ α : Type} [DecidableEq κ]

def get? (d : Dictionary κ α) (key : κ) : Option α :=
  d.entries.lookup key

/-- Sets the value under a key. -/
def insert (d : Dictionary κ α) (key : κ) (value : α) : Dictionary κ α :=
  { entries := (key, value) :: d.entries.eraseP (·.1 = key) }

/-- The element of a list at the place which is kept under a key. -/
def find? {α : Type} (d : Dictionary κ Nat) (xs : List α) (key : κ) : Option α :=
  (d.get? key).bind (xs[·]?)

/-- Changes the element of a list at the place which is kept under a key. -/
def modify {α : Type} (d : Dictionary κ Nat) (xs : List α) (key : κ) (f : α → α) : List α :=
  match d.get? key with
  | some place => xs.modify place f
  | none => xs

/-- Puts every value under another key. -/
def mapKeys {κ' : Type} (d : Dictionary κ α) (f : κ → κ') : Dictionary κ' α :=
  { entries := d.entries.map fun (key, value) => (f key, value) }

@[simp] theorem get?_empty (key : κ) : ({} : Dictionary κ α).get? key = none := rfl

theorem get?_insert (d : Dictionary κ α) (key other : κ) (value : α) :
    (d.insert key value).get? other = if other = key then some value else d.get? other := by
  unfold get? insert
  by_cases he : other = key
  · simp [he]
  -- The entry which was replaced is not the one that is looked for.
  have hkept (entries : List (κ × α)) :
      (entries.eraseP (·.1 = key)).lookup other = entries.lookup other := by
    induction entries with
    | nil => rfl
    | cons entry rest ih =>
      obtain ⟨own, kept⟩ := entry
      by_cases hown : own = key
      · have hne : (other == own) = false := beq_eq_false_iff_ne.2 (hown ▸ he)
        rw [List.eraseP_cons_of_pos (by simpa using hown), List.lookup_cons, hne]
      · rw [List.eraseP_cons_of_neg (by simpa using hown), List.lookup_cons, List.lookup_cons, ih]
  rw [if_neg he, List.lookup_cons, beq_eq_false_iff_ne.2 he, hkept]

@[simp] theorem get?_insert_self (d : Dictionary κ α) (key : κ) (value : α) :
    (d.insert key value).get? key = some value := by
  rw [get?_insert, if_pos rfl]

theorem get?_insert_of_ne (d : Dictionary κ α) {key other : κ} (h : other ≠ key) (value : α) :
    (d.insert key value).get? other = d.get? other := by
  rw [get?_insert, if_neg h]

/-! ## Indices -/

/-- The dictionary tells the place at which a key stands in a list, and stands there for nothing
else. -/
def Indexes (d : Dictionary κ Nat) (keys : List κ) : Prop :=
  ∀ key place, d.get? key = some place ↔ keys[place]? = some key

theorem indexes_empty : ({} : Dictionary κ Nat).Indexes [] := by
  intro key place
  simp

variable {d : Dictionary κ Nat} {keys : List κ}

/-- A key without a place is not in the list. -/
theorem Indexes.get?_eq_none (h : d.Indexes keys) {key : κ} : d.get? key = none ↔ key ∉ keys := by
  rw [List.mem_iff_getElem?, Option.eq_none_iff_forall_ne_some]
  constructor
  · rintro hnone ⟨place, hplace⟩
    exact hnone place ((h key place).2 hplace)
  · intro hnot place hplace
    exact hnot ⟨place, (h key place).1 hplace⟩

/-- A key has one place only, so no two places have the same key. -/
theorem Indexes.place_inj (h : d.Indexes keys) {key : κ} {i j : Nat} (hi : keys[i]? = some key)
    (hj : keys[j]? = some key) : i = j :=
  Option.some.inj (((h key i).2 hi).symm.trans ((h key j).2 hj))

theorem Indexes.nodup (h : d.Indexes keys) : keys.Nodup := by
  refine List.pairwise_iff_getElem.2 fun i j hi hj hlt he => ?_
  have hj' : keys[j]? = some keys[i] := he ▸ List.getElem?_eq_getElem hj
  exact Nat.ne_of_lt hlt (h.place_inj (List.getElem?_eq_getElem hi) hj')

theorem getElem?_concat_eq_some {α : Type} {xs : List α} {x y : α} {i : Nat} :
    (xs ++ [x])[i]? = some y ↔ xs[i]? = some y ∨ i = xs.length ∧ x = y := by
  rcases Nat.lt_trichotomy i xs.length with hlt | rfl | hgt
  · rw [List.getElem?_append_left hlt]
    exact (or_iff_left fun h => Nat.ne_of_lt hlt h.1).symm
  · simp
  · have hlast : (xs ++ [x]).length ≤ i := by
      rw [List.length_append, List.length_singleton]
      exact hgt
    simp [List.getElem?_eq_none hlast, List.getElem?_eq_none (Nat.le_of_lt hgt), Nat.ne_of_gt hgt]

/-- A new key becomes the last one of the list. -/
theorem Indexes.insert (h : d.Indexes keys) {key : κ} (hnew : d.get? key = none) :
    (d.insert key keys.length).Indexes (keys ++ [key]) := by
  intro other place
  rw [getElem?_concat_eq_some, ← h other place, get?_insert]
  by_cases he : other = key
  · -- The key had no place, so the new one is its only one.
    subst he
    simp [hnew, eq_comm]
  · simp [he, Ne.symm he]

section

variable {α : Type} {key : α → κ} {xs : List α}

/-- An index finds the element with a key. -/
theorem Indexes.find?_eq_some (h : d.Indexes (xs.map key)) {k : κ} {x : α} :
    d.find? xs k = some x ↔ x ∈ xs ∧ key x = k := by
  -- What the index says of the key, in terms of the elements.
  have hkey {place : Nat} : d.get? k = some place ↔ ∃ y, xs[place]? = some y ∧ key y = k := by
    rw [h k place, List.getElem?_map, Option.map_eq_some_iff]
  rw [find?, Option.bind_eq_some_iff]
  constructor
  · rintro ⟨place, hplace, hx⟩
    obtain ⟨y, hy, hyk⟩ := hkey.1 hplace
    obtain rfl : x = y := Option.some.inj (hx.symm.trans hy)
    exact ⟨List.mem_of_getElem? hx, hyk⟩
  · rintro ⟨hx, hxk⟩
    obtain ⟨place, hplace⟩ := List.mem_iff_getElem?.1 hx
    exact ⟨place, hkey.2 ⟨x, hplace, hxk⟩, hplace⟩

theorem Indexes.find?_eq_none (h : d.Indexes (xs.map key)) {k : κ} :
    d.find? xs k = none ↔ k ∉ xs.map key := by
  rw [List.mem_map, Option.eq_none_iff_forall_ne_some]
  constructor
  · rintro hnone ⟨x, hx⟩
    exact hnone x (h.find?_eq_some.2 hx)
  · intro hnot x hx
    exact hnot ⟨x, h.find?_eq_some.1 hx⟩

/-- Through an index, the elements with a key are changed and no other ones. -/
theorem Indexes.modify_eq (h : d.Indexes (xs.map key)) (k : κ) (f : α → α) :
    d.modify xs k f = xs.map fun x => if key x = k then f x else x := by
  -- The place of the key is that of the elements which have it.
  have hkey {i : Nat} {x : α} (hx : xs[i]? = some x) : d.get? k = some i ↔ key x = k := by
    rw [h k i, List.getElem?_map, hx, Option.map_some, Option.some.injEq]
  unfold modify
  split
  · rename_i place hplace
    apply List.ext_getElem?
    intro i
    rw [List.getElem?_modify, List.getElem?_map]
    cases hx : xs[i]? with
    | none => rfl
    | some x =>
      have hi : place = i ↔ key x = k := by rw [← hkey hx, hplace, Option.some.injEq]
      simp [hi]
  · rename_i hnone
    apply List.ext_getElem?
    intro i
    rw [List.getElem?_map]
    cases hx : xs[i]? with
    | none => rfl
    | some x =>
      have hne : ¬ key x = k := by
        rw [← hkey hx, hnone]
        exact nofun
      simp [hne]

/-- What a change leaves of an element it leaves of the whole list. -/
theorem map_modify {β : Type} (d : Dictionary κ Nat) (xs : List α) (k : κ)
    {f : α → α} {g : α → β} (hg : ∀ x, g (f x) = g x) : (d.modify xs k f).map g = xs.map g := by
  unfold modify
  split
  · rename_i place _
    apply List.ext_getElem?
    intro i
    rw [List.getElem?_map, List.getElem?_modify, List.getElem?_map]
    cases xs[i]? with
    | none => rfl
    | some x =>
      simp only [Option.map_eq_map, Option.map_some]
      split
      · rw [hg]
      · rfl
  · rfl

/-- No place which is kept in an index is behind the end of the list. -/
theorem Indexes.find?_eq_none_iff (h : d.Indexes (xs.map key)) {k : κ} :
    d.find? xs k = none ↔ d.get? k = none := by
  rw [h.find?_eq_none, h.get?_eq_none]

end

/-! ## Other keys -/

section

variable {κ' : Type} [DecidableEq κ'] {f : κ → κ'} (hf : ∀ a b, f a = f b → a = b)
include hf

theorem get?_mapKeys (d : Dictionary κ α) (key : κ) : (d.mapKeys f).get? (f key) = d.get? key := by
  obtain ⟨entries⟩ := d
  unfold get? mapKeys
  induction entries with
  | nil => rfl
  | cons entry rest ih =>
    obtain ⟨own, kept⟩ := entry
    have hsame : (f key == f own) = (key == own) := by
      rw [Bool.eq_iff_iff, beq_iff_eq, beq_iff_eq]
      exact ⟨hf key own, congrArg f⟩
    rw [List.map_cons, List.lookup_cons, List.lookup_cons, hsame]
    split
    · rfl
    · exact ih

theorem mapKeys_insert (d : Dictionary κ α) (key : κ) (value : α) :
    (d.insert key value).mapKeys f = (d.mapKeys f).insert (f key) value := by
  obtain ⟨entries⟩ := d
  -- The entry which is replaced is the same under either key.
  have hsame : ((fun entry : κ' × α => decide (entry.1 = f key)) ∘ fun entry : κ × α =>
      (f entry.1, entry.2)) = fun entry => decide (entry.1 = key) := by
    funext entry
    exact decide_eq_decide.2 ⟨hf entry.1 key, congrArg f⟩
  simp only [insert, mapKeys, List.map_cons, List.eraseP_map, hsame]

theorem find?_mapKeys {α β : Type} (d : Dictionary κ Nat) (xs : List α) (key : κ) (g : α → β) :
    (d.mapKeys f).find? (xs.map g) (f key) = (d.find? xs key).map g := by
  rw [find?, get?_mapKeys hf, find?]
  cases d.get? key with
  | none => rfl
  | some place => simp

theorem modify_mapKeys {α β : Type} (d : Dictionary κ Nat) (xs : List α) (key : κ) {g : α → β}
    {c : α → α} {e : β → β} (h : ∀ x, e (g x) = g (c x)) :
    (d.mapKeys f).modify (xs.map g) (f key) e = (d.modify xs key c).map g := by
  rw [modify, get?_mapKeys hf, modify]
  cases d.get? key with
  | none => rfl
  | some place =>
    apply List.ext_getElem?
    intro i
    simp only [List.getElem?_modify, List.getElem?_map]
    cases xs[i]? with
    | none => rfl
    | some x =>
      simp only [Option.map_eq_map, Option.map_some]
      split
      · rw [h]
      · rfl

end

omit [DecidableEq κ] in
@[simp] theorem mapKeys_mapKeys {κ' κ'' : Type} (d : Dictionary κ α) (f : κ → κ') (g : κ' → κ'') :
    (d.mapKeys f).mapKeys g = d.mapKeys fun key => g (f key) := by
  simp [mapKeys, Function.comp_def]

end Dictionary

end NetworkLoading
