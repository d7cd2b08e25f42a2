import NetworkLoading.Fault

/-!
# Active sets

Every partition has a set of the elements which are to be visited in its next phase. Elements are
visited in the order of their ids, whatever the order in which they were enqueued.
-/

namespace NetworkLoading

/-- A set of ids for each partition. -/
structure ActiveSets (kind : IdKind) where
  parts : List (List (Id kind))
deriving DecidableEq

namespace ActiveSets

variable {kind : IdKind}

/-- Empty sets for a number of partitions. -/
def empty (count : Nat) : ActiveSets kind :=
  ⟨List.replicate count []⟩

/-- The set of a partition which must exist. -/
def part (a : ActiveSets kind) (index : Nat) : Except Fault (List (Id kind)) :=
  match a.parts[index]? with
  | some ids => .ok ids
  | none => .error (.noSuchPartition a.parts.length index)

/-- Adds an id to the set of a partition. -/
def enqueue (a : ActiveSets kind) (index : Nat) (id : Id kind) : Except Fault (ActiveSets kind) :=
  -- An id which is in the set already stays where it is.
  (a.part index).map fun ids => ⟨a.parts.set index (if id ∈ ids then ids else ids ++ [id])⟩

/-- Empties the set of a partition and yields its ids, sorted. -/
def take (a : ActiveSets kind) (index : Nat) :
    Except Fault (List (Id kind) × ActiveSets kind) :=
  (a.part index).map fun ids => (Id.sort ids, ⟨a.parts.set index []⟩)

/-- Empties all sets. -/
def clear (a : ActiveSets kind) : ActiveSets kind :=
  empty a.parts.length

/-- The number of ids in all sets. -/
def size (a : ActiveSets kind) : Nat :=
  a.parts.flatten.length

/-! ## What the sets hold -/

/-- The ids in the set of a partition; a partition which does not exist has none. -/
def ids (a : ActiveSets kind) (index : Nat) : List (Id kind) :=
  a.parts[index]?.getD []

/-- The sets after an id was added to one which exists. -/
def insert (a : ActiveSets kind) (index : Nat) (id : Id kind) : ActiveSets kind :=
  ⟨a.parts.set index (if id ∈ a.ids index then a.ids index else a.ids index ++ [id])⟩

/-- The sets after one was emptied. -/
def emptied (a : ActiveSets kind) (index : Nat) : ActiveSets kind :=
  ⟨a.parts.set index []⟩

theorem part_eq_ok {a : ActiveSets kind} {index : Nat} (h : index < a.parts.length) :
    a.part index = .ok (a.ids index) := by
  simp [part, ids, List.getElem?_eq_getElem h]

theorem part_eq_error {a : ActiveSets kind} {index : Nat} (h : a.parts.length ≤ index) :
    a.part index = .error (.noSuchPartition a.parts.length index) := by
  simp only [part, List.getElem?_eq_none h]

theorem enqueue_eq_ok {a : ActiveSets kind} {index : Nat} (h : index < a.parts.length)
    (id : Id kind) : a.enqueue index id = .ok (a.insert index id) := by
  simp only [enqueue, part_eq_ok h, Except.map, insert]

theorem take_eq_ok {a : ActiveSets kind} {index : Nat} (h : index < a.parts.length) :
    a.take index = .ok (Id.sort (a.ids index), a.emptied index) := by
  simp only [take, part_eq_ok h, Except.map, emptied]

@[simp] theorem length_insert (a : ActiveSets kind) (index : Nat) (id : Id kind) :
    (a.insert index id).parts.length = a.parts.length := by
  simp [insert]

@[simp] theorem length_emptied (a : ActiveSets kind) (index : Nat) :
    (a.emptied index).parts.length = a.parts.length := by
  simp [emptied]

@[simp] theorem clear_insert (a : ActiveSets kind) (index : Nat) (id : Id kind) :
    (a.insert index id).clear = a.clear := by
  simp [clear]

@[simp] theorem clear_emptied (a : ActiveSets kind) (index : Nat) :
    (a.emptied index).clear = a.clear := by
  simp [clear]

@[simp] theorem clear_clear (a : ActiveSets kind) : a.clear.clear = a.clear := by
  simp [clear, empty]

theorem ids_insert {a : ActiveSets kind} {index : Nat} (h : index < a.parts.length) (id : Id kind)
    (other : Nat) : (a.insert index id).ids other =
      if index = other then (if id ∈ a.ids index then a.ids index else a.ids index ++ [id])
      else a.ids other := by
  by_cases he : index = other
  · subst he
    simp [ids, insert, h]
  · simp [ids, insert, he]

theorem mem_ids_insert {a : ActiveSets kind} {index : Nat} (h : index < a.parts.length)
    {id x : Id kind} {other : Nat} :
    x ∈ (a.insert index id).ids other ↔ x ∈ a.ids other ∨ index = other ∧ x = id := by
  rw [ids_insert h]
  by_cases he : index = other
  · subst he
    by_cases hid : id ∈ a.ids index
    · simp only [↓reduceIte, hid, true_and]
      exact ⟨.inl, fun hx => hx.elim (·) (· ▸ hid)⟩
    · simp [hid]
  · simp [he]

theorem nodup_ids_insert {a : ActiveSets kind} {index : Nat} (h : index < a.parts.length)
    (id : Id kind) {other : Nat} (hn : (a.ids other).Nodup) :
    ((a.insert index id).ids other).Nodup := by
  rw [ids_insert h]
  by_cases he : index = other
  · subst he
    by_cases hid : id ∈ a.ids index
    · simpa [hid] using hn
    · simp only [↓reduceIte, hid]
      refine List.nodup_append.2 ⟨hn, by simp, ?_⟩
      rintro x hx y hy rfl
      exact hid (List.mem_singleton.1 hy ▸ hx)
  · simpa [he] using hn

theorem ids_emptied (a : ActiveSets kind) (index other : Nat) :
    (a.emptied index).ids other = if index = other then [] else a.ids other := by
  by_cases he : index = other
  · subst he
    simp only [ids, emptied, ↓reduceIte, List.getElem?_set]
    split <;> rfl
  · simp [ids, emptied, he]

@[simp] theorem ids_empty (count index : Nat) : (empty count : ActiveSets kind).ids index = [] := by
  simp only [ids, empty, List.getElem?_replicate]
  split <;> rfl

@[simp] theorem ids_clear (a : ActiveSets kind) (index : Nat) : a.clear.ids index = [] := by
  simp [clear]

theorem clear_eq_self {a : ActiveSets kind} (h : ∀ index, a.ids index = []) : a.clear = a := by
  -- Sets without ids are all alike, so only their number is left to compare.
  have hparts : a.parts = List.replicate a.parts.length [] := by
    refine List.eq_replicate_iff.2 ⟨rfl, fun ids hids => ?_⟩
    obtain ⟨index, hlt, rfl⟩ := List.getElem_of_mem hids
    simpa [ActiveSets.ids, hlt] using h index
  rw [clear, empty, ← hparts]

end ActiveSets

end NetworkLoading
