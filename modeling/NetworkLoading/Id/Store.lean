import NetworkLoading.Dictionary
import NetworkLoading.Fault

/-!
# The store of ids

Holds the ids of each kind in the order of their first creation, and beside them the number of every
name. Ids are never removed one by one, so an id stays what it is until the store is emptied.
-/

namespace NetworkLoading

/-- An id as it is kept, without its kind. -/
structure StoredId where
  index : Nat
  name : String
deriving DecidableEq, Repr

/-- The id which is kept, as one of its kind. -/
def StoredId.typed (id : StoredId) (kind : IdKind) : Id kind :=
  { index := id.index, name := id.name }

/-- The ids of one kind. Each stands at the place which its number names, and the numbers are the
index of the names. -/
structure TypedIds where
  /-- In the order of creation. -/
  ids : List StoredId := []
  numbers : Dictionary String Nat := {}
  -- The two proofs tie the three records of an id together: its place, its number, its name.
  index_eq : ∀ (i : Nat) (id : StoredId), ids[i]? = some id → id.index = i := by exact nofun
  indexed : numbers.Indexes (ids.map (·.name)) := by exact Dictionary.indexes_empty

namespace TypedIds

/-- The id of a name. A number leads to a place in the list. -/
def find? (t : TypedIds) (name : String) : Option StoredId :=
  t.numbers.find? t.ids name

/-- Appends an id for a name which has none. Its number is the next one. -/
def push (t : TypedIds) (name : String) (hnew : t.find? name = none) : TypedIds where
  ids := t.ids ++ [{ index := t.ids.length, name }]
  numbers := t.numbers.insert name t.ids.length
  index_eq := by
    intro i id hid
    rcases Dictionary.getElem?_concat_eq_some.1 hid with hid | ⟨rfl, rfl⟩
    · exact t.index_eq i id hid
    · rfl
  indexed := by
    have h := t.indexed.insert (t.indexed.find?_eq_none_iff.1 hnew)
    -- The number of the new id is the number of names before it.
    rw [List.length_map] at h
    rw [List.map_append]
    exact h

end TypedIds

/-- The ids created so far, under the number of their kind. -/
structure IdStore where
  types : Dictionary Nat TypedIds := {}

namespace IdStore

/-- The store before any id was created. -/
def empty : IdStore := {}

/-- The ids of one kind. -/
def typed (s : IdStore) (kind : IdKind) : TypedIds :=
  -- A kind without ids need not be there at all.
  (s.types.get? kind.number).getD {}

/-- The names of one kind, in the order of creation. -/
def names (s : IdStore) (kind : IdKind) : List String :=
  (s.typed kind).ids.map (·.name)

/-- Appends an id for a name of a kind which has none. -/
def append (s : IdStore) (name : String) (kind : IdKind)
    (hnew : (s.typed kind).find? name = none) : IdStore :=
  { s with types := s.types.insert kind.number ((s.typed kind).push name hnew) }

/-- The id of a name, if it was created. -/
def find? (s : IdStore) (kind : IdKind) (name : String) : Option (Id kind) :=
  (s.types.get? kind.number).bind fun ids => (ids.find? name).map (·.typed kind)

/-- The id of a name. A new name gets the next number of its kind. -/
def create (s : IdStore) (kind : IdKind) (name : String) : Id kind × IdStore :=
  match h : (s.typed kind).find? name with
  | some id => (id.typed kind, s)
  -- The name is kept in two places, which the store changes together.
  | none => ({ index := (s.typed kind).ids.length, name }, s.append name kind h)

/-- The ids of several names, created in their order. -/
def createAll (s : IdStore) (kind : IdKind) : List String → List (Id kind) × IdStore
  | [] => ([], s)
  | name :: rest =>
    let (id, s) := s.create kind name
    let (ids, s) := s.createAll kind rest
    (id :: ids, s)

/-- The id with a number. -/
def get (s : IdStore) (kind : IdKind) (index : Nat) : Except Fault (Id kind) :=
  match s.types.get? kind.number with
  | none => .error (.noIdsOf kind)
  | some ids =>
    match ids.ids[index]? with
    | none => .error (.noIdAt index)
    | some id => .ok (id.typed kind)

/-- The id of a name which must have been created. -/
def require (s : IdStore) (kind : IdKind) (name : String) : Except Fault (Id kind) :=
  match s.find? kind name with
  | some id => .ok id
  | none => .error (.noIdFor name)

/-- Empties the store. Ids which were given out before mean nothing to it any more. -/
def reset (s : IdStore) : IdStore :=
  { s with types := {} }

section

variable (s : IdStore) {kind other : IdKind} {name : String}

@[simp] theorem names_empty (kind : IdKind) : empty.names kind = [] := rfl

theorem typed_append_self (hnew : (s.typed kind).find? name = none) :
    (s.append name kind hnew).typed kind = (s.typed kind).push name hnew := by
  simp [typed, append]

theorem typed_append_of_ne (hnew : (s.typed kind).find? name = none) (h : kind ≠ other) :
    (s.append name kind hnew).typed other = s.typed other := by
  have hkey : other.number ≠ kind.number := fun he => h (IdKind.number_inj.1 he).symm
  rw [typed, append, Dictionary.get?_insert_of_ne _ hkey, typed]

@[simp] theorem names_append_self (hnew : (s.typed kind).find? name = none) :
    (s.append name kind hnew).names kind = s.names kind ++ [name] := by
  simp [names, typed_append_self, TypedIds.push]

theorem names_append_of_ne (hnew : (s.typed kind).find? name = none) (h : kind ≠ other) :
    (s.append name kind hnew).names other = s.names other := by
  rw [names, typed_append_of_ne s hnew h, names]

theorem find?_eq_typed (kind : IdKind) (name : String) :
    s.find? kind name = ((s.typed kind).find? name).map (·.typed kind) := by
  unfold find? typed
  cases s.types.get? kind.number <;> rfl

/-- A name which has an id keeps it. -/
theorem create_of_find? {id : Id kind} (h : s.find? kind name = some id) :
    s.create kind name = (id, s) := by
  rw [find?_eq_typed] at h
  obtain ⟨stored, hstored, rfl⟩ := Option.map_eq_some_iff.1 h
  unfold create
  split
  · rename_i other hother
    obtain rfl : stored = other := Option.some.inj (hstored.symm.trans hother)
    rfl
  · rename_i hnone
    cases hstored.symm.trans hnone

/-- A name without an id gets the next number. -/
theorem create_of_new (h : s.find? kind name = none) : ∃ hnew,
    s.create kind name = ({ index := (s.names kind).length, name }, s.append name kind hnew) := by
  rw [find?_eq_typed, Option.map_eq_none_iff] at h
  refine ⟨h, ?_⟩
  unfold create
  split
  · rename_i id hid
    cases h.symm.trans hid
  · rw [names, List.length_map]

end

end IdStore

end NetworkLoading
