import NetworkLoading.Sorting

/-!
# Ids

Persons, links, nodes and modes are named by the outside world and numbered in the order in which
the names first turn up. An id carries both. Two ids of one store are the same if their numbers
are; they are ordered by their names, because the numbers depend on the order of creation and
must not show in any result.
-/

namespace NetworkLoading

/-- What an id stands for. Ids of different kinds never meet. -/
inductive IdKind where
  | general
  | mode
  | person
  | link
  | node
deriving DecidableEq, Repr

/-- The fixed number of a kind, as it is named in messages. -/
def IdKind.number : IdKind → Nat
  | .general => 0
  | .mode => 1
  | .person => 2
  | .link => 3
  | .node => 4

/-- No two kinds have the same number. -/
theorem IdKind.number_inj {a b : IdKind} : a.number = b.number ↔ a = b := by
  constructor
  · intro h
    cases a <;> cases b <;> first | rfl | cases h
  · exact congrArg IdKind.number

/-- An id: its number within its kind, and the name it was created for. -/
structure Id (kind : IdKind) where
  index : Nat
  name : String
deriving DecidableEq, Repr

abbrev ModeId := Id .mode
abbrev PersonId := Id .person
abbrev LinkId := Id .link
abbrev NodeId := Id .node

namespace Id

variable {kind : IdKind}

/-- Whether two ids of one store are the same: the numbers decide. -/
def same (a b : Id kind) : Bool :=
  a.index == b.index

/-- Ids are ordered by name; equal numbers make them equal. -/
def cmp (a b : Id kind) : Ordering :=
  -- Within one store different numbers have different names, so this is an order of the names.
  if a.index = b.index then .eq else compare a.name b.name

/-- Whether `a` comes before `b` in a sorted list. -/
def before (a b : Id kind) : Bool :=
  a.cmp b == .lt

/-- Sorts ids by name. -/
def sort (ids : List (Id kind)) : List (Id kind) :=
  sortBy before ids

/-- Both halves of an id, as they stand in diagnostic texts. -/
def describe (id : Id kind) : String :=
  s!"Id({id.index}: {id.name})"

/-- An id that may be missing, as it stands in diagnostic texts. -/
def describe? : Option (Id kind) → String
  | none => "None"
  | some id => s!"Some({id.describe})"

@[simp] theorem same_self (a : Id kind) : a.same a = true := by simp [same]

@[simp] theorem cmp_self (a : Id kind) : a.cmp a = .eq := by simp [cmp]

@[simp] theorem before_self (a : Id kind) : a.before a = false := by simp [before]

end Id

end NetworkLoading
