/-!
# Operations which may fail

An operation which consists of several steps has a result only if each of them has one.
-/

namespace NetworkLoading

variable {ε α α' β β' : Type} {x : Except ε α}

theorem exists_of_bind_eq_ok {f : α → Except ε β} {b : β} (h : x.bind f = .ok b) :
    ∃ a, x = .ok a ∧ f a = .ok b := by
  cases x with
  | error error => cases h
  | ok a => exact ⟨a, rfl, h⟩

theorem exists_of_map_eq_ok {f : α → β} {b : β} (h : x.map f = .ok b) :
    ∃ a, x = .ok a ∧ f a = b := by
  cases x with
  | error error => cases h
  | ok a =>
    cases h
    exact ⟨a, rfl, rfl⟩

variable {f : α → α'} {f' : β → β'}

/-- A change of the result of the first operation shows in the result of the second one. -/
theorem bind_map_of_comm {g : α → Except ε β} {g' : α' → Except ε β'}
    (h : ∀ a, g' (f a) = (g a).map f') : (x.map f).bind g' = (x.bind g).map f' := by
  cases x with
  | error error => rfl
  | ok a => exact h a

theorem map_map_of_comm {g : α → β} {g' : α' → β'} (h : ∀ a, g' (f a) = f' (g a)) :
    (x.map f).map g' = (x.map g).map f' := by
  cases x with
  | error error => rfl
  | ok a => exact congrArg Except.ok (h a)

end NetworkLoading
