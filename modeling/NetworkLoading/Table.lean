import NetworkLoading.Id
import NetworkLoading.Numbered

/-!
# Tables with fixed keys

A table holds a value for each of its keys, which are ids. The keys are chosen when it is made;
afterwards only values change.
-/

namespace NetworkLoading

structure Table (kind : IdKind) (α : Type) where
  /-- The keys, in the order in which they were given. -/
  keys : List (Id kind)
  /-- The values under the numbers of the keys. -/
  values : Numbered (Option α)
deriving DecidableEq

namespace Table

variable {kind : IdKind} {α : Type}

/-- The greatest number of a key. -/
def greatest (keys : List (Id kind)) : Nat :=
  (keys.map (·.index)).foldl max 0

/-- Puts the same value under the numbers of keys. -/
def fill (keys : List (Id kind)) (value : α) (values : Numbered (Option α)) : Numbered (Option α) :=
  keys.foldl (fun values key => values.modify (fun _ => some value) key.index) values

/-- The table with the same value for each key. -/
def ofKeys (keys : List (Id kind)) (value : α) : Table kind α :=
  { keys, values := fill keys value (.full none ((greatest keys + 1).log2 + 1)) }

/-- Changes every value. -/
def map (t : Table kind α) (f : α → α) : Table kind α :=
  { t with values := t.values.map (Option.map f) }

/-- The value of a key. -/
def get? (t : Table kind α) (key : Id kind) : Option α :=
  (t.values.get? key.index).join

/-- Changes the value of a key. -/
def modify (t : Table kind α) (key : Id kind) (f : α → α) : Table kind α :=
  { t with values := t.values.modify (Option.map f) key.index }

/-- The keys with their values, in the order in which the keys were given. -/
def entries (t : Table kind α) : List (Id kind × α) :=
  t.keys.filterMap fun key => (t.get? key).map (key, ·)

@[simp] theorem keys_ofKeys (ks : List (Id kind)) (value : α) : (ofKeys ks value).keys = ks := rfl

@[simp] theorem keys_map (t : Table kind α) (f : α → α) : (t.map f).keys = t.keys := rfl

@[simp] theorem keys_modify (t : Table kind α) (key : Id kind) (f : α → α) :
    (t.modify key f).keys = t.keys := rfl

theorem le_foldl_max (ns : List Nat) (least : Nat) :
    least ≤ ns.foldl max least ∧ ∀ n ∈ ns, n ≤ ns.foldl max least := by
  induction ns generalizing least with
  | nil => simp
  | cons m ns ih =>
    obtain ⟨le, all⟩ := ih (max least m)
    simp only [List.foldl_cons, List.mem_cons, forall_eq_or_imp]
    exact ⟨by omega, by omega, all⟩

theorem index_le_greatest {ks : List (Id kind)} {key : Id kind} (h : key ∈ ks) :
    key.index ≤ greatest ks :=
  (le_foldl_max _ 0).2 _ (List.mem_map_of_mem h)

theorem get?_fill (ks : List (Id kind)) (value : α) (values : Numbered (Option α)) (n : Nat) :
    (fill ks value values).get? n =
      if n ∈ ks.map (·.index) then (values.get? n).map fun _ => some value else values.get? n := by
  induction ks generalizing values with
  | nil => simp [fill]
  | cons key ks ih =>
    simp only [fill, List.foldl_cons] at ih ⊢
    rw [ih]
    by_cases h : n = key.index
    · subst h
      simp [Function.comp_def]
    · simp [h]

theorem get?_ofKeys (ks : List (Id kind)) (value : α) (key : Id kind) :
    (ofKeys ks value).get? key = if key.index ∈ ks.map (·.index) then some value else none := by
  simp only [ofKeys, get?, get?_fill, Numbered.get?_full]
  by_cases h : key.index ∈ ks.map (·.index)
  · obtain ⟨k, mem, same⟩ := List.mem_map.1 h
    have le := index_le_greatest mem
    have lt := Nat.lt_log2_self (n := greatest ks + 1)
    -- The tree was made deep enough for the greatest number, so for this one, too.
    have : (key.index + 1).log2 < (greatest ks + 1).log2 + 1 := by
      rw [Nat.log2_lt (Nat.succ_ne_zero _)]
      omega
    simp only [h, this, ↓reduceIte, Option.map_some, Option.join_some]
  · simp only [h, ↓reduceIte]
    split <;> rfl

theorem get?_ofKeys_of_mem {ks : List (Id kind)} {value : α} {key : Id kind} (h : key ∈ ks) :
    (ofKeys ks value).get? key = some value := by
  rw [get?_ofKeys, if_pos (List.mem_map_of_mem h)]

/-- Only the number of a key matters. -/
theorem get?_congr (t : Table kind α) {key other : Id kind} (h : other.index = key.index) :
    t.get? other = t.get? key := by
  simp only [get?, h]

theorem isSome_get?_ofKeys {ks : List (Id kind)} {value : α} {key : Id kind} :
    ((ofKeys ks value).get? key).isSome ↔ key.index ∈ ks.map (·.index) := by
  rw [get?_ofKeys]
  split <;> simp only [Option.isSome_some, Option.isSome_none, Bool.false_eq_true, *]

@[simp] theorem get?_modify_self (t : Table kind α) (key : Id kind) (f : α → α) :
    (t.modify key f).get? key = (t.get? key).map f := by
  simp only [modify, get?, Numbered.get?_modify_self]
  cases t.values.get? key.index <;> rfl

theorem get?_modify_of_eq (t : Table kind α) {key other : Id kind} (h : other.index = key.index)
    (f : α → α) : (t.modify key f).get? other = (t.get? other).map f := by
  rw [get?_congr _ h, get?_modify_self, get?_congr _ h]

@[simp] theorem get?_modify_of_ne (t : Table kind α) {key other : Id kind}
    (h : other.index ≠ key.index) (f : α → α) : (t.modify key f).get? other = t.get? other := by
  simp only [modify, get?, Numbered.get?_modify_of_ne _ _ h]

@[simp] theorem get?_map (t : Table kind α) (key : Id kind) (f : α → α) :
    (t.map f).get? key = (t.get? key).map f := by
  simp only [map, get?, Numbered.get?_map]
  cases t.values.get? key.index <;> rfl

theorem map_map (t : Table kind α) (f g : α → α) : (t.map f).map g = t.map (g ∘ f) := by
  simp only [map, Numbered.map_map]
  congr 2
  funext a
  cases a <;> rfl

theorem map_modify (f f' : α → α) {g : α → α} (h : ∀ a, g (f a) = f' (g a)) (t : Table kind α)
    (key : Id kind) : (t.modify key f).map g = (t.map g).modify key f' := by
  simp only [map, modify]
  rw [Numbered.map_modify (Option.map f) (Option.map f')]
  intro a
  cases a with
  | none => rfl
  | some a => exact congrArg some (h a)

theorem modify_congr {f g : α → α} {t : Table kind α} {key : Id kind}
    (h : ∀ a, t.get? key = some a → f a = g a) : t.modify key f = t.modify key g := by
  simp only [modify]
  rw [Numbered.modify_congr]
  intro a ha
  cases a with
  | none => rfl
  | some a => exact congrArg some (h a (by simp only [get?, ha, Option.join_some]))

theorem modify_modify (t : Table kind α) (key : Id kind) (f g : α → α) :
    (t.modify key f).modify key g = t.modify key (g ∘ f) := by
  simp only [modify, Numbered.modify_modify, Option.map_comp_map]

theorem map_eq_self {f : α → α} {t : Table kind α}
    (h : ∀ key a, t.get? key = some a → f a = a) : t.map f = t := by
  simp only [map]
  rw [Numbered.map_eq_self]
  intro n a ha
  cases a with
  | none => rfl
  | some a => exact congrArg some (h ⟨n, ""⟩ a (by simp only [get?, ha, Option.join_some]))

@[simp] theorem modify_id (t : Table kind α) (key : Id kind) :
    t.modify key (fun a => a) = t := by
  have h : Option.map (fun a : α => a) = fun a => a := funext fun _ => Option.map_id'
  simp only [modify, h, Numbered.modify_id]

theorem map_const_modify (t : Table kind α) (key : Id kind) (f : α → α) (value : α) :
    (t.modify key f).map (fun _ => value) = t.map fun _ => value := by
  rw [map_modify f (fun a => a) fun _ => rfl, modify_id]

end Table

end NetworkLoading
