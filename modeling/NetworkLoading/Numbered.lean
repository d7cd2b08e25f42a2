/-!
# Numbered values

Values under the numbers from zero on, in a binary tree whose shape never changes: the value of zero
is at the root, the odd numbers are in the one branch and the other even numbers in the other. The
way to a number is as long as the number in base 2.
-/

namespace NetworkLoading

inductive Numbered (α : Type) where
  | empty
  | node (value : α) (odd even : Numbered α)
deriving DecidableEq

namespace Numbered

variable {α : Type}

/-- The same value under every number below `2 ^ depth - 1`. -/
def full (value : α) : Nat → Numbered α
  | 0 => .empty
  | depth + 1 => .node value (full value depth) (full value depth)

/-- The value under a number. -/
def get? : Numbered α → Nat → Option α
  | .empty, _ => none
  | .node value _ _, 0 => some value
  | .node _ odd even, n + 1 => if n % 2 = 0 then odd.get? (n / 2) else even.get? (n / 2)

/-- Changes the value under a number, if there is one. -/
def modify (f : α → α) : Numbered α → Nat → Numbered α
  | .empty, _ => .empty
  | .node value odd even, 0 => .node (f value) odd even
  | .node value odd even, n + 1 =>
    if n % 2 = 0 then .node value (odd.modify f (n / 2)) even
    else .node value odd (even.modify f (n / 2))

/-- Changes every value. -/
def map (f : α → α) : Numbered α → Numbered α
  | .empty => .empty
  | .node value odd even => .node (f value) (odd.map f) (even.map f)

theorem get?_full (value : α) (depth n : Nat) :
    (full value depth).get? n = if (n + 1).log2 < depth then some value else none := by
  induction depth generalizing n with
  | zero => simp [full, get?]
  | succ depth ih =>
    cases n with
    | zero =>
      have : Nat.log2 1 < depth + 1 := Nat.succ_pos depth
      simp only [full, get?, this, ↓reduceIte]
    | succ n =>
      have : (n / 2 + 1).log2 < depth ↔ (n + 1 + 1).log2 < depth + 1 := by
        rw [Nat.log2_lt (Nat.succ_ne_zero _), Nat.log2_lt (Nat.succ_ne_zero _), Nat.pow_succ]
        omega
      simp only [full, get?, ih, ite_self, this]

@[simp] theorem get?_modify_self (f : α → α) (t : Numbered α) (n : Nat) :
    (t.modify f n).get? n = (t.get? n).map f := by
  induction t generalizing n with
  | empty => rfl
  | node value odd even oddIh evenIh =>
    cases n with
    | zero => rfl
    | succ n =>
      simp only [modify, get?]
      split <;> simp only [get?, ↓reduceIte, *]

@[simp] theorem get?_modify_of_ne (f : α → α) (t : Numbered α) {n m : Nat} (h : m ≠ n) :
    (t.modify f n).get? m = t.get? m := by
  induction t generalizing n m with
  | empty => rfl
  | node value odd even oddIh evenIh =>
    cases n with
    | zero =>
      cases m with
      | zero => exact absurd rfl h
      | succ m => rfl
    | succ n =>
      cases m with
      | zero =>
        simp only [modify]
        split <;> rfl
      | succ m =>
        simp only [modify]
        split <;> simp only [get?] <;> split
        -- In the same branch, different numbers are still different when halved.
        · exact oddIh (by omega)
        · rfl
        · rfl
        · exact evenIh (by omega)

@[simp] theorem get?_map (f : α → α) (t : Numbered α) (n : Nat) :
    (t.map f).get? n = (t.get? n).map f := by
  induction t generalizing n with
  | empty => rfl
  | node value odd even oddIh evenIh =>
    cases n with
    | zero => rfl
    | succ n =>
      simp only [map, get?]
      split
      · exact oddIh _
      · exact evenIh _

theorem map_map (f g : α → α) (t : Numbered α) : (t.map f).map g = t.map (g ∘ f) := by
  induction t with
  | empty => rfl
  | node value odd even oddIh evenIh => simp only [map, oddIh, evenIh, Function.comp_apply]

/-- A change under one number and a change everywhere can be made in either order. -/
theorem map_modify (f f' : α → α) {g : α → α} (h : ∀ a, g (f a) = f' (g a)) (t : Numbered α)
    (n : Nat) : (t.modify f n).map g = (t.map g).modify f' n := by
  induction t generalizing n with
  | empty => rfl
  | node value odd even oddIh evenIh =>
    cases n with
    | zero => simp only [modify, map, h]
    | succ n =>
      simp only [modify, map]
      split <;> simp only [map, *]

theorem modify_congr {f g : α → α} {t : Numbered α} {n : Nat}
    (h : ∀ a, t.get? n = some a → f a = g a) : t.modify f n = t.modify g n := by
  induction t generalizing n with
  | empty => rfl
  | node value odd even oddIh evenIh =>
    cases n with
    | zero => simp only [modify, h value rfl]
    | succ n =>
      simp only [get?] at h
      simp only [modify]
      split
      · rename_i hn
        rw [oddIh fun a ha => h a (by rw [if_pos hn]; exact ha)]
      · rename_i hn
        rw [evenIh fun a ha => h a (by rw [if_neg hn]; exact ha)]

theorem modify_modify (f g : α → α) (t : Numbered α) (n : Nat) :
    (t.modify f n).modify g n = t.modify (g ∘ f) n := by
  induction t generalizing n with
  | empty => rfl
  | node value odd even oddIh evenIh =>
    cases n with
    | zero => rfl
    | succ n =>
      simp only [modify]
      split <;> simp only [modify, *, ↓reduceIte]

/-- A change everywhere which no value notices. -/
theorem map_eq_self {f : α → α} {t : Numbered α} (h : ∀ n a, t.get? n = some a → f a = a) :
    t.map f = t := by
  induction t with
  | empty => rfl
  | node value odd even oddIh evenIh =>
    have hodd : odd.map f = odd := oddIh fun n a ha => h (2 * n + 1) a (by simpa [get?] using ha)
    have heven : even.map f = even := evenIh fun n a ha =>
      h (2 * n + 2) a (by simpa [get?, Nat.mul_add_div] using ha)
    rw [map, h 0 value rfl, hodd, heven]

@[simp] theorem modify_id (t : Numbered α) (n : Nat) : t.modify (fun a => a) n = t := by
  induction t generalizing n with
  | empty => rfl
  | node value odd even oddIh evenIh =>
    cases n with
    | zero => rfl
    | succ n => simp only [modify, oddIh, evenIh, ite_self]

end Numbered

end NetworkLoading
