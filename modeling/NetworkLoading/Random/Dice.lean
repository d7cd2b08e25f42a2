import NetworkLoading.Random.Words

/-!
# Dice

A die with `n` sides shows one of the numbers below `n`. What is drawn at random is drawn with dice,
so that it does not matter where the numbers come from. The dice of a seed scale random words to the
number of sides.
-/

namespace NetworkLoading.Random

/-- A source of numbers below any given bound, with a state of its own. -/
structure Dice (σ : Type) where
  roll : σ → Nat → Nat × σ
  roll_lt : ∀ s n, 0 < n → (roll s n).1 < n

/-- Scales a word to the numbers below `n`, with the fraction that is left over. -/
def scaled (word : UInt32) (n : Nat) : Nat × Nat :=
  let product := word.toNat * n
  (product / UInt32.size, product % UInt32.size)

theorem scaled_fst_lt (word : UInt32) {n : Nat} (h : 0 < n) : (scaled word n).1 < n := by
  have hw : word.toNat < UInt32.size := word.toNat_lt_size
  refine (Nat.div_lt_iff_lt_mul (by decide)).2 ?_
  rw [Nat.mul_comm n]
  exact Nat.mul_lt_mul_of_pos_right hw h

/-- The number that is scaled from a word, one more if a second word carries over the fraction. The
second word is taken only if the fraction is so great that it could. -/
def rollWords (w : Words) (n : Nat) : Nat × Words :=
  let (word, w) := w.next
  let (number, fraction) := scaled word n
  if UInt32.size - n < fraction then
    let (word, w) := w.next
    -- The second word is scaled to the place behind the fraction, where only its carry counts.
    (if UInt32.size ≤ fraction + (scaled word n).1 then number + 1 else number, w)
  else (number, w)

/-- The greatest number has too small a fraction to be carried over. -/
theorem succ_scaled_fst_lt (word : UInt32) {n : Nat} (h : UInt32.size - n < (scaled word n).2) :
    (scaled word n).1 + 1 < n := by
  have hw : word.toNat + 1 ≤ UInt32.size := word.toNat_lt_size
  have hdiv := Nat.div_add_mod (word.toNat * n) UInt32.size
  have hle := Nat.mul_le_mul_right n hw
  rw [Nat.add_mul] at hle
  simp only [scaled, UInt32.size] at *
  generalize word.toNat * n = product at *
  omega

theorem rollWords_lt (w : Words) (n : Nat) (h : 0 < n) : (rollWords w n).1 < n := by
  simp only [rollWords]
  split
  · rename_i hlt
    split
    · exact succ_scaled_fst_lt _ hlt
    · exact scaled_fst_lt _ h
  · exact scaled_fst_lt _ h

/-- The dice whose throws are determined by a seed. -/
def seeded : Dice Words where
  roll := rollWords
  roll_lt := rollWords_lt

end NetworkLoading.Random
