import Mathlib.Data.Nat.Basic
import NetworkLoading.Decimal.Reading
import NetworkLoading.Yaml.Node

/-!
# Whole numbers are read back

The digits which are written for a whole number stand for this number. They have no needless zero,
so that they are a number in a document as well.
-/

namespace NetworkLoading

variable {base n v : Nat} {c : Char} {cs : List Char}

namespace Decimal

theorem digits?_singleton (hc : digit? base c = some v) : digits? base [c] = some v := by
  simp [digits?, hc]

theorem digits?_concat (h : digits? base cs = some n) (hc : digit? base c = some v) :
    digits? base (cs ++ [c]) = some (n * base + v) := by
  rw [digits?] at h
  split at h
  · cases h
  rw [digits?, if_neg (by simp), List.foldl_append, h]
  simp [hc]

theorem digit?_digitChar : ∀ v < 10, digit? 10 (Nat.digitChar v) = some v := by
  decide

theorem digits?_toDigits (n : Nat) : digits? 10 (Nat.toDigits 10 n) = some n := by
  induction n using Nat.strongRecOn with
  | ind n ih =>
    rw [Nat.toDigits_eq_if (by decide)]
    split
    · rename_i hlt
      exact digits?_singleton (digit?_digitChar n hlt)
    · rename_i hge
      have hlast : n % 10 < 10 := Nat.mod_lt _ (by decide)
      rw [digits?_concat (ih (n / 10) (by omega)) (digit?_digitChar _ hlast)]
      congr 1
      omega

end Decimal

namespace Yaml.Node

theorem head?_toDigits (h : n ≠ 0) : (Nat.toDigits 10 n).head? ≠ some '0' := by
  induction n using Nat.strongRecOn with
  | ind n ih =>
    have hdigit : ∀ v < 10, v ≠ 0 → Nat.digitChar v ≠ '0' := by decide
    rw [Nat.toDigits_eq_if (by decide)]
    split
    · rename_i hlt
      simpa using hdigit n hlt h
    · obtain ⟨first, rest, he⟩ : ∃ first rest, Nat.toDigits 10 (n / 10) = first :: rest :=
        List.exists_cons_of_ne_nil (by simp)
      have hfirst := ih (n / 10) (by omega) (by omega)
      rw [he] at hfirst ⊢
      exact hfirst

theorem hasNeedlessZero_toDigits (n : Nat) : hasNeedlessZero (Nat.toDigits 10 n) = false := by
  by_cases h : n = 0
  · subst h
    rfl
  · have hhead := head?_toDigits h
    rw [hasNeedlessZero.eq_def]
    split
    · rename_i heq
      simp [heq] at hhead
    · rfl

theorem isDigit_of_mem_toDigits (h : c ∈ Nat.toDigits 10 n) : c.isDigit = true :=
  Nat.isDigit_of_mem_toDigits (by decide) (by decide) h

theorem digitsOf?_toDigits (n : Nat) : digitsOf? (Nat.toDigits 10 n) = some n := by
  have hdigits : ∀ c ∈ Nat.toDigits 10 n, c.isDigit = true := fun c => isDigit_of_mem_toDigits
  rw [digitsOf?.eq_def]
  -- No letter tells another base.
  split
  case h_4 => rw [hasNeedlessZero_toDigits, if_neg (by simp), Decimal.digits?_toDigits]
  all_goals
    rename_i heq
    rw [heq] at hdigits
    simp [Char.isDigit] at hdigits

theorem natOf?_repr (n : Nat) : natOf? (Nat.repr n) = some n := by
  have hdigits : ∀ c ∈ Nat.toDigits 10 n, c.isDigit = true := fun c => isDigit_of_mem_toDigits
  rw [natOf?, Nat.toList_repr]
  split
  · rename_i heq
    rw [heq] at hdigits
    simp [Char.isDigit] at hdigits
  · exact digitsOf?_toDigits n

@[simp] theorem uint32?_repr (x : UInt32) :
    uint32? (.scalar (Nat.repr x.toNat) true) = some x := by
  rw [uint32?, nat?, plain?, Option.bind_some, natOf?_repr, Option.filter_some,
    if_pos (by simpa using x.toNat_lt), Option.map_some, UInt32.ofNat_toNat]

@[simp] theorem uint64?_repr (x : UInt64) :
    uint64? (.scalar (Nat.repr x.toNat) true) = some x := by
  rw [uint64?, nat?, plain?, Option.bind_some, natOf?_repr, Option.filter_some,
    if_pos (by simpa using x.toNat_lt), Option.map_some, UInt64.ofNat_toNat]

@[simp] theorem bool?_toString (b : Bool) : bool? (.scalar (toString b) true) = some b := by
  cases b <;> rfl

end Yaml.Node

end NetworkLoading
