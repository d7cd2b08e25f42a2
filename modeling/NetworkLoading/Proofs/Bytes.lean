import Mathlib.Data.String.Basic

/-!
# Texts compare like their bytes

Texts are compared character by character. As greater characters have greater encodings, and none
is the beginning of another one, this is the same as comparing them byte by byte.
-/

namespace NetworkLoading

/-- Below a bound, what is written for a greater number is greater, whatever follows. -/
def Grows (bound : Nat) (write : Nat → List UInt8) : Prop :=
  ∀ m n, m < n → n < bound → ∀ xs ys, write m ++ xs < write n ++ ys

theorem cons_lt_cons_of_lt {m n : Nat} (h : m < n) (hn : n < 256) (xs ys : List UInt8) :
    UInt8.ofNat m :: xs < UInt8.ofNat n :: ys := by
  refine List.cons_lt_cons_iff.2 (.inl ?_)
  rw [UInt8.lt_iff_toNat_lt, UInt8.toNat_ofNat', UInt8.toNat_ofNat']
  omega

/-- The first byte of an encoding. -/
theorem grows_lead {bound base : Nat} (h : bound + base ≤ 256) :
    Grows bound fun v => [.ofNat (v % bound + base)] := by
  intro m n hlt hn xs ys
  dsimp only
  rw [Nat.mod_eq_of_lt hn, Nat.mod_eq_of_lt (Nat.lt_trans hlt hn)]
  exact cons_lt_cons_of_lt (by omega) (by omega) xs ys

/-- Six more bits are in a byte of their own. -/
theorem Grows.trail {bound : Nat} {lead : Nat → List UInt8} (h : Grows bound lead) :
    Grows (64 * bound) fun v => lead (v / 64) ++ [.ofNat (v % 64 + 128)] := by
  intro m n hlt hn xs ys
  simp only [List.append_assoc, List.cons_append, List.nil_append]
  rcases Nat.lt_or_ge (m / 64) (n / 64) with hdiv | hdiv
  · exact h _ _ hdiv (by omega) _ _
  · have he : m / 64 = n / 64 := by omega
    rw [he]
    exact List.append_left_lt (cons_lt_cons_of_lt (by omega) (by omega) xs ys)

theorem utf8EncodeChar_append_lt {c d : Char} (h : c < d) (xs ys : List UInt8) :
    String.utf8EncodeChar c ++ xs < String.utf8EncodeChar d ++ ys := by
  have hlt : c.val.toNat < d.val.toNat := UInt32.lt_iff_toNat_lt.1 h
  have hmax : d.val.toNat < 1114112 := by
    rcases d.valid with hsmall | ⟨-, hlarge⟩
    · exact Nat.lt_trans hsmall (by decide)
    · exact hlarge
  have htwo := (grows_lead (show 32 + 192 ≤ 256 by decide)).trail
  have hthree := (grows_lead (show 16 + 224 ≤ 256 by decide)).trail.trail
  have hfour := (grows_lead (show 8 + 240 ≤ 256 by decide)).trail.trail.trail
  simp only [Nat.div_div_eq_div_mul, List.cons_append, List.nil_append] at htwo hthree hfour
  unfold String.utf8EncodeChar
  dsimp only
  generalize c.val.toNat = m at hlt
  generalize d.val.toNat = n at hlt hmax
  -- The greater character has at least as many bytes. If it has more, the first one decides.
  by_cases hone : n ≤ 127
  · rw [if_pos hone, if_pos (by omega)]
    exact cons_lt_cons_of_lt hlt (by omega) _ _
  by_cases htwo' : n ≤ 2047
  · rw [if_neg hone, if_pos htwo']
    split
    · exact cons_lt_cons_of_lt (by omega) (by omega) _ _
    · rw [if_pos (by omega)]
      exact htwo m n hlt (by omega) xs ys
  by_cases hthree' : n ≤ 65535
  · rw [if_neg hone, if_neg htwo', if_pos hthree']
    split
    · exact cons_lt_cons_of_lt (by omega) (by omega) _ _
    · split
      · exact cons_lt_cons_of_lt (by omega) (by omega) _ _
      · rw [if_pos (by omega)]
        exact hthree m n hlt (by omega) xs ys
  · rw [if_neg hone, if_neg htwo', if_neg hthree']
    split
    · exact cons_lt_cons_of_lt (by omega) (by omega) _ _
    · split
      · exact cons_lt_cons_of_lt (by omega) (by omega) _ _
      · split
        · exact cons_lt_cons_of_lt (by omega) (by omega) _ _
        · exact hfour m n hlt (by omega) xs ys

theorem flatMap_utf8EncodeChar_lt {xs ys : List Char} (h : xs < ys) :
    xs.flatMap String.utf8EncodeChar < ys.flatMap String.utf8EncodeChar := by
  induction h with
  | @nil c rest =>
    rw [List.flatMap_nil, List.flatMap_cons]
    cases hc : String.utf8EncodeChar c with
    | nil => exact absurd hc String.utf8EncodeChar_ne_nil
    | cons => exact List.nil_lt_cons _ _
  | rel hlt => exact utf8EncodeChar_append_lt hlt _ _
  | cons _ ih =>
    rw [List.flatMap_cons, List.flatMap_cons]
    exact List.append_left_lt ih

/-- The bytes of a text. -/
def bytes (text : String) : List UInt8 :=
  text.toUTF8.data.toList

theorem bytes_eq (text : String) : bytes text = text.toList.flatMap String.utf8EncodeChar := by
  rw [bytes, String.toUTF8, ← String.utf8Encode_toList, List.utf8Encode,
    List.toList_data_toByteArray]

theorem bytes_lt_bytes {a b : String} : bytes a < bytes b ↔ a < b := by
  have hmono {a b : String} (h : a < b) : bytes a < bytes b := by
    rw [bytes_eq, bytes_eq]
    exact flatMap_utf8EncodeChar_lt (String.lt_iff_toList_lt.1 h)
  refine ⟨fun h => ?_, hmono⟩
  rcases lt_trichotomy a b with hlt | rfl | hgt
  · exact hlt
  · exact absurd h (List.lt_irrefl _)
  · exact absurd h (List.lt_asymm (hmono hgt))

end NetworkLoading
