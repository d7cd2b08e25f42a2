import NetworkLoading.Proofs.Digits
import NetworkLoading.Proofs.Yaml.Keys

/-!
# Values which are words

Whatever is written for a whole number, a truth value or a float can be written as it is.
-/

namespace NetworkLoading.Yaml

variable {s : String} {c : Char} {n : Nat}

/-! ## Characters of words -/

theorem isWordChar_of_isDigit (h : c.isDigit = true) : isWordChar c = true := by
  simp [isWordChar, Char.isAlphanum, h]

/-- A text of the characters of words is a word, unless it is a hyphen. -/
theorem isWord_of_mem (hchars : s.toList.all isWordChar = true) (hc : c ∈ s.toList)
    (hne : c ≠ '-') : isWord s = true := by
  have hempty : s ≠ "" := by
    rintro rfl
    cases hc
  have hhyphen : s ≠ "-" := by
    rintro rfl
    exact hne (List.mem_singleton.1 hc)
  simp [isWord, hempty, hhyphen, hchars]

/-- A sign in front of a word makes a word. -/
theorem isWord_hyphen_append (h : isWord s = true) : isWord ("-" ++ s) = true := by
  simp only [isWord, Bool.and_eq_true, decide_eq_true_iff] at h
  obtain ⟨⟨hempty, -⟩, hchars⟩ := h
  have hlist : ("-" ++ s).toList = '-' :: s.toList := String.toList_append
  have hhyphen : "-" ++ s ≠ "-" := by
    rw [Ne, ← String.toList_inj, hlist]
    simpa using hempty
  have hchar : isWordChar '-' = true := rfl
  simp [isWord, hhyphen, hlist, hchar, hchars]

/-! ## Whole numbers and truth values -/

theorem all_isWordChar_toDigits (n : Nat) : (Nat.toDigits 10 n).all isWordChar = true :=
  List.all_eq_true.2 fun _ hc => isWordChar_of_isDigit (Node.isDigit_of_mem_toDigits hc)

theorem exists_mem_toDigits (n : Nat) : ∃ c ∈ Nat.toDigits 10 n, c ≠ '-' := by
  obtain ⟨c, cs, he⟩ : ∃ c cs, Nat.toDigits 10 n = c :: cs :=
    List.exists_cons_of_ne_nil (by simp)
  have hdigit : c.isDigit = true := Node.isDigit_of_mem_toDigits (n := n) (by simp [he])
  refine ⟨c, by simp [he], ?_⟩
  rintro rfl
  cases hdigit

theorem isWord_repr (n : Nat) : isWord (Nat.repr n) = true := by
  obtain ⟨c, hc, hne⟩ := exists_mem_toDigits n
  rw [← Nat.toList_repr] at hc
  exact isWord_of_mem (by simpa using all_isWordChar_toDigits n) hc hne

theorem isWord_toString (b : Bool) : isWord (toString b) = true := by
  cases b <;> decide

/-! ## Floats -/

theorem all_isWordChar_replicate (n : Nat) : (List.replicate n '0').all isWordChar = true := by
  have hzero : isWordChar '0' = true := rfl
  simp [hzero]

theorem isWord_positional (d : Decimal.Figure) (pointZero : Bool) :
    isWord (d.positional pointZero) = true := by
  have hdigits := all_isWordChar_toDigits d.digits
  have hzeros (n : Nat) := all_isWordChar_replicate n
  rw [Decimal.Figure.positional]
  simp only [Nat.toList_repr]
  split
  · obtain ⟨c, hc, hne⟩ := exists_mem_toDigits d.digits
    have htail : (if pointZero then ".0" else "").toList.all isWordChar = true := by
      cases pointZero <;> decide
    refine isWord_of_mem ?_ (c := c) (by simp [hc]) hne
    rw [String.toList_append, String.toList_ofList, List.all_append, List.all_append, hdigits,
      hzeros, htail]
    rfl
  · generalize hpadded : List.replicate _ '0' ++ Nat.toDigits 10 d.digits = padded
    have hchars : ∀ c ∈ padded, isWordChar c = true := by
      rw [← List.all_eq_true, ← hpadded, List.all_append, hdigits, hzeros]
      rfl
    refine isWord_of_mem ?_ (c := '.') (by simp) (by decide)
    rw [String.toList_ofList, List.all_append, List.all_cons, Bool.and_eq_true, Bool.and_eq_true]
    exact ⟨List.all_eq_true.2 fun c hc => hchars c (List.mem_of_mem_take hc), rfl,
      List.all_eq_true.2 fun c hc => hchars c (List.mem_of_mem_drop hc)⟩

theorem isWord_scientific (d : Decimal.Figure) : isWord d.scientific = true := by
  have hdigits := all_isWordChar_toDigits d.digits
  rw [Decimal.Figure.scientific]
  simp only [Nat.toList_repr]
  refine isWord_of_mem ?_ (c := 'e') (by simp) (by decide)
  simp only [String.toList_append, List.all_append, Bool.and_eq_true]
  refine ⟨⟨⟨?_, by decide⟩, ?_⟩, by rw [Nat.toList_repr, all_isWordChar_toDigits]⟩
  · split
    · rename_i he
      rw [he, List.all_cons, Bool.and_eq_true] at hdigits
      rw [String.toList_ofList, List.all_cons, List.all_cons, hdigits.1, hdigits.2]
      rfl
    · rwa [Nat.toList_repr]
  · split <;> decide

theorem isWord_magnitude (l : Decimal.Layout) (bits : UInt64) :
    isWord (l.magnitude bits) = true := by
  rw [Decimal.Layout.magnitude]
  dsimp only
  split
  · exact isWord_positional _ _
  · split
    · exact isWord_positional _ _
    · split
      · exact isWord_positional _ _
      · exact isWord_scientific _

/-- A float is a word if this format writes infinity and no number as words. -/
theorem isWord_write {l : Decimal.Layout} (hinfinity : isWord l.infinity = true)
    (hnan : isWord l.nan = true) (x : Float) : isWord (l.write x) = true := by
  rw [Decimal.Layout.write]
  split
  · exact hnan
  · have hunsigned : isWord (if x.isInf then l.infinity else l.magnitude x.toBits) = true := by
      split
      · exact hinfinity
      · exact isWord_magnitude l x.toBits
    dsimp only
    split
    · exact isWord_hyphen_append hunsigned
    · rwa [String.empty_append]

end NetworkLoading.Yaml
