import NetworkLoading.Proofs.Yaml.Keys

/-!
# Printed characters

Everything that is printed may stand in a document, and no end of a line is replaced when the
document is read.
-/

namespace NetworkLoading.Yaml

variable {cs : List Char} {c : Char} {s : String} {n indent : Nat}

/-! ## Printable characters -/

theorem isAllowed_of_isPrintable (h : isPrintable c = true) : isAllowed c = true := by
  simp only [isPrintable, isAllowed, Bool.or_eq_true, Bool.and_eq_true, decide_eq_true_iff] at h ⊢
  omega

theorem unifyBreaks_of_isPrintable (h : cs.all isPrintable = true) : unifyBreaks cs = cs := by
  induction cs with
  | nil => rfl
  | cons c cs ih =>
    rw [List.all_cons, Bool.and_eq_true] at h
    have hreturn : c ≠ '\r' := by
      rintro rfl
      cases h.1
    have hnext : c ≠ '\u0085' := by
      rintro rfl
      cases h.1
    rw [unifyBreaks, if_neg (by simp [hreturn, hnext]), ih h.2]
    exact fun _ he => absurd he hreturn

theorem printable_of_isVisible (h : ∀ c ∈ cs, isVisible c = true) : cs.all isPrintable = true :=
  List.all_eq_true.2 fun c hc => isPrintable_of_isVisible (h c hc)

theorem printable_of_isWord (h : isWord s = true) : s.toList.all isPrintable = true := by
  rw [isWord, Bool.and_eq_true] at h
  exact printable_of_isVisible fun c hc => isVisible_of_isWordChar (List.all_eq_true.1 h.2 c hc)

@[simp] theorem printable_spaces (n : Nat) : (spaces n).all isPrintable = true :=
  printable_of_isVisible fun c hc => by
    rw [List.eq_of_mem_replicate hc]
    rfl

/-! ## Texts -/

theorem printable_printSingle (h : cs.all isPrintable = true) (broken : Bool) :
    (printSingle indent broken cs).all isPrintable = true := by
  induction cs generalizing broken with
  | nil => cases broken <;> simp [printSingle]
  | cons c cs ih =>
    rw [List.all_cons, Bool.and_eq_true] at h
    have hquote : isPrintable '\'' = true := rfl
    have hword : (if c = '\'' then ['\'', '\''] else [c]).all isPrintable = true := by
      split <;> simp [h.1, hquote]
    rw [printSingle]
    split
    · simp [h.1, ih h.2]
    · rw [List.all_append, List.all_append, hword, ih h.2]
      cases broken <;> simp

theorem printable_printLines (h : cs.all isPrintable = true) (broken : Bool) :
    (printLines indent broken cs).all isPrintable = true := by
  induction cs generalizing broken with
  | nil => cases broken <;> rfl
  | cons c cs ih =>
    rw [List.all_cons, Bool.and_eq_true] at h
    rw [printLines]
    split
    · simp [h.1, ih h.2]
    · cases broken <;> simp [h.1, ih h.2]

theorem printable_printDouble (c : Char) : (printDouble c).all isPrintable = true := by
  rw [printDouble]
  split
  · obtain ⟨code, hprint, hcode, -⟩ := exists_escape c
    rw [hprint]
    exact printable_of_isVisible (List.forall_mem_cons.2 ⟨rfl, hcode.visible⟩)
  · rename_i h
    simp only [Bool.or_eq_true, not_or, Bool.not_eq_true, Bool.not_eq_false'] at h
    simp [h.1.1.1]

theorem printable_printHeader (cs : List Char) : (printHeader cs).all isPrintable = true := by
  rw [printHeader]
  cases cs.reverse with
  | nil => split <;> rfl
  | cons last before =>
    dsimp only
    split <;> split <;> first | rfl | (split <;> rfl)

theorem printable_inLine (s : String) : (inLine indent s).all isPrintable = true := by
  have hquotes : isPrintable '\'' = true ∧ isPrintable '"' = true := ⟨rfl, rfl⟩
  have hdouble : (s.toList.flatMap printDouble).all isPrintable = true := by
    simp [List.all_flatMap, printable_printDouble]
  rw [inLine]
  cases h : Style.of s with
  | plain => exact all_isPrintable_of_style (by simp [h])
  | single =>
    have hprintable := all_isPrintable_of_style (s := s) (by simp [h])
    simp [hquotes, printable_printSingle hprintable]
  | double | literal => simp [hquotes, hdouble]

theorem printable_printText (s : String) : (printText indent s).all isPrintable = true := by
  have hfeed : isPrintable '\n' = true ∧ isPrintable '|' = true := ⟨rfl, rfl⟩
  by_cases h : Style.of s = .literal
  · have hprintable := all_isPrintable_of_style (s := s) (by simp [h])
    rw [printText_literal h]
    simp [hfeed, printable_printHeader, printable_printLines hprintable]
  · rw [printText_eq_inLine h]
    simp [hfeed, printable_inLine]

theorem printable_printKey (s : String) : (printKey indent s).all isPrintable = true := by
  have hmarks : isPrintable '?' = true ∧ isPrintable ':' = true ∧ isPrintable ' ' = true :=
    ⟨rfl, rfl, rfl⟩
  rw [printKey]
  split
  · simp [hmarks, printable_printText]
  · rename_i h
    rw [Bool.or_eq_true, not_or, Bool.not_eq_true] at h
    rw [printText_dropLast h.1]
    simp [hmarks, printable_inLine]

end NetworkLoading.Yaml
