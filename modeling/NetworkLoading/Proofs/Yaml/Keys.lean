import NetworkLoading.Proofs.Yaml.Texts

/-!
# Keys

Words, and texts which are short and have no line breaks, are read back as keys if they stand in
front of a colon.
-/

namespace NetworkLoading.Yaml

variable {cs w rest : List Char} {c : Char} {p : Position} {s : String} {node : Node} {indent : Nat}

/-! ## Words -/

/-- A letter, a digit, a point, a low line or a hyphen. -/
def isWordChar (c : Char) : Bool :=
  c.isAlphanum || c = '.' || c = '_' || c = '-'

/-- Whether a text can be written as it is because it consists of letters and digits, mostly. -/
def isWord (s : String) : Bool :=
  s ≠ "" && s ≠ "-" && s.toList.all isWordChar

theorem isVisible_of_isWordChar (h : isWordChar c = true) : isVisible c = true := by
  simp only [isWordChar, Bool.or_eq_true, decide_eq_true_iff] at h
  rcases h with ((h | rfl) | rfl) | rfl
  · delta Char.isAlphanum Char.isAlpha Char.isUpper Char.isLower Char.isDigit at h
    simp only [Bool.or_eq_true, Bool.and_eq_true, decide_eq_true_iff, ge_iff_le,
      UInt32.le_iff_toNat_le] at h
    have hnat : c.toNat = c.val.toNat := rfl
    have hZ : 'Z'.val.toNat = 90 := rfl
    have hz : 'z'.val.toNat = 122 := rfl
    have hnine : '9'.val.toNat = 57 := rfl
    have hzero : '0'.val.toNat = 48 := rfl
    have hA : 'A'.val.toNat = 65 := rfl
    have ha : 'a'.val.toNat = 97 := rfl
    simp only [isVisible, Bool.and_eq_true, decide_eq_true_iff]
    omega
  all_goals rfl

theorem ne_of_isWordChar {x : Char} (h : isWordChar c = true) (hx : isWordChar x = false) :
    c ≠ x := by
  rintro rfl
  rw [h] at hx
  cases hx

theorem isWhite_of_isWordChar (h : isWordChar c = true) : isWhite c = false := by
  simp [isWhite, ne_of_isWordChar (x := ' ') h rfl, ne_of_isWordChar (x := '\t') h rfl]

theorem isBreak_of_isWordChar (h : isWordChar c = true) : isBreak c = false :=
  not_isBreak_of_isVisible (isVisible_of_isWordChar h)

theorem goesOn_of_isWordChar (h : cs.all isWordChar = true) : goesOn false cs = true := by
  induction cs with
  | nil => rfl
  | cons c cs ih =>
    rw [List.all_cons, Bool.and_eq_true] at h
    rw [goesOn, if_neg (ne_of_isWordChar h.1 rfl)]
    simp [isBreak_of_isWordChar h.1, ne_of_isWordChar (x := '\t') h.1 rfl,
      ne_of_isWordChar (x := ':') h.1 rfl, ih h.2]

theorem isPlain_of_isWord (h : isWord s = true) : IsPlain s.toList := by
  simp only [isWord, Bool.and_eq_true, decide_eq_true_iff] at h
  obtain ⟨⟨hne, hhyphen⟩, hchars⟩ := h
  refine ⟨?_, goesOn_of_isWordChar hchars⟩
  obtain ⟨c, cs, he⟩ := List.exists_cons_of_ne_nil fun he => hne (String.toList_eq_nil_iff.1 he)
  rw [he] at hchars ⊢
  rw [List.all_cons, Bool.and_eq_true] at hchars
  rw [plainStarts,
    if_neg (by simp [isWhite_of_isWordChar hchars.1, isBreak_of_isWordChar hchars.1])]
  by_cases hc : c = '-'
  · -- Something follows a hyphen.
    subst hc
    cases cs with
    | nil => exact absurd (String.toList_inj.1 (he.trans (by rfl))) hhyphen
    | cons x cs =>
      rw [List.all_cons, Bool.and_eq_true] at hchars
      simp [wordEnds, isWhite_of_isWordChar hchars.2.1, isBreak_of_isWordChar hchars.2.1]
  · rw [if_neg hc, if_neg]
    · rw [Bool.not_eq_true', ← Bool.not_eq_true, List.contains_iff_mem]
      intro hmem
      -- None of the indicators is a character of a word.
      have hnone : ",[]\x7b\x7d#&*!|>'\"%@\x60".toList.all (!isWordChar ·) = true := rfl
      have hnot := List.all_eq_true.1 hnone c hmem
      rw [hchars.1] at hnot
      cases hnot
    · simp [ne_of_isWordChar (x := '?') hchars.1 rfl, ne_of_isWordChar (x := ':') hchars.1 rfl]

theorem written_of_isWord (h : isWord s = true) : Written s.toList (.scalar s true) := by
  have hprintable : s.toList.all isPrintable = true := by
    simp only [isWord, Bool.and_eq_true] at h
    exact List.all_eq_true.2 fun c hc =>
      isPrintable_of_isVisible (isVisible_of_isWordChar (List.all_eq_true.1 h.2 c hc))
  simpa using written_plain (isPlain_of_isWord h) hprintable

/-! ## Keys -/

/-- A short scalar without line breaks is read back as a key. -/
structure KeyText (w : List Char) (node : Node) : Prop extends Written w node where
  unbroken : ∀ c ∈ w, isBreak c = false
  short : String.utf8Len w ≤ keyLimit

theorem utf8Len_of_isVisible (h : ∀ c ∈ cs, isVisible c = true) :
    String.utf8Len cs = cs.length := by
  induction cs with
  | nil => rfl
  | cons c cs ih =>
    obtain ⟨hc, hcs⟩ := List.forall_mem_cons.1 h
    rw [String.utf8Len_cons, ih hcs, utf8Size_of_isVisible hc, List.length_cons]

theorem keyText_of_isWord (h : isWord s = true) (hshort : s.toList.length ≤ keyLimit) :
    KeyText s.toList (.scalar s true) := by
  have hvisible : ∀ c ∈ s.toList, isVisible c = true := by
    simp only [isWord, Bool.and_eq_true] at h
    exact fun c hc => isVisible_of_isWordChar (List.all_eq_true.1 h.2 c hc)
  exact ⟨written_of_isWord h, fun c hc => not_isBreak_of_isVisible (hvisible c hc),
    (utf8Len_of_isVisible hvisible).trans_le hshort⟩

/-- If what is written for each character has no line break and is no more than four times as long,
the same holds for the text. -/
theorem utf8Len_flatMap {f : Char → List Char}
    (h : ∀ c ∈ cs, (∀ x ∈ f c, isBreak x = false) ∧ String.utf8Len (f c) ≤ 4 * c.utf8Size) :
    (∀ x ∈ cs.flatMap f, isBreak x = false) ∧
      String.utf8Len (cs.flatMap f) ≤ 4 * String.utf8Len cs := by
  induction cs with
  | nil => simp
  | cons c cs ih =>
    obtain ⟨⟨hc, hsize⟩, hcs⟩ := List.forall_mem_cons.1 h
    obtain ⟨hrest, hsizes⟩ := ih hcs
    refine ⟨fun x hx => ?_, ?_⟩
    · rw [List.flatMap_cons] at hx
      exact (List.mem_append.1 hx).elim (hc x) (hrest x)
    · rw [List.flatMap_cons, String.utf8Len_append, String.utf8Len_cons]
      omega

theorem printSingle_eq (h : ∀ c ∈ cs, isBreak c = false) :
    printSingle indent false cs = cs.flatMap fun c => if c = '\'' then ['\'', '\''] else [c] := by
  induction cs with
  | nil => rfl
  | cons c cs ih =>
    obtain ⟨hc, hcs⟩ := List.forall_mem_cons.1 h
    rw [printSingle, if_neg (by simp [hc]), if_neg (by decide), List.nil_append, ih hcs,
      List.flatMap_cons]

theorem utf8Len_printDouble (c : Char) :
    (∀ x ∈ printDouble c, isBreak x = false) ∧ String.utf8Len (printDouble c) ≤ 4 * c.utf8Size := by
  rcases printDouble_cases c with hc | ⟨hc, hbreak, -⟩
  · obtain ⟨code, hprint, hcode, hlength⟩ := exists_escape c
    have hvisible : ∀ x ∈ '\\' :: code, isVisible x = true :=
      List.forall_mem_cons.2 ⟨rfl, hcode.visible⟩
    rw [hc, hprint]
    exact ⟨fun x hx => not_isBreak_of_isVisible (hvisible x hx),
      (utf8Len_of_isVisible hvisible).trans_le hlength⟩
  · rw [hc]
    refine ⟨by simpa using hbreak, ?_⟩
    simp
    omega

/-- A text which is written character by character between quotes stays in its line and does not
become much longer. -/
theorem utf8Len_quoted {q : Char} {f : Char → List Char} (hq : isVisible q = true)
    (h : ∀ c ∈ s.toList, (∀ x ∈ f c, isBreak x = false) ∧
      String.utf8Len (f c) ≤ 4 * c.utf8Size) :
    (∀ c ∈ q :: s.toList.flatMap f ++ [q], isBreak c = false) ∧
      String.utf8Len (q :: s.toList.flatMap f ++ [q]) ≤ 4 * s.utf8ByteSize + 2 := by
  obtain ⟨hflat, hsize⟩ := utf8Len_flatMap h
  refine ⟨fun c hc => ?_, ?_⟩
  · rcases List.mem_append.1 hc with hc | hc
    · rcases List.mem_cons.1 hc with rfl | hc
      · exact not_isBreak_of_isVisible hq
      · exact hflat c hc
    · rw [List.mem_singleton.1 hc]
      exact not_isBreak_of_isVisible hq
  · rw [String.utf8Len_toList] at hsize
    simp only [List.cons_append, String.utf8Len_cons, String.utf8Len_append, String.utf8Len_nil,
      utf8Size_of_isVisible hq]
    omega

/-- A text without line breaks is written without line breaks, and not much longer. -/
theorem utf8Len_inLine (hbreak : ∀ c ∈ s.toList, isBreak c = false) :
    (∀ c ∈ inLine indent s, isBreak c = false) ∧
      String.utf8Len (inLine indent s) ≤ 4 * s.utf8ByteSize + 2 := by
  rw [inLine]
  cases Style.of s with
  | plain =>
    refine ⟨hbreak, ?_⟩
    rw [String.utf8Len_toList]
    omega
  -- In single quotes only the quote itself grows, to two characters of one byte each.
  | single =>
    rw [printSingle_eq hbreak]
    refine utf8Len_quoted rfl fun c hc => ?_
    have hpos := c.utf8Size_pos
    split
    · rename_i hc
      subst hc
      have hquote : isBreak '\'' = false := rfl
      exact ⟨by simpa using hquote, by decide⟩
    · exact ⟨by simpa using hbreak c hc, by simp; omega⟩
  | double | literal => exact utf8Len_quoted rfl fun c _ => utf8Len_printDouble c

/-- A text which is not marked as a key can be one. -/
theorem keyText_inLine (hindent : 0 < indent) (hends : s.toList.any isLineEnd = false)
    (hshort : s.utf8ByteSize ≤ plainKeyLimit) : KeyText (inLine indent s) (.ofText s) := by
  have hbreak : ∀ c ∈ s.toList, isBreak c = false := by
    intro c hc
    have hend := List.any_eq_false.1 hends c hc
    rw [Bool.not_eq_true, isLineEnd, Bool.or_eq_false_iff, Bool.or_eq_false_iff] at hend
    exact hend.1.1
  obtain ⟨hunbroken, hsize⟩ := @utf8Len_inLine s indent hbreak
  refine ⟨written_inLine s hindent, hunbroken, ?_⟩
  simp only [plainKeyLimit, keyLimit] at hshort ⊢
  omega

/-- What is written for such a key. -/
theorem printText_dropLast (hends : s.toList.any isLineEnd = false) :
    (printText indent s).dropLast = inLine indent s := by
  rw [printText_eq_inLine, List.dropLast_concat]
  intro hliteral
  exact absurd (List.any_eq_false.1 hends _ (mem_feed_of_style hliteral)) (by decide)

end NetworkLoading.Yaml
