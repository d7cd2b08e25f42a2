import NetworkLoading.Proofs.Yaml.Block
import NetworkLoading.Proofs.Yaml.Style
import NetworkLoading.Yaml.Document

/-!
# Texts are read back

However a text is written, it is read back, at the end of a line and, if it is written in one line,
in front of the colon of a key.
-/

namespace NetworkLoading.Yaml

variable {cs w rest tail : List Char} {c : Char} {p : Position} {s : String} {node : Node}
  {d least indent level : Nat} {keys : Bool}

/-- What is read where a text is written. -/
def Node.ofText (s : String) : Node :=
  .scalar s (Style.of s = .plain)

/-! ## Readers -/

/-- A reader yields something, and the next thing stands at a cursor. -/
def Yields {α : Type} (result : Option (α × Cursor)) (a : α) (next : Cursor) : Prop :=
  ∃ after, result = some (a, after) ∧ after.gap = next

theorem Yields.map {α β : Type} {result : Option (α × Cursor)} {a : α} {next : Cursor}
    (h : Yields result a next) (f : α → β) :
    Yields (result.map fun r => (f r.1, r.2)) (f a) next := by
  obtain ⟨after, rfl, hgap⟩ := h
  exact ⟨after, rfl, hgap⟩

/-! ## Beginnings -/

/-- A scalar begins with this text, and nothing else. -/
def BeginsScalar : List Char → Prop
  | [] => False
  | c :: cs => isToken c = true ∧ c ≠ '[' ∧ c ≠ '\x7b' ∧ (c = '-' ∨ c = '?' → wordEnds cs = false)

theorem beginsScalar_cons (hc : isToken c = true) (hne : c ∉ ['[', '\x7b', '-', '?'])
    (cs : List Char) : BeginsScalar (c :: cs) := by
  simp only [List.mem_cons, List.not_mem_nil, or_false, not_or] at hne
  exact ⟨hc, hne.1, hne.2.1, fun h => (h.elim hne.2.2.1 hne.2.2.2).elim⟩

namespace BeginsScalar

theorem ne_nil (h : BeginsScalar cs) : cs ≠ [] := by
  rintro rfl
  exact h

theorem append (h : BeginsScalar cs) (rest : List Char) : BeginsScalar (cs ++ rest) := by
  cases cs with
  | nil => exact h.elim
  | cons c cs => exact ⟨h.1, h.2.1, h.2.2.1, fun hc => wordEnds_append (h.2.2.2 hc) rest⟩

theorem head?_any (h : BeginsScalar cs) : cs.head?.any isToken = true := by
  cases cs with
  | nil => exact h.elim
  | cons c cs => exact h.1

theorem opens (h : BeginsScalar cs) : Opens cs :=
  opens_of_head?_any h.head?_any

theorem atIndicator {ch : Char} (h : BeginsScalar rest) (hch : ch = '-' ∨ ch = '?') :
    Cursor.atIndicator ⟨rest, p, keys, level⟩ ch = false := by
  cases rest with
  | nil => rfl
  | cons c cs =>
    by_cases hc : c = ch
    · simp [Cursor.atIndicator, h.2.2.2 (hc ▸ hch)]
    · simp [Cursor.atIndicator, hc]

/-- Where a scalar begins, it is read. -/
theorem readInline_eq (h : BeginsScalar rest) (hp : p.column ≠ 0 ∨ isDivider rest = false)
    (least budget : Nat) :
    readInline least ⟨rest, p, keys, level⟩ (budget + 1) =
      readScalar least ⟨rest, p, keys, level⟩ := by
  cases rest with
  | nil => exact h.elim
  | cons c cs =>
    have hended : Cursor.ended ⟨c :: cs, p, keys, level⟩ = false := by
      rcases hp with hp | hp <;> simp [Cursor.ended, Cursor.column, hp]
    simp [readInline, hended, Cursor.startsWith, h.2.1, h.2.2.1]

end BeginsScalar

/-- A scalar which takes up its lines is read back, whatever follows that is not indented enough. -/
structure ReadsScalar (least : Nat) (text : List Char) (node : Node) : Prop where
  begins : BeginsScalar text
  ends : EndsLine text
  reads {p : Position} {keys : Bool} {d : Nat} {tail : List Char} (hd : d < least)
    (ht : Opens tail) :
    Yields (readScalar least ⟨text ++ (spaces d ++ tail), p, keys, 0⟩) node
      (.fresh (p.behind (text ++ spaces d)) tail)

/-! ## Scalars of one line -/

/-- A scalar which is written in one line is read back, in front of the colon of a key and at the
end of the line. -/
structure Written (w : List Char) (node : Node) : Prop where
  begins : BeginsScalar w
  atColon {least : Nat} {p : Position} {keys : Bool} {rest : List Char}
    (hrest : wordEnds rest = true) :
    readScalar least ⟨w ++ ':' :: rest, p, keys, 0⟩ =
      some (node, ⟨':' :: rest, p.behind w, false, 0⟩)
  atLine {least d : Nat} {p : Position} {keys : Bool} {tail : List Char} (hd : d < least)
    (ht : Opens tail) :
    Yields (readScalar least ⟨w ++ '\n' :: (spaces d ++ tail), p, keys, 0⟩) node
      (.fresh (p.behind (w ++ '\n' :: spaces d)) tail)

theorem Written.readsScalar (h : Written w node) (least : Nat) :
    ReadsScalar least (w ++ ['\n']) node where
  begins := h.begins.append _
  ends := endsLine_break.append w
  reads {p keys d tail} hd ht := by simpa using @Written.atLine _ _ h _ d p keys tail hd ht

/-- What cannot begin a plain scalar does not. -/
theorem ne_of_plainStarts (h : plainStarts false (c :: cs) = true) :
    ∀ x ∈ ",[]\x7b\x7d#&*!|>'\"%@\x60".toList, c ≠ x := by
  rintro x hx rfl
  have hcontains : (",[]\x7b\x7d#&*!|>'\"%@\x60".toList.contains c) = true :=
    List.contains_iff_mem.2 hx
  have hplain : c ≠ '-' ∧ c ≠ '?' ∧ c ≠ ':' := by
    refine ⟨?_, ?_, ?_⟩ <;>
    · rintro rfl
      exact absurd hx (by decide)
  rw [plainStarts] at h
  split at h
  · cases h
  rw [if_neg hplain.1, if_neg (by simp [hplain]), hcontains] at h
  cases h

theorem IsPlain.begins (h : IsPlain cs) (hprintable : cs.all isPrintable = true) :
    BeginsScalar cs := by
  have hstarts := h.starts
  cases cs with
  | nil => cases hstarts
  | cons c cs =>
    have hne := ne_of_plainStarts hstarts
    rw [List.all_cons, Bool.and_eq_true] at hprintable
    rw [plainStarts] at hstarts
    split at hstarts
    · cases hstarts
    rename_i hblank
    rw [Bool.or_eq_true, not_or, Bool.not_eq_true, Bool.not_eq_true] at hblank
    have hspace : c ≠ ' ' := by
      rintro rfl
      cases hblank.1
    refine ⟨isToken_of_isPrintable hprintable.1 hblank.2 hspace (hne _ (by decide)),
      hne _ (by decide), hne _ (by decide), ?_⟩
    rintro (rfl | rfl) <;> simpa using hstarts

/-- A plain scalar is read where nothing else begins. -/
theorem readScalar_plain (h : plainStarts false rest = true) :
    readScalar least ⟨rest, p, keys, 0⟩ =
      (PlainContext.read { inFlow := false, indent := least } p [] {} rest).map fun result =>
        (.scalar (String.ofList result.1) true, { result.2 with level := 0 }) := by
  cases rest with
  | nil => cases h
  | cons c cs =>
    have hne := ne_of_plainStarts h
    have hbar : c ≠ '|' := hne _ (by decide)
    have hangle : c ≠ '>' := hne _ (by decide)
    have hsingle : c ≠ '\'' := hne _ (by decide)
    have hdouble : c ≠ '"' := hne _ (by decide)
    have hflow : Cursor.inFlow ⟨c :: cs, p, keys, 0⟩ = false := rfl
    -- None of the other styles can begin here, so the plain reader is the one asked.
    have hstarts (ch : Char) (hch : c ≠ ch) :
        Cursor.startsWith ⟨c :: cs, p, keys, 0⟩ ch = false := by
      simpa [Cursor.startsWith] using hch
    have hblock : Cursor.atBlock ⟨c :: cs, p, keys, 0⟩ = false := by
      simp [Cursor.atBlock, hstarts _ hbar, hstarts _ hangle]
    rw [readScalar]
    simp only [hblock, hstarts _ hsingle, hstarts _ hdouble, hflow, h]
    simp

theorem readScalar_single :
    readScalar least ⟨'\'' :: rest, p, keys, 0⟩ =
      (readSingle (p.after '\'') [] {} rest).map fun result =>
        (.scalar (String.ofList result.1) false, { result.2 with level := 0 }) := by
  rfl

theorem readScalar_double :
    readScalar least ⟨'"' :: rest, p, keys, 0⟩ =
      (readDouble (p.after '"') [] {} rest).map fun result =>
        (.scalar (String.ofList result.1) false, { result.2 with level := 0 }) := by
  rfl

theorem readScalar_block :
    readScalar least ⟨'|' :: rest, p, keys, 0⟩ =
      (readBlock least ⟨'|' :: rest, p, keys, 0⟩).map fun result =>
        (.scalar (String.ofList result.1) false, { result.2 with level := 0 }) := by
  rfl

theorem written_plain (h : IsPlain cs) (hprintable : cs.all isPrintable = true) :
    Written cs (.scalar (String.ofList cs) true) := by
  have hread {least : Nat} {p : Position} {keys : Bool} (rest : List Char) :
      readScalar least ⟨cs ++ rest, p, keys, 0⟩ =
        (PlainContext.read { inFlow := false, indent := least } (p.behind cs) cs.reverse {}
          rest).map
          fun result => (.scalar (String.ofList result.1) true, { result.2 with level := 0 }) := by
    have happend := PlainContext.read_append { inFlow := false, indent := least } (p := p) (n := 0)
      rfl h.goesOn (.inl rfl) [] rest
    rw [readScalar_plain (plainStarts_append h.starts rest)]
    simpa [spaces] using congrArg (Option.map _) happend
  refine ⟨h.begins hprintable, fun hrest => ?_, fun hd ht => ⟨_, ?_, gap_fresh ht⟩⟩
  · rw [hread, PlainContext.read_colon hrest rfl]
    simp
  · rw [hread, PlainContext.read_line ht hd rfl]
    simp [Cursor.fresh]

/-- A scalar in quotes is read up to the quote at its end, whatever follows, if this is no quote
again. -/
theorem written_of_quoted (hbegins : BeginsScalar w)
    (h : ∀ {least : Nat} {p : Position} {keys : Bool} {rest : List Char}, rest.head? ≠ some '\'' →
      readScalar least ⟨w ++ rest, p, keys, 0⟩ = some (node, ⟨rest, p.behind w, false, 0⟩)) :
    Written w node where
  begins := hbegins
  atColon _ := h (by simp)
  atLine {_ d p _ _} _ ht := ⟨_, h (by simp), by simpa using gap_line ht (p.behind w) false d⟩

theorem written_single (hindent : 0 < indent) (h : IsSingle cs) :
    Written ('\'' :: printSingle indent false cs ++ ['\'']) (.scalar (String.ofList cs) false) := by
  refine written_of_quoted (beginsScalar_cons rfl (by decide) _) fun {least p keys rest} hrest => ?_
  have hread := readSingle_printSingle (p := p.after '\'') (s := {}) hindent hrest h
    (Space.joins_empty cs) (fun _ => by simp [Position.after, isBreak]) []
  have hlist : '\'' :: printSingle indent false cs ++ ['\''] ++ rest =
      '\'' :: (printSingle indent false cs ++ '\'' :: rest) := by simp
  rw [hlist, readScalar_single, hread]
  simp [Space.before, Space.text]

theorem written_double (cs : List Char) :
    Written ('"' :: cs.flatMap printDouble ++ ['"']) (.scalar (String.ofList cs) false) := by
  refine written_of_quoted (beginsScalar_cons rfl (by decide) _) fun {least p keys rest} _ => ?_
  have hread := readDouble_printDouble (p := p.after '"') (n := 0) cs rest
    (by simp [Position.after, isBreak]) []
  have hlist : '"' :: cs.flatMap printDouble ++ ['"'] ++ rest =
      '"' :: (cs.flatMap printDouble ++ '"' :: rest) := by simp
  rw [hlist, readScalar_double]
  simp only [spaces, List.replicate_zero] at hread
  rw [hread]
  simp

/-! ## Texts -/

/-- A text as it is written in one line. -/
def inLine (indent : Nat) (s : String) : List Char :=
  match Style.of s with
  | .plain => s.toList
  | .single => '\'' :: printSingle indent false s.toList ++ ['\'']
  | .double | .literal => '"' :: s.toList.flatMap printDouble ++ ['"']

theorem written_inLine (s : String) (hindent : 0 < indent) :
    Written (inLine indent s) (.ofText s) := by
  rw [inLine, Node.ofText]
  cases hstyle : Style.of s with
  | plain =>
    have hprintable := all_isPrintable_of_style (s := s) (by simp [hstyle])
    simpa using written_plain (isPlain_of_style hstyle) hprintable
  | single => simpa using written_single hindent (isSingle_of_style hstyle)
  | double | literal => simpa using written_double s.toList

theorem printText_eq_inLine (h : Style.of s ≠ .literal) :
    printText indent s = inLine indent s ++ ['\n'] := by
  rw [printText, inLine]
  cases hstyle : Style.of s with
  | plain => rfl
  | single | double => simp
  | literal => exact absurd hstyle h

theorem printText_literal (h : Style.of s = .literal) :
    printText indent s =
      '|' :: printHeader s.toList ++ '\n' :: printLines indent true s.toList := by
  rw [printText, h]

/-- However a text is written, it is read back if it is indented enough. -/
theorem readsScalar_printText (s : String) (hleast : 0 < least) :
    ReadsScalar least (printText (least + 1) s) (.ofText s) := by
  by_cases h : Style.of s = .literal
  · have hfeed := mem_feed_of_style h
    have hprintable := all_isPrintable_of_style (s := s) (by simp [h])
    have htab : '\t' ∉ s.toList := fun hmem =>
      ne_tab_of_isPrintable (List.all_eq_true.1 hprintable _ hmem) rfl
    rw [printText_literal h]
    refine ⟨beginsScalar_cons rfl (by decide) _, ?_,
      fun {p keys d tail} hd ht => ⟨_, ?_, gap_fresh ht⟩⟩
    · exact (endsLine_printLines '\n' s.toList).append _
    rw [List.append_assoc, List.cons_append, readScalar_block,
      readBlock_printLines hleast (List.ne_nil_of_mem hfeed) htab (Nat.le_of_lt hd) ht (by simp)]
    simp [Node.ofText, h, Cursor.fresh]
  · rw [printText_eq_inLine h]
    exact (written_inLine s (Nat.succ_pos least)).readsScalar least

end NetworkLoading.Yaml
