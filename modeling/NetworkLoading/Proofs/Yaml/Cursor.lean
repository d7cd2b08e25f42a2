import Mathlib.Data.String.Basic
import NetworkLoading.Yaml.Cursor
import NetworkLoading.Yaml.Printer

/-!
# Places in a printed text

Where a cursor stands behind a known text, and where the next thing stands behind blanks and line
breaks.
-/

namespace NetworkLoading.Yaml

variable {cs ds rest tail : List Char} {c : Char} {p : Position} {n : Nat}

/-! ## Positions -/

namespace Position

/-- The position behind a text. -/
def behind (p : Position) (cs : List Char) : Position :=
  cs.foldl after p

@[simp] theorem behind_nil (p : Position) : p.behind [] = p := rfl

@[simp] theorem behind_cons (p : Position) (c : Char) (cs : List Char) :
    p.behind (c :: cs) = (p.after c).behind cs := rfl

@[simp] theorem behind_append (p : Position) (cs ds : List Char) :
    p.behind (cs ++ ds) = (p.behind cs).behind ds :=
  List.foldl_append

theorem column_after (p : Position) (h : isBreak c = false) :
    (p.after c).column = p.column + 1 := by
  simp [after, h]

theorem column_after_break (p : Position) (h : isBreak c = true) : (p.after c).column = 0 := by
  simp [after, h]

theorem column_behind (p : Position) (h : ∀ c ∈ cs, isBreak c = false) :
    (p.behind cs).column = p.column + cs.length := by
  induction cs generalizing p with
  | nil => rfl
  | cons c cs ih =>
    rw [List.forall_mem_cons] at h
    rw [behind_cons, ih _ h.2, column_after p h.1, List.length_cons]
    omega

theorem line_behind (p : Position) (cs : List Char) :
    (p.behind cs).line = p.line + cs.countP isBreak := by
  induction cs generalizing p with
  | nil => rfl
  | cons c cs ih =>
    rw [behind_cons, ih, List.countP_cons, after]
    split <;> simp only <;> omega

theorem offset_behind (p : Position) (cs : List Char) :
    (p.behind cs).offset = p.offset + String.utf8Len cs := by
  induction cs generalizing p with
  | nil => rfl
  | cons c cs ih =>
    have hafter : (p.after c).offset = p.offset + c.utf8Size := by
      rw [after]
      split <;> rfl
    rw [behind_cons, ih, hafter, String.utf8Len_cons]
    omega

theorem line_lt_behind (p : Position) (h : ∃ c ∈ cs, isBreak c = true) :
    p.line < (p.behind cs).line := by
  rw [line_behind]
  have := List.countP_pos_iff.2 h
  omega

end Position

theorem isBreak_of_mem_spaces (h : c ∈ spaces n) : isBreak c = false := by
  rw [List.eq_of_mem_replicate h]
  rfl

theorem column_behind_spaces (p : Position) (n : Nat) :
    (p.behind (spaces n)).column = p.column + n := by
  rw [p.column_behind fun c hc => isBreak_of_mem_spaces hc, spaces, List.length_replicate]

/-- A text of whole lines: it ends with a line break. -/
def EndsLine (cs : List Char) : Prop :=
  cs.getLast?.any isBreak = true

theorem endsLine_break : EndsLine ['\n'] := rfl

namespace EndsLine

theorem append (h : EndsLine ds) (cs : List Char) : EndsLine (cs ++ ds) := by
  have hne : ds ≠ [] := by
    rintro rfl
    cases h
  rwa [EndsLine, List.getLast?_append_of_ne_nil _ hne]

theorem cons (h : EndsLine cs) (c : Char) : EndsLine (c :: cs) :=
  h.append [c]

theorem exists_mem (h : EndsLine cs) : ∃ c ∈ cs, isBreak c = true := by
  obtain ⟨c, hc, hbreak⟩ := (Option.any_eq_true _ _).1 h
  exact ⟨c, List.mem_of_mem_getLast? hc, hbreak⟩

theorem flatMap {α : Type} {xs : List α} {f : α → List Char} (h : ∀ x ∈ xs, EndsLine (f x))
    (hne : xs ≠ []) : EndsLine (xs.flatMap f) := by
  obtain ⟨xs, x, rfl⟩ := (List.eq_nil_or_concat' xs).resolve_left hne
  rw [List.flatMap_append, List.flatMap_singleton]
  exact (h x (by simp)).append _

end EndsLine

/-- Behind the end of a line, spaces alone determine the column. -/
theorem column_behind_line (p : Position) (h : EndsLine cs) (n : Nat) :
    (p.behind (cs ++ spaces n)).column = n := by
  rcases List.eq_nil_or_concat' cs with rfl | ⟨cs, c, rfl⟩
  · cases h
  · rw [EndsLine, List.getLast?_concat, Option.any_some] at h
    rw [Position.behind_append, Position.behind_append, column_behind_spaces, Position.behind_cons,
      Position.behind_nil, Position.column_after_break _ h, Nat.zero_add]

theorem line_lt_behind_line (p : Position) (h : EndsLine cs) (n : Nat) :
    p.line < (p.behind (cs ++ spaces n)).line := by
  obtain ⟨c, hc, hbreak⟩ := h.exists_mem
  exact p.line_lt_behind ⟨c, List.mem_append_left _ hc, hbreak⟩

/-! ## Cursors -/

/-- Whether something which is to be read begins with a character. -/
def isToken (c : Char) : Bool :=
  !(isBreak c || isWhite c || c = '#' || c = '\ufeff')

/-- Something begins where a text begins, if the text has not ended. -/
def Opens (cs : List Char) : Prop :=
  ∀ c ∈ cs.head?, isToken c = true

theorem opens_nil : Opens [] := by
  simp [Opens]

theorem opens_of_head?_any (h : cs.head?.any isToken = true) : Opens cs := by
  rintro c hc
  simpa [Option.mem_def.1 hc] using h

/-- Spaces and line breaks. -/
def IsBlank (cs : List Char) : Prop :=
  ∀ c ∈ cs, c = ' ' ∨ c = '\n'

theorem isBlank_spaces (n : Nat) : IsBlank (spaces n) :=
  fun _ hc => .inl (List.eq_of_mem_replicate hc)

theorem IsBlank.cons_break (h : IsBlank cs) : IsBlank ('\n' :: cs) :=
  List.forall_mem_cons.2 ⟨.inr rfl, h⟩

namespace Cursor

/-- Outside of brackets, where a key may begin. -/
def fresh (pos : Position) (rest : List Char) : Cursor :=
  { rest, pos }

@[simp] theorem rest_fresh : (fresh p rest).rest = rest := rfl

@[simp] theorem pos_fresh : (fresh p rest).pos = p := rfl

@[simp] theorem keys_fresh : (fresh p rest).keys = true := rfl

@[simp] theorem level_fresh : (fresh p rest).level = 0 := rfl

@[simp] theorem column_fresh : (fresh p rest).column = p.column := rfl

theorem skip_append {c : Cursor} (h : c.rest = cs ++ rest) :
    c.skip cs.length = { c with rest, pos := c.pos.behind cs } := by
  induction cs generalizing c with
  | nil =>
    obtain ⟨_, p, keys, level⟩ := c
    obtain rfl : _ = rest := h
    rfl
  | cons ch cs ih =>
    obtain ⟨_, p, keys, level⟩ := c
    obtain rfl : _ = ch :: (cs ++ rest) := h
    exact ih rfl

end Cursor

theorem skipGap_of_opens (h : Opens rest) (p : Position) (keys : Bool) :
    skipGap false false p keys rest = { rest, pos := p, keys } := by
  cases rest with
  | nil => rfl
  | cons c cs =>
    have hc : isToken c = true := h c rfl
    simp only [isToken, isWhite, Bool.not_eq_true', Bool.or_eq_false_iff,
      decide_eq_false_iff_not] at hc
    obtain ⟨⟨⟨hbreak, hspace, htab⟩, hcomment⟩, hmark⟩ := hc
    simp [skipGap, hbreak, hspace, htab, hcomment, hmark]

theorem skipGap_append (h : IsBlank cs) (p : Position) (keys : Bool) (rest : List Char) :
    skipGap false false p keys (cs ++ rest) =
      skipGap false false (p.behind cs) (keys || cs.contains '\n') rest := by
  induction cs generalizing p keys with
  | nil => simp
  | cons c cs ih =>
    obtain ⟨hc, hcs⟩ := List.forall_mem_cons.1 h
    rcases hc with rfl | rfl
    · have hstep : skipGap false false p keys (' ' :: (cs ++ rest)) =
          skipGap false false (p.after ' ') keys (cs ++ rest) := by
        rw [skipGap, if_neg (by decide), if_neg (by simp), if_pos (by simp)]
      rw [List.cons_append, hstep, ih hcs]
      simp
    · -- A break makes room for a key on the line it opens.
      have hstep : skipGap false false p keys ('\n' :: (cs ++ rest)) =
          skipGap false false (p.after '\n') true (cs ++ rest) := by
        rw [skipGap, if_pos (by decide)]
        simp
      rw [List.cons_append, hstep, ih hcs]
      simp

/-- The next thing stands behind spaces and line breaks. -/
theorem gap_append (h : IsBlank cs) (ht : Opens tail) (p : Position) (keys : Bool) :
    Cursor.gap ⟨cs ++ tail, p, keys, 0⟩ =
      { rest := tail, pos := p.behind cs, keys := keys || cs.contains '\n' } := by
  have hskip := (skipGap_append h p keys tail).trans (skipGap_of_opens ht _ _)
  rw [Cursor.gap]
  exact congrArg (fun c : Cursor => { c with level := 0 }) hskip

theorem gap_of_opens (ht : Opens tail) (p : Position) (keys : Bool) :
    Cursor.gap ⟨tail, p, keys, 0⟩ = { rest := tail, pos := p, keys } := by
  simpa [spaces] using gap_append (isBlank_spaces 0) ht p keys

@[simp] theorem gap_fresh (ht : Opens tail) : (Cursor.fresh p tail).gap = .fresh p tail :=
  gap_of_opens ht p true

/-- Behind the end of a line, keys may begin. -/
theorem gap_line (ht : Opens tail) (p : Position) (keys : Bool) (n : Nat) :
    Cursor.gap ⟨'\n' :: (spaces n ++ tail), p, keys, 0⟩ =
      .fresh (p.behind ('\n' :: spaces n)) tail := by
  have hgap := gap_append (isBlank_spaces n).cons_break ht p keys
  simpa [Cursor.fresh] using hgap

/-- One space changes nothing but the position. -/
theorem gap_space (ht : Opens tail) (p : Position) (keys : Bool) :
    Cursor.gap ⟨' ' :: tail, p, keys, 0⟩ = { rest := tail, pos := p.after ' ', keys } := by
  simpa [spaces] using gap_append (isBlank_spaces 1) ht p keys

end NetworkLoading.Yaml
