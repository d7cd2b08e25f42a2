import NetworkLoading.Proofs.Yaml.Cursor
import NetworkLoading.Yaml.Scalar.Plain

/-!
# Plain scalars of one line

Which texts of one line are read back if they are written without quotes: in front of the colon of a
key, or at the end of a line.
-/

namespace NetworkLoading.Yaml

variable {cs rest tail done : List Char} {p : Position} {n d : Nat}

/-! ## Space between words -/

namespace Space

theorem push_space (n : Nat) :
    push { blanks := spaces n } ' ' = { blanks := spaces (n + 1) } := by
  simp [push, spaces, List.replicate_succ', isBreak]

theorem push_of_broken {s : Space} {c : Char} (h : s.broken = true) (hc : isBreak c = false) :
    s.push c = s := by
  simp [push, hc, h]

@[simp] theorem before_blanks (cs done : List Char) :
    before { blanks := cs } done = cs.reverse ++ done := rfl

end Space

/-! ## Plain texts -/

/-- Whether a plain scalar can go on with a text and end behind it, in one line and outside of
brackets. There may be a space before the text. -/
def goesOn (blank : Bool) : List Char → Bool
  | [] => !blank
  | c :: cs =>
    if c = ' ' then goesOn true cs
    else
      !isBreak c && c ≠ '\t' && !(blank && c = '#') && !(c = ':' && wordEnds cs) && goesOn false cs

/-- A text of one line which can be written as it is. -/
structure IsPlain (cs : List Char) : Prop where
  starts : plainStarts false cs = true
  goesOn : goesOn false cs = true

theorem wordEnds_append (h : wordEnds cs = false) (rest : List Char) :
    wordEnds (cs ++ rest) = false := by
  cases cs with
  | nil => cases h
  | cons c cs => exact h

theorem plainStarts_append (h : plainStarts false cs = true) (rest : List Char) :
    plainStarts false (cs ++ rest) = true := by
  cases cs with
  | nil => cases h
  | cons c cs =>
    -- Only what stands behind a hyphen, a question mark or a colon matters.
    by_cases hc : c = '-' ∨ c = '?' ∨ c = ':'
    · have hends : wordEnds cs = false := by
        rcases hc with rfl | rfl | rfl <;> simpa [plainStarts, isWhite, isBreak] using h
      rcases hc with rfl | rfl | rfl <;>
        simp [plainStarts, isWhite, isBreak, wordEnds_append hends]
    · obtain ⟨hhyphen, hmark, hcolon⟩ := not_or.1 hc |>.imp_right not_or.1
      simpa [plainStarts, hhyphen, hmark, hcolon] using h

/-- What does not end a word at once stands inside a word. -/
theorem goesOn_cons {blank : Bool} {c : Char} (hc : c ≠ ' ') (h : goesOn blank (c :: cs) = true) :
    isBreak c = false ∧ isWhite c = false ∧ (blank = true → c ≠ '#') ∧
      (c = ':' → wordEnds cs = false) ∧ goesOn false cs = true := by
  rw [goesOn, if_neg hc] at h
  simp only [Bool.and_eq_true, Bool.not_eq_true', decide_eq_true_iff, Bool.and_eq_false_iff,
    decide_eq_false_iff_not] at h
  obtain ⟨⟨⟨⟨hbreak, htab⟩, hcomment⟩, hcolon⟩, hrest⟩ := h
  refine ⟨hbreak, by simp [isWhite, hc, htab], fun hb => ?_, fun hc => ?_, hrest⟩
  · exact hcomment.resolve_left (by simp [hb])
  · exact hcolon.resolve_left (by simp [hc])

/-! ## Reading -/

namespace PlainContext

variable {ctx : PlainContext}

/-- A space inside a plain text is set apart until it is clear whether the text goes on. -/
theorem read_space (ctx : PlainContext) (p : Position) (done rest : List Char) :
    ctx.read p done { blanks := spaces n } (' ' :: rest) =
      ctx.read (p.after ' ') done { blanks := spaces (n + 1) } rest := by
  rw [read, if_neg (by decide), if_pos (by decide), Space.push_space]
  simp

/-- A character with which a plain text goes on belongs to it with the spaces before it. -/
theorem read_char (ctx : PlainContext) (hflow : ctx.inFlow = false) {c : Char} (hc : c ≠ ' ')
    (h : goesOn (n ≠ 0) (c :: cs) = true) (hp : n = 0 ∨ p.column ≠ 0) (done rest : List Char) :
    ctx.read p done { blanks := spaces n } (c :: (cs ++ rest)) =
      ctx.read (p.after c) (c :: (spaces n ++ done)) {} (cs ++ rest) := by
  obtain ⟨hbreak, hwhite, hcomment, hcolon, -⟩ := goesOn_cons hc h
  -- Behind a space, neither the end of the document nor a comment begins.
  have hfinished : ((({ blanks := spaces n } : Space) ≠ {}) &&
      ctx.endsAtWord p false (c :: (cs ++ rest))) = false := by
    by_cases hn : n = 0
    · subst hn
      simp [spaces]
    · simp [endsAtWord, hp.resolve_left hn, hcomment (by simpa using hn)]
  have hends : ctx.endsBefore (c :: (cs ++ rest)) = false := by
    by_cases he : c = ':'
    · simp [endsBefore, hflow, wordEnds_append (hcolon he)]
    · simp [endsBefore, hflow, he]
  have hclash : ctx.clash (c :: (cs ++ rest)) = false := by
    rw [clash.eq_def]
    split <;> simp [hflow]
  rw [read, if_neg (by simp [hbreak]), if_neg (by simp [hwhite])]
  simp only [hfinished, hclash, hends, Space.before_blanks]
  simp [spaces]

/-- A plain text is read to its end, whatever follows. -/
theorem read_append (ctx : PlainContext) (hflow : ctx.inFlow = false) (h : goesOn (n ≠ 0) cs = true)
    (hp : n = 0 ∨ p.column ≠ 0) (done rest : List Char) :
    ctx.read p done { blanks := spaces n } (cs ++ rest) =
      ctx.read (p.behind cs) (cs.reverse ++ spaces n ++ done) {} rest := by
  induction cs generalizing p n done with
  | nil =>
    obtain rfl : n = 0 := by simpa [goesOn] using h
    rfl
  | cons c cs ih =>
    rw [List.cons_append, Position.behind_cons]
    -- Blanks are held back until something follows them.
    by_cases hc : c = ' '
    · subst hc
      rw [goesOn, if_pos rfl] at h
      have hcolumn : (p.after ' ').column ≠ 0 := by
        rw [Position.column_after p rfl]
        omega
      have hspaces : spaces (n + 1) = ' ' :: spaces n := rfl
      rw [read_space, ih (by simpa using h) (.inr hcolumn), hspaces]
      simp
    · obtain ⟨-, -, -, -, hrest⟩ := goesOn_cons hc h
      rw [read_char ctx hflow hc h hp]
      refine (ih (n := 0) (by simpa using hrest) (.inl rfl) _).trans ?_
      simp [spaces]

/-- A plain scalar ends at the colon of a key. -/
theorem read_colon (h : wordEnds rest = true) (hflow : ctx.inFlow = false) :
    ctx.read p done {} (':' :: rest) = some (done.reverse, ⟨':' :: rest, p, false, 0⟩) := by
  have hclash : ctx.clash (':' :: rest) = false := by
    rw [clash.eq_def]
    split <;> simp [hflow]
  rw [read, if_neg (by decide), if_neg (by decide)]
  simp [hclash, endsBefore, h]

theorem read_spaces {s : Space} (hs : s.broken = true) (p : Position) (done : List Char) :
    ctx.read p done s (spaces d ++ tail) = ctx.read (p.behind (spaces d)) done s tail := by
  induction d generalizing p with
  | zero => rfl
  | succ d ih =>
    have hstep : ctx.read p done s (' ' :: (spaces d ++ tail)) =
        ctx.read (p.after ' ') done s (spaces d ++ tail) := by
      rw [read, if_neg (by decide), if_pos (by decide), Space.push_of_broken hs rfl]
      simp
    exact hstep.trans (ih _)

/-- A plain scalar ends with its line if the next one is not indented enough. -/
theorem read_line (ht : Opens tail) (hd : d < ctx.indent) (hflow : ctx.inFlow = false) :
    ctx.read p done {} ('\n' :: (spaces d ++ tail)) =
      some (done.reverse, .fresh (p.behind ('\n' :: spaces d)) tail) := by
  have hcolumn : (p.behind (['\n'] ++ spaces d)).column = d := column_behind_line p endsLine_break d
  rw [List.singleton_append] at hcolumn
  rw [read, if_pos (by decide), read_spaces (by simp [Space.push, isBreak]), ← Position.behind_cons]
  generalize p.behind ('\n' :: spaces d) = q at hcolumn
  cases tail with
  | nil => rfl
  | cons c cs =>
    have hc : isToken c = true := ht c rfl
    rw [isToken, Bool.not_eq_true', Bool.or_eq_false_iff, Bool.or_eq_false_iff,
      Bool.or_eq_false_iff] at hc
    obtain ⟨⟨⟨hbreak, hwhite⟩, -⟩, -⟩ := hc
    rw [read, if_neg (by simp [hbreak]), if_neg (by simp [hwhite])]
    simp [endsAtWord, hflow, hcolumn, hd, Space.push, isBreak, Cursor.fresh]

end PlainContext

end NetworkLoading.Yaml
