import NetworkLoading.Proofs.Yaml.Cursor
import NetworkLoading.Yaml.Scalar.Block

/-!
# Literal blocks

A text of several lines is read back from its lines, with all line breaks at its end.
-/

namespace NetworkLoading.Yaml

variable {cs ds tail : List Char} {c : Char} {p : Position} {n d indent least : Nat}

/-! ## Lines -/

/-- A text as a block is made of: lines which are not empty, with their line breaks, and further
line breaks before each of them and at the end. -/
inductive Lines : List Char → Prop
  | breaks (bs : List Char) (h : ∀ b ∈ bs, isBreak b = true) : Lines bs
  | line (bs line : List Char) (b : Char) (h : ∀ b ∈ bs, isBreak b = true) (hne : line ≠ [])
    (hline : ∀ c ∈ line, isBreak c = false) (hb : isBreak b = true) {cs : List Char}
    (hcs : Lines cs) : Lines (bs ++ (line ++ b :: cs))

theorem Lines.cons_break (h : Lines cs) (hc : isBreak c = true) : Lines (c :: cs) := by
  cases h with
  | breaks bs h => exact .breaks _ (List.forall_mem_cons.2 ⟨hc, h⟩)
  | line bs line b h hne hline hb hcs =>
    exact .line (c :: bs) line b (List.forall_mem_cons.2 ⟨hc, h⟩) hne hline hb hcs

theorem Lines.cons (h : Lines cs) (hcs : cs ≠ []) (hc : isBreak c = false) : Lines (c :: cs) := by
  have hone : ∀ x ∈ [c], isBreak x = false := by simpa using hc
  have hnil : ∀ b ∈ ([] : List Char), isBreak b = true := by simp
  cases h with
  | breaks bs h =>
    obtain ⟨b, bs, rfl⟩ := List.exists_cons_of_ne_nil hcs
    obtain ⟨hb, hbs⟩ := List.forall_mem_cons.1 h
    exact .line [] [c] b hnil (by simp) hone hb (.breaks bs hbs)
  | line bs line b h hne hline hb hlines =>
    cases bs with
    | nil =>
      have hfirst : ∀ x ∈ c :: line, isBreak x = false := List.forall_mem_cons.2 ⟨hc, hline⟩
      exact .line [] (c :: line) b hnil (by simp) hfirst hb hlines
    | cons first bs =>
      obtain ⟨hfirst, hbs⟩ := List.forall_mem_cons.1 h
      exact .line [] [c] first hnil (by simp) hone hfirst (.line bs line b hbs hne hline hb hlines)

theorem lines_of_getLast? (h : ∀ c ∈ cs.getLast?, isBreak c = true) : Lines cs := by
  induction cs with
  | nil => exact .breaks [] (by simp)
  | cons c cs ih =>
    by_cases hc : isBreak c = true
    · refine .cons_break (ih fun x hx => h x ?_) hc
      cases cs with
      | nil => cases hx
      | cons => exact hx
    · cases cs with
      | nil => exact absurd (h c rfl) hc
      | cons x cs => exact .cons (ih h) (by simp) (by simpa using hc)

/-! ## Printed lines -/

theorem printLines_breaks (h : ∀ b ∈ cs, isBreak b = true) (ds : List Char) :
    printLines indent true (cs ++ ds) = cs ++ printLines indent true ds := by
  induction cs with
  | nil => rfl
  | cons c cs ih =>
    obtain ⟨hc, hcs⟩ := List.forall_mem_cons.1 h
    rw [List.cons_append, printLines, if_pos hc, ih hcs, List.cons_append]

theorem printLines_append (h : ∀ c ∈ cs, isBreak c = false) (ds : List Char) :
    printLines indent false (cs ++ ds) = cs ++ printLines indent false ds := by
  induction cs with
  | nil => rfl
  | cons c cs ih =>
    obtain ⟨hc, hcs⟩ := List.forall_mem_cons.1 h
    rw [List.cons_append, printLines, if_neg (by simp [hc]), if_neg (by decide), ih hcs]
    rfl

theorem printLines_cons (h : isBreak c = false) (cs : List Char) :
    printLines indent true (c :: cs) = spaces indent ++ printLines indent false (c :: cs) := by
  simp [printLines, h]

/-- A line which is not empty, behind other ones. -/
theorem printLines_line (hne : cs ≠ []) (h : ∀ c ∈ cs, isBreak c = false) (hc : isBreak c = true)
    (ds : List Char) :
    printLines indent true (cs ++ c :: ds) =
      spaces indent ++ (cs ++ c :: printLines indent true ds) := by
  obtain ⟨x, xs, rfl⟩ := List.exists_cons_of_ne_nil hne
  have hx : isBreak x = false := h x List.mem_cons_self
  rw [List.cons_append, printLines_cons hx, ← List.cons_append, printLines_append h, printLines,
    if_pos hc]

/-- The last line ends with a line break, whether the text does or not. -/
theorem printLines_concat_break (h : ∀ c ∈ cs.getLast?, isBreak c = false) (hne : cs ≠ [])
    (broken : Bool) :
    printLines indent broken (cs ++ ['\n']) = printLines indent broken cs := by
  induction cs generalizing broken with
  | nil => exact absurd rfl hne
  | cons c cs ih =>
    rw [List.cons_append, printLines, printLines]
    cases cs with
    | nil =>
      have hc : isBreak c = false := h c rfl
      have hfeed : isBreak '\n' = true := rfl
      simp [hc, printLines, hfeed]
    | cons x cs =>
      have hlast : ∀ c ∈ (x :: cs).getLast?, isBreak c = false := fun c hc => h c hc
      rw [ih hlast (by simp), ih hlast (by simp)]

/-- Lines end with a line break, like what stands before them if there are none. -/
theorem endsLine_printLines (c : Char) (cs : List Char) :
    EndsLine (c :: printLines indent (isBreak c) cs) := by
  induction cs generalizing c with
  | nil =>
    cases hc : isBreak c with
    | true => simpa [EndsLine, printLines] using hc
    | false => rfl
  | cons x cs ih =>
    -- Before a character stand at most the blanks which indent it.
    obtain ⟨before, he⟩ : ∃ before, printLines indent (isBreak c) (x :: cs) =
        before ++ x :: printLines indent (isBreak x) cs := by
      rw [printLines]
      split
      · rename_i hx
        exact ⟨[], by rw [hx, List.nil_append]⟩
      · rename_i hx
        exact ⟨_, by rw [Bool.eq_false_iff.2 hx]⟩
    rw [he, ← List.cons_append]
    exact (ih x).append _

/-! ## Indentation -/

theorem column_behind_breaks (h : ∀ b ∈ cs, isBreak b = true) (hp : p.column = 0) :
    (p.behind cs).column = 0 := by
  induction cs generalizing p with
  | nil => exact hp
  | cons c cs ih =>
    obtain ⟨hc, hcs⟩ := List.forall_mem_cons.1 h
    exact ih hcs (Position.column_after_break p hc)

theorem skipIndent_breaks {g : Nat} {bs : List Char} (h : ∀ b ∈ cs, isBreak b = true)
    (hp : p.column = 0) (indent : Option Nat) :
    skipIndent indent g bs p (cs ++ ds) = skipIndent indent g (bs ++ cs) (p.behind cs) ds := by
  induction cs generalizing p bs with
  | nil => simp
  | cons c cs ih =>
    obtain ⟨hc, hcs⟩ := List.forall_mem_cons.1 h
    -- A break is neither of the white characters which the loop looks for first.
    have hspace : c ≠ ' ' := by
      rintro rfl
      cases hc
    have htab : c ≠ '\t' := by
      rintro rfl
      cases hc
    rw [List.cons_append, skipIndent]
    simp only [hspace, htab, hc, hp, decide_false, Bool.and_false, Bool.false_eq_true, if_false,
      if_true, Nat.max_zero]
    rw [ih hcs (Position.column_after_break p hc)]
    simp

theorem skipIndent_spaces {g : Nat} {bs : List Char} {indent : Option Nat}
    (h : ∀ i ∈ indent, p.column + n ≤ i) :
    skipIndent indent g bs p (spaces n ++ cs) =
      skipIndent indent g bs (p.behind (spaces n)) cs := by
  induction n generalizing p with
  | zero => rfl
  | succ n ih =>
    -- Up to the indentation every blank belongs to it.
    have hwithin : indent.all (p.column < ·) = true := by
      rw [Option.all_eq_true]
      intro i hi
      have := h i hi
      simp only [decide_eq_true_iff]
      omega
    have hstep : skipIndent indent g bs p (' ' :: (spaces n ++ cs)) =
        skipIndent indent g bs (p.after ' ') (spaces n ++ cs) := by
      rw [skipIndent]
      simp [hwithin]
    refine hstep.trans (ih fun i hi => ?_)
    have := h i hi
    rw [Position.column_after p rfl]
    omega

/-- A line begins where the indentation ends. What is indented less is no line of the block. -/
theorem skipIndent_stop {g : Nat} {bs : List Char} {indent : Option Nat}
    (h : ∀ c ∈ cs.head?, isBreak c = false ∧ (isWhite c = false ∨ indent = some p.column)) :
    skipIndent indent g bs p cs = some (bs, max g p.column, .fresh p cs) := by
  cases cs with
  | nil => rfl
  | cons c cs =>
    obtain ⟨hbreak, hwhite⟩ := h c rfl
    rw [skipIndent]
    rcases hwhite with hwhite | rfl
    · rw [isWhite, Bool.or_eq_false_iff, decide_eq_false_iff_not, decide_eq_false_iff_not] at hwhite
      simp [hbreak, hwhite, Cursor.fresh]
    · simp [hbreak, Cursor.fresh]

/-- From the start of a line on, empty lines and spaces are skipped up to the indentation. -/
theorem skipIndent_line {bs : List Char} {indent : Option Nat} (h : ∀ b ∈ bs, isBreak b = true)
    (hp : p.column = 0) (hn : ∀ i ∈ indent, n ≤ i)
    (hstop : ∀ c ∈ cs.head?, isBreak c = false ∧ (isWhite c = false ∨ indent = some n)) :
    skipIndent indent 0 [] p (bs ++ (spaces n ++ cs)) =
      some (bs, n, .fresh ((p.behind bs).behind (spaces n)) cs) := by
  have hcolumn : ((p.behind bs).behind (spaces n)).column = n := by
    rw [column_behind_spaces, column_behind_breaks h hp, Nat.zero_add]
  rw [skipIndent_breaks h hp, skipIndent_spaces, skipIndent_stop (by rwa [hcolumn]), hcolumn,
    List.nil_append, Nat.zero_max]
  intro i hi
  rw [column_behind_breaks h hp, Nat.zero_add]
  exact hn i hi

theorem Opens.not_isBreak (h : Opens tail) :
    ∀ c ∈ tail.head?, isBreak c = false ∧ isWhite c = false := by
  intro c hc
  have htoken := h c hc
  rw [isToken, Bool.not_eq_true', Bool.or_eq_false_iff, Bool.or_eq_false_iff,
    Bool.or_eq_false_iff] at htoken
  exact htoken.1.1

/-! ## Reading lines -/

namespace BlockState

/-- What has become of a state behind the lines of a text: its last line and the line breaks behind
this line are set apart, if there is one. -/
inductive Took (s : BlockState) : List Char → BlockState → Prop
  | breaks (bs : List Char) (h : ∀ b ∈ bs, isBreak b = true) : Took s bs { s with empty := bs }
  | lines (body : List Char) (b : Char) (bs : List Char) (hbody : body.getLast?.any (!isBreak ·))
    (hb : isBreak b = true) (hbs : ∀ b ∈ bs, isBreak b = true) {s' : BlockState}
    (hdone : s'.done.reverse = s.done.reverse ++ s.last ++ body) (hlast : s'.last = [b])
    (hempty : s'.empty = bs) : Took s (body ++ b :: bs) s'

theorem done_addLine (s : BlockState) (line last empty : List Char) :
    (s.addLine false line last empty).done.reverse =
      s.done.reverse ++ s.last ++ s.empty ++ line := by
  simp [addLine, folds]

/-- What the lines behind a line have become belongs to the text with this line as well. -/
theorem Took.cons_line {s s' : BlockState} {bs line empty : List Char} {b : Char}
    (hne : line ≠ []) (hline : ∀ c ∈ line, isBreak c = false) (hb : isBreak b = true)
    (h : Took (addLine { s with empty := bs } false line [b] empty) cs s') :
    Took s (bs ++ (line ++ b :: cs)) s' := by
  -- The line is not empty and has no break in it, so it ends in something visible.
  have hlast : (line.getLast?.any (!isBreak ·)) = true := by
    obtain ⟨xs, x, rfl⟩ := List.eq_nil_or_concat' line |>.resolve_left hne
    simpa using hline x (by simp)
  cases h with
  | breaks cs h =>
    rw [← List.append_assoc]
    refine .lines (bs ++ line) b cs ?_ hb h ?_ rfl rfl
    · rw [List.getLast?_append_of_ne_nil _ hne]
      exact hlast
    · simpa using done_addLine { s with empty := bs } line [b] empty
  | @lines body b' bs' hbody hb' hbs' _ hdone hlast' hempty =>
    have he : bs ++ (line ++ b :: (body ++ b' :: bs')) =
        (bs ++ line ++ b :: body) ++ b' :: bs' := by simp
    have hbodyne : body ≠ [] := by
      rintro rfl
      cases hbody
    rw [he]
    refine .lines _ b' bs' ?_ hb' hbs' ?_ hlast' hempty
    · rw [← List.singleton_append, ← List.append_assoc, List.getLast?_append_of_ne_nil _ hbodyne]
      exact hbody
    · rw [hdone, done_addLine]
      simp [addLine]

/-- A line is read with its line break and the empty lines behind it. -/
theorem read_line {s : BlockState} {rest : List Char} (hcs : ∀ c ∈ cs, isBreak c = false)
    (hc : isBreak c = true) (hp : p.column = indent) (budget : Nat) :
    read false indent s (.fresh p (cs ++ c :: rest)) (budget + 1) =
      (skipIndent (some indent) 0 [] (p.behind (cs ++ [c])) rest).bind fun (empty, _, cursor) =>
        read false indent (s.addLine false cs [c] empty) cursor budget := by
  have htake : (cs ++ c :: rest).takeWhile (!isBreak ·) = cs := by
    rw [List.takeWhile_append_of_pos (by simpa using hcs),
      List.takeWhile_cons_of_neg (by simp [hc]),      List.append_nil]
  have hskip : (Cursor.fresh p (cs ++ c :: rest)).skip (cs.length + 1) =
      .fresh (p.behind (cs ++ [c])) rest := by
    have hskip := Cursor.skip_append (c := .fresh p (cs ++ c :: rest)) (List.append_cons cs c rest)
    rwa [List.length_append] at hskip
  rw [read, if_neg (by simp [hp])]
  simp only [Cursor.rest_fresh, htake, hskip]
  simp

theorem read_end {s : BlockState} {rest : List Char} (h : p.column ≠ indent) (budget : Nat) :
    read false indent s (.fresh p rest) budget = some (s, .fresh p rest) := by
  cases budget with
  | zero => rfl
  | succ budget => rw [read, if_pos (by simp [h])]

/-- The lines of a text are read up to what is indented less. -/
theorem read_lines (h : Lines cs) (hd : d < indent) (ht : Opens tail)
    (s : BlockState) (hp : p.column = 0) :
    ∃ empty g q rest s',
      skipIndent (some indent) 0 [] p (printLines indent true cs ++ (spaces d ++ tail)) =
        some (empty, g, .fresh q rest) ∧
      rest.length ≤ (printLines indent true cs ++ (spaces d ++ tail)).length ∧
      s.Took cs s' ∧
      ∀ budget, rest.length ≤ budget →
        read false indent { s with empty } (.fresh q rest) budget =
          some (s', .fresh (p.behind (printLines indent true cs ++ spaces d)) tail) := by
  -- The induction is on the lines as the printer takes them: breaks, then one line.
  induction h generalizing p s with
  | breaks bs h =>
    have hbreaks : printLines indent true bs = bs := by
      simpa [printLines] using (printLines_breaks h [] : printLines indent true (bs ++ []) = _)
    have hcolumn : ((p.behind bs).behind (spaces d)).column = d := by
      rw [column_behind_spaces, column_behind_breaks h hp, Nat.zero_add]
    refine ⟨bs, d, (p.behind bs).behind (spaces d), tail, { s with empty := bs }, ?_, ?_,
      .breaks bs h, fun budget _ => ?_⟩
    · rw [hbreaks, skipIndent_line h hp (by simp; omega)]
      exact fun c hc => (ht.not_isBreak c hc).imp_right .inl
    · rw [← List.append_assoc, List.length_append]
      exact Nat.le_add_left _ _
    · rw [hbreaks, Position.behind_append]
      exact read_end (by omega) budget
  | @line bs line b h hne hline hb cs hcs ih =>
    have hcolumn : ((p.behind bs).behind (spaces indent)).column = indent := by
      rw [column_behind_spaces, column_behind_breaks h hp, Nat.zero_add]
    have hnext : (((p.behind bs).behind (spaces indent)).behind (line ++ [b])).column = 0 := by
      rw [Position.behind_append]
      exact Position.column_after_break _ hb
    obtain ⟨empty, g, q, rest, s', hskip, hlength, htook, hread⟩ :=
      ih (addLine { s with empty := bs } false line [b] []) hnext
    refine ⟨bs, indent, (p.behind bs).behind (spaces indent),
      line ++ b :: (printLines indent true cs ++ (spaces d ++ tail)), s', ?_, ?_,
      htook.cons_line hne hline hb, fun budget hbudget => ?_⟩
    · rw [printLines_breaks h, printLines_line hne hline hb, List.append_assoc, List.append_assoc,
        List.append_assoc, List.cons_append, skipIndent_line h hp (by simp)]
      intro c hc
      rw [List.head?_append_of_ne_nil _ hne] at hc
      exact ⟨hline c (List.mem_of_mem_head? hc), .inr rfl⟩
    · rw [printLines_breaks h, printLines_line hne hline hb]
      simp
      omega
    · obtain ⟨budget, rfl⟩ : ∃ b, budget = b + 1 := by
        refine ⟨budget - 1, ?_⟩
        simp at hbudget
        omega
      rw [read_line hline hb hcolumn, hskip, Option.bind_some]
      refine (hread budget ?_).trans ?_
      · simp at hbudget hlength ⊢
        omega
      · rw [printLines_breaks h, printLines_line hne hline hb]
        simp

end BlockState

/-! ## Headers -/

/-- What becomes of the line breaks at the end of a text in its block. -/
def Chomping.of (cs : List Char) : Chomping :=
  match cs.reverse with
  | [] => .strip
  | last :: before =>
    if !isBreak last then .strip else if before.head?.all isBreak then .keep else .clip

theorem Chomping.of_concat (cs : List Char) (c : Char) :
    Chomping.of (cs ++ [c]) =
      if !isBreak c then .strip else if cs.getLast?.all isBreak then .keep else .clip := by
  simp [Chomping.of]

/-- Whether a text seems to be indented itself. -/
def seemsIndented (cs : List Char) : Bool :=
  cs.head?.any fun c => c = ' ' || isBreak c

/-- The header of a block is read back. -/
theorem read_printHeader (cs ds : List Char) :
    BlockHeader.read false (printHeader cs ++ '\n' :: ds) =
      ({ folded := false, chomping := .of cs, deeper := if seemsIndented cs then some 2 else none },
        (printHeader cs).length) := by
  rw [printHeader, Chomping.of, ← seemsIndented]
  cases cs.reverse with
  | nil => cases seemsIndented cs <;> rfl
  | cons last before =>
    dsimp only
    cases isBreak last <;> cases before.head?.all isBreak <;> cases seemsIndented cs <;> rfl

/-! ## Whole blocks -/

/-- The lines of a text with a line break at the end, whether the text has one or not. -/
def closed (cs : List Char) : List Char :=
  if cs.getLast?.all isBreak then cs else cs ++ ['\n']

theorem lines_closed (cs : List Char) : Lines (closed cs) := by
  rw [closed]
  split
  · rename_i h
    exact lines_of_getLast? fun c hc => (Option.all_eq_true _ _).1 h c hc
  · exact lines_of_getLast? fun c hc => by
      rw [List.getLast?_concat] at hc
      cases hc
      rfl

theorem printLines_closed (cs : List Char) :
    printLines indent true (closed cs) = printLines indent true cs := by
  rw [closed]
  split
  · rfl
  · rename_i h
    rcases List.eq_nil_or_concat' cs with rfl | ⟨xs, x, rfl⟩
    · exact absurd rfl h
    · exact printLines_concat_break (by simpa using h) (by simp) true

theorem isBreak_of_mem_getLast? {bs : List Char} (hne : bs ≠ []) (h : ∀ b ∈ bs, isBreak b = true)
    (hc : c ∈ (cs ++ bs).getLast?) : isBreak c = true := by
  rw [List.getLast?_append_of_ne_nil _ hne] at hc
  exact h c (List.mem_of_mem_getLast? hc)

/-- A text without its last character is the text without the one line break at its end, or there
are several and it still ends in one. -/
theorem concat_eq_breaks {xs body bs : List Char} {x b : Char} (hb : isBreak b = true)
    (hbs : ∀ c ∈ bs, isBreak c = true) (h : xs ++ [x] = body ++ b :: bs) :
    (xs = body ∧ x = b ∧ bs = []) ∨ ∃ c ∈ xs.getLast?, isBreak c = true := by
  rcases List.eq_nil_or_concat' bs with rfl | ⟨ys, y, rfl⟩
  · obtain ⟨rfl, hxb⟩ := List.append_inj' h rfl
    exact .inl ⟨rfl, List.singleton_inj.1 hxb, rfl⟩
  · rw [← List.cons_append, ← List.append_assoc] at h
    obtain ⟨rfl, -⟩ := List.append_inj' h rfl
    obtain ⟨c, hc⟩ : ∃ c, (body ++ b :: ys).getLast? = some c :=
      ⟨_, List.getLast?_eq_some_getLast (by simp)⟩
    refine .inr ⟨c, hc, isBreak_of_mem_getLast? (by simp) (List.forall_mem_cons.2 ⟨hb, ?_⟩) hc⟩
    exact fun c hc => hbs c (List.mem_append_left _ hc)

namespace BlockState

variable {s s' : BlockState} {xs : List Char} {x : Char}

/-- The line break which closes a text that has none at its end is dropped. -/
theorem Took.finish_strip (hdone : s.done = []) (hlast : s.last = []) (hx : isBreak x = false)
    (h : s.Took (xs ++ [x] ++ ['\n']) s') : s'.finish .strip = xs ++ [x] := by
  generalize hcs : xs ++ [x] ++ ['\n'] = cs at h
  cases h with
  | breaks cs hbreaks => simp [hbreaks x (by simp [← hcs])] at hx
  | lines body b bs hbody hb hbs hdone' hlast' hempty =>
    obtain ⟨rfl, -⟩ | ⟨c, hc, hbreak⟩ := concat_eq_breaks hb hbs hcs
    · simp [finish, hdone', hdone, hlast]
    · rw [List.getLast?_concat] at hc
      cases hc
      simp [hx] at hbreak

/-- One line break at the end of a text is kept as the end of its last line, and several are kept
as they are. -/
theorem Took.finish_concat (hdone : s.done = []) (hlast : s.last = []) (h : s.Took (xs ++ [x]) s') :
    s'.finish (if xs.getLast?.all isBreak then .keep else .clip) = xs ++ [x] := by
  generalize hcs : xs ++ [x] = cs at h
  cases h with
  | breaks cs hbreaks =>
    have hkeep : xs.getLast?.all isBreak = true := (Option.all_eq_true _ _).2 fun c hc =>
      hbreaks c (hcs ▸ List.mem_append_left _ (List.mem_of_mem_getLast? hc))
    simp [hkeep, finish, hdone, hlast]
  | lines body b bs hbody hb hbs hdone' hlast' hempty =>
    -- Either the last line has one break behind it, which is clipped to itself, or more.
    obtain ⟨rfl, rfl, rfl⟩ | ⟨c, hc, hbreak⟩ := concat_eq_breaks hb hbs hcs
    · have hclip : xs.getLast?.all isBreak = false := by
        cases hl : xs.getLast? with
        | none => simp [hl] at hbody
        | some z => simpa [hl] using hbody
      simp [hclip, finish, hdone', hlast', hdone, hlast]
    · have hkeep : xs.getLast?.all isBreak = true := (Option.all_eq_true _ _).2 fun d hd => by
        rwa [Option.mem_unique hd hc]
      simp [hkeep, finish, hdone', hlast', hempty, hdone, hlast]

/-- A block which consists of the lines of a text stands for this text. -/
theorem Took.finish_of (hdone : s.done = []) (hlast : s.last = []) (hne : cs ≠ [])
    (h : s.Took (closed cs) s') : s'.finish (.of cs) = cs := by
  obtain ⟨xs, x, rfl⟩ := List.eq_nil_or_concat' cs |>.resolve_left hne
  rw [Chomping.of_concat]
  rw [closed, List.getLast?_concat, Option.all_some] at h
  cases hx : isBreak x with
  | false => exact Took.finish_strip hdone hlast hx (by simpa [hx] using h)
  | true => exact Took.finish_concat hdone hlast (by simpa [hx] using h)

end BlockState

/-- If the first line of a text does not seem to be indented, it tells the indentation itself. -/
theorem skipIndent_first {told : Option Nat} (htold : ∀ i ∈ told, i = indent) (hne : cs ≠ [])
    (htab : '\t' ∉ cs) (h : seemsIndented cs = false) (hp : p.column = 0) (ds : List Char) :
    skipIndent told 0 [] p (printLines indent true cs ++ ds) =
      some ([], indent, .fresh (p.behind (spaces indent)) (printLines indent false cs ++ ds)) := by
  obtain ⟨c, cs, rfl⟩ := List.exists_cons_of_ne_nil hne
  simp only [seemsIndented, List.head?_cons, Option.any_some, Bool.or_eq_false_iff,
    decide_eq_false_iff_not] at h
  obtain ⟨hspace, hbreak⟩ := h
  have hwhite : isWhite c = false := by
    have htab' : c ≠ '\t' := fun he => htab (he ▸ List.mem_cons_self)
    simp [isWhite, hspace, htab']
  -- The first line is not empty, so its blanks tell the indentation.
  have hline := @skipIndent_line (printLines indent false (c :: cs) ++ ds) p indent [] told
    (by simp) hp fun i hi => Nat.le_of_eq (htold i hi).symm
  rw [printLines_cons hbreak, List.append_assoc]
  refine hline fun x hx => ?_
  rw [printLines, if_neg (by simp [hbreak]), if_neg (by decide)] at hx
  cases hx
  exact ⟨hbreak, .inl hwhite⟩

/-- The lines of a block begin behind its header. -/
theorem readBlock_header {cursor : Cursor} (h : cursor.rest = '|' :: printHeader cs ++ '\n' :: ds)
    (least : Nat) :
    readBlock least cursor =
      let told := (if seemsIndented cs then some 2 else none).map (max least 1 - 1 + ·)
      (skipIndent told 0 [] (cursor.pos.behind ('|' :: printHeader cs ++ ['\n'])) ds).bind
        fun (empty, greatest, c) =>
          (BlockState.read false (told.getD (max greatest (max least 1))) { empty } c
            c.rest.length).map fun (s, c) => (s.finish (.of cs), { c with keys := true }) := by
  have hheader : BlockHeader.read (cursor.startsWith '>') cursor.next.rest =
      ({ folded := false, chomping := .of cs, deeper := if seemsIndented cs then some 2 else none },
        (printHeader cs).length) := by
    rw [Cursor.startsWith, Cursor.next, h]
    exact read_printHeader cs ds
  have hskip := Cursor.skip_append h
  rw [List.length_cons, Nat.add_comm] at hskip
  rw [readBlock, hheader]
  dsimp only
  rw [hskip]
  dsimp only
  rw [if_neg (by simp [lineIsOver, isWhite, isBreak])]
  simp [isBreak, Cursor.skip, Cursor.next]

/-- A text of several lines is read back from a block which is indented enough. -/
theorem readBlock_printLines (hleast : 0 < least) (hne : cs ≠ []) (htab : '\t' ∉ cs)
    (hd : d ≤ least)    (ht : Opens tail) {cursor : Cursor} (h : cursor.rest =
        ('|' :: printHeader cs) ++ '\n' :: (printLines (least + 1) true cs ++ (spaces d ++ tail))) :
    readBlock least cursor =
      some (cs, .fresh (cursor.pos.behind
        ('|' :: printHeader cs ++ '\n' :: (printLines (least + 1) true cs ++ spaces d))) tail) := by
  have hcolumn : (cursor.pos.behind (('|' :: printHeader cs) ++ ['\n'])).column = 0 := by
    rw [Position.behind_append]
    exact Position.column_after_break (c := '\n') _ rfl
  obtain ⟨empty, g, q, rest, s, hskip, -, htook, hread⟩ :=
    BlockState.read_lines (lines_closed cs) (Nat.lt_succ_of_le hd) ht { empty := [] } hcolumn
  rw [printLines_closed] at hskip hread
  rw [readBlock_header h]
  generalize htold : (if seemsIndented cs then some 2 else none).map (max least 1 - 1 + ·) = told
  -- Whether the header tells the indentation or the first line does, it is the same.
  have hindent : told.getD (max g (max least 1)) = least + 1 ∧
      skipIndent told 0 [] (cursor.pos.behind (('|' :: printHeader cs) ++ ['\n']))
        (printLines (least + 1) true cs ++ (spaces d ++ tail)) =
          some (empty, g, .fresh q rest) := by
    cases hseems : seemsIndented cs with
    | true =>
      obtain rfl : some (least + 1) = told := by
        rw [← htold, hseems]
        simp
        omega
      exact ⟨rfl, hskip⟩
    | false =>
      obtain rfl : none = told := by
        rw [← htold, hseems]
        rfl
      rw [skipIndent_first (by simp) hne htab hseems hcolumn] at hskip ⊢
      cases hskip
      exact ⟨by simp, rfl⟩
  dsimp only
  rw [hindent.2]
  simp only [Option.bind_some, hindent.1, Cursor.rest_fresh]
  rw [hread _ (Nat.le_refl _), Option.map_some, htook.finish_of rfl rfl hne]
  simp [Cursor.fresh]

end NetworkLoading.Yaml
