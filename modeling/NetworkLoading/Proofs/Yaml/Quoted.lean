import NetworkLoading.Proofs.Digits
import NetworkLoading.Proofs.Yaml.Plain
import NetworkLoading.Yaml.Scalar.Quoted

/-!
# Quoted scalars

Texts between quotes are read back. Between single quotes, line breaks and spaces must not touch;
between double quotes, everything that might be misread is escaped.
-/

namespace NetworkLoading.Yaml

variable {cs rest done code : List Char} {c : Char} {p : Position} {s : Space} {n d indent : Nat}

/-! ## Between single quotes -/

theorem hasPair_cons (first second : Char → Bool) (c : Char) (cs : List Char) :
    hasPair first second (c :: cs) =
      ((first c && cs.head?.any second) || hasPair first second cs) := by
  cases cs with
  | nil => simp [hasPair]
  | cons => simp [hasPair]

/-- A text which can stand between single quotes. -/
structure IsSingle (cs : List Char) : Prop where
  noTab : '\t' ∉ cs
  noFeed : '\n' ∉ cs
  /-- No space stands before a line break. -/
  before : hasPair (· = ' ') isBreak cs = false
  /-- No space stands behind a line break. -/
  behind : hasPair isBreak (· = ' ') cs = false

theorem IsSingle.tail (h : IsSingle (c :: cs)) : IsSingle cs := by
  have hbefore := h.before
  have hbehind := h.behind
  rw [hasPair_cons, Bool.or_eq_false_iff] at hbefore hbehind
  exact ⟨fun hc => h.noTab (.tail _ hc), fun hc => h.noFeed (.tail _ hc), hbefore.2, hbehind.2⟩

/-- Space which was read stands for itself, whatever of a text comes next: there are only spaces, or
line breaks which are no line feeds. -/
inductive Space.Joins (cs : List Char) : Space → Prop
  | blanks (ws : List Char) (h : ws ≠ [] → cs.head?.any isBreak = false) : Joins cs { blanks := ws }
  | breaks {ws : List Char} (b : Char) (bs : List Char) (hb : b ≠ '\n') (h : cs.head? ≠ some ' ') :
    Joins cs { blanks := ws, broken := true, first := [b], further := bs }

theorem Space.joins_empty (cs : List Char) : Space.Joins cs {} :=
  .blanks [] fun h => absurd rfl h

/-- A line break comes behind other ones, or behind a word. -/
theorem Space.Joins.push_break (h : s.Joins (c :: cs)) (hbreak : isBreak c = true) (hc : c ≠ '\n')
    (hnext : cs.head? ≠ some ' ') (done : List Char) :
    (s.push c).Joins cs ∧ (s.push c).broken = true ∧
      (s.push c).before done = c :: s.before done := by
  cases h with
  | blanks ws h =>
    obtain rfl : ws = [] := by
      by_contra hne
      simp [hbreak] at h
      exact hne h
    simpa [Space.push, hbreak, Space.before, Space.text, hc] using
      @Space.Joins.breaks cs [] c [] hc hnext
  | @breaks ws b bs hb =>
    simpa [Space.push, hbreak, Space.before, Space.text, hb] using
      @Space.Joins.breaks cs ws b (bs ++ [c]) hb hnext

theorem readSingle_push (h : (isBreak c || isWhite c) = true) :
    readSingle p done s (c :: cs) = readSingle (p.after c) done (s.push c) cs := by
  have hne : c ≠ '\'' := by
    rintro rfl
    cases h
  rw [readSingle, if_pos h]
  exact fun _ he => absurd he hne

/-- The indentation behind a line break stands for nothing. -/
theorem readSingle_indentation (n : Nat) (cs : List Char) :
    readSingle p done s ((if s.broken then spaces n else []) ++ cs) =
      readSingle (p.behind (if s.broken then spaces n else [])) done s cs := by
  split
  · rename_i hs
    induction n generalizing p with
    | zero => rfl
    | succ n ih =>
      have hstep : readSingle p done s (' ' :: (spaces n ++ cs)) =
          readSingle (p.after ' ') done s (spaces n ++ cs) := by
        rw [readSingle_push rfl, Space.push_of_broken hs rfl]
      exact hstep.trans ih
  · rfl

/-- A character of a word, a quote being written twice. -/
theorem readSingle_char (hbreak : isBreak c = false) (hwhite : isWhite c = false)
    (hp : p.column ≠ 0) :
    readSingle p done s ((if c = '\'' then ['\'', '\''] else [c]) ++ cs) =
      readSingle (p.behind (if c = '\'' then ['\'', '\''] else [c])) (c :: s.before done) {}
        cs := by
  by_cases hc : c = '\''
  · subst hc
    rw [if_pos rfl, List.cons_append, List.cons_append, List.nil_append, readSingle]
    rfl
  · rw [if_neg hc, List.singleton_append, readSingle, if_neg (by simp [hbreak, hwhite]),
      if_neg (by simp [hp]), if_neg hc]
    · rfl
    · exact fun _ he => absurd he hc

/-- A character of a word is read behind the indentation of its line, if a line begins with it. What
follows is not at the start of a line. -/
theorem readSingle_word (hindent : 0 < indent) (hbreak : isBreak c = false)
    (hwhite : isWhite c = false) (hp : s.broken = false → p.column ≠ 0) (done cs : List Char) :
    let text := (if s.broken then spaces indent else []) ++
      (if c = '\'' then ['\'', '\''] else [c])
    (p.behind text).column ≠ 0 ∧
      readSingle p done s (text ++ cs) =
        readSingle (p.behind text) (c :: s.before done) {} cs := by
  have hcolumn : (p.behind (if s.broken then spaces indent else [])).column ≠ 0 := by
    split
    · rw [column_behind_spaces]
      omega
    · rename_i hb
      exact hp (by simpa using hb)
  have hquote : isBreak '\'' = false := rfl
  have hunbroken : ∀ x ∈ if c = '\'' then ['\'', '\''] else [c], isBreak x = false := by
    split
    · simpa using hquote
    · simpa using hbreak
  dsimp only
  rw [Position.behind_append]
  refine ⟨?_, ?_⟩
  · rw [Position.column_behind _ hunbroken]
    omega
  · rw [List.append_assoc, readSingle_indentation, readSingle_char hbreak hwhite hcolumn]

theorem readSingle_end (hrest : rest.head? ≠ some '\'') :
    readSingle p done s ('\'' :: rest) =
      some ((s.before done).reverse, ⟨rest, p.after '\'', false, 0⟩) := by
  rw [readSingle, if_neg (by decide), if_neg (by simp [isDivider]), if_pos rfl]
  rintro cs - rfl
  exact hrest rfl

/-- A text between single quotes is read up to the quote at its end, whatever follows. -/
theorem readSingle_printSingle (hindent : 0 < indent) (hrest : rest.head? ≠ some '\'')
    (h : IsSingle cs) (hs : s.Joins cs) (hp : s.broken = false → p.column ≠ 0) (done : List Char) :
    readSingle p done s (printSingle indent s.broken cs ++ '\'' :: rest) =
      some ((s.before done).reverse ++ cs,
        ⟨rest, p.behind (printSingle indent s.broken cs ++ ['\'']), false, 0⟩) := by
  -- Line breaks and spaces are kept back until it is clear what they stand for, so the induction is
  -- for any space which was read before.
  induction cs generalizing p done s with
  | nil =>
    rw [printSingle, readSingle_indentation, readSingle_end hrest]
    simp
  | cons c cs ih =>
    have hbefore := h.before
    have hbehind := h.behind
    rw [hasPair_cons, Bool.or_eq_false_iff] at hbefore hbehind
    rw [printSingle]
    by_cases hbreak : isBreak c = true
    · have hc : c ≠ '\n' := fun he => h.noFeed (he ▸ List.mem_cons_self)
      have hnext : cs.head? ≠ some ' ' := by
        intro he
        simp [hbreak, he] at hbehind
      obtain ⟨hjoins, hbroken, htext⟩ := hs.push_break hbreak hc hnext done
      have htail := ih (p := p.after c) (s := s.push c) h.tail hjoins (by simp [hbroken]) done
      rw [hbroken] at htail
      rw [if_pos hbreak, List.cons_append, readSingle_push (by simp [hbreak]), htail, htext]
      simp
    rw [Bool.not_eq_true] at hbreak
    rw [if_neg (by simp [hbreak])]
    by_cases hspace : c = ' '
    · subst hspace
      cases hs with
      | breaks b bs hb hhead => exact absurd rfl hhead
      | blanks ws hws =>
        have hjoins : Space.Joins cs { blanks := ws ++ [' '] } :=
          .blanks _ fun _ => by simpa using hbefore.1
        have hcolumn : (p.after ' ').column ≠ 0 := by
          rw [Position.column_after p hbreak]
          omega
        have htail := ih h.tail hjoins (fun _ => hcolumn) done
        have hpush : Space.push { blanks := ws } ' ' = { blanks := ws ++ [' '] } := rfl
        simp only [Bool.false_eq_true, if_false, List.nil_append] at htail ⊢
        rw [if_neg (by decide), List.singleton_append, List.cons_append, readSingle_push rfl, hpush,
          htail]
        simp
    · have hwhite : isWhite c = false := by
        have htab : c ≠ '\t' := fun he => h.noTab (he ▸ List.mem_cons_self)
        simp [isWhite, hspace, htab]
      obtain ⟨hnext, hword⟩ := readSingle_word hindent hbreak hwhite hp done
        (printSingle indent false cs ++ '\'' :: rest)
      rw [List.append_assoc, hword,
        ih h.tail (Space.joins_empty cs) (fun _ => hnext) (c :: s.before done)]
      simp

/-! ## Escapes -/

/-- A character of one byte which is not a control character. -/
def isVisible (c : Char) : Bool :=
  0x20 ≤ c.toNat && c.toNat ≤ 0x7E

theorem not_isBreak_of_isVisible (h : isVisible c = true) : isBreak c = false := by
  rw [isBreak, Bool.or_eq_false_iff, Bool.or_eq_false_iff]
  refine ⟨⟨?_, ?_⟩, ?_⟩
  all_goals
    rw [decide_eq_false_iff_not]
    rintro rfl
    cases h

theorem utf8Size_of_isVisible (h : isVisible c = true) : c.utf8Size = 1 := by
  rw [isVisible, Bool.and_eq_true, decide_eq_true_iff, decide_eq_true_iff] at h
  exact Char.utf8Size_eq_one_iff.2 (UInt32.le_iff_toNat_le.2 (Nat.le_succ_of_le h.2))

theorem Position.behind_of_isVisible (p : Position) (h : ∀ c ∈ cs, isVisible c = true) :
    p.behind cs =
      { p with column := p.column + cs.length, offset := p.offset + cs.length } := by
  induction cs generalizing p with
  | nil => rfl
  | cons c cs ih =>
    obtain ⟨hc, hcs⟩ := List.forall_mem_cons.1 h
    rw [behind_cons, ih _ hcs, after, not_isBreak_of_isVisible hc, utf8Size_of_isVisible hc]
    simp only [Bool.false_eq_true, if_false, List.length_cons, mk.injEq, true_and]
    omega

theorem digit?_hexDigit : ∀ v < 16, Decimal.digit? 16 (hexDigit v) = some v := by
  decide

theorem isVisible_hexDigit : ∀ v < 16, isVisible (hexDigit v) = true := by
  decide

theorem digits?_hexDigits (n k : Nat) :
    Decimal.digits? 16 (hexDigits n (k + 1)) = some (n % 16 ^ (k + 1)) := by
  induction k generalizing n with
  | zero => exact Decimal.digits?_singleton (digit?_hexDigit _ (Nat.mod_lt n (by decide)))
  | succ k ih =>
    have hmod : n % 16 ^ (k + 2) = n / 16 % 16 ^ (k + 1) * 16 + n % 16 := by
      rw [Nat.pow_succ', Nat.mod_mul, Nat.mul_comm, Nat.add_comm]
    rw [hexDigits, Decimal.digits?_concat (ih _) (digit?_hexDigit _ (Nat.mod_lt n (by decide))),
      hmod]

theorem length_hexDigits (n count : Nat) : (hexDigits n count).length = count := by
  induction count generalizing n with
  | zero => rfl
  | succ count ih => rw [hexDigits, List.length_append, ih, List.length_singleton]

theorem isVisible_of_mem_hexDigits {count : Nat} (h : c ∈ hexDigits n count) :
    isVisible c = true := by
  induction count generalizing n with
  | zero => cases h
  | succ count ih =>
    rcases List.mem_append.1 h with h | h
    · exact ih h
    · rw [List.mem_singleton.1 h]
      exact isVisible_hexDigit _ (Nat.mod_lt n (by decide))

/-- What stands behind the backslash stands for a character, whatever follows. -/
structure Escapes (c : Char) (code : List Char) : Prop where
  visible : ∀ x ∈ code, isVisible x = true
  escaped : ∀ rest, escaped? (code ++ rest) = some (c, code.length)

theorem escapes_name {name : Char} (hvisible : isVisible name = true) (hcount : digitCount name = 0)
    (hname : named? name = some c) : Escapes c [name] where
  visible := by simpa using hvisible
  escaped rest := by simp [escaped?, hcount, hname]

theorem escapes_number {letter : Char} {k : Nat} (hvisible : isVisible letter = true)
    (hcount : digitCount letter = k + 1) (hc : c.toNat < 16 ^ (k + 1)) :
    Escapes c (letter :: hexDigits c.toNat (k + 1)) where
  visible x hx := by
    rcases List.mem_cons.1 hx with rfl | hx
    · exact hvisible
    · exact isVisible_of_mem_hexDigits hx
  escaped rest := by
    have htake : (hexDigits c.toNat (k + 1) ++ rest).take (k + 1) = hexDigits c.toNat (k + 1) :=
      List.take_left' (length_hexDigits _ _)
    have hchar : char? c.toNat = some c := by
      rw [char?, Char.ofNat_toNat]
      exact if_pos c.valid
    simp only [List.cons_append, escaped?, hcount]
    rw [htake, if_neg (by simp [length_hexDigits]), digits?_hexDigits, Nat.mod_eq_of_lt hc,
      Option.bind_some, hchar, Option.map_some, List.length_cons, length_hexDigits, Nat.add_comm]

theorem two_le_utf8Size (h : 0xFF < c.toNat) : 2 ≤ c.utf8Size := by
  have hpos := c.utf8Size_pos
  have hone : c.utf8Size ≠ 1 := fun he => by
    have : c.toNat ≤ 0x7F := UInt32.le_iff_toNat_le.1 (Char.utf8Size_eq_one_iff.1 he)
    omega
  omega

theorem utf8Size_of_lt (h : 0xFFFF < c.toNat) : c.utf8Size = 4 :=
  Char.utf8Size_eq_four_iff.2 (UInt32.lt_iff_toNat_lt.2 h)

/-- An escape takes no more than four times the bytes of the character itself. -/
theorem exists_escape (c : Char) :
    ∃ code, printEscape c = '\\' :: code ∧ Escapes c code ∧ code.length + 1 ≤ 4 * c.utf8Size := by
  have hsize := c.utf8Size_pos
  unfold printEscape
  split
  -- Without a name of its own the character is escaped by its number, at three widths.
  case h_15 =>
    dsimp only
    split
    · refine ⟨_, rfl, escapes_number rfl rfl (by omega), ?_⟩
      rw [List.append_eq, List.length_append, length_hexDigits, List.length_singleton]
      omega
    · split
      · have htwo : 2 ≤ c.utf8Size := two_le_utf8Size (by omega)
        refine ⟨_, rfl, escapes_number rfl rfl (by omega), ?_⟩
        rw [List.append_eq, List.length_append, length_hexDigits, List.length_singleton]
        omega
      · have hfour : c.utf8Size = 4 := utf8Size_of_lt (by omega)
        have hlt : c.toNat < 16 ^ 8 := c.val.toNat_lt
        refine ⟨_, rfl, escapes_number rfl rfl hlt, ?_⟩
        rw [List.append_eq, List.length_append, length_hexDigits, List.length_singleton]
        omega
  all_goals
    refine ⟨_, rfl, escapes_name rfl rfl rfl, ?_⟩
    rw [List.length_singleton]
    omega

/-! ## Between double quotes -/

/-- A character which is not escaped is part of a word, or a space. -/
theorem printDouble_cases (c : Char) :
    (printDouble c = printEscape c) ∨
      printDouble c = [c] ∧ isBreak c = false ∧ c ≠ '\t' ∧ c ≠ '"' ∧ c ≠ '\\' := by
  rw [printDouble]
  split
  · exact .inl rfl
  · rename_i h
    simp only [Bool.or_eq_true, Bool.not_eq_true', decide_eq_true_iff, not_or, Bool.not_eq_true,
      Bool.not_eq_false] at h
    obtain ⟨⟨⟨hprintable, hbreak⟩, hquote⟩, hslash⟩ := h
    refine .inr ⟨rfl, hbreak, ?_, hquote, hslash⟩
    rintro rfl
    cases hprintable

theorem readDouble_char (hbreak : isBreak c = false) (hwhite : isWhite c = false)
    (hp : p.column ≠ 0) (hquote : c ≠ '"') (hslash : c ≠ '\\') :
    readDouble p done s (c :: cs) = readDouble (p.after c) (c :: s.before done) {} cs := by
  rw [readDouble.eq_def]
  simp [hbreak, hwhite, hp, hquote, hslash]

theorem readDouble_push (h : (isBreak c || isWhite c) = true) :
    readDouble p done s (c :: cs) = readDouble (p.after c) done (s.push c) cs := by
  rw [readDouble.eq_def]
  simp [h]

theorem readDouble_end (hp : p.column ≠ 0) :
    readDouble p done s ('"' :: rest) =
      some ((s.before done).reverse, ⟨rest, p.after '"', false, 0⟩) := by
  rw [readDouble.eq_def]
  simp [isBreak, isWhite, hp]

theorem readDouble_escape (hp : p.column ≠ 0) (hc : Escapes c code) :
    readDouble p done s ('\\' :: code ++ cs) =
      readDouble (p.behind ('\\' :: code)) (c :: s.before done) {} cs := by
  have hescaped := hc.escaped cs
  have hbehind : p.behind ('\\' :: code) = _ :=
    p.behind_of_isVisible (List.forall_mem_cons.2 ⟨rfl, hc.visible⟩)
  cases code with
  | nil => cases hc.escaped []
  | cons b code =>
    have hb : isBreak b = false := not_isBreak_of_isVisible (hc.visible b List.mem_cons_self)
    -- The escape is dropped as a whole, whatever its length.
    have hdrop : (b :: (code ++ cs)).drop (b :: code).length = cs := by
      simp
    rw [hbehind, readDouble.eq_def]
    simp only [List.cons_append] at hescaped ⊢
    rw [if_neg (by decide), if_neg (by simp [hp]), if_neg (by decide), if_pos trivial,
      if_neg (by simp [hb])]
    simp only [hescaped, hdrop]
    simp [Nat.add_assoc, Nat.add_comm]

/-- A text between double quotes is read up to the quote at its end, whatever follows. -/
theorem readDouble_printDouble (cs rest : List Char) (hp : p.column ≠ 0) (done : List Char) :
    readDouble p done { blanks := spaces n } (cs.flatMap printDouble ++ '"' :: rest) =
      some (done.reverse ++ spaces n ++ cs,
        ⟨rest, p.behind (cs.flatMap printDouble ++ ['"']), false, 0⟩) := by
  induction cs generalizing p done n with
  | nil =>
    rw [List.flatMap_nil, List.nil_append, readDouble_end hp]
    simp
  | cons c cs ih =>
    have hempty : ({} : Space) = { blanks := spaces 0 } := rfl
    rw [List.flatMap_cons, List.append_assoc]
    rcases printDouble_cases c with hc | ⟨hc, hbreak, htab, hquote, hslash⟩
    · obtain ⟨code, hprint, hcode, -⟩ := exists_escape c
      have hcolumn : (p.behind ('\\' :: code)).column ≠ 0 := by
        rw [p.behind_of_isVisible (List.forall_mem_cons.2 ⟨rfl, hcode.visible⟩)]
        simp
      rw [hc, hprint, readDouble_escape hp hcode, hempty, ih hcolumn]
      simp [spaces]
    · have hcolumn : (p.after c).column ≠ 0 := by
        rw [Position.column_after p hbreak]
        omega
      rw [hc, List.singleton_append]
      -- A blank is held back and counted; anything else puts those held back before itself.
      by_cases hspace : c = ' '
      · subst hspace
        rw [readDouble_push rfl, Space.push_space, ih hcolumn]
        simp [spaces, List.replicate_succ']
      · have hwhite : isWhite c = false := by simp [isWhite, hspace, htab]
        rw [readDouble_char hbreak hwhite hp hquote hslash, hempty, ih hcolumn]
        simp [spaces]

end NetworkLoading.Yaml
