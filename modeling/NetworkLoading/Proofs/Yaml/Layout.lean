import NetworkLoading.Proofs.Yaml.Keys

/-!
# Collections in lines

What is written in lines is read back: the value of a key, a sequence and a mapping. The budget of
the readers is enough.
-/

namespace NetworkLoading.Yaml

variable {text rest tail w : List Char} {p q : Position} {c after : Cursor} {node : Node}
  {entry : Node × Node} {keys : Bool} {least column d budget : Nat}

/-! ## Nodes -/

/-- What follows something in a column: it is in this column or before it, and it is no further
element of a sequence in this column. -/
structure Follows (column d : Nat) (tail : List Char) : Prop where
  le : d ≤ column
  opens : Opens tail
  notItem : d = column → Cursor.atIndicator { rest := tail } '-' = false

/-- A key does not extend to another line. -/
theorem not_isKey_of_line_lt (hgap : after.gap = .fresh q tail) (h : c.pos.line < q.line) :
    c.isKey after = false := by
  rw [Cursor.isKey, hgap]
  simp [Cursor.closes, Nat.ne_of_gt h]

/-- What takes up its lines is no key. -/
theorem readNode_of_readInline (hitem : c.atIndicator '-' = false)
    (hmark : c.atIndicator '?' = false)
    (h : Yields (readInline least c budget) node (.fresh q tail)) (hline : c.pos.line < q.line) :
    Yields (readNode least c (budget + 1)) node (.fresh q tail) := by
  obtain ⟨after, hread, hgap⟩ := h
  refine ⟨after, ?_, hgap⟩
  rw [readNode, if_neg (by simp [hitem]), if_neg (by simp [hmark]), hread, Option.bind_some]
  simp [not_isKey_of_line_lt hgap hline]

/-- What is indented more than a key is its value. -/
theorem readOptional_eq (hp : column < c.column) (hne : c.rest ≠ []) (budget : Nat) :
    readOptional column c (budget + 1) = readNode (column + 1) c budget := by
  have hended : c.ended = false := by
    simp [Cursor.ended, hne, Nat.ne_of_gt (Nat.zero_lt_of_lt hp)]
  rw [readOptional, if_neg (by simp [hended]), if_neg (by simp [Nat.ne_of_gt hp]),
    if_pos (by simp [Cursor.inside, hp])]

theorem ReadsScalar.readNode (h : ReadsScalar least text node) (hd : d < least) (ht : Opens tail)
    (hp : p.column ≠ 0) (hb : 2 ≤ budget) :
    Yields (readNode least ⟨text ++ (spaces d ++ tail), p, keys, 0⟩ budget) node
      (.fresh (p.behind (text ++ spaces d)) tail) := by
  obtain ⟨budget, rfl⟩ := Nat.exists_eq_add_of_le' hb
  have hbegins := h.begins.append (spaces d ++ tail)
  refine readNode_of_readInline (hbegins.atIndicator (.inl rfl)) (hbegins.atIndicator (.inr rfl)) ?_
    (line_lt_behind_line p h.ends d)
  rw [hbegins.readInline_eq (.inl hp)]
  exact h.reads hd ht

/-! ## Values -/

/-- What stands behind the colon of a key is read back as its value. -/
structure ReadsValue (column : Nat) (text : List Char) (node : Node) : Prop where
  wordEnds : wordEnds text = true
  ends : EndsLine text
  reads {p : Position} {keys : Bool} {d : Nat} {tail : List Char} {budget : Nat}
    (hp : column < p.column) (h : Follows column d tail) (hb : 4 * text.length ≤ budget) :
    Yields (readOptional column (Cursor.gap ⟨text ++ (spaces d ++ tail), p, keys, 0⟩) budget) node
      (.fresh (p.behind (text ++ spaces d)) tail)

theorem ReadsValue.wordEnds_append (h : ReadsValue column text node) (rest : List Char) :
    Yaml.wordEnds (text ++ rest) = true := by
  cases text with
  | nil => cases h.ends
  | cons c cs => exact h.wordEnds

theorem ReadsScalar.readsValue (h : ReadsScalar (column + 1) text node) :
    ReadsValue column (' ' :: text) node where
  wordEnds := rfl
  ends := h.ends.cons ' '
  reads {p keys d tail budget} hp hfollows hb := by
    have hlength := List.length_pos_of_ne_nil h.begins.ne_nil
    obtain ⟨budget, rfl⟩ : ∃ b, budget = b + 1 := Nat.exists_eq_add_of_le' (by simp at hb; omega)
    have hbegins := h.begins.append (spaces d ++ tail)
    have hcolumn : column < (p.after ' ').column := by
      rw [Position.column_after p rfl]
      omega
    rw [List.cons_append, gap_space hbegins.opens, readOptional_eq hcolumn hbegins.ne_nil]
    have hread : Yields (Yaml.readNode (column + 1)
        ⟨text ++ (spaces d ++ tail), p.after ' ', keys, 0⟩ budget) node
        (.fresh ((p.after ' ').behind (text ++ spaces d)) tail) :=
      h.readNode (Nat.lt_succ_of_le hfollows.le) hfollows.opens
        (Nat.ne_of_gt (Nat.zero_lt_of_lt hcolumn)) (by simp at hb; omega)
    simpa using hread

/-! ## Empty collections -/

theorem readInline_brackets (hp : p.column ≠ 0) (rest : List Char) (budget : Nat) :
    readInline least ⟨'[' :: ']' :: rest, p, keys, 0⟩ (budget + 2) =
      some (.sequence [], ⟨rest, (p.after '[').after ']', false, 0⟩) := by
  rw [readInline, if_neg (by simp [Cursor.ended, Cursor.column, hp])]
  rfl

theorem readInline_braces (hp : p.column ≠ 0) (rest : List Char) (budget : Nat) :
    readInline least ⟨'\x7b' :: '\x7d' :: rest, p, keys, 0⟩ (budget + 2) =
      some (.mapping [], ⟨rest, (p.after '\x7b').after '\x7d', false, 0⟩) := by
  rw [readInline, if_neg (by simp [Cursor.ended, Cursor.column, hp])]
  rfl

/-- A collection without elements is written between brackets. -/
theorem readsValue_empty {opening closing : Char} (hopening : opening ∈ ['[', '\x7b'])
    (hread : ∀ (least : Nat) (p : Position) (keys : Bool), p.column ≠ 0 → ∀ rest budget,
      readInline least ⟨opening :: closing :: rest, p, keys, 0⟩ (budget + 2) =
        some (node, ⟨rest, (p.after opening).after closing, false, 0⟩)) :
    ReadsValue column [' ', opening, closing, '\n'] node where
  wordEnds := rfl
  ends := endsLine_break.append [' ', opening, closing]
  reads {p keys d tail budget} hp hfollows hb := by
    obtain ⟨budget, rfl⟩ : ∃ b, budget = b + 4 := Nat.exists_eq_add_of_le' (by simp at hb; omega)
    -- Neither bracket is a hyphen or a question mark, so the node is read in line.
    have htoken : isToken opening = true ∧ opening ≠ '-' ∧ opening ≠ '?' := by
      simp only [List.mem_cons, List.not_mem_nil, or_false] at hopening
      rcases hopening with rfl | rfl <;> decide
    have hopens : Opens (opening :: closing :: '\n' :: (spaces d ++ tail)) := by
      simpa [Opens] using htoken.1
    have hcolumn : column < (p.after ' ').column := by
      rw [Position.column_after p rfl]
      omega
    have hindicator (ch : Char) (hch : opening ≠ ch) : Cursor.atIndicator
        ⟨opening :: closing :: '\n' :: (spaces d ++ tail), p.after ' ', keys, 0⟩ ch = false := by
      simp [Cursor.atIndicator, hch]
    have hgap := gap_line hfollows.opens (((p.after ' ').after opening).after closing) false d
    have hlist : [' ', opening, closing, '\n'] ++ (spaces d ++ tail) =
        ' ' :: opening :: closing :: '\n' :: (spaces d ++ tail) := rfl
    rw [hlist, gap_space hopens, readOptional_eq hcolumn (by simp)]
    refine readNode_of_readInline (hindicator _ htoken.2.1) (hindicator _ htoken.2.2)
      ⟨_, hread _ _ _ (Nat.ne_of_gt (Nat.zero_lt_of_lt hcolumn)) _ _, hgap⟩ ?_
    exact line_lt_behind_line _ (endsLine_break.append [opening, closing]) d

/-! ## Sequences -/

/-- Lines which begin in a column, one row for each of some things. -/
def printRows {α : Type} (column : Nat) (print : α → List Char) (xs : List α) : List Char :=
  xs.flatMap fun x => spaces column ++ print x

/-- An element of a sequence, which stands in a column of its own. -/
def printItem (column : Nat) (s : String) : List Char :=
  '-' :: ' ' :: printText (column + 2) s

theorem readsScalar_item (column : Nat) (s : String) :
    ReadsScalar (column + 1) (printText (column + 2) s) (.ofText s) :=
  readsScalar_printText s (Nat.succ_pos column)

theorem endsLine_printItem (column : Nat) (s : String) : EndsLine (printItem column s) :=
  ((readsScalar_item column s).ends.cons ' ').cons '-'

theorem opens_printItem (column : Nat) (s : String) (rest : List Char) :
    Opens (printItem column s ++ rest) := by
  rintro c ⟨⟩
  rfl

theorem ended_printItem (column : Nat) (s : String) :
    Cursor.ended (.fresh p (printItem column s ++ rest)) = false := by
  simp [Cursor.ended, printItem, isDivider]

theorem atIndicator_printItem (column : Nat) (s : String) :
    Cursor.atIndicator (.fresh p (printItem column s ++ rest)) '-' = true :=
  rfl

theorem three_le_length_printItem (column : Nat) (s : String) :
    3 ≤ (printItem column s).length := by
  have hlength := List.length_pos_of_ne_nil (readsScalar_item column s).begins.ne_nil
  simp only [printItem, List.length_cons]
  omega

/-- One element is read, up to what follows. -/
theorem readSequence_item (s : String) (hp : p.column = column) (hd : d ≤ column) (ht : Opens tail)
    (hb : 2 ≤ budget) :
    readSequence true column (.fresh p (printItem column s ++ (spaces d ++ tail))) (budget + 1) =
      let c := Cursor.fresh (p.behind (printItem column s ++ spaces d)) tail
      if !c.ended && c.column = column && c.atIndicator '-' then
        (readSequence true column c budget).map fun r => (.ofText s :: r.1, r.2)
      else some ([.ofText s], c) := by
  have hitem := readsScalar_item column s
  have hbegins := hitem.begins.append (spaces d ++ tail)
  have hcolumn : ((p.after '-').after ' ').column = column + 2 := by
    rw [Position.column_after _ rfl, Position.column_after _ rfl, hp]
  have hgap : ((Cursor.fresh p (printItem column s ++ (spaces d ++ tail))).past true).gap =
      .fresh ((p.after '-').after ' ') (printText (column + 2) s ++ (spaces d ++ tail)) :=
    gap_space hbegins.opens _ _
  -- The text stands to the right of its hyphen, so the item is not empty.
  have hended : Cursor.ended (.fresh ((p.after '-').after ' ')
      (printText (column + 2) s ++ (spaces d ++ tail))) = false := by
    simp [Cursor.ended, hcolumn, hitem.begins.ne_nil]
  obtain ⟨after, hread, hafter⟩ : Yields (readNode (column + 1) (.fresh ((p.after '-').after ' ')
      (printText (column + 2) s ++ (spaces d ++ tail))) budget) (.ofText s)
      (.fresh (p.behind (printItem column s ++ spaces d)) tail) :=
    hitem.readNode (Nat.lt_succ_of_le hd) ht (by omega) hb
  rw [readSequence, hgap, if_pos (by simp [hended, Cursor.inside, hcolumn]), hread]
  simp only [Option.bind_eq_bind, Option.bind_some, hafter, Bool.true_or, if_true]
  split
  · rw [Cursor.keys_fresh, if_pos rfl]
    cases readSequence true column _ budget <;> rfl
  · rfl

/-- The elements of a sequence are read up to what is no further element. -/
theorem readSequence_items {s : String} {items : List String} (hp : p.column = column)
    (h : Follows column d tail)
    (hb : 4 * (printItem column s ++ printRows column (printItem column) items).length ≤ budget) :
    Yields
      (readSequence true column (.fresh p
        (printItem column s ++ (printRows column (printItem column) items ++ (spaces d ++ tail))))
        budget)
      ((s :: items).map .ofText)
      (.fresh
        (p.behind (printItem column s ++ printRows column (printItem column) items ++ spaces d))
        tail) := by
  -- The list goes on as long as the next line starts in its column with a hyphen. What is left of
  -- the budget is enough for the items which are left.
  induction items generalizing s p budget with
  | nil =>
    have hlength := three_le_length_printItem column s
    obtain ⟨budget, rfl⟩ : ∃ b, budget = b + 1 :=
      Nat.exists_eq_add_of_le' (by simp at hb; omega)
    have hcolumn : (p.behind (printItem column s ++ spaces d)).column = d :=
      column_behind_line p (endsLine_printItem column s) d
    simp only [printRows, List.flatMap_nil, List.append_nil, List.nil_append] at hb ⊢
    rw [readSequence_item s hp h.le h.opens (by omega)]
    refine ⟨_, if_neg fun hmore => ?_, gap_fresh h.opens⟩
    simp only [Bool.and_eq_true, decide_eq_true_iff, Cursor.column_fresh, hcolumn] at hmore
    exact absurd (hmore.2.symm.trans (h.notItem hmore.1.2)) (by decide)
  | cons next items ih =>
    have hlength := three_le_length_printItem column s
    obtain ⟨budget, rfl⟩ : ∃ b, budget = b + 1 :=
      Nat.exists_eq_add_of_le' (by simp at hb; omega)
    have hcolumn : (p.behind (printItem column s ++ spaces column)).column = column :=
      column_behind_line p (endsLine_printItem column s) column
    have hbudget :
        4 * (printItem column next ++ printRows column (printItem column) items).length ≤
          budget := by
      simp [printRows] at hb ⊢
      omega
    have hrest := ih hcolumn hbudget
    have hlist : printItem column s ++ (printRows column (printItem column) (next :: items) ++
        (spaces d ++ tail)) = printItem column s ++ (spaces column ++ (printItem column next ++
          (printRows column (printItem column) items ++ (spaces d ++ tail)))) := by
      simp [printRows]
    rw [hlist, readSequence_item s hp (Nat.le_refl column) (opens_printItem column next _)
      (by simp at hb; omega)]
    dsimp only
    rw [if_pos]
    · simpa [printRows] using hrest.map (.ofText s :: ·)
    · rw [Cursor.column_fresh, hcolumn, ended_printItem, atIndicator_printItem]
      simp

/-- A sequence begins on the line behind its key, in the column of the key. -/
theorem readsValue_sequence (column : Nat) (s : String) (items : List String) :
    ReadsValue column ('\n' :: printRows column (printItem column) (s :: items))
      (.sequence ((s :: items).map .ofText)) where
  wordEnds := rfl
  ends := .cons (.flatMap (fun s _ => (endsLine_printItem column s).append _) (by simp)) '\n'
  reads {p keys d tail budget} _ hfollows hb := by
    obtain ⟨budget, rfl⟩ : ∃ b, budget = b + 1 := Nat.exists_eq_add_of_le' (by simp at hb; omega)
    have hcolumn : (p.behind ('\n' :: spaces column)).column = column :=
      column_behind_line p endsLine_break column
    have hlist : '\n' :: printRows column (printItem column) (s :: items) ++ (spaces d ++ tail) =
        '\n' :: (spaces column ++ (printItem column s ++
          (printRows column (printItem column) items ++ (spaces d ++ tail)))) := by
      simp [printRows]
    have hbudget :
        4 * (printItem column s ++ printRows column (printItem column) items).length ≤ budget := by
      simp [printRows] at hb ⊢
      omega
    have hread := readSequence_items hcolumn hfollows hbudget
    rw [hlist, gap_line (opens_printItem column s _), readOptional, ended_printItem,
      atIndicator_printItem, Cursor.column_fresh, hcolumn, Cursor.keys_fresh]
    simpa [printRows] using hread.map Node.sequence

/-! ## Entries -/

/-- The lines of a key with its value, in a column of its own. They are read back, whatever follows
that is no element of a sequence, and a mapping may begin with them. -/
structure ReadsEntry (column : Nat) (text : List Char) (entry : Node × Node) : Prop where
  opens : text.head?.any isToken = true
  notItem (rest : List Char) : Cursor.atIndicator { rest := text ++ rest } '-' = false
  notDivider (rest : List Char) : column = 0 → isDivider (text ++ rest) = false
  ends : EndsLine text
  reads {p : Position} {d : Nat} {tail : List Char} {budget : Nat} (hp : p.column = column)
    (h : Follows column d tail) (hb : 4 * text.length ≤ budget) :
    Yields (readEntry column (.fresh p (text ++ (spaces d ++ tail))) budget) entry
      (.fresh (p.behind (text ++ spaces d)) tail)
  starts {p : Position} {rest : List Char} {least budget : Nat} (hp : p.column = column)
    (hb : budget ≠ 0) :
    readNode least (.fresh p (text ++ rest)) (budget + 1) =
      (readMapping column (.fresh p (text ++ rest)) budget).map fun r => (.mapping r.1, r.2)

theorem opens_colon (rest : List Char) : Opens (':' :: rest) := by
  rintro c ⟨⟩
  rfl

namespace KeyText

/-- A colon behind a short scalar in front of it makes this scalar a key. -/
theorem isKey (h : KeyText w node) (hrest : wordEnds rest = true) (p : Position) :
    Cursor.isKey (.fresh p (w ++ ':' :: rest)) ⟨':' :: rest, p.behind w, false, 0⟩ = true := by
  have hline : (p.behind w).line = p.line := by
    rw [Position.line_behind, List.countP_eq_zero.2 (by simpa using h.unbroken), Nat.add_zero]
  have hoffset : (p.behind w).offset ≤ p.offset + keyLimit := by
    rw [Position.offset_behind]
    exact Nat.add_le_add_left h.short _
  rw [Cursor.isKey, gap_of_opens (opens_colon rest)]
  simp [Cursor.atIndicator, Cursor.closes, hrest, hline, hoffset]

theorem readInline_eq (h : KeyText w node) (hrest : wordEnds rest = true)
    (hp : p.column = 0 → isDivider (w ++ ':' :: rest) = false) (least budget : Nat) :
    readInline least (.fresh p (w ++ ':' :: rest)) (budget + 1) =
      some (node, ⟨':' :: rest, p.behind w, false, 0⟩) := by
  refine ((h.begins.append _).readInline_eq ?_ least budget).trans (h.atColon hrest)
  by_cases hc : p.column = 0
  · exact .inr (hp hc)
  · exact .inl hc

/-- The value of a key is what stands behind its colon. -/
theorem readEntry_eq (h : KeyText w node) (hrest : wordEnds rest = true)
    (hp : p.column = 0 → isDivider (w ++ ':' :: rest) = false) (column budget : Nat) :
    readEntry column (.fresh p (w ++ ':' :: rest)) (budget + 2) =
      (readOptional column (Cursor.gap ⟨rest, (p.behind w).after ':', false, 0⟩) (budget + 1)).map
        fun r => ((node, r.1), r.2) := by
  have hmark : Cursor.atIndicator (.fresh p (w ++ ':' :: rest)) '?' = false :=
    (h.begins.append _).atIndicator (.inr rfl)
  have hpast : Cursor.past ⟨':' :: rest, p.behind w, false, 0⟩ false =
      ⟨rest, (p.behind w).after ':', false, 0⟩ := rfl
  rw [readEntry, if_neg (by simp [hmark]), h.readInline_eq hrest hp, Option.bind_eq_bind,
    Option.bind_some]
  dsimp only
  rw [h.isKey hrest, gap_of_opens (opens_colon rest), hpast]
  cases readOptional column _ (budget + 1) <;> rfl

/-- A mapping begins with a key. -/
theorem readNode_eq (h : KeyText w node) (hrest : wordEnds rest = true)
    (hp : p.column = 0 → isDivider (w ++ ':' :: rest) = false) (least budget : Nat) :
    readNode least (.fresh p (w ++ ':' :: rest)) (budget + 2) =
      (readMapping p.column (.fresh p (w ++ ':' :: rest)) (budget + 1)).map
        fun r => (.mapping r.1, r.2) := by
  have hscalar := h.begins.append (':' :: rest)
  have hitem : Cursor.atIndicator (.fresh p (w ++ ':' :: rest)) '-' = false :=
    hscalar.atIndicator (.inl rfl)
  have hmark : Cursor.atIndicator (.fresh p (w ++ ':' :: rest)) '?' = false :=
    hscalar.atIndicator (.inr rfl)
  rw [readNode, if_neg (by simp [hitem]), if_neg (by simp [hmark]), h.readInline_eq hrest hp,
    Option.bind_some]
  dsimp only
  rw [h.isKey hrest]
  rfl

end KeyText

/-- A key which stands in front of its colon, with its value. -/
theorem readsEntry_key {key value : Node} (hkey : KeyText w key)
    (hvalue : ReadsValue column text value)
    (hdivider : ∀ rest, column = 0 → isDivider (w ++ ':' :: rest) = false) :
    ReadsEntry column (w ++ ':' :: text) (key, value) := by
  have hlist (rest : List Char) : w ++ ':' :: text ++ rest = w ++ ':' :: (text ++ rest) := by simp
  refine ⟨(hkey.begins.append _).head?_any, fun rest => ?_, fun rest hc => ?_,
    (hvalue.ends.cons ':').append w, fun {p d tail budget} hp h hb => ?_,
    fun {p rest least budget} hp hb => ?_⟩
  · rw [hlist]
    exact (hkey.begins.append _).atIndicator (.inl rfl)
  · rw [hlist]
    exact hdivider _ hc
  · obtain ⟨budget, rfl⟩ : ∃ b, budget = b + 2 := Nat.exists_eq_add_of_le' (by simp at hb; omega)
    -- The key and its colon take up room, so the value stands behind the column of the key.
    have hcolumn : column < ((p.behind w).after ':').column := by
      rw [Position.column_after _ rfl, Position.column_behind _ hkey.unbroken]
      omega
    have hread := @ReadsValue.reads _ _ _ hvalue _ false _ _ (budget + 1) hcolumn h
      (by simp at hb; omega)
    rw [hlist, hkey.readEntry_eq (hvalue.wordEnds_append _) fun hc => hdivider _ (hp ▸ hc)]
    simpa using hread.map (key, ·)
  · obtain ⟨budget, rfl⟩ := Nat.exists_eq_succ_of_ne_zero hb
    rw [hlist, hkey.readNode_eq (hvalue.wordEnds_append _) fun hc => hdivider _ (hp ▸ hc), hp]

/-- Behind a marked key stands a colon in the same column, and behind this the value. -/
theorem readEntry_mark {key : Node} (hq : q.column = column) (hrest : wordEnds rest = true)
    (hkey : Yields (readOptional column (Cursor.gap ⟨text, p.after '?', true, 0⟩) budget) key
      (.fresh q (':' :: rest))) (htext : wordEnds text = true) :
    readEntry column (.fresh p ('?' :: text)) (budget + 1) =
      (readOptional column (Cursor.gap ⟨rest, q.after ':', true, 0⟩) budget).map
        fun r => ((key, r.1), r.2) := by
  obtain ⟨after, hread, hafter⟩ := hkey
  have hmark : Cursor.atIndicator (.fresh p ('?' :: text)) '?' = true := by
    simp [Cursor.atIndicator, htext]
  have hcolon : Cursor.atIndicator (.fresh q (':' :: rest)) ':' = true := by
    simp [Cursor.atIndicator, hrest]
  have hpast : Cursor.past (.fresh p ('?' :: text)) true = ⟨text, p.after '?', true, 0⟩ := rfl
  have hpast' : Cursor.past (.fresh q (':' :: rest)) true = ⟨rest, q.after ':', true, 0⟩ := rfl
  rw [readEntry, if_pos hmark, hpast, hread, Option.bind_eq_bind, Option.bind_some]
  dsimp only
  rw [hafter, if_pos (by simp [hq, hcolon]), hpast']
  cases readOptional column _ budget <;> rfl

/-- A key which is marked has lines of its own, like its value. -/
theorem readsEntry_marked {s : String} {value : Node} (hvalue : ReadsValue column text value) :
    ReadsEntry column ('?' :: ' ' :: printText (column + 2) s ++ spaces column ++ ':' :: text)
      (.ofText s, value) where
  opens := rfl
  notItem _ := rfl
  notDivider _ _ := rfl
  ends := (hvalue.ends.cons ':').append _
  reads {p d tail budget} hp h hb := by
    obtain ⟨budget, rfl⟩ : ∃ b, budget = b + 1 := Nat.exists_eq_add_of_le' (by simp at hb; omega)
    -- The key is read as the value behind the question mark, which the colon of the entry ends.
    have hkey := (readsScalar_item column s).readsValue
    have hcolon : Follows column column (':' :: (text ++ (spaces d ++ tail))) :=
      ⟨Nat.le_refl _, opens_colon _, fun _ => rfl⟩
    have hcolumn : column < (p.after '?').column := by
      rw [Position.column_after p rfl]
      omega
    have hread := @ReadsValue.reads _ _ _ hkey _ true _ _ budget hcolumn hcolon
      (by simp at hb ⊢; omega)
    generalize hq : (p.after '?').behind (' ' :: printText (column + 2) s ++ spaces column) = q
      at hread
    have hqcolumn : q.column = column := by
      rw [← hq]
      exact column_behind_line _ hkey.ends column
    have hcolumn' : column < (q.after ':').column := by
      rw [Position.column_after q rfl]
      omega
    have hread' := @ReadsValue.reads _ _ _ hvalue _ true _ _ budget hcolumn' h
      (by simp at hb ⊢; omega)
    have hlist : '?' :: ' ' :: printText (column + 2) s ++ spaces column ++ ':' :: text ++
        (spaces d ++ tail) = '?' :: (' ' :: printText (column + 2) s ++ (spaces column ++
          ':' :: (text ++ (spaces d ++ tail)))) := by
      simp
    rw [hlist, readEntry_mark hqcolumn (hvalue.wordEnds_append _) hread rfl]
    have hpair := hread'.map (Node.ofText s, ·)
    rw [← hq] at hpair ⊢
    simpa using hpair
  starts {p rest least budget} hp hb := by
    rw [readNode, if_neg (by simp [Cursor.atIndicator]), if_pos (by rfl), if_pos (by rfl),
      Cursor.column_fresh, hp]

/-! ## Mappings -/

theorem ReadsEntry.length_pos (h : ReadsEntry column text entry) : 0 < text.length := by
  refine List.length_pos_of_ne_nil ?_
  rintro rfl
  cases h.opens

theorem ReadsEntry.opens_append (h : ReadsEntry column text entry) (rest : List Char) :
    Opens (text ++ rest) := by
  have hopens := h.opens
  cases text with
  | nil => cases hopens
  | cons c cs => exact opens_of_head?_any hopens

theorem ReadsEntry.follows (h : ReadsEntry column text entry) (rest : List Char) :
    Follows column column (text ++ rest) :=
  ⟨Nat.le_refl _, h.opens_append rest, fun _ => h.notItem rest⟩

theorem ReadsEntry.ended (h : ReadsEntry column text entry) (hp : p.column = column) :
    Cursor.ended (.fresh p (text ++ rest)) = false := by
  have hne := List.ne_nil_of_length_pos h.length_pos
  simpa [Cursor.ended, hne, hp] using h.notDivider rest

/-- One entry is read, up to what follows. -/
theorem readMapping_entry (h : ReadsEntry column text entry) (hp : p.column = column)
    (hfollows : Follows column d tail) (hb : 4 * text.length ≤ budget) :
    readMapping column (.fresh p (text ++ (spaces d ++ tail))) (budget + 1) =
      let c := Cursor.fresh (p.behind (text ++ spaces d)) tail
      if c.ended || c.column < column then some ([entry], c)
      else (readMapping column c budget).map fun r => (entry :: r.1, r.2) := by
  obtain ⟨after, hread, hafter⟩ := h.reads hp hfollows hb
  have hcolumn : (p.behind (text ++ spaces d)).column = d := column_behind_line p h.ends d
  rw [readMapping, if_neg (by simp), hread, Option.bind_eq_bind, Option.bind_some]
  dsimp only
  rw [hafter]
  split
  · rfl
  · rename_i hmore
    simp only [Bool.or_eq_true, decide_eq_true_iff, not_or, Cursor.column_fresh, hcolumn] at hmore
    -- What follows is no deeper than this mapping, so it is one more row of it.
    have hle := hfollows.le
    rw [if_pos (by rw [Cursor.column_fresh, hcolumn]; omega)]
    cases readMapping column (Cursor.fresh (p.behind (text ++ spaces d)) tail) budget <;> rfl

variable {α : Type} {print : α → List Char} {pair : α → Node × Node} {x : α} {xs : List α}

/-- The entries of a mapping are read up to what stands in a column before them, or to the end. -/
theorem readMapping_rows (h : ∀ y ∈ x :: xs, ReadsEntry column (print y) (pair y))
    (hp : p.column = column) (hd : d < column ∨ d = column ∧ tail = []) (ht : Opens tail)
    (hb : 4 * (print x ++ printRows column print xs).length < budget) :
    Yields
      (readMapping column
        (.fresh p (print x ++ (printRows column print xs ++ (spaces d ++ tail)))) budget)
      ((x :: xs).map pair)
      (.fresh (p.behind (print x ++ printRows column print xs ++ spaces d)) tail) := by
  -- The table goes on until a line starts in another column, or nothing is left.
  induction xs generalizing x p budget with
  | nil =>
    obtain ⟨budget, rfl⟩ : ∃ b, budget = b + 1 := Nat.exists_eq_add_of_le' (Nat.zero_lt_of_lt hb)
    have hrow := h x List.mem_cons_self
    have hcolumn : (p.behind (print x ++ spaces d)).column = d := column_behind_line p hrow.ends d
    have hfollows : Follows column d tail := by
      refine ⟨by omega, ht, fun hc => ?_⟩
      obtain ⟨-, rfl⟩ := hd.resolve_left (by omega)
      rfl
    simp only [printRows, List.flatMap_nil, List.append_nil, List.nil_append] at hb ⊢
    rw [readMapping_entry hrow hp hfollows (by omega)]
    refine ⟨_, if_pos ?_, gap_fresh ht⟩
    rw [Cursor.column_fresh, hcolumn]
    rcases hd with hd | ⟨-, rfl⟩ <;> simp [Cursor.ended, *]
  | cons next xs ih =>
    obtain ⟨hrow, hrest⟩ := List.forall_mem_cons.1 h
    have hnext := hrest next List.mem_cons_self
    have hlength : 0 < (print x).length := hrow.length_pos
    obtain ⟨budget, rfl⟩ : ∃ b, budget = b + 1 := Nat.exists_eq_add_of_le' (by omega)
    have hcolumn : (p.behind (print x ++ spaces column)).column = column :=
      column_behind_line p hrow.ends column
    have hlist : print x ++ (printRows column print (next :: xs) ++ (spaces d ++ tail)) =
        print x ++ (spaces column ++
          (print next ++ (printRows column print xs ++ (spaces d ++ tail)))) := by
      simp [printRows]
    have hbudget : 4 * (print next ++ printRows column print xs).length < budget := by
      simp [printRows] at hb ⊢
      omega
    have hyields := ih hrest hcolumn hbudget
    rw [hlist, readMapping_entry hrow hp (hnext.follows _) (by simp at hb; omega)]
    dsimp only
    rw [if_neg]
    · simpa [printRows] using hyields.map (pair x :: ·)
    · rw [hnext.ended hcolumn, Cursor.column_fresh, hcolumn]
      simp

/-- A mapping begins on the line behind its key, indented more than the key. -/
theorem readsValue_mapping (hne : xs ≠ [])
    (h : ∀ y ∈ xs, ReadsEntry (column + 2) (print y) (pair y)) :
    ReadsValue column ('\n' :: printRows (column + 2) print xs) (.mapping (xs.map pair)) where
  wordEnds := rfl
  ends := .cons (.flatMap (fun y hy => (h y hy).ends.append _) hne) '\n'
  reads {p keys d tail budget} _ hfollows hb := by
    obtain ⟨x, xs, rfl⟩ := List.exists_cons_of_ne_nil hne
    have hfirst := h x List.mem_cons_self
    have hne := List.ne_nil_of_length_pos hfirst.length_pos
    obtain ⟨budget, rfl⟩ : ∃ b, budget = b + 2 := Nat.exists_eq_add_of_le' (by simp at hb; omega)
    have hcolumn : (p.behind ('\n' :: spaces (column + 2))).column = column + 2 :=
      column_behind_line p endsLine_break (column + 2)
    have hlist : '\n' :: printRows (column + 2) print (x :: xs) ++ (spaces d ++ tail) =
        '\n' :: (spaces (column + 2) ++ (print x ++ (printRows (column + 2) print xs ++
          (spaces d ++ tail)))) := by
      simp [printRows]
    have hopens := hfirst.opens_append (printRows (column + 2) print xs ++ (spaces d ++ tail))
    -- The rows are indented, so the break does not end the value.
    have hmore : column < Cursor.column (.fresh (p.behind ('\n' :: spaces (column + 2)))
        (print x ++ (printRows (column + 2) print xs ++ (spaces d ++ tail)))) := by
      rw [Cursor.column_fresh, hcolumn]
      omega
    have hd : d < column + 2 := Nat.lt_add_right 1 (Nat.lt_succ_of_le hfollows.le)
    have hbudget : 4 * (print x ++ printRows (column + 2) print xs).length < budget := by
      simp [printRows] at hb ⊢
      omega
    have hread := readMapping_rows h hcolumn (.inl hd) hfollows.opens hbudget
    rw [hlist, gap_line hopens, readOptional_eq hmore (by simp [hne]),
      hfirst.starts hcolumn (Nat.ne_of_gt (Nat.zero_lt_of_lt hbudget))]
    simpa [printRows] using hread.map Node.mapping

end NetworkLoading.Yaml
