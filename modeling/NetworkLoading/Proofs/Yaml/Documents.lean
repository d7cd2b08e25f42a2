import NetworkLoading.Proofs.Yaml.Layout
import NetworkLoading.Proofs.Yaml.Printing

/-!
# Documents are read back

A document of sections with fields is read back as it was printed.
-/

namespace NetworkLoading.Yaml

variable {field : Field} {s : String} {column indent : Nat}

/-- A mapping of fields, the names of which are not in quotes. -/
def Node.ofFields (fields : List (String × Node)) : Node :=
  .mapping (fields.map fun f => (.scalar f.1 true, f.2))

/-! ## Fields -/

/-- Whether a text can be the key of a field, which is never marked as a key. -/
def isName (s : String) : Bool :=
  isWord s && s.toList.length ≤ keyLimit

/-- An entry of a table, which stands in a column of its own. -/
def printEntry (column : Nat) (entry : String × String) : List Char :=
  printKey column entry.1 ++ ' ' :: entry.2.toList ++ ['\n']

namespace Field

/-- What is read where a field is written. -/
def node : Field → Node
  | word w => .scalar w true
  | text s => .ofText s
  | texts items => .sequence (items.map .ofText)
  | table entries => .mapping (entries.map fun entry => (.ofText entry.1, .scalar entry.2 true))

/-- The words of a field can be written as they are. -/
def Writable : Field → Prop
  | word w => isWord w = true
  | text _ | texts _ => True
  | table entries => ∀ entry ∈ entries, isWord entry.2 = true

/-- What stands behind the colon of a field. -/
def printValue (indent : Nat) : Field → List Char
  | word w => ' ' :: w.toList ++ ['\n']
  | text s => ' ' :: printText (indent + 2) s
  | texts items =>
    if items.isEmpty then [' ', '[', ']', '\n']
    else '\n' :: printRows indent (printItem indent) items
  | table entries =>
    if entries.isEmpty then [' ', '\x7b', '\x7d', '\n']
    else '\n' :: printRows (indent + 2) (printEntry (indent + 2)) entries

theorem print_eq (indent : Nat) (key : String) (field : Field) :
    field.print indent key = spaces indent ++ (key.toList ++ ':' :: field.printValue indent) := by
  cases field <;> simp [print, printValue, printRows, printItem, printEntry]

end Field

/-- An entry of a table, whether its key is marked or not. -/
theorem readsEntry_table {entry : String × String} (h : isWord entry.2 = true)
    (hcolumn : column ≠ 0) :
    ReadsEntry column (printEntry column entry) (.ofText entry.1, .scalar entry.2 true) := by
  have hvalue : ReadsValue column (' ' :: (entry.2.toList ++ ['\n'])) (.scalar entry.2 true) :=
    ((written_of_isWord h).readsScalar _).readsValue
  rw [printEntry, printKey]
  split
  · simpa using readsEntry_marked (s := entry.1) hvalue
  · rename_i hplain
    simp only [Bool.or_eq_true, not_or, Bool.not_eq_true, decide_eq_true_iff, Nat.not_lt] at hplain
    have hkey := keyText_inLine (Nat.succ_pos (column + 1)) hplain.1 hplain.2
    rw [printText_dropLast hplain.1]
    simpa using readsEntry_key hkey hvalue fun _ hc => absurd hc hcolumn

theorem readsValue_field (h : field.Writable) (column : Nat) :
    ReadsValue column (field.printValue column) field.node := by
  cases field with
  | word w => exact ((written_of_isWord h).readsScalar _).readsValue
  | text s => exact (readsScalar_item column s).readsValue
  -- Without an item or an entry the value is a pair of brackets on the line of its key.
  | texts items =>
    cases items with
    | nil => exact readsValue_empty (by simp) fun _ _ _ hp => readInline_brackets hp
    | cons item items => exact readsValue_sequence column item items
  | table entries =>
    cases entries with
    | nil => exact readsValue_empty (by simp) fun _ _ _ hp => readInline_braces hp
    | cons entry entries =>
      have hrows : ∀ e ∈ entry :: entries, ReadsEntry (column + 2) (printEntry (column + 2) e)
          (.ofText e.1, .scalar e.2 true) :=
        fun e he => readsEntry_table (h e he) (Nat.succ_ne_zero _)
      exact readsValue_mapping (List.cons_ne_nil entry entries) hrows

/-- A word in front of a colon does not divide documents: neither its characters nor the colon are
the end of a word. -/
theorem not_isDivider_of_isWord (h : isWord s = true) (rest : List Char) :
    isDivider (s.toList ++ ':' :: rest) = false := by
  have hchars : ∀ c ∈ s.toList, isWordChar c = true := by
    simp only [isWord, Bool.and_eq_true] at h
    exact List.all_eq_true.1 h.2
  by_contra hdivider
  rw [Bool.not_eq_false] at hdivider
  obtain ⟨x, cs, he, hx, hends⟩ : ∃ x cs, s.toList ++ ':' :: rest = [x, x, x] ++ cs ∧ x ≠ ':' ∧
      wordEnds cs = true := by
    rw [isDivider.eq_def] at hdivider
    split at hdivider
    · exact ⟨'-', _, ‹_›, by decide, hdivider⟩
    · exact ⟨'.', _, ‹_›, by decide, hdivider⟩
    · cases hdivider
  rcases List.append_eq_append_iff.1 he with ⟨as, has, hcolon⟩ | ⟨as, has, hcs⟩
  · -- The word ends within the three characters, so that the colon is one of them or is next.
    cases as with
    | nil =>
      obtain rfl : ':' :: rest = cs := hcolon
      cases hends
    | cons c as =>
      obtain rfl : ':' = c := (List.cons.inj hcolon).1
      have hmem : ':' ∈ [x, x, x] := by simp [has]
      simp only [List.mem_cons, List.not_mem_nil, or_false, or_self] at hmem
      exact hx hmem.symm
  · cases as with
    | nil =>
      obtain rfl : cs = ':' :: rest := hcs
      cases hends
    | cons c as =>
      have hc := hchars c (by simp [has])
      simp [hcs, wordEnds, isWhite_of_isWordChar hc, isBreak_of_isWordChar hc] at hends

/-- A field is read back as an entry. -/
theorem readsEntry_field (hs : isName s = true) (h : field.Writable) (column : Nat) :
    ReadsEntry column (s.toList ++ ':' :: field.printValue column)
      (.scalar s true, field.node) := by
  rw [isName, Bool.and_eq_true, decide_eq_true_iff] at hs
  exact readsEntry_key (keyText_of_isWord hs.1 hs.2) (readsValue_field h column)
    fun rest _ => not_isDivider_of_isWord hs.1 rest

/-! ## Sections -/

/-- A heading and the fields below it. -/
abbrev Section := String × List (String × Field)

namespace Section

def print (s : Section) : List Char :=
  printSection s.1 s.2

/-- What is read below the heading of a section. -/
def node (s : Section) : Node :=
  .ofFields (s.2.map fun f => (f.1, f.2.node))

/-- A section has fields, and all names and words of it can be written as they are. -/
structure Writable (s : Section) : Prop where
  heading : isName s.1 = true
  ne_nil : s.2 ≠ []
  names : ∀ f ∈ s.2, isName f.1 = true
  fields : ∀ f ∈ s.2, f.2.Writable

end Section

theorem readsEntry_section {s : Section} (h : s.Writable) :
    ReadsEntry 0 s.print (.scalar s.1 true, s.node) := by
  have hfields : ∀ f ∈ s.2, ReadsEntry 2 (f.1.toList ++ ':' :: f.2.printValue 2)
      (.scalar f.1 true, f.2.node) :=
    fun f hf => readsEntry_field (h.names f hf) (h.fields f hf) 2
  have hvalue : ReadsValue 0 _ (.mapping _) := readsValue_mapping h.ne_nil hfields
  have hheading := h.heading
  rw [isName, Bool.and_eq_true, decide_eq_true_iff] at hheading
  have hentry := readsEntry_key (keyText_of_isWord hheading.1 hheading.2) hvalue
    fun rest _ => not_isDivider_of_isWord hheading.1 rest
  simpa [Section.print, Section.node, Node.ofFields, Function.comp_def, printSection, printRows,
    Field.print_eq] using hentry

/-! ## Documents -/

theorem printable_printValue (h : field.Writable) (indent : Nat) :
    (field.printValue indent).all isPrintable = true := by
  have hmarks := List.all_eq_true.1
    (by rfl : [' ', '\n', '-', '[', ']', '\x7b', '\x7d'].all isPrintable = true)
  cases field with
  | word w => simp [Field.printValue, hmarks, printable_of_isWord h]
  | text s => simp [Field.printValue, hmarks, printable_printText]
  | texts items =>
    rw [Field.printValue]
    split <;> simp [hmarks, printRows, printItem, List.all_flatMap, printable_printText]
  | table entries =>
    rw [Field.printValue]
    split
    · simp [hmarks]
    · rw [printRows, List.all_cons, List.all_flatMap, hmarks _ (by simp), Bool.true_and]
      refine List.all_eq_true.2 fun entry he => ?_
      simp [printEntry, hmarks, printable_printKey, printable_of_isWord (h entry he)]

theorem printable_section {s : Section} (h : s.Writable) : s.print.all isPrintable = true := by
  have hcolon : isPrintable ':' = true ∧ isPrintable '\n' = true := ⟨rfl, rfl⟩
  have hname {name : String} (hname : isName name = true) : name.toList.all isPrintable = true := by
    rw [isName, Bool.and_eq_true] at hname
    exact printable_of_isWord hname.1
  rw [Section.print, printSection, List.all_append, hname h.heading, List.all_cons, List.all_cons,
    hcolon.1, hcolon.2, List.all_flatMap]
  refine List.all_eq_true.2 fun f hf => ?_
  dsimp only
  rw [Field.print_eq]
  simp [hcolon, hname (h.names f hf), printable_printValue (h.fields f hf)]

/-- A text which consists of one node is read back as this node. -/
theorem readText_of_readNode {cs : List Char} {p : Position} {node : Node}
    (hprintable : cs.all isPrintable = true) (hne : cs ≠ []) (hopens : Opens cs)
    (hended : Cursor.ended (.fresh {} cs) = false)
    (hread : Yields (readNode 0 (.fresh {} cs) (4 * cs.length + 8)) node (.fresh p [])) :
    readText (String.ofList cs) = some node := by
  have hallowed : cs.all isAllowed = true :=
    List.all_eq_true.2 fun c hc => isAllowed_of_isPrintable (List.all_eq_true.1 hprintable c hc)
  have hgap : Cursor.gap { rest := cs } = .fresh {} cs := gap_of_opens hopens {} true
  obtain ⟨after, hread, hafter⟩ := hread
  have hlast : isLast after (4 * cs.length + 8) = true := by
    rw [isLast, hafter]
    rfl
  rw [readText, String.toList_ofList, unifyBreaks_of_isPrintable hprintable]
  simp [hallowed, hgap, hended, hne, hread, hlast]

/-- A document of sections is read back. -/
theorem readText_sections {sections : List Section} (hne : sections ≠ [])
    (h : ∀ s ∈ sections, s.Writable) :
    readText (String.ofList (sections.flatMap Section.print)) =
      some (.ofFields (sections.map fun s => (s.1, s.node))) := by
  obtain ⟨first, sections, rfl⟩ := List.exists_cons_of_ne_nil hne
  have hentries : ∀ s ∈ first :: sections, ReadsEntry 0 s.print (.scalar s.1 true, s.node) :=
    fun s hs => readsEntry_section (h s hs)
  have hfirst := hentries first List.mem_cons_self
  have hprintable : ((first :: sections).flatMap Section.print).all isPrintable = true := by
    rw [List.all_flatMap]
    exact List.all_eq_true.2 fun s hs => printable_section (h s hs)
  -- The whole text is one mapping in column zero, whose rows are the sections.
  have hrows : Yields (readMapping 0 (.fresh {} (first.print ++ sections.flatMap Section.print))
        (4 * (first.print ++ sections.flatMap Section.print).length + 7))
      ((first :: sections).map fun s => (.scalar s.1 true, s.node))
      (.fresh (Position.behind {} (first.print ++ sections.flatMap Section.print)) []) := by
    have hread := @readMapping_rows [] {} 0 0
      (4 * (first.print ++ sections.flatMap Section.print).length + 7) _ _ _ _ _ hentries rfl
      (.inr ⟨rfl, rfl⟩) opens_nil (by simp [printRows, spaces])
    simpa [printRows, spaces] using hread
  have hnode : Yields (readNode 0 (.fresh {} (first.print ++ sections.flatMap Section.print))
        (4 * (first.print ++ sections.flatMap Section.print).length + 8))
      (.ofFields ((first :: sections).map fun s => (s.1, s.node)))
      (.fresh (Position.behind {} (first.print ++ sections.flatMap Section.print)) []) := by
    rw [hfirst.starts rfl (Nat.succ_ne_zero _)]
    rw [Node.ofFields, List.map_map]
    exact hrows.map Node.mapping
  rw [List.flatMap_cons] at hprintable ⊢
  have hnil : first.print ++ sections.flatMap Section.print ≠ [] :=
    List.append_ne_nil_of_left_ne_nil (List.ne_nil_of_length_pos hfirst.length_pos) _
  exact readText_of_readNode hprintable hnil (hfirst.opens_append _) (hfirst.ended rfl) hnode

end NetworkLoading.Yaml
