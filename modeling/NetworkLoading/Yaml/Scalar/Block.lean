import NetworkLoading.Yaml.Cursor

/-!
# Block scalars

Indented lines below an indicator. A bar keeps line breaks, an angle folds them. Behind the
indicator may stand how deep the lines are indented and what becomes of the line breaks at the end.
-/

namespace NetworkLoading.Yaml

/-- What becomes of the line breaks at the end of a block. -/
inductive Chomping where
  /-- There are none. -/
  | strip
  /-- The first one stays. -/
  | clip
  /-- All of them stay. -/
  | keep
deriving DecidableEq

/-- What stands behind the indicator of a block. -/
structure BlockHeader where
  folded : Bool
  chomping : Chomping := .clip
  /-- How much deeper the lines are indented than what surrounds them, if this is told. -/
  deeper : Option Nat := none

namespace BlockHeader

def chomping? : Char → Option Chomping
  | '+' => some .keep
  | '-' => some .strip
  | _ => none

/-- A digit which tells the indentation. It cannot be zero. -/
def deeper? (c : Char) : Option Nat :=
  if '1' ≤ c && c ≤ '9' then some (c.toNat - '0'.toNat) else none

/-- Reads what stands behind the indicator: the chomping and the indentation, in any order. Yields
how many characters they have. -/
def read (folded : Bool) : List Char → BlockHeader × Nat
  | [] => ({ folded }, 0)
  | c :: cs =>
    let second := cs.head?
    match chomping? c, deeper? c with
    | some chomping, _ =>
      match second.bind deeper? with
      | some n => ({ folded, chomping, deeper := some n }, 2)
      | none => ({ folded, chomping }, 1)
    | none, some n =>
      match second.bind chomping? with
      | some chomping => ({ folded, chomping, deeper := some n }, 2)
      | none => ({ folded, deeper := some n }, 1)
    | none, none => ({ folded }, 0)

end BlockHeader

/-- Whether nothing but blanks and a comment is left of a line. -/
def lineIsOver (cs : List Char) : Bool :=
  match cs.dropWhile isWhite with
  | [] => true
  | c :: _ => isBreak c || c = '#'

/-- Skips empty lines and the indentation of the line after them. Yields the line breaks and the
greatest column that was reached. Indentation which is not known yet may be of any depth. A tab is
none. -/
def skipIndent (indent : Option Nat) (greatest : Nat) (breaks : List Char) (pos : Position) :
    List Char → Option (List Char × Nat × Cursor)
  | [] => some (breaks, max greatest pos.column, { rest := [], pos })
  | c :: cs =>
    let within := indent.all (pos.column < ·)
    if within && c = ' ' then skipIndent indent greatest breaks (pos.after c) cs
    -- A tab where indentation is expected spoils the document.
    else if within && c = '\t' then none
    else if isBreak c then
      skipIndent indent (max greatest pos.column) (breaks ++ [c]) (pos.after c) cs
    else some (breaks, max greatest pos.column, { rest := c :: cs, pos })

/-- What was read of a block before one of its lines. -/
structure BlockState where
  /-- The text, the last character first. -/
  done : List Char := []
  /-- The line break at the end of the last line. -/
  last : List Char := []
  /-- The line breaks of the empty lines after it. -/
  empty : List Char
  /-- Whether the last line began with a blank. -/
  blank : Bool := false

namespace BlockState

/-- Whether the line break before a line is folded. It is not if one of the two lines begins with a
blank. -/
def folds (s : BlockState) (folded blank : Bool) : Bool :=
  folded && s.last = ['\n'] && !s.blank && !blank

/-- A further line of a block, with its line break. -/
def addLine (s : BlockState) (folded : Bool) (line last empty : List Char) : BlockState :=
  let blank := line.head?.any isWhite
  let between :=
    if s.folds folded blank then if s.empty = [] then [' '] else s.empty else s.last ++ s.empty
  { done := line.reverse ++ between.reverse ++ s.done, last, empty, blank }

/-- The text of a whole block. -/
def finish (s : BlockState) : Chomping → List Char
  | .strip => s.done.reverse
  | .clip => s.done.reverse ++ s.last
  | .keep => s.done.reverse ++ s.last ++ s.empty

/-- Reads the lines of a block which are indented to a column. There are no more lines than
characters. -/
def read (folded : Bool) (indent : Nat) (s : BlockState) (c : Cursor) :
    Nat → Option (BlockState × Cursor)
  | 0 => some (s, c)
  | budget + 1 =>
    if c.rest.isEmpty || c.column ≠ indent then some (s, c)
    else
      let line := c.rest.takeWhile (!isBreak ·)
      let last := (c.rest.drop line.length).take 1
      let c := c.skip (line.length + 1)
      (skipIndent (some indent) 0 [] c.pos c.rest).bind fun (empty, _, c) =>
        read folded indent (s.addLine folded line last empty) c budget

end BlockState

/-- Reads a block whose indicator is the next character, inside something that makes its lines start
in column `least` at least. -/
def readBlock (least : Nat) (c : Cursor) : Option (List Char × Cursor) :=
  let (header, count) := BlockHeader.read (c.startsWith '>') c.next.rest
  let c := c.skip (1 + count)
  if !lineIsOver c.rest then none
  else
    let line := c.rest.takeWhile (!isBreak ·)
    let c := c.skip (line.length + 1)
    -- A block on the outermost level is indented as if it were inside of something at the margin.
    let told := header.deeper.map (max least 1 - 1 + ·)
    (skipIndent told 0 [] c.pos c.rest).bind fun (empty, greatest, c) =>
      -- The first line which is not empty tells the indentation; empty lines must not be indented
      -- more.
      let indent := told.getD (max greatest (max least 1))
      (BlockState.read header.folded indent { empty } c c.rest.length).map fun (s, c) =>
        (s.finish header.chomping, { c with keys := true })

end NetworkLoading.Yaml
