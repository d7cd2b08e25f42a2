import NetworkLoading.Yaml.Character

/-!
# Cursors

A place in a document: what is left of the text, and where it stands. Layout has a meaning, so line
and column are part of the place.
-/

namespace NetworkLoading.Yaml

structure Position where
  line : Nat := 0
  column : Nat := 0
  /-- The number of bytes before this place. -/
  offset : Nat := 0
deriving DecidableEq, Repr

/-- The position behind a character. -/
def Position.after (p : Position) (c : Char) : Position :=
  let offset := p.offset + c.utf8Size
  if isBreak c then { line := p.line + 1, offset } else { p with column := p.column + 1, offset }

structure Cursor where
  rest : List Char
  pos : Position := {}
  /-- Whether the key of a mapping may begin here, and not only behind the next line break. -/
  keys : Bool := true
  /-- The number of brackets which are open. -/
  level : Nat := 0
deriving DecidableEq, Repr

namespace Cursor

def column (c : Cursor) : Nat :=
  c.pos.column

/-- One character further. -/
def next (c : Cursor) : Cursor :=
  match c.rest with
  | [] => c
  | ch :: rest => { c with rest, pos := c.pos.after ch }

/-- A number of characters further. -/
def skip (c : Cursor) : Nat → Cursor
  | 0 => c
  | n + 1 => c.next.skip n

/-- Whether the text goes on with a character. -/
def startsWith (c : Cursor) (ch : Char) : Bool :=
  c.rest.head? = some ch

/-- Whether the text goes on with an indicator of block structure, which stands alone. -/
def atIndicator (c : Cursor) (ch : Char) : Bool :=
  match c.rest with
  | [] => false
  | first :: rest => first = ch && wordEnds rest

/-- Whether nothing more of this document follows. -/
def ended (c : Cursor) : Bool :=
  c.rest.isEmpty || (c.column = 0 && isDivider c.rest)

/-- Whether this is between brackets. -/
def inFlow (c : Cursor) : Bool :=
  c.level ≠ 0

/-- Behind an indicator which is the next character, where a key may begin or not. -/
def past (c : Cursor) (keys : Bool) : Cursor :=
  { c.next with keys }

/-- Behind an opening bracket which is the next character. -/
def opened (c : Cursor) : Cursor :=
  { c.next with level := c.level + 1 }

/-- Behind a closing bracket which is the next character. -/
def closed (c : Cursor) : Cursor :=
  { c.past false with level := c.level - 1 }

end Cursor

/-- Skips blanks, comments and line breaks. Tabs are no indentation, so they are skipped only where
no key may begin. A line break lets keys begin, except between brackets. A byte order mark may begin
a line; it takes up a column. -/
def skipGap (inFlow : Bool) (comment : Bool) (pos : Position) (keys : Bool) : List Char → Cursor
  | [] => { rest := [], pos, keys }
  | c :: cs =>
    -- A comment goes on to the end of its line and no further.
    if isBreak c then skipGap inFlow false (pos.after c) (keys || !inFlow) cs
    else if c = '\ufeff' && pos.column = 0 then skipGap inFlow comment (pos.after c) keys cs
    else if comment || c = ' ' || (c = '\t' && (inFlow || !keys)) then
      skipGap inFlow comment (pos.after c) keys cs
    else if c = '#' then skipGap inFlow true (pos.after c) keys cs
    else { rest := c :: cs, pos, keys }

/-- The next place where something stands. -/
def Cursor.gap (c : Cursor) : Cursor :=
  { skipGap c.inFlow false c.pos c.keys c.rest with level := c.level }

end NetworkLoading.Yaml
