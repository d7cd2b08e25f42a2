import NetworkLoading.Yaml.Node
import NetworkLoading.Yaml.Scalar.Block
import NetworkLoading.Yaml.Scalar.Plain
import NetworkLoading.Yaml.Scalar.Quoted

/-!
# Documents

How the node of a document is read. Collections stand between brackets, or are laid out in lines
with indentation. Anchors, tags and directives are not known.

Readers call each other with a budget that shrinks with every call. Between two calls of the same
reader at least one character is read, so a multiple of the length of the text is enough.
-/

namespace NetworkLoading.Yaml

/-- The greatest number of bytes between the start of a key and its colon. -/
def keyLimit : Nat := 1024

namespace Cursor

/-- Whether a colon here can belong to a key that starts there. Both are on one line. -/
def closes (colon key : Cursor) : Bool :=
  colon.pos.line = key.pos.line && colon.pos.offset ≤ key.pos.offset + keyLimit

/-- Whether what stands from the first cursor to the second is a key in block layout. -/
def isKey (start after : Cursor) : Bool :=
  let colon := after.gap
  colon.atIndicator ':' && colon.closes start

/-- Whether a block scalar begins here. None does between brackets. -/
def atBlock (c : Cursor) : Bool :=
  !c.inFlow && (c.startsWith '|' || c.startsWith '>')

/-- Whether what stands here is inside a collection whose elements are in a column: it is indented
more, or it is a block scalar. -/
def inside (c : Cursor) (column : Nat) : Bool :=
  column < c.column || (c.column = column && c.atBlock)

/-- Whether this is between brackets, or indented to a column. -/
def fits (c : Cursor) (column : Nat) : Bool :=
  c.inFlow || column ≤ c.column

/-- Whether the text goes on with a comma or a closing bracket of a collection whose elements are
indented to a column. Such a character may stand one column before. -/
def separates (c : Cursor) (indent : Nat) (ch : Char) : Bool :=
  c.startsWith ch && c.fits (indent - 1)

/-- Behind what stands in the place of a missing key. A bracket there is closed. -/
def passedOver (c : Cursor) : Cursor :=
  if c.startsWith ']' then c.closed else c.next

end Cursor

/-- Reads a scalar. -/
def readScalar (indent : Nat) (c : Cursor) : Option (Node × Cursor) :=
  let node (plain : Bool) (result : List Char × Cursor) : Node × Cursor :=
    (.scalar (String.ofList result.1) plain, { result.2 with level := c.level })
  -- Between brackets these two are not the marks of block scalars, nor anything else.
  if c.atBlock then (readBlock indent c).map (node false)
  else if c.startsWith '\'' then (readSingle c.next.pos [] {} c.next.rest).map (node false)
  else if c.startsWith '"' then (readDouble c.next.pos [] {} c.next.rest).map (node false)
  else if plainStarts c.inFlow c.rest then
    (PlainContext.read { inFlow := c.inFlow, indent } c.pos [] {} c.rest).map (node true)
  else none

/-! ## Between brackets -/

mutual

/-- Reads a collection between brackets, or a scalar. The lines of a plain scalar are indented to a
column even between brackets, or at least without tabs up to it. -/
def readInline (indent : Nat) (c : Cursor) : Nat → Option (Node × Cursor)
  | 0 => none
  | budget + 1 =>
    if c.ended then none
    else if c.startsWith '[' then
      (readItems indent c.opened budget).map fun (items, c) => (.sequence items, c)
    else if c.startsWith '\x7b' then
      (readPairs indent c.opened budget).map fun (entries, c) => (.mapping entries, c)
    else readScalar indent c
termination_by structural budget => budget

/-- Reads a key with its value between brackets, or a node which is no key. A key is on one line
with its colon, unless it is marked as a key. Behind the mark the key itself may be missing; in a
sequence, what stands in its place is then passed over. If that is the last bracket which is open,
the sequence goes on as if it were outside of brackets, and has no more keys. -/
def readPair (closing : Char) (indent : Nat) (c : Cursor) :
    Nat → Option (Node × Option Node × Cursor)
  | 0 => none
  | budget + 1 => do
    -- In block layout the mark is for `readEntry` to read.
    let marked := c.inFlow && c.startsWith '?'
    let start := if marked then c.next.gap else c
    let missing :=
      marked && (start.startsWith ':' || start.startsWith ',' || start.startsWith closing)
    let (key, after) ←
      if missing then some (.empty, if closing = ']' then start.passedOver else start)
      else if start.fits indent then readInline indent start budget
      else none
    let colon := after.gap
    if !(colon.inFlow && colon.startsWith ':') then
      return (key, if marked then some .empty else none, colon)
    else if !marked && !colon.closes start then none
    else
      let c := colon.next.gap
      -- There is a colon, but no value behind it.
      if c.startsWith ',' || c.startsWith closing then return (key, some .empty, c)
      else
        let (value, c) ← readInline indent c budget
        return (key, some value, c.gap)
termination_by structural budget => budget

/-- Reads the rest of a sequence between brackets. A key with its value is an element of it as a
mapping of its own. -/
def readItems (indent : Nat) (c : Cursor) : Nat → Option (List Node × Cursor)
  | 0 => none
  | budget + 1 => do
    let c := c.gap
    if c.separates indent ']' then return ([], c.closed)
    else
      let (key, value, c) ← readPair ']' indent c budget
      let item := match value with
        | none => key
        | some value => .mapping [(key, value)]
      if c.separates indent ',' then
        let (items, c) ← readItems indent (c.past true) budget
        return (item :: items, c)
      else if c.separates indent ']' then return ([item], c.closed)
      else none
termination_by structural budget => budget

/-- Reads the rest of a mapping between brackets. A key may stand without a value. -/
def readPairs (indent : Nat) (c : Cursor) : Nat → Option (List (Node × Node) × Cursor)
  | 0 => none
  | budget + 1 => do
    let c := c.gap
    if c.separates indent '\x7d' then return ([], c.closed)
    else
      let (key, value, c) ← readPair '\x7d' indent c budget
      let entry := (key, value.getD .empty)
      if c.separates indent ',' then
        let (entries, c) ← readPairs indent (c.past true) budget
        return (entry :: entries, c)
      else if c.separates indent '\x7d' then return ([entry], c.closed)
      else none
termination_by structural budget => budget

end

/-! ## In lines -/

mutual

/-- Reads a node whose lines start in column `least` at least. -/
def readNode (least : Nat) (c : Cursor) : Nat → Option (Node × Cursor)
  | 0 => none
  | budget + 1 =>
    if c.atIndicator '-' then
      if c.keys then
        (readSequence false c.column c budget).map fun (items, c) => (.sequence items, c)
      else none
    else if c.atIndicator '?' then
      if c.keys then
        (readMapping c.column c budget).map fun (entries, c) => (.mapping entries, c)
      else none
    else
      -- Whether this is a key shows only from the colon behind it, so it is read again as one if it
      -- is.
      (readInline least c budget).bind fun (node, after) =>
        if c.keys && c.isKey after then
          (readMapping c.column c budget).map fun (entries, c) => (.mapping entries, c)
        else some (node, after)
termination_by structural budget => budget

/-- Reads the node of an entry of a mapping in a column, if there is one. A sequence may stand in
the same column as the keys. -/
def readOptional (column : Nat) (c : Cursor) : Nat → Option (Node × Cursor)
  | 0 => none
  | budget + 1 =>
    if c.ended then some (.empty, c)
    else if c.atIndicator '-' && c.column = column then
      if c.keys then
        (readSequence true column c budget).map fun (items, c) => (.sequence items, c)
      else none
    else if c.inside column then readNode (column + 1) c budget
    else some (.empty, c)
termination_by structural budget => budget

/-- Reads the elements of a sequence whose hyphens are in a column, from a hyphen on. What follows
in the same column can belong to a mapping around it. -/
def readSequence (inMapping : Bool) (column : Nat) (c : Cursor) : Nat → Option (List Node × Cursor)
  | 0 => none
  | budget + 1 => do
    let c := (c.past true).gap
    let (item, c) ←
      if !c.ended && c.inside column then readNode (column + 1) c budget else some (.empty, c)
    let c := c.gap
    if !c.ended && c.column = column && c.atIndicator '-' then
      if c.keys then
        let (items, c) ← readSequence inMapping column c budget
        return (item :: items, c)
      else none
    -- What stands here belongs to a collection farther out.
    else if inMapping || c.ended || c.column < column then return ([item], c)
    else none
termination_by structural budget => budget

/-- Reads a key with its value, in a mapping whose keys are in a column. A key is on one line with
its colon, unless it is marked as a key. -/
def readEntry (column : Nat) (c : Cursor) : Nat → Option ((Node × Node) × Cursor)
  | 0 => none
  | budget + 1 => do
    if c.atIndicator '?' then
      let (key, c) ← readOptional column ((c.past true).gap) budget
      let colon := c.gap
      if colon.keys && colon.column = column && colon.atIndicator ':' then
        let (value, c) ← readOptional column ((colon.past true).gap) budget
        return ((key, value), c)
      else return ((key, .empty), colon)
    else
      let (key, after) ← readInline (column + 1) c budget
      if !c.isKey after then none
      else
        let (value, c) ← readOptional column (((after.gap).past false).gap) budget
        return ((key, value), c)
termination_by structural budget => budget

/-- Reads the entries of a mapping whose keys are in a column, from a key on. -/
def readMapping (column : Nat) (c : Cursor) : Nat → Option (List (Node × Node) × Cursor)
  | 0 => none
  | budget + 1 => do
    if !c.keys then none
    else
      let (entry, c) ← readEntry column c budget
      let c := c.gap
      if c.ended || c.column < column then return ([entry], c)
      else if c.column = column then
        let (entries, c) ← readMapping column c budget
        return (entry :: entries, c)
      else none
termination_by structural budget => budget

end

/-! ## The whole text -/

/-- Whether nothing follows but ends of the document. -/
def isLast (c : Cursor) : Nat → Bool
  | 0 => false
  | budget + 1 =>
    let c := c.gap
    c.rest.isEmpty
      || (c.startsWith '.' && c.column = 0 && isDivider c.rest
        && isLast { c.skip 3 with keys := false } budget)

/-- Reads the node of the only document in a text. Where nothing is written, the node is empty. -/
def readText (text : String) : Option Node := do
  let cs := unifyBreaks text.toList
  let budget := 4 * cs.length + 8
  if !text.toList.all isAllowed then none
  else
    let c := Cursor.gap { rest := cs }
    if c.rest.isEmpty then return .empty
    else
      -- A document may begin with a divider, behind which no key begins on the same line.
      let marked := c.ended && c.startsWith '-'
      let c := if marked then { c.skip 3 with keys := false }.gap else c
      let (node, c) ← if marked && c.ended then some (.empty, c) else readNode 0 c budget
      if isLast c budget then return node else none

end NetworkLoading.Yaml
