import NetworkLoading.Yaml.Node
import NetworkLoading.Yaml.Character

/-!
# Styles of text

A text is written as plainly as it can be without becoming something else when it is read again.
-/

namespace NetworkLoading.Yaml

/-- How a text is written. -/
inductive Style where
  | plain
  | single
  | double
  /-- In lines of its own, which keep their line breaks. -/
  | literal
deriving DecidableEq

/-! ## What a text would be if it were written plainly -/

/-- Whether a plain scalar is a number in a base that a letter tells. Such numbers have 128 bits. -/
def isBased (s : String) : Bool :=
  match s.toList with
  -- The least of these numbers has one more in size than the greatest.
  | '-' :: '0' :: cs => (Node.digitsOf? ('0' :: cs)).any (· ≤ 1 <<< 127)
  | _ => (Node.natOf? s).any (· < 1 <<< 128)

/-- Whether a plain scalar consists of digits with a needless zero, after an optional sign. -/
def isPadded (s : String) : Bool :=
  match s.toList with
  | '+' :: cs | '-' :: cs => Node.hasNeedlessZero cs
  | cs => Node.hasNeedlessZero cs

/-- Whether a plain scalar is anything but a text: nothing at all, a truth value or a number, or
digits which are none. -/
def isTaken (s : String) : Bool :=
  s ∈ ["", "~", "null", "Null", "NULL"] || (Node.boolOf? s).isSome || isBased s
    || (Node.floatOf? s).isSome || isPadded s

/-! ## What a text consists of -/

/-- Whether a character can be written as it is. -/
def isPrintable (c : Char) : Bool :=
  let n := c.toNat
  n = 0x0A || (0x20 ≤ n && n ≤ 0x7E) || (0xA0 ≤ n && n ≤ 0xFFFD && n ≠ 0xFEFF) || 0x10000 ≤ n

/-- Whether a character is the end of a word in the plain text of a document. -/
def endsWord (c : Char) : Bool :=
  isWhite c || isLineEnd c || c = '\x00'

/-- Whether a text contains a character that comes right before another one. -/
def hasPair (first second : Char → Bool) (cs : List Char) : Bool :=
  (cs.zip cs.tail).any fun (a, b) => first a && second b

/-- Whether a text contains an indicator: at its start, a colon before the end of a word, or a
number sign behind the end of a word. -/
def hasIndicator (cs : List Char) : Bool :=
  let start := match cs with
    | [] => false
    | c :: rest =>
      if c = '?' || c = '-' then rest.head?.all endsWord
      else "#,[]\x7b\x7d&*!|>'\"%@\x60".toList.contains c
  start || ['-', '-', '-'].isPrefixOf cs || ['.', '.', '.'].isPrefixOf cs
    || hasPair (· = ':') endsWord cs || cs.getLast? = some ':' || hasPair endsWord (· = '#') cs

/-- Whether a space stands at the start or the end. -/
def hasMargin (cs : List Char) : Bool :=
  let blank (c : Char) := c = ' ' || isBreak c
  cs.head?.any blank || cs.getLast?.any blank

/-- Whether a text can be written only with escapes. -/
def needsEscapes (cs : List Char) : Bool :=
  !cs.all isPrintable || hasPair (· = ' ') isBreak cs

/-! ## The choice -/

/-- The style in which a text is written. -/
def Style.of (s : String) : Style :=
  let cs := s.toList
  if needsEscapes cs then .double
  -- A block keeps line breaks, but a space behind the last of them would be lost.
  else if '\n' ∈ cs then if cs.getLast? = some ' ' then .double else .literal
  else if hasPair isBreak (· = ' ') cs then .double
  else if isTaken s || hasIndicator cs || hasMargin cs || cs.any isBreak then .single
  else .plain

end NetworkLoading.Yaml
