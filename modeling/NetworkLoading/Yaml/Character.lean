/-!
# Characters of a document

Which characters may stand in a document, and what they are to its layout.
-/

namespace NetworkLoading.Yaml

/-- Whether a character may stand in a document. Most control characters may not. -/
def isAllowed (c : Char) : Bool :=
  let n := c.toNat
  n = 0x09 || n = 0x0A || n = 0x0D || (0x20 ≤ n && n ≤ 0x7E) || n = 0x85 || (0xA0 ≤ n && n ≤ 0xFFFD)
    || 0x10000 ≤ n

/-- Whether a character ends a line. All ends of lines but the line and paragraph separators count
as line feeds; see `unifyBreaks`. -/
def isBreak (c : Char) : Bool :=
  c = '\n' || c = '\u2028' || c = '\u2029'

/-- Whether a character ends a line in a text that is still to be written. -/
def isLineEnd (c : Char) : Bool :=
  isBreak c || c = '\r' || c = '\u0085'

/-- Whether a character separates words on a line. -/
def isWhite (c : Char) : Bool :=
  c = ' ' || c = '\t'

/-- Whether the text has ended or goes on with something that is no part of a word. -/
def wordEnds : List Char → Bool
  | [] => true
  | c :: _ => isWhite c || isBreak c

/-- Replaces all ends of lines by line feeds, the separators excepted: a carriage return with or
without a line feed, and the next line character. -/
def unifyBreaks : List Char → List Char
  | '\r' :: '\n' :: cs => '\n' :: unifyBreaks cs
  | c :: cs => (if c = '\r' || c = '\u0085' then '\n' else c) :: unifyBreaks cs
  | [] => []

/-- Whether a line that begins like this divides documents: three hyphens or three points which
stand alone. -/
def isDivider : List Char → Bool
  | '-' :: '-' :: '-' :: cs => wordEnds cs
  | '.' :: '.' :: '.' :: cs => wordEnds cs
  | _ => false

/-- Whether a plain scalar may begin like this, within or without brackets. Indicators cannot be the
start of one, unless it is clear from the next character that no indicator is meant. -/
def plainStarts (inFlow : Bool) : List Char → Bool
  | [] => false
  | c :: cs =>
    if isWhite c || isBreak c then false
    -- A hyphen which stands alone begins an element of a sequence.
    else if c = '-' then !wordEnds cs
    else if c = '?' || c = ':' then !inFlow && !wordEnds cs
    else !",[]\x7b\x7d#&*!|>'\"%@\x60".toList.contains c

end NetworkLoading.Yaml
