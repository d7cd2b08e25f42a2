import NetworkLoading.Yaml.Style

/-!
# Printing

How texts and fields are laid out in lines.
-/

namespace NetworkLoading.Yaml

def spaces (count : Nat) : List Char :=
  List.replicate count ' '

/-! ## Texts -/

/-- Between single quotes, behind a line break if `broken`. A quote is written twice; what follows a
line break is indented. -/
def printSingle (indent : Nat) (broken : Bool) : List Char → List Char
  | [] => if broken then spaces indent else []
  | c :: cs =>
    if isBreak c then c :: printSingle indent true cs
    else
      (if broken then spaces indent else []) ++ (if c = '\'' then ['\'', '\''] else [c])
        ++ printSingle indent false cs

/-- A digit in base 16, in capitals. -/
def hexDigit (n : Nat) : Char :=
  if n < 10 then Char.ofNat ('0'.toNat + n) else Char.ofNat ('A'.toNat + (n - 10))

/-- The last digits of a number in base 16. -/
def hexDigits (n : Nat) : Nat → List Char
  | 0 => []
  | count + 1 => hexDigits (n / 16) count ++ [hexDigit (n % 16)]

/-- A character behind a backslash: by a letter, or by its number. -/
def printEscape (c : Char) : List Char :=
  let n := c.toNat
  match c with
  | '\x00' => ['\\', '0']
  | '\x07' => ['\\', 'a']
  | '\x08' => ['\\', 'b']
  | '\t' => ['\\', 't']
  | '\n' => ['\\', 'n']
  | '\x0b' => ['\\', 'v']
  | '\x0c' => ['\\', 'f']
  | '\r' => ['\\', 'r']
  | '\x1b' => ['\\', 'e']
  | '"' => ['\\', '"']
  | '\\' => ['\\', '\\']
  | '\u0085' => ['\\', 'N']
  | '\u2028' => ['\\', 'L']
  | '\u2029' => ['\\', 'P']
  | _ =>
    if n ≤ 0xFF then ['\\', 'x'] ++ hexDigits n 2
    else if n ≤ 0xFFFF then ['\\', 'u'] ++ hexDigits n 4
    else ['\\', 'U'] ++ hexDigits n 8

/-- A character between double quotes. -/
def printDouble (c : Char) : List Char :=
  if !isPrintable c || isBreak c || c = '"' || c = '\\' then printEscape c else [c]

/-- What stands behind the bar of a literal block: the indentation if the first line seems to be
indented itself, and what becomes of the line breaks at the end. -/
def printHeader (cs : List Char) : List Char :=
  let indented := cs.head?.any fun c => c = ' ' || isBreak c
  let chomping := match cs.reverse with
    | [] => ['-']
    | last :: before =>
      if !isBreak last then ['-'] else if before.head?.all isBreak then ['+'] else []
  -- Lines are indented by two columns wherever they are, so this is the number that is told.
  (if indented then ['2'] else []) ++ chomping

/-- The lines of a literal block, at the start of a line if `broken`. The last one ends with a line
break in any case. -/
def printLines (indent : Nat) (broken : Bool) : List Char → List Char
  | [] => if broken then [] else ['\n']
  | c :: cs =>
    if isBreak c then c :: printLines indent true cs
    else (if broken then spaces indent else []) ++ c :: printLines indent false cs

/-- A text and the end of its line. The lines of a text which has several of them are indented. -/
def printText (indent : Nat) (s : String) : List Char :=
  let cs := s.toList
  match Style.of s with
  | .plain => cs ++ ['\n']
  | .single => '\'' :: printSingle indent false cs ++ ['\'', '\n']
  | .double => '"' :: cs.flatMap printDouble ++ ['"', '\n']
  | .literal => '|' :: printHeader cs ++ '\n' :: printLines indent true cs

/-! ## Fields -/

/-- What a field holds. A word is a number, a truth value or a name which is written as it is. -/
inductive Field where
  | word (text : String)
  | text (s : String)
  | texts (items : List String)
  | table (entries : List (String × String))

/-- The greatest number of bytes of a key that is not marked as one. -/
def plainKeyLimit : Nat := 128

/-- A text as a key, and the colon behind it. A long one, or one of several lines, is marked as a
key and has a line of its own. -/
def printKey (indent : Nat) (s : String) : List Char :=
  let cs := s.toList
  if cs.any isLineEnd || plainKeyLimit < s.utf8ByteSize then
    '?' :: ' ' :: printText (indent + 2) s ++ spaces indent ++ [':']
  else (printText (indent + 2) s).dropLast ++ [':']

/-- A field and its key, in lines with indentation. -/
def Field.print (indent : Nat) (key : String) (field : Field) : List Char :=
  spaces indent ++ key.toList ++ ':' ::
    match field with
    | .word w => ' ' :: w.toList ++ ['\n']
    | .text s => ' ' :: printText (indent + 2) s
    | .texts items =>
      if items.isEmpty then [' ', '[', ']', '\n']
      else
        -- The hyphens of a sequence stand in the column of its key.
        '\n' :: items.flatMap fun item => spaces indent ++ '-' :: ' ' :: printText (indent + 2) item
    | .table entries =>
      if entries.isEmpty then [' ', '\x7b', '\x7d', '\n']
      else
        '\n' :: entries.flatMap fun entry =>
          spaces (indent + 2) ++ printKey (indent + 2) entry.1 ++ ' ' :: entry.2.toList ++ ['\n']

/-- Fields under a common heading. -/
def printSection (heading : String) (fields : List (String × Field)) : List Char :=
  heading.toList ++ ':' :: '\n' :: fields.flatMap fun (key, field) => field.print 2 key

end NetworkLoading.Yaml
