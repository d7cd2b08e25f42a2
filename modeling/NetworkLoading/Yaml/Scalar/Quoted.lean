import NetworkLoading.Decimal.Reading
import NetworkLoading.Yaml.Fold

/-!
# Quoted scalars

Text between single quotes stands for itself, and a quote is written twice. Between double quotes a
backslash begins an escape.
-/

namespace NetworkLoading.Yaml

/-- Reads on behind a single quote. Of the scalar `done` was read, the last character first, and
`space` behind it. -/
def readSingle (pos : Position) (done : List Char) (space : Space) :
    List Char → Option (List Char × Cursor)
  | [] => none
  | '\'' :: '\'' :: cs =>
    readSingle ((pos.after '\'').after '\'') ('\'' :: space.before done) {} cs
  | c :: cs =>
    if isBreak c || isWhite c then readSingle (pos.after c) done (space.push c) cs
    else if pos.column = 0 && isDivider (c :: cs) then none
    else if c = '\'' then
      some ((space.before done).reverse, { rest := cs, pos := pos.after c, keys := false })
    else readSingle (pos.after c) (c :: space.before done) {} cs

/-! ## Escapes -/

/-- The character with a number, unless the number is none of a character. -/
def char? (n : Nat) : Option Char :=
  if n.isValidChar then some (Char.ofNat n) else none

/-- The character that a letter stands for behind a backslash. -/
def named? (c : Char) : Option Char :=
  match c with
  | '0' => some '\x00'
  | 'a' => some '\x07'
  | 'b' => some '\x08'
  | 't' | '\t' => some '\t'
  | 'n' => some '\n'
  | 'v' => some '\x0b'
  | 'f' => some '\x0c'
  | 'r' => some '\r'
  | 'e' => some '\x1b'
  | ' ' | '"' | '/' | '\\' => some c
  | 'N' => some '\u0085'
  | '_' => some '\u00a0'
  | 'L' => some '\u2028'
  | 'P' => some '\u2029'
  | _ => none

/-- How many digits follow a letter behind a backslash which is followed by a number. -/
def digitCount (c : Char) : Nat :=
  match c with
  | 'x' => 2
  | 'u' => 4
  | 'U' => 8
  | _ => 0

/-- The character that an escape stands for, and how many characters the escape has, the backslash
aside. -/
def escaped? : List Char → Option (Char × Nat)
  | [] => none
  | c :: cs =>
    match digitCount c with
    | 0 => (named? c).map (·, 1)
    | count =>
      let digits := cs.take count
      if digits.length < count then none
      else ((Decimal.digits? 16 digits).bind char?).map (·, 1 + count)

/-- Reads on behind a double quote. Of the scalar `done` was read, the last character first, and
`space` behind it. -/
def readDouble (pos : Position) (done : List Char) (space : Space) (cs : List Char) :
    Option (List Char × Cursor) :=
  match cs with
  | [] => none
  | c :: cs =>
    if isBreak c || isWhite c then readDouble (pos.after c) done (space.push c) cs
    else if pos.column = 0 && isDivider (c :: cs) then none
    else if c = '"' then
      some ((space.before done).reverse, { rest := cs, pos := pos.after c, keys := false })
    else if c = '\\' then
      match cs with
      | [] => none
      | b :: rest =>
        -- The blanks before an escaped line break belong to the text.
        if isBreak b then readDouble (pos.after b) (space.before done) .escapedBreak rest
        else
          match escaped? (b :: rest) with
          | none => none
          -- Escapes are made of ASCII, so their characters are as many as their bytes.
          | some (e, count) =>
            let pos :=
              { pos with column := pos.column + 1 + count, offset := pos.offset + 1 + count }
            readDouble pos (e :: space.before done) {} ((b :: rest).drop count)
    else readDouble (pos.after c) (c :: space.before done) {} cs
termination_by cs.length
decreasing_by all_goals (simp only [List.length_drop, List.length_cons]; omega)

end NetworkLoading.Yaml
