import NetworkLoading.Yaml.Fold

/-!
# Plain scalars

Text without quotes. It ends at a colon or a comment, at a line that is not indented enough, and
between brackets at everything that has a meaning there.
-/

namespace NetworkLoading.Yaml

/-- Where a plain scalar stands. -/
structure PlainContext where
  inFlow : Bool
  /-- The least column in which it can go on in another line. -/
  indent : Nat

namespace PlainContext

/-- Whether a plain scalar ends before this text, inside a line. -/
def endsBefore (ctx : PlainContext) : List Char → Bool
  | [] => true
  | c :: cs => (c = ':' && wordEnds cs) || (ctx.inFlow && ",[]\x7b\x7d".toList.contains c)

/-- Whether a plain scalar ends before this text, where a word could begin. -/
def endsAtWord (ctx : PlainContext) (pos : Position) (broken : Bool) (cs : List Char) : Bool :=
  (broken && !ctx.inFlow && pos.column < ctx.indent) || (pos.column = 0 && isDivider cs)
    || cs.head? = some '#'

/-- Between brackets a colon must not touch what has a meaning there. -/
def clash (ctx : PlainContext) : List Char → Bool
  | ':' :: c :: _ => ctx.inFlow && ",?[]\x7b\x7d".toList.contains c
  | _ => false

/-- Reads on in a plain scalar, of which `done` was read, the last character first, and `space`
behind it. -/
def read (ctx : PlainContext) (pos : Position) (done : List Char) (space : Space) :
    List Char → Option (List Char × Cursor)
  | [] => some (done.reverse, { rest := [], pos, keys := space.broken })
  | c :: cs =>
    if isBreak c then ctx.read (pos.after c) done (space.push c) cs
    else if isWhite c then
      if c = '\t' && space.broken && pos.column < ctx.indent then none
      else ctx.read (pos.after c) done (space.push c) cs
    else
      -- A number sign or a divider ends the scalar only where a word could begin.
      let finished := space ≠ {} && ctx.endsAtWord pos space.broken (c :: cs)
      if !finished && ctx.clash (c :: cs) then none
      else if finished || ctx.endsBefore (c :: cs) then
        some (done.reverse, { rest := c :: cs, pos, keys := space.broken })
      else ctx.read (pos.after c) (c :: space.before done) {} cs

end PlainContext

end NetworkLoading.Yaml
