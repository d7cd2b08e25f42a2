/-!
# Text on terminals

A terminal takes some control characters for commands. In a message they are spelled out.
-/

namespace NetworkLoading.Text

/-- Whether a character can be a command: bell, backspace, form feed, escape and delete, and the
control characters behind those of ASCII. -/
def isCommand (c : Char) : Bool :=
  c = '\x07' || c = '\x08' || c = '\x0c' || c = '\x1b' || ('\x7f' ≤ c && c ≤ '\u009f')

/-- The number of a character in base 16, behind a backslash. -/
def spellOut (c : Char) : List Char :=
  let digits := Nat.toDigits 16 c.toNat
  -- Two digits always, so that a digit behind them is not taken for one of theirs.
  if c.toNat < 0x80 then ['\\', 'x'] ++ List.replicate (2 - digits.length) '0' ++ digits
  else ['\\', 'u', '\x7b'] ++ digits ++ ['\x7d']

/-- A text without commands. -/
def withoutCommands (s : String) : String :=
  String.ofList (s.toList.flatMap fun c => if isCommand c then spellOut c else [c])

end NetworkLoading.Text
