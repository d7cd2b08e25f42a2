import NetworkLoading.Yaml.Cursor

/-!
# Folding

Within a scalar that is not a block, a line break stands for a space, and further line breaks after
it stand for themselves. Blanks around line breaks do not count.
-/

namespace NetworkLoading.Yaml

/-- Blanks and line breaks between two words of a scalar. -/
structure Space where
  /-- The blanks before the first line break. -/
  blanks : List Char := []
  /-- Whether there is a line break. -/
  broken : Bool := false
  /-- The first line break, unless it was escaped. -/
  first : List Char := []
  further : List Char := []
deriving DecidableEq, Repr

namespace Space

/-- A line break that stands for nothing. -/
def escapedBreak : Space :=
  { broken := true }

/-- One more blank or line break. -/
def push (s : Space) (c : Char) : Space :=
  if isBreak c then
    if s.broken then { s with further := s.further ++ [c] }
    else { s with broken := true, first := [c] }
  -- Blanks at the start of a line are indentation.
  else if s.broken then s
  else { s with blanks := s.blanks ++ [c] }

/-- What the space stands for. -/
def text (s : Space) : List Char :=
  if !s.broken then s.blanks
  else if s.first = ['\n'] then if s.further = [] then [' '] else s.further
  -- Only a line feed is folded, the separators are part of the text.
  else s.first ++ s.further

/-- What the space stands for, put in front of a text that is read backwards. -/
def before (s : Space) (done : List Char) : List Char :=
  s.text.reverse ++ done

end Space

end NetworkLoading.Yaml
