/-!
# Lower case
-/

namespace NetworkLoading.Text

/-- The lower case of a character if that is a letter of ASCII, which is so for the capitals of
ASCII and for the Kelvin sign. All other characters stay as they are. -/
def lower (c : Char) : Char :=
  if c = '\u212A' then 'k' else c.toLower

/-- Whether a text is the given word but for the case of letters. -/
def isWord (word : String) (s : String) : Bool :=
  s.toList.map lower = word.toList

end NetworkLoading.Text
