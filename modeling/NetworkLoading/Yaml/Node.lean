import NetworkLoading.Decimal.Layout
import NetworkLoading.Decimal.Reading

/-!
# Nodes

The content of a document without its layout, and what can be read from single nodes. Whether a
scalar is a number or a truth value depends on who reads it; in quotes it is text in any case.
-/

namespace NetworkLoading.Yaml

inductive Node where
  /-- A text. It is plain if it stands without quotes and outside of a block. -/
  | scalar (text : String) (plain : Bool)
  | sequence (items : List Node)
  | mapping (entries : List (Node × Node))

namespace Node

/-- What stands where nothing is written. -/
def empty : Node :=
  .scalar "" true

/-! ## Scalars -/

/-- The text of a scalar. -/
def text? : Node → Option String
  | .scalar text _ => some text
  | _ => none

/-- The text of a plain scalar. -/
def plain? : Node → Option String
  | .scalar text true => some text
  | _ => none

/-- A truth value: in lower case, in capitals, or with one capital. -/
def boolOf? (s : String) : Option Bool :=
  if s ∈ ["true", "True", "TRUE"] then some true
  else if s ∈ ["false", "False", "FALSE"] then some false
  else none

/-- Whether digits are no number because they begin with a needless zero. -/
def hasNeedlessZero : List Char → Bool
  | '0' :: c :: cs => (c :: cs).all Char.isDigit
  | _ => false

/-- The digits of a whole number: decimal, or in another base which a letter tells. -/
def digitsOf? : List Char → Option Nat
  | '0' :: 'x' :: cs => Decimal.digits? 16 cs
  | '0' :: 'o' :: cs => Decimal.digits? 8 cs
  | '0' :: 'b' :: cs => Decimal.digits? 2 cs
  | cs => if hasNeedlessZero cs then none else Decimal.digits? 10 cs

/-- A whole number which is not negative, after an optional plus sign. -/
def natOf? (s : String) : Option Nat :=
  match s.toList with
  | '+' :: cs => digitsOf? cs
  | cs => digitsOf? cs

/-- A float: finite in decimal notation, or one of the words for infinity and for no number. -/
def floatOf? (s : String) : Option Float :=
  if s ∈ [".inf", ".Inf", ".INF", "+.inf", "+.Inf", "+.INF"] then some (1 / 0)
  else if s ∈ ["-.inf", "-.Inf", "-.INF"] then some (-1 / 0)
  else if s ∈ [".nan", ".NaN", ".NAN"] then some (0 / 0)
  -- The words for infinity begin with a point here, and a number which is too great is none.
  else (Decimal.float? s).filter Float.isFinite

/-- How floats are written: an exponent for the very large and the very small, and always a sign
that it is no whole number. -/
def float : Decimal.Layout where
  tie := .toEven
  plain := some (-5, 16)
  pointZero := true
  infinity := ".inf"
  nan := ".nan"

def bool? (n : Node) : Option Bool :=
  n.plain?.bind boolOf?

def nat? (n : Node) : Option Nat :=
  n.plain?.bind natOf?

def uint32? (n : Node) : Option UInt32 :=
  (n.nat?.filter (· < UInt32.size)).map UInt32.ofNat

def uint64? (n : Node) : Option UInt64 :=
  (n.nat?.filter (· < UInt64.size)).map UInt64.ofNat

def float? (n : Node) : Option Float :=
  n.plain?.bind floatOf?

/-! ## Collections -/

/-- The texts of a sequence of scalars. Nothing is an empty sequence. -/
def texts? : Node → Option (List String)
  | .scalar "" true => some []
  | .sequence items => items.mapM text?
  | _ => none

/-- The entries of a mapping whose keys are texts. Nothing is an empty mapping. -/
def entries? : Node → Option (List (String × Node))
  | .scalar "" true => some []
  | .mapping entries => entries.mapM fun (key, value) => key.text?.map (·, value)
  | _ => none

/-- The entries of a mapping in which none of the given keys occurs twice. -/
def fields? (n : Node) (keys : List String) : Option (List (String × Node)) :=
  -- A key that nobody asks for may occur as often as it likes.
  n.entries?.filter fun entries => ((entries.map (·.1)).filter (· ∈ keys)).Nodup

end Node

/-- Reads the field with a key, or yields the default if there is none. -/
def field {α : Type} (entries : List (String × Node)) (key : String) (default : α)
    (read : Node → Option α) : Option α :=
  match entries.lookup key with
  | none => some default
  | some node => read node

end NetworkLoading.Yaml
