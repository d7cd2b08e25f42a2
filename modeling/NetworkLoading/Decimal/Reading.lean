/-!
# Reading numbers

Whole numbers and decimal fractions, as a person writes them in a setting.
-/

namespace NetworkLoading.Decimal

/-- The value of a digit in bases up to sixteen. -/
def digit? (base : Nat) (c : Char) : Option Nat :=
  let value :=
    if '0' ≤ c && c ≤ '9' then c.toNat - '0'.toNat
    else if 'a' ≤ c && c ≤ 'f' then c.toNat - 'a'.toNat + 10
    else if 'A' ≤ c && c ≤ 'F' then c.toNat - 'A'.toNat + 10
    else base
  if value < base then some value else none

/-- The number that a list of digits stands for. -/
def digits? (base : Nat) (cs : List Char) : Option Nat :=
  if cs.isEmpty then none
  -- A character which is no digit spoils the number, wherever it stands.
  else cs.foldl (fun n? c => n?.bind fun n => (digit? base c).map (n * base + ·)) (some 0)

/-- A whole number below a bound: digits after an optional plus sign. -/
def natBelow? (bound : Nat) (s : String) : Option Nat :=
  let cs := match s.toList with
    | '+' :: rest => rest
    | cs => cs
  -- A number which is too great is no number at all, it does not wrap around.
  (digits? 10 cs).filter (· < bound)

def uint32? (s : String) : Option UInt32 :=
  (natBelow? UInt32.size s).map UInt32.ofNat

def uint64? (s : String) : Option UInt64 :=
  (natBelow? UInt64.size s).map UInt64.ofNat

/-- The float nearest to `digits * 10 ^ exponent`. Exponents beyond the range of floats are cut off
first, where the answer is infinity or zero already. -/
def nearest (digits : Nat) (exponent : Int) : Float :=
  if digits = 0 then 0
  else
    let leading := exponent + ((Nat.repr digits).length : Int)
    if 400 < leading then 1 / 0
    else if leading < -400 then 0
    else if 0 ≤ exponent then Float.ofScientific digits false exponent.toNat
    else Float.ofScientific digits true (-exponent).toNat

/-- The digits of an exponent after its optional sign. -/
def exponent? : List Char → Option Int
  | '+' :: cs => (digits? 10 cs).map Int.ofNat
  | '-' :: cs => (digits? 10 cs).map fun n => -(n : Int)
  | cs => (digits? 10 cs).map Int.ofNat

/-- Digits with an optional point among them and an optional exponent. -/
def decimal? (cs : List Char) : Option Float :=
  let whole := cs.takeWhile Char.isDigit
  let (fraction, rest) := match cs.dropWhile Char.isDigit with
    | '.' :: tail => (tail.takeWhile Char.isDigit, tail.dropWhile Char.isDigit)
    | tail => ([], tail)
  -- A point alone is refused here, since there are no digits on either side.
  (digits? 10 (whole ++ fraction)).bind fun digits =>
    let places := -(fraction.length : Int)
    match rest with
    | [] => some (nearest digits places)
    | e :: tail =>
      if e = 'e' || e = 'E' then (exponent? tail).map fun n => nearest digits (n + places)
      else none

/-- A float without its sign: a decimal, or infinity or no number in letters of any case. -/
def unsigned? (cs : List Char) : Option Float :=
  let word := cs.map Char.toLower
  if word = "inf".toList || word = "infinity".toList then some (1 / 0)
  else if word = "nan".toList then some (0 / 0)
  else decimal? cs

/-- A float with an optional sign. -/
def float? (s : String) : Option Float :=
  match s.toList with
  | '+' :: cs => unsigned? cs
  | '-' :: cs => (unsigned? cs).map Float.neg
  | cs => unsigned? cs

end NetworkLoading.Decimal
