import NetworkLoading.Decimal.Shortest

/-!
# Written floats

How a float is laid out as text, given the decisions of one format.
-/

namespace NetworkLoading.Decimal

/-- The decisions of a format for floats. -/
structure Layout where
  /-- Which of two equally near shortest decimals is written. -/
  tie : Tie
  /-- The exponents of the leading digit, from the first to before the second, which are written
  without an exponent; none if all are. -/
  plain : Option (Int × Int)
  /-- Whether whole numbers end in `.0`. -/
  pointZero : Bool
  infinity : String
  nan : String

/-- A decimal without an exponent. -/
def Figure.positional (d : Figure) (pointZero : Bool) : String :=
  let digits := (Nat.repr d.digits).toList
  let wholeOnly (ds : List Char) := String.ofList ds ++ if pointZero then ".0" else ""
  if 0 ≤ d.exponent then wholeOnly (digits ++ List.replicate d.exponent.toNat '0')
  else
    let places := (-d.exponent).toNat
    -- There is at least one digit before the point, if only a zero.
    let padded := List.replicate (places + 1 - digits.length) '0' ++ digits
    let whole := padded.take (padded.length - places)
    String.ofList (whole ++ '.' :: padded.drop (padded.length - places))

/-- A decimal with one digit before the point and an exponent. -/
def Figure.scientific (d : Figure) : String :=
  let digits := Nat.repr d.digits
  let leading := d.exponent + (digits.length : Int) - 1
  let mantissa := match digits.toList with
    -- A single digit has no point behind it.
    | first :: second :: rest => String.ofList (first :: '.' :: second :: rest)
    | _ => digits
  mantissa ++ "e" ++ (if leading < 0 then "-" else "") ++ Nat.repr leading.natAbs

/-- A positive finite float or zero. -/
def Layout.magnitude (l : Layout) (bits : UInt64) : String :=
  let x := Magnitude.ofBits bits
  -- Zero has no leading digit whose exponent could decide.
  if x.significand = 0 then Figure.positional ⟨0, 0⟩ l.pointZero
  else
    let d := x.shortest l.tie
    let leading := d.exponent + ((Nat.repr d.digits).length : Int) - 1
    match l.plain with
    | none => d.positional l.pointZero
    | some (first, last) =>
      if first ≤ leading && leading < last then d.positional l.pointZero else d.scientific

/-- The text of a float. -/
def Layout.write (l : Layout) (x : Float) : String :=
  if x.isNaN then l.nan
  else
    let bits := x.toBits
    -- Negative zero has its sign, too.
    let sign := if bits.toNat >>> 63 = 1 then "-" else ""
    sign ++ if x.isInf then l.infinity else l.magnitude bits

/-- Numbers within messages: never an exponent, and no point in whole numbers. -/
def message : Layout where
  tie := .upward
  plain := none
  pointZero := false
  infinity := "inf"
  nan := "NaN"

/-- Numbers within diagnostic texts: an exponent for the very large and the very small. -/
def diagnostic : Layout where
  tie := .upward
  plain := some (-4, 16)
  pointZero := true
  infinity := "inf"
  nan := "NaN"

end NetworkLoading.Decimal
