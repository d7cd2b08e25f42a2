/-!
# Shortest decimals

A 64-bit float stands for every real that rounds to it. Of the decimals among these reals, the ones
with the fewest digits are the shortest; of these the nearest to the float itself is chosen. All
arithmetic is exact, on natural numbers.
-/

namespace NetworkLoading.Decimal

/-- A positive finite float: `significand * 2 ^ exponent`. -/
structure Magnitude where
  significand : Nat
  exponent : Int
  /-- The float below is only half as far away as the float above. -/
  closeBelow : Bool
deriving DecidableEq

/-- A decimal: `digits * 10 ^ exponent`. -/
structure Figure where
  digits : Nat
  exponent : Int
deriving DecidableEq

/-- Which of two equally near decimals is chosen. -/
inductive Tie where
  | toEven
  | upward
deriving DecidableEq

/-- Reads the fields of the 64 bits of a finite float, the sign aside. -/
def Magnitude.ofBits (bits : UInt64) : Magnitude :=
  let fraction : Nat := bits.toNat % (1 <<< 52)
  let biased : Nat := bits.toNat >>> 52 % (1 <<< 11)
  -- Subnormal floats have no hidden bit and are equally far from each other.
  if biased = 0 then ⟨fraction, -1074, false⟩
  else ⟨(1 <<< 52) + fraction, (biased : Int) - 1075, fraction = 0 && 1 < biased⟩

/-- The multiples of one power of ten, measured in quarters of the last place of a magnitude: `d`
steps are as long as `q` quarters if `d * step = q * quarter`. -/
structure Grid where
  step : Nat
  quarter : Nat

/-- The grid of the multiples of `10 ^ e`. -/
def Magnitude.grid (x : Magnitude) (e : Int) : Grid where
  step := Nat.pow 10 e.toNat <<< (2 - x.exponent).toNat
  quarter := Nat.pow 10 (-e).toNat <<< (x.exponent - 2).toNat

/-- Whether `d` steps of a grid are among the reals that round to `x`. The two ends belong to the
float whose significand is even. -/
def Magnitude.reads (x : Magnitude) (g : Grid) (d : Nat) : Bool :=
  let low := (4 * x.significand - (if x.closeBelow then 1 else 2)) * g.quarter
  let high := (4 * x.significand + 2) * g.quarter
  if x.significand % 2 = 0 then low ≤ d * g.step && d * g.step ≤ high
  else low < d * g.step && d * g.step < high

/-- The one of the two grid points around `x` which is chosen, if any of them reads back. -/
def Magnitude.nearest? (x : Magnitude) (tie : Tie) (g : Grid) : Option Nat :=
  let exact := 4 * x.significand * g.quarter
  let below := exact / g.step
  match x.reads g below, x.reads g (below + 1) with
  | true, false => some below
  | false, true => some (below + 1)
  | false, false => none
  | true, true =>
    -- Both read back, so it matters on which side of their middle the float lies.
    match compare (2 * exact) ((2 * below + 1) * g.step) with
    | .lt => some below
    | .gt => some (below + 1)
    | .eq =>
      match tie with
      | .upward => some (below + 1)
      | .toEven => some (if below % 2 = 0 then below else below + 1)

/-- The least `k` with `x < 10 ^ k`, found near the estimate which the binary logarithm gives. -/
def Magnitude.scale (x : Magnitude) : Int :=
  -- The decimal logarithm of two is a little less than 0.30103.
  let log := (x.significand.log2 : Int) + x.exponent
  let start := log * 30103 / 100000 - 1
  let below (k : Int) : Bool :=
    let g := x.grid k
    4 * x.significand * g.quarter < g.step
  ([start, start + 1, start + 2, start + 3].find? below).getD (start + 4)

/-- Moves the trailing zeros of the digits into the exponent. -/
def Figure.strip (d : Figure) : Figure :=
  go d.digits d.digits d.exponent
where
  go : Nat → Nat → Int → Figure
    | 0, digits, e => ⟨digits, e⟩
    | fuel + 1, digits, e =>
      if digits % 10 = 0 then go fuel (digits / 10) (e + 1) else ⟨digits, e⟩

/-- The exact value, which reads back whatever happens. -/
def Magnitude.exact (x : Magnitude) : Figure :=
  ⟨(x.significand <<< x.exponent.toNat) * Nat.pow 5 (-x.exponent).toNat, min x.exponent 0⟩

/-- The shortest decimal of a magnitude: grids are tried from the coarsest on, and seventeen digits
are enough. -/
def Magnitude.shortest (x : Magnitude) (tie : Tie) : Figure :=
  let k := x.scale
  let tried := (List.range 17).findSome? fun n =>
    let e := k - (n + 1 : Nat)
    (x.nearest? tie (x.grid e)).map fun d => Figure.mk d e
  (tried.getD x.exact).strip

end NetworkLoading.Decimal
