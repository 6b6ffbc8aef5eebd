import Intercept.Binary.Round
/-!
# Shortest decimal digits of a binary64 value

A finite positive value `m * 2 ^ q` of the 64-bit format stands for every real that rounds
to it: the interval from halfway to its lower neighbour to halfway to its upper neighbour,
both ends included exactly when `m` is even.  The shortest text of the value is a decimal
with the fewest significant digits inside that interval; of two such decimals the nearer one
is taken, and an exact tie goes to the even one.

`shortest` searches the decimal grids `10 ^ e` from coarse to fine: on each grid only the two
neighbours of the value can lie in the interval, so each grid costs two exact comparisons in
`Nat` arithmetic.  The layout of the digits (where positional notation ends, how the exponent
is written) is not decided here but by a `Layout` record of the format that prints them.
-/

namespace Intercept.Decimal

/-- A positive decimal `digits * 10 ^ exponent`. -/
structure Scientific where
  /-- The significant digits, as a number. -/
  digits : Nat
  /-- The power of ten of the last digit. -/
  exponent : Int

/-- The positive and negative parts of an integer, as naturals. -/
def posPart (k : Int) : Nat := k.toNat
def negPart (k : Int) : Nat := (-k).toNat

/-- Compares `c * 10 ^ e` with `x * 2 ^ q / 4`. -/
def compareQuarter (c : Nat) (e : Int) (x : Nat) (q : Int) : Ordering :=
  compare (c * 4 * 10 ^ posPart e * 2 ^ negPart q) (x * 2 ^ posPart q * 10 ^ negPart e)

/-- The rounding interval of `m * 2 ^ q`, in units of `2 ^ q / 4`: its ends and whether they
belong to it. -/
structure Interval where
  /-- Lower end. -/
  low : Nat
  /-- Upper end. -/
  high : Nat
  /-- Whether both ends belong to the interval. -/
  closed : Bool

/-- The rounding interval of a finite positive value.  Its lower half is narrower when the
significand is a power of two above the subnormal range, since the gap below it halves. -/
def Interval.ofParts (m : Nat) (q : Int) : Interval :=
  let narrowBelow := m == Binary.binary64.hidden && Binary.binary64.minQuantum < q
  { low := if narrowBelow then 4 * m - 1 else 4 * m - 2
    high := 4 * m + 2
    closed := m % 2 == 0 }

/-- Whether the decimal `c * 10 ^ e` lies in the interval of a value with quantum `q`. -/
def Interval.contains (i : Interval) (q : Int) (c : Nat) (e : Int) : Bool :=
  let above := compareQuarter c e i.low q
  let below := compareQuarter c e i.high q
  if i.closed then above != .lt && below != .gt
  else above == .gt && below == .lt

/-- The decimal of the grid `10 ^ e` that is inside the interval and nearest to `m * 2 ^ q`,
if one is. -/
def onGrid (m : Nat) (q : Int) (e : Int) : Option Nat :=
  let i := Interval.ofParts m q
  let num := m * 2 ^ posPart q * 10 ^ negPart e
  let den := 2 ^ negPart q * 10 ^ posPart e
  let lo := num / den
  let rem := num % den
  let loIn := lo != 0 && i.contains q lo e
  let hiIn := i.contains q (lo + 1) e
  if loIn && hiIn then
    if 2 * rem < den then some lo
    else if den < 2 * rem then some (lo + 1)
    else if lo % 2 = 0 then some lo else some (lo + 1)
  else if loIn then some lo
  else if hiIn then some (lo + 1)
  else none

/-- Removes trailing zero digits, moving them into the exponent. -/
def Scientific.normalize (s : Scientific) : Scientific :=
  go s.digits s.exponent s.digits
where
  /-- Strips at most `fuel` zeros. -/
  go (d : Nat) (e : Int) : Nat → Scientific
    | 0 => ⟨d, e⟩
    | fuel + 1 => if d ≠ 0 ∧ d % 10 = 0 then go (d / 10) (e + 1) fuel else ⟨d, e⟩

/-- Searches the grids `10 ^ e, 10 ^ (e - 1), …`, at most `fuel` of them. -/
def searchGrids (m : Nat) (q : Int) : Int → Nat → Option Scientific
  | _, 0 => none
  | e, fuel + 1 =>
    match onGrid m q e with
    | some c => some ⟨c, e⟩
    | none => searchGrids m q (e - 1) fuel

/-- A power of ten at least as large as the leading digit's: `m * 2 ^ q < 2 ^ bits`, and
`30103 / 100000` is just above the decimal logarithm of two. -/
def leadEstimate (m : Nat) (q : Int) : Int :=
  let bits : Int := (Nat.log2 m + 1 : Nat) + q
  (bits * 30103).fdiv 100000 + 1

/-- The shortest decimal of the finite positive value `m * 2 ^ q`, nearest of the shortest,
ties to even.  Seventeen digits always suffice, so twenty-one grids from the estimate do. -/
def shortest (m : Nat) (q : Int) : Scientific :=
  match searchGrids m q (leadEstimate m q) 21 with
  | some s => s.normalize
  | none => (Scientific.mk (m * 2 ^ posPart q * 5 ^ negPart q) (-(negPart q : Int))).normalize

def Scientific.length (s : Scientific) : Nat := (Nat.toDigits 10 s.digits).length

/-- The power of ten of the leading digit. -/
def Scientific.lead (s : Scientific) : Int := s.exponent + s.length - 1

/-- How a format lays out decimal digits. -/
structure Layout where
  /-- The lowest power of ten of a leading digit that is still written positionally. -/
  minPositional : Int
  /-- The highest power of ten of a leading digit that is still written positionally. -/
  maxPositional : Int
  /-- Whether a positional integer keeps a point and one zero (`5.0`). -/
  pointZero : Bool
  /-- The mark between significand and exponent. -/
  exponentMark : String
  /-- Whether a positive exponent is written with `+`. -/
  plusSign : Bool

/-- Writes a positive decimal in the given layout. -/
def Layout.render (l : Layout) (s : Scientific) : String :=
  let ds := Nat.toDigits 10 s.digits
  let n := ds.length
  let p := s.lead
  if l.minPositional ≤ p ∧ p ≤ l.maxPositional then
    if p + 1 ≥ n then
      String.ofList (ds ++ List.replicate (p + 1 - n).toNat '0') ++ (if l.pointZero then ".0" else "")
    else if 0 ≤ p then
      String.ofList (ds.take (p + 1).toNat ++ '.' :: ds.drop (p + 1).toNat)
    else
      "0." ++ String.ofList (List.replicate (-p - 1).toNat '0' ++ ds)
  else
    let mantissa := match ds with
      | [] => ""
      | [d] => String.ofList [d]
      | d :: rest => String.ofList (d :: '.' :: rest)
    let sign := if p < 0 then "-" else if l.plusSign then "+" else ""
    mantissa ++ l.exponentMark ++ sign ++ String.ofList (Nat.toDigits 10 p.natAbs)

/-- Writes the bits of a finite 64-bit value in the given layout, with `-` for negative values
and the sign of zero kept. -/
def Layout.renderBits (l : Layout) (bits : UInt64) : String :=
  match Binary.binary64.decode bits.toNat with
  | .finite neg m q =>
    let body := if m = 0 then (if l.pointZero then "0.0" else "0") else l.render (shortest m q)
    (if neg then "-" else "") ++ body
  | .infinite neg => if neg then "-inf" else "inf"
  | .nan _ _ => "NaN"

end Intercept.Decimal
