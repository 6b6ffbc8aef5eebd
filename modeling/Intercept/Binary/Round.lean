import Intercept.Word
/-!
# Binary floating-point formats and rounding to them

An IEEE 754 binary interchange format is fixed by its precision and its exponent range.
This module takes a format's values apart into sign, significand and power of two
(`Format.decode`), and rounds an exact positive rational to the nearest value of a format,
a tie going to the value with an even significand and a result beyond the largest finite
value becoming infinity (`Format.nearest`).  Decimal numbers are read through `nearest`,
and a 64-bit value is narrowed to 32 bits through `decode` and `nearest`, so both follow
the same single rounding rule.

Main statements: `divNearestEven_le` and `le_divNearestEven` (the rounded quotient is one
of the two integers around the exact one).
-/

namespace Intercept.Binary

/-- An IEEE 754 binary interchange format. -/
structure Format where
  /-- Significand bits, the implicit leading bit included. -/
  precision : Nat
  /-- Bits of the biased exponent field. -/
  exponentBits : Nat
  /-- The weight of the lowest significand bit of the subnormal values. -/
  minQuantum : Int

def binary64 : Format := ⟨53, 11, -1074⟩

def binary32 : Format := ⟨24, 8, -149⟩

namespace Format

/-- The weight of the lowest significand bit of the largest finite values. -/
def maxQuantum (f : Format) : Int := 2 ^ f.exponentBits - 3 + f.minQuantum

/-- The implicit leading bit of a normal significand. -/
def hidden (f : Format) : Nat := 2 ^ (f.precision - 1)

def signBit (f : Format) : Nat := 2 ^ (f.precision - 1 + f.exponentBits)

def infinity (f : Format) : Nat := (2 ^ f.exponentBits - 1) * f.hidden

/-- A value of a format, taken apart. -/
inductive Parts where
  /-- The value `(-1) ^ neg * significand * 2 ^ quantum`. -/
  | finite (neg : Bool) (significand : Nat) (quantum : Int)
  /-- An infinity. -/
  | infinite (neg : Bool)
  /-- Not a number, with the fraction bits it carries. -/
  | nan (neg : Bool) (payload : Nat)

def decode (f : Format) (bits : Nat) : Parts :=
  let neg := bits / f.signBit % 2 == 1
  let biased := bits / f.hidden % 2 ^ f.exponentBits
  let fraction := bits % f.hidden
  if biased = 2 ^ f.exponentBits - 1 then
    if fraction = 0 then .infinite neg else .nan neg fraction
  else if biased = 0 then .finite neg fraction f.minQuantum
  else .finite neg (fraction + f.hidden) (biased + f.minQuantum - 1)

end Format

def atLeastPow2 (num den : Nat) (k : Int) : Bool :=
  if 0 ≤ k then den * 2 ^ k.toNat ≤ num else den ≤ num * 2 ^ (-k).toNat

/-- The exponent of the highest power of two that is at most `num / den`, for positive `num`
and `den`. -/
def floorLog2 (num den : Nat) : Int :=
  let k : Int := (Nat.log2 num : Int) - Nat.log2 den
  if atLeastPow2 num den k then k else k - 1

/-- The quotient `n / d` rounded to the nearest integer, a tie going to the even one. -/
def divNearestEven (n d : Nat) : Nat :=
  let q := n / d
  let r := n % d
  if 2 * r < d then q
  else if d < 2 * r then q + 1
  else if q % 2 = 0 then q else q + 1

theorem divNearestEven_le (n d : Nat) : divNearestEven n d ≤ n / d + 1 := by
  simp only [divNearestEven]
  split <;> (try split) <;> (try split) <;> omega

theorem le_divNearestEven (n d : Nat) : n / d ≤ divNearestEven n d := by
  simp only [divNearestEven]
  split <;> (try split) <;> (try split) <;> omega

namespace Format

/-- The bits (sign clear) of the value of the format nearest to the positive rational
`num / den`: ties go to an even significand, and values beyond the largest finite one become
infinity.  Zero for `num = 0`. -/
def nearest (f : Format) (num den : Nat) : Nat :=
  if num = 0 then 0 else
  let q0 := max (floorLog2 num den - (f.precision - 1 : Nat)) f.minQuantum
  let m0 :=
    if 0 ≤ q0 then divNearestEven num (den * 2 ^ q0.toNat)
    else divNearestEven (num * 2 ^ (-q0).toNat) den
  -- rounding up may carry into a new leading bit
  let (m, q) := if m0 = 2 ^ f.precision then (f.hidden, q0 + 1) else (m0, q0)
  if f.maxQuantum < q then f.infinity
  else if m < f.hidden then m
  else (q - f.minQuantum + 1).toNat * f.hidden + (m - f.hidden)

def ofRational (f : Format) (neg : Bool) (num den : Nat) : Nat :=
  (if neg then f.signBit else 0) + f.nearest num den

end Format

/-- Narrows a 64-bit value to 32 bits: finite values are rounded to nearest, ties to even;
infinities keep their sign; a NaN keeps its sign and the top of its payload, and is quiet. -/
def narrow (bits : UInt64) : UInt32 :=
  match binary64.decode bits.toNat with
  | .finite neg m q =>
    (binary32.ofRational neg (m * 2 ^ q.toNat) (2 ^ (-q).toNat)).toUInt32
  | .infinite neg => ((if neg then binary32.signBit else 0) + binary32.infinity).toUInt32
  | .nan neg payload =>
    ((if neg then binary32.signBit else 0) + binary32.infinity +
      (payload / 2 ^ 29 ||| 2 ^ 22)).toUInt32

end Intercept.Binary
