import Intercept.Binary.Round
/-!
# Scaling a decimal significand step by step

JSON numbers are read into binary64 without rounding the decimal value once.  The digits
become an integer significand `s` and a power of ten `e`, and the value is computed with
binary64 arithmetic: `s` is rounded to binary64, then multiplied or divided by the binary64
value of `10 ^ |e|`, each operation rounding to nearest with ties to even.  Powers beyond
`10 ^ 308` are reached by dividing by `10 ^ 308` repeatedly, until the power left is in range
or the value has become zero; a positive power beyond `10 ^ 308`, or a product that overflows,
has no value.

The result can differ from the correctly rounded value in the last bit: `103.00050325866657`
is `10300050325866657 / 10 ^ 14`, and the quotient of the two rounded operands rounds to the
double below the one nearest to the decimal.

## Main statements

* `scale_zero` — a zero significand gives zero, whatever the power.
-/

namespace Intercept.Decimal

open Binary

/-- The exact value of the bits of a finite binary64 value of either sign, without its sign,
as a fraction. -/
def magnitude (bits : Nat) : Nat × Nat :=
  match binary64.decode bits with
  | .finite _ m q => (m * 2 ^ q.toNat, 2 ^ (-q).toNat)
  | _ => (0, 1)

/-- The binary64 product of two positive finite values, rounded to nearest. -/
def mulNearest (a b : Nat) : Nat :=
  let (n₁, d₁) := magnitude a
  let (n₂, d₂) := magnitude b
  binary64.nearest (n₁ * n₂) (d₁ * d₂)

/-- The binary64 quotient of two positive finite values, rounded to nearest. -/
def divNearest (a b : Nat) : Nat :=
  let (n₁, d₁) := magnitude a
  let (n₂, d₂) := magnitude b
  binary64.nearest (n₁ * d₂) (d₁ * n₂)

def pow10 (k : Nat) : Nat := binary64.nearest (10 ^ k) 1

/-- The largest power of ten that is applied in one step. -/
def maxStep : Nat := 308

/-- Scales the binary64 value `f` by `10 ^ e`, one rounded step at a time, with `fuel` steps of
dividing by `10 ^ maxStep` allowed.  Nothing when the result overflows. -/
def scaleBy : Nat → Nat → Int → Option Nat
  | fuel, f, e =>
    if e.natAbs ≤ maxStep then
      if 0 ≤ e then
        let g := mulNearest f (pow10 e.natAbs)
        if g = binary64.infinity then none else some g
      else some (divNearest f (pow10 e.natAbs))
    else if f = 0 then some 0
    else if 0 ≤ e then none
    else
      match fuel with
      | 0 => some 0
      | fuel + 1 => scaleBy fuel (divNearest f (pow10 maxStep)) (e + maxStep)

/-- The binary64 bits (sign clear) of `s * 10 ^ e` computed step by step, or nothing when the
value overflows. -/
def scale (s : Nat) (e : Int) : Option Nat :=
  scaleBy (e.natAbs / maxStep + 1) (binary64.nearest s 1) e

theorem nearest_zero (den : Nat) : binary64.nearest 0 den = 0 := by
  simp [Format.nearest]

theorem magnitude_zero : (magnitude 0).1 = 0 := by
  rfl

theorem scale_zero (e : Int) : scale 0 e = some 0 := by
  have hz : ∀ p, mulNearest 0 p = 0 ∧ divNearest 0 p = 0 := by
    intro p
    simp only [mulNearest, divNearest]
    have h := magnitude_zero
    revert h
    cases magnitude 0
    intro h
    simp only at h
    subst h
    simp [nearest_zero]
  have hinf : (0 : Nat) ≠ binary64.infinity := by decide
  unfold scale
  rw [nearest_zero]
  cases e.natAbs / maxStep + 1 with
  | zero => unfold scaleBy; simp [(hz _).1, (hz _).2, hinf]
  | succ n => unfold scaleBy; simp [(hz _).1, (hz _).2, hinf]

end Intercept.Decimal
