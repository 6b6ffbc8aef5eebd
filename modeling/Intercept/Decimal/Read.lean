import Intercept.Binary.Round
/-!
# Reading decimal floating-point text

The grammar of a floating-point option value written as a string: an optional sign, then
either `inf`, `infinity` or `nan` in any case, or a decimal number with at least one digit
before or after an optional point and an optional exponent `e` or `E` with its own optional
sign and at least one digit.  No hexadecimal form, no blanks, no digit separators.

A number denotes the exact rational its digits say, and its 64-bit value is that rational
rounded by `Binary.Format.nearest`.
-/

namespace Intercept.Decimal

/-- What decimal floating-point text denotes, before rounding. -/
inductive FloatText where
  /-- `(-1) ^ neg * digits * 10 ^ exponent`. -/
  | number (neg : Bool) (digits : Nat) (exponent : Int)
  /-- An infinity. -/
  | infinity (neg : Bool)
  /-- Not a number. -/
  | nan (neg : Bool)

def spanDigits (cs : List Char) : List Char × List Char :=
  (cs.takeWhile Char.isDigit, cs.dropWhile Char.isDigit)

/-- The value of a string of ASCII decimal digits (zero when empty). -/
def digitsValue (ds : List Char) : Nat :=
  ds.foldl (fun acc c => acc * 10 + (c.toNat - '0'.toNat)) 0

/-- Reads an exponent part `e`/`E`, optional sign, at least one digit, and nothing after it. -/
def readExponent? : List Char → Option Int
  | [] => some 0
  | c :: rest =>
    if c = 'e' ∨ c = 'E' then
      let (neg, body) := match rest with
        | '+' :: r => (false, r)
        | '-' :: r => (true, r)
        | r => (false, r)
      let (ds, tail) := spanDigits body
      if ds.isEmpty ∨ !tail.isEmpty then none
      else
        let v : Int := digitsValue ds
        some (if neg then -v else v)
    else none

def eqIgnoreCase (a b : List Char) : Bool :=
  a.map Char.toLower == b.map Char.toLower

/-- Reads the text after the sign. -/
def readUnsigned? (neg : Bool) (cs : List Char) : Option FloatText :=
  if eqIgnoreCase cs "inf".toList ∨ eqIgnoreCase cs "infinity".toList then some (.infinity neg)
  else if eqIgnoreCase cs "nan".toList then some (.nan neg)
  else
    let (whole, afterWhole) := spanDigits cs
    let (frac, afterFrac) := match afterWhole with
      | '.' :: r => spanDigits r
      | r => ([], r)
    if whole.isEmpty ∧ frac.isEmpty then none
    else
      match readExponent? afterFrac with
      | some e => some (.number neg (digitsValue (whole ++ frac)) (e - frac.length))
      | none => none

/-- Reads floating-point text: an optional sign, then a number, an infinity or a NaN. -/
def readFloat? : List Char → Option FloatText
  | '+' :: cs => readUnsigned? false cs
  | '-' :: cs => readUnsigned? true cs
  | cs => readUnsigned? false cs

def digitCount (n : Nat) : Nat := (Nat.toDigits 10 n).length

/-- The 64-bit value of the text, rounded to nearest with ties to even.  Exponents far
outside the format's range give zero or infinity without computing the power of ten. -/
def FloatText.toBits : FloatText → UInt64
  | .number neg digits e =>
    let sign := if neg then Binary.binary64.signBit else 0
    if digits = 0 then sign.toUInt64
    else
      let top := e + digitCount digits
      if 310 < top then (sign + Binary.binary64.infinity).toUInt64
      else if top < -330 then sign.toUInt64
      else (Binary.binary64.ofRational neg (digits * 10 ^ e.toNat) (10 ^ (-e).toNat)).toUInt64
  | .infinity neg =>
    ((if neg then Binary.binary64.signBit else 0) + Binary.binary64.infinity).toUInt64
  | .nan neg =>
    ((if neg then Binary.binary64.signBit else 0) + Binary.binary64.infinity +
      2 ^ 51).toUInt64

end Intercept.Decimal
