import Intercept.Word
/-!
# Unsigned numerals

Reading a whole string as an unsigned machine word in a radix from 2 to 36: one optional
leading `+`, then at least one digit, where the letters `a` to `z` of either case stand for
the digits from ten on.  A value that needs more than 64 bits is no word.  This is the
reading of integer parameters written as strings (`"0x1f"`, `"+42"`), and its digit class
is also the one the address resolver scans with.
-/

namespace Intercept.Text

/-- The value of a character as a digit of the given radix, letters of either case from ten on. -/
def digitValue? (radix : Nat) (c : Char) : Option Nat :=
  let v? : Option Nat :=
    if '0' ≤ c ∧ c ≤ '9' then some (c.toNat - '0'.toNat)
    else if 'a' ≤ c ∧ c ≤ 'z' then some (c.toNat - 'a'.toNat + 10)
    else if 'A' ≤ c ∧ c ≤ 'Z' then some (c.toNat - 'A'.toNat + 10)
    else none
  match v? with
  | some v => if v < radix then some v else none
  | none => none

def isDigitIn (radix : Nat) (c : Char) : Bool := (digitValue? radix c).isSome

/-- The value of a digit string, most significant digit first; `none` if it is empty or holds
a character that is no digit. -/
def digitsValue? (radix : Nat) (cs : List Char) : Option Nat :=
  if cs.isEmpty then none
  else cs.foldlM (fun acc c => (digitValue? radix c).map (fun d => acc * radix + d)) 0

/-- Reads a whole string as a word: an optional `+`, then digits of the radix, below `2 ^ 64`. -/
def readWord? (radix : Nat) : List Char → Option Word
  | '+' :: ds => readDigits ds
  | cs => readDigits cs
where
  /-- The digits alone, as a word. -/
  readDigits (ds : List Char) : Option Word :=
    match digitsValue? radix ds with
    | some n => if n < 2 ^ 64 then some n.toUInt64 else none
    | none => none

end Intercept.Text
