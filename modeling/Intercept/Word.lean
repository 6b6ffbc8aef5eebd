import Intercept.Text.Blank
/-!
# Machine words and their bytes

Every address, register value and offset of the engine is a 64-bit machine word, and all
arithmetic on words wraps modulo `2 ^ 64`.  This module fixes that type and the two
encodings the engine needs:

* little-endian byte strings (`Word.toBytes`, `Word.ofBytes`), used for memory reads,
  branch displacements and the layout of code templates;
* lowercase hexadecimal text (`Word.hex`, `Bytes.hex`), used in messages and byte dumps;
  byte text is read back (`Bytes.ofHex`) two bytes of text to a byte, each pair two digits of
  either case or a plus sign and one digit, with blank characters anywhere dropped first.

Main statement: `Word.toBytes_length` (a word is written as exactly the bytes asked for).

## Arithmetic conventions

The engine computes with core's natural numbers and integers: `2 ^ n` is `Nat.pow`, and the
sum of a list of lengths starts from the literal `0`.  A library of algebra loaded beside this
one declares further instances for the same notation (powers and zero of a monoid), and at
default priority they would be tried first, so that one definition here would stand for two
different terms, depending on what else is loaded.  Core's instances get priority `high` for
that reason.  Such a library also makes its power the default one for an exponent whose type is
not yet known (`2 ^ 64`), at priority `high`, so core's default goes one above it.  The terms
agree up to unfolding of instances, so lemmas stated for monoids still apply to them.
-/

attribute [instance (high)] Zero.ofOfNat0
attribute [instance (high), default_instance (high + 1)] instPowNat

namespace Intercept

/-- Machine words: 64 bits wide, with wrapping arithmetic. -/
abbrev Word := UInt64

/-- Byte strings, least significant byte first where they encode a number. -/
abbrev Bytes := List UInt8

namespace Word

/-- The word with the given two's complement value. -/
def ofInt (i : Int) : Word := UInt64.ofInt i

/-- The two's complement value of a word: words from `2 ^ 63` on are negative. -/
def toSigned (w : Word) : Int :=
  if w.toNat < 2 ^ 63 then w.toNat else (w.toNat : Int) - 2 ^ 64

/-- The low `n` bytes of a word, least significant first; past the eighth byte they are zero. -/
def toBytes (w : Word) : Nat → Bytes
  | 0 => []
  | n + 1 => w.toUInt8 :: toBytes (w >>> 8) n

/-- The word whose low bytes are the given ones, least significant first. -/
def ofBytes : Bytes → Word
  | [] => 0
  | b :: bs => b.toUInt64 ||| (ofBytes bs <<< 8)

/-- Keeps the low `size` bytes of a word, as a read through a narrower pointer does. -/
def truncate (w : Word) (size : Nat) : Word :=
  if 8 ≤ size then w else w &&& ((1 <<< (size * 8).toUInt64) - 1)

/-- Lowercase hexadecimal digits of a number, without leading zeros ("0" for zero). -/
def hexDigits (n : Nat) : String :=
  String.ofList (Nat.toDigits 16 n)

/-- Lowercase hexadecimal text of a word, without prefix or padding. -/
def hex (w : Word) : String := hexDigits w.toNat

/-- Hexadecimal text with a `0x` prefix, zero-padded to at least eight digits. -/
def hexPadded (w : Word) : String :=
  let ds := Nat.toDigits 16 w.toNat
  "0x" ++ String.ofList (List.replicate (8 - ds.length) '0' ++ ds)

@[simp] theorem toBytes_length (w : Word) (n : Nat) : (w.toBytes n).length = n := by
  induction n generalizing w with
  | zero => rfl
  | succ n ih => simp [toBytes, ih]

end Word

namespace Bytes

def hexByte (b : UInt8) : List Char :=
  [Nat.digitChar (b.toNat / 16), Nat.digitChar (b.toNat % 16)]

/-- Lowercase hexadecimal text of a byte string, two digits per byte. -/
def hex (bs : Bytes) : String :=
  String.ofList (bs.flatMap hexByte)

def hexDigitValue? (c : Char) : Option Nat :=
  if '0' ≤ c ∧ c ≤ '9' then some (c.toNat - '0'.toNat)
  else if 'a' ≤ c ∧ c ≤ 'f' then some (c.toNat - 'a'.toNat + 10)
  else if 'A' ≤ c ∧ c ≤ 'F' then some (c.toNat - 'A'.toNat + 10)
  else none

/-- The byte a pair of characters writes in hexadecimal: two digits, or a plus sign and one
digit. -/
def pairValue? (a b : Char) : Option UInt8 := do
  let lo ← hexDigitValue? b
  if a = '+' then pure lo.toUInt8
  else
    let hi ← hexDigitValue? a
    pure (hi * 16 + lo).toUInt8

/-- Why byte text cannot be read. -/
inductive HexError where
  /-- The text, blanks dropped, takes an odd number of bytes in UTF-8. -/
  | oddLength
  /-- Two bytes of the text do not write a byte in hexadecimal. -/
  | badByte
  /-- The two bytes that end at byte `stop` end inside the character `c`, which starts at
  byte `start`. -/
  | splitsChar (stop : Nat) (c : Char) (start : Nat)
  deriving DecidableEq, Repr

/-- Reads text two UTF-8 bytes at a time as bytes, `pos` being the byte offset of the first
character.  Two bytes that are a whole character other than an ASCII one are not a byte; two
bytes that end inside a character split it. -/
def readPairs : Nat → List Char → Except HexError Bytes
  | _, [] => .ok []
  | pos, [a] =>
    if a.utf8Size ≤ 2 then .error (if a.utf8Size = 2 then .badByte else .oddLength)
    else .error (.splitsChar (pos + 2) a pos)
  | pos, a :: b :: rest =>
    if a.utf8Size = 1 then
      if b.utf8Size = 1 then
        match pairValue? a b with
        | some x => (readPairs (pos + 2) rest).map (x :: ·)
        | none => .error .badByte
      else .error (.splitsChar (pos + 2) b (pos + 1))
    else if a.utf8Size = 2 then .error .badByte
    else .error (.splitsChar (pos + 2) a pos)

/-- Reads hexadecimal byte text: blank characters anywhere are dropped, the rest must take an
even number of bytes, and each two bytes in turn must write one byte. -/
def ofHex (s : String) : Except HexError Bytes :=
  let cs := s.toList.filter (fun c => !Text.isBlank c)
  if (cs.map Char.utf8Size).sum % 2 = 1 then .error .oddLength else readPairs 0 cs

theorem readPairs_digits (pos : Nat) (a b : Char) (rest : List Char) (x : UInt8)
    (ha : a.utf8Size = 1) (hb : b.utf8Size = 1) (hx : pairValue? a b = some x) :
    readPairs pos (a :: b :: rest) = (readPairs (pos + 2) rest).map (x :: ·) := by
  simp [readPairs, ha, hb, hx]

end Bytes

end Intercept
