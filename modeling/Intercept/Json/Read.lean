import Intercept.Json.Value
import Intercept.Decimal.Stepwise
/-!
# Reading JSON text

Strict JSON: no leading zeros, no trailing commas, no comments, strings without raw control
characters, escapes `\uXXXX` paired into one character where they encode a surrogate pair and
refused where a surrogate stands alone.  Objects are stored by `Json.ofFields`, so a later
field under a key replaces an earlier one.  Arrays and objects nest at most 127 deep.

Numbers are classed as `Number` says.  The value of a float is computed the way
`Decimal.scale` does: the digits are gathered into a significand below `2 ^ 64` (digits of the
integer part past that point raise the power of ten, digits of the fraction past it are
dropped), then scaled by the power of ten.  A number whose value overflows is refused, and so
is an exponent above `2 ^ 31 - 1` on a nonzero significand.

An error is reported at a byte offset of the text, turned into a line and a column when it
leaves the reader.  Some errors stand at the offset of the byte that was read last, others at
the offset of the byte that was looked at without being taken, one further on (never past the
end of the text): the reader takes one byte of a character it refuses.

The reader recurses on the input with fuel of twice the input's length, which no nesting of
values can exhaust.
-/

namespace Intercept.Json

/-- What is wrong with a text that is not JSON. -/
inductive ErrorCode where
  | eofInList
  | eofInObject
  | eofInString
  | eofInValue
  | expectedColon
  | expectedListSeparator
  | expectedObjectSeparator
  | expectedIdent
  | expectedValue
  | invalidEscape
  | invalidNumber
  | numberOutOfRange
  | controlCharacter
  | keyMustBeString
  | loneSurrogate
  | trailingComma
  | trailingCharacters
  | unexpectedEndOfHexEscape
  | tooDeep
  deriving DecidableEq, Repr

/-- The text of an error code. -/
def ErrorCode.message : ErrorCode → String
  | .eofInList => "EOF while parsing a list"
  | .eofInObject => "EOF while parsing an object"
  | .eofInString => "EOF while parsing a string"
  | .eofInValue => "EOF while parsing a value"
  | .expectedColon => "expected `:`"
  | .expectedListSeparator => "expected `,` or `]`"
  | .expectedObjectSeparator => "expected `,` or `\x7d`"
  | .expectedIdent => "expected ident"
  | .expectedValue => "expected value"
  | .invalidEscape => "invalid escape"
  | .invalidNumber => "invalid number"
  | .numberOutOfRange => "number out of range"
  | .controlCharacter => "control character (\\u0000-\\u001F) found while parsing a string"
  | .keyMustBeString => "key must be a string"
  | .loneSurrogate => "lone leading surrogate in hex escape"
  | .trailingComma => "trailing comma"
  | .trailingCharacters => "trailing characters"
  | .unexpectedEndOfHexEscape => "unexpected end of hex escape"
  | .tooDeep => "recursion limit exceeded"

structure Fault where
  code : ErrorCode
  offset : Nat

/-- Why a text is not JSON, and where: line and column count from one, the column in bytes
from the start of the line. -/
structure ReadError where
  code : ErrorCode
  line : Nat
  column : Nat

def ReadError.message (e : ReadError) : String :=
  e.code.message ++ " at line " ++ toString e.line ++ " column " ++ toString e.column

/-- What is left of the text, and the byte offset where it starts. -/
abbrev Rest := List Char × Nat

def failAt (code : ErrorCode) (offset : Nat) : Fault := ⟨code, offset⟩

/-- The fault at the character looked at next: one byte further on, unless the text ended. -/
def failAhead (code : ErrorCode) : Rest → Fault
  | ([], offset) => ⟨code, offset⟩
  | (_, offset) => ⟨code, offset + 1⟩

def isSpace (c : Char) : Bool := c = ' ' || c = '\t' || c = '\n' || c = '\r'

def skipSpace : Rest → Rest
  | (c :: cs, off) => if isSpace c then skipSpace (cs, off + 1) else (c :: cs, off)
  | ([], off) => ([], off)

def byteCount (cs : List Char) : Nat := (cs.map Char.utf8Size).sum

def hex4? (a b c d : Char) : Option Nat := do
  let va ← Bytes.hexDigitValue? a
  let vb ← Bytes.hexDigitValue? b
  let vc ← Bytes.hexDigitValue? c
  let vd ← Bytes.hexDigitValue? d
  pure (((va * 16 + vb) * 16 + vc) * 16 + vd)

def readHex4 : Rest → Except Fault (Nat × Rest)
  | (a :: b :: c :: d :: r, off) =>
    match hex4? a b c d with
    | some n => .ok (n, (r, off + 4))
    | none => .error (failAt .invalidEscape (off + 4))
  | (cs, off) =>
    if 4 ≤ byteCount cs then .error (failAt .invalidEscape (off + 4))
    else .error (failAt .eofInString (off + byteCount cs))

/-- The character of a one-letter escape. -/
def simpleEscape? : Char → Option Char
  | '"' => some '"'
  | '\\' => some '\\'
  | '/' => some '/'
  | 'b' => some (Char.ofNat 8)
  | 'f' => some (Char.ofNat 12)
  | 'n' => some '\n'
  | 'r' => some '\r'
  | 't' => some '\t'
  | _ => none

def isLeading (n : Nat) : Bool := 0xD800 ≤ n && n < 0xDC00

def isTrailing (n : Nat) : Bool := 0xDC00 ≤ n && n < 0xE000

def ofSurrogates (hi lo : Nat) : Char :=
  Char.ofNat (0x10000 + (hi - 0xD800) * 0x400 + (lo - 0xDC00))

/-- The fault of a leading surrogate at `off` that no escaped trailing surrogate follows:
the reader takes the next byte, and the one after a backslash, before it complains. -/
def unpairedFault : Rest → Fault
  | ([], off) => failAt .eofInString off
  | ('\\' :: [], off) => failAt .eofInString (off + 1)
  | ('\\' :: 'u' :: rest, off) =>
    match readHex4 (rest, off + 2) with
    | .error e => e
    | .ok (_, r) => failAt .loneSurrogate r.2
  | ('\\' :: _, off) => failAt .unexpectedEndOfHexEscape (off + 2)
  | (_, off) => failAt .unexpectedEndOfHexEscape (off + 1)

/-- Reads the rest of a string after its opening quote; `acc` holds the characters read so
far, last first. -/
def readStringBody : List Char → Nat → List Char → Except Fault (String × Rest)
  | [], off, _ => .error (failAt .eofInString off)
  | '"' :: r, off, acc => .ok (String.ofList acc.reverse, (r, off + 1))
  | '\\' :: 'u' :: a :: b :: c :: d :: r, off, acc =>
    match hex4? a b c d with
    | none => .error (failAt .invalidEscape (off + 6))
    | some hi =>
      if isTrailing hi then .error (failAt .loneSurrogate (off + 6))
      else if !isLeading hi then readStringBody r (off + 6) (Char.ofNat hi :: acc)
      else
        match r with
        | '\\' :: 'u' :: e :: f :: g :: h :: r' =>
          match hex4? e f g h with
          | none => .error (failAt .invalidEscape (off + 12))
          | some lo =>
            if isTrailing lo then readStringBody r' (off + 12) (ofSurrogates hi lo :: acc)
            else .error (failAt .loneSurrogate (off + 12))
        | _ => .error (unpairedFault (r, off + 6))
  | '\\' :: 'u' :: r, off, _ =>
    match readHex4 (r, off + 2) with
    | .error e => .error e
    | .ok (_, r') => .error (failAt .invalidEscape r'.2)
  | '\\' :: [], off, _ => .error (failAt .eofInString (off + 1))
  | '\\' :: e :: r, off, acc =>
    match simpleEscape? e with
    | some c => readStringBody r (off + 2) (c :: acc)
    | none => .error (failAt .invalidEscape (off + 2))
  | c :: r, off, acc =>
    if c.toNat < 0x20 then .error (failAt .controlCharacter (off + 1))
    else readStringBody r (off + c.utf8Size) (c :: acc)

def spanDigits (cs : List Char) : List Char × List Char :=
  (cs.takeWhile Char.isDigit, cs.dropWhile Char.isDigit)

def digitValue (c : Char) : Nat := c.toNat - '0'.toNat

def maxSignificand : Nat := 2 ^ 64 - 1

def maxExponent : Nat := 2 ^ 31 - 1

/-- Gathers digits into a significand while it stays at most `maxSignificand`: the
significand, how many digits were taken, and whether a digit was left over. -/
def gather (sig : Nat) : List Char → Nat × Nat × Bool
  | [] => (sig, 0, false)
  | d :: ds =>
    if sig * 10 + digitValue d ≤ maxSignificand then
      let (s, n, spilled) := gather (sig * 10 + digitValue d) ds
      (s, n + 1, spilled)
    else (sig, 0, true)

def clampExponent (e : Int) : Int := max (-(maxExponent : Int) - 1) (min e maxExponent)

/-- The float a significand and a power of ten stand for, with its sign; the fault for an
overflow stands at `off`. -/
def floatOf (neg : Bool) (sig : Nat) (e : Int) (off : Nat) : Except Fault Number :=
  match Decimal.scale sig e with
  | some bits =>
    .ok (.float ((if neg then Binary.binary64.signBit else 0) + bits).toUInt64)
  | none => .error (failAt .numberOutOfRange off)

/-- Reads an exponent part after its `e`, for a significand `sig` and the power of ten `e0`
that its digits already stand for. -/
def readExponent (neg : Bool) (sig : Nat) (e0 : Int) (r : Rest) :
    Except Fault (Number × Rest) :=
  let (minus, (cs, off)) := match r with
    | ('+' :: cs, off) => (false, (cs, off + 1))
    | ('-' :: cs, off) => (true, (cs, off + 1))
    | other => (false, other)
  match cs with
  | [] => .error (failAt .eofInValue off)
  | c :: cs' =>
    if !c.isDigit then .error (failAt .invalidNumber (off + 1))
    else
      let (ds, rest) := spanDigits cs'
      -- the exponent's digits while it stays a 32-bit signed number
      let (exp, taken, spilled) := ((c :: ds).foldl
        (fun (acc : Nat × Nat × Bool) d =>
          let (v, n, spilled) := acc
          if spilled then acc
          else if v * 10 + digitValue d ≤ maxExponent then (v * 10 + digitValue d, n + 1, false)
          else (v, n + 1, true)) (0, 0, false))
      let after := (rest, off + 1 + ds.length)
      if spilled then
        if sig ≠ 0 ∧ !minus then .error (failAt .numberOutOfRange (off + taken))
        else .ok (.float (if neg then Binary.binary64.signBit.toUInt64 else 0), after)
      else
        let e := clampExponent (if minus then e0 - exp else e0 + exp)
        (floatOf neg sig e after.2).map fun n => (n, after)

/-- Reads the fraction or exponent after the integer digits of a number, for the significand
`sig` and power of ten `e0` they gave; `long` says whether the integer digits overflowed the
significand, which makes the number a float. -/
def readTail (neg : Bool) (sig : Nat) (e0 : Int) (long : Bool) (r : Rest) :
    Except Fault (Number × Rest) :=
  match r with
  | ('.' :: cs, off) =>
    let (frac, rest) := spanDigits cs
    if frac.isEmpty then .error (failAhead (if rest.isEmpty then .eofInValue else .invalidNumber)
      (rest, off + 1))
    else
      let (sig', taken, _) := gather sig frac
      let e := e0 - taken
      let after := (rest, off + 1 + frac.length)
      match rest with
      | c :: _ =>
        if c = 'e' ∨ c = 'E' then readExponent neg sig' e (rest.drop 1, after.2 + 1)
        else (floatOf neg sig' e after.2).map fun n => (n, after)
      | [] => (floatOf neg sig' e after.2).map fun n => (n, after)
  | (c :: cs, off) =>
    if c = 'e' ∨ c = 'E' then readExponent neg sig e0 (cs, off + 1)
    else if long then (floatOf neg sig e0 off).map fun n => (n, (c :: cs, off))
    else .ok (Number.ofInteger neg sig, (c :: cs, off))
  | ([], off) =>
    if long then (floatOf neg sig e0 off).map fun n => (n, ([], off))
    else .ok (Number.ofInteger neg sig, ([], off))

/-- Reads a number after its optional minus sign. -/
def readNumber (neg : Bool) : Rest → Except Fault (Number × Rest)
  | ([], off) => .error (failAt .eofInValue off)
  | ('0' :: cs, off) =>
    match cs with
    | c :: _ =>
      if c.isDigit then .error (failAt .invalidNumber (off + 2))
      else readTail neg 0 0 false (cs, off + 1)
    | [] => readTail neg 0 0 false (cs, off + 1)
  | (c :: cs, off) =>
    if c.isDigit then
      let (ds, rest) := spanDigits (c :: cs)
      let (sig, taken, spilled) := gather 0 ds
      readTail neg sig (ds.length - taken : Nat) spilled (rest, off + ds.length)
    else .error (failAt .invalidNumber (off + 1))

/-- Reads the rest of a literal `null`, `true` or `false` after its first letter. -/
def readIdent : List Char → Rest → Except Fault Rest
  | [], r => .ok r
  | _ :: _, ([], off) => .error (failAt .eofInValue off)
  | x :: xs, (c :: cs, off) =>
    if c = x then readIdent xs (cs, off + 1) else .error (failAt .expectedIdent (off + 1))

mutual

/-- Reads one value after optional space; `depth` is how many more arrays and objects may
open, and `fuel` bounds the recursion. -/
def readValue : Nat → Nat → Rest → Except Fault (Json × Rest)
  | 0, _, r => .error (failAhead .tooDeep r)
  | fuel + 1, depth, r =>
    let r := skipSpace r
    match r with
    | ([], off) => .error (failAt .eofInValue off)
    | ('n' :: cs, off) => (readIdent "ull".toList (cs, off + 1)).map fun r' => (.null, r')
    | ('t' :: cs, off) => (readIdent "rue".toList (cs, off + 1)).map fun r' => (.bool true, r')
    | ('f' :: cs, off) =>
      (readIdent "alse".toList (cs, off + 1)).map fun r' => (.bool false, r')
    | ('"' :: cs, off) => (readStringBody cs (off + 1) []).map fun (s, r') => (.string s, r')
    | ('-' :: cs, off) => (readNumber true (cs, off + 1)).map fun (n, r') => (.number n, r')
    | ('[' :: cs, off) =>
      if depth ≤ 1 then .error (failAhead .tooDeep r)
      else readItems fuel (depth - 1) true [] (cs, off + 1)
    | ('{' :: cs, off) =>
      if depth ≤ 1 then .error (failAhead .tooDeep r)
      else readFields fuel (depth - 1) true [] (cs, off + 1)
    | (c :: cs, off) =>
      if c.isDigit then (readNumber false (c :: cs, off)).map fun (n, r') => (.number n, r')
      else .error (failAhead .expectedValue r)

/-- Reads the items of an array after its opening bracket or a comma; `first` says whether
no item was read yet, and `acc` holds those read, last first. -/
def readItems : Nat → Nat → Bool → List Json → Rest → Except Fault (Json × Rest)
  | 0, _, _, _, r => .error (failAhead .tooDeep r)
  | fuel + 1, depth, first, acc, r =>
    let r := skipSpace r
    match r with
    | (']' :: cs, off) => .ok (.array acc.reverse, (cs, off + 1))
    | ([], _) => .error (failAhead .eofInList r)
    | (c :: cs, off) =>
      let next : Except Fault Rest :=
        if c = ',' ∧ !first then
          match skipSpace (cs, off + 1) with
          | (']' :: cs', off') => .error (failAhead .trailingComma (']' :: cs', off'))
          | ([], off') => .error (failAt .eofInValue off')
          | r' => .ok r'
        else if first then .ok r
        else .error (failAhead .expectedListSeparator r)
      match next with
      | .error e => .error e
      | .ok r' =>
        match readValue fuel depth r' with
        | .error e => .error e
        | .ok (v, r'') => readItems fuel depth false (v :: acc) r''

/-- Reads the fields of an object after its opening brace or a comma; `first` says whether
no field was read yet, and `acc` holds those read, last first. -/
def readFields : Nat → Nat → Bool → List (String × Json) → Rest → Except Fault (Json × Rest)
  | 0, _, _, _, r => .error (failAhead .tooDeep r)
  | fuel + 1, depth, first, acc, r =>
    let r := skipSpace r
    match r with
    | ('}' :: cs, off) => .ok (ofFields acc.reverse, (cs, off + 1))
    | ([], _) => .error (failAhead .eofInObject r)
    | (c :: cs, off) =>
      let next : Except Fault Rest :=
        if c = ',' ∧ !first then .ok (skipSpace (cs, off + 1))
        else if first then .ok r
        else .error (failAhead .expectedObjectSeparator r)
      match next with
      | .error e => .error e
      | .ok ('"' :: cs', off') =>
        match readStringBody cs' (off' + 1) [] with
        | .error e => .error e
        | .ok (key, r1) =>
          match skipSpace r1 with
          | (':' :: cs2, off2) =>
            match readValue fuel depth (cs2, off2 + 1) with
            | .error e => .error e
            | .ok (v, r3) => readFields fuel depth false ((key, v) :: acc) r3
          | ([], off2) => .error (failAt .eofInObject off2)
          | r2 => .error (failAhead .expectedColon r2)
      | .ok ('}' :: cs', off') => .error (failAhead .trailingComma ('}' :: cs', off'))
      | .ok ([], off') => .error (failAt .eofInValue off')
      | .ok r' => .error (failAhead .keyMustBeString r')

end

/-- The line and column of a byte offset of a text: lines count from one, columns are the
bytes before the offset on its line. -/
def position (s : String) (offset : Nat) : Nat × Nat :=
  let before := (s.toUTF8.toList.take offset)
  let lineStart := before.length - (before.reverse.takeWhile (· != 10)).length
  (1 + (before.filter (· == 10)).length, offset - lineStart)

/-- How deep arrays and objects may nest, plus one. -/
def depthLimit : Nat := 128

/-- Reads a whole text as one JSON value, with optional space around it. -/
def read (s : String) : Except ReadError Json :=
  let cs := s.toList
  let result : Except Fault Json :=
    match readValue (2 * cs.length + 2) depthLimit (cs, 0) with
    | .error e => .error e
    | .ok (v, rest) =>
      match skipSpace rest with
      | ([], _) => .ok v
      | r => .error (failAhead .trailingCharacters r)
  match result with
  | .ok v => .ok v
  | .error f =>
    let (line, column) := position s f.offset
    .error ⟨f.code, line, column⟩

end Intercept.Json
