import Intercept.Word
import Intercept.Binary.Round
/-!
# JSON values

Breakpoint parameters, patch options and the requests of the service are JSON.  Numbers keep
the class their text put them in, because the engine treats the classes differently: an
integer option refuses `2.0` but takes `2`, and `1e3` is a float although its value is an
integer.

* an integer literal without sign, point or exponent that is below `2 ^ 64` is `unsigned`;
* an integer literal with a minus sign whose value is at least `-2 ^ 63` and below zero is
  `negative`;
* every other number, `-0` and integers beyond those ranges included, is a `float`, kept as
  the bits of its binary64 value.

An object holds each key once.  Objects that are read keep their fields in increasing order
of keys (`Json.ofFields`), which is the order in which the engine walks them.
-/

namespace Intercept

/-- A JSON number, in the class its text puts it in. -/
inductive Number where
  /-- A non-negative integer literal below `2 ^ 64`. -/
  | unsigned (n : Word)
  /-- A negative integer literal, from `-2 ^ 63` to `-1`. -/
  | negative (n : Int)
  /-- Any other number, by the bits of its binary64 value. -/
  | float (bits : UInt64)
  deriving DecidableEq, Repr

/-- A JSON value. -/
inductive Json where
  | null
  | bool (b : Bool)
  | number (n : Number)
  | string (s : String)
  | array (items : List Json)
  /-- Fields with distinct keys. -/
  | object (fields : List (String × Json))
  deriving Repr

namespace Number

def toWord? : Number → Option Word
  | .unsigned n => some n
  | _ => none

def toInt? : Number → Option Int
  | .unsigned n => if n.toNat < 2 ^ 63 then some n.toNat else none
  | .negative n => some n
  | .float _ => none

def isFloat : Number → Bool
  | .float _ => true
  | _ => false

/-- The bits of the binary64 value nearest to the number. -/
def toBits : Number → UInt64
  | .unsigned n => (Binary.binary64.ofRational false n.toNat 1).toUInt64
  | .negative n => (Binary.binary64.ofRational true n.natAbs 1).toUInt64
  | .float bits => bits

/-- The class of an integer literal whose magnitude is below `2 ^ 64`: without a sign it is
`unsigned`; with one it is `negative` down to `-2 ^ 63`, and a float beyond that or at `-0`. -/
def ofInteger (neg : Bool) (m : Nat) : Number :=
  if !neg then .unsigned m.toUInt64
  else if 0 < m ∧ m ≤ 2 ^ 63 then .negative (-(m : Int))
  else .float (Binary.binary64.ofRational true m 1).toUInt64

/-- The number as a machine word: unsigned values as they are, signed ones in two's
complement. -/
def asWord? (n : Number) : Option Word :=
  match n.toWord? with
  | some w => some w
  | none => n.toInt?.map Word.ofInt

end Number

namespace Json

/-- The field stored under a key of an object; nothing for other values. -/
def get? (key : String) : Json → Option Json
  | .object fields => fields.lookup key
  | _ => none

/-- Stores a field under a key of a sorted field list, replacing an earlier value. -/
def insertField (key : String) (v : Json) : List (String × Json) → List (String × Json)
  | [] => [(key, v)]
  | (k, w) :: rest =>
    if key = k then (key, v) :: rest
    else if key < k then (key, v) :: (k, w) :: rest
    else (k, w) :: insertField key v rest

/-- An object from fields in any order; a later field under a key replaces an earlier one. -/
def ofFields (fields : List (String × Json)) : Json :=
  .object (fields.foldl (fun acc kv => insertField kv.1 kv.2 acc) [])

def getString? : Json → Option String
  | .string s => some s
  | _ => none

def getBool? : Json → Option Bool
  | .bool b => some b
  | _ => none

def getNumber? : Json → Option Number
  | .number n => some n
  | _ => none

def getArray? : Json → Option (List Json)
  | .array xs => some xs
  | _ => none

def getObject? : Json → Option (List (String × Json))
  | .object fs => some fs
  | _ => none

def word (w : Word) : Json := .number (.unsigned w)

/-- A natural number, which callers keep below `2 ^ 64`. -/
def nat (n : Nat) : Json := .number (.unsigned n.toUInt64)

/-- An integer, written in the class its sign gives it. -/
def int (i : Int) : Json :=
  if 0 ≤ i then .number (.unsigned i.toNat.toUInt64) else .number (.negative i)

/-- An optional value, `null` for none. -/
def opt {α : Type} (f : α → Json) : Option α → Json
  | some a => f a
  | none => .null

end Json

end Intercept
