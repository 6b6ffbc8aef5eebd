import Intercept.Json.Write
import Intercept.Text.Quoted
import Intercept.Log
/-!
# Breakpoint requests

A breakpoint request names a breakpoint, gives the address text of its site and the number
of bytes of code to displace from the site (its cave size), and carries its whole configuration object as
the parameters its callback receives.  The configuration is either an object with the fields
`addr` (a string) and `cavesize` (a non-negative integer) among any others, or an array of
exactly those two values.

Decoding reports the first problem met, in this order: the shape of the configuration, the
fields of an object in increasing order of keys (an array's items in order), a missing
`addr`, a missing `cavesize`.  Each problem names what was found and what was expected.
-/

namespace Intercept

/-- One breakpoint to apply. -/
structure Request where
  /-- The name, optionally with a `#slot` suffix; the part before `#` selects the callback. -/
  name : String
  /-- The address text of the site. -/
  addr : String
  /-- The number of bytes of code displaced from the site into the relay. -/
  cavesize : Nat
  /-- The whole configuration, handed to the callback. -/
  params : Json

/-- The kind of value a decoder met, as its messages describe it. -/
inductive Found where
  | boolean (b : Bool)
  | unsigned (n : Word)
  | signed (i : Int)
  | float (bits : UInt64)
  | string (s : String)
  | null
  | sequence
  | map

namespace Found

/-- What a JSON value is, to a decoder. -/
def ofJson : Json → Found
  | .null => null
  | .bool b => boolean b
  | .number (.unsigned n) => unsigned n
  | .number (.negative i) => signed i
  | .number (.float bits) => float bits
  | .string s => string s
  | .array _ => sequence
  | .object _ => map

/-- The description of a found value. -/
def text : Found → String
  | boolean b => "boolean `" ++ (if b then "true" else "false") ++ "`"
  | unsigned n => "integer `" ++ toString n.toNat ++ "`"
  | signed i => "integer `" ++ toString i ++ "`"
  | float bits => "floating point `" ++ Json.floatText bits ++ "`"
  | string s => "string " ++ Text.quoted s
  | null => "null"
  | sequence => "sequence"
  | map => "map"

end Found

/-- Why a configuration is no request. -/
inductive DecodeError where
  /-- A value of the wrong type. -/
  | invalidType (found : Found) (expected : String)
  /-- A value of the right type but out of range. -/
  | invalidValue (found : Found) (expected : String)
  /-- An array of the wrong length. -/
  | invalidLength (length : Nat) (expected : String)
  /-- A field that is not there. -/
  | missingField (name : String)

def DecodeError.message : DecodeError → String
  | .invalidType f e => "invalid type: " ++ f.text ++ ", expected " ++ e
  | .invalidValue f e => "invalid value: " ++ f.text ++ ", expected " ++ e
  | .invalidLength n e => "invalid length " ++ toString n ++ ", expected " ++ e
  | .missingField n => "missing field `" ++ n ++ "`"

namespace Request

def decodeString : Json → Except DecodeError String
  | .string s => .ok s
  | v => .error (.invalidType (.ofJson v) "a string")

/-- A non-negative integer field: a negative integer is out of range, anything else that is
not an integer of the unsigned class is of the wrong type. -/
def decodeSize : Json → Except DecodeError Nat
  | .number (.unsigned n) => .ok n.toNat
  | .number (.negative i) => .error (.invalidValue (.signed i) "usize")
  | v => .error (.invalidType (.ofJson v) "usize")

/-- What a configuration is described as when its shape is wrong. -/
def expectedShape : String := "struct RequestFields"

/-- Reads the two fields from an object's fields, in their order; other fields are skipped. -/
def decodeFields : List (String × Json) → Option String → Option Nat →
    Except DecodeError (String × Nat)
  | [], addr?, size? =>
    match addr?, size? with
    | some a, some n => .ok (a, n)
    | none, _ => .error (.missingField "addr")
    | some _, none => .error (.missingField "cavesize")
  | (k, v) :: rest, addr?, size? =>
    if k = "addr" then
      match decodeString v with
      | .ok a => decodeFields rest (some a) size?
      | .error e => .error e
    else if k = "cavesize" then
      match decodeSize v with
      | .ok n => decodeFields rest addr? (some n)
      | .error e => .error e
    else decodeFields rest addr? size?

/-- Reads `addr` and `cavesize` from a configuration. -/
def decodeShape : Json → Except DecodeError (String × Nat)
  | .object fields => decodeFields fields none none
  | .array items =>
    match items with
    | [] => .error (.invalidLength 0 (expectedShape ++ " with 2 elements"))
    | [a] =>
      match decodeString a with
      | .ok _ => .error (.invalidLength 1 (expectedShape ++ " with 2 elements"))
      | .error e => .error e
    | a :: b :: rest =>
      match decodeString a, decodeSize b with
      | .error e, _ => .error e
      | .ok _, .error e => .error e
      | .ok s, .ok n =>
        if rest.isEmpty then .ok (s, n)
        else .error (.invalidLength (rest.length + 2) "fewer elements in array")
  | v => .error (.invalidType (.ofJson v) expectedShape)

def ofJson (name : String) (params : Json) : Except DecodeError Request :=
  (decodeShape params).map fun (addr, cavesize) => { name, addr, cavesize, params }

/-- The requests of an object of configurations, in increasing order of names; a
configuration that is no request is logged and skipped. -/
def listOfJson (defs : Json) : List Request × Log :=
  match defs with
  | .object fields =>
    fields.foldr (fun (name, params) (reqs, log) =>
      match ofJson name params with
      | .ok r => (r :: reqs, log)
      | .error e => (reqs, LogLine.error ("invalid breakpoint " ++ name ++ ": " ++ e.message) :: log))
      ([], [])
  | _ => ([], [LogLine.error "breakpoint definitions must be a JSON object"])

end Request

end Intercept
