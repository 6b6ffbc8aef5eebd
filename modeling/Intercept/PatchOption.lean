import Intercept.Param.Eval
import Intercept.Decimal.Read
/-!
# Patch options

A patch option is a typed value that patches can refer to by name (`<option:name>` in an
address).  It is configured as `{"type": "i32", "val": "0x10"}`: the type is a kind letter,
`i` for integers or `f` for floats, followed by a bit count that is divided by eight, rounding
down, to give the size in bytes.  Integers take sizes 1, 2 and 4 and keep the low bytes of
their value; floats take sizes 4 and 8, a 4-byte float being the 8-byte value rounded.

The checks run in a fixed order and the first failing one names the error: the shape of the
entry, the class of its value, the bit count, then what the kind asks of value and size.
-/

namespace Intercept

/-- A typed patch option value. -/
inductive PatchOption where
  | byte (v : UInt8)
  | word (v : UInt16)
  | dword (v : UInt32)
  /-- A 32-bit float, by its bits. -/
  | float (bits : UInt32)
  /-- A 64-bit float, by its bits. -/
  | double (bits : UInt64)
  deriving DecidableEq, Repr

namespace PatchOption

def size : PatchOption → Nat
  | byte _ => 1
  | word _ => 2
  | dword _ => 4
  | float _ => 4
  | double _ => 8

/-- The option as a machine word: integers zero-extended, floats by their bits. -/
def asWord : PatchOption → Word
  | byte v => v.toUInt64
  | word v => v.toUInt64
  | dword v => v.toUInt64
  | float bits => bits.toUInt64
  | double bits => bits

def typeName : PatchOption → String
  | byte _ => "Byte"
  | word _ => "Word"
  | dword _ => "Dword"
  | float _ => "Float"
  | double _ => "Double"

end PatchOption

/-- Why an option entry was refused. -/
inductive OptionError where
  | invalidParameter
  | invalidFormat
  | invalidType
  | floatForInteger
  | invalidInteger
  | invalidIntegerType
  | invalidFloat
  | invalidFloatType
  deriving DecidableEq, Repr

/-- The text of an option error. -/
def OptionError.message : OptionError → String
  | .invalidParameter => "invalid parameter"
  | .invalidFormat => "invalid format for value"
  | .invalidType => "invalid type"
  | .floatForInteger => "float value specified for integer option"
  | .invalidInteger => "invalid integer value"
  | .invalidIntegerType => "invalid integer type"
  | .invalidFloat => "invalid float value"
  | .invalidFloatType => "invalid float type"

namespace PatchOption

/-- The binary64 bits of a float option's value: a string is trimmed of blanks and read as
decimal floating-point text, a number is taken as it is. -/
def floatBits? : Json → Option UInt64
  | .string s => (Decimal.readFloat? (Text.trimBlank s.toList)).map Decimal.FloatText.toBits
  | .number n => some n.toBits
  | _ => none

/-- Reads an option entry `{"type": ..., "val": ...}`. -/
def ofJson (entry : Json) : Except OptionError PatchOption :=
  match entry with
  | .object _ =>
    let value? := (entry.get? "val").filter fun
      | .number _ => true
      | .string _ => true
      | _ => false
    match value? with
    | none => .error .invalidFormat
    | some value =>
      let tname := ((entry.get? "type").bind Json.getString?).getD ""
      let (kind, rest) := match tname.toList with
        | c :: r => (some c, r)
        | [] => (none, [])
      match Text.readWord? 10 rest with
      | none => .error .invalidType
      | some bits =>
        let size := bits.toNat / 8
        match kind with
        | some 'i' =>
          if (value.getNumber?.map Number.isFloat).getD false then .error .floatForInteger
          else
            match Param.hexValue? value with
            | none => .error .invalidInteger
            | some v =>
              if size = 1 then .ok (.byte v.toUInt8)
              else if size = 2 then .ok (.word v.toUInt16)
              else if size = 4 then .ok (.dword v.toUInt32)
              else .error .invalidIntegerType
        | some 'f' =>
          match floatBits? value with
          | none => .error .invalidFloat
          | some x =>
            if size = 4 then .ok (.float (Binary.narrow x))
            else if size = 8 then .ok (.double x)
            else .error .invalidFloatType
        | _ => .error .invalidType
  | _ => .error .invalidParameter

end PatchOption

end Intercept
