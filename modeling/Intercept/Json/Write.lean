import Intercept.Json.Value
import Intercept.Decimal.Shortest
/-!
# Writing JSON text

Compact JSON: no space between tokens, fields in the order the object holds them.  Strings
escape the quote, the backslash and the control characters below `0x20`, and nothing else.
Floats are written with the fewest digits that read back (`Decimal.shortest`) in the layout
`Json.floatLayout`; the same text names a float inside error messages about JSON input.
-/

namespace Intercept.Json

/-- Floats are positional while their leading digit is worth `10 ^ -5` to `10 ^ 15`, an
integral float keeps `.0`, and an exponent is written after `e` with its sign, `+` included. -/
def floatLayout : Decimal.Layout := ⟨-5, 15, true, "e", true⟩

def floatText (bits : UInt64) : String := floatLayout.renderBits bits

def numberText : Number → String
  | .unsigned n => toString n.toNat
  | .negative n => toString n
  | .float bits => floatText bits

def hex4 (n : Nat) : List Char :=
  let ds := Nat.toDigits 16 n
  List.replicate (4 - ds.length) '0' ++ ds

/-- The escaped form of one character inside a string. -/
def escapeChar (c : Char) : List Char :=
  match c with
  | '"' => ['\\', '"']
  | '\\' => ['\\', '\\']
  | '\n' => ['\\', 'n']
  | '\r' => ['\\', 'r']
  | '\t' => ['\\', 't']
  | _ =>
    if c.toNat = 8 then ['\\', 'b']
    else if c.toNat = 12 then ['\\', 'f']
    else if c.toNat < 0x20 then '\\' :: 'u' :: hex4 c.toNat
    else [c]

def quote (s : String) : String :=
  String.ofList ('"' :: s.toList.flatMap escapeChar ++ ['"'])

mutual

def render : Json → String
  | .null => "null"
  | .bool true => "true"
  | .bool false => "false"
  | .number n => numberText n
  | .string s => quote s
  | .array items => "[" ++ renderItems items ++ "]"
  | .object fields => "\x7b" ++ renderFields fields ++ "\x7d"

def renderItems : List Json → String
  | [] => ""
  | [v] => render v
  | v :: rest => render v ++ "," ++ renderItems rest

def renderFields : List (String × Json) → String
  | [] => ""
  | [(k, v)] => quote k ++ ":" ++ render v
  | (k, v) :: rest => quote k ++ ":" ++ render v ++ "," ++ renderFields rest

end

end Intercept.Json
