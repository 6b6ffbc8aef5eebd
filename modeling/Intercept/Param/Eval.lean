import Intercept.Json.Value
import Intercept.Text.Numeral
import Intercept.Expr.Eval
import Intercept.Log
/-!
# Breakpoint parameters

A breakpoint is configured by a JSON object, and its callback reads its parameters from it.
Some parameters need no evaluation: integers given as JSON numbers or as numeral strings
(`Param.hexValue?`), and the flag that decides whether a breakpoint continues into its relay
(`Param.caveExec`).

Others may be expressions.  `Param.immediate` reads a value: a missing parameter or `null` is
`0`, an integer number is taken as it is, and a string is evaluated, an error being logged and
read as `0`.  `Param.pointer` reads a location: only a string that names a register or starts
with a dereference has one.  `Param.register` reads a register slot from the first three
characters of a string.
-/

namespace Intercept.Param

/-- The integer a JSON value gives: an integer number as it is (a negative one in two's
complement), or a string that, trimmed of blanks, is a hexadecimal numeral after `0x` or `0X`
or else a decimal one, each with an optional `+`.  Floats and everything else give none. -/
def hexValue? : Json → Option Word
  | .number n => n.asWord?
  | .string s =>
    match Text.trimBlank s.toList with
    | '0' :: 'x' :: hex => Text.readWord? 16 hex
    | '0' :: 'X' :: hex => Text.readWord? 16 hex
    | cs => Text.readWord? 10 cs
  | _ => none

/-- Whether a breakpoint continues into its relay: yes, unless its parameters say
`"cave_exec": false`. -/
def caveExec (params : Json) : Bool :=
  match params.get? "cave_exec" with
  | some (.bool false) => false
  | _ => true

/-- The value of an expression, or `0` with the error logged. -/
def evalOrZero (ctx : Expr.Context) (text : String) : Word × Log :=
  match Expr.eval ctx text with
  | .ok v => (v, [])
  | .error e => (0, [LogLine.error e.message])

/-- The log line for a value that is neither an integer nor a string. -/
def notImmediate : LogLine :=
  LogLine.error "immediate_value: the expression must be either an integer or a string."

/-- The value of a parameter.  A signed reading of an integer is tried first, so `-1` is the
word of all ones. -/
def immediate (ctx : Expr.Context) : Option Json → Word × Log
  | none => (0, [])
  | some .null => (0, [])
  | some (.number n) =>
    match n.toInt? with
    | some i => (Word.ofInt i, [])
    | none =>
      match n.toWord? with
      | some w => (w, [])
      | none => (0, [notImmediate])
  | some (.string s) => evalOrZero ctx s
  | some _ => (0, [notImmediate])

/-- The location an expression denotes, or none with the error logged; text left after a
dereference is logged as a warning. -/
def pointerOfText (ctx : Expr.Context) (text : String) : Option Expr.Pointer × Log :=
  match Expr.pointer ctx text with
  | .ok (p, []) => (some p, [])
  | .ok (p, rest) =>
    (some p, [LogLine.warn ("leftover bytes after dereferencing: '" ++ String.ofList rest ++ "'")])
  | .error e => (none, [LogLine.error e.message])

/-- The location a parameter denotes; only strings denote one. -/
def pointer (ctx : Expr.Context) : Option Json → Option Expr.Pointer × Log
  | some (.string s) => pointerOfText ctx s
  | _ => (none, [])

/-- The register slot a parameter names by its first three characters; only strings do. -/
def register : Option Json → Option Slot
  | some (.string s) => Expr.registerSlot? s
  | _ => none

end Intercept.Param
