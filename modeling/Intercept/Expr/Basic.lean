import Intercept.Word
/-!
# The expression language: operators and errors

Breakpoint parameters are small expressions such as `[ebp-8]`, `dword ptr [eax+0x10] * 2` or
`Rx1f4c0 + ecx*4`.  There is no precedence: each operator is folded into the running value as
soon as the atom after it is read, so `1+2*3` is `9`.

This module holds the operators with their meaning on words and the errors of evaluation.
Arithmetic wraps; division and remainder are unsigned and undefined for a zero divisor;
comparisons are unsigned and give `0` or `1`.
-/

namespace Intercept.Expr

/-- The binary operators. -/
inductive Op where
  | add
  | sub
  | mul
  | div
  | rem
  | lt
  | gt
  | eq
  | ne
  | le
  | ge
  deriving DecidableEq, Repr

namespace Op

/-- The operators of two characters, which are tried before those of one. -/
def twoChar : List (List Char × Op) :=
  [(['=', '='], eq), (['!', '='], ne), (['<', '='], le), (['>', '='], ge)]

/-- The operator of one character. -/
def ofChar? : Char → Option Op
  | '+' => some add
  | '-' => some sub
  | '*' => some mul
  | '/' => some div
  | '%' => some rem
  | '<' => some lt
  | '>' => some gt
  | _ => none

def ofBool (b : Bool) : Word := if b then 1 else 0

/-- Folds the right operand into the left one; `none` for a zero divisor. -/
def apply : Op → Word → Word → Option Word
  | add, a, b => some (a + b)
  | sub, a, b => some (a - b)
  | mul, a, b => some (a * b)
  | div, a, b => if b = 0 then none else some (a / b)
  | rem, a, b => if b = 0 then none else some (a % b)
  | lt, a, b => some (ofBool (a < b))
  | gt, a, b => some (ofBool (b < a))
  | eq, a, b => some (ofBool (a == b))
  | ne, a, b => some (ofBool (a != b))
  | le, a, b => some (ofBool (a ≤ b))
  | ge, a, b => some (ofBool (b ≤ a))

end Op

/-- Why an expression has no value or no address.  Each error carries the text it arose at. -/
inductive ExprError where
  /-- Neither an operator nor an atom starts here. -/
  | unknownCharacter (rest : String)
  /-- A `[` whose `]` never comes. -/
  | unmatchedBracket (rest : String)
  /-- `/` or `%` by zero; the text from the divisor on. -/
  | divisionByZero (rest : String)
  /-- The whole expression, which denotes no memory location. -/
  | notAddressable (expr : String)
  deriving DecidableEq, Repr

def ExprError.message : ExprError → String
  | .unknownCharacter r => "Error while evaluating expression around '" ++ r ++ "': unknown character."
  | .unmatchedBracket r =>
    "Error while evaluating expression around '" ++ r ++ "': '[' without matching ']'."
  | .divisionByZero r => "Error while evaluating expression around '" ++ r ++ "': division by zero."
  | .notAddressable e => "'" ++ e ++ "' is neither a register nor a dereference"

def ExprError.kind : ExprError → String
  | .unknownCharacter _ => "UnknownCharacter"
  | .unmatchedBracket _ => "UnmatchedBracket"
  | .divisionByZero _ => "DivisionByZero"
  | .notAddressable _ => "NotAddressable"

/-- What ends a sub-expression. -/
inductive Terminator where
  /-- The end of the text. -/
  | top
  /-- A `)`, or the end of the text. -/
  | paren
  /-- A `]`; the end of the text is an error. -/
  | bracket
  deriving DecidableEq, Repr

def Terminator.char? : Terminator → Option Char
  | .top => none
  | .paren => some ')'
  | .bracket => some ']'

/-- The size qualifiers, with the number of bytes each reads. -/
def sizeQualifiers : List (List Char × Nat) :=
  [("byte ptr".toList, 1), ("word ptr".toList, 2), ("dword ptr".toList, 4)]

end Intercept.Expr
