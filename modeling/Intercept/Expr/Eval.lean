import Intercept.Expr.Basic
import Intercept.Register
import Intercept.Address
/-!
# Evaluating expressions

`Expr.eval` reads an expression from left to right, keeping a running value (first `0`) and a
pending operator (first `+`):

1. spaces and tabs are skipped;
2. at the end of the text, or at the character that ends the current sub-expression, the
   value is the result;
3. an operator replaces the pending one, so of consecutive operators the last wins;
4. otherwise an optional size qualifier and an atom are read, and the atom is folded into the
   value with the pending operator, which stays pending.

An atom is a parenthesised sub-expression (a missing `)` is forgiven), a bracketed one whose
value is an address to read from, a register of the snapshot (only when there is one), or an
address text as `resolve` reads it.  `Expr.pointer` gives the location an expression denotes:
a register slot or the address inside a leading `[...]`.

Evaluation is total: each step takes at least one character, so twice the text's length,
plus two, bounds the depth of every chain of calls (`Expr.fuelFor`).
-/

namespace Intercept.Expr

/-- What an expression can see: the register snapshot, if any, the memory it reads from, the
symbol tables, and the base for module-relative numerals. -/
structure Context where
  regs : Option Snapshot
  readByte : Word → UInt8
  symbols : Symbols
  base : Option Word

/-- Reads `size` bytes from an address, little-endian. -/
def Context.deref (ctx : Context) (addr : Word) (size : Nat) : Word :=
  Word.ofBytes ((List.range (min size 8)).map fun i => ctx.readByte (addr + i.toUInt64))

def skipBlanks (cs : List Char) : List Char := cs.dropWhile fun c => c = ' ' || c = '\t'

/-- The rest of a text after a token that starts it, ASCII case ignored. -/
def afterToken? (token cs : List Char) : Option (List Char) :=
  if Register.sameIgnoringCase (cs.take token.length) token ∧ token.length ≤ cs.length then
    some (cs.drop token.length)
  else none

def operator? (cs : List Char) : Option (Op × List Char) :=
  match Op.twoChar.findSome? fun (tok, op) => (afterToken? tok cs).map fun r => (op, r) with
  | some found => some found
  | none =>
    match cs with
    | c :: rest => (Op.ofChar? c).map fun op => (op, rest)
    | [] => none

/-- The size qualifier that starts a text, if one does, with the rest; eight bytes without. -/
def sizeQualifier (cs : List Char) : Nat × List Char :=
  match sizeQualifiers.findSome? fun (tok, n) => (afterToken? tok cs).map fun r => (n, r) with
  | some found => found
  | none => (8, cs)

mutual

/-- Folds operators and atoms into `value` until the terminator; the result is the value and
the text after the terminator. -/
def fold (ctx : Context) : Nat → Terminator → Word → Op → List Char →
    Except ExprError (Word × List Char)
  | 0, _, _, _, cs => .error (.unknownCharacter (String.ofList cs))
  | fuel + 1, term, value, op, cs0 =>
    let cs := skipBlanks cs0
    let stop := match cs with
      | [] => true
      | c :: _ => term.char? == some c
    if stop then
      if term = .bracket ∧ cs.head? ≠ some ']' then .error (.unmatchedBracket (String.ofList cs))
      else .ok (value, cs.drop 1)
    else
      match operator? cs with
      | some (op', rest) => fold ctx fuel term value op' rest
      | none =>
        let (size, afterSize) := sizeQualifier cs
        let start := skipBlanks afterSize
        match atom ctx fuel size start with
        | .error e => .error e
        | .ok (v, rest) =>
          match op.apply value v with
          | none => .error (.divisionByZero (String.ofList start))
          | some value' => fold ctx fuel term value' op rest

/-- Reads one atom read through a size qualifier of `size` bytes. -/
def atom (ctx : Context) : Nat → Nat → List Char → Except ExprError (Word × List Char)
  | 0, _, cs => .error (.unknownCharacter (String.ofList cs))
  | fuel + 1, size, cs =>
    match cs with
    | '(' :: rest => fold ctx fuel .paren 0 .add rest
    | '[' :: rest =>
      match fold ctx fuel .bracket 0 .add rest with
      | .error e => .error e
      | .ok (addr, after) => .ok (if addr = 0 then 0 else ctx.deref addr size, after)
    | _ =>
      let asRegister := ctx.regs.bind fun regs =>
        (Register.parsePrefix? cs).map fun (r, rest) => ((regs.get (.reg r)).truncate size, rest)
      match asRegister with
      | some found => .ok found
      | none =>
        let res := resolve ctx.symbols ctx.base cs
        if res.taken = 0 ∨ (res.error ≠ none ∧ res.error ≠ some .garbage) then
          .error (.unknownCharacter (String.ofList cs))
        else .ok (res.value, cs.drop res.taken)

end

/-- Enough fuel for any evaluation of the text. -/
def fuelFor (cs : List Char) : Nat := 2 * cs.length + 2

def eval (ctx : Context) (text : String) : Except ExprError Word :=
  let cs := text.toList
  (fold ctx (fuelFor cs) .top 0 .add cs).map Prod.fst

/-- A memory location an expression can denote. -/
inductive Pointer where
  /-- A slot of the register snapshot. -/
  | slot (s : Slot)
  /-- A memory address. -/
  | addr (a : Word)
  deriving DecidableEq, Repr

/-- The location an expression denotes, with any text left after a dereference's `]`: a text
that is exactly a register name denotes its slot, and a text that starts with `[` the address
that the bracketed expression evaluates to.  The context must have a snapshot. -/
def pointer (ctx : Context) (text : String) : Except ExprError (Pointer × List Char) :=
  let cs := text.toList
  match Register.ofText? cs with
  | some r => .ok (.slot (.reg r), [])
  | none =>
    match cs with
    | '[' :: inner =>
      (fold ctx (fuelFor inner) .bracket 0 .add inner).map fun (a, rest) => (.addr a, rest)
    | _ => .error (.notAddressable text)

/-- The slot of the register named by the first three characters of a text. -/
def registerSlot? (text : String) : Option Slot :=
  (Register.parsePrefix? text.toList).map fun (r, _) => .reg r

end Intercept.Expr
