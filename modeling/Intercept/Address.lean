import Intercept.Text.Numeral
/-!
# Address texts

An address is written as a hexadecimal numeral `0x1f4c0`, a numeral relative to a module base
`Rx1f4c0`, a decimal numeral `1234`, a symbol `<name>`, or the word of a patch option
`<option:name>`.  `resolve` reads the longest address at the start of a text and reports how
much of the text it took, so callers can go on after it:

* a numeral takes its prefix and the longest run of digits of its radix after it; a value of
  `2 ^ 64` or more is an overflow, and a relative numeral adds the base with wrapping;
* a symbol takes everything up to the first `>`, and its name is looked up only in the table
  its prefix selects;
* text left after the address is reported as `garbage`, with the value kept.
-/

namespace Intercept

/-- Why an address text did not resolve cleanly. -/
inductive AddressError where
  /-- A symbol that no table holds. -/
  | symbolNotFound
  /-- A numeral of `2 ^ 64` or more. -/
  | overflow
  /-- A relative numeral with no base to add. -/
  | noModule
  /-- Text after the address; the value still stands. -/
  | garbage
  deriving DecidableEq, Repr

def AddressError.message : AddressError → String
  | .symbolNotFound => "symbol not found"
  | .overflow => "value out of range"
  | .noModule => "module-relative address without a module"
  | .garbage => "trailing characters after address"

/-- The tables symbols are looked up in. -/
structure Symbols where
  /-- Registered functions by name. -/
  function? : String → Option Word
  /-- Words of loaded patch options by name. -/
  option? : String → Option Word

/-- What reading an address gave: the value, the number of characters taken, and what went
wrong, if anything. -/
structure Resolution where
  value : Word
  taken : Nat
  error : Option AddressError
  deriving DecidableEq, Repr

namespace Resolution

/-- The value, when the text was an address and nothing else. -/
def ok? (r : Resolution) : Option Word :=
  match r.error with
  | none => some r.value
  | some _ => none

def failure (e : AddressError) : Resolution := ⟨0, 0, some e⟩

/-- The number of bytes of the text's encoding that were taken. -/
def consumedBytes (r : Resolution) (text : List Char) : Nat :=
  ((text.take r.taken).map Char.utf8Size).sum

end Resolution

/-- The word a symbol name stands for: `option:` selects the option table, any other name
the function table. -/
def Symbols.lookup (syms : Symbols) (name : List Char) : Option Word :=
  match name with
  | 'o' :: 'p' :: 't' :: 'i' :: 'o' :: 'n' :: ':' :: opt => syms.option? (String.ofList opt)
  | _ => syms.function? (String.ofList name)

/-- Reads a numeral of the given radix after `skip` prefix characters, adding `offset`. -/
def resolveNumeral (offset : Word) (radix skip : Nat) (text : List Char) : Resolution :=
  let digits := (text.drop skip).takeWhile (Text.isDigitIn radix)
  if digits.isEmpty then .failure .garbage
  else
    let taken := skip + digits.length
    match Text.digitsValue? radix digits with
    | some n =>
      if n < 2 ^ 64 then
        ⟨n.toUInt64 + offset, taken, if taken < text.length then some .garbage else none⟩
      else ⟨0, taken, some .overflow⟩
    | none => .failure .garbage

/-- Reads the address at the start of a text; `base` is the module base for relative
numerals, if there is one. -/
def resolve (syms : Symbols) (base : Option Word) (text : List Char) : Resolution :=
  match text with
  | '<' :: rest =>
    match rest.idxOf? '>' with
    | none => .failure .symbolNotFound
    | some close =>
      let taken := close + 2
      match syms.lookup (rest.take close) with
      | some v => ⟨v, taken, if taken < text.length then some .garbage else none⟩
      | none => ⟨0, taken, some .symbolNotFound⟩
  | '0' :: x :: _ =>
    if x = 'x' ∨ x = 'X' then resolveNumeral 0 16 2 text else resolveNumeral 0 10 0 text
  | r :: x :: _ =>
    if (r = 'R' ∨ r = 'r') ∧ (x = 'x' ∨ x = 'X') then
      match base with
      | some b => resolveNumeral b 16 2 text
      | none => .failure .noModule
    else resolveNumeral 0 10 0 text
  | _ => resolveNumeral 0 10 0 text

end Intercept
