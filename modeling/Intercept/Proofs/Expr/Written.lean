import Mathlib.Data.List.Forall2
import Intercept.Expr.Eval
/-!
# Written expressions and their meaning

An expression is a sequence of items: operators, and atoms that may be read through a size
qualifier.  This module gives

* the syntax trees of expressions (`Atom`, `Item`);
* the texts that write them (`SeqText`): at least one space or tab between consecutive items,
  any run of spaces and tabs elsewhere between tokens, and any ASCII case for register names,
  qualifiers, numeral prefixes and hexadecimal digits;
* their meaning as a strict left-to-right fold (`Item.foldFrom`): the value starts at `0` with
  `+` pending, an operator replaces the pending one, and an atom is folded into the value with
  the pending operator, which stays pending.

Operators are given their meaning on the values of words (`Op.meaning`): sums, differences and
products modulo `2 ^ 64`, unsigned quotients and remainders, comparisons as `0` or `1`.  A
quotient or remainder by zero has no meaning, and neither has a register without a snapshot or
a module-relative numeral without a base.

Main statement: `SeqText.size_le` (a written sequence is at least about half as long as its
tree is large), which bounds the steps reading it takes.
-/

namespace Intercept.Expr

/-- The size qualifiers. -/
inductive Qualifier where
  | byte
  | word
  | dword
  deriving DecidableEq, Repr

namespace Qualifier

/-- A qualifier in lowercase, with the one space inside it. -/
def text : Qualifier → List Char
  | byte => "byte ptr".toList
  | word => "word ptr".toList
  | dword => "dword ptr".toList

/-- The number of bytes a qualifier reads. -/
def bytes : Qualifier → Nat
  | byte => 1
  | word => 2
  | dword => 4

end Qualifier

/-- The number of bytes an atom is read with: its qualifier's, else a whole word. -/
def width : Option Qualifier → Nat
  | some q => q.bytes
  | none => 8

namespace Op

/-- How an operator is written. -/
def token : Op → List Char
  | add => ['+']
  | sub => ['-']
  | mul => ['*']
  | div => ['/']
  | rem => ['%']
  | lt => ['<']
  | gt => ['>']
  | eq => ['=', '=']
  | ne => ['!', '=']
  | le => ['<', '=']
  | ge => ['>', '=']

/-- The meaning of an operator on the values of two words. -/
def meaning : Op → Nat → Nat → Option Nat
  | add, a, b => some ((a + b) % 2 ^ 64)
  | sub, a, b => some ((2 ^ 64 + a - b) % 2 ^ 64)
  | mul, a, b => some (a * b % 2 ^ 64)
  | div, a, b => if b = 0 then none else some (a / b)
  | rem, a, b => if b = 0 then none else some (a % b)
  | lt, a, b => some (if a < b then 1 else 0)
  | gt, a, b => some (if b < a then 1 else 0)
  | eq, a, b => some (if a = b then 1 else 0)
  | ne, a, b => some (if a = b then 0 else 1)
  | le, a, b => some (if a ≤ b then 1 else 0)
  | ge, a, b => some (if b ≤ a then 1 else 0)

end Op

mutual

/-- An atom of an expression. -/
inductive Atom where
  /-- A decimal numeral. -/
  | dec (n : Word)
  /-- A hexadecimal numeral after `0x`. -/
  | hex (n : Word)
  /-- A hexadecimal numeral after `Rx`, relative to the module base. -/
  | rel (n : Word)
  /-- A register of the snapshot. -/
  | reg (r : Register)
  /-- A sequence in parentheses. -/
  | paren (items : List Item)
  /-- A sequence in brackets, whose value is an address to read from. -/
  | bracket (items : List Item)

/-- An item of an expression: an operator, or an atom with its qualifier, if any. -/
inductive Item where
  | op (o : Op)
  | atom (q : Option Qualifier) (a : Atom)

end

mutual

/-- The value of an atom read with `size` bytes.  The size only matters for registers, whose
low bytes are kept, and for brackets, which read that many bytes unless the address is zero. -/
def Atom.value (ctx : Context) (size : Nat) : Atom → Option Word
  | .dec n => some n
  | .hex n => some n
  | .rel n => ctx.base.map (n + ·)
  | .reg r => ctx.regs.map fun s => (s.get (.reg r)).truncate size
  | .paren items => Item.foldFrom ctx .add 0 items
  | .bracket items =>
    (Item.foldFrom ctx .add 0 items).map fun a => if a = 0 then 0 else ctx.deref a size

/-- The fold of items into `value` with `op` pending. -/
def Item.foldFrom (ctx : Context) : Op → Word → List Item → Option Word
  | _, value, [] => some value
  | _, value, .op o :: is => Item.foldFrom ctx o value is
  | op, value, .atom q a :: is =>
    (a.value ctx (width q)).bind fun x =>
      (op.meaning value.toNat x.toNat).bind fun v => Item.foldFrom ctx op (UInt64.ofNat v) is

end

/-- The value of an expression: the fold from `0` with `+` pending. -/
def Item.value (ctx : Context) (items : List Item) : Option Word := Item.foldFrom ctx .add 0 items

/-- A run of spaces and tabs, possibly empty. -/
def Blanks (bs : List Char) : Prop := ∀ c ∈ bs, c = ' ' ∨ c = '\t'

/-- The digits by value, lowercase. -/
def lowerDigits : List Char :=
  ['0', '1', '2', '3', '4', '5', '6', '7', '8', '9', 'a', 'b', 'c', 'd', 'e', 'f']

/-- The digits by value, uppercase. -/
def upperDigits : List Char :=
  ['0', '1', '2', '3', '4', '5', '6', '7', '8', '9', 'A', 'B', 'C', 'D', 'E', 'F']

/-- A character writes the digit `d`, in either case. -/
def WritesDigit (c : Char) (d : Nat) : Prop := lowerDigits[d]? = some c ∨ upperDigits[d]? = some c

/-- A numeral in the radix, most significant digit first, writes `n`. -/
def Numeral (radix : Nat) (ds : List Char) (n : Nat) : Prop :=
  ∃ dv : List Nat, List.Forall₂ WritesDigit ds dv ∧ dv ≠ [] ∧ (∀ d ∈ dv, d < radix) ∧
    dv.foldl (fun acc d => acc * radix + d) 0 = n

mutual

/-- The texts that write an atom. -/
inductive AtomText : Atom → List Char → Prop
  | dec {n : Word} {ds : List Char} : Numeral 10 ds n.toNat → AtomText (.dec n) ds
  | hex {n : Word} {x : Char} {ds : List Char} : x.toLower = 'x' → Numeral 16 ds n.toNat →
      AtomText (.hex n) ('0' :: x :: ds)
  | rel {n : Word} {r x : Char} {ds : List Char} : r.toLower = 'r' → x.toLower = 'x' →
      Numeral 16 ds n.toNat → AtomText (.rel n) (r :: x :: ds)
  | reg {r : Register} {cs : List Char} : cs.map Char.toLower = r.name.toList →
      AtomText (.reg r) cs
  | paren {items : List Item} {cs : List Char} : SeqText false items cs →
      AtomText (.paren items) ('(' :: cs ++ [')'])
  | bracket {items : List Item} {cs : List Char} : SeqText false items cs →
      AtomText (.bracket items) ('[' :: cs ++ [']'])

/-- The texts that write an item.  Blanks may stand between a qualifier and its atom. -/
inductive ItemText : Item → List Char → Prop
  | op {o : Op} : ItemText (.op o) o.token
  | bare {a : Atom} {cs : List Char} : AtomText a cs → ItemText (.atom none a) cs
  | sized {q : Qualifier} {a : Atom} {qs bs cs : List Char} : qs.map Char.toLower = q.text →
      Blanks bs → AtomText a cs → ItemText (.atom (some q) a) (qs ++ bs ++ cs)

/-- The texts that write a sequence of items: blanks before every item, at least one when an
item came before (`apart`), and blanks after the last. -/
inductive SeqText : Bool → List Item → List Char → Prop
  | nil {apart : Bool} {bs : List Char} : Blanks bs → SeqText apart [] bs
  | cons {apart : Bool} {i : Item} {is : List Item} {bs t rest : List Char} : Blanks bs →
      (apart = true → bs ≠ []) → ItemText i t → SeqText true is rest →
      SeqText apart (i :: is) (bs ++ t ++ rest)

end

/-- A text writes an expression. -/
def Writes (items : List Item) (text : String) : Prop := SeqText false items text.toList

/-! ### Sizes

The reader spends one step on every item and one at the end of every sequence, and goes one
step deeper for every parenthesis or bracket.  `Atom.size` and `Item.seqSize` count those steps
along every path at once, which is more than the deepest path needs. -/

mutual

/-- The steps an atom takes to read. -/
def Atom.size : Atom → Nat
  | .paren items => Item.seqSize items + 1
  | .bracket items => Item.seqSize items + 1
  | _ => 1

/-- The steps an item takes to read, apart from the step it is found in. -/
def Item.size : Item → Nat
  | .op _ => 0
  | .atom _ a => a.size

/-- The steps a sequence takes to read. -/
def Item.seqSize : List Item → Nat
  | [] => 1
  | i :: is => i.size + Item.seqSize is + 1

end

theorem Numeral.ne_nil {radix n : Nat} {ds : List Char} (h : Numeral radix ds n) : ds ≠ [] := by
  obtain ⟨dv, hds, hne, -, -⟩ := h
  rintro rfl
  cases hds
  exact hne rfl

theorem Op.token_ne_nil (o : Op) : o.token ≠ [] := by
  cases o <;> simp [token]

mutual

theorem AtomText.size_lt : ∀ {a : Atom} {cs : List Char}, AtomText a cs →
    a.size + 1 ≤ 2 * cs.length
  | _, _, .dec h => by
    have := List.length_pos_iff.mpr h.ne_nil
    simp only [Atom.size]
    omega
  | _, _, .hex _ _ => by simp only [Atom.size, List.length_cons]; omega
  | _, _, .rel _ _ _ => by simp only [Atom.size, List.length_cons]; omega
  | _, _, .reg h => by
    have hlen := congrArg List.length h
    simp only [List.length_map] at hlen
    rw [hlen]
    cases ‹Register› <;> simp [Atom.size, Register.name]
  | _, _, .paren h => by
    have := SeqText.size_le h
    simp only [Atom.size, List.length_cons, List.length_append]
    omega
  | _, _, .bracket h => by
    have := SeqText.size_le h
    simp only [Atom.size, List.length_cons, List.length_append]
    omega

theorem ItemText.size_lt : ∀ {i : Item} {t : List Char}, ItemText i t → i.size + 1 ≤ 2 * t.length
  | .op o, _, .op => by
    have := List.length_pos_iff.mpr o.token_ne_nil
    simp only [Item.size]
    omega
  | _, _, .bare h => by
    have := AtomText.size_lt h
    simpa [Item.size] using this
  | _, _, .sized _ _ h => by
    have := AtomText.size_lt h
    simp only [Item.size, List.length_append]
    omega

/-- A written sequence bounds the steps reading it takes. -/
theorem SeqText.size_le : ∀ {apart : Bool} {items : List Item} {cs : List Char},
    SeqText apart items cs → Item.seqSize items ≤ 2 * cs.length + 1
  | _, _, _, .nil _ => by simp [Item.seqSize]
  | _, _, _, .cons _ _ hi hrest => by
    have := ItemText.size_lt hi
    have := SeqText.size_le hrest
    simp only [Item.seqSize, List.length_append]
    omega

end

end Intercept.Expr
