import Intercept.Word
/-!
# Relative branches

A near `call` or `jmp` with a 32-bit displacement is five bytes: the opcode (`e8` or `e9`),
then the displacement little-endian.  The displacement counts from the end of the branch, so
a branch at `site` reaches `site + 5 + disp`.  Addresses are machine words and wrap; a target
is reachable exactly when the signed difference fits 32 bits.

A leading branch of some code is found by decoding its first instruction with a decoder of
32-bit code (`Decoder`), which is a parameter: what is assumed of it is what its documentation
says of these two instructions (`Decoder.Documented`), that an unprefixed `e8` or `e9` with four
more bytes is the five-byte `call` or `jmp` (`Decoder.DecodesBranches`), and no other code is.

Main statement: `rel32_eq_ok_iff` (exactly when a target is reachable, and by which
displacement).
-/

namespace Intercept.Code

def callOpcode : UInt8 := 0xE8

def jmpOpcode : UInt8 := 0xE9

def nop : UInt8 := 0x90

def int3 : UInt8 := 0xCC

def branchLength : Nat := 5

/-- Why code could not be generated. -/
inductive CodeError where
  /-- Fewer bytes left than an emission needs. -/
  | overflow (needed available : Nat)
  /-- A target beyond the reach of a 32-bit displacement. -/
  | outOfRange (site target : Word)
  deriving DecidableEq, Repr

def CodeError.message : CodeError → String
  | .overflow n a =>
    "code buffer overflow: " ++ toString n ++ " bytes needed, " ++ toString a ++ " available"
  | .outOfRange s t =>
    "branch from 0x" ++ Word.hex s ++ " to 0x" ++ Word.hex t ++ " is out of rel32 range"

def CodeError.kind : CodeError → String
  | .overflow _ _ => "Overflow"
  | .outOfRange _ _ => "OutOfRange"

def fitsInt32 (d : Int) : Bool := -2 ^ 31 ≤ d && d < 2 ^ 31

/-- The displacement of a branch at `site` that reaches `target`. -/
def rel32 (site target : Word) : Except CodeError Int :=
  let d := (target - (site + 5)).toSigned
  if fitsInt32 d then .ok d else .error (.outOfRange site target)

/-- A relative branch: the opcode, then the low 32 bits of the displacement little-endian. -/
def branch (opcode : UInt8) (disp : Int) : Bytes := opcode :: (Word.ofInt disp).toBytes 4

/-- The 32-bit displacement stored by four bytes, sign-extended. -/
def disp32 (bs : Bytes) : Int :=
  let v := (Word.ofBytes bs).toNat
  if v < 2 ^ 31 then v else (v : Int) - 2 ^ 32

/-- The kinds of instruction a decoder reports that branches are told apart by. -/
inductive Mnemonic where
  /-- `call` with a 32-bit displacement. -/
  | callRel32
  /-- `jmp` with a 32-bit displacement. -/
  | jmpRel32
  /-- Any other instruction. -/
  | other
  deriving DecidableEq, Repr

/-- The first instruction of some code, as a decoder reports it: its kind and its length. -/
structure Instruction where
  mnemonic : Mnemonic
  length : Nat
  deriving DecidableEq, Repr

/-- A decoder of 32-bit x86 code: the first instruction of the code. -/
abbrev Decoder := Bytes → Instruction

/-- The opcode of a relative branch of five bytes, if the instruction is one: a longer `call` or
`jmp` has a prefix, and its displacement is not at offset 1. -/
def Instruction.rel32Opcode? (i : Instruction) : Option UInt8 :=
  if i.length = branchLength then
    match i.mnemonic with
    | .callRel32 => some callOpcode
    | .jmpRel32 => some jmpOpcode
    | .other => none
  else none

/-- The opcode of an unprefixed relative branch that code starts with, read off its bytes: `e8`
or `e9` followed by four bytes. -/
def rel32Head? : Bytes → Option UInt8
  | op :: _ :: _ :: _ :: _ :: _ => if op = callOpcode ∨ op = jmpOpcode then some op else none
  | _ => none

/-- What a decoder's documentation says of code that starts with `e8` or `e9` and four more
bytes in 32-bit mode: it starts with the five-byte `call` or `jmp`. -/
def Decoder.DecodesBranches (dec : Decoder) : Prop :=
  ∀ code op, rel32Head? code = some op → (dec code).rel32Opcode? = some op

/-- What a decoder's documentation says of the two relative branches in 32-bit code: the code
starts with a five-byte `call` or `jmp` exactly when its bytes start with `e8` or `e9` and four
more. -/
def Decoder.Documented (dec : Decoder) : Prop :=
  ∀ code, (dec code).rel32Opcode? = rel32Head? code

theorem Decoder.Documented.decodesBranches {dec : Decoder} (h : dec.Documented) :
    dec.DecodesBranches :=
  fun code _ hop => (h code).trans hop

/-- A decoder that knows the two relative branches and reports every other instruction as
`other`, of no length it knows. -/
def Decoder.branches : Decoder := fun code =>
  match rel32Head? code with
  | some op => ⟨if op = callOpcode then .callRel32 else .jmpRel32, branchLength⟩
  | none => ⟨.other, 0⟩

theorem rel32Head?_opcode {code : Bytes} {op : UInt8} (h : rel32Head? code = some op) :
    op = callOpcode ∨ op = jmpOpcode := by
  unfold rel32Head? at h
  split at h
  · split at h
    · cases h
      assumption
    · cases h
  · cases h

theorem Decoder.branches_documented : Decoder.branches.Documented := by
  intro code
  unfold branches
  cases h : rel32Head? code with
  | none => rfl
  | some op => rcases rel32Head?_opcode h with rfl | rfl <;> decide

/-- The opcode and target of an unprefixed `call rel32` or `jmp rel32` at the start of code
placed at `ip`, as the decoder finds it; the displacement is the four bytes after the opcode. -/
def leadingBranch? (dec : Decoder) (code : Bytes) (ip : Word) : Option (UInt8 × Word) :=
  match (dec code).rel32Opcode?, code with
  | some op, _ :: d0 :: d1 :: d2 :: d3 :: _ => some (op, ip + 5 + Word.ofInt (disp32 [d0, d1, d2, d3]))
  | _, _ => none

/-- With a decoder that behaves as documented, the leading branch is read off the bytes. -/
theorem leadingBranch?_of_documented {dec : Decoder} (hdec : dec.Documented) (code : Bytes)
    (ip : Word) : leadingBranch? dec code ip =
      match code with
      | op :: d0 :: d1 :: d2 :: d3 :: _ =>
        if op = callOpcode ∨ op = jmpOpcode then
          some (op, ip + 5 + Word.ofInt (disp32 [d0, d1, d2, d3]))
        else none
      | _ => none := by
  unfold leadingBranch?
  rw [hdec code]
  -- code of five bytes or more is a branch by its first byte; shorter code is none
  match code with
  | [] | [_] | [_, _] | [_, _, _] | [_, _, _, _] => rfl
  | op :: d0 :: d1 :: d2 :: d3 :: rest =>
    by_cases h : op = callOpcode ∨ op = jmpOpcode <;> simp [rel32Head?, h]

theorem rel32_eq_ok_iff (site target : Word) (d : Int) :
    rel32 site target = .ok d ↔ d = (target - (site + 5)).toSigned ∧ fitsInt32 d = true := by
  simp only [rel32]
  by_cases h : fitsInt32 (target - (site + 5)).toSigned = true
  · simp only [h, if_true, Except.ok.injEq]
    constructor
    · rintro rfl
      exact ⟨rfl, h⟩
    · rintro ⟨rfl, _⟩
      rfl
  · simp only [h]
    constructor
    · intro hc
      cases hc
    · rintro ⟨rfl, h'⟩
      exact absurd h' h

end Intercept.Code
