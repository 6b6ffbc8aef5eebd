import Intercept.Code.Branch
/-!
# Code buffers

A code buffer appends machine code to a block of memory of fixed capacity and knows the
address each byte will run at: the block's base plus the byte's position, wrapping.  An
emission either appends all its bytes or, when they do not fit, fails and changes nothing;
a branch also fails, before the room is checked, when its target is out of reach.  Aligning
counts the fill by a remainder, and an alignment of zero panics.

A site is hooked by overwriting its first bytes with a `call` to the hook's destination, padded
with `nop` to the number of bytes displaced (`assembleCall`).  The bytes are assembled in a
buffer placed at the site, so the call's displacement is relative to the site.

Main statement: `CodeBuffer.emit_error` (a failed emission reports the shortfall).
-/

namespace Intercept.Code

/-- Code being written into a block of memory whose first byte runs at `base`. -/
structure CodeBuffer where
  /-- The address the first byte of the block runs at. -/
  base : Word
  /-- The whole block, written part and rest. -/
  data : Array UInt8
  /-- The number of bytes written. -/
  pos : Nat
  pos_le : pos ≤ data.size

namespace CodeBuffer

def new (data : Array UInt8) (base : Word) : CodeBuffer := ⟨base, data, 0, Nat.zero_le _⟩

def address (b : CodeBuffer) : Word := b.base + b.pos.toUInt64

def remaining (b : CodeBuffer) : Nat := b.data.size - b.pos

def written (b : CodeBuffer) : Bytes := (b.data.toList.take b.pos)

/-- Writes bytes into a block from an offset on, within its bounds. -/
def store (data : Array UInt8) (k : Nat) (bs : Bytes) : Array UInt8 :=
  (bs.zipIdx k).foldl (fun acc (x, i) => acc.setIfInBounds i x) data

theorem size_store (data : Array UInt8) (k : Nat) (bs : Bytes) :
    (store data k bs).size = data.size := by
  unfold store
  generalize bs.zipIdx k = l
  induction l generalizing data with
  | nil => rfl
  | cons p rest ih => simp [List.foldl, ih]

def emit (b : CodeBuffer) (bs : Bytes) : Except CodeError CodeBuffer :=
  if h : bs.length ≤ b.remaining then
    .ok ⟨b.base, store b.data b.pos bs, b.pos + bs.length, by
      rw [size_store]; unfold remaining at h; have := b.pos_le; omega⟩
  else .error (.overflow bs.length b.remaining)

/-- Appends `n` copies of a byte.  The room is checked before the bytes are made, so a count
far beyond the block costs nothing. -/
def emitFill (b : CodeBuffer) (n : Nat) (fill : UInt8) : Except CodeError CodeBuffer :=
  if n ≤ b.remaining then b.emit (List.replicate n fill) else .error (.overflow n b.remaining)

theorem emitFill_eq (b : CodeBuffer) (n : Nat) (fill : UInt8) :
    b.emitFill n fill = b.emit (List.replicate n fill) := by
  unfold emitFill emit
  by_cases h : n ≤ b.remaining <;> simp [h]

/-- Appends a relative branch with the given opcode that reaches `target`. -/
def emitBranch (b : CodeBuffer) (opcode : UInt8) (target : Word) : Except CodeError CodeBuffer :=
  match rel32 b.address target with
  | .ok disp => b.emit (branch opcode disp)
  | .error e => .error e

def emitCall (b : CodeBuffer) (target : Word) : Except CodeError CodeBuffer :=
  b.emitBranch callOpcode target

def emitJmp (b : CodeBuffer) (target : Word) : Except CodeError CodeBuffer :=
  b.emitBranch jmpOpcode target

/-- Fills with a byte until `len` bytes are written in all; nothing if there are already. -/
def padTo (b : CodeBuffer) (len : Nat) (fill : UInt8) : Except CodeError CodeBuffer :=
  b.emitFill (len - b.pos) fill

/-- The message of the panic a remainder by zero raises. -/
def remainderByZero : String := "attempt to calculate the remainder with a divisor of zero"

/-- Fills with a byte until the next address is a multiple of `align`.  The distance is
counted by a remainder by `align`, so an alignment of zero panics (`none`), with the message
`remainderByZero`. -/
def align (b : CodeBuffer) (align : Nat) (fill : UInt8) : Option (Except CodeError CodeBuffer) :=
  if align = 0 then none
  else
    let misalign := b.address.toNat % align
    some (if misalign = 0 then .ok b else b.emitFill (align - misalign) fill)

/-- Fills the free rest of the block with a byte; the written part and the position stay. -/
def clearRest (b : CodeBuffer) (fill : UInt8) : CodeBuffer :=
  ⟨b.base, store b.data b.pos (List.replicate b.remaining fill), b.pos, by
    rw [size_store]; exact b.pos_le⟩

theorem emit_error (b : CodeBuffer) (bs : Bytes) (e : CodeError) (h : b.emit bs = .error e) :
    e = .overflow bs.length b.remaining ∧ b.remaining < bs.length := by
  unfold emit at h
  split at h
  · cases h
  · cases h
    exact ⟨rfl, by omega⟩

end CodeBuffer

/-- The `len` bytes that call `destination` from `source`: the call, then `nop` padding.
Fails when the destination is out of reach or `len` is below the call's five bytes. -/
def assembleCall (source destination : Word) (len : Nat) : Except CodeError Bytes :=
  let buf := CodeBuffer.new (Array.replicate len nop) source
  match buf.emitCall destination with
  | .error e => .error e
  | .ok b =>
    match b.padTo len nop with
    | .error e => .error e
    | .ok b' => .ok b'.data.toList

end Intercept.Code
