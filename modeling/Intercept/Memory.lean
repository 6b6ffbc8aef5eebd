import Intercept.Word
/-!
# Memory regions

A region is a run of bytes mapped at a base address.  Reads and writes address it by machine
words; a byte outside the region reads as zero and a write to it is dropped, so callers that
must not touch unmapped memory check `Region.covers` first.  A move copies from the region as
it was before the move, so overlapping source and target need no care.

Several regions that do not overlap make an address space (`Region.readIn`): a byte is read
from the region that holds it, and a write goes to every region for the bytes it holds.
-/

namespace Intercept

/-- Bytes mapped from a base address on. -/
structure Region where
  base : Word
  bytes : Array UInt8

namespace Region

def filled (base : Word) (size : Nat) (b : UInt8) : Region := ⟨base, Array.replicate size b⟩

def size (r : Region) : Nat := r.bytes.size

/-- The offset of an address from the base, if the address is inside. -/
def offset? (r : Region) (addr : Word) : Option Nat :=
  let k := (addr - r.base).toNat
  if k < r.size then some k else none

/-- Whether `len` bytes from `addr` on all lie inside, without wrapping past the top. -/
def covers (r : Region) (addr : Word) (len : Nat) : Bool :=
  r.base.toNat ≤ addr.toNat && addr.toNat + len ≤ r.base.toNat + r.size

def get? (r : Region) (k : Nat) : Option UInt8 := r.bytes[k]?

/-- The byte at an address; zero outside. -/
def readByte (r : Region) (addr : Word) : UInt8 :=
  match r.offset? addr with
  | some k => (r.get? k).getD 0
  | none => 0

def read (r : Region) (addr : Word) (len : Nat) : Bytes :=
  (List.range len).map fun i => r.readByte (addr + i.toUInt64)

/-- The bytes from offset `k` on, `len` of them, as far as the region goes. -/
def slice (r : Region) (k len : Nat) : Bytes := ((r.bytes.toList.drop k).take len)

def writeAt (r : Region) (k : Nat) (bs : Bytes) : Region :=
  { r with bytes := (bs.zipIdx k).foldl (fun acc (b, i) => acc.setIfInBounds i b) r.bytes }

/-- Writes bytes from an address on; the bytes that fall outside the region are dropped. -/
def write (r : Region) (addr : Word) (bs : Bytes) : Region :=
  { r with bytes := (bs.zipIdx).foldl (fun acc (b, i) =>
      match r.offset? (addr + i.toUInt64) with
      | some k => acc.setIfInBounds k b
      | none => acc) r.bytes }

/-- Copies `len` bytes from offset `src` to offset `dst`, reading every byte from the region
as it was before the copy. -/
def move (r : Region) (src dst len : Nat) : Region :=
  r.writeAt dst (r.slice src len)

def toBytes (r : Region) : Bytes := r.bytes.toList

/-- The byte at an address of an address space; zero where no region holds it. -/
def readByteIn (rs : List Region) (addr : Word) : UInt8 :=
  match rs.find? fun r => (r.offset? addr).isSome with
  | some r => r.readByte addr
  | none => 0

def readIn (rs : List Region) (addr : Word) (len : Nat) : Bytes :=
  (List.range len).map fun i => readByteIn rs (addr + i.toUInt64)

end Region

end Intercept
