import Intercept.Service.Callback
import Intercept.Batch
import Intercept.Json.Read
/-!
# The service's world

The service answers requests against one simulated process: a data region of 64 KiB at
`0x30000000` that expressions read and scripts write, a code region of 16 KiB at `0x40000000`
where breakpoint sites live, each followed by an inaccessible guard page, the registry, and the
batches of breakpoints that are live.

Requests are JSON objects.  A field that is missing or `null` is absent, except the snapshot
of a hit, which is present when its key is.  A word, a string or a snapshot register of the wrong type
is a fault of the request, answered as `bad_input`; a list, an object or a flag of the wrong
type counts as empty or false.  Words are JSON integers, negative ones standing for their
two's complement.

Ranges of memory a request names are checked against their window by address, the end
computed with wrapping; a range that passes and still does not fit stops the engine, as a
slice of the window would (`windowOffset`).
-/

namespace Intercept.Service

def dataBase : Word := 0x30000000

def dataSize : Nat := 0x10000

def codeBase : Word := 0x40000000

def codeSize : Nat := 0x4000

def guardSize : Nat := 0x1000

/-- The memory map apart from caves: data (not executable), guard, code (readable and
executable), guard. -/
def mappings : List Mapping :=
  [⟨dataBase.toNat, dataSize, false⟩, ⟨dataBase.toNat + dataSize, guardSize, false⟩,
    ⟨codeBase.toNat, codeSize, true⟩, ⟨codeBase.toNat + codeSize, guardSize, false⟩]

/-- Inserts a mapping before the first of the others that starts after it. -/
def insertMapping (m : Mapping) : List Mapping → List Mapping
  | [] => [m]
  | n :: rest => if m.start ≤ n.start then m :: n :: rest else n :: insertMapping m rest

def sortMappings : List Mapping → List Mapping
  | [] => []
  | m :: rest => insertMapping m (sortMappings rest)

/-- The memory map with the pools of caves, in increasing order of address. -/
def memoryMap (pools : List Cave.Pool) : List Mapping :=
  sortMappings (mappings ++ pools.map Cave.Pool.mapping)

/-- Whether every byte of the `len` bytes from `addr` on lies in a mapping, counting with
wrapping. -/
def mapsAll (maps : List Mapping) (addr : Word) (len : Nat) : Bool :=
  (List.range len).all fun k =>
    maps.any fun m => m.start ≤ (addr + k.toUInt64).toNat && (addr + k.toUInt64).toNat < m.stop

/-- The address of the dispatch routine, in memory the service does not model. -/
def dispatchEntry : Word := 0x6f001000

/-- Where the descriptors of the `k`-th live batch begin, in memory the service does not
model, apart from those of other batches. -/
def descriptorBase (k : Nat) : Word := 0x6a000000 + (k * 0x100000).toUInt64

/-- Where the pieces of the `k`-th live batch lie, caves apart. -/
def placementAt (k : Nat) : Placement :=
  { descriptors := descriptorBase k
    descriptorSize := 0x100
    dispatchEntry }

/-- The state the service answers requests against. -/
structure World where
  registry : Registry Callback
  data : Region
  code : Region
  /-- The batches set up by `breakpoints_apply` and not yet removed, oldest first. -/
  live : List (Batch Callback)
  /-- The code as it was before the first live batch, with later code writes. -/
  before : Option Region
  /-- The pools caves are cut from, with their bytes. -/
  pools : List Cave.Pool

def World.initial : World :=
  ⟨Registry.init none, Region.filled dataBase dataSize 0, Region.filled codeBase codeSize 0, [],
    none, []⟩

/-- The regions of the world's address space: data, code and the pools of caves. -/
def World.regions (w : World) : List Region := w.data :: w.code :: w.pools.map (·.memory)

def World.writeMemory (w : World) (addr : Word) (bs : Bytes) : World :=
  { w with data := w.data.write addr bs, code := w.code.write addr bs,
           pools := w.pools.map fun p => { p with memory := p.memory.write addr bs } }

/-- The world as the host of batches: its address space, its memory map, and caves cut from
its pools by first fit.  Bytes can be made writable where they are all mapped. -/
def World.host : Host World where
  read w addr len := Region.readIn w.regions addr len
  write := World.writeMemory
  mappings w := memoryMap w.pools
  protect w addr len := if mapsAll (memoryMap w.pools) addr len then .ok () else .error .unmappedRegion
  allocate w origin len :=
    (Cave.allocate Cave.firstFit mappings w.pools origin.toNat len).map fun (a, pools) =>
      (a.toUInt64, { w with pools })
  release w addr := { w with pools := Cave.release w.pools addr.toNat }
  decode := Code.Decoder.branches

/-- A request the service cannot take. -/
inductive Fault where
  /-- A field is missing, has the wrong type or names something out of range. -/
  | badInput (message : String)
  /-- The engine stopped on a range it cannot take, such as a slice past the end of a
  block. -/
  | panic (message : String)

def Fault.message : Fault → String
  | .badInput m => m
  | .panic m => m

/-- The kind of error a fault is answered as. -/
def Fault.kind : Fault → String
  | .badInput _ => "bad_input"
  | .panic _ => "panic"

/-- The fault of byte text that cannot be read: an odd length and two bytes that are not a
byte are faults of the request; two bytes that end inside a character stop the engine. -/
def Fault.ofHexError : Bytes.HexError → Fault
  | .oddLength => .badInput "odd hex length"
  | .badByte => .badInput "bad hex"
  | .splitsChar stop c start =>
    .panic ("end byte index " ++ toString stop ++ " is not a char boundary; it is inside " ++
      Text.quotedChar c ++ " (bytes " ++ toString start ++ ".." ++
      toString (start + c.utf8Size) ++ " of string)")

/-- Checks the slice from `start` to `stop` of a block of `size` bytes: a start or a stop past
the end, or a stop before the start, stops the engine, in that order. -/
def sliceCheck (size start stop : Nat) : Except Fault Unit :=
  if size < start then
    .error (.panic ("range start index " ++ toString start ++ " out of range for slice of length " ++
      toString size))
  else if size < stop then
    .error (.panic ("range end index " ++ toString stop ++ " out of range for slice of length " ++
      toString size))
  else if stop < start then
    .error (.panic ("slice index starts at " ++ toString start ++ " but ends at " ++
      toString stop))
  else .ok ()

theorem sliceCheck_eq_ok {size start stop : Nat} :
    sliceCheck size start stop = .ok () ↔ start ≤ stop ∧ stop ≤ size := by
  unfold sliceCheck
  split
  · simp only [reduceCtorEq, false_iff]; omega
  · split
    · simp only [reduceCtorEq, false_iff]; omega
    · split
      · simp only [reduceCtorEq, false_iff]; omega
      · simp only [true_iff]; omega

/-- The offset of `len` bytes at `addr` in a window of `size` bytes at `base`.  The window
check compares addresses, the end computed with wrapping, so a range that wraps past the top
of the address space passes it and then fails as a slice of the window. -/
def windowOffset (base : Word) (size : Nat) (addr : Word) (len : Word) (outside : Fault) :
    Except Fault Nat := do
  if addr < base ∨ base.toNat + size < (addr + len).toNat then throw outside
  let start := addr - base
  sliceCheck size start.toNat (start + len).toNat
  pure start.toNat

def field (req : Json) (key : String) : Option Json :=
  match req.get? key with
  | some .null => none
  | other => other

def mustBe (key what : String) : Fault := .badInput ("'" ++ key ++ "' must be " ++ what)

def wordOf? : Json → Option Word
  | .number n => n.asWord?
  | _ => none

def wordField? (req : Json) (key : String) : Except Fault (Option Word) :=
  match field req key with
  | none => .ok none
  | some v =>
    match wordOf? v with
    | some w => .ok (some w)
    | none => .error (mustBe key "an integer")

def wordFieldD (req : Json) (key : String) (d : Word) : Except Fault Word :=
  (wordField? req key).map (·.getD d)

def wordField (req : Json) (key : String) : Except Fault Word := do
  match ← wordField? req key with
  | some w => pure w
  | none => throw (mustBe key "an integer")

def stringField (req : Json) (key : String) : Except Fault String :=
  match field req key with
  | some (.string s) => .ok s
  | _ => .error (mustBe key "a string")

def stringField? (req : Json) (key : String) : Except Fault (Option String) :=
  match field req key with
  | none => .ok none
  | some (.string s) => .ok (some s)
  | some _ => .error (mustBe key "a string")

/-- A boolean field, false unless it is `true`. -/
def flagField (req : Json) (key : String) : Bool :=
  match field req key with
  | some (.bool b) => b
  | _ => false

/-- A list field, empty unless it is a list. -/
def listField (req : Json) (key : String) : List Json :=
  match field req key with
  | some (.array xs) => xs
  | _ => []

/-- An object field, empty unless it is an object. -/
def objectField (req : Json) (key : String) : List (String × Json) :=
  match field req key with
  | some (.object fs) => fs
  | _ => []

/-- An optional byte field: the low byte of a word. -/
def byteFieldD (req : Json) (key : String) (d : UInt8) : Except Fault UInt8 :=
  (wordField? req key).map fun w? => (w?.map UInt64.toUInt8).getD d

def hexBytes (s : String) : Except Fault Bytes :=
  (Bytes.ofHex s).mapError Fault.ofHexError

def hexField (req : Json) (key : String) : Except Fault Bytes := do
  hexBytes (← stringField req key)

/-- A snapshot given as an object of words; missing slots are zero, and a value that is not
a word, `null` included, is a fault, as is a snapshot that is not an object. -/
def snapshotOfJson (v : Json) : Except Fault Snapshot := do
  match v with
  | .object _ => pure ()
  | _ => throw (.badInput "regs must be an object")
  let get (name : String) : Except Fault Word :=
    match v.get? name with
    | none => .ok 0
    | some x =>
      match wordOf? x with
      | some w => .ok w
      | none => .error (.badInput ("register " ++ name ++ " must be an integer"))
  pure { edi := ← get "edi", esi := ← get "esi", ebp := ← get "ebp", esp := ← get "esp",
         ebx := ← get "ebx", edx := ← get "edx", ecx := ← get "ecx", eax := ← get "eax",
         retaddr := ← get "retaddr" }

/-- The optional snapshot field `regs` of a request; `null` is no snapshot. -/
def snapshotField? (req : Json) : Except Fault (Option Snapshot) :=
  match field req "regs" with
  | none => .ok none
  | some v => (snapshotOfJson v).map some

/-- The optional snapshot of a hit; unlike other fields, a `null` snapshot is present, and a
fault. -/
def hitSnapshot? (hit : Json) : Except Fault (Option Snapshot) :=
  match hit.get? "regs" with
  | none => .ok none
  | some v => (snapshotOfJson v).map some

/-- A snapshot in an answer, every slot by name, each word written by `w`. -/
def snapshotJsonWith (w : Word → Json) (s : Snapshot) : Json :=
  .object (Slot.all.map fun slot => (slot.name, w (s.get slot)))

def snapshotJson (s : Snapshot) : Json := snapshotJsonWith Json.word s

end Intercept.Service
