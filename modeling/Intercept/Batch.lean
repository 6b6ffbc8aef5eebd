import Intercept.Breakpoint
import Intercept.Memory
import Intercept.Code.Trampoline
import Intercept.Cave
/-!
# Applying a batch of breakpoints

`Batch.apply` sets up a list of requests together.  Every request is handled once, in order,
and a failing one never stops the others:

1. every address text is resolved first; text after an address is only warned about when the
   value is not zero, and a zero value is a null address;
2. the caves are placed near an origin (the module argument, else the registry's module,
   else the first resolved address): the relay cave of 32 bytes per request, filled with
   `int3`, then the call cave of one trampoline per request; with no origin, or no room for
   the caves, nothing is set up;
3. request `i` is installed when its 32 bytes of code are readable and executable, its
   descriptor sets up with relay slot `i`, its relay is generated into that slot, the next
   trampoline of the call cave is written, and its site is patched with a call to that
   trampoline: the call is assembled, the site made writable, its bytes saved and the call
   written over them.  A failure is logged with the request's position and address.

The relay of a request holds the displaced bytes, with a leading relative branch re-aimed so
that it reaches the same target from the slot, and then a `jmp` back behind the displaced
bytes.  Every site patch remembers the bytes it replaced; `Batch.remove` writes them back in
the order the patches were made, each once its site is made writable again (a site that cannot
be is left patched, and that is logged), then gives the caves back.

All of this happens in the memory of a `Host`: code, relays, trampolines and patches share
one address space, so a site may lie in a cave, and then sees what was written there before.
-/

namespace Intercept

/-- Where the pieces of a batch that are not caves lie in memory. -/
structure Placement where
  /-- The address of the first descriptor. -/
  descriptors : Word
  /-- The distance between consecutive descriptors. -/
  descriptorSize : Nat
  /-- The address of the dispatch routine. -/
  dispatchEntry : Word

def Placement.descriptorAt (p : Placement) (i : Nat) : Word :=
  p.descriptors + (i * p.descriptorSize).toUInt64

/-- What setting up a batch needs of the process it runs in, whose state is `σ`. -/
structure Host (σ : Type) where
  /-- Reads bytes from an address on. -/
  read : σ → Word → Nat → Bytes
  /-- Writes bytes from an address on. -/
  write : σ → Word → Bytes → σ
  /-- The memory map, in increasing order of address. -/
  mappings : σ → List Mapping
  /-- Makes bytes from an address on writable for as long as a patch is written or written
  back, or says why it cannot. -/
  protect : σ → Word → Nat → Except ProtectError Unit
  /-- Places a cave of some length near an origin, if there is room. -/
  allocate : σ → Word → Nat → Option (Word × σ)
  /-- Gives a cave back. -/
  release : σ → Word → σ
  /-- The decoder of the process's code. -/
  decode : Code.Decoder

/-- A host that reads as many bytes as asked for, and whose protection no write changes. -/
structure Host.Lawful {σ : Type} (host : Host σ) : Prop where
  length_read : ∀ m a k, (host.read m a k).length = k
  protect_write : ∀ m a bs addr len, host.protect (host.write m a bs) addr len = host.protect m addr len

/-- Bytes of code replaced by a patch, to be written back. -/
structure SitePatch where
  addr : Word
  saved : Bytes
  deriving DecidableEq

/-- Writes back the bytes a patch replaced, once its site is made writable again.  A site that
cannot be made writable keeps its patch, and that is logged. -/
def SitePatch.restore {σ : Type} (host : Host σ) (p : SitePatch) (mem : σ) : σ × Log :=
  match host.protect mem p.addr p.saved.length with
  | .ok () => (host.write mem p.addr p.saved, [])
  | .error e =>
    (mem, [LogLine.error ("can't restore patch at 0x" ++ Word.hex p.addr ++ ": " ++ e.message)])

/-- Writes back patches in the order given, each as `SitePatch.restore` does. -/
def SitePatch.restoreAll {σ : Type} (host : Host σ) : List SitePatch → σ → σ × Log
  | [], mem => (mem, [])
  | p :: ps, mem =>
    let (mem, log) := p.restore host mem
    let (mem, rest) := restoreAll host ps mem
    (mem, log ++ rest)

/-- A batch of breakpoints as set up; `κ` is the type of callbacks. -/
structure Batch (κ : Type) where
  /-- The descriptors, one per request, as setting up left them. -/
  breakpoints : List (Breakpoint κ)
  /-- The positions of the installed requests, in order. -/
  installed : List Nat
  /-- The site patches, in the order they were made. -/
  patches : List SitePatch
  /-- The relay cave and the call cave, when caves were placed. -/
  caves : Option (Word × Word)

namespace Batch

variable {κ : Type}

def failed (b : Batch κ) : Nat := b.breakpoints.length - b.installed.length

def relaySize (b : Batch κ) : Nat := b.breakpoints.length * relaySlotSize

def callSize (b : Batch κ) : Nat := b.breakpoints.length * Code.trampolineLength

/-- Removes a batch: writes back the bytes of every patch, in the order they were made, then
gives the call cave and the relay cave back. -/
def remove {σ : Type} (host : Host σ) (b : Batch κ) (mem : σ) : σ × Log :=
  let (mem, log) := SitePatch.restoreAll host b.patches mem
  match b.caves with
  | some (relay, call) => (host.release (host.release mem call) relay, log)
  | none => (mem, log)

/-- The site of a breakpoint: its address text resolved against the module argument, else the
registry's module.  Text after a nonzero address is warned about. -/
def resolveSite (reg : Registry κ) (module : Option Word) (bp : Breakpoint κ) :
    Except BreakpointError Word × Log :=
  let text := bp.addrText.toList
  let r := resolve reg.symbols (module <|> reg.module) text
  let unresolved e := (Except.error (BreakpointError.unresolved bp.addrText e), ([] : Log))
  let checked : Except BreakpointError Word × Log :=
    match r.error with
    | none => (.ok r.value, [])
    | some .garbage =>
      if r.value ≠ 0 then
        (.ok r.value, [LogLine.warn (bp.name ++ ": ignoring " ++
          Text.quoted (String.ofList (text.drop r.taken)) ++ " after address")])
      else unresolved .garbage
    | some e => unresolved e
  match checked with
  | (.ok 0, log) => (.error .nullAddress, log)
  | other => other

/-- Runs emission steps in order until one fails; the buffer is what the last successful
step left. -/
def runSteps (b : Code.CodeBuffer) :
    List (Code.CodeBuffer → Except Code.CodeError Code.CodeBuffer) →
      Code.CodeBuffer × Except Code.CodeError Unit
  | [] => (b, .ok ())
  | s :: rest =>
    match s b with
    | .ok b' => runSteps b' rest
    | .error e => (b, .error e)

/-- Generates the relay of a breakpoint into its slot: the displaced bytes, a leading branch
that `dec` finds re-aimed, then the jump back. -/
def buildRelay (dec : Code.Decoder) (bp : Breakpoint κ) (displaced : Bytes) (slot : Array UInt8) :
    Array UInt8 × Except Code.CodeError Unit :=
  let start := Code.CodeBuffer.new slot bp.cave
  let body : List (Code.CodeBuffer → Except Code.CodeError Code.CodeBuffer) :=
    match Code.leadingBranch? dec displaced bp.addr with
    | some (op, target) =>
      [fun (b : Code.CodeBuffer) => b.emitBranch op target,
        fun (b : Code.CodeBuffer) => b.emit (displaced.drop 5)]
    | none => [fun (b : Code.CodeBuffer) => b.emit displaced]
  let back := fun (b : Code.CodeBuffer) => b.emitJmp (bp.addr + bp.cavesize.toUInt64)
  let (b, r) := runSteps start (body ++ [back])
  (b.data, r)

/-- The state of a batch being set up in memory `σ`. -/
structure Progress (κ σ : Type) where
  mem : σ
  /-- Where the next trampoline goes, in the call cave. -/
  calls : Code.CodeBuffer
  breakpoints : List (Breakpoint κ)
  installed : List Nat
  patches : List SitePatch
  log : Log

/-- A number right-aligned in two columns. -/
def column2 (n : Nat) : String :=
  let s := toString n
  String.ofList (List.replicate (2 - s.length) ' ') ++ s

/-- Installs a breakpoint whose descriptor is set up: relay, trampoline, site patch.  The site
patch is the call `assembleCall` makes, written once the site is made writable. -/
def install {σ : Type} (host : Host σ) (place : Placement) (i : Nat) (bp : Breakpoint κ)
    (st : Progress κ σ) : Progress κ σ × Except BreakpointError Unit :=
  let displaced := host.read st.mem bp.addr bp.cavesize
  let (slot, relayResult) :=
    buildRelay host.decode bp displaced (host.read st.mem bp.cave relaySlotSize).toArray
  let st := { st with mem := host.write st.mem bp.cave slot.toList }
  match relayResult with
  | .error e => (st, .error (.code e))
  | .ok () =>
    let tramp := Code.Trampoline.new place.dispatchEntry
    let context := place.descriptorAt i
    match tramp.instantiate st.calls context with
    | .error e => (st, .error (.code e))
    | .ok (entry, calls) =>
      let st := { st with mem := host.write st.mem entry (tramp.withContext context), calls }
      match Code.assembleCall bp.addr entry bp.cavesize with
      | .error e => (st, .error (.patch (.code e)))
      | .ok patch =>
        match host.protect st.mem bp.addr patch.length with
        | .error e => (st, .error (.patch (.protection e)))
        | .ok () =>
          let saved := host.read st.mem bp.addr patch.length
          ({ st with mem := host.write st.mem bp.addr patch,
                     patches := st.patches ++ [⟨bp.addr, saved⟩] }, .ok ())

/-- Checks that `len` bytes from `addr` on are mapped readable and executable, without a gap. -/
def checkRegion (maps : List Mapping) (addr : Word) (len : Nat) : Except BreakpointError Unit :=
  if coversReadExecute maps addr.toNat len then .ok () else .error (.inaccessible addr len)

/-- Handles request `i` of `n`, whose site resolved as `site`, with the relay cave at
`relay`. -/
def step {σ : Type} (host : Host σ) (reg : Registry κ) (place : Placement) (relay : Word)
    (n : Nat) (st : Progress κ σ) (i : Nat) (bp : Breakpoint κ)
    (site : Except BreakpointError Word) : Progress κ σ :=
  let outcome : Breakpoint κ × Progress κ σ × Except BreakpointError Unit :=
    match site with
    | .error e => (bp, st, .error e)
    | .ok addr =>
      match checkRegion (host.mappings st.mem) addr relaySlotSize with
      | .error e => (bp, st, .error e)
      | .ok () =>
        let (bp', initResult, initLog) := bp.init reg addr (relay + (i * relaySlotSize).toUInt64)
        let st := { st with log := st.log ++ initLog }
        match initResult with
        | .error e => (bp', st, .error e)
        | .ok () =>
          let (st', r) := install host place i bp' st
          (bp', st', r)
  let (bp', st', result) := outcome
  let st' := { st' with breakpoints := st'.breakpoints ++ [bp'] }
  match result with
  | .ok () => { st' with installed := st'.installed ++ [i] }
  | .error e =>
    let shown := match site with
      | .ok a => a
      | .error _ => 0
    { st' with log := st'.log ++ [LogLine.error ("(" ++ column2 (i + 1) ++ "/" ++ column2 n ++ ") " ++
        Word.hexPadded shown ++ " " ++ bp.name ++ "... " ++ e.message)] }

def steps {σ : Type} (host : Host σ) (reg : Registry κ) (place : Placement) (relay : Word)
    (n : Nat) : Progress κ σ → Nat → List (Breakpoint κ × Except BreakpointError Word) →
      Progress κ σ
  | st, _, [] => st
  | st, i, (bp, site) :: rest =>
    steps host reg place relay n (step host reg place relay n st i bp site) (i + 1) rest

/-- Places the relay cave, filled with `int3`, and then the call cave of a batch of `n`
requests near an origin. -/
def placeCaves {σ : Type} (host : Host σ) (mem : σ) (origin : Word) (n : Nat) :
    Option (Word × Word × σ) := do
  let (relay, mem) ← host.allocate mem origin (n * relaySlotSize)
  let (call, mem) ← host.allocate mem origin (n * Code.trampolineLength)
  pure (relay, call, host.write mem relay (List.replicate (n * relaySlotSize) Code.int3))

/-- Sets up a batch of requests in the memory of a host.  The result is the batch, the memory
afterwards and the log. -/
def apply {σ : Type} (host : Host σ) (reg : Registry κ) (place : Placement) (mem : σ)
    (module : Option Word) (requests : List Request) : Batch κ × σ × Log :=
  let bps : List (Breakpoint κ) := requests.map Breakpoint.ofRequest
  let n := bps.length
  let empty : Batch κ := ⟨bps, [], [], none⟩
  if n = 0 then (empty, mem, [])
  else
    let resolved := bps.map (resolveSite reg module)
    let sites := resolved.map Prod.fst
    let resolveLog := (resolved.map Prod.snd).flatten
    let firstOk := sites.findSome? fun
      | .ok a => some a
      | .error _ => none
    match module <|> reg.module <|> firstOk with
    | none =>
      let reasons := (bps.zip sites).filterMap fun
        | (bp, .error e) => some (LogLine.error (bp.name ++ ": " ++ e.message))
        | (_, .ok _) => none
      (empty, mem, resolveLog ++
        [LogLine.error ("None of the " ++ toString n ++ " breakpoints resolved")] ++ reasons)
    | some origin =>
      match placeCaves host mem origin n with
      | none =>
        (empty, mem, resolveLog ++ [LogLine.error ("can't allocate caves for " ++
          toString n ++ " breakpoints: " ++ Cave.outOfMemory)])
      | some (relay, call, mem') =>
        let start : Progress κ σ :=
          { mem := mem', calls := Code.CodeBuffer.new
              (Array.replicate (n * Code.trampolineLength) 0) call,
            breakpoints := [], installed := [], patches := [], log := resolveLog }
        let fin := steps host reg place relay n start 0 (bps.zip sites)
        (⟨fin.breakpoints, fin.installed, fin.patches, some (relay, call)⟩, fin.mem, fin.log)

end Batch

/-- Removes live batches, oldest first. -/
def removeAll {κ σ : Type} (host : Host σ) : List (Batch κ) → σ → σ × Log
  | [], mem => (mem, [])
  | b :: bs, mem =>
    let (mem, log) := b.remove host mem
    let (mem, rest) := removeAll host bs mem
    (mem, log ++ rest)

end Intercept
