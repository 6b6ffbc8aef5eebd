import Intercept.Service.Ops
/-!
# Applying batches in the service

`apply` sets up a batch on freshly filled code, reports what it generated, runs the dispatch
routine for the requested hits, and removes the batch again, reporting whether the code came
back.  Because the caves' placement is not part of the contract, the answer writes every word
that lies in a cave as an offset into it (`{"relay": k}`, `{"call": k}`), masks the
displacement bytes of the branches it recognises, and names trampoline contexts by the index
of their descriptor.

`breakpoints_apply` sets up a batch that stays live; `breakpoints_remove_all` removes every
live batch, oldest first, and reports whether the code is as it was before the first of them.
-/

namespace Intercept.Service

/-- The answer form of a word, as an offset when it lies in a cave of the batch. -/
def caveWord (b : Batch Callback) (w : Word) : Json :=
  let inCave (base : Word) (size : Nat) (key : String) : Option Json :=
    let k := (w - base).toNat
    if k < size then some (Json.object [(key, Json.nat k)]) else none
  match b.caves with
  | none => Json.word w
  | some (relay, call) =>
    match inCave relay b.relaySize "relay" with
    | some j => j
    | none =>
      match inCave call b.callSize "call" with
      | some j => j
      | none => Json.word w

/-- Hexadecimal text of bytes with the displacements of branches at the given offsets written
as dots. -/
def maskedHex (bs : Bytes) (branchesAt : List Nat) : String :=
  let masked (i : Nat) : Bool := branchesAt.any fun k => k < i ∧ i ≤ k + 4
  String.join ((bs.zipIdx).map fun (x, i) =>
    if masked i then ".." else String.ofList (Bytes.hexByte x))

/-- The answer form of a branch found at an offset of code placed at `ip`. -/
def branchAt (b : Batch Callback) (code : Bytes) (ip : Word) (k : Nat) : Option Json :=
  (Code.leadingBranch? World.host.decode (code.drop k) (ip + k.toUInt64)).map fun (op, t) =>
    Json.object [("at", Json.nat k), ("opcode", Json.nat op.toNat), ("target", caveWord b t)]

/-- One entry of a `code` field: bytes and the offset in a code region of `size` bytes they
go to, which must lie inside it. -/
def codeEntry (size : Nat) (item : Json) : Except Fault (Nat × Bytes) := do
  let at_ ← wordField item "at"
  let bs ← hexField item "hex"
  let k ← windowOffset 0 size at_ bs.length.toUInt64 (.badInput "code outside the code window")
  pure (k, bs)

/-- The entries of a `code` field in order, up to the first that is a fault. -/
def codeEntries (size : Nat) : List Json → List (Nat × Bytes) × Option Fault
  | [] => ([], none)
  | item :: rest =>
    match codeEntry size item with
    | .ok e =>
      let (es, f) := codeEntries size rest
      (e :: es, f)
    | .error f => ([], some f)

def writeCode (code : Region) (writes : List (Nat × Bytes)) : Region :=
  writes.foldl (fun c (k, bs) => c.writeAt k bs) code

def requestsField (req : Json) : Except Fault (List Request) := do
  (listField req "requests").mapM requestOfJson

/-- The fields of an `apply` answer that describe what was generated for the `k`-th live
batch, read from the world's memory. -/
def batchReply (b : Batch Callback) (w : World) (k : Nat) : Reply :=
  let read := World.host.read w
  let installed := b.installed.filterMap fun i => (b.breakpoints[i]?).map fun bp => (i, bp)
  let bpJson := (b.breakpoints.zipIdx).map fun (bp, i) =>
    Json.object [("name", .string bp.name), ("installed", .bool (b.installed.contains i)),
      ("addr", Json.word bp.addr), ("cave", caveWord b bp.cave),
      ("has_func", .bool bp.callback.isSome)]
  let sites := installed.map fun (i, bp) =>
    let bytes := read bp.addr bp.cavesize
    let call := Code.leadingBranch? World.host.decode bytes bp.addr
    Json.object [("index", Json.nat i),
      ("hex", .string (maskedHex bytes (if call.isSome then [0] else []))),
      ("call", Json.opt (fun (op, t) =>
        Json.object [("opcode", Json.nat op.toNat), ("target", caveWord b t)]) call)]
  let relays := installed.map fun (i, bp) =>
    let slot := match b.caves with
      | some (relay, _) => read (relay + (i * relaySlotSize).toUInt64) relaySlotSize
      | none => []
    let found := ([0, bp.cavesize].filterMap fun k =>
      (branchAt b slot bp.cave k).map fun j => (k, j))
    Json.object [("index", Json.nat i), ("hex", .string (maskedHex slot (found.map Prod.fst))),
      ("branches", .array (found.map Prod.snd))]
  let trampolines := (List.range installed.length).map fun t =>
    let tramp := match b.caves with
      | some (_, call) => read (call + (t * Code.trampolineLength).toUInt64) Code.trampolineLength
      | none => []
    let dispatchWord := Word.ofBytes ((tramp.drop Code.dispatchOffset).take 8)
    let context := Word.ofBytes ((tramp.drop Code.contextOffset).take 8)
    let index := (List.range b.breakpoints.length).find? fun i =>
      (placementAt k).descriptorAt i = context
    Json.object [("stub", .string (Bytes.hex (tramp.take Code.dispatchOffset))),
      ("dispatch_is_breakpoint_process", .bool (dispatchWord = dispatchEntry)),
      ("context", Json.opt Json.nat index)]
  [("failed", Json.nat b.failed), ("relay_cave", .bool b.caves.isSome),
    ("call_cave", .bool b.caves.isSome), ("breakpoints", .array bpJson),
    ("sites", .array sites), ("relays", .array relays), ("trampolines", .array trampolines)]

/-- Runs the requested hits on the batch's descriptors, in order, up to the first hit that is
a fault: the answers and log of the hits before it, the world after them, and the fault. -/
def runHits (b : Batch Callback) (w : World) : List Json → List Json × World × Log × Option Fault
  | [] => ([], w, [], none)
  | hit :: rest =>
    let prepared : Except Fault (Breakpoint Callback × Snapshot) := do
      let index ← wordField hit "index"
      match b.breakpoints[index.toNat]? with
      | none => throw (.badInput "hit index out of range")
      | some bp => pure (bp, (← hitSnapshot? hit).getD {})
    match prepared with
    | .error f => ([], w, [], some f)
    | .ok (bp, regs) =>
      let (reply, w', log) := runDispatch w (caveWord b) (some bp) regs false
      let (answers, w'', log', fault) := runHits b w' rest
      (.object reply :: answers, w'', log ++ log', fault)

def fillField (req : Json) : Except Fault UInt8 := byteFieldD req "fill" Code.nop

/-- `apply`: sets up a batch, reports it, runs hits, removes it. -/
def opApply (w : World) (req : Json) : Handled := do
  let fill ← fillField req
  let (writes, fault?) := codeEntries codeSize (listField req "code")
  if let some f := fault? then throw f
  let code := writeCode (Region.filled codeBase codeSize fill) writes
  let requests ← requestsField req
  let module ← wordField? req "apply_module"
  let hits := listField req "hits"
  let (batch, w1, log) :=
    Batch.apply World.host w.registry (placementAt 0) { w with code } module requests
  let (hitAnswers, w2, hitLog, fault) := runHits batch w1 hits
  let (w3, removeLog) := batch.remove World.host w2
  -- a hit that is a fault ends the request, with what the hits before it did
  match fault with
  | some f => pure (f.reply, w3, log ++ hitLog ++ removeLog)
  | none =>
    pure (batchReply batch w1 0 ++
        [("hits", .array hitAnswers), ("restored", .bool (w3.code.toBytes == code.toBytes))],
      w3, log ++ hitLog ++ removeLog)

/-- `breakpoints_apply`: sets up a batch that stays live.  The first batch after the code was
last restored starts from freshly filled code.  The code writes go in one after the other, and
also into the code to restore when there is one; when they all succeed and there is none yet,
the code as it now is becomes the code to restore.  What was done before a fault stays. -/
def opBreakpointsApply (w : World) (req : Json) : Handled := do
  let fill ← fillField req
  let w := if w.before.isNone then { w with code := Region.filled codeBase codeSize fill } else w
  let (writes, fault?) := codeEntries codeSize (listField req "code")
  let w := { w with code := writeCode w.code writes, before := w.before.map (writeCode · writes) }
  if let some f := fault? then return (f.reply, w, [])
  let w := { w with before := w.before <|> some w.code }
  let parsed : Except Fault (List Request × Option Word) := do
    pure (← requestsField req, ← wordField? req "apply_module")
  match parsed with
  | .error f => pure (f.reply, w, [])
  | .ok (requests, module) =>
    let (batch, w', log) :=
      Batch.apply World.host w.registry (placementAt (w.live.length + 1)) w module requests
    let firstBytes := requests.map fun r =>
      let site := (resolve w.registry.symbols (module <|> w.registry.module) r.addr.toList).value
      Json.opt (fun b => Json.nat b.toNat) ((w'.code.offset? site).bind w'.code.get?)
    pure ([("failed", Json.nat batch.failed), ("first_byte", .array firstBytes)],
      { w' with live := w.live ++ [batch] }, log)

/-- Removes every live batch: the world afterwards, whether the code is as it was before the
first of them, and what removing them logged. -/
def World.removeAll (w : World) : World × Option Bool × Log :=
  let (w', log) := Intercept.removeAll World.host w.live w
  ({ w' with live := [], before := none }, w.before.map (w'.code.bytes == ·.bytes), log)

/-- `breakpoints_remove_all`: removes every live batch. -/
def opBreakpointsRemoveAll (w : World) (_req : Json) : Handled :=
  let (w', restored, log) := w.removeAll
  pure ([("restored", Json.opt Json.bool restored)], w', log)

end Intercept.Service
