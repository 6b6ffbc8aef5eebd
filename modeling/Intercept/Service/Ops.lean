import Intercept.Service.World
import Intercept.Code.Trampoline
/-!
# The service's operations

Each operation reads its fields from the request, calls the library and builds the fields of
its answer.  An operation that fails with an error of the library answers with the error's
kind and text; a request that does not have the fields an operation needs is a fault.

The dispatch routine is run on a stack of 48 words, word `i` holding `0x57000000 + i`, with
the snapshot stored from word 20 on; the answer reads the snapshot back where the shift put it.
-/

namespace Intercept.Service

abbrev Reply := List (String × Json)

/-- What an operation did: its answer, the world afterwards, and its log. -/
abbrev Handled := Except Fault (Reply × World × Log)

def errorReply (kind message : String) : Reply :=
  [("error", .string kind), ("message", .string message)]

def Fault.reply (f : Fault) : Reply := errorReply f.kind f.message

/-- The expression context of the world, with an optional snapshot and module base. -/
def World.context (w : World) (regs : Option Snapshot) (base : Option Word) : Expr.Context :=
  ⟨regs, w.data.readByte, w.registry.symbols, base <|> w.registry.module⟩

def World.scene (w : World) : Scene := ⟨w.data, [], []⟩

def optionJson (o : PatchOption) : Json :=
  .object [("type", .string o.typeName), ("size", Json.nat o.size), ("word", Json.word o.asWord)]

def requestJson (r : Request) : Json :=
  .object [("name", .string r.name), ("addr", .string r.addr), ("cavesize", Json.nat r.cavesize),
    ("params", r.params)]

/-- A request given as `{name, addr, cavesize, params}`; `addr` is the empty text unless it is
a string, and `params` defaults to an empty object. -/
def requestOfJson (v : Json) : Except Fault Request := do
  let name ← stringField v "name"
  let addr := match field v "addr" with
    | some (.string s) => s
    | _ => ""
  let cavesize ← wordField v "cavesize"
  let params := (field v "params").getD (.object [])
  pure { name, addr, cavesize := cavesize.toNat, params }

/-- The field `request`, which must be there; a `null` or another value that is not an object
has no name. -/
def requestField (req : Json) : Except Fault Request :=
  match req.get? "request" with
  | some v => requestOfJson v
  | none => .error (.badInput "missing request")

def descriptorJson (bp : Breakpoint Callback) : Json :=
  .object [("name", .string bp.name), ("addr_str", .string bp.addrText),
    ("addr", Json.word bp.addr), ("cavesize", Json.nat bp.cavesize), ("cave", Json.word bp.cave),
    ("has_func", .bool bp.callback.isSome), ("base_name", .string bp.baseName),
    ("key", .string bp.key)]

/-- The stack the dispatch routine runs on: 48 words, word `i` holding `0x57000000 + i`, with
the snapshot from word 20 on. -/
def dispatchStack (regs : Snapshot) : Region :=
  let words := (List.range 48).map fun i => (0x57000000 + i).toUInt64
  let stack : Region := ⟨0, (words.flatMap fun w => Word.toBytes w 8).toArray⟩
  stack.writeAt (20 * 8) regs.toBytes

/-- Runs the dispatch routine on a descriptor (none for a null one) and a snapshot (stored,
but passed as null when `nullRegs`).  The answer's words are written by `w`. -/
def runDispatch (world : World) (w : Word → Json) (bp? : Option (Breakpoint Callback))
    (regs : Snapshot) (nullRegs : Bool) : Reply × World × Log :=
  let frame : Frame := ⟨dispatchStack regs, if nullRegs then none else some (20 * 8)⟩
  let (shift, frame', scene, log) := dispatch (Callback.run world.registry) bp? frame world.scene
  let slotAt := (20 + shift.toSigned.tdiv 8).toNat
  let after := frame'.snapshotAt (slotAt * 8)
  let stackWords := (List.range 48).map fun i => Word.ofBytes (frame'.stack.slice (i * 8) 8)
  ([("shift", Json.int shift.toSigned), ("regs", snapshotJsonWith w after),
      ("stack", .array (stackWords.map w)), ("trace", .array scene.trace)],
    { world with data := scene.data }, scene.log ++ log)

/-- `eval`: the value of an expression, or its error. -/
def opEval (w : World) (req : Json) : Handled := do
  let text ← stringField req "expr"
  let regs ← snapshotField? req
  let base ← wordField? req "resolver_module"
  let reply := match Expr.eval (w.context regs base) text with
    | .ok v => [("value", Json.word v)]
    | .error e => errorReply e.kind e.message
  pure (reply, w, [])

/-- `immediate`: the value of an expression, or zero with the error logged. -/
def opImmediate (w : World) (req : Json) : Handled := do
  let text ← stringField req "expr"
  let regs ← snapshotField? req
  let (v, log) := Param.evalOrZero (w.context regs none) text
  pure ([("value", Json.word v)], w, log)

/-- `pointer`: the location an expression denotes, or its error. -/
def opPointer (w : World) (req : Json) : Handled := do
  let text ← stringField req "expr"
  let regs := (← snapshotField? req).getD {}
  match Expr.pointer (w.context (some regs) none) text with
  | .ok (p, rest) =>
    let log := if rest.isEmpty then [] else
      [LogLine.warn ("leftover bytes after dereferencing: '" ++ String.ofList rest ++ "'")]
    pure ([("ptr", pointerJson p)], w, log)
  | .error e => pure (errorReply e.kind e.message, w, [])

/-- `register_pointer`: the slot named by the first three characters. -/
def opRegisterPointer (w : World) (req : Json) : Handled := do
  let name ← stringField req "name"
  pure ([("ptr", Json.opt (fun s => pointerJson (.slot s)) (Expr.registerSlot? name))], w, [])

/-- `parse_register`: the register at the start of a text, and the register a whole text names. -/
def opParseRegister (w : World) (req : Json) : Handled := do
  let text ← stringField req "text"
  let pre := Json.opt (fun (r, rest) => Json.object [("reg", .string r.name),
    ("rest", .string (String.ofList rest))]) (Register.parsePrefix? text.toList)
  let whole := match Register.ofText? text.toList with
    | some r => Json.object [("reg", .string r.name)]
    | none => Json.object (errorReply "UnknownRegister" (Register.unknownMessage text))
  pure ([("prefix", pre), ("from_str", whole)], w, [])

def addressErrorName : AddressError → String
  | .symbolNotFound => "SymbolNotFound"
  | .overflow => "Overflow"
  | .noModule => "NoModule"
  | .garbage => "Garbage"

/-- `resolve`: what reading an address text gives. -/
def opResolve (w : World) (req : Json) : Handled := do
  let text ← stringField req "text"
  let own ← wordField? req "resolver_module"
  let arg ← wordField? req "arg_module"
  let cs := text.toList
  let r := resolve w.registry.symbols (arg <|> own <|> w.registry.module) cs
  pure ([("value", Json.word r.value), ("consumed", Json.nat (r.consumedBytes cs)),
    ("addr_error", Json.opt (fun e => .string (addressErrorName e)) r.error),
    ("ok", Json.opt Json.word r.ok?)], w, [])

/-- `hex_value`: the integer a JSON value gives; the field must be there, if only as `null`. -/
def opHexValue (w : World) (req : Json) : Handled :=
  match req.get? "value" with
  | none => throw (.badInput "missing value")
  | some v => pure ([("value", Json.opt Json.word (Param.hexValue? v))], w, [])

/-- `object_get`: a parameter of an object, read as a value, a location or a register. -/
def opObjectGet (w : World) (req : Json) : Handled := do
  let obj := (field req "object").getD .null
  let key ← stringField req "key"
  let regs ← snapshotField? req
  let kind ← stringField req "kind"
  let param := obj.get? key
  if kind = "immediate" then
    let (v, log) := Param.immediate (w.context regs none) param
    pure ([("value", Json.word v)], w, log)
  else if kind = "pointer" then
    let (p, log) := Param.pointer (w.context (some (regs.getD {})) none) param
    pure ([("ptr", Json.opt pointerJson p)], w, log)
  else if kind = "register" then
    pure ([("ptr", Json.opt (fun s => pointerJson (.slot s)) (Param.register param))], w, [])
  else throw (.badInput "unknown kind")

/-- `cave_exec_flag`: whether parameters let a breakpoint continue into its relay. -/
def opCaveExec (w : World) (req : Json) : Handled :=
  pure ([("value", .bool (Param.caveExec ((field req "params").getD .null)))], w, [])

/-- `opts`: loads patch options and lists the options under their keys and the queried names. -/
def opOpts (w : World) (req : Json) : Handled := do
  let opts := (field req "opts").getD .null
  let query := listField req "query"
  let (registry, loaded, log) := w.registry.loadOptions opts
  let keys := (match opts with
    | .object fs => fs.map Prod.fst
    | _ => []) ++ query.filterMap Json.getString?
  let table := keys.foldl (fun acc k =>
    Json.insertField k (Json.opt optionJson (registry.option? k)) acc) []
  pure ([("loaded", Json.nat loaded), ("table", .object table)], { w with registry }, log)

/-- `request_from_json`: the request a configuration describes. -/
def opRequestFromJson (w : World) (req : Json) : Handled := do
  let name ← stringField req "name"
  let params := (field req "params").getD .null
  match Request.ofJson name params with
  | .ok r => pure ([("request", requestJson r)], w, [])
  | .error e => pure (errorReply "serde" e.message, w, [])

/-- `requests_from_json`: the requests of an object of configurations. -/
def opRequestsFromJson (w : World) (req : Json) : Handled := do
  let (reqs, log) := Request.listOfJson ((field req "defs").getD .null)
  pure ([("requests", .array (reqs.map requestJson))], w, log)

/-- `breakpoint_init`: sets a descriptor up at a site and a cave. -/
def opBreakpointInit (w : World) (req : Json) : Handled := do
  let r ← requestField req
  let addr ← wordField req "addr"
  let cave ← wordField req "cave"
  let (bp, result, log) := (Breakpoint.ofRequest r : Breakpoint Callback).init w.registry addr cave
  let init := match result with
    | .ok () => Json.null
    | .error e => .object (errorReply e.kind e.message)
  pure ([("init", init), ("descriptor", descriptorJson bp)], w, log)

/-- `dispatch`: runs the dispatch routine on a descriptor whose callback is looked up. -/
def opDispatch (w : World) (req : Json) : Handled := do
  let nullBp := flagField req "null_bp"
  let nullRegs := flagField req "null_regs"
  let regs := (← snapshotField? req).getD {}
  let bp? ← if nullBp then pure none else do
    let r ← requestField req
    let addr ← wordFieldD req "addr" 0
    let cave ← wordFieldD req "cave" 0
    let bp : Breakpoint Callback := Breakpoint.ofRequest r
    pure (some { bp with addr, cave, callback := w.registry.callback? bp.key })
  pure (runDispatch w Json.word bp? regs nullRegs)

def codeErrorReply (e : Code.CodeError) : Reply := errorReply e.kind e.message

/-- Runs one step of a `codebuf` request.  The first of the keys `emit`, `branch`, `call`,
`jmp`, `pad_to`, `align`, `clear_rest` and `trampoline` that the step has, if only as `null`,
decides what it does; a value it needs that is not an integer is a fault of the step. -/
def codeStep (b : Code.CodeBuffer) (op : Json) :
    Code.CodeBuffer × Except Reply (Option Word) :=
  let lift (r : Except Code.CodeError Code.CodeBuffer) :=
    match r with
    | .ok b' => (b', .ok none)
    | .error e => (b, .error (codeErrorReply e))
  let has (key : String) : Bool := (op.get? key).isSome
  let fault (f : Fault) : Code.CodeBuffer × Except Reply (Option Word) :=
    (b, .error f.reply)
  let run (r : Except Fault (Code.CodeBuffer × Except Reply (Option Word))) :=
    match r with
    | .ok res => res
    | .error f => fault f
  let fill : Except Fault UInt8 := byteFieldD op "byte" Code.nop
  if has "emit" then
    match op.get? "emit" with
    | some (.string s) =>
      match hexBytes s with
      | .ok bs => lift (b.emit bs)
      | .error f => fault f
    | _ => fault (.badInput "emit hex")
  else if has "branch" then run do
    let opcode ← wordField op "branch"
    let target ← wordField op "target"
    pure (lift (b.emitBranch opcode.toUInt8 target))
  else if has "call" then run do pure (lift (b.emitCall (← wordField op "call")))
  else if has "jmp" then run do pure (lift (b.emitJmp (← wordField op "jmp")))
  else if has "pad_to" then run do
    let len ← wordField op "pad_to"
    pure (lift (b.padTo len.toNat (← fill)))
  else if has "align" then run do
    let a ← wordField op "align"
    let byte ← fill
    match b.align a.toNat byte with
    | some r => pure (lift r)
    | none => pure (b, .error (errorReply "panic" Code.CodeBuffer.remainderByZero))
  else if has "clear_rest" then run do
    pure (b.clearRest (← wordField op "clear_rest").toUInt8, .ok none)
  else if has "trampoline" then run do
    let dispatch ← wordField op "trampoline"
    let context ← wordField op "context"
    match (Code.Trampoline.new dispatch).instantiate b context with
    | .ok (addr, b') => pure (b', .ok (some addr))
    | .error e => pure (b, .error (codeErrorReply e))
  else (b, .error (errorReply "bad_input" "unknown codebuf op"))

/-- Runs the steps of a `codebuf` request, answering each with the buffer's state after it. -/
def codeSteps : Code.CodeBuffer → List Json → Code.CodeBuffer × List Json
  | b, [] => (b, [])
  | b, op :: rest =>
    let (b', r) := codeStep b op
    let state : Reply := [("position", Json.nat b'.pos), ("address", Json.word b'.address),
      ("remaining", Json.nat b'.remaining)]
    let head : Reply := match r with
      | .ok v => [("ok", Json.opt Json.word v)]
      | .error reply => reply
    let (bFinal, answers) := codeSteps b' rest
    (bFinal, .object (head ++ state) :: answers)

/-- `codebuf`: runs code buffer operations over a block. -/
def opCodebuf (w : World) (req : Json) : Handled := do
  let size ← wordField req "size"
  if 65536 < size.toNat then throw (.badInput "size too large")
  let base ← wordField req "base"
  let init ← byteFieldD req "init" 0
  let ops := listField req "ops"
  let (b, answers) := codeSteps (Code.CodeBuffer.new (Array.replicate size.toNat init) base) ops
  pure ([("steps", .array (answers ++ [.object [("written", .string (Bytes.hex b.written))]])),
    ("data", .string (Bytes.hex b.data.toList))], w, [])

/-- `assemble`: the bytes that call a destination from a source. -/
def opAssemble (w : World) (req : Json) : Handled := do
  let len ← wordField req "len"
  if 65536 < len.toNat then throw (.badInput "len too large")
  let source ← wordField req "source"
  let dest ← wordField req "destination"
  match Code.assembleCall source dest len.toNat with
  | .ok bs => pure ([("hex", .string (Bytes.hex bs))], w, [])
  | .error e => pure (codeErrorReply e, w, [])

/-- `rel32`: the displacement from a site to a target. -/
def opRel32 (w : World) (req : Json) : Handled := do
  let site ← wordField req "site"
  let target ← wordField req "target"
  match Code.rel32 site target with
  | .ok d => pure ([("disp", Json.int d)], w, [])
  | .error e => pure (codeErrorReply e, w, [])

/-- `branch`: a branch with the low byte of the opcode and the low 32 bits of the
displacement. -/
def opBranch (w : World) (req : Json) : Handled := do
  let disp ← match (field req "disp").bind Json.getNumber? |>.bind Number.toInt? with
    | some d => pure d
    | none => throw (.badInput "disp")
  let opcode ← wordField req "opcode"
  pure ([("hex", .string (Bytes.hex (Code.branch opcode.toUInt8 disp)))], w, [])

/-- `leading_branch`: the branch at the start of code, if there is one. -/
def opLeadingBranch (w : World) (req : Json) : Handled := do
  let code ← hexField req "hex"
  let ip ← wordField req "ip"
  let found := Json.opt (fun (op, t) => Json.object [("opcode", Json.nat op.toNat),
    ("target", Json.word t)]) (Code.leadingBranch? World.host.decode code ip)
  pure ([("branch", found)], w, [])

/-- `constants`: the layout constants. -/
def opConstants (w : World) (_req : Json) : Handled :=
  pure ([("CALL_LEN", Json.nat Code.branchLength), ("BRANCH_LEN", Json.nat Code.branchLength),
    ("BP_OFFSET", Json.nat relaySlotSize), ("BP_SOURCE_CAVE_MIN", Json.nat minCaveSize),
    ("BP_SOURCE_CAVE_MAX", Json.nat maxCaveSize), ("DISPATCH_OFFSET", Json.nat Code.dispatchOffset),
    ("CONTEXT_OFFSET", Json.nat Code.contextOffset),
    ("TRAMPOLINE_LEN", Json.nat Code.trampolineLength), ("REGS_SIZE", Json.nat Snapshot.size),
    ("BP_PREFIX", .string callbackPrefix)], w, [])

/-- Registers the service's callbacks under their own names. -/
def registerAll (r : Registry Callback) : Registry Callback :=
  Callback.all.foldl (fun acc cb => acc.registerCallback cb.name cb) r

/-- `init`: a fresh registry for a module. -/
def opInit (w : World) (req : Json) : Handled := do
  let module ← wordField? req "module"
  pure ([("value", .null)], { w with registry := Registry.init module }, [])

/-- `teardown`: an empty registry. -/
def opTeardown (w : World) (_req : Json) : Handled :=
  pure ([("value", .null)], { w with registry := Registry.init none }, [])

/-- `register_function`: stores a named address. -/
def opRegisterFunction (w : World) (req : Json) : Handled := do
  let name ← stringField req "name"
  let addr ← wordField req "addr"
  pure ([("value", .null)], { w with registry := w.registry.registerFunction name addr }, [])

def callbackOf (name : String) : Except Fault Callback :=
  match Callback.ofName? name with
  | some cb => .ok cb
  | none => .error (.badInput "unknown callback")

/-- `register_breakpoint`: stores a callback under a breakpoint name. -/
def opRegisterBreakpoint (w : World) (req : Json) : Handled := do
  let cb ← callbackOf (← stringField req "callback")
  let name ← stringField req "name"
  pure ([("value", .null)], { w with registry := w.registry.registerCallback name cb }, [])

/-- `module`: the registry's module. -/
def opModule (w : World) (_req : Json) : Handled :=
  pure ([("module", Json.opt Json.word w.registry.module)], w, [])

/-- `func_get`: a named address. -/
def opFuncGet (w : World) (req : Json) : Handled := do
  let name ← stringField req "name"
  pure ([("value", Json.opt Json.word (w.registry.function? name))], w, [])

/-- `opt_get`: a patch option. -/
def opOptGet (w : World) (req : Json) : Handled := do
  let name ← stringField req "name"
  pure ([("value", Json.opt optionJson (w.registry.option? name))], w, [])

/-- `breakpoint_get`: whether a callback is stored under a key. -/
def opBreakpointGet (w : World) (req : Json) : Handled := do
  let key ← stringField req "key"
  pure ([("found", .bool (w.registry.callback? key).isSome)], w, [])

end Intercept.Service
