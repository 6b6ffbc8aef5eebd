import Intercept.Service.Apply
import Intercept.Json.Write
/-!
# Answering requests

The service reads one JSON request per line and writes one JSON answer per line.  Every
answer carries `log`, the lines its request logged.  A top-level request is prepared first:
the data region is cleared, the registry is set up afresh for the request's `module` with the
service's callbacks, and the request's `register`, `functions` and `options` fields are loaded.
Then, as for every step of a `session`, its `mem` writes go into the data region, the
operation runs, and its `dump` reads data back; an answer that is an error has no dump, and
a dump that fails turns the answer into an error without undoing the operation.  A session
itself writes and dumps nothing, and is not an operation a step can name.  After a top-level
request every live batch is removed, so that requests do not see each other.
-/

namespace Intercept.Service

/-- The operation a request names. -/
def operation? (op : String) : Option (World → Json → Handled) :=
  match op with
  | "eval" => some opEval
  | "immediate" => some opImmediate
  | "pointer" => some opPointer
  | "register_pointer" => some opRegisterPointer
  | "parse_register" => some opParseRegister
  | "resolve" => some opResolve
  | "hex_value" => some opHexValue
  | "object_get" => some opObjectGet
  | "cave_exec_flag" => some opCaveExec
  | "opts" => some opOpts
  | "request_from_json" => some opRequestFromJson
  | "requests_from_json" => some opRequestsFromJson
  | "breakpoint_init" => some opBreakpointInit
  | "dispatch" => some opDispatch
  | "codebuf" => some opCodebuf
  | "assemble" => some opAssemble
  | "rel32" => some opRel32
  | "branch" => some opBranch
  | "leading_branch" => some opLeadingBranch
  | "constants" => some opConstants
  | "apply" => some opApply
  | "breakpoints_apply" => some opBreakpointsApply
  | "breakpoints_remove_all" => some opBreakpointsRemoveAll
  | "init" => some opInit
  | "teardown" => some opTeardown
  | "register_function" => some opRegisterFunction
  | "register_breakpoint" => some opRegisterBreakpoint
  | "module" => some opModule
  | "func_get" => some opFuncGet
  | "opt_get" => some opOptGet
  | "breakpoint_get" => some opBreakpointGet
  | _ => none

/-- Writes the `mem` field's bytes into the data region, one write after the other; a write
that does not lie inside the region is a fault, and the writes before it stay. -/
def writeMemory (data : Region) : List Json → Region × Option Fault
  | [] => (data, none)
  | item :: rest =>
    let one : Except Fault Region := do
      let addr ← wordField item "addr"
      let bs ← hexField item "hex"
      let k ← windowOffset dataBase dataSize addr bs.length.toUInt64
        (.badInput "mem outside the data window")
      pure (data.writeAt k bs)
    match one with
    | .ok data' => writeMemory data' rest
    | .error f => (data, some f)

/-- Reads the `dump` field's ranges of the data region. -/
def dumpMemory (data : Region) (items : List Json) : Except Fault Json := do
  let hexes ← items.mapM fun item => do
    let addr ← wordField item "addr"
    let len ← wordField item "len"
    let k ← windowOffset dataBase dataSize addr len (.badInput "dump outside the data window")
    pure (Json.string (Bytes.hex (data.read (data.base + k.toUInt64) len.toNat)))
  pure (.array hexes)

def withLog (reply : Reply) (log : Log) : Json :=
  .object (reply ++ [("log", .array (log.map fun l => .string l.render))])

def isErrorReply (reply : Reply) : Bool := reply.any (·.1 == "error")

/-- The log an answer carries: none when it reports that the engine stopped, since the lines
logged until then are lost with it. -/
def replyLog (reply : Reply) (log : Log) : Log :=
  if reply.any (fun (k, v) => k == "error" && v matches .string "panic") then [] else log

/-- Adds the log to an answer, as `replyLog` keeps it. -/
def answerWith (reply : Reply) (log : Log) : Json := withLog reply (replyLog reply log)

/-- Runs the operation a request names, unless it is a session. -/
def runOperation (w : World) (op : String) (req : Json) : Handled :=
  match operation? op with
  | none => throw (.badInput ("unknown op '" ++ op ++ "'"))
  | some f => f w req

def isSession (req : Json) : Bool :=
  match field req "op" with
  | some (.string "session") => true
  | _ => false

/-- Runs one step: memory writes, the operation, memory reads.  The log is prefixed by
`prior`, the lines logged while preparing.  A session is not an operation of a step. -/
def runStep (w : World) (req : Json) (prior : Log) : Json × World :=
  match stringField req "op" with
  | .error f => (answerWith f.reply prior, w)
  | .ok op =>
  match writeMemory w.data (listField req "mem") with
  | (data, some f) => (answerWith f.reply prior, { w with data })
  | (data, none) =>
    let w := { w with data }
    match runOperation w op req with
    | .error f => (answerWith (f.reply) prior, w)
    | .ok (reply, w', log) =>
      match (if isErrorReply reply then none else field req "dump") with
      | some (.array items) =>
        match dumpMemory w'.data items with
        | .ok d => (answerWith (reply ++ [("dump", d)]) (prior ++ log), w')
        | .error f => (answerWith (f.reply) (prior ++ log), w')
      | _ => (answerWith reply (prior ++ log), w')

def sessionSteps (w : World) : List Json → List Json × World
  | [] => ([], w)
  | step :: rest =>
    let (answer, w') := runStep w step []
    let (answers, w'') := sessionSteps w' rest
    (answer :: answers, w'')

/-- Prepares the world for a top-level request: a fresh registry for its module with the
service's callbacks, its extra callback names and functions, and its options, which are
loaded when the field is there at all. -/
def prepare (w : World) (req : Json) : Except Fault (World × Log) := do
  let module ← wordField? req "module"
  let reg := registerAll (Registry.init module)
  let reg ← (objectField req "register").foldlM (fun r (name, v) => do
    let cbName := match v with
      | .string s => s
      | _ => ""
    pure (r.registerCallback name (← callbackOf cbName))) reg
  let reg ← (objectField req "functions").foldlM (fun r (name, v) => do
    match wordOf? v with
    | some addr => pure (r.registerFunction name addr)
    | none => throw (.badInput "function address")) reg
  let (reg, log) := match req.get? "options" with
    | some opts => let (r, _, log) := reg.loadOptions opts; (r, log)
    | none => (reg, [])
  pure ({ w with registry := reg, data := Region.filled dataBase dataSize 0 }, log)

/-- Answers a top-level request and removes every live batch afterwards. -/
def answer (w : World) (req : Json) : Json × World :=
  match prepare w req with
  | .error f => (withLog (f.reply) [], w)
  | .ok (w', log) =>
    if isSession req then
      -- a session answers with its steps only, each with its own log
      let (answers, w'') := sessionSteps w' (listField req "steps")
      (.object [("steps", .array answers)], (w''.removeAll).1)
    else
      let (ans, w'') := runStep w' req log
      (ans, (w''.removeAll).1)

def answerLine (w : World) (line : String) : String × World :=
  match Json.read line with
  | .error e => (Json.render (withLog (errorReply "bad_json" e.message) []), w)
  | .ok req =>
    -- a line that is not an object is a request without fields
    let (ans, w') := answer w req
    (Json.render ans, w')

end Intercept.Service
