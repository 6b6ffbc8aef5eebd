import Intercept.Dispatch
import Intercept.Param.Eval
/-!
# The service's breakpoint callbacks

The service offers five callbacks that requests can attach to breakpoints:

* `relay` continues into the relay and `skip` does not;
* `follow` continues into the relay unless the parameters say `"cave_exec": false`;
* `boom` sets `eax` to `0xdead`, lowers the stack pointer by 16, clears the return address,
  and then fails;
* `script` runs the operations listed under `ops` in its parameters, one at a time, on the
  live snapshot, and records what they did in a trace.

A script operation is an object; the first of the keys `set`, `write`, `eval`, `ptr`,
`esp_add` and `panic` that it has decides what it does, where an `esp_add` that is not an
integer does not count.  After the operations the stack
pointer may have moved by a multiple of 8 from -160 to 152 bytes, which keeps the moved
snapshot on the service's stack; any other move makes the script fail.  A script returns its
`ret` parameter when that is a boolean, and otherwise continues into the relay as `follow`
does.  Its trace and log are kept also when it fails.
-/

namespace Intercept.Service

/-- The callbacks the service offers. -/
inductive Callback where
  | script
  | relay
  | skip
  | follow
  | boom
  deriving DecidableEq, Repr

namespace Callback

def all : List Callback := [script, relay, skip, follow, boom]

def name : Callback → String
  | script => "script"
  | relay => "relay"
  | skip => "skip"
  | follow => "follow"
  | boom => "boom"

def ofName? (s : String) : Option Callback := all.find? (·.name == s)

end Callback

/-- What a callback may change besides the snapshot: the data memory, its trace and the log. -/
structure Scene where
  data : Region
  trace : List Json
  log : Log

def Scene.context (scene : Scene) (reg : Registry Callback) (regs : Option Snapshot) :
    Expr.Context :=
  ⟨regs, scene.data.readByte, reg.symbols, reg.module⟩

/-- The answer form of a location: a snapshot slot by name, an address as a word. -/
def pointerJson : Expr.Pointer → Json
  | .slot s => .object [("reg", .string s.name)]
  | .addr a => .object [("addr", Json.word a)]

/-- Replaces the low `size` bytes of a word with those of `v`. -/
def overwriteLow (old v : Word) (size : Nat) : Word :=
  if 8 ≤ size then v
  else
    let mask : Word := (1 <<< (size * 8).toUInt64) - 1
    (old &&& ~~~mask) ||| (v &&& mask)

inductive Step where
  | next (regs : Snapshot) (scene : Scene)
  | fail (regs : Snapshot) (scene : Scene)

/-- The lowest and highest stack pointer moves a script may make. -/
def minShift : Int := -160
/-- The highest stack pointer move a script may make. -/
def maxShift : Int := 152

/-- Runs one script operation. -/
def scriptOp (reg : Registry Callback) (op : Json) (regs : Snapshot) (scene : Scene) : Step :=
  let ctx := scene.context reg (some regs)
  let record (entry : Json) (log : Log) (regs : Snapshot) (data : Region) : Step :=
    .next regs { data, trace := scene.trace ++ [entry], log := scene.log ++ log }
  if (op.get? "set").isSome then
    let (v, log) := Param.immediate ctx (op.get? "value")
    match Param.register (op.get? "set") with
    | some slot => record (.object [("set", Json.word v)]) log (regs.set slot v) scene.data
    | none => record (.object [("set", .null)]) log regs scene.data
  else if (op.get? "write").isSome then
    let (v, log1) := Param.immediate ctx (op.get? "value")
    let size := match (op.get? "size").bind Json.getNumber? with
      | some (.unsigned n) => max 1 (min 8 n.toNat)
      | _ => 8
    let (p, log2) := Param.pointer ctx (op.get? "write")
    let log := log1 ++ log2
    match p with
    | none => record (.object [("write", .null)]) log regs scene.data
    | some (.slot s) =>
      record (.object [("write", pointerJson (.slot s)), ("value", Json.word v)]) log
        (regs.set s (overwriteLow (regs.get s) v size)) scene.data
    | some (.addr a) =>
      if a ≠ 0 ∧ scene.data.covers a size then
        record (.object [("write", pointerJson (.addr a)), ("value", Json.word v)]) log regs
          (scene.data.write a (v.toBytes size))
      else .fail regs { scene with log := scene.log ++ log }
  else if (op.get? "eval").isSome then
    let (v, log) := Param.immediate ctx (op.get? "eval")
    record (.object [("eval", Json.word v)]) log regs scene.data
  else if (op.get? "ptr").isSome then
    let (p, log) := Param.pointer ctx (op.get? "ptr")
    record (.object [("ptr", Json.opt pointerJson p)]) log regs scene.data
  else match (op.get? "esp_add").bind Json.getNumber? |>.bind Number.asWord? with
  | some d => .next { regs with esp := regs.esp + d } scene
  | none => if (op.get? "panic").isSome then .fail regs scene else .next regs scene

def scriptOps (reg : Registry Callback) : List Json → Snapshot → Scene → Step
  | [], regs, scene => .next regs scene
  | op :: rest, regs, scene =>
    match scriptOp reg op regs scene with
    | .next regs' scene' => scriptOps reg rest regs' scene'
    | .fail regs' scene' => .fail regs' scene'

/-- Runs a callback on a snapshot. -/
def Callback.run (reg : Registry Callback) (cb : Callback) (params : Json) (regs : Snapshot)
    (scene : Scene) : Outcome Scene :=
  match cb with
  | .relay => .returned true regs scene
  | .skip => .returned false regs scene
  | .follow => .returned (Param.caveExec params) regs scene
  | .boom => .panicked { regs with eax := 0xdead, esp := regs.esp - 16, retaddr := 0 } scene
  | .script =>
    let ops := ((params.get? "ops").bind Json.getArray?).getD []
    match scriptOps reg ops regs scene with
    | .fail regs' scene' => .panicked regs' scene'
    | .next regs' scene' =>
      let d := (regs'.esp - regs.esp).toSigned
      if d % 8 ≠ 0 ∨ d < minShift ∨ maxShift < d then .panicked regs' scene'
      else
        match params.get? "ret" with
        | some (.bool b) => .returned b regs' scene'
        | _ => .returned (Param.caveExec params) regs' scene'

end Intercept.Service
