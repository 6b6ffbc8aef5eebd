import Intercept.Breakpoint
import Intercept.Memory
import Intercept.Register
/-!
# The dispatch routine

A trampoline calls the dispatch routine with its breakpoint and the register snapshot it saved
on the stack.  The routine runs the breakpoint's callback on the snapshot and tells the
trampoline how far the snapshot moved:

* without a breakpoint or a snapshot it logs an error and returns `0`; without a callback it
  returns `0`; in both cases nothing changes;
* a callback that returns `true` sends execution into the relay: the return address becomes
  the breakpoint's cave; one that returns `false` leaves it;
* a callback that fails (panics) is logged; the stack pointer and the return address get back
  their values from before the call, every other change stays, and the result is `0`;
* otherwise the result is the change of the stack pointer, wrapping, and the 72 bytes of the
  snapshot are moved by that many bytes, as by a copy from the stack as it was before the move,
  since `popad` does not restore the stack pointer itself.

The callback is a parameter: it sees the breakpoint's parameters, the snapshot and a world
`σ` of its own (memory it may write, a trace), and its outcome says how it ended.
-/

namespace Intercept

/-- How a callback ended. -/
inductive Outcome (σ : Type) where
  /-- It returned; `redirect` says whether to continue into the relay. -/
  | returned (redirect : Bool) (regs : Snapshot) (world : σ)
  /-- It failed, after making the changes it made. -/
  | panicked (regs : Snapshot) (world : σ)

/-- A stack with a snapshot saved on it. -/
structure Frame where
  /-- The stack's bytes. -/
  stack : Region
  /-- The offset of the snapshot on the stack; none stands for a null pointer. -/
  regsAt : Option Nat

namespace Frame

def snapshotAt (f : Frame) (k : Nat) : Snapshot := Snapshot.ofBytes (f.stack.slice k Snapshot.size)

def storeAt (f : Frame) (k : Nat) (s : Snapshot) : Frame :=
  { f with stack := f.stack.writeAt k s.toBytes }

end Frame

/-- The log line for a call without breakpoint or snapshot. -/
def dispatchMisuse : LogLine :=
  LogLine.error "breakpoint_process: called without a breakpoint or registers"

/-- Runs a breakpoint's callback on the snapshot of a frame.  The result is the shift of the
snapshot, the frame and world afterwards, and the log. -/
def dispatch {κ σ : Type} (call : κ → Json → Snapshot → σ → Outcome σ)
    (bp? : Option (Breakpoint κ)) (frame : Frame) (world : σ) : Word × Frame × σ × Log :=
  match bp?, frame.regsAt with
  | some bp, some p =>
    match bp.callback with
    | none => (0, frame, world, [])
    | some f =>
      let saved := frame.snapshotAt p
      match call f bp.params saved world with
      | .panicked regs world' =>
        let restored := { regs with esp := saved.esp, retaddr := saved.retaddr }
        (0, frame.storeAt p restored, world',
          [LogLine.error ("breakpoint callback panicked name=" ++ bp.name)])
      | .returned redirect regs world' =>
        let regs' := if redirect then { regs with retaddr := bp.cave } else regs
        let written := frame.storeAt p regs'
        let shift := regs'.esp - saved.esp
        if shift = 0 then (0, written, world', [])
        else
          let target := (p.toUInt64 + shift).toNat
          (shift, { written with stack := written.stack.move p target Snapshot.size }, world', [])
  | _, _ => (0, frame, world, [dispatchMisuse])

end Intercept
