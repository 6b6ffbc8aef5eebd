import Intercept.Request
import Intercept.Registry
import Intercept.Code.Branch
/-!
# Breakpoint descriptors

A breakpoint runs a callback whenever execution reaches its site.  Its descriptor records the
request it came from, the resolved site address, the number of displaced bytes (its cave
size), the address of its relay slot (its cave), and its callback.  The callback is the one
registered under `BP_` followed by the breakpoint's name up to its first `#`, so one callback
can serve several sites named `name#1`, `name#2`, ….

`Breakpoint.init` checks, in this order, that the site is not null and that the cave size
lies from 5 to 27 (a call needs five bytes, and the relay slot of 32 bytes must also hold the
jump back); only then does it look up the callback and store site and cave, also when no
callback is found.
-/

namespace Intercept

/-- The least number of displaced bytes: a call's length. -/
def minCaveSize : Nat := 5

def relaySlotSize : Nat := 32

/-- The greatest number of displaced bytes: a relay slot less the jump back. -/
def maxCaveSize : Nat := relaySlotSize - 5

/-- Why the protection of a range of memory could not be changed. -/
inductive ProtectError where
  /-- Part of the range is not mapped. -/
  | unmappedRegion
  deriving DecidableEq, Repr

def ProtectError.message : ProtectError → String
  | .unmappedRegion => "Queried memory is unmapped"

/-- The protection error as its constructor is written. -/
def ProtectError.debug : ProtectError → String
  | .unmappedRegion => "UnmappedRegion"

/-- Why a site could not be hooked: its call cannot be assembled, or its bytes cannot be made
writable. -/
inductive HookError where
  | code (error : Code.CodeError)
  | protection (error : ProtectError)
  deriving DecidableEq, Repr

/-- The text of a hook error: a code error's own text, and a protection error as it is
written. -/
def HookError.message : HookError → String
  | .code e => e.message
  | .protection e => "ProtectionError(" ++ e.debug ++ ")"

/-- Why a breakpoint could not be set up. -/
inductive BreakpointError where
  /-- A cave size outside 5 to 27. -/
  | badCaveSize (given : Nat)
  /-- No callback under the key. -/
  | callbackNotFound (key : String)
  /-- The address text did not resolve. -/
  | unresolved (addr : String) (error : AddressError)
  /-- The site address is zero. -/
  | nullAddress
  /-- The site is not mapped readable and executable throughout. -/
  | inaccessible (addr : Word) (len : Nat)
  /-- Generating its relay or its trampoline failed. -/
  | code (error : Code.CodeError)
  /-- Patching its site failed. -/
  | patch (error : HookError)
  deriving DecidableEq, Repr

namespace BreakpointError

/-- The text of a breakpoint error. -/
def message : BreakpointError → String
  | .badCaveSize n =>
    "cavesize exceeds limits (given: " ++ toString n ++ ", min: 5, max: 27)"
  | .callbackNotFound k => "function " ++ k ++ " not found"
  | .unresolved a e => "can't resolve address " ++ Text.quoted a ++ ": " ++ e.message
  | .nullAddress => "address is null"
  | .inaccessible a n =>
    "0x" ++ Word.hex a ++ " is not readable and executable for " ++ toString n ++ " bytes"
  | .code e => e.message
  | .patch e => "patching failed: " ++ e.message

/-- The constructor's name, as errors are classed in answers. -/
def kind : BreakpointError → String
  | .badCaveSize _ => "BadCaveSize"
  | .callbackNotFound _ => "CallbackNotFound"
  | .unresolved _ _ => "Unresolved"
  | .nullAddress => "NullAddress"
  | .inaccessible _ _ => "Inaccessible"
  | .code e => e.kind
  | .patch _ => "Patch"

end BreakpointError

/-- A breakpoint; `κ` is the type of callbacks. -/
structure Breakpoint (κ : Type) where
  name : String
  /-- The address text it was requested at. -/
  addrText : String
  /-- The resolved site; zero until set up. -/
  addr : Word
  cavesize : Nat
  /-- The address of its relay slot; zero until set up. -/
  cave : Word
  callback : Option κ
  params : Json

namespace Breakpoint

variable {κ : Type}

def ofRequest (r : Request) : Breakpoint κ :=
  { name := r.name, addrText := r.addr, addr := 0, cavesize := r.cavesize, cave := 0,
    callback := none, params := r.params }

/-- The name up to its first `#`. -/
def baseName (bp : Breakpoint κ) : String := String.ofList (bp.name.toList.takeWhile (· ≠ '#'))

def key (bp : Breakpoint κ) : String := callbackPrefix ++ bp.baseName

/-- Sets a breakpoint up at a site with a relay slot: the checks run in order, and past the
cave size check the callback, site and cave are stored whether a callback is found or not. -/
def init (bp : Breakpoint κ) (reg : Registry κ) (addr cave : Word) :
    Breakpoint κ × Except BreakpointError Unit × Log :=
  if addr = 0 then (bp, .error .nullAddress, [])
  else if bp.cavesize < minCaveSize ∨ maxCaveSize < bp.cavesize then
    (bp, .error (.badCaveSize bp.cavesize),
      [LogLine.error ("cavesize exceeds limits! (given: " ++ toString bp.cavesize ++
        ", min: 5, max: 27)")])
  else
    let found := reg.callback? bp.key
    let bp' := { bp with callback := found, addr, cave }
    match found with
    | some _ => (bp', .ok (), [])
    | none => (bp', .error (.callbackNotFound bp.key), [])

end Breakpoint

end Intercept
