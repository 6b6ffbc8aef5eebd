import Intercept.PatchOption
import Intercept.Address
import Intercept.Log
/-!
# The registry

The tables that applying and running breakpoints consult: the base of the target module, the
breakpoint callbacks (stored under the key `BP_` followed by the callback's name), named
function addresses, and patch options.  Each table maps a name to one entry, and storing
under a name replaces what was there.

`Registry.loadOptions` loads patch options from a JSON object, entry by entry in increasing
order of keys: an accepted entry is stored under its key, a refused one is logged and leaves
whatever was stored under its key before.
-/

namespace Intercept

/-- A table from names to entries; storing under a name replaces the earlier entry. -/
abbrev Table (α : Type) := List (String × α)

namespace Table

def get? {α : Type} (t : Table α) (name : String) : Option α := t.lookup name

def put {α : Type} (t : Table α) (name : String) (a : α) : Table α :=
  (name, a) :: t.filter fun e => e.1 != name

@[simp] theorem get?_put {α : Type} (t : Table α) (name : String) (a : α) :
    (t.put name a).get? name = some a := by
  simp [get?, put]

end Table

def callbackPrefix : String := "BP_"

/-- The registry's tables; `κ` is the type of breakpoint callbacks. -/
structure Registry (κ : Type) where
  module : Option Word := none
  callbacks : Table κ := []
  functions : Table Word := []
  options : Table PatchOption := []

namespace Registry

variable {κ : Type}

def init (module : Option Word) : Registry κ := { module }

/-- Stores a callback for the breakpoints named `name` or `name#slot`. -/
def registerCallback (r : Registry κ) (name : String) (f : κ) : Registry κ :=
  { r with callbacks := r.callbacks.put (callbackPrefix ++ name) f }

/-- The callback stored under a full key such as `BP_name`. -/
def callback? (r : Registry κ) (key : String) : Option κ := r.callbacks.get? key

def registerFunction (r : Registry κ) (name : String) (addr : Word) : Registry κ :=
  { r with functions := r.functions.put name addr }

def function? (r : Registry κ) (name : String) : Option Word := r.functions.get? name

def option? (r : Registry κ) (name : String) : Option PatchOption := r.options.get? name

def symbols (r : Registry κ) : Symbols :=
  ⟨r.function?, fun name => (r.option? name).map PatchOption.asWord⟩

/-- Loads the entries of one options object in order; the count of accepted entries goes up
by one for each. -/
def loadEntries (r : Registry κ) : List (String × Json) → Registry κ × Nat × Log
  | [] => (r, 0, [])
  | (key, entry) :: rest =>
    match PatchOption.ofJson entry with
    | .ok opt =>
      let (r', n, log) := loadEntries { r with options := r.options.put key opt } rest
      (r', n + 1, log)
    | .error e =>
      let (r', n, log) := loadEntries r rest
      (r', n, LogLine.error (e.message ++ " for option " ++ key) :: log)

/-- Loads patch options from a JSON object; the count is that of the accepted entries. -/
def loadOptions (r : Registry κ) (opts : Json) : Registry κ × Nat × Log :=
  match opts with
  | .object fields => r.loadEntries fields
  | _ => (r, 0, [LogLine.error "patch options must be a JSON object"])

end Registry

end Intercept
