import Intercept.Word
/-!
# Registers and register snapshots

A breakpoint sees the machine state as a snapshot of nine words: the eight general-purpose
registers in the order `pushad` stores them (`edi esi ebp esp ebx edx ecx eax`), then the
return address of the patched call.  Expressions name registers by their three-letter
mnemonics, compared without regard to ASCII case.

Main statements: `Snapshot.get_set` and `Snapshot.get_set_of_ne` (a write to one slot is seen
there and nowhere else), and `Snapshot.ofWords_toWords` (the layout loses nothing).
-/

namespace Intercept

/-- The eight general-purpose registers, in encoding order. -/
inductive Register where
  | eax
  | ecx
  | edx
  | ebx
  | esp
  | ebp
  | esi
  | edi
  deriving DecidableEq, Repr

namespace Register

/-- Every register, in encoding order. -/
def all : List Register := [eax, ecx, edx, ebx, esp, ebp, esi, edi]

def name : Register → String
  | eax => "eax"
  | ecx => "ecx"
  | edx => "edx"
  | ebx => "ebx"
  | esp => "esp"
  | ebp => "ebp"
  | esi => "esi"
  | edi => "edi"

def sameIgnoringCase (a b : List Char) : Bool :=
  a.map Char.toLower == b.map Char.toLower

/-- The register named by the first three characters of a text, with the rest of the text.
Characters outside ASCII never match, so comparing characters here agrees with comparing
the text's first three bytes. -/
def parsePrefix? : List Char → Option (Register × List Char)
  | a :: b :: c :: rest =>
    (all.find? fun r => sameIgnoringCase [a, b, c] r.name.toList).map fun r => (r, rest)
  | _ => none

def ofText? (cs : List Char) : Option Register :=
  match parsePrefix? cs with
  | some (r, []) => some r
  | _ => none

def unknownMessage (text : String) : String :=
  "'" ++ text ++ "' is not a general-purpose register"

end Register

/-- A slot of a snapshot: a register or the return address. -/
inductive Slot where
  | reg (r : Register)
  | retaddr
  deriving DecidableEq, Repr

namespace Slot

/-- Every slot, in layout order. -/
def all : List Slot :=
  [reg .edi, reg .esi, reg .ebp, reg .esp, reg .ebx, reg .edx, reg .ecx, reg .eax, retaddr]

/-- The name of a slot. -/
def name : Slot → String
  | reg r => r.name
  | retaddr => "retaddr"

end Slot

/-- The saved machine state of a breakpoint hit, one word per slot. -/
structure Snapshot where
  edi : Word := 0
  esi : Word := 0
  ebp : Word := 0
  esp : Word := 0
  ebx : Word := 0
  edx : Word := 0
  ecx : Word := 0
  eax : Word := 0
  retaddr : Word := 0
  deriving DecidableEq, Repr

namespace Snapshot

def size : Nat := 72

/-- The word in a slot. -/
def get (s : Snapshot) : Slot → Word
  | .reg .edi => s.edi
  | .reg .esi => s.esi
  | .reg .ebp => s.ebp
  | .reg .esp => s.esp
  | .reg .ebx => s.ebx
  | .reg .edx => s.edx
  | .reg .ecx => s.ecx
  | .reg .eax => s.eax
  | .retaddr => s.retaddr

/-- Replaces the word in a slot. -/
def set (s : Snapshot) (slot : Slot) (w : Word) : Snapshot :=
  match slot with
  | .reg .edi => { s with edi := w }
  | .reg .esi => { s with esi := w }
  | .reg .ebp => { s with ebp := w }
  | .reg .esp => { s with esp := w }
  | .reg .ebx => { s with ebx := w }
  | .reg .edx => { s with edx := w }
  | .reg .ecx => { s with ecx := w }
  | .reg .eax => { s with eax := w }
  | .retaddr => { s with retaddr := w }

/-- The words of the slots, in layout order. -/
def toWords (s : Snapshot) : List Word := Slot.all.map s.get

/-- The snapshot stored by nine words in layout order; missing words are zero. -/
def ofWords (ws : List Word) : Snapshot :=
  { edi := ws.getD 0 0, esi := ws.getD 1 0, ebp := ws.getD 2 0, esp := ws.getD 3 0,
    ebx := ws.getD 4 0, edx := ws.getD 5 0, ecx := ws.getD 6 0, eax := ws.getD 7 0,
    retaddr := ws.getD 8 0 }

/-- The 72 bytes of a snapshot in memory, each word little-endian. -/
def toBytes (s : Snapshot) : Bytes := s.toWords.flatMap (fun w => w.toBytes 8)

def ofBytes (bs : Bytes) : Snapshot :=
  ofWords ((List.range 9).map fun i => Word.ofBytes ((bs.drop (8 * i)).take 8))

@[simp] theorem get_set (s : Snapshot) (slot : Slot) (w : Word) : (s.set slot w).get slot = w := by
  cases slot with
  | reg r => cases r <;> rfl
  | retaddr => rfl

theorem get_set_of_ne (s : Snapshot) {a b : Slot} (w : Word) (h : a ≠ b) :
    (s.set a w).get b = s.get b := by
  cases a with
  | reg r => cases b with
    | reg r' => cases r <;> cases r' <;> first | rfl | exact absurd rfl h
    | retaddr => cases r <;> rfl
  | retaddr => cases b with
    | reg r' => cases r' <;> rfl
    | retaddr => exact absurd rfl h

theorem ofWords_toWords (s : Snapshot) : ofWords s.toWords = s := rfl

end Snapshot

end Intercept
