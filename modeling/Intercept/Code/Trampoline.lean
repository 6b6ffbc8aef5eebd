import Intercept.Code.Buffer
/-!
# Trampolines

Every patched site calls a trampoline.  The trampoline saves the registers, calls the dispatch
routine with its breakpoint and the saved registers, and returns to wherever the dispatch
routine left the return address.  Its code is position-independent, so one template serves
all breakpoints: 38 bytes of stub, two `int3` bytes of filler, then two words of data, the
address of the dispatch routine at offset 40 and the breakpoint's context at offset 48.

```text
  pushad; pushfd; cld; call anchor
anchor:
  pop ebx; mov ebp, esp; mov esi, [ebp]; and esp, -16; sub esp, 8
  lea eax, [ebp+4]; push eax; push [ebx+context]; call [ebx+dispatch]
  lea esp, [ebp+eax+4]; push esi; popfd; popad; ret
```
-/

namespace Intercept.Code

/-- The position-independent stub of a trampoline. -/
def trampolineStub : Bytes :=
  [0x60, 0x9c, 0xfc, 0xe8, 0x00, 0x00, 0x00, 0x00, 0x5b, 0x89, 0xe5, 0x8b, 0x75, 0x00, 0x83,
    0xe4, 0xf0, 0x83, 0xec, 0x08, 0x8d, 0x45, 0x04, 0x50, 0xff, 0x73, 0x28, 0xff, 0x53, 0x20,
    0x8d, 0x64, 0x05, 0x04, 0x56, 0x9d, 0x61, 0xc3]

def dispatchOffset : Nat := 40

def contextOffset : Nat := 48

def trampolineLength : Nat := 56

structure Trampoline where
  /-- The template's 56 bytes, context zero. -/
  code : Bytes

namespace Trampoline

def new (dispatch : Word) : Trampoline :=
  ⟨trampolineStub ++ [int3, int3] ++ dispatch.toBytes 8 ++ List.replicate 8 0⟩

def withContext (t : Trampoline) (context : Word) : Bytes :=
  t.code.take contextOffset ++ context.toBytes 8

/-- Appends a copy with the given context; the result is the copy's address. -/
def instantiate (t : Trampoline) (buf : CodeBuffer) (context : Word) :
    Except CodeError (Word × CodeBuffer) :=
  (buf.emit (t.withContext context)).map fun b => (buf.address, b)

end Trampoline

end Intercept.Code
