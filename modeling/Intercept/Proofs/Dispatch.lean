import Intercept.Proofs.Memory
import Intercept.Dispatch
/-!
# The dispatch contract

What the dispatch routine does to the stack, for every callback behaviour: without a breakpoint
or a snapshot, or without a callback, nothing changes; a callback that panics has the snapshot
stored back in place with the stack pointer and return address of the entry; a callback that
returns has its snapshot (with the return address sent into the relay when it asked for it)
moved by the change of the stack pointer, exactly as `memmove` moves it, even when the old and
the new block overlap.

Stack bytes are described one at a time by `movedTo`: the block where it lands, what the move
did not overwrite of the block where it was, and the stack as it was everywhere else.  The main
statement is `dispatch_contract`.
-/

namespace Intercept

/-- The byte at offset `i` once a block `bs` stored at offset `p` has been moved to offset `q`,
as `memmove` leaves it. -/
def movedTo (stack : Region) (bs : Bytes) (p q i : Nat) : Option UInt8 :=
  if q ≤ i ∧ i < q + bs.length then bs[i - q]?
  else if p ≤ i ∧ i < p + bs.length then bs[i - p]?
  else stack.get? i

/-- A result of the dispatch routine that returns `shift`, hands back `world'` and `log`, keeps
the frame's snapshot pointer and stack base, and leaves on the stack the block `bs` moved from
`p` to `q`. -/
def Moves {σ : Type} (frame : Frame) (p q : Nat) (bs : Bytes) (shift : Word) (world' : σ)
    (log : Log) (r : Word × Frame × σ × Log) : Prop :=
  r.1 = shift ∧ r.2.2.1 = world' ∧ r.2.2.2 = log ∧ r.2.1.regsAt = frame.regsAt ∧
    r.2.1.stack.base = frame.stack.base ∧ ∀ i, r.2.1.stack.get? i = movedTo frame.stack bs p q i

@[simp] theorem Snapshot.length_toBytes (s : Snapshot) : s.toBytes.length = Snapshot.size := by
  simp [Snapshot.toBytes, Snapshot.toWords, Slot.all, Snapshot.size]

namespace Frame

-- Stated after unfolding: checking these by `rfl` directly first compares the frames
-- themselves and so evaluates the write.
@[simp] theorem regsAt_storeAt (frame : Frame) (p : Nat) (s : Snapshot) :
    (frame.storeAt p s).regsAt = frame.regsAt := by
  unfold storeAt
  rfl

@[simp] theorem base_storeAt (frame : Frame) (p : Nat) (s : Snapshot) :
    (frame.storeAt p s).stack.base = frame.stack.base := by
  unfold storeAt
  exact Region.base_writeAt _ _ _

/-- Storing a snapshot is a move that does not go anywhere. -/
theorem get?_storeAt {frame : Frame} {p : Nat} (s : Snapshot)
    (hp : p + Snapshot.size ≤ frame.stack.size) (i : Nat) :
    (frame.storeAt p s).stack.get? i = movedTo frame.stack s.toBytes p p i := by
  rw [storeAt, Region.get?_writeAt, movedTo, Snapshot.length_toBytes]
  by_cases hi : p ≤ i ∧ i < p + Snapshot.size
  · rw [if_pos ⟨hi.1, hi.2, by omega⟩, if_pos hi]
  · rw [if_neg (fun h => hi ⟨h.1, h.2.1⟩), if_neg hi, if_neg hi]

/-- Storing a snapshot at `p` and moving it to `q` leaves what `movedTo` says. -/
theorem get?_move_storeAt {frame : Frame} {p q : Nat} (s : Snapshot)
    (hp : p + Snapshot.size ≤ frame.stack.size) (hq : q + Snapshot.size ≤ frame.stack.size)
    (i : Nat) :
    ((frame.storeAt p s).stack.move p q Snapshot.size).get? i =
      movedTo frame.stack s.toBytes p q i := by
  have hsize : (frame.storeAt p s).stack.size = frame.stack.size := Region.size_writeAt _ _ _
  have hslice : (frame.storeAt p s).stack.slice p Snapshot.size = s.toBytes := by
    rw [← Snapshot.length_toBytes s]
    exact Region.slice_writeAt_self (by rw [Snapshot.length_toBytes]; exact hp)
  rw [Region.get?_move (by omega) (by omega), get?_storeAt s hp, get?_storeAt s hp]
  -- inside the target the byte comes from the stored block, read at the same distance
  by_cases hi : q ≤ i ∧ i < q + Snapshot.size
  · have hsrc := Region.getElem?_slice (frame.storeAt p s).stack p Snapshot.size (i - q)
    rw [hslice, if_pos (by omega), get?_storeAt s hp] at hsrc
    rw [if_pos hi, ← hsrc, movedTo, Snapshot.length_toBytes, if_pos hi]
  · rw [if_neg hi]
    simp only [movedTo, Snapshot.length_toBytes, if_neg hi]
    split_ifs <;> rfl

end Frame

section Cases

variable {κ σ : Type} (call : κ → Json → Snapshot → σ → Outcome σ) {frame : Frame} {world : σ}

theorem dispatch_misuse {bp? : Option (Breakpoint κ)} (h : bp? = none ∨ frame.regsAt = none) :
    dispatch call bp? frame world = (0, frame, world, [dispatchMisuse]) := by
  unfold dispatch
  rcases h with rfl | h
  · rfl
  · rw [h]
    cases bp? <;> rfl

theorem dispatch_without_callback {bp : Breakpoint κ} {p : Nat} (hp : frame.regsAt = some p)
    (hf : bp.callback = none) : dispatch call (some bp) frame world = (0, frame, world, []) := by
  unfold dispatch
  rw [hp]
  dsimp only
  rw [hf]

theorem dispatch_panicked {bp : Breakpoint κ} {p : Nat} {f : κ} {regs : Snapshot} {world' : σ}
    (hp : frame.regsAt = some p) (hf : bp.callback = some f)
    (hroom : p + Snapshot.size ≤ frame.stack.size)
    (hcall : call f bp.params (frame.snapshotAt p) world = .panicked regs world') :
    Moves frame p p
      { regs with esp := (frame.snapshotAt p).esp, retaddr := (frame.snapshotAt p).retaddr }.toBytes
      0 world' [LogLine.error ("breakpoint callback panicked name=" ++ bp.name)]
      (dispatch call (some bp) frame world) := by
  have hd : dispatch call (some bp) frame world =
      (0, frame.storeAt p
        { regs with esp := (frame.snapshotAt p).esp, retaddr := (frame.snapshotAt p).retaddr },
        world', [LogLine.error ("breakpoint callback panicked name=" ++ bp.name)]) := by
    unfold dispatch
    rw [hp]
    dsimp only
    rw [hf]
    dsimp only
    rw [hcall]
  rw [hd]
  exact ⟨rfl, rfl, rfl, Frame.regsAt_storeAt .., Frame.base_storeAt .., Frame.get?_storeAt _ hroom⟩

theorem dispatch_returned {bp : Breakpoint κ} {p : Nat} {f : κ} {b : Bool} {regs : Snapshot}
    {world' : σ} (hp : frame.regsAt = some p) (hf : bp.callback = some f) (hp64 : p < 2 ^ 64)
    (hroom : p + Snapshot.size ≤ frame.stack.size)
    (hroom' : (p.toUInt64 + (regs.esp - (frame.snapshotAt p).esp)).toNat + Snapshot.size ≤
      frame.stack.size)
    (hcall : call f bp.params (frame.snapshotAt p) world = .returned b regs world') :
    Moves frame p (p.toUInt64 + (regs.esp - (frame.snapshotAt p).esp)).toNat
      (if b then { regs with retaddr := bp.cave } else regs).toBytes
      (regs.esp - (frame.snapshotAt p).esp) world' [] (dispatch call (some bp) frame world) := by
  have hesp : (if b then { regs with retaddr := bp.cave } else regs).esp = regs.esp := by
    cases b <;> rfl
  have hd : dispatch call (some bp) frame world =
      if regs.esp - (frame.snapshotAt p).esp = 0 then
        (0, frame.storeAt p (if b then { regs with retaddr := bp.cave } else regs), world', [])
      else (regs.esp - (frame.snapshotAt p).esp,
        ⟨(frame.storeAt p (if b then { regs with retaddr := bp.cave } else regs)).stack.move p
          (p.toUInt64 + (regs.esp - (frame.snapshotAt p).esp)).toNat Snapshot.size,
          (frame.storeAt p (if b then { regs with retaddr := bp.cave } else regs)).regsAt⟩,
        world', []) := by
    unfold dispatch
    rw [hp]
    dsimp only
    rw [hf]
    dsimp only
    rw [hcall]
    dsimp only
    rw [hesp]
  rw [hd]
  by_cases h0 : regs.esp - (frame.snapshotAt p).esp = 0
  · -- no shift: the snapshot is stored in place, which is a move to where it is
    have hq : (p.toUInt64 + (regs.esp - (frame.snapshotAt p).esp)).toNat = p := by
      rw [h0, UInt64.add_zero, Nat.toUInt64, UInt64.toNat_ofNat', Nat.mod_eq_of_lt hp64]
    rw [if_pos h0, hq]
    exact ⟨h0.symm, rfl, rfl, Frame.regsAt_storeAt .., Frame.base_storeAt ..,
      Frame.get?_storeAt _ hroom⟩
  · rw [if_neg h0]
    refine ⟨rfl, rfl, rfl, ?_, ?_, Frame.get?_move_storeAt _ hroom hroom'⟩
    · dsimp only
      exact Frame.regsAt_storeAt ..
    · dsimp only
      rw [Region.move, Region.base_writeAt, Frame.base_storeAt]

/-- The contract of the dispatch routine, for every breakpoint, frame, world and callback:

* without a breakpoint or a snapshot it returns `0`, logs the misuse and changes nothing;
* without a callback it returns `0` and changes nothing;
* when the callback panics it returns `0`, keeps the callback's world, and stores the callback's
  snapshot back in place with the stack pointer and return address of the entry;
* when the callback returns `b` it returns the change `d` of the stack pointer, keeps the
  callback's world, and moves the callback's snapshot, with the return address set to the cave
  when `b` holds, from `p` to `p + d` (wrapping) as `memmove` does.

The snapshot, and the block it is moved to, must lie on the stack. -/
theorem dispatch_contract (call : κ → Json → Snapshot → σ → Outcome σ)
    (bp? : Option (Breakpoint κ)) (frame : Frame) (world : σ) :
    ((bp? = none ∨ frame.regsAt = none) →
      dispatch call bp? frame world = (0, frame, world, [dispatchMisuse])) ∧
    (∀ bp p, bp? = some bp → frame.regsAt = some p → bp.callback = none →
      dispatch call bp? frame world = (0, frame, world, [])) ∧
    (∀ bp p f regs world', bp? = some bp → frame.regsAt = some p → bp.callback = some f →
      p + Snapshot.size ≤ frame.stack.size →
      call f bp.params (frame.snapshotAt p) world = .panicked regs world' →
      Moves frame p p
        { regs with esp := (frame.snapshotAt p).esp, retaddr := (frame.snapshotAt p).retaddr }.toBytes
        0 world' [LogLine.error ("breakpoint callback panicked name=" ++ bp.name)]
        (dispatch call bp? frame world)) ∧
    (∀ bp p f b regs world', bp? = some bp → frame.regsAt = some p → bp.callback = some f →
      p < 2 ^ 64 → p + Snapshot.size ≤ frame.stack.size →
      (p.toUInt64 + (regs.esp - (frame.snapshotAt p).esp)).toNat + Snapshot.size ≤
        frame.stack.size →
      call f bp.params (frame.snapshotAt p) world = .returned b regs world' →
      Moves frame p (p.toUInt64 + (regs.esp - (frame.snapshotAt p).esp)).toNat
        (if b then { regs with retaddr := bp.cave } else regs).toBytes
        (regs.esp - (frame.snapshotAt p).esp) world' [] (dispatch call bp? frame world)) := by
  refine ⟨dispatch_misuse call, ?_, ?_, ?_⟩
  · rintro bp p rfl hp hf
    exact dispatch_without_callback call hp hf
  · rintro bp p f regs world' rfl hp hf hroom hcall
    exact dispatch_panicked call hp hf hroom hcall
  · rintro bp p f b regs world' rfl hp hf hp64 hroom hroom' hcall
    exact dispatch_returned call hp hf hp64 hroom hroom' hcall

end Cases

/-- A callback that lowers the stack pointer of a zero snapshot at offset 80 by 8 has it moved
8 bytes down, onto itself. -/
theorem dispatch_moves_down :
    Moves ⟨Region.filled 0 160 0, some 80⟩ 80 72
      ({ esp := 0 - 8 } : Snapshot).toBytes (0 - 8) () []
      (dispatch (fun (_ : Unit) _ _ w => .returned false { esp := 0 - 8 } w)
        (some { name := "push", addrText := "0x1000", addr := 0x1000, cavesize := 5,
                cave := 0x2000, callback := some (), params := .null })
        ⟨Region.filled 0 160 0, some 80⟩ ()) :=
  (dispatch_contract (fun (_ : Unit) _ _ w => .returned false { esp := 0 - 8 } w)
    (some { name := "push", addrText := "0x1000", addr := 0x1000, cavesize := 5,
            cave := 0x2000, callback := some (), params := .null })
    ⟨Region.filled 0 160 0, some 80⟩ ()).2.2.2 _ 80 () false { esp := 0 - 8 } () rfl rfl rfl
    (by decide) (by decide +kernel) (by decide +kernel) rfl

end Intercept
