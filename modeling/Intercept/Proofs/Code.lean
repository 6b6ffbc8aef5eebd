import Intercept.Proofs.Memory
import Intercept.Code.Trampoline
/-!
# Emitting code into a buffer

What each emission does to a code buffer when its bytes fit: the bytes land at the position,
which moves past them, and nothing else changes.  From this, a call hook is the call's five
bytes and `nop` padding, and it fails exactly when the destination is out of reach
(`assembleCall_eq`); a trampoline always fits a buffer with a trampoline's room left
(`Trampoline.instantiate_of_le`).
-/

namespace Intercept.Code

namespace CodeBuffer

@[simp] theorem address_new (data : Array UInt8) (base : Word) : (new data base).address = base := by
  simp [new, address]

@[simp] theorem remaining_new (data : Array UInt8) (base : Word) :
    (new data base).remaining = data.size := by
  simp [new, remaining]

theorem getElem?_store (data : Array UInt8) (k : Nat) (bs : Bytes) (i : Nat) :
    (store data k bs)[i]? =
      if k ≤ i ∧ i < k + bs.length ∧ i < data.size then bs[i - k]? else data[i]? :=
  Region.getElem?_foldl_set bs k data i

theorem emit_of_le {b : CodeBuffer} {bs : Bytes} (h : bs.length ≤ b.remaining) :
    ∃ b', b.emit bs = .ok b' ∧ b'.base = b.base ∧ b'.pos = b.pos + bs.length ∧
      b'.data = store b.data b.pos bs := by
  unfold emit
  rw [dif_pos h]
  exact ⟨_, rfl, rfl, rfl, rfl⟩

theorem remaining_of_emit {b b' : CodeBuffer} {bs : Bytes} (h : b.emit bs = .ok b') :
    b'.remaining = b.remaining - bs.length := by
  unfold emit at h
  split at h
  · cases h
    simp only [remaining, size_store]
    omega
  · cases h

theorem size_of_emit {b b' : CodeBuffer} {bs : Bytes} (h : b.emit bs = .ok b') :
    b'.data.size = b.data.size := by
  unfold emit at h
  split at h
  · cases h
    exact size_store _ _ _
  · cases h

theorem emitBranch_eq (b : CodeBuffer) (opcode : UInt8) (target : Word) :
    b.emitBranch opcode target = (rel32 b.address target).bind fun d => b.emit (branch opcode d) := by
  unfold emitBranch
  cases rel32 b.address target <;> rfl

@[simp] theorem length_branch (opcode : UInt8) (d : Int) : (branch opcode d).length = 5 := by
  simp [branch]

theorem size_of_emitBranch {b b' : CodeBuffer} {opcode : UInt8} {target : Word}
    (h : b.emitBranch opcode target = .ok b') : b'.data.size = b.data.size := by
  rw [emitBranch_eq] at h
  cases hr : rel32 b.address target with
  | error e => rw [hr] at h; cases h
  | ok d =>
    rw [hr] at h
    exact size_of_emit h

end CodeBuffer

namespace Trampoline

@[simp] theorem length_withContext (dispatch context : Word) :
    ((Trampoline.new dispatch).withContext context).length = trampolineLength := by
  simp [withContext, Trampoline.new, trampolineStub, contextOffset, trampolineLength]

/-- A trampoline is placed at the buffer's next address whenever a trampoline's room is left. -/
theorem instantiate_of_le {buf : CodeBuffer} (dispatch context : Word)
    (h : trampolineLength ≤ buf.remaining) :
    ∃ b', (Trampoline.new dispatch).instantiate buf context = .ok (buf.address, b') ∧
      b'.base = buf.base ∧ b'.data.size = buf.data.size ∧
      b'.remaining = buf.remaining - trampolineLength := by
  have hfit : ((Trampoline.new dispatch).withContext context).length ≤ buf.remaining := by
    rw [length_withContext]
    exact h
  obtain ⟨b', hemit, hbase, -, -⟩ := CodeBuffer.emit_of_le hfit
  refine ⟨b', ?_, hbase, CodeBuffer.size_of_emit hemit, ?_⟩
  · rw [instantiate, hemit]
    rfl
  · rw [CodeBuffer.remaining_of_emit hemit, length_withContext]

end Trampoline

/-- A call hook of `len` bytes, five at least: the call, with the displacement that reaches the
destination from the source, then `nop` up to `len` bytes; out of reach, the reason. -/
theorem assembleCall_eq (source destination : Word) {len : Nat} (h : 5 ≤ len) :
    assembleCall source destination len =
      (rel32 source destination).map fun d => branch callOpcode d ++ List.replicate (len - 5) nop := by
  unfold assembleCall CodeBuffer.emitCall
  dsimp only
  rw [CodeBuffer.emitBranch_eq, CodeBuffer.address_new]
  cases hr : rel32 source destination with
  | error e => rfl
  | ok d =>
    have hroom : (branch callOpcode d).length ≤ (CodeBuffer.new (Array.replicate len nop) source).remaining := by
      simp [h]
    obtain ⟨b1, h1, hbase1, hpos1, hdata1⟩ := CodeBuffer.emit_of_le hroom
    have hsize1 : b1.data.size = len := by simp [hdata1, CodeBuffer.size_store, CodeBuffer.new]
    -- the padding fills exactly the bytes after the call
    have hpad : (len - b1.pos) ≤ b1.remaining := by
      simp only [CodeBuffer.remaining, hsize1]
      omega
    obtain ⟨b2, h2, -, -, hdata2⟩ := CodeBuffer.emit_of_le
      (show (List.replicate (len - b1.pos) nop).length ≤ b1.remaining by simpa using hpad)
    simp only [Except.bind, h1, CodeBuffer.padTo, CodeBuffer.emitFill_eq, h2, Except.map]
    congr 1
    apply List.ext_getElem?
    intro i
    simp only [hdata2, Array.getElem?_toList, CodeBuffer.getElem?_store, hdata1, hpos1,
      CodeBuffer.new, CodeBuffer.size_store, Array.size_replicate, CodeBuffer.length_branch,
      List.length_replicate, Nat.zero_add, Nat.sub_zero]
    -- the call's five bytes, then padding up to `len`, then nothing
    by_cases h5 : i < 5
    · rw [if_neg (by omega), if_pos (by omega), List.getElem?_append_left (by simp; omega)]
    · by_cases hl : i < len
      · rw [if_pos (by omega), List.getElem?_append_right (by simp; omega)]
        simp only [CodeBuffer.length_branch, List.getElem?_replicate]
      · rw [if_neg (by omega), if_neg (by omega), Array.getElem?_eq_none (by simp; omega),
          List.getElem?_eq_none (by simp; omega)]

end Intercept.Code
