import Intercept.Proofs.Code
/-!
# Code buffers as append-only logs

A code buffer behaves as a log of the bytes written so far, over a block whose size is fixed:
every operation either appends bytes to the log, exactly those its arguments name, or fails,
reporting the shortfall or the unreachable branch target, and then changes nothing.  Only
`clearRest` writes past the log, and it fills all of the block's free part.

The log (`ByteLog`) keeps, besides the base address and the written bytes, the bytes of the
block past them, so that it describes the whole block; the buffer is read as a log by
`CodeBuffer.toLog`.

* `BufferOp.apply_toLog` — one operation on a buffer is the same operation on its log;
* `runSeq_map` — so is a run of operations, where a failed operation is a step that changes
  nothing;
* `runSeq_toLog` — the buffer refines the log over any run of operations, with the position
  the length of the log, below the block's size.
-/

namespace Intercept.Code

/-- An operation on a code buffer, with the arguments the buffer's methods take. -/
inductive BufferOp where
  | emit (bytes : Bytes)
  | branch (opcode : UInt8) (target : Word)
  | call (target : Word)
  | jmp (target : Word)
  | padTo (len : Word) (fill : UInt8)
  | align (align : Word) (fill : UInt8)
  | clearRest (fill : UInt8)

/-- Runs an operation on a code buffer: its outcome, or `none` when it panics. -/
def BufferOp.apply (b : CodeBuffer) : BufferOp → Option (Except CodeError CodeBuffer)
  | .emit bs => some (b.emit bs)
  | .branch op target => some (b.emitBranch op target)
  | .call target => some (b.emitCall target)
  | .jmp target => some (b.emitJmp target)
  | .padTo len fill => some (b.padTo len.toNat fill)
  | .align a fill => b.align a.toNat fill
  | .clearRest fill => some (.ok (b.clearRest fill))

/-- Runs operations one after the other on a state: an operation that fails or panics leaves
the state as it was, and the next one runs on it.  Every outcome is kept, a panic as `none`. -/
def runSeq {σ : Type} (f : σ → BufferOp → Option (Except CodeError σ)) :
    σ → List BufferOp → σ × List (Option (Except CodeError Unit))
  | s, [] => (s, [])
  | s, op :: ops =>
    match f s op with
    | some (.ok s') => ((runSeq f s' ops).1, some (.ok ()) :: (runSeq f s' ops).2)
    | some (.error e) => ((runSeq f s ops).1, some (.error e) :: (runSeq f s ops).2)
    | none => ((runSeq f s ops).1, none :: (runSeq f s ops).2)

/-- Two machines run alike when one step of the first, read through `v`, is one step of the
second: the runs then end in states related by `v`, with the same outcomes. -/
theorem runSeq_map {σ τ : Type} {f : σ → BufferOp → Option (Except CodeError σ)}
    {g : τ → BufferOp → Option (Except CodeError τ)} (v : σ → τ)
    (h : ∀ s op, (f s op).map (Except.map v) = g (v s) op) :
    ∀ (s : σ) (ops : List BufferOp),
      (v (runSeq f s ops).1, (runSeq f s ops).2) = runSeq g (v s) ops := by
  intro s ops
  induction ops generalizing s with
  | nil => rfl
  | cons op ops ih =>
    have hs := h s op
    -- the step of `f` succeeds, fails or panics exactly when the step of `g` does, and a
    -- success goes into related states
    cases hf : f s op with
    | none =>
      rw [hf] at hs
      simp only [runSeq, hf, ← hs, Option.map, ← ih s]
    | some r =>
      rw [hf] at hs
      cases r with
      | ok s' => simp only [runSeq, hf, ← hs, Option.map, Except.map, ← ih s']
      | error e => simp only [runSeq, hf, ← hs, Option.map, Except.map, ← ih s]

/-- A code buffer as its users see it: the address its code runs at, the bytes written so far,
and the bytes of the block past them. -/
structure ByteLog where
  base : Word
  written : Bytes
  rest : Bytes
  deriving DecidableEq

namespace ByteLog

/-- The size of the block. -/
def capacity (l : ByteLog) : Nat := l.written.length + l.rest.length

/-- The number of bytes that still fit. -/
def room (l : ByteLog) : Nat := l.capacity - l.written.length

/-- The address the next byte runs at, wrapping. -/
def address (l : ByteLog) : Word := l.base + l.written.length.toUInt64

/-- Appends bytes that fit, replacing the first free bytes of the block; bytes that do not fit
are the shortfall. -/
def append (l : ByteLog) (bs : Bytes) : Except CodeError ByteLog :=
  if bs.length ≤ l.room then
    .ok { l with written := l.written ++ bs, rest := l.rest.drop bs.length }
  else .error (.overflow bs.length l.room)

/-- Appends a relative branch from the next address: the opcode, then the displacement
little-endian.  A target out of reach is reported before the room is looked at. -/
def appendBranch (l : ByteLog) (opcode : UInt8) (target : Word) : Except CodeError ByteLog :=
  (rel32 l.address target).bind fun d => l.append (opcode :: (Word.ofInt d).toBytes 4)

/-- An operation on the log; an alignment to zero panics. -/
def apply (l : ByteLog) : BufferOp → Option (Except CodeError ByteLog)
  | .emit bs => some (l.append bs)
  | .branch op target => some (l.appendBranch op target)
  | .call target => some (l.appendBranch callOpcode target)
  | .jmp target => some (l.appendBranch jmpOpcode target)
  | .padTo len fill => some (l.append (List.replicate (len.toNat - l.written.length) fill))
  | .align a fill =>
    if a.toNat = 0 then none
    else some (l.append (List.replicate ((a.toNat - l.address.toNat % a.toNat) % a.toNat) fill))
  | .clearRest fill => some (.ok { l with rest := List.replicate l.rest.length fill })

end ByteLog

namespace CodeBuffer

/-- A buffer read as a log. -/
def toLog (b : CodeBuffer) : ByteLog := ⟨b.base, b.written, b.data.toList.drop b.pos⟩

@[simp] theorem length_written (b : CodeBuffer) : b.written.length = b.pos := by
  simp [written, b.pos_le]

@[simp] theorem base_toLog (b : CodeBuffer) : b.toLog.base = b.base := rfl

@[simp] theorem written_toLog (b : CodeBuffer) : b.toLog.written = b.written := rfl

theorem toList_data (b : CodeBuffer) : b.data.toList = b.toLog.written ++ b.toLog.rest :=
  (List.take_append_drop _ _).symm

theorem capacity_toLog (b : CodeBuffer) : b.toLog.capacity = b.data.size := by
  simp only [ByteLog.capacity, length_written, toLog, List.length_drop, Array.length_toList]
  have := b.pos_le
  omega

theorem room_toLog (b : CodeBuffer) : b.toLog.room = b.remaining := by
  simp [ByteLog.room, capacity_toLog, remaining]

theorem address_toLog (b : CodeBuffer) : b.toLog.address = b.address := by
  simp [ByteLog.address, address]

/-- Storing bytes that fit the block replaces exactly the bytes they cover. -/
theorem toList_store {data : Array UInt8} {k : Nat} {bs : Bytes} (h : k + bs.length ≤ data.size) :
    (store data k bs).toList = data.toList.take k ++ bs ++ data.toList.drop (k + bs.length) := by
  apply List.ext_getElem?
  intro i
  rw [Array.getElem?_toList, getElem?_store]
  by_cases hk : i < k
  · rw [if_neg (by omega), List.getElem?_append_left (by simp; omega),
      List.getElem?_append_left (by simp; omega), List.getElem?_take_of_lt hk,
      Array.getElem?_toList]
  · by_cases hb : i < k + bs.length
    · rw [if_pos ⟨by omega, hb, by omega⟩, List.getElem?_append_left (by simp; omega),
        List.getElem?_append_right (by simp; omega)]
      simp [Nat.min_eq_left (show k ≤ data.size by omega)]
    · rw [if_neg (by omega), List.getElem?_append_right (by simp; omega), List.getElem?_drop,
        Array.getElem?_toList]
      congr 1
      simp only [List.length_append, List.length_take, Array.length_toList]
      omega

theorem emit_of_lt {b : CodeBuffer} {bs : Bytes} (h : b.remaining < bs.length) :
    b.emit bs = .error (.overflow bs.length b.remaining) := by
  unfold emit
  rw [dif_neg (by omega)]

/-- Emitting is appending to the log. -/
theorem emit_toLog (b : CodeBuffer) (bs : Bytes) : (b.emit bs).map toLog = b.toLog.append bs := by
  unfold ByteLog.append
  rw [room_toLog]
  by_cases h : bs.length ≤ b.remaining
  · obtain ⟨b', hemit, hbase, hpos, hdata⟩ := emit_of_le h
    have hfit : b.pos + bs.length ≤ b.data.size := by
      have := b.pos_le
      unfold remaining at h
      omega
    -- the block after the store: the old written part, the new bytes, then the old rest
    have hlen : (b.data.toList.take b.pos ++ bs).length = b.pos + bs.length := by
      simp [Nat.min_eq_left b.pos_le]
    rw [hemit, if_pos h]
    simp only [Except.map, Except.ok.injEq, toLog, written, hbase, hpos, hdata, toList_store hfit,
      List.take_left' hlen, List.drop_left' hlen, ByteLog.mk.injEq, true_and]
    simp [List.drop_drop]
  · rw [emit_of_lt (by omega), if_neg h]
    rfl

theorem emitBranch_toLog (b : CodeBuffer) (opcode : UInt8) (target : Word) :
    (b.emitBranch opcode target).map toLog = b.toLog.appendBranch opcode target := by
  rw [emitBranch_eq, ByteLog.appendBranch, address_toLog]
  cases rel32 b.address target with
  | error e => rfl
  | ok d => exact emit_toLog b (branch opcode d)

theorem padTo_toLog (b : CodeBuffer) (len : Nat) (fill : UInt8) :
    (b.padTo len fill).map toLog =
      b.toLog.append (List.replicate (len - b.toLog.written.length) fill) := by
  rw [padTo, emitFill_eq, emit_toLog, written_toLog, length_written]

/-- Aligning to a positive alignment appends the fill up to the next multiple of it. -/
theorem align_toLog (b : CodeBuffer) {a : Nat} (ha : 0 < a) (fill : UInt8) :
    (b.align a fill).map (Except.map toLog) =
      some (b.toLog.append (List.replicate ((a - b.toLog.address.toNat % a) % a) fill)) := by
  rw [align, if_neg (by omega), address_toLog, Option.map_some, Option.some.injEq]
  by_cases h0 : b.address.toNat % a = 0
  · -- already aligned: nothing to append
    rw [if_pos h0, h0, Nat.sub_zero, Nat.mod_self, List.replicate_zero]
    simp [ByteLog.append, Except.map, toLog]
  · -- the distance to the next multiple is below the alignment
    have hdist : (a - b.address.toNat % a) % a = a - b.address.toNat % a :=
      Nat.mod_eq_of_lt (by omega)
    rw [if_neg h0, emitFill_eq, emit_toLog, hdist]

theorem align_eq_none_iff (b : CodeBuffer) (a : Nat) (fill : UInt8) :
    b.align a fill = none ↔ a = 0 := by
  unfold align
  by_cases h : a = 0 <;> simp [h]

/-- Clearing the rest fills the block past the log and keeps the log. -/
theorem clearRest_toLog (b : CodeBuffer) (fill : UInt8) :
    (b.clearRest fill).toLog =
      { b.toLog with rest := List.replicate b.toLog.rest.length fill } := by
  have hfit : b.pos + (List.replicate b.remaining fill).length ≤ b.data.size := by
    have := b.pos_le
    simp only [List.length_replicate, remaining]
    omega
  have hlen : (b.data.toList.take b.pos).length = b.pos := by
    simp [Nat.min_eq_left b.pos_le]
  have hend : b.data.toList.drop (b.pos + (List.replicate b.remaining fill).length) = [] := by
    simp only [List.length_replicate, remaining]
    exact List.drop_eq_nil_of_le (by simp; omega)
  simp only [toLog, clearRest, written]
  rw [toList_store hfit, hend, List.append_nil, List.take_left' hlen, List.drop_left' hlen]
  simp [remaining]

theorem toLog_new (data : Array UInt8) (base : Word) :
    (new data base).toLog = ⟨base, [], data.toList⟩ := by
  simp [toLog, new, written]

/-- Bytes that fit the rest of the block are appended to the log. -/
theorem emit_of_toLog {b : CodeBuffer} {base : Word} {pre rest bs : Bytes}
    (hlog : b.toLog = ⟨base, pre, rest⟩) (hfit : bs.length ≤ rest.length) :
    ∃ b', b.emit bs = .ok b' ∧ b'.toLog = ⟨base, pre ++ bs, rest.drop bs.length⟩ := by
  have hroom : bs.length ≤ b.toLog.room := by
    rw [hlog]
    simp only [ByteLog.room, ByteLog.capacity]
    omega
  obtain ⟨b', h, -⟩ := emit_of_le (room_toLog b ▸ hroom)
  have happ := emit_toLog b bs
  rw [h, ByteLog.append, if_pos hroom, hlog] at happ
  exact ⟨b', h, Except.ok.inj happ⟩

/-- A branch that fits the rest of the block, and reaches its target from the log's next
address, is appended to the log. -/
theorem emitBranch_of_toLog {b : CodeBuffer} {base : Word} {pre rest : Bytes}
    (hlog : b.toLog = ⟨base, pre, rest⟩) (hfit : 5 ≤ rest.length) (opcode : UInt8)
    {target : Word} {d : Int} (hd : rel32 (base + pre.length.toUInt64) target = .ok d) :
    ∃ b', b.emitBranch opcode target = .ok b' ∧
      b'.toLog = ⟨base, pre ++ branch opcode d, rest.drop 5⟩ := by
  have haddr : b.address = base + pre.length.toUInt64 := by
    rw [← address_toLog, hlog]
    rfl
  obtain ⟨b', h, hlog'⟩ :=
    emit_of_toLog hlog (show (branch opcode d).length ≤ rest.length by simpa using hfit)
  refine ⟨b', ?_, by rw [hlog', length_branch]⟩
  rw [emitBranch_eq, haddr, hd]
  exact h

end CodeBuffer

/-- One operation on a buffer is the same operation on the buffer's log. -/
theorem BufferOp.apply_toLog (b : CodeBuffer) (op : BufferOp) :
    (BufferOp.apply b op).map (Except.map CodeBuffer.toLog) = b.toLog.apply op := by
  cases op with
  | emit bs => exact congrArg some (b.emit_toLog bs)
  | branch opcode target => exact congrArg some (b.emitBranch_toLog opcode target)
  | call target => exact congrArg some (b.emitBranch_toLog callOpcode target)
  | jmp target => exact congrArg some (b.emitBranch_toLog jmpOpcode target)
  | padTo len fill => exact congrArg some (b.padTo_toLog len.toNat fill)
  | align a fill =>
    -- an alignment to zero panics on both sides
    by_cases ha : a.toNat = 0
    · simp [BufferOp.apply, ByteLog.apply, ha, CodeBuffer.align]
    · simp only [BufferOp.apply, ByteLog.apply, if_neg ha]
      exact b.align_toLog (Nat.pos_of_ne_zero ha) fill
  | clearRest fill => exact congrArg (some ∘ Except.ok) (b.clearRest_toLog fill)

/-- A code buffer refines its log over every run of operations.  The run ends in the buffer
whose log is where the log's run ends, with the same outcome for each operation; so the
position is always the length of the written bytes and at most the block's size, the buffer's
written bytes are the log's, and its block is the log's written bytes followed by the log's
rest. -/
theorem runSeq_toLog (b : CodeBuffer) (ops : List BufferOp) :
    let r := runSeq BufferOp.apply b ops
    let l := runSeq ByteLog.apply b.toLog ops
    r.1.toLog = l.1 ∧ r.2 = l.2 ∧ r.1.written = l.1.written ∧ r.1.pos = l.1.written.length ∧
      l.1.written.length ≤ l.1.capacity ∧ r.1.data.size = l.1.capacity ∧
      r.1.data.toList = l.1.written ++ l.1.rest := by
  intro r l
  have hrun : (r.1.toLog, r.2) = l := runSeq_map CodeBuffer.toLog BufferOp.apply_toLog b ops
  have hlog : r.1.toLog = l.1 := congrArg Prod.fst hrun
  have hcap := r.1.capacity_toLog
  rw [hlog] at hcap
  refine ⟨hlog, congrArg Prod.snd hrun, by rw [← hlog]; rfl, by rw [← hlog]; simp, ?_, hcap.symm,
    by rw [← hlog]; exact r.1.toList_data⟩
  rw [hcap, ← hlog]
  simpa using r.1.pos_le

/-! ### Alignment

`align` counts the fill from the next address taken as a word, so the fill is the distance to
the next multiple of the alignment above that number.  When that multiple is `2 ^ 64` or more,
the address wraps past it, and lands on a multiple again only when the alignment divides
`2 ^ 64`, as every power of two up to `2 ^ 64` does. -/

namespace CodeBuffer

theorem address_toNat (b : CodeBuffer) : b.address.toNat = (b.base.toNat + b.pos) % 2 ^ 64 := by
  simp [address, UInt64.toNat_add]

theorem align_pos {b : CodeBuffer} {a : Nat} {fill : UInt8} {r : Except CodeError CodeBuffer}
    (h : b.align a fill = some r) : 0 < a := by
  rcases Nat.eq_zero_or_pos a with rfl | ha
  · rw [(align_eq_none_iff b 0 fill).mpr rfl] at h
    cases h
  · exact ha

/-- A successful alignment keeps the base and moves the position by the distance from the next
address to the next multiple of the alignment. -/
theorem align_appends {b b' : CodeBuffer} {a : Nat} {fill : UInt8}
    (h : b.align a fill = some (.ok b')) :
    b'.base = b.base ∧ b'.pos = b.pos + (a - b.address.toNat % a) % a := by
  have hlog := align_toLog b (align_pos h) fill
  rw [h, address_toLog, Option.map_some, Option.some.injEq] at hlog
  unfold ByteLog.append at hlog
  split at hlog
  · have hl := Except.ok.inj hlog
    constructor
    · simpa using congrArg ByteLog.base hl
    · simpa using congrArg (fun l => l.written.length) hl
  · cases hlog

/-- The distance from a number up to the next multiple of `a` brings it onto that multiple. -/
theorem add_dist_mod (x : Nat) {a : Nat} (ha : 0 < a) : (x + (a - x % a) % a) % a = 0 := by
  have hx := Nat.div_add_mod x a
  have hlt := Nat.mod_lt x ha
  by_cases h0 : x % a = 0
  · rw [h0, Nat.sub_zero, Nat.mod_self, Nat.add_zero, h0]
  · have hdist : (a - x % a) % a = a - x % a := Nat.mod_eq_of_lt (by omega)
    have hsum : x + (a - x % a) = a * (x / a + 1) := by
      rw [Nat.mul_add, Nat.mul_one]
      omega
    rw [hdist, hsum, Nat.mul_mod_right]

/-- What a successful `align a` does, for every buffer and every alignment `a`, which is then
positive: it adds fewer than `a` bytes, and the next address before wrapping, counted as a
number, is then a multiple of `a`; the next address is that number modulo `2 ^ 64`.  So the next
address is a multiple of `a` whenever `a` divides `2 ^ 64` or the number stays below `2 ^ 64`. -/
theorem align_postcondition {b b' : CodeBuffer} {a : Nat} {fill : UInt8}
    (h : b.align a fill = some (.ok b')) :
    0 < a ∧ b.pos ≤ b'.pos ∧ b'.pos - b.pos < a ∧ (b.address.toNat + (b'.pos - b.pos)) % a = 0 ∧
      b'.address.toNat = (b.address.toNat + (b'.pos - b.pos)) % 2 ^ 64 ∧
      (a ∣ 2 ^ 64 ∨ b.address.toNat + (b'.pos - b.pos) < 2 ^ 64 → b'.address.toNat % a = 0) := by
  have ha := align_pos h
  obtain ⟨hbase, hpos⟩ := align_appends h
  have hadded : b'.pos - b.pos = (a - b.address.toNat % a) % a := by omega
  have hmul : (b.address.toNat + (b'.pos - b.pos)) % a = 0 := by
    rw [hadded]
    exact add_dist_mod _ ha
  -- the new address is the old one moved on by the fill, wrapping
  have haddr : b'.address.toNat = (b.address.toNat + (b'.pos - b.pos)) % 2 ^ 64 := by
    rw [address_toNat, address_toNat, hbase, hpos]
    omega
  refine ⟨ha, by omega, by rw [hadded]; exact Nat.mod_lt _ ha, hmul, haddr, ?_⟩
  rintro (hdvd | hlow)
  · rw [haddr, Nat.mod_mod_of_dvd _ hdvd, hmul]
  · rw [haddr, Nat.mod_eq_of_lt hlow, hmul]

/-- A buffer whose next address is `0x2001` aligns to 4 with three bytes, at `0x2004`. -/
theorem align_four_from_odd :
    ∃ b', (new (Array.replicate 16 0) 0x2001).align 4 0xcc = some (.ok b') ∧ b'.pos = 3 ∧
      b'.address.toNat % 4 = 0 :=
  ⟨_, rfl, rfl, (align_postcondition (b := new (Array.replicate 16 0) 0x2001)
    rfl).2.2.2.2.2 (.inl (by decide))⟩

/-- At the top of the address space an alignment that does not divide `2 ^ 64` wraps past a
multiple: from `2 ^ 64 - 1`, aligning to 7 adds six bytes and ends at address 5. -/
theorem align_seven_wraps_off_multiple :
    ∃ b', (new (Array.replicate 16 0) 0xffffffffffffffff).align 7 0xcc = some (.ok b') ∧
      b'.pos = 6 ∧ b'.address = 5 ∧ b'.address.toNat % 7 ≠ 0 :=
  ⟨_, rfl, rfl, rfl, by decide⟩

end CodeBuffer

end Intercept.Code
