import Intercept.Proofs.Buffer
import Intercept.Service.Ops
/-!
# The `codebuf` steps of the service

A `codebuf` request names buffer operations by JSON objects.  Each operation, written with its
own key and its arguments as words, is run on the buffer exactly as the buffer's method would
run it, except an alignment to zero: the method would take a remainder by zero and stop the
engine, and the service answers that panic without touching the buffer.

* `Bytes.ofHex_hex` — byte text written in hexadecimal reads back as the bytes;
* `codeStep_toJson` — what a step does, for every operation;
* `codeBuffer_refines_log` — a code buffer refines its log, and only an alignment to zero
  panics.
-/

namespace Intercept

namespace Bytes

theorem digitChar_facts : ∀ k : Fin 16, hexDigitValue? (Nat.digitChar k.val) = some k.val ∧
    Text.isBlank (Nat.digitChar k.val) = false ∧ (Nat.digitChar k.val).utf8Size = 1 ∧
    Nat.digitChar k.val ≠ '+' := by
  decide

theorem pairValue?_hexByte (b : UInt8) :
    pairValue? (Nat.digitChar (b.toNat / 16)) (Nat.digitChar (b.toNat % 16)) = some b := by
  have hb := b.toNat_lt
  obtain ⟨hhi, -, -, hplus⟩ := digitChar_facts ⟨b.toNat / 16, by omega⟩
  obtain ⟨hlo, -, -, -⟩ := digitChar_facts ⟨b.toNat % 16, by omega⟩
  have hval : b.toNat / 16 * 16 + b.toNat % 16 = b.toNat := by omega
  simp only [pairValue?, hhi, hlo, hplus, if_false]
  show some (b.toNat / 16 * 16 + b.toNat % 16).toUInt8 = some b
  rw [hval]
  exact congrArg some UInt8.ofNat_toNat

/-- Hexadecimal text of bytes is read, two digits at a time, as the bytes. -/
theorem readPairs_hex (bs : Bytes) (pos : Nat) : readPairs pos (bs.flatMap hexByte) = .ok bs := by
  induction bs generalizing pos with
  | nil => rfl
  | cons b bs ih =>
    have hb := b.toNat_lt
    obtain ⟨-, -, hhi, -⟩ := digitChar_facts ⟨b.toNat / 16, by omega⟩
    obtain ⟨-, -, hlo, -⟩ := digitChar_facts ⟨b.toNat % 16, by omega⟩
    rw [List.flatMap_cons, hexByte, List.cons_append, List.cons_append, List.nil_append,
      readPairs_digits pos _ _ _ b hhi hlo (pairValue?_hexByte b), ih]
    rfl

theorem mem_hex_digit {bs : Bytes} {c : Char} (h : c ∈ bs.flatMap hexByte) :
    ∃ k : Fin 16, c = Nat.digitChar k.val := by
  obtain ⟨b, -, hc⟩ := List.mem_flatMap.mp h
  have hb := b.toNat_lt
  simp only [hexByte, List.mem_cons, List.not_mem_nil, or_false] at hc
  rcases hc with rfl | rfl
  · exact ⟨⟨b.toNat / 16, by omega⟩, rfl⟩
  · exact ⟨⟨b.toNat % 16, by omega⟩, rfl⟩

/-- Hexadecimal text takes two bytes of text per byte. -/
theorem utf8Size_hex (bs : Bytes) :
    ((bs.flatMap hexByte).map Char.utf8Size).sum = 2 * bs.length := by
  induction bs with
  | nil => rfl
  | cons b bs ih =>
    have hb := b.toNat_lt
    obtain ⟨-, -, hhi, -⟩ := digitChar_facts ⟨b.toNat / 16, by omega⟩
    obtain ⟨-, -, hlo, -⟩ := digitChar_facts ⟨b.toNat % 16, by omega⟩
    simp only [List.flatMap_cons, List.map_append, List.sum_append, ih, hexByte, List.map,
      List.sum_cons, List.sum_nil, hhi, hlo, List.length_cons]
    omega

/-- Byte text written in hexadecimal reads back as the bytes. -/
theorem ofHex_hex (bs : Bytes) : ofHex (hex bs) = .ok bs := by
  have hnb : (bs.flatMap hexByte).filter (fun c => !Text.isBlank c) = bs.flatMap hexByte := by
    apply List.filter_eq_self.mpr
    intro c hc
    obtain ⟨k, rfl⟩ := mem_hex_digit hc
    simp [(digitChar_facts k).2.1]
  simp only [ofHex, hex, String.toList_ofList, hnb, utf8Size_hex, Nat.mul_mod_right]
  exact readPairs_hex bs 0

end Bytes

namespace Code

/-- An operation as a step of a `codebuf` request: its key, with its arguments as words and
its bytes as hexadecimal text. -/
def BufferOp.toJson : BufferOp → Json
  | .emit bs => .object [("emit", .string (Bytes.hex bs))]
  | .branch op target => .object [("branch", Json.word op.toUInt64), ("target", Json.word target)]
  | .call target => .object [("call", Json.word target)]
  | .jmp target => .object [("jmp", Json.word target)]
  | .padTo len fill => .object [("pad_to", Json.word len), ("byte", Json.word fill.toUInt64)]
  | .align a fill => .object [("align", Json.word a), ("byte", Json.word fill.toUInt64)]
  | .clearRest fill => .object [("clear_rest", Json.word fill.toUInt64)]

/-- Whether an operation takes a remainder by zero: an alignment to zero. -/
def BufferOp.remByZero : BufferOp → Bool
  | .align a _ => a == 0
  | _ => false

/-- Only an alignment to zero panics. -/
theorem BufferOp.apply_eq_none_iff (b : CodeBuffer) (op : BufferOp) :
    op.apply b = none ↔ op.remByZero = true := by
  cases op with
  | align a fill =>
    rw [BufferOp.apply, CodeBuffer.align_eq_none_iff, BufferOp.remByZero, beq_iff_eq,
      ← UInt64.toNat_inj]
    rfl
  | _ => simp [BufferOp.apply, BufferOp.remByZero]

end Code

namespace Service

open Code

/-- The answer of a `codebuf` step to an operation's outcome: the buffer after it and no value;
the buffer before it and the error when it fails; the buffer before it and the panic of a
remainder by zero when it panics. -/
def outcomeReply (b : CodeBuffer) :
    Option (Except CodeError CodeBuffer) → CodeBuffer × Except Reply (Option Word)
  | some (.ok b') => (b', .ok none)
  | some (.error e) => (b, .error (codeErrorReply e))
  | none => (b, .error (errorReply "panic" CodeBuffer.remainderByZero))

/-! ### Reading the fields of a step -/

section Fields

variable {fields : List (String × Json)} {key : String}

theorem wordField?_of_lookup {w : Word} (h : fields.lookup key = some (Json.word w)) :
    wordField? (.object fields) key = .ok (some w) := by
  simp [wordField?, field, Json.get?, h, Json.word, wordOf?, Number.asWord?, Number.toWord?]

theorem wordField_of_lookup {w : Word} (h : fields.lookup key = some (Json.word w)) :
    wordField (.object fields) key = .ok w := by
  simp [wordField, wordField?_of_lookup h, bind, Except.bind, pure, Except.pure]

theorem byteFieldD_of_lookup {b d : UInt8} (h : fields.lookup key = some (Json.word b.toUInt64)) :
    byteFieldD (.object fields) key d = .ok b := by
  simp [byteFieldD, wordField?_of_lookup h, Except.map]

theorem wordField_head (key : String) (w : Word) (rest : List (String × Json)) :
    wordField (.object ((key, Json.word w) :: rest)) key = .ok w :=
  wordField_of_lookup (by simp)

theorem wordField_second {k key : String} (h : k ≠ key) (v : Json) (w : Word) :
    wordField (.object [(k, v), (key, Json.word w)]) key = .ok w :=
  wordField_of_lookup (by simp [List.lookup_cons, beq_eq_false_iff_ne.mpr (Ne.symm h)])

theorem byteFieldD_second {k : String} (h : k ≠ "byte") (v : Json) (b d : UInt8) :
    byteFieldD (.object [(k, v), ("byte", Json.word b.toUInt64)]) "byte" d = .ok b :=
  byteFieldD_of_lookup (by simp [List.lookup_cons, beq_eq_false_iff_ne.mpr (Ne.symm h)])

theorem hexBytes_hex (bs : Bytes) : hexBytes (Bytes.hex bs) = .ok bs := by
  rw [hexBytes, Bytes.ofHex_hex]
  rfl

end Fields

/-! ### One step for each operation

A step is dispatched on the first of its keys that it has; the keys an operation is written with
are read back as its arguments, and what the operation returns is answered as `outcomeReply`
says. -/

theorem codeStep_emit (b : CodeBuffer) (bs : Bytes) :
    codeStep b (BufferOp.emit bs).toJson = outcomeReply b (some (b.emit bs)) := by
  simp only [codeStep, BufferOp.toJson, Json.get?, List.lookup_cons, List.lookup_nil, String.reduceBEq, Option.isSome,
    if_true, hexBytes_hex]
  cases b.emit bs <;> rfl

theorem codeStep_branch (b : CodeBuffer) (op : UInt8) (target : Word) :
    codeStep b (BufferOp.branch op target).toJson = outcomeReply b (some (b.emitBranch op target)) := by
  simp only [codeStep, BufferOp.toJson, Json.get?, List.lookup_cons, List.lookup_nil, String.reduceBEq, Option.isSome,
    Bool.false_eq_true, if_false, if_true, wordField_head,
    wordField_second (by decide : "branch" ≠ "target"), bind, Except.bind, pure, Except.pure,
    UInt8.toUInt8_toUInt64]
  cases b.emitBranch op target <;> rfl

theorem codeStep_call (b : CodeBuffer) (target : Word) :
    codeStep b (BufferOp.call target).toJson = outcomeReply b (some (b.emitCall target)) := by
  simp only [codeStep, BufferOp.toJson, Json.get?, List.lookup_cons, List.lookup_nil, String.reduceBEq, Option.isSome,
    Bool.false_eq_true, if_false, if_true, wordField_head, bind, Except.bind, pure, Except.pure]
  cases b.emitCall target <;> rfl

theorem codeStep_jmp (b : CodeBuffer) (target : Word) :
    codeStep b (BufferOp.jmp target).toJson = outcomeReply b (some (b.emitJmp target)) := by
  simp only [codeStep, BufferOp.toJson, Json.get?, List.lookup_cons, List.lookup_nil, String.reduceBEq, Option.isSome,
    Bool.false_eq_true, if_false, if_true, wordField_head, bind, Except.bind, pure, Except.pure]
  cases b.emitJmp target <;> rfl

theorem codeStep_padTo (b : CodeBuffer) (len : Word) (fill : UInt8) :
    codeStep b (BufferOp.padTo len fill).toJson = outcomeReply b (some (b.padTo len.toNat fill)) := by
  simp only [codeStep, BufferOp.toJson, Json.get?, List.lookup_cons, List.lookup_nil, String.reduceBEq, Option.isSome,
    Bool.false_eq_true, if_false, if_true, wordField_head,
    byteFieldD_second (by decide : "pad_to" ≠ "byte"), bind, Except.bind, pure, Except.pure]
  cases b.padTo len.toNat fill <;> rfl

theorem codeStep_align (b : CodeBuffer) (a : Word) (fill : UInt8) :
    codeStep b (BufferOp.align a fill).toJson = outcomeReply b (b.align a.toNat fill) := by
  simp only [codeStep, BufferOp.toJson, Json.get?, List.lookup_cons, List.lookup_nil, String.reduceBEq, Option.isSome,
    Bool.false_eq_true, if_false, if_true, wordField_head,
    byteFieldD_second (by decide : "align" ≠ "byte"), bind, Except.bind, pure, Except.pure]
  -- an alignment to zero is the panic; any other is run
  cases b.align a.toNat fill with
  | none => rfl
  | some r => cases r <;> rfl

theorem codeStep_clearRest (b : CodeBuffer) (fill : UInt8) :
    codeStep b (BufferOp.clearRest fill).toJson = outcomeReply b (some (.ok (b.clearRest fill))) := by
  simp only [codeStep, BufferOp.toJson, Json.get?, List.lookup_cons, List.lookup_nil, String.reduceBEq, Option.isSome,
    Bool.false_eq_true, if_false, if_true, wordField_head, bind, Except.bind, pure, Except.pure,
    UInt8.toUInt8_toUInt64]
  rfl

/-- A `codebuf` step runs its operation on the buffer and answers with its outcome: a failed
operation keeps the buffer, and an alignment to zero is answered as the panic of a remainder by
zero, keeping the buffer too. -/
theorem codeStep_toJson (b : CodeBuffer) (op : BufferOp) :
    codeStep b op.toJson = outcomeReply b (op.apply b) := by
  cases op with
  | emit bs => exact codeStep_emit b bs
  | branch op target => exact codeStep_branch b op target
  | call target => exact codeStep_call b target
  | jmp target => exact codeStep_jmp b target
  | padTo len fill => exact codeStep_padTo b len fill
  | align a fill => exact codeStep_align b a fill
  | clearRest fill => exact codeStep_clearRest b fill

end Service

namespace Code

/-- A code buffer refines an append-only log of its written bytes over every run of
operations: the run ends in the buffer whose log is where the log's run ends, with the same
outcome for each operation, the position is the length of the written bytes and at most the
block's size, and the block is the written bytes followed by the log's rest.  Each operation
appends what `ByteLog.apply` says, or fails with the shortfall against the room left, or with an
unreachable branch target before the room is looked at, and then changes nothing; `clearRest`
fills the rest of the block and keeps the log.  Only an alignment to zero panics, and run as a
step of the service each operation is answered with its outcome, the panic as the remainder by
zero it is. -/
theorem codeBuffer_refines_log (b : CodeBuffer) (ops : List BufferOp) :
    (let r := runSeq BufferOp.apply b ops
     let l := runSeq ByteLog.apply b.toLog ops
     r.1.toLog = l.1 ∧ r.2 = l.2 ∧ r.1.written = l.1.written ∧ r.1.pos = l.1.written.length ∧
       l.1.written.length ≤ l.1.capacity ∧ r.1.data.size = l.1.capacity ∧
       r.1.data.toList = l.1.written ++ l.1.rest) ∧
    ∀ (b : CodeBuffer) (op : BufferOp), (op.apply b = none ↔ op.remByZero = true) ∧
      Service.codeStep b op.toJson = Service.outcomeReply b (op.apply b) ∧
      Service.outcomeReply b none = (b, .error (Service.errorReply "panic"
        "attempt to calculate the remainder with a divisor of zero")) :=
  ⟨runSeq_toLog b ops, fun b op => ⟨BufferOp.apply_eq_none_iff b op, Service.codeStep_toJson b op, rfl⟩⟩

end Code

end Intercept
