import Intercept.Proofs.Buffer
/-!
# Encoding and decoding relative branches

A relative branch stores the distance from its own end to its target as a 32-bit two's
complement number.  Encoding and decoding are inverse: a branch encoded at a site decodes,
at that site, to the opcode and the target it was made for, and five bytes that start with the
opcode of a `call` or a `jmp` decode to a target whose displacement encodes the same four
bytes again.  The arithmetic is that of little-endian words (`Word.ofBytes_toBytes_four`,
`Word.toBytes_four_eq`) and of two's complement (`Word.ofInt_toSigned`,
`Word.toSigned_eq_bmod`).

* `rel32_eq` — a target is reachable exactly when the balanced remainder of the distance
  modulo `2 ^ 64` fits 32 bits, and that remainder is the displacement;
* `leadingBranch?_branch` — a branch decodes to what it was encoded from;
* `rel32_leadingBranch?` — decoded bytes encode back to themselves;
* `assembleCall_eq_bind` — a call hook of any length: an unreachable destination is
  reported before a hook too short for the call;
* `branch_round_trip` — all of it together, for every decoder that decodes the two branches
  as documented.
-/

namespace Intercept

namespace Word

theorem toNat_ofInt (i : Int) : ((Word.ofInt i).toNat : Int) = i % 2 ^ 64 := by
  unfold ofInt UInt64.ofInt
  rw [UInt64.toNat_ofNat']
  have h0 : 0 ≤ i % 2 ^ 64 := Int.emod_nonneg _ (by decide)
  have h1 : i % 2 ^ 64 < 2 ^ 64 := Int.emod_lt_of_pos _ (by decide)
  omega

/-- A word's two's complement value stands for the word. -/
@[simp] theorem ofInt_toSigned (w : Word) : Word.ofInt w.toSigned = w := by
  apply UInt64.toNat_inj.mp
  have h := toNat_ofInt w.toSigned
  have hw := w.toNat_lt
  unfold toSigned at h ⊢
  by_cases hs : w.toNat < 2 ^ 63
  · rw [if_pos hs] at h ⊢
    omega
  · rw [if_neg hs] at h ⊢
    omega

theorem toSigned_ofInt {i : Int} (h1 : -2 ^ 63 ≤ i) (h2 : i < 2 ^ 63) :
    (Word.ofInt i).toSigned = i := by
  have h := toNat_ofInt i
  unfold toSigned
  split <;> omega

theorem toSigned_eq_bmod {w : Word} {x : Int} (h : (w.toNat : Int) = x % 2 ^ 64) :
    w.toSigned = Int.bmod x (2 ^ 64) := by
  have hw := w.toNat_lt
  rw [← Int.emod_bmod, Int.natCast_pow, Int.cast_ofNat_Int, ← h, Int.bmod_def]
  unfold toSigned
  split <;> split <;> omega

theorem toNat_ofBytes_cons (b : UInt8) (bs : Bytes) (h : (ofBytes bs).toNat < 2 ^ 56) :
    (ofBytes (b :: bs)).toNat = b.toNat + 2 ^ 8 * (ofBytes bs).toNat := by
  have hb := b.toNat_lt
  rw [ofBytes, UInt64.toNat_or, UInt64.toNat_shiftLeft, UInt8.toNat_toUInt64]
  simp only [UInt64.toNat_ofNat, Nat.reducePow, Nat.reduceMod]
  -- the shifted rest has no bit in the low byte, so the `or` is a sum
  rw [Nat.mod_eq_of_lt (by rw [Nat.shiftLeft_eq]; omega), Nat.or_comm,
    ← Nat.shiftLeft_add_eq_or_of_lt hb, Nat.shiftLeft_eq]
  omega

theorem toNat_ofBytes_four (d0 d1 d2 d3 : UInt8) :
    (ofBytes [d0, d1, d2, d3]).toNat =
      d0.toNat + 2 ^ 8 * d1.toNat + 2 ^ 16 * d2.toNat + 2 ^ 24 * d3.toNat := by
  have h0 := d0.toNat_lt
  have h1 := d1.toNat_lt
  have h2 := d2.toNat_lt
  have h3 := d3.toNat_lt
  have e4 : (ofBytes []).toNat = 0 := rfl
  have e3 := toNat_ofBytes_cons d3 [] (by omega)
  have e2 := toNat_ofBytes_cons d2 [d3] (by omega)
  have e1 := toNat_ofBytes_cons d1 [d2, d3] (by omega)
  have e0 := toNat_ofBytes_cons d0 [d1, d2, d3] (by omega)
  omega

theorem toBytes_four (w : Word) :
    w.toBytes 4 = [w.toUInt8, (w >>> 8).toUInt8, (w >>> 8 >>> 8).toUInt8,
      (w >>> 8 >>> 8 >>> 8).toUInt8] := rfl

theorem ofBytes_toBytes_four (w : Word) : (ofBytes (w.toBytes 4)).toNat = w.toNat % 2 ^ 32 := by
  rw [toBytes_four, toNat_ofBytes_four]
  simp only [UInt64.toNat_toUInt8, UInt64.toNat_shiftRight, UInt64.toNat_ofNat, Nat.reducePow,
    Nat.reduceMod, Nat.shiftRight_eq_div_pow]
  omega

/-- A word whose low 32 bits are those of four bytes is written as those bytes. -/
theorem toBytes_four_eq {w : Word} {d0 d1 d2 d3 : UInt8}
    (h : w.toNat % 2 ^ 32 = (ofBytes [d0, d1, d2, d3]).toNat) : w.toBytes 4 = [d0, d1, d2, d3] := by
  rw [toNat_ofBytes_four] at h
  have h0 := d0.toNat_lt
  have h1 := d1.toNat_lt
  have h2 := d2.toNat_lt
  have h3 := d3.toNat_lt
  rw [toBytes_four]
  simp only [List.cons.injEq, ← UInt8.toNat_inj, UInt64.toNat_toUInt8, UInt64.toNat_shiftRight,
    UInt64.toNat_ofNat, Nat.reducePow, Nat.reduceMod, Nat.shiftRight_eq_div_pow, and_true]
  omega

end Word

namespace Code

theorem fitsInt32_iff (d : Int) : fitsInt32 d = true ↔ -2 ^ 31 ≤ d ∧ d < 2 ^ 31 := by
  simp [fitsInt32]

/-- The displacement stored by a branch reads back as itself whenever it fits 32 bits. -/
theorem disp32_toBytes {d : Int} (h : fitsInt32 d = true) :
    disp32 ((Word.ofInt d).toBytes 4) = d := by
  have hw := Word.toNat_ofInt d
  have hb := Word.ofBytes_toBytes_four (Word.ofInt d)
  rw [fitsInt32_iff] at h
  unfold disp32
  dsimp only
  rw [hb]
  split <;> omega

theorem fitsInt32_disp32 (d0 d1 d2 d3 : UInt8) : fitsInt32 (disp32 [d0, d1, d2, d3]) = true := by
  have hv := Word.toNat_ofBytes_four d0 d1 d2 d3
  have h0 := d0.toNat_lt
  have h1 := d1.toNat_lt
  have h2 := d2.toNat_lt
  have h3 := d3.toNat_lt
  rw [fitsInt32_iff]
  unfold disp32
  dsimp only
  split <;> omega

/-- Four bytes, read as a displacement, are written back as the same four bytes. -/
theorem toBytes_disp32 (d0 d1 d2 d3 : UInt8) :
    (Word.ofInt (disp32 [d0, d1, d2, d3])).toBytes 4 = [d0, d1, d2, d3] := by
  apply Word.toBytes_four_eq
  have hw := Word.toNat_ofInt (disp32 [d0, d1, d2, d3])
  have hv := Word.toNat_ofBytes_four d0 d1 d2 d3
  have h0 := d0.toNat_lt
  have h1 := d1.toNat_lt
  have h2 := d2.toNat_lt
  have h3 := d3.toNat_lt
  have hd : disp32 [d0, d1, d2, d3] =
      if (Word.ofBytes [d0, d1, d2, d3]).toNat < 2 ^ 31 then
        ((Word.ofBytes [d0, d1, d2, d3]).toNat : Int)
      else ((Word.ofBytes [d0, d1, d2, d3]).toNat : Int) - 2 ^ 32 := rfl
  split at hd <;> omega

theorem target_of_rel32 {site target : Word} {d : Int} (h : rel32 site target = .ok d) :
    site + 5 + Word.ofInt d = target := by
  obtain ⟨rfl, -⟩ := (rel32_eq_ok_iff site target d).mp h
  rw [Word.ofInt_toSigned]
  grind

/-- A displacement that fits 32 bits is the one that reaches where it points. -/
theorem rel32_target (site : Word) {d : Int} (hd : fitsInt32 d = true) :
    rel32 site (site + 5 + Word.ofInt d) = .ok d := by
  have hb := (fitsInt32_iff d).mp hd
  rw [rel32_eq_ok_iff]
  refine ⟨?_, hd⟩
  rw [show site + 5 + Word.ofInt d - (site + 5) = Word.ofInt d by grind,
    Word.toSigned_ofInt (by omega) (by omega)]

/-- A site reaches a target exactly when the balanced remainder of their distance modulo
`2 ^ 64` fits 32 bits; that remainder is the displacement, and otherwise the target is out of
range. -/
theorem rel32_eq (site target : Word) :
    rel32 site target =
      let d := Int.bmod ((target.toNat : Int) - (site.toNat + 5)) (2 ^ 64)
      if -2 ^ 31 ≤ d ∧ d < 2 ^ 31 then .ok d else .error (.outOfRange site target) := by
  have hd : (target - (site + 5)).toSigned =
      Int.bmod ((target.toNat : Int) - (site.toNat + 5)) (2 ^ 64) := by
    apply Word.toSigned_eq_bmod
    have hsub := UInt64.toNat_sub target (site + 5)
    have hadd := UInt64.toNat_add site 5
    have hs := site.toNat_lt
    simp only [UInt64.toNat_ofNat, Nat.reducePow, Nat.reduceMod] at hadd
    omega
  unfold rel32
  rw [hd]
  dsimp only
  simp only [fitsInt32_iff]

section Decoded

variable {dec : Decoder}

/-- The opcode and target that five bytes starting with a branch opcode decode to. -/
theorem leadingBranch?_cons (hdec : dec.DecodesBranches) {op : UInt8}
    (hop : op = callOpcode ∨ op = jmpOpcode) (d0 d1 d2 d3 : UInt8) (rest : Bytes) (ip : Word) :
    leadingBranch? dec (op :: d0 :: d1 :: d2 :: d3 :: rest) ip =
      some (op, ip + 5 + Word.ofInt (disp32 [d0, d1, d2, d3])) := by
  have hhead : rel32Head? (op :: d0 :: d1 :: d2 :: d3 :: rest) = some op := by
    simp [rel32Head?, hop]
  simp [leadingBranch?, hdec _ _ hhead]

/-- Code that does not start with a branch opcode decodes to no branch. -/
theorem leadingBranch?_eq_none (hdec : dec.Documented) {code : Bytes} {ip : Word}
    (h : ∀ op, code.head? = some op → op ≠ callOpcode ∧ op ≠ jmpOpcode) :
    leadingBranch? dec code ip = none := by
  rw [leadingBranch?_of_documented hdec]
  match code, h with
  | op :: d0 :: d1 :: d2 :: d3 :: rest, h =>
    obtain ⟨h1, h2⟩ := h op rfl
    simp [h1, h2]
  | [], _ => rfl
  | [_], _ => rfl
  | [_, _], _ => rfl
  | [_, _, _], _ => rfl
  | [_, _, _, _], _ => rfl

/-- A branch decodes, at the site it was encoded for, to its opcode and its target. -/
theorem leadingBranch?_branch (hdec : dec.DecodesBranches) {op : UInt8}
    (hop : op = callOpcode ∨ op = jmpOpcode) {site target : Word} {d : Int}
    (h : rel32 site target = .ok d) (rest : Bytes) :
    leadingBranch? dec (branch op d ++ rest) site = some (op, target) := by
  have hfit := ((rel32_eq_ok_iff site target d).mp h).2
  rw [branch, Word.toBytes_four]
  simp only [List.cons_append, List.nil_append]
  rw [leadingBranch?_cons hdec hop, ← Word.toBytes_four, disp32_toBytes hfit, target_of_rel32 h]

/-- Five bytes that start with a branch opcode decode to a target whose displacement, as the
site computes it, encodes the same bytes again. -/
theorem rel32_leadingBranch? (hdec : dec.DecodesBranches) {op : UInt8}
    (hop : op = callOpcode ∨ op = jmpOpcode) (d0 d1 d2 d3 : UInt8) (rest : Bytes) (ip : Word) :
    ∃ target, leadingBranch? dec (op :: d0 :: d1 :: d2 :: d3 :: rest) ip = some (op, target) ∧
      rel32 ip target = .ok (disp32 [d0, d1, d2, d3]) ∧
      branch op (disp32 [d0, d1, d2, d3]) = [op, d0, d1, d2, d3] :=
  ⟨_, leadingBranch?_cons hdec hop d0 d1 d2 d3 rest ip,
    rel32_target ip (fitsInt32_disp32 d0 d1 d2 d3), by rw [branch, toBytes_disp32]⟩

end Decoded

/-- A call hook of any length: the destination's reach is checked first, then that the hook
has room for the call; the call is padded with `nop` to the hook's length. -/
theorem assembleCall_eq_bind (source destination : Word) (len : Nat) :
    assembleCall source destination len = (rel32 source destination).bind fun d =>
      if 5 ≤ len then .ok (branch callOpcode d ++ List.replicate (len - 5) nop)
      else .error (.overflow 5 len) := by
  by_cases hlen : 5 ≤ len
  · rw [assembleCall_eq source destination hlen]
    cases rel32 source destination <;> simp [Except.map, Except.bind, hlen]
  · unfold assembleCall CodeBuffer.emitCall
    dsimp only
    rw [CodeBuffer.emitBranch_eq, CodeBuffer.address_new]
    cases rel32 source destination with
    | error e => rfl
    | ok d =>
      -- too short for the call's five bytes
      have hshort : (CodeBuffer.new (Array.replicate len nop) source).remaining <
          (branch callOpcode d).length := by
        simp only [CodeBuffer.remaining_new, Array.size_replicate, CodeBuffer.length_branch]
        omega
      simp [Except.bind, CodeBuffer.emit_of_lt hshort, hlen]

/-- Relative branches are encoded and decoded consistently, by any decoder that decodes an
unprefixed `e8` or `e9` with four more bytes as the five-byte `call` or `jmp`.  A site reaches a
target exactly when the balanced remainder of the distance fits 32 bits, and the branch encoded
for it decodes back to its opcode and target; five bytes that start with a `call` or `jmp`
opcode decode to a target whose displacement re-encodes the same five bytes; and a call hook is
the call padded with `nop`, with an unreachable destination reported before a hook that is too
short. -/
theorem branch_round_trip (dec : Decoder) (hdec : dec.DecodesBranches) :
    (∀ site target : Word, rel32 site target =
      let d := Int.bmod ((target.toNat : Int) - (site.toNat + 5)) (2 ^ 64)
      if -2 ^ 31 ≤ d ∧ d < 2 ^ 31 then .ok d else .error (.outOfRange site target)) ∧
    (∀ (op : UInt8) (site target : Word) (d : Int), op = callOpcode ∨ op = jmpOpcode →
      rel32 site target = .ok d → leadingBranch? dec (branch op d) site = some (op, target)) ∧
    (∀ (op d0 d1 d2 d3 : UInt8) (ip : Word), op = callOpcode ∨ op = jmpOpcode →
      ∃ target, leadingBranch? dec [op, d0, d1, d2, d3] ip = some (op, target) ∧
        rel32 ip target = .ok (disp32 [d0, d1, d2, d3]) ∧
        branch op (disp32 [d0, d1, d2, d3]) = [op, d0, d1, d2, d3]) ∧
    (∀ (source destination : Word) (len : Nat),
      assembleCall source destination len = (rel32 source destination).bind fun d =>
        if 5 ≤ len then .ok (branch callOpcode d ++ List.replicate (len - 5) nop)
        else .error (.overflow 5 len)) := by
  refine ⟨rel32_eq, fun op site target d hop h => ?_, fun op d0 d1 d2 d3 ip hop =>
    rel32_leadingBranch? hdec hop d0 d1 d2 d3 [] ip, assembleCall_eq_bind⟩
  simpa using leadingBranch?_branch hdec hop h []

/-- The decoder that knows the two relative branches decodes them as documented, so a call from
`0x1000` to `0x2000`, displaced by `0xffb`, decodes back to its target. -/
theorem call_round_trip :
    Decoder.branches.DecodesBranches ∧ rel32 0x1000 0x2000 = .ok 0xffb ∧
      leadingBranch? Decoder.branches (branch callOpcode 0xffb) 0x1000 =
        some (callOpcode, 0x2000) := by
  have hdec := Decoder.branches_documented.decodesBranches
  have h : rel32 0x1000 0x2000 = .ok 0xffb := by decide +kernel
  exact ⟨hdec, h,
    (branch_round_trip Decoder.branches hdec).2.1 callOpcode 0x1000 0x2000 0xffb (.inl rfl) h⟩

end Code

end Intercept
