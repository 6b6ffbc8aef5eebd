import Intercept.Proofs.Branch
import Intercept.Proofs.Buffer
import Intercept.Proofs.Batch.Step
/-!
# Relocating the displaced code

The call patched over a site displaces its first bytes, which then run from the site's relay
slot and jump back behind the site.  Code that moves must keep reaching what it reached: a
leading `call` or `jmp` is re-aimed from the slot at its old target, everything else is copied
as it is.

* `Code.Reaches` — whether a branch at one address reaches another, and `rel32` succeeds
  exactly then (`rel32_of_reaches`, `rel32_of_not_reaches`);
* `buildRelay_of_leadingBranch`, `buildRelay_of_plain` — the slot when every branch reaches,
  each emit read as an append to the buffer's log (`CodeBuffer.emit_of_toLog`);
* `buildRelay_relocates` — what the relay is, and when it fails, for every cave size, site,
  slot and displaced bytes.
-/

namespace Intercept

namespace Code

/-- Whether a five-byte branch at `site` reaches `target`: the distance from the end of the
branch, as a signed 64-bit number, fits in 32 bits. -/
def Reaches (site target : Word) : Prop :=
  -2 ^ 31 ≤ Int.bmod ((target.toNat : Int) - (site.toNat + 5)) (2 ^ 64) ∧
    Int.bmod ((target.toNat : Int) - (site.toNat + 5)) (2 ^ 64) < 2 ^ 31

instance (site target : Word) : Decidable (Reaches site target) := instDecidableAnd

theorem rel32_of_reaches {site target : Word} (h : Reaches site target) :
    ∃ d, rel32 site target = .ok d := by
  rw [rel32_eq]
  exact ⟨_, if_pos h⟩

theorem rel32_of_not_reaches {site target : Word} (h : ¬ Reaches site target) :
    rel32 site target = .error (.outOfRange site target) := by
  rw [rel32_eq]
  exact if_neg h

/-- Whether a branch reaches, with the error of one that does not. -/
theorem rel32_map_unit (site target : Word) :
    (rel32 site target).map (fun _ => ()) =
      if Reaches site target then .ok () else .error (.outOfRange site target) := by
  by_cases h : Reaches site target
  · obtain ⟨d, hd⟩ := rel32_of_reaches h
    rw [hd, if_pos h]
    rfl
  · rw [rel32_of_not_reaches h, if_neg h]
    rfl

end Code

namespace Batch

open Code

variable {κ : Type}

theorem runSteps_cons_ok {b b' : CodeBuffer} {s : CodeBuffer → Except CodeError CodeBuffer}
    (h : s b = .ok b') (rest : List (CodeBuffer → Except CodeError CodeBuffer)) :
    runSteps b (s :: rest) = runSteps b' rest := by
  rw [runSteps, h]

section Relay

variable {dec : Decoder} {bp : Breakpoint κ} {displaced : Bytes} {slot : Array UInt8}

/-- A relay whose displaced bytes lead with a branch, when the branch re-aimed from the slot
and the jump back both reach: the branch, the rest of the displaced bytes, the jump back, and
the slot as it was behind them. -/
theorem buildRelay_of_leadingBranch (hlen : displaced.length = bp.cavesize)
    (hmin : 5 ≤ bp.cavesize) (hslot : bp.cavesize + 5 ≤ slot.size) {op : UInt8} {target : Word}
    (hlb : leadingBranch? dec displaced bp.addr = some (op, target)) {d d' : Int}
    (hd : rel32 bp.cave target = .ok d)
    (hd' : rel32 (bp.cave + bp.cavesize.toUInt64) (bp.addr + bp.cavesize.toUInt64) = .ok d') :
    (buildRelay dec bp displaced slot).1.toList =
      branch op d ++ displaced.drop 5 ++ branch jmpOpcode d' ++ slot.toList.drop (bp.cavesize + 5) ∧
    (buildRelay dec bp displaced slot).2 = .ok () := by
  unfold buildRelay
  rw [hlb]
  dsimp only
  -- the branch re-aimed, the rest of the displaced bytes and the jump back, each appended to
  -- what the one before wrote
  have hwritten : (branch op d ++ displaced.drop 5).length = bp.cavesize := by
    simp only [List.length_append, CodeBuffer.length_branch, List.length_drop]
    omega
  obtain ⟨b1, h1, hlog1⟩ := CodeBuffer.emitBranch_of_toLog (CodeBuffer.toLog_new slot bp.cave)
    (by simp; omega) op (show rel32 (bp.cave + ([] : Bytes).length.toUInt64) target = .ok d by
      simpa using hd)
  obtain ⟨b2, h2, hlog2⟩ := CodeBuffer.emit_of_toLog hlog1
    (show (displaced.drop 5).length ≤ _ by simp; omega)
  obtain ⟨b3, h3, hlog3⟩ := CodeBuffer.emitBranch_of_toLog hlog2 (by simp; omega) jmpOpcode
    (by rw [List.nil_append, hwritten]; exact hd')
  rw [List.cons_append, runSteps_cons_ok h1, List.cons_append, runSteps_cons_ok h2,
    List.nil_append, runSteps_cons_ok (show b2.emitJmp _ = _ from h3), runSteps]
  refine ⟨?_, rfl⟩
  rw [CodeBuffer.toList_data, hlog3]
  simp only [List.nil_append, List.drop_drop, List.length_drop, hlen]
  congr 2
  omega

/-- A relay whose displaced bytes lead with no branch, when the jump back reaches: the
displaced bytes as they are, the jump back, and the slot as it was behind them. -/
theorem buildRelay_of_plain (hlen : displaced.length = bp.cavesize)
    (hslot : bp.cavesize + 5 ≤ slot.size) (hlb : leadingBranch? dec displaced bp.addr = none)
    {d' : Int}
    (hd' : rel32 (bp.cave + bp.cavesize.toUInt64) (bp.addr + bp.cavesize.toUInt64) = .ok d') :
    (buildRelay dec bp displaced slot).1.toList =
      displaced ++ branch jmpOpcode d' ++ slot.toList.drop (bp.cavesize + 5) ∧
    (buildRelay dec bp displaced slot).2 = .ok () := by
  unfold buildRelay
  rw [hlb]
  dsimp only
  obtain ⟨b1, h1, hlog1⟩ := CodeBuffer.emit_of_toLog (CodeBuffer.toLog_new slot bp.cave)
    (show displaced.length ≤ _ by simp; omega)
  obtain ⟨b2, h2, hlog2⟩ := CodeBuffer.emitBranch_of_toLog hlog1 (by simp; omega) jmpOpcode
    (by rw [List.nil_append, hlen]; exact hd')
  rw [List.singleton_append, runSteps_cons_ok h1, runSteps_cons_ok (show b1.emitJmp _ = _ from h2),
    runSteps]
  refine ⟨?_, rfl⟩
  rw [CodeBuffer.toList_data, hlog2]
  simp only [List.nil_append, List.drop_drop, hlen]

/-- A relay is the code its site's call displaced, moved into the site's slot at `cave`, with a
jump back behind the site, for a decoder that decodes the relative branches as documented.  A
leading `call` or `jmp` is re-aimed from the slot at the target it had at the site, and decodes
there to that target; the rest follows as it was.  Other bytes are copied as they are.  The jump
back sits at `cave + cavesize` and decodes to `addr + cavesize`, and behind it the slot keeps
its bytes.  The relay fails exactly when the re-aimed branch or the jump back does not reach,
naming the first branch that does not. -/
theorem buildRelay_relocates (dec : Decoder) (hdec : dec.Documented) (bp : Breakpoint κ)
    (displaced : Bytes) (slot : Array UInt8)
    (hlen : displaced.length = bp.cavesize) (hmin : minCaveSize ≤ bp.cavesize)
    (hmax : bp.cavesize ≤ maxCaveSize) (hslot : slot.size = relaySlotSize) :
    let r := buildRelay dec bp displaced slot
    let n := bp.cavesize
    let jmpAt := bp.cave + n.toUInt64
    let back := bp.addr + n.toUInt64
    (∀ op d0 d1 d2 d3 rest, displaced = op :: d0 :: d1 :: d2 :: d3 :: rest →
      op = callOpcode ∨ op = jmpOpcode →
      let target := bp.addr + 5 + Word.ofInt (disp32 [d0, d1, d2, d3])
      r.2 = (if Reaches bp.cave target then
          if Reaches jmpAt back then .ok () else .error (.outOfRange jmpAt back)
        else .error (.outOfRange bp.cave target)) ∧
      (r.2 = .ok () → ∃ d d', rel32 bp.cave target = .ok d ∧ rel32 jmpAt back = .ok d' ∧
        r.1.toList = branch op d ++ rest ++ branch jmpOpcode d' ++ slot.toList.drop (n + 5) ∧
        leadingBranch? dec r.1.toList bp.cave = some (op, target) ∧
        leadingBranch? dec (r.1.toList.drop n) jmpAt = some (jmpOpcode, back))) ∧
    ((∀ op, displaced.head? = some op → op ≠ callOpcode ∧ op ≠ jmpOpcode) →
      r.2 = (if Reaches jmpAt back then .ok () else .error (.outOfRange jmpAt back)) ∧
      (r.2 = .ok () → ∃ d', rel32 jmpAt back = .ok d' ∧
        r.1.toList = displaced ++ branch jmpOpcode d' ++ slot.toList.drop (n + 5) ∧
        leadingBranch? dec (r.1.toList.drop n) jmpAt = some (jmpOpcode, back))) := by
  intro r n jmpAt back
  have hmin5 : 5 ≤ n := hmin
  have hroom : n + 5 ≤ slot.size := by
    unfold maxCaveSize relaySlotSize at hmax
    rw [hslot, relaySlotSize]
    omega
  have hbranches := hdec.decodesBranches
  have hsnd : r.2 = relayReach dec bp.cave bp.addr n displaced :=
    buildRelay_snd hlen hmin (by simpa [branchLength] using hroom)
  refine ⟨?lead, ?plain⟩
  case lead =>
    rintro op d0 d1 d2 d3 rest rfl hop target
    have hlb := leadingBranch?_cons hbranches hop d0 d1 d2 d3 rest bp.addr
    have hr : r.2 = if Reaches bp.cave target then
        if Reaches jmpAt back then .ok () else .error (.outOfRange jmpAt back)
        else .error (.outOfRange bp.cave target) := by
      rw [hsnd, relayReach, hlb]
      dsimp only
      rw [rel32_map_unit, rel32_map_unit]
      split_ifs <;> rfl
    refine ⟨hr, fun hok => ?_⟩
    -- both branches reach, so the relay is built in full
    have hreach : Reaches bp.cave target ∧ Reaches jmpAt back := by
      rw [hr] at hok
      split_ifs at hok with h1 h2
      exact ⟨h1, h2⟩
    obtain ⟨d, hd⟩ := rel32_of_reaches hreach.1
    obtain ⟨d', hd'⟩ := rel32_of_reaches hreach.2
    obtain ⟨hcode, -⟩ := buildRelay_of_leadingBranch hlen hmin5 hroom hlb hd hd'
    replace hcode : r.1.toList =
        branch op d ++ rest ++ branch jmpOpcode d' ++ slot.toList.drop (n + 5) := hcode
    have hhead : (branch op d ++ rest).length = n := by
      simp only [List.length_append, CodeBuffer.length_branch]
      simp only [List.length_cons] at hlen
      omega
    refine ⟨d, d', hd, hd', hcode, ?_, ?_⟩
    · rw [hcode, List.append_assoc, List.append_assoc]
      exact leadingBranch?_branch hbranches hop hd _
    · rw [hcode, List.append_assoc, List.drop_left' hhead]
      exact leadingBranch?_branch hbranches (.inr rfl) hd' _
  case plain =>
    intro hnot
    have hlb : leadingBranch? dec displaced bp.addr = none := leadingBranch?_eq_none hdec hnot
    have hr : r.2 = if Reaches jmpAt back then .ok () else .error (.outOfRange jmpAt back) := by
      rw [hsnd, relayReach, hlb]
      dsimp only
      rw [rel32_map_unit]
      rfl
    refine ⟨hr, fun hok => ?_⟩
    have hreach : Reaches jmpAt back := by
      rw [hr] at hok
      split_ifs at hok with h
      exact h
    obtain ⟨d', hd'⟩ := rel32_of_reaches hreach
    obtain ⟨hcode, -⟩ := buildRelay_of_plain hlen hroom hlb hd'
    refine ⟨d', hd', hcode, ?_⟩
    rw [hcode, List.append_assoc, List.drop_left' hlen]
    exact leadingBranch?_branch hbranches (.inr rfl) hd' _

/-- A call at `0x1000` to `0x1030`, displaced into a slot at `0x2000`: it still calls
`0x1030`, and the jump back at `0x2005` returns to `0x1005`. -/
theorem relay_keeps_leading_call :
    leadingBranch? Decoder.branches (buildRelay Decoder.branches
        (⟨"call", "", 0x1000, 5, 0x2000, none, .null⟩ : Breakpoint Unit)
        [callOpcode, 0x2B, 0, 0, 0] (Array.replicate relaySlotSize int3)).1.toList 0x2000 =
      some (callOpcode, 0x1030) ∧
    leadingBranch? Decoder.branches ((buildRelay Decoder.branches
        (⟨"call", "", 0x1000, 5, 0x2000, none, .null⟩ : Breakpoint Unit)
        [callOpcode, 0x2B, 0, 0, 0] (Array.replicate relaySlotSize int3)).1.toList.drop 5) 0x2005 =
      some (jmpOpcode, 0x1005) := by
  obtain ⟨hr, hok⟩ := (buildRelay_relocates Decoder.branches Decoder.branches_documented
    (⟨"call", "", 0x1000, 5, 0x2000, none, .null⟩ : Breakpoint Unit) [callOpcode, 0x2B, 0, 0, 0]
    (Array.replicate relaySlotSize int3) rfl (by decide) (by decide) (by simp)).1
    callOpcode 0x2B 0 0 0 [] rfl (.inl rfl)
  obtain ⟨-, -, -, -, -, hlead, hback⟩ :=
    hok (by rw [hr, if_pos (by decide +kernel), if_pos (by decide +kernel)])
  exact ⟨hlead.trans (by decide +kernel), hback.trans (by decide +kernel)⟩

end Relay

end Batch

end Intercept
