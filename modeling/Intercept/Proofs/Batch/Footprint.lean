import Intercept.Proofs.Batch.Outcome
import Intercept.Proofs.Relay
/-!
# What each request of a batch writes

Setting up a batch writes memory through its host.  On a memory that reads back what was
written (`Host.Plain`), what one request does to memory is a few writes, by how far it gets
(`Stage`): nothing when a check refuses it; its relay slot, rebuilt from the slot as it was;
then a trampoline at the call cave's next address, and the site's call.  These ranges are the
request's footprint, and a byte outside it keeps its value.

* `buildRelay_prefix` — a relay writes a prefix of its slot, of at most its displaced bytes and
  a jump, and keeps the rest, also when it stops at a branch out of reach;
* `step_refused`, `step_relayed`, `step_called` — what one request writes, by its stage;
* `verdict_ne_overflow` — no request fails for want of room;
* `pos_before`, `byteAt_before` — the run lemmas: the call cave moves on by a trampoline for
  each request that reached one, and a byte outside the footprints of a run of requests keeps
  its value.
-/

namespace Intercept

variable {κ σ : Type}

/-! ### Plain memory -/

/-- Whether `x` lies in the `len` bytes from `a` on, counting with wrapping. -/
def InRange (a : Word) (len : Nat) (x : Word) : Prop := (x - a).toNat < len

instance (a : Word) (len : Nat) (x : Word) : Decidable (InRange a len x) :=
  inferInstanceAs (Decidable ((x - a).toNat < len))

/-- A range that does not wrap holds the addresses from its start to its end. -/
theorem inRange_iff {a : Word} {len : Nat} (h : a.toNat + len ≤ 2 ^ 64) (x : Word) :
    InRange a len x ↔ a.toNat ≤ x.toNat ∧ x.toNat < a.toNat + len := by
  unfold InRange
  rw [UInt64.toNat_sub]
  have hx := x.toNat_lt
  have ha := a.toNat_lt
  omega

theorem toNat_add_of_lt {a : Word} {k : Nat} (h : a.toNat + k < 2 ^ 64) :
    (a + k.toUInt64).toNat = a.toNat + k := by
  rw [UInt64.toNat_add, Nat.toUInt64, UInt64.toNat_ofNat']
  omega

@[simp] theorem toNat_sub_add_self (a : Word) {k : Nat} (h : k < 2 ^ 64) :
    (a + k.toUInt64 - a).toNat = k := by
  rw [UInt64.add_comm, UInt64.add_sub_cancel, Nat.toUInt64, UInt64.toNat_ofNat', Nat.mod_eq_of_lt h]

namespace Host

variable (host : Host σ)

/-- The byte at an address, as the host reads it. -/
def byteAt (m : σ) (x : Word) : UInt8 := (host.read m x 1).headD 0

/-- A host whose memory is plain: a read gives the bytes one by one, a write replaces exactly
the bytes it covers, counted from its address with wrapping, and changes no protection. -/
structure Plain : Prop where
  read_eq : ∀ m a k, host.read m a k = (List.range k).map fun i => host.byteAt m (a + i.toUInt64)
  byteAt_write : ∀ m a bs x, host.byteAt (host.write m a bs) x =
    if InRange a bs.length x then bs.getD (x - a).toNat 0 else host.byteAt m x
  protect_write : ∀ m a bs addr len, host.protect (host.write m a bs) addr len = host.protect m addr len

namespace Plain

variable {host} (hp : host.Plain)
include hp

theorem length_read (m : σ) (a : Word) (k : Nat) : (host.read m a k).length = k := by
  simp [hp.read_eq]

theorem lawful : host.Lawful := ⟨hp.length_read, hp.protect_write⟩

theorem byteAt_write_of_not {m : σ} {a x : Word} {bs : Bytes} (h : ¬InRange a bs.length x) :
    host.byteAt (host.write m a bs) x = host.byteAt m x := by
  rw [hp.byteAt_write, if_neg h]

theorem byteAt_write_at {m : σ} {a : Word} {bs : Bytes} {i : Nat} (hi : i < bs.length)
    (hfit : bs.length ≤ 2 ^ 64) : host.byteAt (host.write m a bs) (a + i.toUInt64) = bs.getD i 0 := by
  have hlt : i < 2 ^ 64 := by omega
  have hin : InRange a bs.length (a + i.toUInt64) := by
    unfold InRange
    rw [toNat_sub_add_self a hlt]
    exact hi
  rw [hp.byteAt_write, if_pos hin, toNat_sub_add_self a hlt]

/-- Bytes read where every byte is known. -/
theorem read_eq_of_byteAt {m : σ} {a : Word} {k : Nat} {bs : Bytes} (hk : bs.length = k)
    (h : ∀ i < k, host.byteAt m (a + i.toUInt64) = bs.getD i 0) :
    host.read m a k = bs := by
  subst hk
  rw [hp.read_eq]
  apply List.ext_getElem (by simp)
  intro i h1 h2
  simp only [List.getElem_map, List.getElem_range]
  rw [h i h2, List.getElem_eq_getD 0]

theorem read_congr {m m' : σ} {a : Word} {k : Nat}
    (h : ∀ i < k, host.byteAt m (a + i.toUInt64) = host.byteAt m' (a + i.toUInt64)) :
    host.read m a k = host.read m' a k := by
  rw [hp.read_eq, hp.read_eq]
  exact List.map_congr_left fun i hi => h i (List.mem_range.mp hi)

end Plain

end Host

@[simp] theorem Word.length_toBytes (w : Word) (k : Nat) : (w.toBytes k).length = k := by
  induction k generalizing w with
  | zero => rfl
  | succ k ih => simp [Word.toBytes, ih]

/-- A trampoline is the stub, two `int3` bytes, the dispatch routine's address at offset 40 and
the context at offset 48: copies differ only in their context. -/
theorem Code.Trampoline.withContext_new (dispatch context : Word) :
    (Code.Trampoline.new dispatch).withContext context =
      Code.trampolineStub ++ [Code.int3, Code.int3] ++ dispatch.toBytes 8 ++ context.toBytes 8 := by
  have hlen : (Code.trampolineStub ++ [Code.int3, Code.int3] ++ dispatch.toBytes 8).length = Code.contextOffset := by
    simp [Code.trampolineStub, Code.contextOffset]
  rw [Code.Trampoline.withContext, Code.Trampoline.new, List.take_left' hlen]

namespace Batch

open Code

/-! ### A relay writes a prefix of its slot -/

/-- A generation step that, when it succeeds, appends at most `k` bytes to its buffer's log
and leaves the block past them as it was. -/
def AppendsAtMost (s : CodeBuffer → Except CodeError CodeBuffer) (k : Nat) : Prop :=
  ∀ b b', s b = .ok b' → ∃ bs : Bytes, bs.length ≤ k ∧
    b'.toLog = ⟨b.toLog.base, b.toLog.written ++ bs, b.toLog.rest.drop bs.length⟩

theorem appendsAtMost_emit (bs : Bytes) : AppendsAtMost (fun b => b.emit bs) bs.length := by
  intro b b' h
  dsimp only at h
  have happ := CodeBuffer.emit_toLog b bs
  rw [h] at happ
  unfold ByteLog.append at happ
  split at happ
  · exact ⟨bs, Nat.le_refl _, Except.ok.inj happ⟩
  · cases happ

theorem appendsAtMost_emitBranch (opcode : UInt8) (target : Word) :
    AppendsAtMost (fun b => b.emitBranch opcode target) branchLength := by
  intro b b' h
  dsimp only at h
  rw [CodeBuffer.emitBranch_eq] at h
  cases hr : rel32 b.address target with
  | error e =>
    rw [hr] at h
    cases h
  | ok d =>
    rw [hr] at h
    obtain ⟨bs, hlen, hlog⟩ := appendsAtMost_emit (branch opcode d) b b' h
    exact ⟨bs, by simpa [branchLength] using hlen, hlog⟩

/-- A run of steps, each appending at most its bound, appends at most the sum of the bounds,
also when a step fails and ends the run. -/
theorem runSteps_appends {steps : List (CodeBuffer → Except CodeError CodeBuffer)} {ks : List Nat}
    (h : List.Forall₂ AppendsAtMost steps ks) (b : CodeBuffer) :
    ∃ bs : Bytes, bs.length ≤ ks.sum ∧
      (runSteps b steps).1.toLog = ⟨b.toLog.base, b.toLog.written ++ bs, b.toLog.rest.drop bs.length⟩ := by
  induction h generalizing b with
  | nil =>
    refine ⟨[], Nat.zero_le _, ?_⟩
    show b.toLog = ⟨b.toLog.base, b.toLog.written ++ [], b.toLog.rest.drop 0⟩
    rw [List.append_nil, List.drop_zero]
  | @cons s k steps ks hs _ ih =>
    rw [runSteps]
    cases hsb : s b with
    | error e =>
      refine ⟨[], Nat.zero_le _, ?_⟩
      show b.toLog = ⟨b.toLog.base, b.toLog.written ++ [], b.toLog.rest.drop 0⟩
      rw [List.append_nil, List.drop_zero]
    | ok b' =>
      -- the first step's bytes, then the rest of the run's
      obtain ⟨bs, hlen, hlog⟩ := hs b b' hsb
      obtain ⟨bs', hlen', hlog'⟩ := ih b'
      refine ⟨bs ++ bs', by simp only [List.length_append, List.sum_cons]; omega, ?_⟩
      dsimp only
      rw [hlog', hlog]
      simp [List.drop_drop]

/-- A relay writes a prefix of its slot, of at most its displaced bytes and a jump, and the slot
past the prefix keeps its bytes: also when a branch does not reach and the relay stops. -/
theorem buildRelay_prefix (dec : Decoder) (bp : Breakpoint κ) (displaced : Bytes) (slot : Array UInt8)
    (hlen : displaced.length = bp.cavesize) (hmin : minCaveSize ≤ bp.cavesize) :
    ∃ code : Bytes, code.length ≤ bp.cavesize + branchLength ∧
      (buildRelay dec bp displaced slot).1.toList = code ++ slot.toList.drop code.length := by
  have hmin5 : 5 ≤ bp.cavesize := hmin
  have hjmp := appendsAtMost_emitBranch jmpOpcode (bp.addr + bp.cavesize.toUInt64)
  -- a run of steps from a fresh buffer on the slot writes a prefix of it
  have hrun : ∀ steps ks, List.Forall₂ AppendsAtMost steps ks → ks.sum = bp.cavesize + branchLength →
      ∃ code : Bytes, code.length ≤ bp.cavesize + branchLength ∧
        (runSteps (CodeBuffer.new slot bp.cave) steps).1.data.toList =
          code ++ slot.toList.drop code.length := by
    intro steps ks h hsum
    obtain ⟨bs, hbs, hlog⟩ := runSteps_appends h (CodeBuffer.new slot bp.cave)
    refine ⟨bs, hsum ▸ hbs, ?_⟩
    rw [CodeBuffer.toList_data, hlog, CodeBuffer.toLog_new, List.nil_append]
  unfold buildRelay
  dsimp only
  -- the leading branch and the rest of the displaced bytes, or the displaced bytes as they are;
  -- then the jump back
  cases leadingBranch? dec displaced bp.addr with
  | some lead =>
    obtain ⟨op, target⟩ := lead
    refine hrun _ _ (.cons (appendsAtMost_emitBranch op target)
      (.cons (appendsAtMost_emit (displaced.drop 5)) (.cons hjmp .nil))) ?_
    simp only [List.sum_cons, List.sum_nil, List.length_drop, hlen, branchLength]
    omega
  | none =>
    exact hrun _ _ (.cons (appendsAtMost_emit displaced) (.cons hjmp .nil)) (by simp [hlen])

/-! ### What one request writes -/

/-- How far a request gets in writing its code. -/
inductive Stage where
  /-- A check before the relay failed, and nothing was written. -/
  | refused
  /-- The relay was written, but does not reach its targets. -/
  | relayed
  /-- The relay and a trampoline were written, and the site is patched when its call reaches. -/
  | called
  deriving DecidableEq

/-- The stage request `i` reaches in the progress `st`: the checks `verdict` makes before the
code, then whether the relay reaches. -/
def stage (host : Host σ) (reg : Registry κ) (relay : Word) (st : Progress κ σ) (i : Nat)
    (bp : Breakpoint κ) : Except BreakpointError Word → Stage
  | .error _ => .refused
  | .ok v =>
    if coversReadExecute (host.mappings st.mem) v.toNat relaySlotSize = true ∧
        ¬(bp.cavesize < minCaveSize ∨ maxCaveSize < bp.cavesize) ∧
        (reg.callback? bp.key).isSome = true then
      if (relayReach host.decode (relay + (i * relaySlotSize).toUInt64) v bp.cavesize
          (host.read st.mem v bp.cavesize)).isOk then .called else .relayed
    else .refused

theorem stage_congr {host : Host σ} {reg : Registry κ} {relay : Word} {st st' : Progress κ σ}
    {i : Nat} {bp : Breakpoint κ} {site : Except BreakpointError Word} (hm : st.mem = st'.mem) :
    stage host reg relay st i bp site = stage host reg relay st' i bp site := by
  cases site <;> simp only [stage, hm]

@[simp] theorem breakpoints_record (n i : Nat) (site : Except BreakpointError Word) (name : String)
    (bp' : Breakpoint κ) (p : Progress κ σ × Except BreakpointError Unit) :
    (record n i site name bp' p).breakpoints = p.1.breakpoints ++ [bp'] := by
  obtain ⟨st, r⟩ := p
  cases r <;> rfl

section Step

variable (host : Host σ) (reg : Registry κ) (place : Placement) (relay : Word) (n : Nat)
  (st : Progress κ σ) (i : Nat) (bp : Breakpoint κ)

/-- A request whose checks pass is handled by installing its descriptor. -/
theorem step_of_found {v : Word} {k : κ} (hv : v ≠ 0)
    (hcov : coversReadExecute (host.mappings st.mem) v.toNat relaySlotSize = true)
    (hcs : ¬(bp.cavesize < minCaveSize ∨ maxCaveSize < bp.cavesize))
    (hcb : reg.callback? bp.key = some k) :
    let bp' := { bp with callback := some k, addr := v, cave := relay + (i * relaySlotSize).toUInt64 }
    step host reg place relay n st i bp (.ok v) =
      record n i (.ok v) bp.name bp' (install host place i bp' { st with log := st.log ++ [] }) := by
  intro bp'
  rw [step_init _ _ _ _ _ _ _ _ hcov, init_callback reg bp v _ hv hcs]
  dsimp only
  rw [hcb]

variable {host reg place relay n st i bp} {site : Except BreakpointError Word}

/-- A request refused by its checks writes nothing and leaves the call cave as it was. -/
theorem step_refused (hsite : ∀ v, site = .ok v → v ≠ 0)
    (h : stage host reg relay st i bp site = .refused) :
    (step host reg place relay n st i bp site).mem = st.mem ∧
      (step host reg place relay n st i bp site).calls = st.calls := by
  cases site with
  | error e => exact ⟨rfl, rfl⟩
  | ok v =>
    have hv := hsite v rfl
    cases hcov : coversReadExecute (host.mappings st.mem) v.toNat relaySlotSize with
    | false =>
      rw [step_inaccessible _ _ _ _ _ _ _ _ hcov]
      exact ⟨rfl, rfl⟩
    | true =>
      by_cases hcs : bp.cavesize < minCaveSize ∨ maxCaveSize < bp.cavesize
      · obtain ⟨log, hinit⟩ := init_badCaveSize reg bp v (relay + (i * relaySlotSize).toUInt64) hv hcs
        rw [step_init _ _ _ _ _ _ _ _ hcov, hinit]
        exact ⟨rfl, rfl⟩
      cases hcb : reg.callback? bp.key with
      | none =>
        rw [step_init _ _ _ _ _ _ _ _ hcov,
          init_callback reg bp v (relay + (i * relaySlotSize).toUInt64) hv hcs]
        dsimp only
        rw [hcb]
        exact ⟨rfl, rfl⟩
      | some k =>
        -- every check passed, so the request is not refused
        rw [stage, if_pos ⟨hcov, hcs, by rw [hcb]; rfl⟩] at h
        split at h <;> cases h

/-- A request that passes its checks reaches its trampoline exactly when its relay reaches. -/
theorem found_of_stage (h : stage host reg relay st i bp site ≠ .refused) :
    ∃ v k, site = .ok v ∧ coversReadExecute (host.mappings st.mem) v.toNat relaySlotSize = true ∧
      ¬(bp.cavesize < minCaveSize ∨ maxCaveSize < bp.cavesize) ∧ reg.callback? bp.key = some k ∧
      (stage host reg relay st i bp site = .called ↔
        (relayReach host.decode (relay + (i * relaySlotSize).toUInt64) v bp.cavesize
          (host.read st.mem v bp.cavesize)).isOk = true) := by
  cases site with
  | error e => exact absurd rfl h
  | ok v =>
    by_cases hc : coversReadExecute (host.mappings st.mem) v.toNat relaySlotSize = true ∧
        ¬(bp.cavesize < minCaveSize ∨ maxCaveSize < bp.cavesize) ∧
        (reg.callback? bp.key).isSome = true
    · obtain ⟨hcov, hcs, hsome⟩ := hc
      obtain ⟨k, hk⟩ := Option.isSome_iff_exists.mp hsome
      refine ⟨v, k, rfl, hcov, hcs, hk, ?_⟩
      rw [stage, if_pos ⟨hcov, hcs, hsome⟩]
      split <;> rename_i hr
      · exact ⟨fun _ => hr, fun _ => rfl⟩
      · exact ⟨fun hc => (by cases hc), fun hc => absurd hc hr⟩
    · rw [stage, if_neg hc] at h
      exact absurd rfl h

/-- Installing keeps the descriptors. -/
theorem breakpoints_install (hlaw : host.Lawful) (bp' : Breakpoint κ)
    (hmin : minCaveSize ≤ bp'.cavesize)
    (hmax : bp'.cavesize ≤ maxCaveSize) (st' : Progress κ σ)
    (hroom' : trampolineLength ≤ st'.calls.remaining) :
    (install host place i bp' st').1.breakpoints = st'.breakpoints := by
  rcases install_cases host place i bp' st' hlaw hmin hmax hroom' with
    ⟨e, -, hins⟩ | ⟨calls, -, -, -, -, ⟨e, -, hins⟩ | ⟨d, -, -, hins⟩⟩ <;>
    rw [hins]

/-- A request that passes its checks has an accepted cave size and is installed with its
descriptor; it reaches its trampoline exactly when its relay reaches. -/
theorem step_of_stage (place : Placement) (n : Nat) (hsite : ∀ v, site = .ok v → v ≠ 0)
    (h : stage host reg relay st i bp site ≠ .refused) :
    ∃ v k, site = .ok v ∧ minCaveSize ≤ bp.cavesize ∧ bp.cavesize ≤ maxCaveSize ∧
      (stage host reg relay st i bp site = .called ↔
        (relayReach host.decode (relay + (i * relaySlotSize).toUInt64) v bp.cavesize
          (host.read st.mem v bp.cavesize)).isOk = true) ∧
      step host reg place relay n st i bp site =
        record n i (.ok v) bp.name
          { bp with callback := some k, addr := v, cave := relay + (i * relaySlotSize).toUInt64 }
          (install host place i
            { bp with callback := some k, addr := v, cave := relay + (i * relaySlotSize).toUInt64 }
            { st with log := st.log ++ [] }) := by
  obtain ⟨v, k, rfl, hcov, hcs, hcb, hcalled⟩ := found_of_stage h
  exact ⟨v, k, rfl, by omega, by omega, hcalled,
    step_of_found host reg place relay n st i bp (hsite v rfl) hcov hcs hcb⟩

section Found

variable (place n) (hlaw : host.Lawful) (hsite : ∀ v, site = .ok v → v ≠ 0)
  (hroom : trampolineLength ≤ st.calls.remaining)
include hlaw hsite hroom

/-- A request whose relay does not reach writes its relay slot, rebuilt from the slot as it
was, and leaves the call cave as it was. -/
theorem step_relayed (h : stage host reg relay st i bp site = .relayed) :
    ∃ v, site = .ok v ∧ (step host reg place relay n st i bp site).calls = st.calls ∧
      (step host reg place relay n st i bp site).mem =
        host.write st.mem (relay + (i * relaySlotSize).toUInt64)
          (buildRelay host.decode { bp with addr := v, cave := relay + (i * relaySlotSize).toUInt64 }
            (host.read st.mem v bp.cavesize)
            (host.read st.mem (relay + (i * relaySlotSize).toUInt64) relaySlotSize).toArray).1.toList := by
  obtain ⟨v, k, rfl, hmin, hmax, hcalled, hstep⟩ := step_of_stage place n hsite (by rw [h]; decide)
  refine ⟨v, rfl, ?_⟩
  rw [hstep]
  rcases install_cases host place i
      { bp with callback := some k, addr := v, cave := relay + (i * relaySlotSize).toUInt64 }
      { st with log := st.log ++ [] } hlaw hmin hmax hroom with
    ⟨e, -, hins⟩ | ⟨calls, -, -, -, hrel, -⟩
  · rw [hins]
    exact ⟨rfl, rfl⟩
  · -- a relay that reaches would have taken the request to its trampoline
    dsimp only at hrel
    have hc := hcalled.mpr (by rw [hrel]; rfl)
    rw [h] at hc
    cases hc

/-- A request whose relay reaches writes its relay slot, then a trampoline for its descriptor at
the call cave's next address, which moves on by a trampoline; then the site's call, when it
reaches, of the site's cave size. -/
theorem step_called (h : stage host reg relay st i bp site = .called) :
    ∃ v, site = .ok v ∧
      (step host reg place relay n st i bp site).calls.base = st.calls.base ∧
      (step host reg place relay n st i bp site).calls.data.size = st.calls.data.size ∧
      (step host reg place relay n st i bp site).calls.pos = st.calls.pos + trampolineLength ∧
      let relayed := host.write st.mem (relay + (i * relaySlotSize).toUInt64)
        (buildRelay host.decode { bp with addr := v, cave := relay + (i * relaySlotSize).toUInt64 }
          (host.read st.mem v bp.cavesize)
          (host.read st.mem (relay + (i * relaySlotSize).toUInt64) relaySlotSize).toArray).1.toList
      let placed := host.write relayed st.calls.address
        ((Trampoline.new place.dispatchEntry).withContext (place.descriptorAt i))
      ((step host reg place relay n st i bp site).mem = placed ∨
        ∃ patch : Bytes, patch.length = bp.cavesize ∧
          (step host reg place relay n st i bp site).mem = host.write placed v patch) := by
  obtain ⟨v, k, rfl, hmin, hmax, hcalled, hstep⟩ := step_of_stage place n hsite (by rw [h]; decide)
  refine ⟨v, rfl, ?_⟩
  have hmin5 : 5 ≤ bp.cavesize := hmin
  rw [hstep]
  rcases install_cases host place i
      { bp with callback := some k, addr := v, cave := relay + (i * relaySlotSize).toUInt64 }
      { st with log := st.log ++ [] } hlaw hmin hmax hroom with
    ⟨e, hrel, -⟩ | ⟨calls, hbase, hsize, hrem, -, hcall⟩
  · -- a relay that does not reach would have stopped the request there
    dsimp only at hrel
    have hc := hcalled.mp h
    rw [hrel] at hc
    cases hc
  · -- the call cave's position moves on by exactly the trampoline's length
    have hpos : calls.pos = st.calls.pos + trampolineLength := by
      have := calls.pos_le
      have := st.calls.pos_le
      unfold CodeBuffer.remaining at hrem hroom
      dsimp only at hsize hrem
      omega
    rcases hcall with ⟨e, -, hins⟩ | ⟨d, -, -, hins⟩
    · rw [hins]
      exact ⟨hbase, hsize, hpos, .inl rfl⟩
    · rw [hins]
      refine ⟨hbase, hsize, hpos, .inr ⟨_, ?_, rfl⟩⟩
      simp only [List.length_append, CodeBuffer.length_branch, List.length_replicate]
      omega

/-- Every request leaves a descriptor after those before it, and a request that passes the map
and cave size checks leaves one whose relay slot is slot `i` of the relay cave. -/
theorem breakpoints_step :
    ∃ bp', (step host reg place relay n st i bp site).breakpoints = st.breakpoints ++ [bp'] ∧
      ∀ v, site = .ok v → coversReadExecute (host.mappings st.mem) v.toNat relaySlotSize = true →
        ¬(bp.cavesize < minCaveSize ∨ maxCaveSize < bp.cavesize) →
        bp'.cave = relay + (i * relaySlotSize).toUInt64 := by
  cases site with
  | error e => exact ⟨bp, rfl, fun v hv => nomatch hv⟩
  | ok v =>
    have hv := hsite v rfl
    cases hcov : coversReadExecute (host.mappings st.mem) v.toNat relaySlotSize with
    | false =>
      refine ⟨bp, by rw [step_inaccessible _ _ _ _ _ _ _ _ hcov]; rfl, ?_⟩
      intro v' hv' hc
      cases hv'
      rw [hcov] at hc
      cases hc
    | true =>
      by_cases hcs : bp.cavesize < minCaveSize ∨ maxCaveSize < bp.cavesize
      · obtain ⟨log, hinit⟩ := init_badCaveSize reg bp v (relay + (i * relaySlotSize).toUInt64) hv hcs
        exact ⟨bp, by rw [step_init _ _ _ _ _ _ _ _ hcov, hinit]; rfl,
          fun _ _ _ hcs' => absurd hcs hcs'⟩
      cases hcb : reg.callback? bp.key with
      | none =>
        refine ⟨{ bp with callback := none, addr := v, cave := relay + (i * relaySlotSize).toUInt64 },
          ?_, fun _ _ _ _ => rfl⟩
        rw [step_init _ _ _ _ _ _ _ _ hcov,
          init_callback reg bp v (relay + (i * relaySlotSize).toUInt64) hv hcs]
        dsimp only
        rw [hcb]
        rfl
      | some k =>
        refine ⟨{ bp with callback := some k, addr := v, cave := relay + (i * relaySlotSize).toUInt64 },
          ?_, fun _ _ _ _ => rfl⟩
        have hmin : minCaveSize ≤ bp.cavesize := by omega
        have hmax : bp.cavesize ≤ maxCaveSize := by omega
        rw [step_of_found host reg place relay n st i bp hv hcov hcs hcb, breakpoints_record,
          breakpoints_install hlaw
            { bp with callback := some k, addr := v, cave := relay + (i * relaySlotSize).toUInt64 }
            hmin hmax { st with log := st.log ++ [] } hroom]

end Found

/-- The bytes request `i` may write in the progress `st`: its relay slot, the call cave's next
trampoline, and its site. -/
def Footprint (relay : Word) (st : Progress κ σ) (i : Nat) (bp : Breakpoint κ)
    (site : Except BreakpointError Word) (x : Word) : Prop :=
  InRange (relay + (i * relaySlotSize).toUInt64) relaySlotSize x ∨
    InRange st.calls.address trampolineLength x ∨ ∃ v, site = .ok v ∧ InRange v bp.cavesize x

/-- One request changes no byte outside its footprint. -/
theorem step_frame (hp : host.Plain) (hsite : ∀ v, site = .ok v → v ≠ 0)
    (hroom : trampolineLength ≤ st.calls.remaining) {x : Word}
    (hx : ¬Footprint relay st i bp site x) :
    host.byteAt (step host reg place relay n st i bp site).mem x = host.byteAt st.mem x := by
  simp only [Footprint, not_or, not_exists, not_and] at hx
  obtain ⟨hslot, htramp, hsite'⟩ := hx
  have hread := hp.length_read
  -- a relay slot is written whole
  have hslot' : ∀ (b : Breakpoint κ) d, ¬InRange (relay + (i * relaySlotSize).toUInt64)
      (buildRelay host.decode b d (host.read st.mem (relay + (i * relaySlotSize).toUInt64)
        relaySlotSize).toArray).1.toList.length x := by
    intro b d
    simpa [size_buildRelay, hread] using hslot
  have htramp' : ¬InRange st.calls.address
      ((Trampoline.new place.dispatchEntry).withContext (place.descriptorAt i)).length x := by
    rwa [Trampoline.length_withContext]
  cases hs : stage host reg relay st i bp site with
  | refused => rw [(step_refused hsite hs).1]
  | relayed =>
    obtain ⟨v, -, -, hmem⟩ := step_relayed place n hp.lawful hsite hroom hs
    rw [hmem, hp.byteAt_write_of_not (hslot' _ _)]
  | called =>
    obtain ⟨v, rfl, -, -, -, hmem⟩ := step_called place n hp.lawful hsite hroom hs
    rcases hmem with hmem | ⟨patch, hplen, hmem⟩
    · rw [hmem, hp.byteAt_write_of_not htramp', hp.byteAt_write_of_not (hslot' _ _)]
    · rw [hmem, hp.byteAt_write_of_not (by rw [hplen]; exact hsite' v rfl),
        hp.byteAt_write_of_not htramp', hp.byteAt_write_of_not (hslot' _ _)]

end Step

/-! ### No request runs out of room -/

/-- A relay fails only with a branch out of reach. -/
theorem relayReach_ne_overflow (dec : Decoder) (cave site : Word) (len : Nat) (displaced : Bytes)
    (a b : Nat) : relayReach dec cave site len displaced ≠ .error (.overflow a b) := by
  unfold relayReach
  cases leadingBranch? dec displaced site with
  | none =>
    dsimp only
    rw [rel32_map_unit]
    split <;> simp [Except.bind]
  | some lead =>
    dsimp only
    rw [rel32_map_unit, rel32_map_unit]
    split <;> split <;> simp [Except.bind]

theorem rel32_error {site target : Word} {e : CodeError} (h : rel32 site target = .error e) :
    e = .outOfRange site target := by
  unfold rel32 at h
  dsimp only at h
  split at h <;> cases h
  rfl

/-- The code of a breakpoint fails only with a branch out of reach or a site that cannot be
made writable, and never for want of room, in the relay or in the site's patch. -/
theorem codeCheck_ne_overflow (host : Host σ) (mem : σ) (cave site : Word) (len : Nat)
    (entry : Word) (a b : Nat) :
    codeCheck host mem cave site len entry ≠ .error (.code (.overflow a b)) ∧
      codeCheck host mem cave site len entry ≠ .error (.patch (.code (.overflow a b))) := by
  unfold codeCheck
  cases h : relayReach host.decode cave site len (host.read mem site len) with
  | error e =>
    have he : e ≠ .overflow a b := fun he => relayReach_ne_overflow _ _ _ _ _ a b (he ▸ h)
    exact ⟨fun h' => he (by cases h'; rfl), fun h' => by cases h'⟩
  | ok u =>
    obtain ⟨⟩ := u
    -- past the relay, the site's call fails only out of reach and protection only as such
    cases hr : rel32 site entry with
    | error e =>
      rw [rel32_error hr]
      simp
    | ok d => cases host.protect mem site len <;> simp [Except.mapError]

theorem siteOf_ne_code (r : Resolution) (text : String) (e : CodeError) (h : HookError) :
    siteOf r text ≠ .error (.code e) ∧ siteOf r text ≠ .error (.patch h) := by
  unfold siteOf
  split
  · split_ifs <;> simp
  · split_ifs <;> simp

/-- No request fails for want of room: its code either fits or has a branch out of reach, and
its site's patch fits. -/
theorem verdict_ne_overflow (host : Host σ) (reg : Registry κ) (relay : Word) (st : Progress κ σ)
    (i : Nat) (bp : Breakpoint κ) {site : Except BreakpointError Word}
    (hsite : ∀ e h, site ≠ .error (.code e) ∧ site ≠ .error (.patch h)) (a b : Nat) :
    verdict host reg relay st i bp site ≠ .error (.code (.overflow a b)) ∧
      verdict host reg relay st i bp site ≠ .error (.patch (.code (.overflow a b))) := by
  unfold verdict
  cases site with
  | error e =>
    -- the site's own failure is passed on as it is
    dsimp only
    refine ⟨fun h => ?_, fun h => ?_⟩ <;> cases h
    · exact (hsite (.overflow a b) (.protection .unmappedRegion)).1 rfl
    · exact (hsite (.overflow a b) (.code (.overflow a b))).2 rfl
  | ok v =>
    dsimp only
    split_ifs
    · simp
    · simp
    · simp
    · exact codeCheck_ne_overflow _ _ _ _ _ _ a b

/-! ### A run of requests -/

/-- The number of requests before `j` that reached their trampoline, in the run from `start`. -/
def calledBefore (host : Host σ) (reg : Registry κ) (place : Placement) (relay : Word) (n : Nat)
    (start : Progress κ σ) (items : List (Breakpoint κ × Except BreakpointError Word)) (j : Nat) :
    Nat :=
  ((items.take j).zipIdx.filter fun x =>
    stage host reg relay (before host reg place relay n start items x.2) x.2 x.1.1 x.1.2 = .called).length

section Run

variable {host : Host σ} {reg : Registry κ} {place : Placement} {relay : Word} {n : Nat}
  {start : Progress κ σ} {items : List (Breakpoint κ × Except BreakpointError Word)}

theorem calledBefore_succ {j : Nat} (hj : j < items.length) :
    calledBefore host reg place relay n start items (j + 1) =
      calledBefore host reg place relay n start items j +
        if stage host reg relay (before host reg place relay n start items j) j
          items[j].1 items[j].2 = .called then 1 else 0 := by
  unfold calledBefore
  rw [List.take_add_one, List.getElem?_eq_getElem hj, Option.toList_some, List.zipIdx_append,
    List.filter_append, List.length_append, List.length_take, Nat.min_eq_left (Nat.le_of_lt hj)]
  by_cases hc : stage host reg relay (before host reg place relay n start items j) j
    items[j].1 items[j].2 = .called <;> simp [hc]

theorem calledBefore_le (j : Nat) : calledBefore host reg place relay n start items j ≤ j := by
  unfold calledBefore
  calc _ ≤ (items.take j).zipIdx.length := List.length_filter_le _ _
    _ ≤ j := by
      rw [List.length_zipIdx, List.length_take]
      exact Nat.min_le_left _ _

theorem calledBefore_mono {j j' : Nat} (hjj : j ≤ j') (hj' : j' ≤ items.length) :
    calledBefore host reg place relay n start items j ≤
      calledBefore host reg place relay n start items j' := by
  obtain ⟨d, rfl⟩ := Nat.exists_eq_add_of_le hjj
  clear hjj
  induction d with
  | zero => exact Nat.le_refl _
  | succ d ih =>
    rw [← Nat.add_assoc, calledBefore_succ (by omega)]
    exact Nat.le_trans (ih (by omega)) (Nat.le_add_right _ _)

section Invariants

variable (hlaw : host.Lawful)
  (hsite : ∀ p ∈ items, ∀ v, p.2 = .ok v → v ≠ 0)
  (hroom : trampolineLength * items.length ≤ start.calls.remaining)
include hlaw hsite hroom

/-- The call cave moves on by one trampoline for each request that reached its trampoline. -/
theorem pos_before : ∀ j ≤ items.length,
    (before host reg place relay n start items j).calls.pos =
      start.calls.pos + trampolineLength * calledBefore host reg place relay n start items j := by
  intro j
  induction j with
  | zero =>
    intro _
    simp [calledBefore]
  | succ j ih =>
    intro hj
    have hlt : j < items.length := hj
    have hs := hsite items[j] (List.getElem_mem hlt)
    have hroom_j := room_at reg place relay n hlaw hsite hroom hlt
    rw [before_succ hlt, calledBefore_succ hlt, Nat.mul_add, ← Nat.add_assoc, ← ih (Nat.le_of_lt hlt)]
    -- the request moves the call cave on exactly when it reaches its trampoline
    cases hst : stage host reg relay (before host reg place relay n start items j) j
      items[j].1 items[j].2 with
    | refused => simp [(step_refused hs hst).2]
    | relayed =>
      obtain ⟨-, -, hcalls, -⟩ := step_relayed place n hlaw hs hroom_j hst
      simp [hcalls]
    | called =>
      obtain ⟨-, -, -, -, hpos, -⟩ := step_called place n hlaw hs hroom_j hst
      simp [hpos]

/-- Every step of a run changes no byte outside its request's footprint. -/
theorem byteAt_before (hp : host.Plain) {a b : Nat} (hab : a ≤ b) (hb : b ≤ items.length)
    {x : Word} (hx : ∀ t (ht : t < items.length), a ≤ t → t < b →
      ¬Footprint relay (before host reg place relay n start items t) t items[t].1 items[t].2 x) :
    host.byteAt (before host reg place relay n start items b).mem x =
      host.byteAt (before host reg place relay n start items a).mem x := by
  obtain ⟨d, rfl⟩ := Nat.exists_eq_add_of_le hab
  induction d with
  | zero => rfl
  | succ d ih =>
    have hlt : a + d < items.length := by omega
    rw [← Nat.add_assoc, before_succ hlt,
      step_frame hp (hsite _ (List.getElem_mem hlt)) (room_at reg place relay n hlaw hsite hroom hlt)
        (hx (a + d) hlt (by omega) (by omega))]
    exact ih (by omega) (by omega) fun t ht h1 h2 => hx t ht h1 (by omega)

/-- Request `j` leaves its descriptor after those before it; when it passes the map and cave
size checks, the descriptor's relay slot is slot `j`. -/
theorem breakpoints_before_succ {j : Nat} (hj : j < items.length) :
    ∃ bp', (before host reg place relay n start items (j + 1)).breakpoints =
        (before host reg place relay n start items j).breakpoints ++ [bp'] ∧
      ∀ v, items[j].2 = .ok v →
        coversReadExecute (host.mappings (before host reg place relay n start items j).mem) v.toNat
          relaySlotSize = true →
        ¬(items[j].1.cavesize < minCaveSize ∨ maxCaveSize < items[j].1.cavesize) →
        bp'.cave = relay + (j * relaySlotSize).toUInt64 := by
  rw [before_succ hj]
  exact breakpoints_step place n hlaw (hsite _ (List.getElem_mem hj))
    (room_at reg place relay n hlaw hsite hroom hj)

/-- The descriptors of the requests before `j` are kept by every later request. -/
theorem breakpoints_before_append {j : Nat} : ∀ j', j ≤ j' → j' ≤ items.length →
    ∃ rest, (before host reg place relay n start items j').breakpoints =
      (before host reg place relay n start items j).breakpoints ++ rest := by
  intro j' hjj hj'
  obtain ⟨d, rfl⟩ := Nat.exists_eq_add_of_le hjj
  clear hjj
  induction d with
  | zero => exact ⟨[], by simp⟩
  | succ d ih =>
    have hlt : j + d < items.length := by omega
    obtain ⟨rest, hrest⟩ := ih (by omega)
    obtain ⟨bp', hbp', -⟩ := breakpoints_before_succ hlaw hsite hroom hlt
    exact ⟨rest ++ [bp'], by rw [← Nat.add_assoc, hbp', hrest, List.append_assoc]⟩

/-- After the run, request `j`'s descriptor names slot `j` of the relay cave once the request
passed its map and cave size checks. -/
theorem cave_before (hstart : start.breakpoints = []) {j : Nat} (hj : j < items.length) {v : Word}
    (hv : items[j].2 = .ok v)
    (hcov : coversReadExecute (host.mappings (before host reg place relay n start items j).mem)
      v.toNat relaySlotSize = true)
    (hcs : ¬(items[j].1.cavesize < minCaveSize ∨ maxCaveSize < items[j].1.cavesize)) :
    (before host reg place relay n start items items.length).breakpoints[j]?.map Breakpoint.cave =
      some (relay + (j * relaySlotSize).toUInt64) := by
  obtain ⟨bp', hsucc, hcave⟩ := breakpoints_before_succ hlaw hsite hroom hj
  obtain ⟨rest, hrest⟩ := breakpoints_before_append hlaw hsite hroom items.length hj (Nat.le_refl _)
  -- the descriptors before request `j` are one for each request
  have hlen : (before host reg place relay n start items j).breakpoints.length = j := by
    have := congrArg List.length
      (names_before reg place relay n hlaw hsite hroom j (Nat.le_of_lt hj))
    simp only [List.length_map, hstart, List.map_nil, List.nil_append, List.length_take] at this
    omega
  rw [hrest, hsucc, List.append_assoc, List.getElem?_append_right (by omega), hlen, Nat.sub_self]
  simp [hcave v hv hcov hcs]

end Invariants

end Run

end Batch

end Intercept
