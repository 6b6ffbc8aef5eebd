import Mathlib.Data.List.Forall2
import Intercept.Proofs.Batch.Outcome
import Intercept.Proofs.Cave
/-!
# Site patches and the code

Setting up a batch in the service's world changes its code only by the call hooks of the
installed requests, written at their sites in request order; a request that fails writes no code
byte, however far it got.  The relays, the trampolines and the `int3` filling of the relay cave
all go to caves, and caves never meet the code: they are cut from pools that lie clear of every
mapping of the memory map (`Cave.allocate_clear`).

* `code_of_advance` — what a request writes short of its site patch misses the code;
* `code_step` — one request leaves the code as it was, or patches its site;
* `code_before` — the run lemma: the code is the old code with the hooks so far written over it;
* `apply_code` — the same for a whole batch, from the code before it.
-/

namespace Intercept.Service

open Batch Code Cave

variable {κ : Type}

/-- The mapping of the code region in the memory map. -/
def codeMapping : Mapping := ⟨codeBase.toNat, codeSize, true⟩

theorem codeMapping_mem : codeMapping ∈ mappings := by
  simp [mappings, codeMapping]

/-- `len` bytes from `a` on lie clear of the code and below the top of the address space. -/
def OffCode (a len : Nat) : Prop := Clear codeMapping a len ∧ a + len ≤ 2 ^ 64

theorem OffCode.mono {a len b size : Nat} (h : OffCode b size) (hlo : b ≤ a)
    (hhi : a + len ≤ b + size) : OffCode a len := by
  obtain ⟨hclear, htop⟩ := h
  refine ⟨?_, by omega⟩
  unfold Clear at hclear ⊢
  omega

/-- The world's code region, where the memory map says it is. -/
def CodeInPlace (w : World) : Prop := w.code.base = codeBase ∧ w.code.size = codeSize

@[simp] theorem code_writeMemory (w : World) (a : Word) (bs : Bytes) :
    (w.writeMemory a bs).code = w.code.write a bs := rfl

theorem CodeInPlace.initial : CodeInPlace World.initial :=
  ⟨rfl, by simp [World.initial, Region.filled, Region.size]⟩

theorem CodeInPlace.writeMemory {w : World} (h : CodeInPlace w) (a : Word) (bs : Bytes) :
    CodeInPlace (w.writeMemory a bs) := by
  simp only [CodeInPlace, code_writeMemory, Region.base_write, Region.size_write]
  exact h

/-- A write clear of the code leaves the code as it was. -/
theorem code_writeMemory_of_offCode {w : World} (h : CodeInPlace w) {a : Word} {bs : Bytes}
    (hoff : OffCode a.toNat bs.length) : (w.writeMemory a bs).code = w.code := by
  obtain ⟨hclear, htop⟩ := hoff
  rw [code_writeMemory]
  apply Region.write_eq_self _ htop
  · rw [h.1, h.2]
    unfold Clear codeMapping Mapping.stop at hclear
    simp only at hclear
    omega
  · rw [h.1, h.2]
    decide

/-- The next trampoline of a call cave clear of the code, with a trampoline's room left, lies
clear of the code too. -/
theorem offCode_address {b : CodeBuffer} (hoff : OffCode b.base.toNat b.data.size)
    (hroom : trampolineLength ≤ b.remaining) : OffCode b.address.toNat trampolineLength := by
  have hpos : b.pos + trampolineLength ≤ b.data.size := by
    unfold CodeBuffer.remaining at hroom
    unfold trampolineLength at hroom ⊢
    omega
  have htop := hoff.2
  have haddr : b.address.toNat = b.base.toNat + b.pos := by
    unfold CodeBuffer.address
    rw [UInt64.toNat_add, UInt64.toNat_ofNat']
    unfold trampolineLength at hpos
    omega
  rw [haddr]
  exact hoff.mono (Nat.le_add_right _ _) (by omega)

/-- Relay slot `i` of a relay cave of `n` slots clear of the code lies clear of it too. -/
theorem offCode_slot {relay : Word} {n i : Nat} (hoff : OffCode relay.toNat (n * relaySlotSize))
    (hi : i < n) : OffCode (relay + (i * relaySlotSize).toUInt64).toNat relaySlotSize := by
  have htop := hoff.2
  unfold relaySlotSize at htop ⊢
  have haddr : (relay + (i * 32).toUInt64).toNat = relay.toNat + i * 32 := by
    rw [UInt64.toNat_add, UInt64.toNat_ofNat']
    omega
  rw [haddr]
  exact hoff.mono (Nat.le_add_right _ _) (by unfold relaySlotSize; omega)

/-- Placing the caves of a batch in a world whose pools lie clear of the code: the caves lie
clear of it too, and the code is as it was. -/
theorem placeCaves_offCode {w w' : World} {origin relay call : Word} {n : Nat}
    (hcode : CodeInPlace w) (hpools : ∀ p ∈ w.pools, p.Sound ∧ Clear codeMapping p.start p.size)
    (hn : 0 < n) (h : placeCaves World.host w origin n = some (relay, call, w')) :
    OffCode relay.toNat (n * relaySlotSize) ∧ OffCode call.toNat (n * trampolineLength) ∧
      CodeInPlace w' ∧ w'.code = w.code := by
  unfold placeCaves at h
  simp only [World.host] at h
  cases h1 : allocate firstFit mappings w.pools origin.toNat (n * relaySlotSize) with
  | none => simp [h1] at h
  | some r1 =>
    obtain ⟨a1, pools1⟩ := r1
    cases h2 : allocate firstFit mappings pools1 origin.toNat (n * trampolineLength) with
    | none => simp [h1, h2] at h
    | some r2 =>
      obtain ⟨a2, pools2⟩ := r2
      simp only [h1, h2, Option.map_some, Option.bind_some, Option.some.injEq, Prod.mk.injEq,
        bind, pure] at h
      obtain ⟨rfl, rfl, rfl⟩ := h
      have hpos1 : 0 < n * relaySlotSize := Nat.mul_pos hn (by unfold relaySlotSize; omega)
      have hpos2 : 0 < n * trampolineLength := Nat.mul_pos hn (by unfold trampolineLength; omega)
      -- both caves are cut clear of the code, each from pools that are
      have hrelay := allocate_clear codeMapping_mem hpools h1
      have hcall := allocate_clear codeMapping_mem hrelay.2.2 h2
      have ha1 : a1.toUInt64.toNat = a1 := by
        rw [UInt64.toNat_ofNat']
        exact Nat.mod_eq_of_lt (by omega)
      have ha2 : a2.toUInt64.toNat = a2 := by
        rw [UInt64.toNat_ofNat']
        exact Nat.mod_eq_of_lt (by omega)
      have hoff1 : OffCode a1.toUInt64.toNat (n * relaySlotSize) := by
        rw [ha1]
        exact ⟨hrelay.1, hrelay.2.1⟩
      refine ⟨hoff1, by rw [ha2]; exact ⟨hcall.1, hcall.2.1⟩, ?_, ?_⟩
      · exact CodeInPlace.writeMemory hcode _ _
      · exact code_writeMemory_of_offCode hcode (by simpa using hoff1)

/-! ### One request -/

/-- Short of its site patch, a request writes only its relay slot and its trampoline; when both
miss the code, the code is as it was. -/
theorem code_of_advance {st : Progress κ World} {cave : Word} {mem : World} {calls : CodeBuffer}
    (ha : Advance World.host st cave mem calls) (hcode : CodeInPlace st.mem)
    (hcave : OffCode cave.toNat relaySlotSize)
    (hentry : OffCode st.calls.address.toNat trampolineLength) :
    mem.code = st.mem.code := by
  obtain ⟨slot, hslot, hmem | ⟨tramp, htramp, hmem⟩⟩ := ha.written
  · rw [hmem]
    exact code_writeMemory_of_offCode hcode (hslot ▸ hcave)
  · rw [hmem]
    show (World.writeMemory (World.writeMemory st.mem cave slot) st.calls.address tramp).code = _
    rw [code_writeMemory_of_offCode (hcode.writeMemory cave slot) (htramp ▸ hentry)]
    exact code_writeMemory_of_offCode hcode (hslot ▸ hcave)

section Step

variable (reg : Registry κ) (place : Placement) (relay : Word) (n : Nat) {st : Progress κ World}
  (i : Nat) (bp : Breakpoint κ) {site : Except BreakpointError Word}

/-- One request leaves the code as it was, unless it is installed: then it writes at its site
the call hook `assembleCall` makes for a call to the call cave's next address. -/
theorem code_step (hsite : ∀ v, site = .ok v → v ≠ 0) (hroom : trampolineLength ≤ st.calls.remaining)
    (hcode : CodeInPlace st.mem) (hcave : OffCode (relay + (i * relaySlotSize).toUInt64).toNat relaySlotSize)
    (hentry : OffCode st.calls.address.toNat trampolineLength) :
    ((verdict World.host reg relay st i bp site).isOk = false →
      (step World.host reg place relay n st i bp site).mem.code = st.mem.code) ∧
    ((verdict World.host reg relay st i bp site).isOk = true →
      ∃ v patch, site = .ok v ∧ assembleCall v st.calls.address bp.cavesize = .ok patch ∧
        (step World.host reg place relay n st i bp site).mem.code = st.mem.code.write v patch) := by
  rcases step_cases World.host reg place relay n st i bp World.host_lawful hsite hroom with
    ⟨e, bp', l, hv, hs, -⟩ | ⟨e, bp', mem, calls, hv, ha, hs, -⟩ |
      ⟨v, bp', mem, calls, patch, hsv, hv, -, -, -, ha, hpatch, hs⟩
  · -- refused before writing anything
    rw [hs]
    refine ⟨fun _ => rfl, fun h => ?_⟩
    rw [hv] at h
    cases h
  · -- stopped after writing to the caves only
    rw [hs]
    refine ⟨fun _ => code_of_advance ha hcode hcave hentry, fun h => ?_⟩
    rw [hv] at h
    cases h
  · -- installed: the caves, then the site
    rw [hs]
    refine ⟨fun h => ?_, fun _ => ⟨v, patch, hsv, hpatch, ?_⟩⟩
    · rw [hv] at h
      cases h
    · show (World.writeMemory mem v patch).code = _
      rw [code_writeMemory, code_of_advance ha hcode hcave hentry]

end Step

/-! ### A run of requests -/

section Run

variable (reg : Registry κ) (place : Placement) (relay : Word) (n : Nat) {start : Progress κ World}
  {items : List (Breakpoint κ × Except BreakpointError Word)}

/-- The code after the first `j` requests of a run: the code before, with the call hooks of the
installed ones written over it in order.  Each hook is the one `assembleCall` makes at the
request's site for a call to the address its trampoline went to.  The relay cave and the call
cave lie clear of the code. -/
theorem code_before (hsite : ∀ p ∈ items, ∀ v, p.2 = .ok v → v ≠ 0)
    (hroom : trampolineLength * items.length ≤ start.calls.remaining)
    (hcode : CodeInPlace start.mem) (hrelay : OffCode relay.toNat (items.length * relaySlotSize))
    (hcalls : OffCode start.calls.base.toNat start.calls.data.size) :
    ∀ j ≤ items.length, CodeInPlace (before World.host reg place relay n start items j).mem ∧
      ∃ hooks : List (Word × Bytes),
        List.Forall₂ (fun k hook => ∃ bp, items[k]? = some (bp, .ok hook.1) ∧
            assembleCall hook.1 (before World.host reg place relay n start items k).calls.address
              bp.cavesize = .ok hook.2)
          (((items.take j).zipIdx.filter fun x =>
            (verdict World.host reg relay (before World.host reg place relay n start items x.2) x.2
              x.1.1 x.1.2).isOk).map Prod.snd) hooks ∧
        (before World.host reg place relay n start items j).mem.code =
          hooks.foldl (fun code hook => code.write hook.1 hook.2) start.mem.code := by
  intro j
  induction j with
  | zero =>
    intro _
    exact ⟨hcode, [], by simp, rfl⟩
  | succ j ih =>
    intro hj
    have hlt : j < items.length := hj
    obtain ⟨hcode_j, hooks, hrel, hcode_eq⟩ := ih (Nat.le_of_lt hlt)
    -- request `j` finds its relay slot and its trampoline's place clear of the code
    have hroom_j := room_at reg place relay n World.host_lawful hsite hroom hlt
    obtain ⟨hbase, hsize⟩ := calls_before reg place relay n World.host_lawful hsite hroom j (Nat.le_of_lt hlt)
    have hentry := offCode_address (by rw [hbase, hsize]; exact hcalls) hroom_j
    obtain ⟨hfail, hok⟩ := code_step reg place relay n j items[j].1
      (hsite items[j] (List.getElem_mem hlt)) hroom_j hcode_j (offCode_slot hrelay hlt) hentry
    rw [List.take_add_one, List.getElem?_eq_getElem hlt, Option.toList_some, List.zipIdx_append,
      List.filter_append, List.map_append, List.length_take, Nat.min_eq_left (Nat.le_of_lt hlt),
      before_succ hlt]
    cases hv : (verdict World.host reg relay (before World.host reg place relay n start items j) j
      items[j].1 items[j].2).isOk with
    | false =>
      -- a failed request leaves the code, and the hooks, as they were
      have hsame := hfail hv
      refine ⟨?_, hooks, by simpa [hv] using hrel, by rw [hsame, hcode_eq]⟩
      unfold CodeInPlace
      rw [hsame]
      exact hcode_j
    | true =>
      -- an installed request adds its hook
      obtain ⟨v, patch, hsv, hpatch, hwrite⟩ := hok hv
      refine ⟨?_, hooks ++ [(v, patch)], ?_, ?_⟩
      · unfold CodeInPlace
        rw [hwrite, Region.base_write, Region.size_write]
        exact hcode_j
      · have hnew : ∃ bp, items[j]? = some (bp, .ok v) ∧
            assembleCall v (before World.host reg place relay n start items j).calls.address
              bp.cavesize = .ok patch :=
          ⟨items[j].1, by rw [List.getElem?_eq_getElem hlt, ← hsv], hpatch⟩
        simpa [hv] using List.rel_append hrel (List.Forall₂.cons hnew .nil)
      · rw [hwrite, hcode_eq, List.foldl_append]
        rfl

end Run

/-- The run of a batch's requests, from caves placed clear of the code, writes the hooks of the
installed requests over the code, in order. -/
theorem code_run (reg : Registry κ) (place : Placement) (module : Option Word)
    (requests : List Request) (relay call : Word) (w' : World) (log : Log)
    (hcode : CodeInPlace w') (hrelay : OffCode relay.toNat (requests.length * relaySlotSize))
    (hcalls : OffCode call.toNat (requests.length * trampolineLength)) :
    let items := requests.map (item reg module)
    let start : Progress κ World := initial w' call requests.length log
    ∃ hooks : List (Word × Bytes),
      List.Forall₂ (fun k hook => ∃ bp, items[k]? = some (bp, .ok hook.1) ∧
          assembleCall hook.1 (before World.host reg place relay requests.length start items k).calls.address
            bp.cavesize = .ok hook.2)
        ((items.zipIdx.filter fun x =>
          (verdict World.host reg relay (before World.host reg place relay requests.length start items x.2)
            x.2 x.1.1 x.1.2).isOk).map Prod.snd) hooks ∧
      (steps World.host reg place relay requests.length start 0 items).mem.code =
        hooks.foldl (fun code hook => code.write hook.1 hook.2) w'.code := by
  intro items start
  have hlen : items.length = requests.length := List.length_map _
  obtain ⟨-, hooks, hrel, hcodeEq⟩ := code_before reg place relay requests.length
    (fun _ hp => site_ne_zero_of_mem reg module requests hp) (room_initial reg module requests w' call log)
    hcode (by rw [hlen]; exact hrelay) (by simpa [start, initial, CodeBuffer.new] using hcalls)
    items.length (Nat.le_refl _)
  rw [List.take_length] at hrel
  rw [before_length] at hcodeEq
  exact ⟨hooks, hrel, hcodeEq⟩

/-! ### A whole batch -/

/-- Setting up a batch in a world whose code is in place and whose pools lie clear of it
changes the code only by the call hooks of the installed requests: the code afterwards is the
code before with, in request order, each installed request's hook written at its site.  The
hook is what `assembleCall` makes for a call from the site to the address the request's
trampoline went to.  A request that fails writes no code byte, and a batch with no caves writes
none at all. -/
theorem apply_code (reg : Registry κ) (place : Placement) (w : World) (module : Option Word)
    (requests : List Request) (hcode : CodeInPlace w)
    (hpools : ∀ p ∈ w.pools, p.Sound ∧ Clear codeMapping p.start p.size) :
    let r := Batch.apply World.host reg place w module requests
    let items := requests.map (item reg module)
    (r.1.caves = none → r.2.1.code = w.code) ∧
    ∀ relay call, r.1.caves = some (relay, call) →
      ∃ o w' log, origin reg module items = some o ∧
        placeCaves World.host w o requests.length = some (relay, call, w') ∧
        ∃ hooks : List (Word × Bytes),
          List.Forall₂ (fun j hook => ∃ bp, items[j]? = some (bp, .ok hook.1) ∧
              assembleCall hook.1 (before World.host reg place relay requests.length
                (initial w' call requests.length log) items j).calls.address bp.cavesize =
                .ok hook.2)
            r.1.installed hooks ∧
          r.2.1.code = hooks.foldl (fun code hook => code.write hook.1 hook.2) w.code := by
  intro r items
  refine ⟨?_, ?_⟩
  · intro hnone
    rcases apply_cases World.host reg place w module requests with
      ⟨-, hmem⟩ | ⟨o, relay, call, w', log, -, -, -, h⟩
    · simp only [r, hmem]
    · simp only [r, h] at hnone
      cases hnone
  · intro relay call hcaves
    rcases apply_cases World.host reg place w module requests with
      ⟨h, -⟩ | ⟨o, relay', call', w', log, hne, ho, hp, h⟩
    · simp only [r, h] at hcaves
      cases hcaves
    simp only [r, h, Option.some.injEq, Prod.mk.injEq] at hcaves
    obtain ⟨rfl, rfl⟩ := hcaves
    -- the caves are placed clear of the code, which they leave as it was
    obtain ⟨hoffR, hoffC, hcode', hsame⟩ :=
      placeCaves_offCode hcode hpools (List.length_pos_of_ne_nil hne) hp
    obtain ⟨hooks, hrel, hcodeEq⟩ :=
      code_run reg place module requests relay' call' w' log hcode' hoffR hoffC
    refine ⟨o, w', log, ho, hp, hooks, ?_, ?_⟩
    · simp only [r, h]
      rw [installed_run reg place module requests World.host_lawful relay' w' call' log]
      exact hrel
    · simp only [r, h, hcodeEq, hsame]

/-- A batch that patches a site: in the initial world, with the `relay` callback registered, one
request at the start of the code is installed, and afterwards the code is the code before with the
call hook to the call cave at `0x40005020` written at `0x40000000`. -/
theorem apply_code_patches_site :
    let reg : Registry Callback := World.initial.registry.registerCallback "relay" .relay
    CodeInPlace World.initial ∧
      (∀ p ∈ World.initial.pools, p.Sound ∧ Clear codeMapping p.start p.size) ∧
      (Batch.apply World.host reg (placementAt 0) World.initial (some 0x40000000)
        [⟨"relay", "Rx0", 6, .null⟩]).1.installed = [0] ∧
      (Batch.apply World.host reg (placementAt 0) World.initial (some 0x40000000)
        [⟨"relay", "Rx0", 6, .null⟩]).2.1.code =
        World.initial.code.write 0x40000000 [0xe8, 0x1b, 0x50, 0x00, 0x00, 0x90] := by
  intro reg
  have hpools : ∀ p ∈ World.initial.pools, p.Sound ∧ Clear codeMapping p.start p.size :=
    fun _ hp => absurd hp List.not_mem_nil
  have hinst : (Batch.apply World.host reg (placementAt 0) World.initial (some 0x40000000)
      [⟨"relay", "Rx0", 6, .null⟩]).1.installed = [0] := by decide +kernel
  have hcaves : (Batch.apply World.host reg (placementAt 0) World.initial (some 0x40000000)
      [⟨"relay", "Rx0", 6, .null⟩]).1.caves = some (0x40005000, 0x40005020) := by decide +kernel
  obtain ⟨-, hsome⟩ :=
    apply_code reg (placementAt 0) World.initial (some 0x40000000) [⟨"relay", "Rx0", 6, .null⟩]
      CodeInPlace.initial hpools
  obtain ⟨o, w', log, -, -, hooks, hrel, hcodeEq⟩ := hsome 0x40005000 0x40005020 hcaves
  rw [hinst] at hrel
  -- the one installed request gives the one hook: its site, and the call to the first trampoline
  obtain ⟨hook, rfl⟩ : ∃ hook, hooks = [hook] := by
    cases hrel with
    | cons _ hnil => cases hnil; exact ⟨_, rfl⟩
  obtain ⟨bp, hitem, hasm⟩ := (List.forall₂_cons.mp hrel).1
  simp only [List.map_cons, List.map_nil, List.getElem?_cons_zero, Option.some.injEq] at hitem
  have hok : (item reg (some 0x40000000) ⟨"relay", "Rx0", 6, .null⟩).2 = .ok 0x40000000 := by decide
  have hv : hook.1 = 0x40000000 := by
    have h := congrArg Prod.snd hitem
    rw [hok] at h
    exact (Except.ok.inj h).symm
  have hbp : bp.cavesize = 6 := by
    have h : (item reg (some 0x40000000) ⟨"relay", "Rx0", 6, .null⟩).1 = bp := congrArg Prod.fst hitem
    rw [← h]
    rfl
  rw [before_zero, hv, hbp] at hasm
  simp only [initial, CodeBuffer.address_new] at hasm
  have hcall : assembleCall 0x40000000 0x40005020 6 = .ok [0xe8, 0x1b, 0x50, 0x00, 0x00, 0x90] := by
    decide
  rw [hcall] at hasm
  refine ⟨CodeInPlace.initial, hpools, hinst, ?_⟩
  rw [hcodeEq, List.foldl_cons, List.foldl_nil, ← Except.ok.inj hasm, hv]

end Intercept.Service
