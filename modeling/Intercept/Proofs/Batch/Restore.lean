import Intercept.Proofs.Batch.Patches
/-!
# Removing batches, and the code they patched

Removing a batch writes back the bytes that each of its site patches saved, in the order the
patches were made, and batches are removed oldest first.  A patch saves the bytes it is about
to overwrite, so writing them back undoes it only if nothing patched those bytes after it: a
later patch of the same bytes saved the earlier call, and writing the patches back in the order
they were made leaves that call in the code.  When no byte is covered by two patches the order
does not matter, and removal brings back the code as it was before the first batch.

A patch is written back only once its bytes are made writable again, and one whose bytes are no
longer all mapped stays, with a line in the log.  The code's own mapping never goes away, so a
patch that lies wholly in the code is always written back, and one that lies wholly outside it
leaves the code alone either way (`SitePatch.OneSided`).

* `SitePatch.Covers`, `SitePatch.Apart` — the bytes of a patch, and patches that share none;
* `Restorable` — the code comes back when a list of patches is written back
  (`Restorable.writeBack`), and a new patch keeps it so (`Restorable.patch`);
* `restorable_step`, `restorable_before`, `restorable_apply` — setting up batches keeps the
  code restorable by the patches made so far, as long as they are apart;
* `protect_of_inCode`, `code_restore` — writing back one patch;
* `code_removeAll` — removal writes every patch back, oldest batch first;
* `removeAll_restores_code` — after batches whose patches are apart and each in the code or
  clear of it, removal restores the code.
-/

namespace Intercept

/-- Whether an address lies in the code region, counted from its base as the region counts. -/
def Service.InCode (x : Word) : Prop := (x - Service.codeBase).toNat < Service.codeSize

namespace SitePatch

/-- Whether a patch covers the byte at `x`: its saved bytes run from its address on, wrapping
past the top of the address space. -/
def Covers (p : SitePatch) (x : Word) : Prop := (x - p.addr).toNat < p.saved.length

instance (p : SitePatch) (x : Word) : Decidable (p.Covers x) :=
  inferInstanceAs (Decidable ((x - p.addr).toNat < p.saved.length))

/-- Two patches are apart when no byte is covered by both. -/
def Apart (p q : SitePatch) : Prop := ∀ x, p.Covers x → ¬ q.Covers x

/-- A patch that lies wholly in the code region, or wholly outside it. -/
def OneSided (p : SitePatch) : Prop :=
  (∀ x, p.Covers x → Service.InCode x) ∨ ∀ x, p.Covers x → ¬ Service.InCode x

theorem covers_add (p : SitePatch) {k : Nat} (hk : k < p.saved.length) (hshort : p.saved.length ≤ 2 ^ 64) :
    p.Covers (p.addr + k.toUInt64) := by
  unfold Covers
  rw [UInt64.add_comm, UInt64.add_sub_cancel, Nat.toUInt64, UInt64.toNat_ofNat',
    Nat.mod_eq_of_lt (by omega)]
  exact hk

/-- A patch whose bytes run inside the code region lies wholly in it. -/
theorem oneSided_of_within (p : SitePatch)
    (h : (p.addr - Service.codeBase).toNat + p.saved.length ≤ Service.codeSize) : p.OneSided := by
  refine .inl fun x hx => ?_
  unfold Covers at hx
  unfold Service.InCode
  -- the distance from the code's base is the patch's, then the byte's within the patch
  have hsum : x - Service.codeBase = (x - p.addr) + (p.addr - Service.codeBase) := by grind
  rw [hsum, UInt64.toNat_add]
  unfold Service.codeSize at h ⊢
  omega

/-- Writing a patch back either writes its saved bytes or, when its site cannot be made
writable, leaves the memory as it was. -/
theorem restore_fst_cases {σ : Type} (host : Host σ) (p : SitePatch) (m : σ) :
    (p.restore host m).1 = m ∨ (p.restore host m).1 = host.write m p.addr p.saved := by
  unfold restore
  split
  · exact .inr rfl
  · exact .inl rfl

@[simp] theorem restoreAll_cons_fst {σ : Type} (host : Host σ) (p : SitePatch) (ps : List SitePatch)
    (m : σ) : (restoreAll host (p :: ps) m).1 = (restoreAll host ps (p.restore host m).1).1 := rfl

end SitePatch

namespace Region

variable {c : Region} {x : Word} {k : Nat}

/-- Writing back patches none of which covers `x` keeps the byte at `x`. -/
theorem get?_writeBack_of_not_covers (ps : List SitePatch) (hx : c.offset? x = some k)
    (hps : ∀ p ∈ ps, ¬ p.Covers x) (hshort : ∀ p ∈ ps, p.saved.length ≤ 2 ^ 64) :
    (ps.foldl (fun c p => c.write p.addr p.saved) c).get? k = c.get? k := by
  induction ps generalizing c with
  | nil => rfl
  | cons p ps ih =>
    have hp : ¬ (x - p.addr).toNat < p.saved.length := hps p List.mem_cons_self
    rw [List.foldl_cons, ih (by rw [offset?_write]; exact hx)
      (fun q hq => hps q (List.mem_cons_of_mem _ hq))
      (fun q hq => hshort q (List.mem_cons_of_mem _ hq)),
      get?_write hx (hshort p List.mem_cons_self), if_neg hp]

/-- Writing back patches that are apart gives the byte at `x` the one saved by the patch that
covers it. -/
theorem get?_writeBack_of_covers {ps : List SitePatch} (hx : c.offset? x = some k)
    (hpw : ps.Pairwise SitePatch.Apart) (hshort : ∀ p ∈ ps, p.saved.length ≤ 2 ^ 64)
    {p : SitePatch} (hp : p ∈ ps) (hpx : p.Covers x) :
    (ps.foldl (fun c p => c.write p.addr p.saved) c).get? k = p.saved[(x - p.addr).toNat]? := by
  induction ps generalizing c with
  | nil => cases hp
  | cons q qs ih =>
    rw [List.pairwise_cons] at hpw
    have hx' : (c.write q.addr q.saved).offset? x = some k := by rw [offset?_write]; exact hx
    rw [List.foldl_cons]
    rcases List.mem_cons.mp hp with rfl | hp
    · -- the covering patch: none written back after it covers `x`
      rw [get?_writeBack_of_not_covers qs hx' (fun r hr => hpw.1 r hr x hpx)
        (fun r hr => hshort r (List.mem_cons_of_mem _ hr)),
        get?_write hx (hshort p List.mem_cons_self),
        if_pos (show (x - p.addr).toNat < _ from hpx)]
    · -- an earlier patch, apart from the covering one
      exact ih hx' hpw.2 (fun r hr => hshort r (List.mem_cons_of_mem _ hr)) hp

theorem base_writeBack (ps : List SitePatch) (c : Region) :
    (ps.foldl (fun c p => c.write p.addr p.saved) c).base = c.base := by
  induction ps generalizing c with
  | nil => rfl
  | cons p ps ih => rw [List.foldl_cons, ih, base_write]

theorem size_writeBack (ps : List SitePatch) (c : Region) :
    (ps.foldl (fun c p => c.write p.addr p.saved) c).size = c.size := by
  induction ps generalizing c with
  | nil => rfl
  | cons p ps ih => rw [List.foldl_cons, ih, size_write]

end Region

namespace Service

open Batch Code Cave

variable {κ : Type}

/-! ### Code that patches written back restore -/

/-- The code `c` comes back to `c0` when the patches `ps` are written back: every byte no
patch covers is as in `c0`, and every patch saved, for each byte it covers, that byte of
`c0`. -/
structure Restorable (c0 c : Region) (ps : List SitePatch) : Prop where
  base : c.base = c0.base
  size : c.size = c0.size
  uncovered : ∀ x k, c.offset? x = some k → (∀ p ∈ ps, ¬ p.Covers x) → c.get? k = c0.get? k
  saved : ∀ x k, c.offset? x = some k → ∀ p ∈ ps, p.Covers x →
    p.saved[(x - p.addr).toNat]? = c0.get? k
  short : ∀ p ∈ ps, p.saved.length ≤ 2 ^ 64

namespace Restorable

variable {c0 c : Region} {ps : List SitePatch}

theorem refl (c : Region) : Restorable c c [] where
  base := rfl
  size := rfl
  uncovered _ _ _ _ := rfl
  saved _ _ _ _ hp := nomatch hp
  short _ hp := nomatch hp

/-- Writing back patches that are apart brings the code back. -/
theorem writeBack (h : Restorable c0 c ps) (hpw : ps.Pairwise SitePatch.Apart)
    (hsize : c0.size ≤ 2 ^ 64) : ps.foldl (fun c p => c.write p.addr p.saved) c = c0 := by
  apply Region.eq_of_get? (by rw [Region.base_writeBack, h.base])
  intro k
  by_cases hk : k < c.size
  · -- the byte at `k` is at an address, covered by one patch or by none
    have hx := Region.offset?_base_add hk (h.size ▸ hsize)
    by_cases hcov : ∃ p ∈ ps, p.Covers (c.base + k.toUInt64)
    · obtain ⟨p, hp, hpx⟩ := hcov
      rw [Region.get?_writeBack_of_covers hx hpw h.short hp hpx, h.saved _ k hx p hp hpx]
    · have hnot : ∀ p ∈ ps, ¬ p.Covers (c.base + k.toUInt64) := fun p hp hpx => hcov ⟨p, hp, hpx⟩
      rw [Region.get?_writeBack_of_not_covers ps hx hnot h.short, h.uncovered _ k hx hnot]
  · rw [Region.get?_eq_none (by rw [Region.size_writeBack]; omega),
      Region.get?_eq_none (by rw [← h.size]; omega)]

/-- Patching the code with `hook` over the bytes a new patch `q` saved from it keeps it
restorable, with `q` added, when `q` is apart from the patches so far. -/
theorem patch (h : Restorable c0 c ps) (q : SitePatch) (hook : Bytes)
    (hapart : ∀ p ∈ ps, SitePatch.Apart p q)
    (hsaved : ∀ x k, c.offset? x = some k → q.Covers x → q.saved[(x - q.addr).toNat]? = c.get? k)
    (hlen : hook.length = q.saved.length) (hshort : q.saved.length ≤ 2 ^ 64) :
    Restorable c0 (c.write q.addr hook) (ps ++ [q]) where
  base := by rw [Region.base_write, h.base]
  size := by rw [Region.size_write, h.size]
  uncovered x k hx hnot := by
    rw [Region.offset?_write] at hx
    have hq : ¬ (x - q.addr).toNat < hook.length := by
      rw [hlen]
      exact hnot q (List.mem_append_right _ List.mem_cons_self)
    rw [Region.get?_write hx (hlen ▸ hshort), if_neg hq]
    exact h.uncovered x k hx fun p hp => hnot p (List.mem_append_left _ hp)
  saved x k hx p hp hpx := by
    rw [Region.offset?_write] at hx
    rcases List.mem_append.mp hp with hp | hp
    · exact h.saved x k hx p hp hpx
    · -- the new patch saved the code where no earlier patch reaches
      obtain rfl := List.mem_singleton.mp hp
      rw [hsaved x k hx hpx]
      exact h.uncovered x k hx fun p' hp' hpx' => hapart p' hp' x hpx' hpx
  short p hp := by
    rcases List.mem_append.mp hp with hp | hp
    · exact h.short p hp
    · obtain rfl := List.mem_singleton.mp hp
      exact hshort

end Restorable

/-! ### Where the regions lie -/

/-- The regions of a world where the memory map puts them: the code and the data, and pools of
caves that are sound and clear of the code. -/
structure InPlace (w : World) : Prop where
  code : CodeInPlace w
  data : w.data.base = dataBase ∧ w.data.size = dataSize
  pools : ∀ p ∈ w.pools, p.Sound ∧ Clear codeMapping p.start p.size

namespace InPlace

variable {w : World}

theorem initial : InPlace World.initial :=
  ⟨CodeInPlace.initial, ⟨rfl, by simp [World.initial, Region.filled, Region.size]⟩,
    fun _ hp => absurd hp List.not_mem_nil⟩

theorem writeMemory (h : InPlace w) (a : Word) (bs : Bytes) : InPlace (w.writeMemory a bs) where
  code := h.code.writeMemory a bs
  data := by simpa [World.writeMemory] using h.data
  pools p hp := by
    obtain ⟨q, hq, rfl⟩ := List.mem_map.mp hp
    simpa [Pool.Sound, Pool.start, Pool.size] using h.pools q hq

/-- The data region lies below the code, so no address of the code is in it. -/
theorem data_offset? (h : InPlace w) {x : Word} {k : Nat} (hx : w.code.offset? x = some k) :
    w.data.offset? x = none := by
  obtain ⟨hd, hk⟩ := Region.offset?_eq_some.mp hx
  rw [h.code.1] at hd
  rw [h.code.2] at hk
  have hsub := UInt64.toNat_sub x codeBase
  have hxlt := x.toNat_lt_size
  apply Region.offset?_eq_none (by rw [h.data.1, h.data.2]; decide)
  rw [h.data.1, h.data.2]
  unfold dataBase dataSize codeBase codeSize at *
  simp only [UInt64.size, UInt64.reduceToNat] at hsub hxlt ⊢
  omega

theorem readByteIn (h : InPlace w) {x : Word} {k : Nat} (hx : w.code.offset? x = some k) :
    Region.readByteIn w.regions x = (w.code.get? k).getD 0 := by
  unfold Region.readByteIn World.regions
  rw [List.find?_cons_of_neg (by simp [h.data_offset? hx]),
    List.find?_cons_of_pos (by simp [hx])]
  simp [Region.readByte, hx]

/-- Bytes read from the world from `v` on: one that lies in the code is the code's byte. -/
theorem getElem?_read (h : InPlace w) {x v : Word} {k n : Nat} (hx : w.code.offset? x = some k)
    (hj : (x - v).toNat < n) : (World.host.read w v n)[(x - v).toNat]? = w.code.get? k := by
  have hk := (Region.offset?_eq_some.mp hx).2
  have hd : v + (x - v).toNat.toUInt64 = x := by
    rw [show (x - v).toNat.toUInt64 = x - v from UInt64.ofNat_toNat]
    grind
  simp only [World.host, Region.readIn, List.getElem?_map, List.getElem?_range hj, Option.map_some,
    hd, h.readByteIn hx]
  simp [Region.get?, Region.size] at hk ⊢
  simp [hk]

theorem of_advance {st : Progress κ World} {cave : Word} {mem : World} {calls : CodeBuffer}
    (ha : Advance World.host st cave mem calls) (h : InPlace st.mem) : InPlace mem := by
  obtain ⟨slot, -, hmem | ⟨tramp, -, hmem⟩⟩ := ha.written
  · rw [hmem]
    exact h.writeMemory _ _
  · rw [hmem]
    exact (h.writeMemory _ _).writeMemory _ _

/-- Placing the caves of a batch keeps the world in place: both caves are cut clear of the
code, and the relay cave is filled where it lies. -/
theorem placeCaves {w' : World} {origin relay call : Word} {n : Nat} (h : InPlace w)
    (hp : placeCaves World.host w origin n = some (relay, call, w')) : InPlace w' := by
  unfold Batch.placeCaves at hp
  simp only [World.host] at hp
  cases h1 : allocate firstFit mappings w.pools origin.toNat (n * relaySlotSize) with
  | none => simp [h1] at hp
  | some r1 =>
    obtain ⟨a1, pools1⟩ := r1
    cases h2 : allocate firstFit mappings pools1 origin.toNat (n * trampolineLength) with
    | none => simp [h1, h2] at hp
    | some r2 =>
      obtain ⟨a2, pools2⟩ := r2
      simp only [h1, h2, Option.map_some, Option.bind_some, Option.some.injEq, Prod.mk.injEq,
        bind, pure] at hp
      obtain ⟨rfl, rfl, rfl⟩ := hp
      have hpools1 := (allocate_clear codeMapping_mem h.pools h1).2.2
      have hpools2 := (allocate_clear codeMapping_mem hpools1 h2).2.2
      have hin2 : InPlace { w with pools := pools2 } := ⟨h.code, h.data, hpools2⟩
      exact hin2.writeMemory _ _

end InPlace

/-! ### One request -/

theorem mem_record {σ : Type} (n i : Nat) (site : Except BreakpointError Word) (name : String)
    (bp' : Breakpoint κ) (st : Progress κ σ) (r : Except BreakpointError Unit) :
    (record n i site name bp' (st, r)).mem = st.mem := by
  rcases r with _ | ⟨⟩ <;> rfl

theorem patches_record {σ : Type} (n i : Nat) (site : Except BreakpointError Word)
    (name : String) (bp' : Breakpoint κ) (st : Progress κ σ) (r : Except BreakpointError Unit) :
    (record n i site name bp' (st, r)).patches = st.patches := by
  rcases r with _ | ⟨⟩ <;> rfl

/-- A request that passes its checks has a cave size from 5 to 27. -/
theorem cavesize_of_verdict {σ : Type} {host : Host σ} {reg : Registry κ} {relay : Word}
    {st : Progress κ σ} {i : Nat} {bp : Breakpoint κ} {site : Except BreakpointError Word}
    (h : verdict host reg relay st i bp site = .ok ()) :
    minCaveSize ≤ bp.cavesize ∧ bp.cavesize ≤ maxCaveSize := by
  unfold verdict at h
  split at h
  · cases h
  · split_ifs at h with h1 h2 h3
    omega

theorem length_of_assembleCall {source destination : Word} {len : Nat} {hook : Bytes}
    (h : assembleCall source destination len = .ok hook) (hlen : 5 ≤ len) : hook.length = len := by
  rw [assembleCall_eq _ _ hlen] at h
  cases hr : rel32 source destination with
  | error e => rw [hr] at h; cases h
  | ok d =>
    rw [hr] at h
    cases h
    simp only [List.length_append, CodeBuffer.length_branch, List.length_replicate]
    omega

section Step

variable (reg : Registry κ) (place : Placement) (relay : Word) (n : Nat) {st : Progress κ World}
  (i : Nat) (bp : Breakpoint κ) {site : Except BreakpointError Word}

/-- A request adds at most one patch. -/
theorem patches_step (hsite : ∀ v, site = .ok v → v ≠ 0)
    (hroom : trampolineLength ≤ st.calls.remaining) :
    (step World.host reg place relay n st i bp site).patches = st.patches ∨
      ∃ q, (step World.host reg place relay n st i bp site).patches = st.patches ++ [q] := by
  rcases step_cases World.host reg place relay n st i bp World.host_lawful hsite hroom with
    ⟨e, bp', l, -, hs, -⟩ | ⟨e, bp', mem, calls, -, -, hs, -⟩ |
      ⟨v, bp', mem, calls, patch, -, -, -, -, -, -, -, hs⟩
  · exact .inl (by rw [hs, patches_record])
  · exact .inl (by rw [hs, patches_record])
  · exact .inr ⟨_, by rw [hs, patches_record]⟩

/-- One request keeps the world in place, and the code restorable by the patches so far, its
own included, when its patch is apart from the earlier ones: it writes code only at its site,
over the bytes its patch saved. -/
theorem restorable_step {c0 : Region} {ps : List SitePatch} (hsite : ∀ v, site = .ok v → v ≠ 0)
    (hroom : trampolineLength ≤ st.calls.remaining)
    (hcave : OffCode (relay + (i * relaySlotSize).toUInt64).toNat relaySlotSize)
    (hentry : OffCode st.calls.address.toNat trampolineLength)
    (hin : InPlace st.mem) (hres : Restorable c0 st.mem.code (ps ++ st.patches))
    (hpw : (ps ++ (step World.host reg place relay n st i bp site).patches).Pairwise
      SitePatch.Apart) :
    InPlace (step World.host reg place relay n st i bp site).mem ∧
      Restorable c0 (step World.host reg place relay n st i bp site).mem.code
        (ps ++ (step World.host reg place relay n st i bp site).patches) := by
  rcases step_cases World.host reg place relay n st i bp World.host_lawful hsite hroom with
    ⟨e, bp', l, -, hs, -⟩ | ⟨e, bp', mem, calls, -, ha, hs, -⟩ |
      ⟨v, bp', mem, calls, patch, -, hv, -, -, -, ha, hpatch, hs⟩
  · -- refused before writing anything
    rw [hs, mem_record, patches_record]
    exact ⟨hin, hres⟩
  · -- stopped after writing to the caves only
    rw [hs, mem_record, patches_record]
    refine ⟨hin.of_advance ha, ?_⟩
    show Restorable c0 mem.code (ps ++ st.patches)
    rw [code_of_advance ha hin.code hcave hentry]
    exact hres
  · -- installed: the site is patched over the bytes its patch saved
    rw [hs, patches_record, ← List.append_assoc, List.pairwise_append] at hpw
    rw [hs, mem_record, patches_record, ← List.append_assoc]
    have hbounds := cavesize_of_verdict hv
    have hin' := hin.of_advance ha
    rw [← code_of_advance ha hin.code hcave hentry] at hres
    refine ⟨hin'.writeMemory v patch, ?_⟩
    show Restorable c0 (mem.code.write v patch) _
    refine hres.patch ⟨v, World.host.read mem v bp.cavesize⟩ patch
      (fun p hp => hpw.2.2 p hp _ List.mem_cons_self) ?_ ?_ ?_
    · intro x k hx hcov
      exact hin'.getElem?_read hx (by simpa [SitePatch.Covers, World.host_lawful.length_read] using hcov)
    · rw [World.host_lawful.length_read, length_of_assembleCall hpatch hbounds.1]
    · rw [World.host_lawful.length_read]
      unfold maxCaveSize relaySlotSize at hbounds
      omega

end Step

/-! ### A batch -/

section Run

variable (reg : Registry κ) (place : Placement) (relay : Word) (n : Nat) (start : Progress κ World)
  {items : List (Breakpoint κ × Except BreakpointError Word)} {c0 : Region} {ps : List SitePatch}

/-- The run lemma: before each request, the world is in place and the code restorable by the
patches so far, as long as they are apart. -/
theorem restorable_before (hsite : ∀ p ∈ items, ∀ v, p.2 = .ok v → v ≠ 0)
    (hroom : trampolineLength * items.length ≤ start.calls.remaining)
    (hrelay : OffCode relay.toNat (items.length * relaySlotSize))
    (hcalls : OffCode start.calls.base.toNat start.calls.data.size)
    (hin : InPlace start.mem) (hres : Restorable c0 start.mem.code (ps ++ start.patches)) :
    ∀ j ≤ items.length,
      (ps ++ (before World.host reg place relay n start items j).patches).Pairwise
        SitePatch.Apart →
      InPlace (before World.host reg place relay n start items j).mem ∧
        Restorable c0 (before World.host reg place relay n start items j).mem.code
          (ps ++ (before World.host reg place relay n start items j).patches) := by
  intro j
  induction j with
  | zero =>
    intro _ _
    exact ⟨hin, hres⟩
  | succ j ih =>
    intro hj hpw
    have hlt : j < items.length := hj
    -- request `j` finds its relay slot and its trampoline's place clear of the code
    have hroom_j := room_at reg place relay n World.host_lawful hsite hroom hlt
    obtain ⟨hbase, hsize⟩ :=
      calls_before reg place relay n World.host_lawful hsite hroom j (Nat.le_of_lt hlt)
    have hentry := offCode_address (by rw [hbase, hsize]; exact hcalls) hroom_j
    have hsite_j := hsite items[j] (List.getElem_mem hlt)
    rw [before_succ hlt] at hpw ⊢
    -- the patches before the request are those after it, or all but its own
    have hpw_j : (ps ++ (before World.host reg place relay n start items j).patches).Pairwise
        SitePatch.Apart := by
      rcases patches_step reg place relay n j items[j].1 hsite_j hroom_j with h | ⟨q, h⟩
      · rwa [h] at hpw
      · rw [h, ← List.append_assoc] at hpw
        exact hpw.sublist (List.sublist_append_left _ _)
    obtain ⟨hin_j, hres_j⟩ := ih (Nat.le_of_lt hlt) hpw_j
    exact restorable_step reg place relay n j items[j].1 hsite_j hroom_j (offCode_slot hrelay hlt)
      hentry hin_j hres_j hpw

end Run

/-- Setting up a batch keeps the world in place and the code restorable by the patches made
so far, the batch's own after them, as long as they are apart. -/
theorem restorable_apply (reg : Registry κ) (place : Placement) (module : Option Word)
    (requests : List Request) {w : World} {c0 : Region} {ps : List SitePatch} (hin : InPlace w)
    (hres : Restorable c0 w.code ps) :
    let r := Batch.apply World.host reg place w module requests
    (ps ++ r.1.patches).Pairwise SitePatch.Apart →
      InPlace r.2.1 ∧ Restorable c0 r.2.1.code (ps ++ r.1.patches) := by
  intro r hpw
  rcases apply_cases World.host reg place w module requests with
    ⟨h1, h2⟩ | ⟨o, relay, call, w', log, hne, -, hp, h⟩
  · -- no caves: nothing set up
    simp only [r, h1, h2, List.append_nil]
    exact ⟨hin, hres⟩
  · -- the caves lie clear of the code, which they leave as it was
    obtain ⟨hoffR, hoffC, -, hsame⟩ :=
      placeCaves_offCode hin.code hin.pools (List.length_pos_of_ne_nil hne) hp
    have hlen : (requests.map (item reg module)).length = requests.length := List.length_map _
    have hres0 : Restorable c0 (initial w' call requests.length log : Progress κ World).mem.code
        (ps ++ []) := by
      simpa [initial, hsame] using hres
    have hrun := restorable_before reg place relay requests.length
      (initial w' call requests.length log)
      (fun _ hp => site_ne_zero_of_mem reg module requests hp)
      (room_initial reg module requests w' call log)
      (by rw [hlen]; exact hoffR) (by simpa [initial, CodeBuffer.new] using hoffC)
      (hin.placeCaves hp) hres0 (requests.map (item reg module)).length (Nat.le_refl _)
    rw [before_length] at hrun
    simp only [r, h] at hpw ⊢
    exact hrun hpw

/-! ### Removal -/

theorem mem_insertMapping {m n : Mapping} {maps : List Mapping} :
    n ∈ insertMapping m maps ↔ n = m ∨ n ∈ maps := by
  induction maps with
  | nil => simp [insertMapping]
  | cons k rest ih =>
    unfold insertMapping
    split
    · exact List.mem_cons
    · rw [List.mem_cons, ih, List.mem_cons, or_left_comm]

theorem mem_sortMappings {n : Mapping} {maps : List Mapping} : n ∈ sortMappings maps ↔ n ∈ maps := by
  induction maps with
  | nil => rfl
  | cons m rest ih => rw [sortMappings, mem_insertMapping, ih, List.mem_cons]

theorem mapsAll_of_mem {maps : List Mapping} {m : Mapping} (hm : m ∈ maps) {addr : Word} {len : Nat}
    (h : ∀ k < len, m.start ≤ (addr + k.toUInt64).toNat ∧ (addr + k.toUInt64).toNat < m.stop) :
    mapsAll maps addr len = true := by
  simp only [mapsAll, List.all_eq_true, List.mem_range, List.any_eq_true, Bool.and_eq_true,
    decide_eq_true_eq]
  exact fun k hk => ⟨m, hm, h k hk⟩

/-- An address of the code region lies in the code's mapping. -/
theorem InCode.mapped {x : Word} (h : InCode x) :
    codeMapping.start ≤ x.toNat ∧ x.toNat < codeMapping.stop := by
  unfold InCode at h
  rw [UInt64.toNat_sub] at h
  have hx := x.toNat_lt_size
  simp only [codeMapping, Mapping.stop, codeBase, codeSize, UInt64.size, UInt64.reduceToNat] at h hx ⊢
  omega

/-- Bytes of the code region can always be made writable: the code's mapping is in the memory
map, whatever pools of caves come and go. -/
theorem protect_of_inCode (w : World) {addr : Word} {len : Nat}
    (h : ∀ k < len, InCode (addr + k.toUInt64)) : World.host.protect w addr len = .ok () := by
  have hmem : codeMapping ∈ memoryMap w.pools :=
    mem_sortMappings.mpr (List.mem_append_left _ codeMapping_mem)
  simp only [World.host, mapsAll_of_mem hmem fun k hk => (h k hk).mapped, if_true]

theorem CodeInPlace.inCode {w : World} (hw : CodeInPlace w) {x : Word} {k : Nat}
    (hx : w.code.offset? x = some k) : InCode x := by
  obtain ⟨h1, h2⟩ := Region.offset?_eq_some.mp hx
  unfold InCode
  rw [← hw.1, ← hw.2, h1]
  exact h2

/-- A write that covers no byte of the code region leaves the code as it was. -/
theorem write_eq_of_offCode {w : World} (hw : CodeInPlace w) {p : SitePatch}
    (hoff : ∀ x, p.Covers x → ¬ InCode x) (hshort : p.saved.length ≤ 2 ^ 64) :
    w.code.write p.addr p.saved = w.code := by
  apply Region.eq_of_get? (Region.base_write _ _ _)
  intro k
  by_cases hk : k < w.code.size
  · have hx := Region.offset?_base_add hk (by rw [hw.2]; decide)
    have hnot : ¬ (w.code.base + k.toUInt64 - p.addr).toNat < p.saved.length := fun hc =>
      hoff _ hc (hw.inCode hx)
    rw [Region.get?_write hx hshort, if_neg hnot]
  · rw [Region.get?_eq_none (by rw [Region.size_write]; omega), Region.get?_eq_none (by omega)]

/-- Writing back one patch that lies wholly in the code or wholly outside it writes it back into
the code: a patch in the code can always be made writable again, and one outside it leaves the
code alone whether it is written back or not. -/
theorem code_restore {w : World} (hw : CodeInPlace w) {p : SitePatch} (hside : p.OneSided)
    (hshort : p.saved.length ≤ 2 ^ 64) :
    (p.restore World.host w).1.code = w.code.write p.addr p.saved := by
  rcases hside with hin | hoff
  · have hprot : World.host.protect w p.addr p.saved.length = .ok () :=
      protect_of_inCode w fun k hk => hin _ (p.covers_add hk hshort)
    simp only [SitePatch.restore, hprot]
    rfl
  · rw [write_eq_of_offCode hw hoff hshort]
    rcases p.restore_fst_cases World.host w with h | h
    · rw [h]
    · rw [h]
      exact write_eq_of_offCode hw hoff hshort

/-- The run lemma of writing patches back: each is written back into the code in turn, which
stays where it is. -/
theorem code_restoreAll {ps : List SitePatch}
    (hps : ∀ p ∈ ps, p.OneSided ∧ p.saved.length ≤ 2 ^ 64) {w : World} (hw : CodeInPlace w) :
    CodeInPlace (SitePatch.restoreAll World.host ps w).1 ∧
      (SitePatch.restoreAll World.host ps w).1.code =
        ps.foldl (fun c p => c.write p.addr p.saved) w.code := by
  induction ps generalizing w with
  | nil => exact ⟨hw, rfl⟩
  | cons p ps ih =>
    obtain ⟨hside, hshort⟩ := hps p List.mem_cons_self
    have hcode := code_restore hw hside hshort
    have hw' : CodeInPlace (p.restore World.host w).1 := by
      unfold CodeInPlace
      rw [hcode, Region.base_write, Region.size_write]
      exact hw
    rw [SitePatch.restoreAll_cons_fst, List.foldl_cons, ← hcode]
    exact ih (fun q hq => hps q (List.mem_cons_of_mem _ hq)) hw'

/-- Removing a batch writes back its patches, in the order they were made; giving back its
caves leaves the code alone. -/
theorem code_remove (b : Batch κ) (hps : ∀ p ∈ b.patches, p.OneSided ∧ p.saved.length ≤ 2 ^ 64)
    {w : World} (hw : CodeInPlace w) :
    CodeInPlace (b.remove World.host w).1 ∧
      (b.remove World.host w).1.code = b.patches.foldl (fun c p => c.write p.addr p.saved) w.code := by
  have hfst : (b.remove World.host w).1.code =
      (SitePatch.restoreAll World.host b.patches w).1.code := by
    obtain ⟨bps, installed, patches, _ | ⟨relay, call⟩⟩ := b <;> rfl
  obtain ⟨hw', hcode⟩ := code_restoreAll hps hw
  refine ⟨?_, hfst.trans hcode⟩
  unfold CodeInPlace
  rw [hfst]
  exact hw'

/-- Removing batches, oldest first, writes back all their patches in the order they were made. -/
theorem code_removeAll (bs : List (Batch κ))
    (hps : ∀ p ∈ bs.flatMap (·.patches), p.OneSided ∧ p.saved.length ≤ 2 ^ 64) {w : World}
    (hw : CodeInPlace w) :
    (removeAll World.host bs w).1.code =
      (bs.flatMap (·.patches)).foldl (fun c p => c.write p.addr p.saved) w.code := by
  induction bs generalizing w with
  | nil => rfl
  | cons b bs ih =>
    rw [List.flatMap_cons] at hps
    obtain ⟨hw', hcode⟩ := code_remove b (fun p hp => hps p (List.mem_append_left _ hp)) hw
    have hfst : (removeAll World.host (b :: bs) w).1 =
        (removeAll World.host bs (b.remove World.host w).1).1 := rfl
    rw [hfst, ih (fun p hp => hps p (List.mem_append_right _ hp)) hw', hcode, List.flatMap_cons,
      List.foldl_append]

/-! ### Batches one after another -/

/-- Batches set up one after another, each in the world the one before left, with its own
registry, placement, module argument and requests. -/
def applyEach (w : World) :
    List (Registry κ × Placement × Option Word × List Request) → List (Batch κ) × World
  | [] => ([], w)
  | (reg, place, module, requests) :: rest =>
    let r := Batch.apply World.host reg place w module requests
    let (bs, w') := applyEach r.2.1 rest
    (r.1 :: bs, w')

theorem restorable_applyEach (runs : List (Registry κ × Placement × Option Word × List Request)) :
    ∀ {w : World} {ps : List SitePatch}, InPlace w → Restorable c0 w.code ps →
      (ps ++ (applyEach w runs).1.flatMap (·.patches)).Pairwise SitePatch.Apart →
      Restorable c0 (applyEach w runs).2.code (ps ++ (applyEach w runs).1.flatMap (·.patches)) := by
  induction runs with
  | nil =>
    intro w ps _ hres _
    simpa [applyEach] using hres
  | cons run rest ih =>
    obtain ⟨reg, place, module, requests⟩ := run
    intro w ps hin hres hpw
    simp only [applyEach, List.flatMap_cons, ← List.append_assoc] at hpw ⊢
    -- the batch's patches come before those of the batches after it
    obtain ⟨hin', hres'⟩ := restorable_apply reg place module requests hin hres
      (hpw.sublist (List.sublist_append_left _ _))
    exact ih hin' hres' hpw

/-- Removing batches set up one after another in a world in place brings back its code, byte
for byte, when no byte was patched twice and no patch straddles the edge of the code: the patches
of all the batches, in the order they were made, are pairwise apart, and each lies wholly in the
code or wholly outside it. -/
theorem removeAll_restores_code (runs : List (Registry κ × Placement × Option Word × List Request))
    (w : World) (hin : InPlace w)
    (hapart : ((applyEach w runs).1.flatMap (·.patches)).Pairwise SitePatch.Apart)
    (hsided : ∀ p ∈ (applyEach w runs).1.flatMap (·.patches), p.OneSided) :
    (removeAll World.host (applyEach w runs).1 (applyEach w runs).2).1.code = w.code := by
  have hres := restorable_applyEach runs hin (Restorable.refl w.code) (by simpa using hapart)
  rw [List.nil_append] at hres
  -- the code after the batches is where it was, and every patch is short
  have hw : CodeInPlace (applyEach w runs).2 :=
    ⟨hres.base.trans hin.code.1, hres.size.trans hin.code.2⟩
  rw [code_removeAll _ (fun p hp => ⟨hsided p hp, hres.short p hp⟩) hw]
  exact hres.writeBack hapart (by rw [hin.code.2]; decide)

/-- One batch that patches the start of the code, then removed: its one patch lies in the code,
and removal brings the code back. -/
theorem removeAll_restores_patched_site :
    InPlace World.initial ∧
      (applyEach World.initial [(World.initial.registry.registerCallback "relay" .relay,
        placementAt 0, some 0x40000000, [⟨"relay", "Rx0", 6, .null⟩])]).1.flatMap (·.patches) =
        [⟨0x40000000, List.replicate 6 0⟩] ∧
      (removeAll World.host
        (applyEach World.initial [(World.initial.registry.registerCallback "relay" .relay,
          placementAt 0, some 0x40000000, [⟨"relay", "Rx0", 6, .null⟩])]).1
        (applyEach World.initial [(World.initial.registry.registerCallback "relay" .relay,
          placementAt 0, some 0x40000000, [⟨"relay", "Rx0", 6, .null⟩])]).2).1.code =
        World.initial.code := by
  have hps : (applyEach World.initial [(World.initial.registry.registerCallback "relay" .relay,
      placementAt 0, some 0x40000000, [⟨"relay", "Rx0", 6, .null⟩])]).1.flatMap (·.patches) =
      [⟨0x40000000, List.replicate 6 0⟩] := by
    decide +kernel
  -- the one patch covers the first six bytes of the code
  have hside : (⟨0x40000000, List.replicate 6 0⟩ : SitePatch).OneSided :=
    SitePatch.oneSided_of_within _ (by decide)
  have hapart : ((applyEach World.initial [(World.initial.registry.registerCallback "relay" .relay,
      placementAt 0, some 0x40000000, [⟨"relay", "Rx0", 6, .null⟩])]).1.flatMap
        (·.patches)).Pairwise SitePatch.Apart := by
    rw [hps]
    exact List.pairwise_singleton _ _
  refine ⟨InPlace.initial, hps, removeAll_restores_code _ World.initial InPlace.initial hapart ?_⟩
  intro p hp
  rw [hps, List.mem_singleton] at hp
  rw [hp]
  exact hside

end Service

end Intercept
