import Intercept.Proofs.Batch.Footprint
/-!
# Where a batch puts its code

A batch of `n` requests writes its code into two caves: slot `i` of the relay cave, 32 bytes at
`relay + 32 i`, holds the relay of request `i`, and the call cave holds the trampolines, packed
in the order the requests reach them.  Nothing else is written but the sites' calls.

When the caves do not wrap, do not meet, and no site lies in them (`CavesApart`), the
footprints of different requests meet only at the sites, so every byte of a cave is written
once, by the request that owns it, and kept by all later ones.

* `slot_after`, `slot_final` — the relay slot of a request after it, and at the end;
* `trampoline_after`, `trampoline_final` — the same for its trampoline;
* `batch_layout` — where a whole batch puts its code.
-/

namespace Intercept.Batch

open Code

variable {κ σ : Type}

section Run

variable {host : Host σ} {reg : Registry κ} {place : Placement} {relay : Word} {n : Nat}
  {start : Progress κ σ} {items : List (Breakpoint κ × Except BreakpointError Word)}

/-- Caves where the code of a batch can go: they do not wrap and do not meet, and no site of
the batch lies in them. -/
structure CavesApart (relay call : Word) (items : List (Breakpoint κ × Except BreakpointError Word)) :
    Prop where
  relay_fits : relay.toNat + items.length * relaySlotSize ≤ 2 ^ 64
  call_fits : call.toNat + items.length * trampolineLength ≤ 2 ^ 64
  apart : relay.toNat + items.length * relaySlotSize ≤ call.toNat ∨
    call.toNat + items.length * trampolineLength ≤ relay.toNat
  sites : ∀ p ∈ items, ∀ v, p.2 = .ok v → v.toNat + p.1.cavesize ≤ 2 ^ 64 ∧
    (v.toNat + p.1.cavesize ≤ relay.toNat ∨ relay.toNat + items.length * relaySlotSize ≤ v.toNat) ∧
    (v.toNat + p.1.cavesize ≤ call.toNat ∨ call.toNat + items.length * trampolineLength ≤ v.toNat)

section Caves

variable (reg place n) (hp : host.Plain) (hsite : ∀ p ∈ items, ∀ v, p.2 = .ok v → v ≠ 0)
  (hroom : trampolineLength * items.length ≤ start.calls.remaining)
  (hcaves : CavesApart relay start.calls.base items) (hpos : start.calls.pos = 0)

section

include hcaves

theorem toNat_slot {s : Nat} (hs : s < items.length) :
    (relay + (s * relaySlotSize).toUInt64).toNat = relay.toNat + s * relaySlotSize := by
  have := hcaves.relay_fits
  unfold relaySlotSize at *
  exact toNat_add_of_lt (by omega)

theorem toNat_in_slot {s o : Nat} (hs : s < items.length) (ho : o < relaySlotSize) :
    (relay + (s * relaySlotSize).toUInt64 + o.toUInt64).toNat = relay.toNat + s * relaySlotSize + o := by
  have := hcaves.relay_fits
  rw [toNat_add_of_lt (by rw [toNat_slot hcaves hs]; unfold relaySlotSize at *; omega),
    toNat_slot hcaves hs]

/-- No site lies in the caves. -/
theorem not_inRange_site {t : Nat} (ht : t < items.length) {v : Word} (hv : items[t].2 = .ok v)
    {x : Word} (hx : relay.toNat ≤ x.toNat ∧ x.toNat < relay.toNat + items.length * relaySlotSize ∨
      start.calls.base.toNat ≤ x.toNat ∧
        x.toNat < start.calls.base.toNat + items.length * trampolineLength) :
    ¬InRange v items[t].1.cavesize x := by
  obtain ⟨hfit, hrelay, hcall⟩ := hcaves.sites _ (List.getElem_mem ht) v hv
  rw [inRange_iff hfit]
  omega

end

include hp hsite hroom hcaves hpos

/-- Trampolines are packed: request `j` finds the call cave's next address one trampoline
further for each request before it that reached its trampoline. -/
theorem toNat_address_before {j : Nat} (hj : j < items.length) :
    (before host reg place relay n start items j).calls.address.toNat =
      start.calls.base.toNat + trampolineLength * calledBefore host reg place relay n start items j := by
  have hlaw := hp.lawful
  have hk : calledBefore host reg place relay n start items j ≤ j := calledBefore_le j
  have hfits := hcaves.call_fits
  rw [CodeBuffer.address, (calls_before reg place relay n hlaw hsite hroom j (Nat.le_of_lt hj)).1,
    pos_before hlaw hsite hroom j (Nat.le_of_lt hj), hpos, Nat.zero_add]
  unfold trampolineLength at *
  exact toNat_add_of_lt (by omega)

/-- A byte misses the footprint of request `t` when it lies outside its relay slot, outside the
trampoline the call cave holds next for it, and outside its site. -/
theorem not_footprint {t : Nat} (ht : t < items.length) {x : Word}
    (hslot : x.toNat < relay.toNat + t * relaySlotSize ∨
      relay.toNat + t * relaySlotSize + relaySlotSize ≤ x.toNat)
    (hcall : x.toNat < start.calls.base.toNat +
        trampolineLength * calledBefore host reg place relay n start items t ∨
      start.calls.base.toNat + trampolineLength * calledBefore host reg place relay n start items t +
        trampolineLength ≤ x.toNat)
    (hsitex : ∀ v, items[t].2 = .ok v → x.toNat < v.toNat ∨ v.toNat + items[t].1.cavesize ≤ x.toNat) :
    ¬Footprint relay (before host reg place relay n start items t) t items[t].1 items[t].2 x := by
  have hrelay := hcaves.relay_fits
  have hcalls := hcaves.call_fits
  have hk : calledBefore host reg place relay n start items t ≤ t := calledBefore_le t
  have haddr : (before host reg place relay n start items t).calls.address.toNat =
      start.calls.base.toNat + trampolineLength * calledBefore host reg place relay n start items t :=
    toNat_address_before reg place n hp hsite hroom hcaves hpos ht
  rintro (h | h | ⟨v, hv, h⟩)
  · rw [inRange_iff (by rw [toNat_slot hcaves ht]; unfold relaySlotSize at *; omega),
      toNat_slot hcaves ht] at h
    omega
  · rw [inRange_iff (by rw [haddr]; unfold trampolineLength at *; omega), haddr] at h
    omega
  · rw [inRange_iff (hcaves.sites _ (List.getElem_mem ht) v hv).1] at h
    have := hsitex v hv
    omega

/-- A byte of relay slot `s` misses the footprint of every other request. -/
theorem not_footprint_of_slot {s t : Nat} (hs : s < items.length) (ht : t < items.length)
    (hts : t ≠ s) {x : Word} (hx : relay.toNat + s * relaySlotSize ≤ x.toNat ∧
      x.toNat < relay.toNat + s * relaySlotSize + relaySlotSize) :
    ¬Footprint relay (before host reg place relay n start items t) t items[t].1 items[t].2 x := by
  have hapart := hcaves.apart
  have hk : calledBefore host reg place relay n start items t ≤ t := calledBefore_le t
  refine not_footprint reg place n hp hsite hroom hcaves hpos ht ?_ ?_ ?_
  · -- another slot of the relay cave
    rcases Nat.lt_or_gt_of_ne hts with h | h
    · right
      have : (t + 1) * relaySlotSize ≤ s * relaySlotSize := Nat.mul_le_mul_right _ h
      rw [Nat.succ_mul] at this
      omega
    · left
      have : (s + 1) * relaySlotSize ≤ t * relaySlotSize := Nat.mul_le_mul_right _ h
      rw [Nat.succ_mul] at this
      omega
  · -- the call cave lies apart from the relay cave
    unfold relaySlotSize trampolineLength at *
    omega
  · -- no site lies in the relay cave
    intro v hv
    have := (hcaves.sites _ (List.getElem_mem ht) v hv).2.1
    unfold relaySlotSize at *
    omega

/-- A byte of the `k`-th trampoline misses the footprint of every request that does not write
the `k`-th trampoline. -/
theorem not_footprint_of_call {t k : Nat} (ht : t < items.length) (hk : k < items.length)
    (hkt : k ≠ calledBefore host reg place relay n start items t) {x : Word}
    (hx : start.calls.base.toNat + trampolineLength * k ≤ x.toNat ∧
      x.toNat < start.calls.base.toNat + trampolineLength * k + trampolineLength) :
    ¬Footprint relay (before host reg place relay n start items t) t items[t].1 items[t].2 x := by
  have hapart := hcaves.apart
  have hkt' : calledBefore host reg place relay n start items t ≤ t := calledBefore_le t
  refine not_footprint reg place n hp hsite hroom hcaves hpos ht ?_ ?_ ?_
  · -- the relay cave lies apart from the call cave
    unfold relaySlotSize trampolineLength at *
    omega
  · -- another trampoline of the call cave
    unfold trampolineLength at *
    omega
  · -- no site lies in the call cave
    intro v hv
    have := (hcaves.sites _ (List.getElem_mem ht) v hv).2.2
    unfold trampolineLength at *
    omega

/-- The trampoline a request finds next lies apart from the relay cave. -/
theorem not_inRange_address {t : Nat} (ht : t < items.length) {x : Word}
    (hx : relay.toNat ≤ x.toNat ∧ x.toNat < relay.toNat + items.length * relaySlotSize) :
    ¬InRange (before host reg place relay n start items t).calls.address trampolineLength x := by
  have hapart := hcaves.apart
  have hcalls := hcaves.call_fits
  have hk : calledBefore host reg place relay n start items t ≤ t := calledBefore_le t
  have haddr : (before host reg place relay n start items t).calls.address.toNat =
      start.calls.base.toNat + trampolineLength * calledBefore host reg place relay n start items t :=
    toNat_address_before reg place n hp hsite hroom hcaves hpos ht
  rw [inRange_iff (by rw [haddr]; unfold trampolineLength at *; omega), haddr]
  unfold trampolineLength relaySlotSize at *
  omega

/-- Before request `s`, its relay slot holds the `int3` bytes the relay cave was filled with. -/
theorem slot_before_self
    (hcc : ∀ x, InRange relay (items.length * relaySlotSize) x → host.byteAt start.mem x = int3)
    {s : Nat} (hs : s < items.length) :
    host.read (before host reg place relay n start items s).mem
      (relay + (s * relaySlotSize).toUInt64) relaySlotSize = List.replicate relaySlotSize int3 := by
  have hrelay := hcaves.relay_fits
  refine hp.read_eq_of_byteAt List.length_replicate fun o ho => ?_
  have hx := toNat_in_slot hcaves hs ho
  -- no request before `s` writes slot `s`
  rw [byteAt_before hp.lawful hsite hroom hp (Nat.zero_le s) (Nat.le_of_lt hs)
      fun t ht _ hts => not_footprint_of_slot reg place n hp hsite hroom hcaves hpos hs ht (by omega)
        (by rw [hx]; omega),
    before_zero, hcc _ (by rw [inRange_iff hrelay, hx]; unfold relaySlotSize at *; omega)]
  simp [ho]

/-- After request `s`, its relay slot holds what the request left there: the `int3` bytes when
it was refused, else its relay, generated into a slot of `int3` bytes. -/
theorem slot_after
    (hcc : ∀ x, InRange relay (items.length * relaySlotSize) x → host.byteAt start.mem x = int3)
    {s : Nat} (hs : s < items.length) :
    (stage host reg relay (before host reg place relay n start items s) s items[s].1 items[s].2 =
        .refused →
      host.read (before host reg place relay n start items (s + 1)).mem
        (relay + (s * relaySlotSize).toUInt64) relaySlotSize = List.replicate relaySlotSize int3) ∧
    ∀ v, items[s].2 = .ok v →
      stage host reg relay (before host reg place relay n start items s) s items[s].1 items[s].2 ≠
        .refused →
      host.read (before host reg place relay n start items (s + 1)).mem
        (relay + (s * relaySlotSize).toUInt64) relaySlotSize =
      (buildRelay host.decode { items[s].1 with addr := v, cave := relay + (s * relaySlotSize).toUInt64 }
        (host.read (before host reg place relay n start items s).mem v items[s].1.cavesize)
        (Array.replicate relaySlotSize int3)).1.toList := by
  have hlaw := hp.lawful
  have hrelay := hcaves.relay_fits
  have hsite_s := hsite items[s] (List.getElem_mem hs)
  have hroom_s := room_at reg place relay n hlaw hsite hroom hs
  have hfresh := slot_before_self reg place n hp hsite hroom hcaves hpos hcc hs
  rw [before_succ hs]
  refine ⟨fun hst => by rw [(step_refused hsite_s hst).1, hfresh], fun v hv hst => ?_⟩
  -- the relay's bytes are written over the fresh slot, and later writes of the request miss it
  have hlen : (buildRelay host.decode
      { items[s].1 with addr := v, cave := relay + (s * relaySlotSize).toUInt64 }
      (host.read (before host reg place relay n start items s).mem v items[s].1.cavesize)
      (Array.replicate relaySlotSize int3)).1.toList.length = relaySlotSize := by
    simp [size_buildRelay]
  refine hp.read_eq_of_byteAt hlen fun o ho => ?_
  have hx := toNat_in_slot hcaves hs ho
  have hin : relay.toNat ≤ (relay + (s * relaySlotSize).toUInt64 + o.toUInt64).toNat ∧
      (relay + (s * relaySlotSize).toUInt64 + o.toUInt64).toNat <
        relay.toNat + items.length * relaySlotSize := by
    rw [hx]
    unfold relaySlotSize at *
    omega
  have hwrite := hp.byteAt_write_at (m := (before host reg place relay n start items s).mem)
    (a := relay + (s * relaySlotSize).toUInt64) (by rw [hlen]; exact ho) (by rw [hlen]; decide)
  cases hst' : stage host reg relay (before host reg place relay n start items s) s
    items[s].1 items[s].2 with
  | refused => exact absurd hst' hst
  | relayed =>
    obtain ⟨v', hv', -, hmem⟩ := step_relayed place n hlaw hsite_s hroom_s hst'
    rw [hv] at hv'
    cases hv'
    rw [hmem, hfresh, List.toArray_replicate]
    exact hwrite
  | called =>
    obtain ⟨v', hv', -, -, -, hmem⟩ := step_called place n hlaw hsite_s hroom_s hst'
    rw [hv] at hv'
    cases hv'
    dsimp only at hmem
    rw [hfresh, List.toArray_replicate] at hmem
    have htramp := not_inRange_address reg place n hp hsite hroom hcaves hpos hs hin
    rcases hmem with hmem | ⟨patch, hplen, hmem⟩
    · rw [hmem, hp.byteAt_write_of_not (by rwa [Trampoline.length_withContext])]
      exact hwrite
    · rw [hmem, hp.byteAt_write_of_not (by rw [hplen]; exact not_inRange_site hcaves hs hv (.inl hin)),
        hp.byteAt_write_of_not (by rwa [Trampoline.length_withContext])]
      exact hwrite

theorem toNat_in_address {s o : Nat} (hs : s < items.length) (ho : o < trampolineLength) :
    ((before host reg place relay n start items s).calls.address + o.toUInt64).toNat =
      start.calls.base.toNat + trampolineLength * calledBefore host reg place relay n start items s + o := by
  have hcalls := hcaves.call_fits
  have hk : calledBefore host reg place relay n start items s ≤ s := calledBefore_le s
  have haddr : (before host reg place relay n start items s).calls.address.toNat =
      start.calls.base.toNat + trampolineLength * calledBefore host reg place relay n start items s :=
    toNat_address_before reg place n hp hsite hroom hcaves hpos hs
  rw [toNat_add_of_lt (by rw [haddr]; unfold trampolineLength at *; omega), haddr]

/-- After a request that reached its trampoline, the call cave's next trampoline holds the
template with the request's descriptor as its context. -/
theorem trampoline_after {s : Nat} (hs : s < items.length)
    (hst : stage host reg relay (before host reg place relay n start items s) s items[s].1 items[s].2 =
      .called) :
    host.read (before host reg place relay n start items (s + 1)).mem
      (before host reg place relay n start items s).calls.address trampolineLength =
    (Trampoline.new place.dispatchEntry).withContext (place.descriptorAt s) := by
  have hlaw := hp.lawful
  have hcalls := hcaves.call_fits
  have hk : calledBefore host reg place relay n start items s ≤ s := calledBefore_le s
  obtain ⟨v, hv, -, -, -, hmem⟩ := step_called place n hlaw (hsite items[s] (List.getElem_mem hs))
    (room_at reg place relay n hlaw hsite hroom hs) hst
  dsimp only at hmem
  rw [before_succ hs]
  refine hp.read_eq_of_byteAt (Trampoline.length_withContext _ _) fun o ho => ?_
  -- the trampoline is written whole at the call cave's next address
  have hwrite : ∀ m : σ, host.byteAt (host.write m (before host reg place relay n start items s).calls.address
      ((Trampoline.new place.dispatchEntry).withContext (place.descriptorAt s)))
      ((before host reg place relay n start items s).calls.address + o.toUInt64) =
      ((Trampoline.new place.dispatchEntry).withContext (place.descriptorAt s)).getD o 0 := fun m =>
    hp.byteAt_write_at (by rwa [Trampoline.length_withContext])
      (by rw [Trampoline.length_withContext]; decide)
  rcases hmem with hmem | ⟨patch, hplen, hmem⟩
  · rw [hmem]
    exact hwrite _
  · -- the site's call misses the call cave
    have hx := toNat_in_address reg place n hp hsite hroom hcaves hpos hs ho
    rw [hmem, hp.byteAt_write_of_not (by
      rw [hplen]
      refine not_inRange_site hcaves hs hv (.inr ?_)
      rw [hx]
      unfold trampolineLength at *
      omega)]
    exact hwrite _

/-- Later requests keep the relay slot of request `s`. -/
theorem slot_final {s : Nat} (hs : s < items.length) :
    host.read (before host reg place relay n start items items.length).mem
      (relay + (s * relaySlotSize).toUInt64) relaySlotSize =
    host.read (before host reg place relay n start items (s + 1)).mem
      (relay + (s * relaySlotSize).toUInt64) relaySlotSize := by
  refine hp.read_congr fun o ho => ?_
  have hx := toNat_in_slot hcaves hs ho
  exact byteAt_before hp.lawful hsite hroom hp hs (Nat.le_refl _) fun t ht hst _ =>
    not_footprint_of_slot reg place n hp hsite hroom hcaves hpos hs ht (by omega) (by rw [hx]; omega)

/-- Later requests keep the trampoline of a request `s` that reached it. -/
theorem trampoline_final {s : Nat} (hs : s < items.length)
    (hst : stage host reg relay (before host reg place relay n start items s) s items[s].1 items[s].2 =
      .called) :
    host.read (before host reg place relay n start items items.length).mem
      (before host reg place relay n start items s).calls.address trampolineLength =
    host.read (before host reg place relay n start items (s + 1)).mem
      (before host reg place relay n start items s).calls.address trampolineLength := by
  have hlaw := hp.lawful
  have hk : calledBefore host reg place relay n start items s ≤ s := calledBefore_le s
  -- every later request finds the call cave past this trampoline
  have hnext : calledBefore host reg place relay n start items (s + 1) =
      calledBefore host reg place relay n start items s +
        if stage host reg relay (before host reg place relay n start items s) s
          items[s].1 items[s].2 = .called then 1 else 0 := calledBefore_succ hs
  refine hp.read_congr fun o ho => ?_
  have hx := toNat_in_address reg place n hp hsite hroom hcaves hpos hs ho
  refine byteAt_before hlaw hsite hroom hp hs (Nat.le_refl _) fun t ht hst' _ => ?_
  have hmono : calledBefore host reg place relay n start items (s + 1) ≤
      calledBefore host reg place relay n start items t := calledBefore_mono hst' (Nat.le_of_lt ht)
  refine not_footprint_of_call reg place n hp hsite hroom hcaves hpos ht
    (k := calledBefore host reg place relay n start items s) (by omega) ?_ (by rw [hx]; omega)
  rw [hnext, if_pos hst] at hmono
  omega

/-- Generated code stays in the caves: a byte outside both caves and every site keeps its
value. -/
theorem byteAt_outside {x : Word} (hrelay : ¬InRange relay (items.length * relaySlotSize) x)
    (hcall : ¬InRange start.calls.base (items.length * trampolineLength) x)
    (hsites : ∀ p ∈ items, ∀ v, p.2 = .ok v → ¬InRange v p.1.cavesize x) :
    host.byteAt (before host reg place relay n start items items.length).mem x =
      host.byteAt start.mem x := by
  rw [inRange_iff hcaves.relay_fits] at hrelay
  rw [inRange_iff hcaves.call_fits] at hcall
  refine byteAt_before hp.lawful hsite hroom hp (Nat.zero_le _) (Nat.le_refl _)
    fun t ht _ _ => not_footprint reg place n hp hsite hroom hcaves hpos ht ?_ ?_ ?_
  · have : (t + 1) * relaySlotSize ≤ items.length * relaySlotSize := Nat.mul_le_mul_right _ ht
    rw [Nat.succ_mul] at this
    omega
  · have : calledBefore host reg place relay n start items t ≤ t := calledBefore_le t
    unfold trampolineLength at *
    omega
  · intro v hv
    have := hsites _ (List.getElem_mem ht) v hv
    rw [inRange_iff (hcaves.sites _ (List.getElem_mem ht) v hv).1] at this
    omega

end Caves

end Run

/-! ### A whole batch -/

/-- Placing the caves fills the relay cave with `int3`. -/
theorem byteAt_placeCaves {host : Host σ} (hp : host.Plain) {mem mem' : σ} {o relay call : Word}
    {n : Nat} (h : placeCaves host mem o n = some (relay, call, mem')) {x : Word}
    (hx : InRange relay (n * relaySlotSize) x) : host.byteAt mem' x = int3 := by
  unfold placeCaves at h
  cases h1 : host.allocate mem o (n * relaySlotSize) with
  | none => simp [h1] at h
  | some p =>
    obtain ⟨r, m1⟩ := p
    cases h2 : host.allocate m1 o (n * trampolineLength) with
    | none => simp [h1, h2] at h
    | some q =>
      obtain ⟨c, m2⟩ := q
      simp only [h1, h2, Option.bind_eq_bind, Option.bind_some, Option.pure_def,
        Option.some.injEq, Prod.mk.injEq] at h
      obtain ⟨rfl, -, rfl⟩ := h
      rw [hp.byteAt_write, if_pos (by rwa [List.length_replicate])]
      unfold InRange at hx
      simp [hx]

theorem item_ne_code (reg : Registry κ) (module : Option Word) (requests : List Request) :
    ∀ p ∈ requests.map (item reg module), ∀ e h, p.2 ≠ .error (.code e) ∧ p.2 ≠ .error (.patch h) := by
  intro p hp e h
  obtain ⟨r, -, rfl⟩ := List.mem_map.mp hp
  exact siteOf_ne_code _ _ e h

/-- Where a batch puts its code, on a plain memory.  For every batch whose caves were placed, no
request fails for want of room; request `j` owns slot `j` of the relay cave, and its descriptor
names the slot once its map and cave size checks pass; trampolines are packed: the `k`-th request
to reach its trampoline, in request order, gets the `k`-th one, and `k < n`.

When the caves do not wrap or meet and no site lies in them, code also stays in the caves:
outside them and the sites, memory is as placing the caves left it.  Slot `j` ends up holding the
request's relay, generated into a slot of `int3` bytes, which is a prefix of at most the displaced
bytes and a jump followed by `int3`; or only `int3` when the request was refused.  The `k`-th
trampoline ends up holding the template with the dispatch routine's address at offset 40 and the
request's descriptor at offset 48. -/
theorem batch_layout (host : Host σ) (hp : host.Plain) (reg : Registry κ) (place : Placement)
    (mem : σ) (module : Option Word) (requests : List Request) {relay call : Word}
    (hcaves : (apply host reg place mem module requests).1.caves = some (relay, call)) :
    let b := apply host reg place mem module requests
    let items := requests.map (item reg module)
    let n := requests.length
    ∃ o mem' log, origin reg module items = some o ∧
      placeCaves host mem o n = some (relay, call, mem') ∧
      let progress := before host reg place relay n (initial mem' call n log) items
      let called := calledBefore host reg place relay n (initial mem' call n log) items
      (∀ j (hj : j < items.length),
        let reached := stage host reg relay (progress j) j items[j].1 items[j].2
        (∀ a c, verdict host reg relay (progress j) j items[j].1 items[j].2 ≠
            .error (.code (.overflow a c)) ∧
          verdict host reg relay (progress j) j items[j].1 items[j].2 ≠
            .error (.patch (.code (.overflow a c)))) ∧
        (∀ v, items[j].2 = .ok v →
          coversReadExecute (host.mappings (progress j).mem) v.toNat relaySlotSize = true →
          ¬(items[j].1.cavesize < minCaveSize ∨ maxCaveSize < items[j].1.cavesize) →
          b.1.breakpoints[j]?.map Breakpoint.cave = some (relay + (j * relaySlotSize).toUInt64)) ∧
        (progress j).calls.address = call + (trampolineLength * called j).toUInt64 ∧
        (reached = .called → called j < n)) ∧
      (CavesApart relay call items →
        (∀ x, ¬InRange relay (n * relaySlotSize) x → ¬InRange call (n * trampolineLength) x →
          (∀ p ∈ items, ∀ v, p.2 = .ok v → ¬InRange v p.1.cavesize x) →
          host.byteAt b.2.1 x = host.byteAt mem' x) ∧
        ∀ j (hj : j < items.length),
          let cave := relay + (j * relaySlotSize).toUInt64
          let reached := stage host reg relay (progress j) j items[j].1 items[j].2
          (reached = .refused →
            host.read b.2.1 cave relaySlotSize = List.replicate relaySlotSize int3) ∧
          (∀ v, items[j].2 = .ok v → reached ≠ .refused →
            host.read b.2.1 cave relaySlotSize =
              (buildRelay host.decode { items[j].1 with addr := v, cave }
                (host.read (progress j).mem v items[j].1.cavesize)
                (Array.replicate relaySlotSize int3)).1.toList ∧
            ∃ code : Bytes, code.length ≤ items[j].1.cavesize + branchLength ∧
              host.read b.2.1 cave relaySlotSize =
                code ++ List.replicate (relaySlotSize - code.length) int3) ∧
          (reached = .called →
            host.read b.2.1 (progress j).calls.address trampolineLength =
              trampolineStub ++ [int3, int3] ++ place.dispatchEntry.toBytes 8 ++
                (place.descriptorAt j).toBytes 8)) := by
  intro b items n
  rcases apply_cases host reg place mem module requests with
    ⟨h, -⟩ | ⟨o, relay', call', mem', log, -, ho, hplace, h⟩
  · simp only [h] at hcaves
    cases hcaves
  simp only [h, Option.some.injEq, Prod.mk.injEq] at hcaves
  obtain ⟨hr, hc⟩ := hcaves
  subst relay' call'
  refine ⟨o, mem', log, ho, hplace, ?_⟩
  intro progress called
  -- the run from the placed caves, and what it starts from
  have hlen : items.length = n := List.length_map _
  have hlaw := hp.lawful
  have hsite : ∀ p ∈ items, ∀ v, p.2 = .ok v → v ≠ 0 := fun _ hp' =>
    site_ne_zero_of_mem reg module requests hp'
  have hroom := room_initial (σ := σ) reg module requests mem' call log
  have hpos : (initial mem' call n log : Progress κ σ).calls.pos = 0 := rfl
  have hfin : b = (⟨(progress items.length).breakpoints, (progress items.length).installed,
      (progress items.length).patches, some (relay, call)⟩, (progress items.length).mem,
      (progress items.length).log) := by
    simp only [b, h, progress, before_length, n, items]
  refine ⟨fun j hj => ?_, fun hapart => ?_⟩
  · -- the descriptors and the call cave's cursor, for every batch
    intro reached
    have hk : called j ≤ j := calledBefore_le j
    refine ⟨fun a c => verdict_ne_overflow host reg relay (progress j) j items[j].1
      (item_ne_code reg module requests items[j] (List.getElem_mem hj)) a c, ?_, ?_, fun _ => by omega⟩
    · intro v hv hcov hcs
      rw [hfin]
      exact cave_before hlaw hsite hroom rfl hj hv hcov hcs
    · rw [CodeBuffer.address, (calls_before reg place relay n hlaw hsite hroom j (Nat.le_of_lt hj)).1,
        pos_before hlaw hsite hroom j (Nat.le_of_lt hj), hpos, Nat.zero_add]
      rfl
  -- with the caves apart, each slot and trampoline is written once, by its request, then kept
  have hcc : ∀ x, InRange relay (items.length * relaySlotSize) x →
      host.byteAt (initial mem' call n log : Progress κ σ).mem x = int3 := fun x hx =>
    byteAt_placeCaves hp hplace (by rwa [hlen] at hx)
  refine ⟨fun x hrelay hcall hsites => ?_, fun j hj => ?_⟩
  · rw [hfin]
    exact byteAt_outside reg place n hp hsite hroom hapart hpos (by rwa [hlen]) (by rwa [hlen]) hsites
  intro cave reached
  have hslot := slot_after reg place n hp hsite hroom hapart hpos hcc hj
  have hfinal := slot_final reg place n hp hsite hroom hapart hpos hj
  refine ⟨?_, ?_, ?_⟩
  · intro hst
    rw [hfin, hfinal]
    exact hslot.1 hst
  · intro v hv hst
    have hrelay : host.read b.2.1 cave relaySlotSize =
        (buildRelay host.decode { items[j].1 with addr := v, cave }
          (host.read (progress j).mem v items[j].1.cavesize)
          (Array.replicate relaySlotSize int3)).1.toList := by
      rw [hfin, hfinal]
      exact hslot.2 v hv hst
    refine ⟨hrelay, ?_⟩
    -- the relay is a prefix of the fresh slot
    obtain ⟨-, -, -, -, hcs, -, -⟩ := found_of_stage hst
    obtain ⟨code, hclen, hcode⟩ := buildRelay_prefix host.decode { items[j].1 with addr := v, cave }
      (host.read (progress j).mem v items[j].1.cavesize) (Array.replicate relaySlotSize int3)
      (hlaw.length_read _ _ _) (show minCaveSize ≤ items[j].1.cavesize by omega)
    refine ⟨code, hclen, ?_⟩
    rw [hrelay, hcode, Array.toList_replicate, List.drop_replicate]
  · intro hst
    rw [hfin, trampoline_final reg place n hp hsite hroom hapart hpos hj hst,
      trampoline_after reg place n hp hsite hroom hapart hpos hj hst, Trampoline.withContext_new]

/-! ### On a flat memory -/

/-- A flat memory of `2 ^ 64` bytes, with caves handed out upwards from `next`. -/
structure FlatMemory where
  byte : Word → UInt8
  next : Word

namespace FlatMemory

/-- The host of a flat memory, mapped readable and executable below `size`; giving a cave back
changes nothing. -/
def host (size : Nat) : Host FlatMemory where
  read m a k := (List.range k).map fun i => m.byte (a + i.toUInt64)
  write m a bs :=
    { m with byte := fun x => if InRange a bs.length x then bs.getD (x - a).toNat 0 else m.byte x }
  mappings _ := [⟨0, size, true⟩]
  protect _ addr len := if addr.toNat + len ≤ size then .ok () else .error .unmappedRegion
  allocate m _ len := some (m.next, { m with next := m.next + len.toUInt64 })
  release m _ := m
  decode := Decoder.branches

theorem byteAt_host (size : Nat) (m : FlatMemory) (x : Word) : (host size).byteAt m x = m.byte x := by
  simp [host, Host.byteAt]

/-- A flat memory is plain. -/
theorem plain (size : Nat) : (host size).Plain where
  read_eq m a k := by
    simp only [byteAt_host]
    rfl
  byteAt_write m a bs x := by
    simp only [byteAt_host]
    rfl
  protect_write _ _ _ _ _ := rfl

end FlatMemory

/-- One request on a flat memory, its site well away from the caves: the caves land at
`0x5000` and `0x5020`, the trampoline is the template for descriptor `0x9000`, and the byte just
past the site is untouched. -/
theorem batch_layout_on_flat_memory :
    let host := FlatMemory.host 0x100000
    let reg : Registry Unit := (Registry.init none).registerCallback "probe" ()
    let mem : FlatMemory := ⟨fun _ => 0x90, 0x5000⟩
    let requests : List Request := [⟨"probe", "0x1000", 5, .null⟩]
    let b := apply host reg ⟨0x9000, 0x100, 0xA000⟩ mem (some 0x1000) requests
    b.1.caves = some (0x5000, 0x5020) ∧
      CavesApart (0x5000 : Word) 0x5020 (requests.map (item reg (some 0x1000))) ∧
      host.read b.2.1 0x5020 trampolineLength =
        trampolineStub ++ [int3, int3] ++ (0xA000 : Word).toBytes 8 ++ (0x9000 : Word).toBytes 8 ∧
      host.byteAt b.2.1 0x1005 = 0x90 := by
  intro host reg mem requests b
  have hcaves : b.1.caves = some (0x5000, 0x5020) := by decide
  -- the one site is `0x1000`, below both caves
  have hsite : ∀ p ∈ requests.map (item reg (some 0x1000)), ∀ v, p.2 = .ok v → v = 0x1000 ∧
      p.1.cavesize = 5 := by
    intro p hp v hv
    simp only [requests, List.map_cons, List.map_nil, List.mem_singleton] at hp
    subst hp
    have hok : (item reg (some 0x1000) ⟨"probe", "0x1000", 5, .null⟩).2 = .ok 0x1000 := by decide
    rw [hok] at hv
    exact ⟨(Except.ok.inj hv).symm, rfl⟩
  have hapart : CavesApart (0x5000 : Word) 0x5020 (requests.map (item reg (some 0x1000))) := by
    refine ⟨by decide, by decide, by decide, fun p hp v hv => ?_⟩
    obtain ⟨rfl, hc⟩ := hsite p hp v hv
    rw [hc]
    decide
  obtain ⟨o, mem', log, ho, hplace, hevery, hcode⟩ :=
    batch_layout host (FlatMemory.plain _) reg _ mem _ requests hcaves
  obtain ⟨houtside, hreq⟩ := hcode hapart
  -- the caves were placed near the module, in the memory that placing them left
  have ho' : o = 0x1000 := by
    have horigin : origin reg (some 0x1000) (requests.map (item reg (some 0x1000))) = some 0x1000 := by
      decide
    rw [horigin] at ho
    exact (Option.some.inj ho).symm
  subst ho'
  have hmem' : mem' = host.write ⟨mem.byte, 0x5000 + 32 + 56⟩ 0x5000 (List.replicate 32 int3) := by
    have hcaves' : placeCaves host mem 0x1000 requests.length = some (0x5000, 0x5020,
        host.write ⟨mem.byte, 0x5000 + 32 + 56⟩ 0x5000 (List.replicate 32 int3)) := rfl
    rw [hcaves'] at hplace
    simp only [Option.some.injEq, Prod.mk.injEq] at hplace
    exact hplace.2.2.symm
  subst hmem'
  refine ⟨hcaves, hapart, ?_, ?_⟩
  · -- the request reaches its trampoline, the first of the call cave
    obtain ⟨-, -, haddr, -⟩ := hevery 0 (by decide)
    obtain ⟨-, -, htramp⟩ := hreq 0 (by decide)
    have hst0 : stage host reg 0x5000 (initial (host.write ⟨mem.byte, 0x5000 + 32 + 56⟩ 0x5000
        (List.replicate 32 int3)) 0x5020 1 []) 0 (requests.map (item reg (some 0x1000)))[0].1
        (requests.map (item reg (some 0x1000)))[0].2 = .called := by
      decide
    have h := htramp ((stage_congr rfl).trans hst0)
    have haddr0 : (before host reg ⟨0x9000, 0x100, 0xA000⟩ 0x5000 requests.length
        (initial (host.write ⟨mem.byte, 0x5000 + 32 + 56⟩ 0x5000 (List.replicate 32 int3)) 0x5020
          requests.length log) (requests.map (item reg (some 0x1000))) 0).calls.address = 0x5020 := by
      rw [haddr]
      show (0x5020 : Word) + (trampolineLength * 0).toUInt64 = 0x5020
      decide
    have hd : (⟨0x9000, 0x100, 0xA000⟩ : Placement).descriptorAt 0 = 0x9000 := by decide
    rw [haddr0, hd] at h
    dsimp only [b]
    dsimp only at h
    exact h
  · -- the byte past the site lies outside the caves and the site
    rw [houtside 0x1005 (by decide) (by decide) fun p hp v hv => ?_]
    · rfl
    · obtain ⟨rfl, hc⟩ := hsite p hp v hv
      rw [hc]
      decide

/-- A site in the relay cave: the request at `0x5008` is installed with its relay in slot 0 at
`0x5000`, and then its site's call overwrites the slot, so the slot is not its relay followed by
`int3`. -/
theorem site_in_relay_cave_overwrites_its_slot :
    let host := FlatMemory.host 0x100000
    let reg : Registry Unit := (Registry.init none).registerCallback "relay" ()
    let b := apply host reg ⟨0x9000, 0x100, 0xA000⟩ ⟨fun _ => 0x90, 0x5000⟩ (some 0x1000)
      [⟨"relay", "0x5008", 6, .null⟩]
    b.1.caves = some (0x5000, 0x5020) ∧ b.1.installed = [0] ∧
      ¬∃ code : Bytes, code.length ≤ 6 + branchLength ∧
        host.read b.2.1 0x5000 relaySlotSize = code ++ List.replicate (relaySlotSize - code.length) int3 := by
  intro host reg b
  refine ⟨by decide, by decide, ?_⟩
  rintro ⟨code, hlen, h⟩
  -- byte 11 of the slot, past any relay of six displaced bytes, holds the call's displacement
  have h11 : (host.read b.2.1 0x5000 relaySlotSize)[11]? = some 0 := by decide
  rw [h, List.getElem?_append_right (by unfold branchLength at hlen; omega),
    List.getElem?_replicate] at h11
  rw [if_pos (by unfold branchLength relaySlotSize at *; omega)] at h11
  cases h11

end Intercept.Batch
