import Intercept.Cave
/-!
# Where caves are placed

A cave is cut either from a pool that holds it, where the slice choice puts it, or from a new
pool placed where nothing of the memory map is.  Either way it lies inside a pool, and pools never meet a
mapping they were placed against.  So a range that a mapping names, such as the code, is never
overlapped by a cave, provided the pools there were already did not overlap it
(`Cave.allocate_clear`).

A pool is sound when it lies below the top of the address space and its slices lie inside it;
`allocate` keeps every pool sound.
-/

namespace Intercept.Cave

/-- A pool as allocation leaves it: below the top of the address space, with its slices inside
it. -/
def Pool.Sound (p : Pool) : Prop := p.start + p.size ≤ 2 ^ 64 ∧ ∀ s ∈ p.slices, s.1 + s.2 ≤ p.size

/-- The range `[a, a + len)` does not meet the mapping `m`. -/
def Clear (m : Mapping) (a len : Nat) : Prop := m.stop ≤ a ∨ a + len ≤ m.start

theorem least?_mem {l : List Nat} {a : Nat} (h : least? l = some a) : a ∈ l := by
  induction l generalizing a with
  | nil => cases h
  | cons b rest ih =>
    simp only [least?, Option.some.injEq] at h
    cases hr : least? rest with
    | none =>
      rw [hr] at h
      rw [← h]
      exact List.mem_cons_self
    | some c =>
      rw [hr] at h
      -- the least is the head or the least of the rest
      rcases Nat.le_total b c with hbc | hcb
      · rw [← h, Option.elim_some, Nat.min_eq_left hbc]
        exact List.mem_cons_self
      · rw [← h, Option.elim_some, Nat.min_eq_right hcb]
        exact List.mem_cons_of_mem _ (ih hr)

theorem greatest?_mem {l : List Nat} {a : Nat} (h : greatest? l = some a) : a ∈ l := by
  induction l generalizing a with
  | nil => cases h
  | cons b rest ih =>
    simp only [greatest?, Option.some.injEq] at h
    cases hr : greatest? rest with
    | none =>
      rw [hr] at h
      rw [← h]
      exact List.mem_cons_self
    | some c =>
      rw [hr] at h
      rcases Nat.le_total b c with hbc | hcb
      · rw [← h, Option.elim_some, Nat.max_eq_right hbc]
        exact List.mem_cons_of_mem _ (ih hr)
      · rw [← h, Option.elim_some, Nat.max_eq_left hcb]
        exact List.mem_cons_self

theorem firstAbove_fits {maps : List Mapping} {origin len a : Nat}
    (h : firstAbove maps origin len = some a) : fits maps a len = true := by
  have hmem := List.mem_filter.mp (least?_mem h)
  simp only [Bool.and_eq_true] at hmem
  exact hmem.2.2

theorem lastBelow_fits {maps : List Mapping} {origin len a : Nat}
    (h : lastBelow maps origin len = some a) : fits maps a len = true := by
  have hmem := List.mem_filter.mp (greatest?_mem h)
  simp only [Bool.and_eq_true] at hmem
  exact hmem.2.2

theorem fits_clear {maps : List Mapping} {m : Mapping} {a len : Nat} (hm : m ∈ maps)
    (h : fits maps a len = true) : Clear m a len ∧ a + len ≤ addressLimit := by
  simp only [fits, isFree, Bool.and_eq_true, decide_eq_true_eq, List.all_eq_true,
    Bool.or_eq_true] at h
  exact ⟨h.2 m hm, h.1.2⟩

theorem mem_insertSlice {x s : Nat × Nat} :
    ∀ {slices : List (Nat × Nat)}, x ∈ insertSlice s slices ↔ x = s ∨ x ∈ slices := by
  intro slices
  induction slices with
  | nil => simp [insertSlice]
  | cons t rest ih =>
    simp only [insertSlice]
    split
    · simp
    · simp only [List.mem_cons, ih, or_left_comm]

/-- Cutting a slice from a sound pool: the slice lies inside it, and the pool keeps its memory
and stays sound. -/
theorem Pool.take?_spec {fit : SliceChoice} {p p' : Pool} {len off : Nat} (hp : p.Sound)
    (h : p.take? fit len = some (off, p')) :
    off + len ≤ p.size ∧ p'.memory = p.memory ∧ p'.Sound := by
  simp only [Pool.take?, Option.map_eq_some_iff, Prod.mk.injEq] at h
  obtain ⟨o, hgap, rfl, rfl⟩ := h
  have hfit := fit.inside hp.2 hgap
  refine ⟨hfit, rfl, hp.1, ?_⟩
  intro s hs
  rcases mem_insertSlice.mp hs with rfl | hs
  · exact hfit
  · exact hp.2 s hs

/-- A cave cut from the pools lies inside one of them, and every pool afterwards is sound and
has the memory of a pool before. -/
theorem fromPools_spec {fit : SliceChoice} {origin len a : Nat} :
    ∀ {pools pools' : List Pool}, (∀ p ∈ pools, p.Sound) →
      fromPools fit origin len pools = some (a, pools') →
      (∃ p ∈ pools, p.start ≤ a ∧ a + len ≤ p.start + p.size) ∧
        ∀ q ∈ pools', q.Sound ∧ ∃ p ∈ pools, q.memory = p.memory := by
  intro pools
  induction pools with
  | nil =>
    intro pools' _ h
    cases h
  | cons p rest ih =>
    intro pools' hs h
    simp only [fromPools] at h
    split at h
    · -- the first pool near the origin with room
      rename_i off p' htake
      split at htake
      case isFalse => cases htake
      simp only [Option.some.injEq, Prod.mk.injEq] at h
      obtain ⟨rfl, rfl⟩ := h
      obtain ⟨hfit, hmem, hsound⟩ := Pool.take?_spec (hs p List.mem_cons_self) htake
      refine ⟨⟨p, List.mem_cons_self, Nat.le_add_right _ _, by omega⟩, ?_⟩
      intro q hq
      rcases List.mem_cons.mp hq with rfl | hq
      · exact ⟨hsound, p, List.mem_cons_self, hmem⟩
      · exact ⟨hs q (List.mem_cons_of_mem _ hq), q, List.mem_cons_of_mem _ hq, rfl⟩
    · -- a later pool
      obtain ⟨⟨a', ps⟩, hrest, hh⟩ := Option.map_eq_some_iff.mp h
      simp only [Prod.mk.injEq] at hh
      obtain ⟨rfl, rfl⟩ := hh
      obtain ⟨⟨q, hq, hqa⟩, hps⟩ := ih (fun q hq => hs q (List.mem_cons_of_mem _ hq)) hrest
      refine ⟨⟨q, List.mem_cons_of_mem _ hq, hqa⟩, ?_⟩
      intro q' hq'
      rcases List.mem_cons.mp hq' with rfl | hq'
      · exact ⟨hs q' List.mem_cons_self, q', List.mem_cons_self, rfl⟩
      · obtain ⟨hsound, r, hr, hmem⟩ := hps q' hq'
        exact ⟨hsound, r, List.mem_cons_of_mem _ hr, hmem⟩

/-- A new pool of `size` bytes placed where it fits, holding a first slice of `len` bytes: the
slice and the pool lie clear of every mapping, and the pool is sound. -/
theorem newPool_clear {maps : List Mapping} {m : Mapping} {b size len : Nat} (hm : m ∈ maps)
    (hfits : fits maps b size = true) (hsize : len ≤ size) :
    let p : Pool := ⟨Region.filled b.toUInt64 size 0, [(0, len)]⟩
    Clear m b len ∧ b + len ≤ 2 ^ 64 ∧ p.Sound ∧ Clear m p.start p.size := by
  intro p
  obtain ⟨hclear, hlimit⟩ := fits_clear hm hfits
  have htop : b + size < 2 ^ 64 := by
    unfold addressLimit at hlimit
    omega
  -- the pool starts at the place found and has the size asked for
  have hstart : p.start = b := by
    simp only [p, Pool.start, Region.filled, UInt64.toNat_ofNat']
    exact Nat.mod_eq_of_lt (by omega)
  have hsz : p.size = size := by
    simp [p, Pool.size, Region.filled, Region.size]
  refine ⟨?_, by omega, ⟨by rw [hstart, hsz]; omega, ?_⟩, by rw [hstart, hsz]; exact hclear⟩
  · unfold Clear at hclear ⊢
    omega
  · intro s hs
    rw [List.mem_singleton] at hs
    subst hs
    rw [hsz, Nat.zero_add]
    exact hsize

/-- Placing a cave of `len` bytes keeps the pools sound, and keeps a mapping of the
memory map clear of them: the cave lies clear of it, below the top of the address space. -/
theorem allocate_clear {fit : SliceChoice} {maps : List Mapping} {pools pools' : List Pool}
    {m : Mapping} {origin len a : Nat} (hm : m ∈ maps)
    (hpools : ∀ p ∈ pools, p.Sound ∧ Clear m p.start p.size)
    (h : allocate fit maps pools origin len = some (a, pools')) :
    Clear m a len ∧ a + len ≤ 2 ^ 64 ∧ ∀ p ∈ pools', p.Sound ∧ Clear m p.start p.size := by
  unfold allocate at h
  dsimp only at h
  split at h
  · -- from a pool that had room
    rename_i r hfrom
    cases h
    obtain ⟨⟨p, hp, hlo, hhi⟩, hafter⟩ := fromPools_spec (fun p hp => (hpools p hp).1) hfrom
    obtain ⟨hsound, hclear⟩ := hpools p hp
    refine ⟨?_, by have := hsound.1; omega, ?_⟩
    · unfold Clear at hclear ⊢
      omega
    · intro q hq
      obtain ⟨hqs, r, hr, hmem⟩ := hafter q hq
      refine ⟨hqs, ?_⟩
      have hrc := (hpools r hr).2
      simp only [Clear, Pool.start, Pool.size, hmem] at hrc ⊢
      exact hrc
  · -- from a new pool where nothing is mapped
    split at h
    · rename_i b hfound
      simp only [Option.some.injEq, Prod.mk.injEq] at h
      obtain ⟨rfl, rfl⟩ := h
      have hfits : fits (maps ++ pools.map Pool.mapping) b (roundUp (max len 1)) = true := by
        cases hab : firstAbove (maps ++ pools.map Pool.mapping) origin (roundUp (max len 1)) with
        | none =>
          rw [hab] at hfound
          exact lastBelow_fits hfound
        | some c =>
          rw [hab] at hfound
          cases hfound
          exact firstAbove_fits hab
      obtain ⟨hclear, htop, hnew⟩ := newPool_clear (List.mem_append_left _ hm) hfits
        (Nat.le_trans (Nat.le_max_left _ _) (roundUp_ge _))
      refine ⟨hclear, htop, ?_⟩
      intro q hq
      rcases List.mem_append.mp hq with hq | hq
      · exact hpools q hq
      · rw [List.mem_singleton] at hq
        subst hq
        exact hnew
    · cases h

end Intercept.Cave
