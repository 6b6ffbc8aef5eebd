import Mathlib.Data.List.Basic
import Intercept.Memory
/-!
# Writes and moves on a region, byte by byte

A write from an offset on replaces exactly the bytes it covers inside the region and keeps every
other byte; a move writes the bytes read before it, so it is exact even when its source and
target overlap.  Each statement says what one byte is afterwards (`Region.get?_writeAt`,
`Region.get?_move`), which is the form in which writes compose.
-/

namespace Intercept

namespace Region

/-- The fold behind `writeAt`: setting bytes from offset `k` on. -/
theorem getElem?_foldl_set (bs : Bytes) :
    ∀ (k : Nat) (acc : Array UInt8) (i : Nat),
      ((bs.zipIdx k).foldl (fun acc (b, j) => acc.setIfInBounds j b) acc)[i]? =
        if k ≤ i ∧ i < k + bs.length ∧ i < acc.size then bs[i - k]? else acc[i]? := by
  induction bs with
  | nil =>
    intro k acc i
    simp only [List.zipIdx_nil, List.foldl_nil, List.length_nil]
    rw [if_neg (by omega)]
  | cons b bs ih =>
    intro k acc i
    rw [List.zipIdx_cons, List.foldl_cons, ih, Array.size_setIfInBounds,
      Array.getElem?_setIfInBounds]
    -- the byte at `k` is the one just set; those after it come from the rest of the list
    by_cases hk : i = k
    · subst hk
      rw [if_neg (by omega)]
      by_cases hs : i < acc.size <;> simp [hs]
    · by_cases hlt : k < i
      · have : i - k = (i - (k + 1)) + 1 := by omega
        simp only [List.length_cons, this, List.getElem?_cons_succ]
        split_ifs <;> first | rfl | omega
      · simp only [List.length_cons]
        split_ifs <;> first | rfl | omega

theorem size_foldl_set (bs : Bytes) :
    ∀ (k : Nat) (acc : Array UInt8),
      ((bs.zipIdx k).foldl (fun acc (b, j) => acc.setIfInBounds j b) acc).size = acc.size := by
  induction bs with
  | nil => intro k acc; rfl
  | cons b bs ih =>
    intro k acc
    rw [List.zipIdx_cons, List.foldl_cons, ih, Array.size_setIfInBounds]

@[simp] theorem size_writeAt (r : Region) (k : Nat) (bs : Bytes) : (r.writeAt k bs).size = r.size :=
  size_foldl_set bs k r.bytes

@[simp] theorem base_writeAt (r : Region) (k : Nat) (bs : Bytes) : (r.writeAt k bs).base = r.base :=
  rfl

theorem get?_writeAt (r : Region) (k : Nat) (bs : Bytes) (i : Nat) :
    (r.writeAt k bs).get? i =
      if k ≤ i ∧ i < k + bs.length ∧ i < r.size then bs[i - k]? else r.get? i :=
  getElem?_foldl_set bs k r.bytes i

theorem get?_eq_none {r : Region} {i : Nat} (h : r.size ≤ i) : r.get? i = none := by
  simp [get?, size] at h ⊢
  omega

theorem getElem?_slice (r : Region) (k len j : Nat) :
    (r.slice k len)[j]? = if j < len then r.get? (k + j) else none := by
  simp only [slice, get?, List.getElem?_take, List.getElem?_drop, Array.getElem?_toList]

theorem length_slice {r : Region} {k len : Nat} (h : k + len ≤ r.size) :
    (r.slice k len).length = len := by
  simp only [slice, List.length_take, List.length_drop, Array.length_toList]
  simp only [size] at h
  omega

/-- Reading back what was just written, inside the region, gives it. -/
theorem slice_writeAt_self {r : Region} {k : Nat} {bs : Bytes} (h : k + bs.length ≤ r.size) :
    (r.writeAt k bs).slice k bs.length = bs := by
  apply List.ext_getElem?
  intro j
  rw [getElem?_slice, get?_writeAt]
  by_cases hj : j < bs.length
  · rw [if_pos hj, if_pos (by omega), Nat.add_sub_cancel_left]
  · rw [if_neg hj, List.getElem?_eq_none (by omega)]

/-- A move inside the region: the target holds the source as it was before the move, and every
byte outside the target is what it was. -/
theorem get?_move {r : Region} {src dst len : Nat} (hsrc : src + len ≤ r.size)
    (hdst : dst + len ≤ r.size) (i : Nat) :
    (r.move src dst len).get? i =
      if dst ≤ i ∧ i < dst + len then r.get? (src + (i - dst)) else r.get? i := by
  rw [move, get?_writeAt, length_slice hsrc]
  by_cases hi : dst ≤ i ∧ i < dst + len
  · rw [if_pos ⟨hi.1, hi.2, by omega⟩, if_pos hi, getElem?_slice, if_pos (by omega)]
  · rw [if_neg (fun h => hi ⟨h.1, h.2.1⟩), if_neg hi]

@[simp] theorem base_write (r : Region) (a : Word) (bs : Bytes) : (r.write a bs).base = r.base :=
  rfl

@[simp] theorem size_write (r : Region) (a : Word) (bs : Bytes) : (r.write a bs).size = r.size := by
  unfold write size
  dsimp only
  -- each step sets a byte in bounds or keeps the array
  generalize r.bytes = acc
  induction bs.zipIdx generalizing acc with
  | nil => rfl
  | cons x rest ih =>
    obtain ⟨b, i⟩ := x
    rw [List.foldl_cons, ih]
    dsimp only
    split <;> simp

/-- An address outside a region that ends below the top of the address space has no offset in
it. -/
theorem offset?_eq_none {r : Region} {x : Word} (hr : r.base.toNat + r.size ≤ 2 ^ 64)
    (hx : x.toNat < r.base.toNat ∨ r.base.toNat + r.size ≤ x.toNat) : r.offset? x = none := by
  unfold offset?
  dsimp only
  rw [if_neg]
  -- below the base the difference wraps round to at least the room above the region
  have hxlt := x.toNat_lt_size
  have hblt := r.base.toNat_lt_size
  rw [UInt64.toNat_sub]
  simp only [UInt64.size] at hxlt hblt
  omega

/-- A write that misses a region, and does not wrap past the top of the address space, leaves
the region as it was. -/
theorem write_eq_self {r : Region} {a : Word} {bs : Bytes} (hr : r.base.toNat + r.size ≤ 2 ^ 64)
    (hw : a.toNat + bs.length ≤ 2 ^ 64)
    (hd : a.toNat + bs.length ≤ r.base.toNat ∨ r.base.toNat + r.size ≤ a.toNat) :
    r.write a bs = r := by
  unfold write
  -- every byte of the write falls outside, so the fold never sets one
  rw [List.foldl_ext _ (fun acc _ => acc) r.bytes ?_, List.foldl_fixed]
  intro acc x hx
  obtain ⟨b, i⟩ := x
  obtain ⟨-, hlt, -⟩ := List.mem_zipIdx hx
  have hal := a.toNat_lt_size
  simp only [UInt64.size] at hal
  have hoff : r.offset? (a + i.toUInt64) = none := by
    apply offset?_eq_none hr
    rw [UInt64.toNat_add, UInt64.toNat_ofNat']
    omega
  simp only [hoff]

theorem offset?_eq_some {r : Region} {x : Word} {k : Nat} :
    r.offset? x = some k ↔ (x - r.base).toNat = k ∧ k < r.size := by
  unfold offset?
  dsimp only
  split
  · rename_i h
    constructor
    · rintro ⟨⟩
      exact ⟨rfl, h⟩
    · rintro ⟨rfl, -⟩
      rfl
  · rename_i h
    simp only [reduceCtorEq, false_iff, not_and]
    rintro rfl
    exact h

@[simp] theorem offset?_write (r : Region) (a : Word) (bs : Bytes) (x : Word) :
    (r.write a bs).offset? x = r.offset? x := by
  simp only [offset?, base_write, size_write]

/-- Byte `i` of a write lands on the byte at `x` exactly when `i` is the distance from the
write's start to `x`. -/
theorem offset?_add_eq_some {r : Region} {a x : Word} {k i : Nat} (hx : r.offset? x = some k)
    (hi : i < 2 ^ 64) : r.offset? (a + i.toUInt64) = some k ↔ i = (x - a).toNat := by
  rw [offset?_eq_some] at hx ⊢
  obtain ⟨rfl, hk⟩ := hx
  constructor
  · rintro ⟨h, -⟩
    have hsum : a + i.toUInt64 = x := by
      have := UInt64.toNat_inj.mp h
      grind
    rw [← hsum, show a + i.toUInt64 - a = i.toUInt64 by grind, UInt64.toNat_ofNat']
    exact (Nat.mod_eq_of_lt hi).symm
  · rintro rfl
    refine ⟨?_, hk⟩
    have hd : (x - a).toNat.toUInt64 = x - a := UInt64.ofNat_toNat
    rw [hd]
    congr 1
    grind

/-- The fold behind `write`, seen at the byte at `x`: it holds the byte of the write that lands
on it, if one does, and otherwise what it held. -/
theorem getElem?_foldl_write {r : Region} {a x : Word} {k : Nat} (hx : r.offset? x = some k)
    (bs : Bytes) : ∀ (s : Nat) (acc : Array UInt8), s + bs.length ≤ 2 ^ 64 →
      ((bs.zipIdx s).foldl (fun acc (b, i) =>
          match r.offset? (a + i.toUInt64) with
          | some k => acc.setIfInBounds k b
          | none => acc) acc)[k]? =
        if s ≤ (x - a).toNat ∧ (x - a).toNat < s + bs.length ∧ k < acc.size then
          bs[(x - a).toNat - s]? else acc[k]? := by
  induction bs with
  | nil =>
    intro s acc _
    simp only [List.zipIdx_nil, List.foldl_nil, List.length_nil]
    rw [if_neg (by omega)]
  | cons b bs ih =>
    intro s acc hs
    simp only [List.length_cons] at hs ⊢
    rw [List.zipIdx_cons, List.foldl_cons, ih (s + 1) _ (by omega)]
    -- the first byte of the write lands on `x` exactly when `x` is where the write starts
    have hland := offset?_add_eq_some (a := a) hx (i := s) (by omega)
    split
    · rename_i k' hk'
      rw [Array.size_setIfInBounds, Array.getElem?_setIfInBounds]
      by_cases hd : s = (x - a).toNat
      · have hkk : k' = k := Option.some.inj (hk'.symm.trans (hland.mpr hd))
        subst hkk hd
        rw [if_neg (by omega)]
        by_cases hks : k' < acc.size
        · simp [hks]
        · simp [hks]
      · have hkk : k' ≠ k := fun h => hd (hland.mp (h ▸ hk'))
        rw [if_neg hkk]
        by_cases hlt : s + 1 ≤ (x - a).toNat
        · have : (x - a).toNat - s = (x - a).toNat - (s + 1) + 1 := by omega
          simp only [this, List.getElem?_cons_succ]
          split_ifs <;> first | rfl | omega
        · split_ifs <;> first | rfl | omega
    · rename_i hnone
      have hd : s ≠ (x - a).toNat := fun h => by rw [hland.mpr h] at hnone; cases hnone
      by_cases hlt : s + 1 ≤ (x - a).toNat
      · have : (x - a).toNat - s = (x - a).toNat - (s + 1) + 1 := by omega
        simp only [this, List.getElem?_cons_succ]
        split_ifs <;> first | rfl | omega
      · split_ifs <;> first | rfl | omega

/-- After a write that does not wrap onto itself, the byte at `x` holds the byte of the write
that lands on it, if one does, and otherwise what it held. -/
theorem get?_write {r : Region} {a x : Word} {k : Nat} (hx : r.offset? x = some k) {bs : Bytes}
    (hlen : bs.length ≤ 2 ^ 64) :
    (r.write a bs).get? k = if (x - a).toNat < bs.length then bs[(x - a).toNat]? else r.get? k := by
  have hk := (offset?_eq_some.mp hx).2
  unfold write get?
  refine (getElem?_foldl_write hx bs 0 r.bytes (by omega)).trans ?_
  simp only [Nat.zero_le, true_and, Nat.zero_add, Nat.sub_zero]
  by_cases hd : (x - a).toNat < bs.length
  · rw [if_pos ⟨hd, hk⟩, if_pos hd]
  · rw [if_neg (fun h => hd h.1), if_neg hd]

/-- Regions at one base are equal when every byte is. -/
theorem eq_of_get? {r r' : Region} (hbase : r.base = r'.base) (h : ∀ k, r.get? k = r'.get? k) :
    r = r' := by
  obtain ⟨base, bytes⟩ := r
  obtain ⟨base', bytes'⟩ := r'
  simp only at hbase
  subst hbase
  have hbytes : bytes = bytes' := Array.ext_getElem? h
  rw [hbytes]

theorem offset?_base_add {r : Region} {k : Nat} (hk : k < r.size) (hsize : r.size ≤ 2 ^ 64) :
    r.offset? (r.base + k.toUInt64) = some k := by
  rw [offset?_eq_some, show r.base + k.toUInt64 - r.base = k.toUInt64 by grind,
    UInt64.toNat_ofNat']
  exact ⟨Nat.mod_eq_of_lt (by omega), hk⟩

end Region

end Intercept
