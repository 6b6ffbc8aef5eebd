import Intercept.Batch
/-!
# Readable and executable coverage

Before a breakpoint's code is read, `Batch.checkRegion` makes sure that its bytes can be: it walks
the mappings that meet the range in increasing order of address, carrying the first address
not yet covered, and gives up at a mapping that starts past that frontier or may not be read
and executed.  On a memory map whose mappings are sorted and disjoint, this walk decides the
condition one would write down (`ReadExecutable`): the range ends below `2 ^ 64`, each of its
bytes lies in a mapping, and each mapping that meets it may be read and executed.  Otherwise
the range is reported as inaccessible, with its address and length.

* `frontier_reaches_iff` — the invariant of the walk: from a frontier at or below the end of
  every mapping still to come, it gets past the end exactly when those mappings cover the rest
  of the range and all may be read and executed.  A mapping that starts before the range is
  taken whole, so it cannot hide a gap.
* `checkRegion_decides` — the check accepts exactly the read-executable ranges.
-/

namespace Intercept

/-- Mappings in increasing order of address, each ending at or before the next begins. -/
def Mapping.Sorted (maps : List Mapping) : Prop :=
  maps.Pairwise fun m m' => m.stop ≤ m'.start

instance (maps : List Mapping) : Decidable (Mapping.Sorted maps) :=
  inferInstanceAs (Decidable (maps.Pairwise _))

/-- Every byte of `[lo, hi)` lies in one of the mappings. -/
def Mapping.Covers (maps : List Mapping) (lo hi : Nat) : Prop :=
  ∀ x, lo ≤ x → x < hi → ∃ m ∈ maps, m.start ≤ x ∧ x < m.stop

/-- `len` bytes from `lo` on can hold code that is run: they end below `2 ^ 64`, each lies in a
mapping, and every mapping that meets them may be read and executed. -/
def ReadExecutable (maps : List Mapping) (lo len : Nat) : Prop :=
  lo + len < 2 ^ 64 ∧ Mapping.Covers maps lo (lo + len) ∧
    ∀ m ∈ maps, m.start < lo + len → lo < m.stop → m.readExecute = true

theorem foldl_coverStep_none (maps : List Mapping) : maps.foldl coverStep none = none := by
  induction maps with
  | nil => rfl
  | cons m rest ih => exact ih

theorem Mapping.start_le_stop (m : Mapping) : m.start ≤ m.stop := Nat.le_add_right _ _

/-- Past a mapping that holds the frontier, the rest of the range is left to the others. -/
theorem Mapping.covers_cons {m : Mapping} {rest : List Mapping} {p e : Nat}
    (hstart : m.start ≤ p) (hstop : p ≤ m.stop) :
    Mapping.Covers (m :: rest) p e ↔ Mapping.Covers rest m.stop e := by
  constructor
  · intro hcov x hx hxe
    obtain ⟨m', hm', hlo, hhi⟩ := hcov x (by omega) hxe
    rcases List.mem_cons.mp hm' with rfl | hrest
    · omega
    · exact ⟨m', hrest, hlo, hhi⟩
  · intro hcov x hx hxe
    by_cases hin : x < m.stop
    · exact ⟨m, List.mem_cons_self, by omega, hin⟩
    · obtain ⟨m', hm', hlo, hhi⟩ := hcov x (by omega) hxe
      exact ⟨m', List.mem_cons_of_mem _ hm', hlo, hhi⟩

theorem Mapping.not_covers {maps : List Mapping} {p e : Nat} (hp : p < e)
    (hpast : ∀ m ∈ maps, p < m.start) : ¬ Mapping.Covers maps p e := by
  intro hcov
  obtain ⟨m, hm, hlo, -⟩ := hcov p (Nat.le_refl p) hp
  exact absurd hlo (Nat.not_le.mpr (hpast m hm))

/-- The invariant of the walk.  By induction on the mappings: each one either holds the
frontier, and the frontier moves to its end, which lies at or below the end of every later
one; or it starts past the frontier, and by sortedness so do all later ones, which leaves the
frontier uncovered. -/
theorem frontier_reaches_iff {maps : List Mapping} (hs : Mapping.Sorted maps) {p e : Nat}
    (hstart : ∀ m ∈ maps, m.start < e) (hstop : ∀ m ∈ maps, p ≤ m.stop) :
    ((maps.foldl coverStep (some p)).elim false fun n => decide (e ≤ n)) = true ↔
      Mapping.Covers maps p e ∧ ∀ m ∈ maps, m.readExecute = true := by
  induction maps generalizing p with
  | nil =>
    simp only [List.foldl_nil, Option.elim_some, decide_eq_true_eq]
    constructor
    · intro hep
      exact ⟨fun x hx hxe => absurd hxe (by omega), fun m hm => absurd hm List.not_mem_nil⟩
    · rintro ⟨hcov, -⟩
      -- an empty list covers only an empty range
      refine Nat.le_of_not_lt fun hlt => ?_
      obtain ⟨m, hm, -⟩ := hcov p (Nat.le_refl p) hlt
      exact List.not_mem_nil hm
  | cons m rest ih =>
    have hs' : Mapping.Sorted rest := (List.pairwise_cons.mp hs).2
    have hafter : ∀ m' ∈ rest, m.stop ≤ m'.start := (List.pairwise_cons.mp hs).1
    rw [List.foldl_cons]
    by_cases hm : m.start ≤ p ∧ m.readExecute = true
    · -- `m` holds the frontier: the walk goes on from its end
      have hstep : coverStep (some p) m = some m.stop := by
        simp [coverStep, hm]
      have hstop' : ∀ m' ∈ rest, m.stop ≤ m'.stop := fun m' hm' =>
        Nat.le_trans (hafter m' hm') m'.start_le_stop
      rw [hstep, ih hs' (fun m' hm' => hstart m' (List.mem_cons_of_mem _ hm')) hstop',
        Mapping.covers_cons hm.1 (hstop m List.mem_cons_self)]
      simp [hm.2]
    · -- the walk stops at `m`, and the range is not what the check asks for
      have hstep : coverStep (some p) m = none := by
        simp only [coverStep, Option.bind_some]
        rw [if_neg hm]
      rw [hstep, foldl_coverStep_none]
      simp only [Option.elim_none, Bool.false_eq_true, false_iff, not_and]
      intro hcov hrx
      have hlate : p < m.start :=
        Nat.lt_of_not_le fun hle => hm ⟨hle, hrx m List.mem_cons_self⟩
      refine Mapping.not_covers (Nat.lt_trans hlate (hstart m List.mem_cons_self)) ?_ hcov
      intro m' hm'
      rcases List.mem_cons.mp hm' with rfl | hrest
      · exact hlate
      · exact Nat.lt_of_lt_of_le hlate (Nat.le_trans m.start_le_stop (hafter m' hrest))

/-- Only the mappings that meet a range can cover any of its bytes. -/
theorem covers_filter_meets (maps : List Mapping) (lo hi : Nat) :
    Mapping.Covers (maps.filter fun m => m.start < hi ∧ lo < m.stop) lo hi ↔
      Mapping.Covers maps lo hi := by
  constructor
  · intro hcov x hx hxe
    obtain ⟨m, hm, hlo, hhi⟩ := hcov x hx hxe
    exact ⟨m, (List.mem_filter.mp hm).1, hlo, hhi⟩
  · intro hcov x hx hxe
    obtain ⟨m, hm, hlo, hhi⟩ := hcov x hx hxe
    exact ⟨m, List.mem_filter.mpr ⟨hm, by simp only [decide_eq_true_eq]; omega⟩, hlo, hhi⟩

/-- On sorted and disjoint mappings, the walk accepts exactly the read-executable ranges. -/
theorem coversReadExecute_iff {maps : List Mapping} (hs : Mapping.Sorted maps) (lo len : Nat) :
    coversReadExecute maps lo len = true ↔ ReadExecutable maps lo len := by
  let meeting := maps.filter fun m => m.start < lo + len ∧ lo < m.stop
  have hmeet : ∀ m ∈ meeting, m.start < lo + len ∧ lo < m.stop := fun m hm => by
    simpa using (List.mem_filter.mp hm).2
  have hwalk := frontier_reaches_iff (hs.filter _) (fun m hm => (hmeet m hm).1)
    (fun m hm => Nat.le_of_lt (hmeet m hm).2)
  rw [coversReadExecute, Bool.and_eq_true, decide_eq_true_eq, hwalk, covers_filter_meets]
  simp only [ReadExecutable, List.mem_filter, decide_eq_true_eq, and_imp]

/-- `checkRegion` decides whether a range can hold code that is run, on every memory map whose
mappings are sorted and disjoint; a range it refuses is reported with its address and
length. -/
theorem checkRegion_decides {maps : List Mapping} (hs : Mapping.Sorted maps) (addr : Word)
    (len : Nat) :
    (Batch.checkRegion maps addr len = .ok () ↔ ReadExecutable maps addr.toNat len) ∧
      (¬ ReadExecutable maps addr.toNat len →
        Batch.checkRegion maps addr len = .error (.inaccessible addr len)) := by
  have hdec := coversReadExecute_iff hs addr.toNat len
  unfold Batch.checkRegion
  constructor
  · by_cases h : coversReadExecute maps addr.toNat len = true
    · simp [h, ← hdec]
    · simp [h, ← hdec]
  · intro hnot
    rw [if_neg (fun h => hnot (hdec.mp h))]

/-- The driver's code mapping and the guard page after it. -/
def codeAndGuard : List Mapping := [⟨0x40000000, 0x4000, true⟩, ⟨0x40004000, 0x1000, false⟩]

/-- Thirty-two bytes that run from the code mapping into the guard page are refused. -/
theorem checkRegion_into_guard_page :
    Mapping.Sorted codeAndGuard ∧ ¬ ReadExecutable codeAndGuard 0x40003ff0 32 ∧
      Batch.checkRegion codeAndGuard 0x40003ff0 32 = .error (.inaccessible 0x40003ff0 32) := by
  have hs : Mapping.Sorted codeAndGuard := by decide
  have hnot : ¬ ReadExecutable codeAndGuard 0x40003ff0 32 := by
    rintro ⟨-, -, hrx⟩
    exact absurd (hrx ⟨0x40004000, 0x1000, false⟩ (by simp [codeAndGuard]) (by decide)
      (by decide)) (by decide)
  exact ⟨hs, hnot, (checkRegion_decides hs 0x40003ff0 32).2 hnot⟩

end Intercept
