import Intercept.Memory
/-!
# Placing caves

A cave is executable memory that generated code lives in.  Caves are reached from breakpoint
sites with 32-bit relative branches, so they must lie within `reach` bytes of an origin near the
sites.

Caves are cut from pools: page-aligned mappings, zero when they are mapped, that hand out
slices of their bytes.  Where in a pool a slice goes is a parameter (`SliceChoice`), of which
all that is assumed is that the slice lies inside the pool; the service's pools hand out the
first gap between their slices that is long enough (`firstFit`).  A released slice leaves a
gap; a pool with no slice left is unmapped.  A request for a
cave first tries every pool that lies wholly within reach of the origin, oldest first.
Failing that, a new pool of whole pages is mapped: at the lowest free place above the origin,
else at the highest free place below it.  A place is free when no page of it is mapped
already, and it can be mapped when it lies between `lowestAddress` and `addressLimit`.

`Cave.allocate` finds that place without walking the address space page by page.  Mappings
are page-aligned, so the page before the lowest place that fits is below the origin's page,
below `lowestAddress`, or mapped: the place is the origin's page, `lowestAddress` or the end of
a mapping.  Likewise the highest place below the origin that fits is the origin's page, the
highest place below `addressLimit`, or a mapping's start less the pool's size.

## Main statements

* `coversReadExecute_nil` — no memory is readable and executable when nothing is mapped.
* `roundUp_ge`, `roundUp_dvd` — a pool's size is whole pages and holds the request.
-/

namespace Intercept

/-- A mapped range of memory and whether it may be read and executed. -/
structure Mapping where
  start : Nat
  size : Nat
  readExecute : Bool

/-- The end of a mapping, one past its last byte. -/
def Mapping.stop (m : Mapping) : Nat := m.start + m.size

/-- One step of the walk over the mappings that meet a range, which carries the first address
not yet covered: a mapping that starts at or before it and may be read and executed moves it
to the mapping's end; any other mapping stops the walk. -/
def coverStep (next : Option Nat) (m : Mapping) : Option Nat :=
  next.bind fun n => if m.start ≤ n ∧ m.readExecute then some m.stop else none

/-- Whether `[addr, addr + len)` lies inside the mappings, without a gap and with read and
execute permission throughout, and its end `addr + len` is a machine word.  The mappings are
given in increasing order of address. -/
def coversReadExecute (maps : List Mapping) (addr len : Nat) : Bool :=
  addr + len < 2 ^ 64 &&
    ((maps.filter fun m => m.start < addr + len ∧ addr < m.stop).foldl coverStep
      (some addr)).elim false fun n => addr + len ≤ n

theorem coversReadExecute_nil (addr len : Nat) (h : 0 < len) :
    coversReadExecute [] addr len = false := by
  simp [coversReadExecute]
  omega

namespace Cave

def pageSize : Nat := 0x1000

/-- How far a 32-bit relative branch reaches either way. -/
def reach : Nat := 0x80000000

/-- The lowest address a new mapping may have. -/
def lowestAddress : Nat := 0x1000

/-- One past the highest address a new mapping may cover. -/
def addressLimit : Nat := 0x7ffffffff000

/-- The largest machine word, where address arithmetic saturates. -/
def maxAddress : Nat := 2 ^ 64 - 1

def outOfMemory : String :=
  "Ran out of memory within an acceptable proximity to the allocation location"

def roundUp (n : Nat) : Nat := (n + pageSize - 1) / pageSize * pageSize

theorem roundUp_ge (n : Nat) : n ≤ roundUp n := by
  simp only [roundUp, pageSize]
  omega

theorem roundUp_dvd (n : Nat) : pageSize ∣ roundUp n :=
  Nat.dvd_mul_left _ _

/-- A page-aligned mapping that caves are cut from, with its bytes. -/
structure Pool where
  memory : Region
  /-- The slices handed out, as offsets and lengths, in increasing order of offset. -/
  slices : List (Nat × Nat)

def Pool.start (p : Pool) : Nat := p.memory.base.toNat

def Pool.size (p : Pool) : Nat := p.memory.size

def Pool.mapping (p : Pool) : Mapping := ⟨p.start, p.size, true⟩

/-- The addresses within reach of an origin, `[lo, hi)`, saturating at the ends of the
address space. -/
def window (origin : Nat) : Nat × Nat := (origin - reach, min (origin + reach) maxAddress)

def inWindow (origin a : Nat) : Bool := (window origin).1 ≤ a && a < (window origin).2

/-- Whether no page of `[a, a + len)` is mapped. -/
def isFree (maps : List Mapping) (a len : Nat) : Bool :=
  maps.all fun m => m.stop ≤ a || a + len ≤ m.start

/-- Whether a new pool of `len` bytes can be mapped at `a`. -/
def fits (maps : List Mapping) (a len : Nat) : Bool :=
  0 < a && lowestAddress ≤ a && a + len ≤ addressLimit && isFree maps a len

def floorPage (a : Nat) : Nat := a / pageSize * pageSize

/-- The first page at or above an address, or the address's own page at the top of the
address space. -/
def ceilPage (a : Nat) : Nat :=
  if a + pageSize ≤ maxAddress then roundUp a else floorPage a

def least? : List Nat → Option Nat
  | [] => none
  | a :: rest => some ((least? rest).elim a (min a))

def greatest? : List Nat → Option Nat
  | [] => none
  | a :: rest => some ((greatest? rest).elim a (max a))

/-- The places above the origin where a free run of pages can begin. -/
def aboveCandidates (maps : List Mapping) (origin : Nat) : List Nat :=
  max (ceilPage origin) pageSize :: lowestAddress :: maps.map Mapping.stop

/-- The lowest place at or above the origin, within reach, where a pool of `len` bytes fits. -/
def firstAbove (maps : List Mapping) (origin len : Nat) : Option Nat :=
  let start := max (ceilPage origin) pageSize
  least? ((aboveCandidates maps origin).filter fun a =>
    start ≤ a && inWindow origin a && fits maps a len)

/-- The places below the origin where a free run of pages can end. -/
def belowCandidates (maps : List Mapping) (origin len : Nat) : List Nat :=
  max (floorPage origin) pageSize :: (addressLimit - len) ::
    (maps.filter fun m => len ≤ m.start).map fun m => m.start - len

/-- The highest place at or below the origin, within reach, where a pool of `len` bytes fits. -/
def lastBelow (maps : List Mapping) (origin len : Nat) : Option Nat :=
  let start := max (floorPage origin) pageSize
  greatest? ((belowCandidates maps origin len).filter fun a =>
    a ≤ start && inWindow origin a && fits maps a len)

/-- Whether a pool lies wholly within reach of the origin. -/
def Pool.near (p : Pool) (origin : Nat) : Bool :=
  0 < p.size && inWindow origin p.start && inWindow origin (p.start + p.size - 1)

/-- How a pool hands out its bytes: where in a pool of `size` bytes, among the slices `taken`,
a new slice of `len` bytes goes, if there is room.  A slice chosen among slices inside the pool
lies inside it too. -/
structure SliceChoice where
  choose : Nat → Nat → List (Nat × Nat) → Option Nat
  inside : ∀ {len size taken off}, (∀ s ∈ taken, s.1 + s.2 ≤ size) →
    choose len size taken = some off → off + len ≤ size

/-- The offset of the first gap of `len` bytes in a pool of `size` bytes, looking from offset
`start` on, before the slices `taken`. -/
def firstGap (len size start : Nat) : List (Nat × Nat) → Option Nat
  | [] => if start + len ≤ size then some start else none
  | (off, l) :: rest => if start + len ≤ off then some start else firstGap len size (off + l) rest

/-- A gap found among slices that lie inside the pool lies inside it too. -/
theorem firstGap_bound {len size : Nat} :
    ∀ {start off : Nat} {slices : List (Nat × Nat)}, (∀ s ∈ slices, s.1 + s.2 ≤ size) →
      firstGap len size start slices = some off → off + len ≤ size := by
  intro start off slices hs h
  induction slices generalizing start with
  | nil =>
    simp only [firstGap] at h
    split at h
    · rename_i hfit
      cases h
      exact hfit
    · cases h
  | cons s rest ih =>
    obtain ⟨o, l⟩ := s
    simp only [firstGap] at h
    split at h
    · -- the gap before this slice, which lies inside the pool
      rename_i hbefore
      cases h
      have hs' := hs (o, l) List.mem_cons_self
      simp only at hs'
      omega
    · exact ih (fun s hm => hs s (List.mem_cons_of_mem _ hm)) h

/-- First fit: the first gap between the slices, in order of offset, that holds the bytes. -/
def firstFit : SliceChoice where
  choose len size taken := firstGap len size 0 taken
  inside hs h := firstGap_bound hs h

def insertSlice (s : Nat × Nat) : List (Nat × Nat) → List (Nat × Nat)
  | [] => [s]
  | t :: rest => if s.1 < t.1 then s :: t :: rest else t :: insertSlice s rest

/-- Cuts `len` bytes from a pool where the slice choice puts them: the slice's offset and the
pool afterwards. -/
def Pool.take? (fit : SliceChoice) (p : Pool) (len : Nat) : Option (Nat × Pool) :=
  (fit.choose len p.size p.slices).map fun off =>
    (off, { p with slices := insertSlice (off, len) p.slices })

/-- Cuts `len` bytes from the first pool near the origin with room for them. -/
def fromPools (fit : SliceChoice) (origin len : Nat) : List Pool → Option (Nat × List Pool)
  | [] => none
  | p :: rest =>
    match (if p.near origin then p.take? fit len else none) with
    | some (off, p') => some (p.start + off, p' :: rest)
    | none => (fromPools fit origin len rest).map fun (a, ps) => (a, p :: ps)

/-- Places a cave of `len` bytes near the origin, cutting slices from pools as `fit` chooses.
`maps` is the memory map apart from the pools.  The result is the cave's address and the pools
afterwards. -/
def allocate (fit : SliceChoice) (maps : List Mapping) (pools : List Pool) (origin len : Nat) :
    Option (Nat × List Pool) :=
  match fromPools fit origin len pools with
  | some r => some r
  | none =>
    let size := roundUp (max len 1)
    let taken := maps ++ pools.map Pool.mapping
    match firstAbove taken origin size <|> lastBelow taken origin size with
    | some a => some (a, pools ++ [⟨Region.filled a.toUInt64 size 0, [(0, len)]⟩])
    | none => none

def Pool.holds (p : Pool) (a : Nat) : Bool := p.start ≤ a && a < p.start + p.size

/-- Gives back the slice starting at `a` to the first pool that holds `a`; a pool left with no
slice is unmapped. -/
def release (pools : List Pool) (a : Nat) : List Pool :=
  match pools.findIdx? (·.holds a) with
  | none => pools
  | some i =>
    match pools[i]? with
    | none => pools
    | some p =>
      match p.slices.filter (fun s => s.1 + p.start ≠ a) with
      | [] => pools.eraseIdx i
      | rest => pools.set i { p with slices := rest }

end Cave

end Intercept
