import Intercept.Proofs.Code
import Intercept.Batch
/-!
# One request of a batch

What handling one request does, said once.  Its outcome is decided by checks in a fixed
order (`Batch.verdict`): the address resolves, it is not null, its 32 bytes are readable and
executable, the cave size lies from 5 to 27, a callback is registered, the relay's branches
reach their targets, and the site is patched: its call reaches the trampoline, and its bytes
can be made writable (`Batch.codeCheck`).  Nothing else can fail: the relay slot holds every
relay of an accepted cave size, and the call cave keeps a trampoline's room for every request
still to come.  What is needed of the host is that it reads as many bytes as asked for, and
that writing bytes changes no protection (`Host.Lawful`).

`Batch.step_cases` says what one request does, by how far it gets, and `installed_step`,
`names_step`, `calls_step`, `log_prefix_step` and `failureLine_mem_step` read off its effect on
each part of the batch's progress.
-/

namespace Intercept.Batch

open Code

variable {κ σ : Type}

/-! ### The checks -/

/-- The site the resolver's answer `r` for an address text gives: text after a nonzero address
is forgiven, any other error is reported, and a zero address is null. -/
def siteOf (r : Resolution) (text : String) : Except BreakpointError Word :=
  match r.error with
  | some e => if e = .garbage ∧ r.value ≠ 0 then .ok r.value else .error (.unresolved text e)
  | none => if r.value = 0 then .error .nullAddress else .ok r.value

/-- Whether the relay of a site reaches its targets from its slot at `cave`: a leading branch
of the displaced bytes that `dec` finds, re-aimed, and the jump back behind the `len` displaced
bytes. -/
def relayReach (dec : Decoder) (cave site : Word) (len : Nat) (displaced : Bytes) :
    Except CodeError Unit :=
  let lead : Except CodeError Unit :=
    match leadingBranch? dec displaced site with
    | some (_, target) => (rel32 cave target).map fun _ => ()
    | none => .ok ()
  lead.bind fun _ => (rel32 (cave + len.toUInt64) (site + len.toUInt64)).map fun _ => ()

/-- Whether the code of a breakpoint at `site` with `len` displaced bytes can be put in place,
in the memory `mem`: its relay at `cave` reaches its targets, then the site is patched, for
which the site's call must reach its trampoline at `entry` and the site's bytes must be made
writable.  A relay's failure is one of code, the others are failures to patch. -/
def codeCheck (host : Host σ) (mem : σ) (cave site : Word) (len : Nat) (entry : Word) :
    Except BreakpointError Unit :=
  match relayReach host.decode cave site len (host.read mem site len) with
  | .error e => .error (.code e)
  | .ok () =>
    match rel32 site entry with
    | .error e => .error (.patch (.code e))
    | .ok _ => (host.protect mem site len).mapError fun e => .patch (.protection e)

/-- The outcome of request `i`, whose site is `site`, handled in the batch progress `st` with
the relay cave at `relay`: the first check that fails, in the order they are reported. -/
def verdict (host : Host σ) (reg : Registry κ) (relay : Word) (st : Progress κ σ) (i : Nat)
    (bp : Breakpoint κ) (site : Except BreakpointError Word) : Except BreakpointError Unit :=
  match site with
  | .error e => .error e
  | .ok v =>
    if !coversReadExecute (host.mappings st.mem) v.toNat relaySlotSize then
      .error (.inaccessible v relaySlotSize)
    else if bp.cavesize < minCaveSize ∨ maxCaveSize < bp.cavesize then
      .error (.badCaveSize bp.cavesize)
    else if reg.callback? bp.key = none then .error (.callbackNotFound bp.key)
    else codeCheck host st.mem (relay + (i * relaySlotSize).toUInt64) v bp.cavesize st.calls.address

/-- The site of a breakpoint is what `siteOf` makes of the resolver's answer. -/
theorem resolveSite_fst (reg : Registry κ) (module : Option Word) (bp : Breakpoint κ) :
    (resolveSite reg module bp).1 =
      siteOf (resolve reg.symbols (module <|> reg.module) bp.addrText.toList) bp.addrText := by
  unfold resolveSite siteOf
  dsimp only
  generalize resolve reg.symbols (module <|> reg.module) bp.addrText.toList = r
  obtain ⟨value, taken, error⟩ := r
  -- the null check comes after the error check, and forgives nothing
  by_cases hv : value = 0
  · subst hv
    cases error with
    | none => rfl
    | some e => cases e <;> rfl
  · cases error with
    | none => simp [hv]
    | some e => cases e <;> simp [hv]

/-! ### The relay -/

theorem runSteps_snd (b : CodeBuffer) (s : CodeBuffer → Except CodeError CodeBuffer)
    (rest : List (CodeBuffer → Except CodeError CodeBuffer)) :
    (runSteps b (s :: rest)).2 = (s b).bind fun b' => (runSteps b' rest).2 := by
  rw [runSteps]
  cases s b <;> rfl

/-- The jump back of a relay, from a slot at `cave` that holds the `len` displaced bytes. -/
theorem runSteps_jumpBack {b : CodeBuffer} {cave back : Word} {len : Nat} (hbase : b.base = cave)
    (hpos : b.pos = len) (hroom : branchLength ≤ b.remaining) :
    (runSteps b [fun b => b.emitJmp back]).2 = (rel32 (cave + len.toUInt64) back).map fun _ => () := by
  rw [runSteps_snd, CodeBuffer.emitJmp, CodeBuffer.emitBranch_eq, CodeBuffer.address, hbase, hpos]
  cases rel32 (cave + len.toUInt64) back with
  | error e => rfl
  | ok d =>
    obtain ⟨b', h, -⟩ := CodeBuffer.emit_of_le
      (show (branch jmpOpcode d).length ≤ b.remaining by simpa [branchLength] using hroom)
    simp only [Except.bind, h, Except.map]
    rfl

/-- A relay fits its slot whenever the displaced bytes leave room for the jump back, so it
fails only where `relayReach` says. -/
theorem buildRelay_snd {dec : Decoder} {bp : Breakpoint κ} {displaced : Bytes}
    {slot : Array UInt8} (hlen : displaced.length = bp.cavesize) (hmin : minCaveSize ≤ bp.cavesize)
    (hslot : bp.cavesize + branchLength ≤ slot.size) :
    (buildRelay dec bp displaced slot).2 = relayReach dec bp.cave bp.addr bp.cavesize displaced := by
  unfold buildRelay relayReach
  dsimp only
  have hmin' : 5 ≤ bp.cavesize := hmin
  have hslot' : bp.cavesize + 5 ≤ slot.size := hslot
  cases hlb : leadingBranch? dec displaced bp.addr with
  | none =>
    -- the displaced bytes as they are, then the jump back
    obtain ⟨b1, h1, hbase1, hpos1, -⟩ := CodeBuffer.emit_of_le
      (show displaced.length ≤ (CodeBuffer.new slot bp.cave).remaining by simp; omega)
    have hrem1 := CodeBuffer.remaining_of_emit h1
    rw [List.singleton_append, runSteps_snd, h1]
    simp only [Except.bind]
    have hpos : b1.pos = bp.cavesize := by simp [hpos1, hlen, CodeBuffer.new]
    rw [runSteps_jumpBack hbase1 hpos
      (by simp only [hrem1, CodeBuffer.remaining_new, branchLength]; omega)]
    rfl
  | some lead =>
    obtain ⟨op, target⟩ := lead
    dsimp only
    -- the leading branch re-aimed, the rest of the displaced bytes, then the jump back
    rw [List.cons_append, runSteps_snd, CodeBuffer.emitBranch_eq, CodeBuffer.address_new]
    cases hr : rel32 bp.cave target with
    | error e => rfl
    | ok d =>
      obtain ⟨b1, h1, hbase1, hpos1, -⟩ := CodeBuffer.emit_of_le
        (show (branch op d).length ≤ (CodeBuffer.new slot bp.cave).remaining by simp; omega)
      have hrem1 := CodeBuffer.remaining_of_emit h1
      obtain ⟨b2, h2, hbase2, hpos2, -⟩ := CodeBuffer.emit_of_le
        (show (displaced.drop 5).length ≤ b1.remaining by simp [hrem1, hlen]; omega)
      have hrem2 := CodeBuffer.remaining_of_emit h2
      simp only [Except.bind, h1, List.cons_append, List.nil_append]
      rw [runSteps_snd, h2]
      simp only [Except.bind]
      have hpos : b2.pos = bp.cavesize := by
        simp only [hpos2, hpos1, List.length_drop, CodeBuffer.length_branch, hlen, CodeBuffer.new]
        omega
      rw [runSteps_jumpBack (hbase2.trans hbase1) hpos
        (by simp only [hrem2, hrem1, CodeBuffer.remaining_new, branchLength, List.length_drop,
          CodeBuffer.length_branch, hlen]; omega)]
      rfl

/-- Steps that keep a buffer's size keep it over a run. -/
theorem size_runSteps (b : CodeBuffer) (steps : List (CodeBuffer → Except CodeError CodeBuffer))
    (h : ∀ s ∈ steps, ∀ b b', s b = .ok b' → b'.data.size = b.data.size) :
    (runSteps b steps).1.data.size = b.data.size := by
  induction steps generalizing b with
  | nil => rfl
  | cons s rest ih =>
    rw [runSteps]
    cases hs : s b with
    | error e => rfl
    | ok b' =>
      dsimp only
      rw [ih b' (fun s' hs' => h s' (List.mem_cons_of_mem _ hs')), h s List.mem_cons_self b b' hs]

/-- A relay is generated in place: the slot keeps its size. -/
theorem size_buildRelay (dec : Decoder) (bp : Breakpoint κ) (displaced : Bytes)
    (slot : Array UInt8) : (buildRelay dec bp displaced slot).1.size = slot.size := by
  unfold buildRelay
  dsimp only
  show (runSteps _ _).1.data.size = _
  rw [size_runSteps]
  · rfl
  · -- every step of a relay is an emission, which keeps the slot's size
    intro s hs b b' h
    cases hlb : leadingBranch? dec displaced bp.addr with
    | none =>
      rw [hlb] at hs
      simp only [List.singleton_append, List.mem_cons, List.not_mem_nil, or_false] at hs
      rcases hs with rfl | rfl
      · exact CodeBuffer.size_of_emit h
      · exact CodeBuffer.size_of_emitBranch h
    | some lead =>
      obtain ⟨op, target⟩ := lead
      rw [hlb] at hs
      simp only [List.cons_append, List.nil_append, List.mem_cons, List.not_mem_nil,
        or_false] at hs
      rcases hs with rfl | rfl | rfl
      · exact CodeBuffer.size_of_emitBranch h
      · exact CodeBuffer.size_of_emit h
      · exact CodeBuffer.size_of_emitBranch h

/-! ### Installing -/

section Install

variable (host : Host σ) (place : Placement) (i : Nat) (bp : Breakpoint κ) (st : Progress κ σ)

/-- What installing does, by where it stops: the relay is always written into its slot; when
the relay reaches its targets the next trampoline is written too; when the rest of the code
check passes, the site's call reaching the trampoline and the site made writable, the site is
patched, and the bytes it held are kept. -/
theorem install_cases (hlaw : host.Lawful)
    (hmin : minCaveSize ≤ bp.cavesize) (hmax : bp.cavesize ≤ maxCaveSize)
    (hroom : trampolineLength ≤ st.calls.remaining) :
    let displaced := host.read st.mem bp.addr bp.cavesize
    let relayed := host.write st.mem bp.cave
      (buildRelay host.decode bp displaced (host.read st.mem bp.cave relaySlotSize).toArray).1.toList
    let placed := host.write relayed st.calls.address
      ((Trampoline.new place.dispatchEntry).withContext (place.descriptorAt i))
    (∃ e, relayReach host.decode bp.cave bp.addr bp.cavesize displaced = .error e ∧
      install host place i bp st = ({ st with mem := relayed }, .error (.code e))) ∨
    (∃ calls : CodeBuffer, calls.base = st.calls.base ∧ calls.data.size = st.calls.data.size ∧
      calls.remaining = st.calls.remaining - trampolineLength ∧
      relayReach host.decode bp.cave bp.addr bp.cavesize displaced = .ok () ∧
      ((∃ e, codeCheck host st.mem bp.cave bp.addr bp.cavesize st.calls.address = .error e ∧
        install host place i bp st = ({ st with mem := placed, calls }, .error e)) ∨
       (∃ d, codeCheck host st.mem bp.cave bp.addr bp.cavesize st.calls.address = .ok () ∧
        rel32 bp.addr st.calls.address = .ok d ∧
        install host place i bp st =
          ({ st with
              mem := host.write placed bp.addr
                (branch callOpcode d ++ List.replicate (bp.cavesize - 5) nop)
              calls
              patches := st.patches ++ [⟨bp.addr, host.read placed bp.addr bp.cavesize⟩] },
            .ok ())))) := by
  dsimp only
  have hmin5 : 5 ≤ bp.cavesize := hmin
  have hrelay : (buildRelay host.decode bp (host.read st.mem bp.addr bp.cavesize)
      (host.read st.mem bp.cave relaySlotSize).toArray).2 =
      relayReach host.decode bp.cave bp.addr bp.cavesize (host.read st.mem bp.addr bp.cavesize) :=
    buildRelay_snd (hlaw.length_read _ _ _) hmin
      (by
        simp [hlaw.length_read, relaySlotSize, branchLength]
        unfold maxCaveSize relaySlotSize at hmax
        omega)
  obtain ⟨calls, hins, hbase, hsize, hrem⟩ :=
    Trampoline.instantiate_of_le place.dispatchEntry (place.descriptorAt i) hroom
  unfold install
  dsimp only
  rw [hrelay]
  cases hr : relayReach host.decode bp.cave bp.addr bp.cavesize
    (host.read st.mem bp.addr bp.cavesize) with
  | error e => exact .inl ⟨e, rfl, rfl⟩
  | ok u =>
    obtain ⟨⟩ := u
    refine .inr ⟨calls, hbase, hsize, hrem, rfl, ?_⟩
    -- past the relay the trampoline always fits, and the site's patch decides
    rw [hins]
    dsimp only
    rw [assembleCall_eq _ _ hmin5]
    cases hc : rel32 bp.addr st.calls.address with
    | error e => exact .inl ⟨.patch (.code e), by simp only [codeCheck, hr, hc], rfl⟩
    | ok d =>
      simp only [Except.map, List.length_append, CodeBuffer.length_branch, List.length_replicate,
        Nat.add_sub_cancel' hmin5]
      -- the site is made writable in the memory as it was: writing keeps protection
      rw [hlaw.protect_write, hlaw.protect_write]
      cases hp : host.protect st.mem bp.addr bp.cavesize with
      | error e =>
        exact .inl ⟨.patch (.protection e), by simp only [codeCheck, hr, hc, hp]; rfl, rfl⟩
      | ok u =>
        obtain ⟨⟩ := u
        exact .inr ⟨d, by simp only [codeCheck, hr, hc, hp]; rfl, rfl, rfl⟩

end Install

/-! ### One request -/

/-- The line a failed request `i` of `n` is logged with: its position, its site (zero when it
has none), its name and the reason. -/
def failureLine (n i : Nat) (site : Except BreakpointError Word) (name : String)
    (e : BreakpointError) : LogLine :=
  LogLine.error ("(" ++ column2 (i + 1) ++ "/" ++ column2 n ++ ") " ++
    Word.hexPadded (match site with | .ok a => a | .error _ => 0) ++ " " ++ name ++ "... " ++
    e.message)

/-- What a request that passed its checks leaves behind short of its site patch: its relay
slot written at `cave`, then, when the relay reached its targets, a trampoline written at the
call cave's next address, which moves on by at most a trampoline. -/
structure Advance (host : Host σ) (st : Progress κ σ) (cave : Word) (mem : σ)
    (calls : CodeBuffer) : Prop where
  base : calls.base = st.calls.base
  size : calls.data.size = st.calls.data.size
  remaining : st.calls.remaining - trampolineLength ≤ calls.remaining
  written : ∃ slot : Bytes, slot.length = relaySlotSize ∧
    (mem = host.write st.mem cave slot ∨ ∃ tramp : Bytes, tramp.length = trampolineLength ∧
      mem = host.write (host.write st.mem cave slot) st.calls.address tramp)

/-- The bookkeeping after request `i` of `n`: its descriptor `bp'` is kept, and the request is
listed as installed or its failure is logged. -/
def record (n i : Nat) (site : Except BreakpointError Word) (name : String) (bp' : Breakpoint κ) :
    Progress κ σ × Except BreakpointError Unit → Progress κ σ
  | (st, .ok ()) => { st with breakpoints := st.breakpoints ++ [bp'], installed := st.installed ++ [i] }
  | (st, .error e) =>
    { st with breakpoints := st.breakpoints ++ [bp'], log := st.log ++ [failureLine n i site name e] }

namespace Advance

variable {host : Host σ} {st : Progress κ σ} {cave : Word}

/-- A request whose relay did not reach its targets wrote only its relay slot. -/
theorem of_relay {slot : Bytes} (hslot : slot.length = relaySlotSize) :
    Advance host st cave (host.write st.mem cave slot) st.calls :=
  ⟨rfl, rfl, Nat.sub_le _ _, slot, hslot, .inl rfl⟩

/-- A request whose relay reached its targets wrote its relay slot and a trampoline. -/
theorem of_trampoline {slot tramp : Bytes} {calls : CodeBuffer} (hslot : slot.length = relaySlotSize)
    (htramp : tramp.length = trampolineLength) (hbase : calls.base = st.calls.base)
    (hsize : calls.data.size = st.calls.data.size)
    (hrem : calls.remaining = st.calls.remaining - trampolineLength) :
    Advance host st cave (host.write (host.write st.mem cave slot) st.calls.address tramp) calls :=
  ⟨hbase, hsize, Nat.le_of_eq hrem.symm, slot, hslot, .inr ⟨tramp, htramp, rfl⟩⟩

end Advance

section Step

variable (host : Host σ) (reg : Registry κ) (place : Placement) (relay : Word) (n : Nat)
  (st : Progress κ σ) (i : Nat) (bp : Breakpoint κ)

theorem step_error (e : BreakpointError) :
    step host reg place relay n st i bp (.error e) =
      record n i (.error e) bp.name bp (st, .error e) := rfl

theorem step_inaccessible {v : Word}
    (hcov : coversReadExecute (host.mappings st.mem) v.toNat relaySlotSize = false) :
    step host reg place relay n st i bp (.ok v) =
      record n i (.ok v) bp.name bp (st, .error (.inaccessible v relaySlotSize)) := by
  unfold step checkRegion
  dsimp only
  rw [hcov]
  rfl

/-- Past the map check, a request is decided by its descriptor's set-up and then by
installing. -/
theorem step_init {v : Word}
    (hcov : coversReadExecute (host.mappings st.mem) v.toNat relaySlotSize = true) :
    step host reg place relay n st i bp (.ok v) =
      let (bp', r, log) := bp.init reg v (relay + (i * relaySlotSize).toUInt64)
      let st := { st with log := st.log ++ log }
      match r with
      | .error e => record n i (.ok v) bp.name bp' (st, .error e)
      | .ok () => record n i (.ok v) bp.name bp' (install host place i bp' st) := by
  unfold step checkRegion
  dsimp only
  rw [hcov, if_pos rfl]
  obtain ⟨bp', r, log⟩ := bp.init reg v (relay + (i * relaySlotSize).toUInt64)
  cases r with
  | error e => rfl
  | ok u =>
    dsimp only
    obtain ⟨st', r'⟩ := install host place i bp' { st with log := st.log ++ log }
    cases r' <;> rfl

theorem init_badCaveSize (v cave : Word) (hv : v ≠ 0)
    (hcs : bp.cavesize < minCaveSize ∨ maxCaveSize < bp.cavesize) :
    ∃ log, bp.init reg v cave = (bp, .error (.badCaveSize bp.cavesize), log) := by
  unfold Breakpoint.init
  rw [if_neg hv, if_pos hcs]
  exact ⟨_, rfl⟩

theorem init_callback (v cave : Word) (hv : v ≠ 0)
    (hcs : ¬(bp.cavesize < minCaveSize ∨ maxCaveSize < bp.cavesize)) :
    bp.init reg v cave =
      ({ bp with callback := reg.callback? bp.key, addr := v, cave },
        (match reg.callback? bp.key with
         | some _ => .ok ()
         | none => .error (.callbackNotFound bp.key)), []) := by
  unfold Breakpoint.init
  rw [if_neg hv, if_neg hcs]
  cases reg.callback? bp.key <;> rfl

/-- Past the checks of site, map, cave size and callback, the verdict is whether the code can
be put in place. -/
theorem verdict_of_found {v : Word} {k : κ}
    (hcov : coversReadExecute (host.mappings st.mem) v.toNat relaySlotSize = true)
    (hcs : ¬(bp.cavesize < minCaveSize ∨ maxCaveSize < bp.cavesize))
    (hcb : reg.callback? bp.key = some k) :
    verdict host reg relay st i bp (.ok v) =
      codeCheck host st.mem (relay + (i * relaySlotSize).toUInt64) v bp.cavesize
        st.calls.address := by
  unfold verdict
  dsimp only
  rw [hcov, Bool.not_true, if_neg Bool.false_ne_true, if_neg hcs, hcb,
    if_neg (Option.some_ne_none k)]

/-- A request whose descriptor was set up with callback `k` is decided by installing: it stops
after writing its relay slot, and perhaps its trampoline, or its site is patched with the call
that `assembleCall` makes. -/
theorem step_found {v : Word} {k : κ} (hlaw : host.Lawful)
    (hroom : trampolineLength ≤ st.calls.remaining) (hv : v ≠ 0)
    (hcov : coversReadExecute (host.mappings st.mem) v.toNat relaySlotSize = true)
    (hcs : ¬(bp.cavesize < minCaveSize ∨ maxCaveSize < bp.cavesize))
    (hcb : reg.callback? bp.key = some k) :
    let bp' := { bp with callback := some k, addr := v, cave := relay + (i * relaySlotSize).toUInt64 }
    (∃ e mem calls, verdict host reg relay st i bp (.ok v) = .error e ∧
      Advance host st (relay + (i * relaySlotSize).toUInt64) mem calls ∧
      step host reg place relay n st i bp (.ok v) =
        record n i (.ok v) bp.name bp' ({ st with mem, calls }, .error e)) ∨
    (∃ mem calls patch, verdict host reg relay st i bp (.ok v) = .ok () ∧
      Advance host st (relay + (i * relaySlotSize).toUInt64) mem calls ∧
      assembleCall v st.calls.address bp.cavesize = .ok patch ∧
      step host reg place relay n st i bp (.ok v) =
        record n i (.ok v) bp.name bp' ({ st with
          mem := host.write mem v patch
          calls
          patches := st.patches ++ [⟨v, host.read mem v bp.cavesize⟩] }, .ok ())) := by
  intro bp'
  rw [step_init _ _ _ _ _ _ _ _ hcov, init_callback reg bp v (relay + (i * relaySlotSize).toUInt64) hv hcs]
  dsimp only
  rw [hcb]
  dsimp only
  have hmin : minCaveSize ≤ bp.cavesize := by omega
  have hmax : bp.cavesize ≤ maxCaveSize := by omega
  have hslot : ∀ (b : Breakpoint κ) displaced, (buildRelay host.decode b displaced
      (host.read st.mem (relay + (i * relaySlotSize).toUInt64) relaySlotSize).toArray).1.toList.length =
      relaySlotSize := by
    intro b displaced
    simp [size_buildRelay, hlaw.length_read]
  have hverdict := verdict_of_found host reg relay st i bp hcov hcs hcb
  rcases install_cases host place i bp' { st with log := st.log ++ [] } hlaw hmin hmax hroom with
    ⟨e, hrel, hins⟩ | ⟨calls, hbase, hsize, hrem, -, ⟨e, hcheck, hins⟩ | ⟨d, hcheck, hc, hins⟩⟩
  · -- the relay does not reach: only its slot was written
    dsimp only [bp'] at hrel hins
    rw [hins]
    exact .inl ⟨.code e, _, st.calls, by rw [hverdict, codeCheck, hrel],
      Advance.of_relay (hslot _ _), by rw [List.append_nil]⟩
  · -- the trampoline was written, but the site could not be patched
    dsimp only [bp'] at hcheck hins
    rw [hins]
    exact .inl ⟨e, _, calls, by rw [hverdict, hcheck],
      Advance.of_trampoline (hslot _ _) (Trampoline.length_withContext _ _) hbase hsize hrem,
      by rw [List.append_nil]⟩
  · -- everything passes: the site is patched with the call
    dsimp only [bp'] at hcheck hc hins
    rw [hins]
    exact .inr ⟨_, calls, _, by rw [hverdict, hcheck],
      Advance.of_trampoline (hslot _ _) (Trampoline.length_withContext _ _) hbase hsize hrem,
      by rw [assembleCall_eq _ _ hmin, hc]; rfl, by rw [List.append_nil]⟩

/-- What one request does, by how far it gets: it fails before writing anything (perhaps
after logging why its descriptor was refused), or fails after writing its relay and perhaps its
trampoline, or it is installed, its site patched with the call that `assembleCall` makes.  In
each case its verdict says which, and which error is logged. -/
theorem step_cases {site : Except BreakpointError Word} (hlaw : host.Lawful)
    (hsite : ∀ v, site = .ok v → v ≠ 0) (hroom : trampolineLength ≤ st.calls.remaining) :
    (∃ e bp' l, verdict host reg relay st i bp site = .error e ∧
      step host reg place relay n st i bp site =
        record n i site bp.name bp' ({ st with log := st.log ++ l }, .error e) ∧
      bp'.name = bp.name) ∨
    (∃ e bp' mem calls, verdict host reg relay st i bp site = .error e ∧
      Advance host st (relay + (i * relaySlotSize).toUInt64) mem calls ∧
      step host reg place relay n st i bp site =
        record n i site bp.name bp' ({ st with mem, calls }, .error e) ∧
      bp'.name = bp.name) ∨
    (∃ v bp' mem calls patch, site = .ok v ∧ verdict host reg relay st i bp site = .ok () ∧
      bp'.name = bp.name ∧ bp'.addr = v ∧ bp'.cavesize = bp.cavesize ∧
      Advance host st (relay + (i * relaySlotSize).toUInt64) mem calls ∧
      assembleCall v st.calls.address bp.cavesize = .ok patch ∧
      step host reg place relay n st i bp site =
        record n i site bp.name bp' ({ st with
          mem := host.write mem v patch
          calls
          patches := st.patches ++ [⟨v, host.read mem v bp.cavesize⟩] }, .ok ())) := by
  cases site with
  | error e =>
    -- an unresolved or null site is reported before anything is looked at
    exact .inl ⟨e, bp, [], rfl, by rw [step_error, List.append_nil], rfl⟩
  | ok v =>
    have hv := hsite v rfl
    cases hcov : coversReadExecute (host.mappings st.mem) v.toNat relaySlotSize with
    | false =>
      refine .inl ⟨_, bp, [], ?_, by rw [step_inaccessible _ _ _ _ _ _ _ _ hcov, List.append_nil], rfl⟩
      simp [verdict, hcov]
    | true =>
      by_cases hcs : bp.cavesize < minCaveSize ∨ maxCaveSize < bp.cavesize
      · obtain ⟨log, hinit⟩ := init_badCaveSize reg bp v (relay + (i * relaySlotSize).toUInt64) hv hcs
        rw [step_init _ _ _ _ _ _ _ _ hcov, hinit]
        refine .inl ⟨_, bp, log, ?_, rfl, rfl⟩
        simp [verdict, hcov, hcs]
      cases hcb : reg.callback? bp.key with
      | none =>
        rw [step_init _ _ _ _ _ _ _ _ hcov, init_callback reg bp v (relay + (i * relaySlotSize).toUInt64) hv hcs]
        dsimp only
        rw [hcb]
        refine .inl ⟨_, _, [], ?_, rfl, rfl⟩
        simp [verdict, hcov, hcs, hcb]
      | some k =>
        rcases step_found host reg place relay n st i bp hlaw hroom hv hcov hcs hcb with
          ⟨e, mem, calls, hver, ha, hs⟩ | ⟨mem, calls, patch, hver, ha, hpatch, hs⟩
        · exact .inr (.inl ⟨e, _, mem, calls, hver, ha, hs, rfl⟩)
        · exact .inr (.inr ⟨v, _, mem, calls, patch, rfl, hver, by rfl, by rfl, by rfl, ha, hpatch, hs⟩)

/-! ### The effect of one request on each part of the progress -/

section Effects

variable {host st} {site : Except BreakpointError Word}
  (hlaw : host.Lawful) (hsite : ∀ v, site = .ok v → v ≠ 0)
  (hroom : trampolineLength ≤ st.calls.remaining)
include hlaw hsite hroom

/-- A request is listed as installed exactly when its verdict is success. -/
theorem installed_step :
    (step host reg place relay n st i bp site).installed =
      st.installed ++ if (verdict host reg relay st i bp site).isOk then [i] else [] := by
  rcases step_cases host reg place relay n st i bp hlaw hsite hroom with
    ⟨e, bp', l, hv, hs, -⟩ | ⟨e, bp', mem, calls, hv, -, hs, -⟩ |
      ⟨v, bp', mem, calls, patch, -, hv, -, -, -, -, -, hs⟩ <;>
    simp [hs, hv, record, Except.isOk, Except.toBool]

/-- Every request leaves its descriptor, under its own name, after those before it. -/
theorem names_step :
    (step host reg place relay n st i bp site).breakpoints.map Breakpoint.name =
      st.breakpoints.map Breakpoint.name ++ [bp.name] := by
  rcases step_cases host reg place relay n st i bp hlaw hsite hroom with
    ⟨e, bp', l, -, hs, hn⟩ | ⟨e, bp', mem, calls, -, -, hs, hn⟩ |
      ⟨v, bp', mem, calls, patch, -, -, hn, -, -, -, -, hs⟩ <;>
    simp [hs, hn, record]

/-- The call cave stays where it is, and a request takes at most one trampoline's room. -/
theorem calls_step :
    (step host reg place relay n st i bp site).calls.base = st.calls.base ∧
      (step host reg place relay n st i bp site).calls.data.size = st.calls.data.size ∧
      st.calls.remaining - trampolineLength ≤ (step host reg place relay n st i bp site).calls.remaining := by
  rcases step_cases host reg place relay n st i bp hlaw hsite hroom with
    ⟨e, bp', l, -, hs, -⟩ | ⟨e, bp', mem, calls, -, ha, hs, -⟩ |
      ⟨v, bp', mem, calls, patch, -, -, -, -, -, ha, -, hs⟩
  · simp only [hs, record, true_and]
    exact Nat.sub_le _ _
  · simp only [hs, record]
    exact ⟨ha.base, ha.size, ha.remaining⟩
  · simp only [hs, record]
    exact ⟨ha.base, ha.size, ha.remaining⟩

/-- The log only grows. -/
theorem log_prefix_step : st.log <+: (step host reg place relay n st i bp site).log := by
  rcases step_cases host reg place relay n st i bp hlaw hsite hroom with
    ⟨e, bp', l, -, hs, -⟩ | ⟨e, bp', mem, calls, -, -, hs, -⟩ |
      ⟨v, bp', mem, calls, patch, -, -, -, -, -, -, -, hs⟩
  · simp only [hs, record]
    exact ⟨l ++ [_], (List.append_assoc _ _ _).symm⟩
  · simp only [hs, record]
    exact List.prefix_append _ _
  · simp only [hs, record]
    exact List.prefix_refl _

/-- A failed request is logged with the reason its verdict gives. -/
theorem failureLine_mem_step {e : BreakpointError}
    (he : verdict host reg relay st i bp site = .error e) :
    failureLine n i site bp.name e ∈ (step host reg place relay n st i bp site).log := by
  rcases step_cases host reg place relay n st i bp hlaw hsite hroom with
    ⟨e', bp', l, hv, hs, -⟩ | ⟨e', bp', mem, calls, hv, -, hs, -⟩ |
      ⟨v, bp', mem, calls, patch, -, hv, -, -, -, -, -, hs⟩
  · rw [he, Except.error.injEq] at hv
    simp [hs, record, hv]
  · rw [he, Except.error.injEq] at hv
    simp [hs, record, hv]
  · rw [he] at hv
    cases hv

end Effects

end Step

end Intercept.Batch
