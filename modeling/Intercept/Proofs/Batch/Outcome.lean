import Intercept.Proofs.Batch.Step
import Intercept.Service.World
/-!
# The outcome of a batch

A run of requests, step by step, and what setting up a whole batch comes to.  Every request is
handled once, in order, and one that fails never stops the others; request `j` is installed
exactly when its verdict, taken in the progress the batch has reached before it, is success,
and every failure is logged with the reason its verdict gives.

* `installed_before`, `names_before`, `room_before`, `failureLine_mem_before` — the run lemmas,
  each carried from one request to the next by the lemmas of `Batch.step_cases`;
* `apply_cases` — a batch either places no caves and sets nothing up, or is the run of its
  requests from the caves it placed; `installed_run`, `names_run` and `failureLine_mem_run`
  read the run lemmas off that run;
* `apply_outcome` — what a batch reports: its descriptors in request order, the installed
  requests and the failed ones.

The room left in the call cave is the invariant behind all of this: a batch of `n` requests
starts with `n` trampolines' room, and every request takes at most one.
-/

namespace Intercept

/-- The world is a lawful host: reads give the bytes asked for, and writing keeps every pool
where it is, so the memory map and what can be made writable stay. -/
theorem Service.World.host_lawful : Service.World.host.Lawful where
  length_read w a k := by simp [Service.World.host, Region.readIn]
  protect_write w a bs addr len := by
    have hpools : (w.writeMemory a bs).pools.map Cave.Pool.mapping = w.pools.map Cave.Pool.mapping := by
      simp [Service.World.writeMemory, Function.comp_def, Cave.Pool.mapping, Cave.Pool.start,
        Cave.Pool.size]
    simp only [Service.World.host, Service.memoryMap, hpools]
    rfl

namespace Batch

open Code

variable {κ σ : Type}

section Run

variable (host : Host σ) (reg : Registry κ) (place : Placement) (relay : Word) (n : Nat)

theorem steps_append (st : Progress κ σ) (k : Nat)
    (xs ys : List (Breakpoint κ × Except BreakpointError Word)) :
    steps host reg place relay n st k (xs ++ ys) =
      steps host reg place relay n (steps host reg place relay n st k xs) (k + xs.length) ys := by
  induction xs generalizing st k with
  | nil => rfl
  | cons x xs ih =>
    obtain ⟨bp, site⟩ := x
    rw [List.cons_append, steps, steps, ih, List.length_cons, Nat.add_right_comm, Nat.add_assoc]

/-- The progress of a run from `start` before its request `j`. -/
def before (start : Progress κ σ) (items : List (Breakpoint κ × Except BreakpointError Word))
    (j : Nat) : Progress κ σ :=
  steps host reg place relay n start 0 (items.take j)

variable {host reg place relay n} {start : Progress κ σ}
  {items : List (Breakpoint κ × Except BreakpointError Word)}

@[simp] theorem before_zero : before host reg place relay n start items 0 = start := rfl

theorem before_succ {j : Nat} (hj : j < items.length) :
    before host reg place relay n start items (j + 1) =
      step host reg place relay n (before host reg place relay n start items j) j
        items[j].1 items[j].2 := by
  unfold before
  rw [List.take_add_one, List.getElem?_eq_getElem hj, Option.toList_some, steps_append,
    List.length_take, Nat.min_eq_left (Nat.le_of_lt hj), Nat.zero_add]
  rfl

theorem before_length : before host reg place relay n start items items.length =
    steps host reg place relay n start 0 items := by
  rw [before, List.take_length]

section Invariants

variable (reg place relay n)
variable (hlaw : host.Lawful)
  (hsite : ∀ p ∈ items, ∀ v, p.2 = .ok v → v ≠ 0)
  (hroom : trampolineLength * items.length ≤ start.calls.remaining)
include hlaw hsite hroom

/-- Before request `j`, the call cave has room for a trampoline for every request still to
come. -/
theorem room_before : ∀ j ≤ items.length,
    trampolineLength * (items.length - j) ≤ (before host reg place relay n start items j).calls.remaining := by
  intro j
  induction j with
  | zero =>
    intro _
    simpa using hroom
  | succ j ih =>
    intro hj
    have hlt : j < items.length := hj
    have hprev := ih (Nat.le_of_lt hlt)
    -- request `j` still finds a trampoline's room, and takes at most that
    have hroom_j : trampolineLength ≤ (before host reg place relay n start items j).calls.remaining := by
      unfold trampolineLength at hprev ⊢
      omega
    obtain ⟨-, -, hrem⟩ := calls_step reg place relay n j items[j].1 hlaw (hsite items[j] (List.getElem_mem hlt)) hroom_j
    rw [before_succ hlt]
    unfold trampolineLength at hrem hprev ⊢
    omega

theorem room_at {j : Nat} (hj : j < items.length) :
    trampolineLength ≤ (before host reg place relay n start items j).calls.remaining := by
  have h := room_before reg place relay n hlaw hsite hroom j (Nat.le_of_lt hj)
  unfold trampolineLength at h ⊢
  omega

/-- The call cave stays where it was placed, with the size it was given. -/
theorem calls_before : ∀ j ≤ items.length,
    (before host reg place relay n start items j).calls.base = start.calls.base ∧
      (before host reg place relay n start items j).calls.data.size = start.calls.data.size := by
  intro j
  induction j with
  | zero =>
    intro _
    exact ⟨rfl, rfl⟩
  | succ j ih =>
    intro hj
    have hlt : j < items.length := hj
    obtain ⟨hbase, hsize⟩ := ih (Nat.le_of_lt hlt)
    obtain ⟨hbase', hsize', -⟩ := calls_step reg place relay n j items[j].1 hlaw
      (hsite items[j] (List.getElem_mem hlt)) (room_at reg place relay n hlaw hsite hroom hlt)
    rw [before_succ hlt]
    exact ⟨hbase'.trans hbase, hsize'.trans hsize⟩

/-- The installed requests are those whose verdict, in the progress before them, is success,
in request order. -/
theorem installed_before : ∀ j ≤ items.length,
    (before host reg place relay n start items j).installed = start.installed ++
      ((items.take j).zipIdx.filter fun x =>
        (verdict host reg relay (before host reg place relay n start items x.2) x.2
          x.1.1 x.1.2).isOk).map Prod.snd := by
  intro j
  induction j with
  | zero =>
    intro _
    simp
  | succ j ih =>
    intro hj
    have hlt : j < items.length := hj
    rw [before_succ hlt, installed_step reg place relay n j items[j].1 hlaw
      (hsite items[j] (List.getElem_mem hlt)) (room_at reg place relay n hlaw hsite hroom hlt), ih (Nat.le_of_lt hlt),
      List.take_add_one, List.getElem?_eq_getElem hlt, Option.toList_some, List.zipIdx_append,
      List.filter_append, List.map_append, List.append_assoc, List.length_take,
      Nat.min_eq_left (Nat.le_of_lt hlt)]
    -- the request just handled is listed after those before it, exactly when it succeeded
    cases hok : (verdict host reg relay (before host reg place relay n start items j) j
      items[j].1 items[j].2).isOk <;> simp [hok]

/-- The descriptors are kept in request order, one for each request. -/
theorem names_before : ∀ j ≤ items.length,
    (before host reg place relay n start items j).breakpoints.map Breakpoint.name =
      start.breakpoints.map Breakpoint.name ++ (items.take j).map fun p => p.1.name := by
  intro j
  induction j with
  | zero =>
    intro _
    simp
  | succ j ih =>
    intro hj
    have hlt : j < items.length := hj
    rw [before_succ hlt, names_step reg place relay n j items[j].1 hlaw
      (hsite items[j] (List.getElem_mem hlt)) (room_at reg place relay n hlaw hsite hroom hlt), ih (Nat.le_of_lt hlt),
      List.take_add_one, List.getElem?_eq_getElem hlt, Option.toList_some, List.map_append,
      List.append_assoc, List.map_cons, List.map_nil]

theorem log_prefix_before {m : Nat} : ∀ j, m ≤ j → j ≤ items.length →
    (before host reg place relay n start items m).log <+:
      (before host reg place relay n start items j).log := by
  intro j
  induction j with
  | zero =>
    intro hm _
    obtain rfl := Nat.le_zero.mp hm
    exact List.prefix_refl _
  | succ j ih =>
    intro hm hj
    have hlt : j < items.length := hj
    rcases Nat.lt_or_eq_of_le hm with hm | hm
    · rw [before_succ hlt]
      exact (ih (Nat.le_of_lt_succ hm) (Nat.le_of_lt hlt)).trans
        (log_prefix_step reg place relay n j items[j].1 hlaw
          (hsite items[j] (List.getElem_mem hlt)) (room_at reg place relay n hlaw hsite hroom hlt))
    · subst hm
      exact List.prefix_refl _

/-- A request that fails is logged with its verdict's reason, and the line stays. -/
theorem failureLine_mem_before {m : Nat} {e : BreakpointError} (hm : m < items.length)
    (he : verdict host reg relay (before host reg place relay n start items m) m
      items[m].1 items[m].2 = .error e) :
    failureLine n m items[m].2 items[m].1.name e ∈
      (before host reg place relay n start items items.length).log := by
  have hnext := failureLine_mem_step reg place relay n m items[m].1 hlaw
    (hsite items[m] (List.getElem_mem hm)) (room_at reg place relay n hlaw hsite hroom hm) he
  rw [← before_succ hm] at hnext
  exact (log_prefix_before reg place relay n hlaw hsite hroom items.length hm (Nat.le_refl _)).subset hnext

end Invariants

end Run

/-! ### A whole batch -/

section Apply

variable (host : Host σ) (reg : Registry κ) (place : Placement) (mem : σ) (module : Option Word)
  (requests : List Request)

/-- A request as a batch handles it: its descriptor, and the site its address text resolves to
against the module argument, else the registry's module. -/
def item (reg : Registry κ) (module : Option Word) (r : Request) :
    Breakpoint κ × Except BreakpointError Word :=
  (Breakpoint.ofRequest r, siteOf (resolve reg.symbols (module <|> reg.module) r.addr.toList) r.addr)

/-- Where the caves of a batch go: near the module argument, else the registry's module, else
the first site that resolved. -/
def origin (reg : Registry κ) (module : Option Word)
    (items : List (Breakpoint κ × Except BreakpointError Word)) : Option Word :=
  module <|> reg.module <|> items.findSome? fun p => p.2.toOption

/-- The progress a batch of `n` requests starts from once its caves are placed: nothing set up
yet, an empty call cave at `call`, and the memory `mem` as placing the caves left it. -/
def initial (mem : σ) (call : Word) (n : Nat) (log : Log) : Progress κ σ :=
  { mem, calls := CodeBuffer.new (Array.replicate (n * trampolineLength) 0) call,
    breakpoints := [], installed := [], patches := [], log }

@[simp] theorem breakpoints_initial (mem : σ) (call : Word) (n : Nat) (log : Log) :
    (initial mem call n log : Progress κ σ).breakpoints = [] := rfl

@[simp] theorem installed_initial (mem : σ) (call : Word) (n : Nat) (log : Log) :
    (initial mem call n log : Progress κ σ).installed = [] := rfl

theorem siteOf_ne_zero {r : Resolution} {text : String} {v : Word} (h : siteOf r text = .ok v) :
    v ≠ 0 := by
  unfold siteOf at h
  split at h
  · split_ifs at h with hg
    cases h
    exact hg.2
  · split_ifs at h with hz
    cases h
    exact hz

theorem zip_sites :
    (requests.map Breakpoint.ofRequest).zip
        (((requests.map Breakpoint.ofRequest).map (resolveSite reg module)).map Prod.fst) =
      requests.map (item reg module) := by
  induction requests with
  | nil => rfl
  | cons r rest ih =>
    simp only [List.map_cons, List.zip_cons_cons, ih, resolveSite_fst, item]
    rfl

theorem findSome_sites :
    (requests.map (item reg module)).findSome? (fun p => p.2.toOption) =
      (((requests.map Breakpoint.ofRequest).map (resolveSite reg module)).map Prod.fst).findSome?
        fun | .ok a => some a | .error _ => none := by
  induction requests with
  | nil => rfl
  | cons r rest ih =>
    simp only [List.map_cons, List.findSome?_cons, ih, resolveSite_fst, item, Breakpoint.ofRequest]
    cases siteOf (resolve reg.symbols (module <|> reg.module) r.addr.toList) r.addr <;> rfl

/-- Setting up a batch either places no caves and sets nothing up, or places them and runs its
requests in order from an empty call cave. -/
theorem apply_cases :
    ((apply host reg place mem module requests).1 = ⟨requests.map Breakpoint.ofRequest, [], [], none⟩ ∧
      (apply host reg place mem module requests).2.1 = mem) ∨
    ∃ o relay call mem' log, requests ≠ [] ∧ origin reg module (requests.map (item reg module)) = some o ∧
      placeCaves host mem o requests.length = some (relay, call, mem') ∧
      let fin := steps host reg place relay requests.length (initial mem' call requests.length log)
        0 (requests.map (item reg module))
      apply host reg place mem module requests =
        (⟨fin.breakpoints, fin.installed, fin.patches, some (relay, call)⟩, fin.mem, fin.log) := by
  unfold apply
  dsimp only
  by_cases h0 : requests = []
  · subst h0
    exact .inl ⟨rfl, rfl⟩
  rw [if_neg (by simpa using h0)]
  split
  · exact .inl ⟨rfl, rfl⟩
  · rename_i o ho
    split
    · exact .inl ⟨rfl, rfl⟩
    · rename_i relay call mem' hp
      refine .inr ⟨o, relay, call, mem',
        (((requests.map Breakpoint.ofRequest).map (resolveSite reg module)).map Prod.snd).flatten,
        h0, ?_, by rwa [List.length_map] at hp, ?_⟩
      · rw [origin, findSome_sites]
        exact ho
      · rw [List.length_map, zip_sites]
        rfl

theorem site_ne_zero_of_mem {p : Breakpoint κ × Except BreakpointError Word}
    (hp : p ∈ requests.map (item reg module)) : ∀ v, p.2 = .ok v → v ≠ 0 := by
  intro v hv
  obtain ⟨r, -, rfl⟩ := List.mem_map.mp hp
  exact siteOf_ne_zero hv

theorem room_initial (mem' : σ) (call : Word) (log : Log) :
    trampolineLength * (requests.map (item reg module)).length ≤
      (initial mem' call requests.length log : Progress κ σ).calls.remaining := by
  simp [initial, Nat.mul_comm]

section Placed

variable {host} (hlaw : host.Lawful) (relay : Word) (mem' : σ)
  (call : Word) (log : Log)
include hlaw

/-- The run of a batch's requests keeps one descriptor for each, in request order. -/
theorem names_run :
    (steps host reg place relay requests.length (initial mem' call requests.length log) 0
      (requests.map (item reg module))).breakpoints.map Breakpoint.name =
        requests.map Request.name := by
  have hrun := names_before reg place relay requests.length hlaw
    (fun _ hp => site_ne_zero_of_mem reg module requests hp) (room_initial reg module requests mem' call log)
    (requests.map (item reg module)).length (Nat.le_refl _)
  rw [before_length, List.take_length] at hrun
  simp only [hrun, breakpoints_initial, List.map_nil, List.nil_append, List.map_map]
  rfl

/-- The run of a batch's requests installs those whose verdict is success in the progress
before them. -/
theorem installed_run :
    let items := requests.map (item reg module)
    (steps host reg place relay requests.length (initial mem' call requests.length log) 0
      items).installed =
      (items.zipIdx.filter fun x =>
        (verdict host reg relay (before host reg place relay requests.length
          (initial mem' call requests.length log) items x.2) x.2 x.1.1 x.1.2).isOk).map Prod.snd := by
  intro items
  have hrun := installed_before reg place relay requests.length hlaw
    (fun _ hp => site_ne_zero_of_mem reg module requests hp) (room_initial reg module requests mem' call log)
    items.length (Nat.le_refl _)
  rw [before_length, List.take_length, installed_initial, List.nil_append] at hrun
  exact hrun

/-- The run of a batch's requests logs every failure with its verdict's reason. -/
theorem failureLine_mem_run {x : (Breakpoint κ × Except BreakpointError Word) × Nat}
    (hx : x ∈ (requests.map (item reg module)).zipIdx) {e : BreakpointError}
    (he : verdict host reg relay (before host reg place relay requests.length
      (initial mem' call requests.length log) (requests.map (item reg module)) x.2) x.2
        x.1.1 x.1.2 = .error e) :
    failureLine requests.length x.2 x.1.2 x.1.1.name e ∈
      (steps host reg place relay requests.length (initial mem' call requests.length log) 0
        (requests.map (item reg module))).log := by
  -- an entry of the numbered requests is request `j` at position `j`
  obtain ⟨j, hj, rfl⟩ : ∃ j, ∃ hj : j < (requests.map (item reg module)).length,
      x = ((requests.map (item reg module))[j], j) := by
    obtain ⟨-, hlt, hx1⟩ := List.mem_zipIdx (show (x.1, x.2) ∈ _ from hx)
    exact ⟨x.2, by simpa using hlt, Prod.ext (by simpa using hx1) rfl⟩
  have hmem := failureLine_mem_before reg place relay requests.length hlaw
    (fun _ hp => site_ne_zero_of_mem reg module requests hp)
    (room_initial reg module requests mem' call log) hj he
  rwa [before_length] at hmem

end Placed

/-- What setting up a batch reports.  Its descriptors are those of the requests, in order, and
the failed requests are those not installed.  With no caves nothing is installed; with caves,
placed near the batch's origin, request `j` is installed exactly when its verdict is success in
the progress the batch has reached before it, and a request that fails is logged with the reason
its verdict gives: the first of its checks that fails, in the order `verdict` makes them. -/
structure Reported (host : Host σ) (reg : Registry κ) (place : Placement) (mem : σ)
    (module : Option Word) (requests : List Request) : Prop where
  names : (apply host reg place mem module requests).1.breakpoints.map Breakpoint.name =
    requests.map Request.name
  failed : (apply host reg place mem module requests).1.failed =
    requests.length - (apply host reg place mem module requests).1.installed.length
  none_installed : (apply host reg place mem module requests).1.caves = none →
    (apply host reg place mem module requests).1.installed = []
  verdicts : ∀ relay call, (apply host reg place mem module requests).1.caves = some (relay, call) →
    ∃ o mem' log, origin reg module (requests.map (item reg module)) = some o ∧
      placeCaves host mem o requests.length = some (relay, call, mem') ∧
      let items := requests.map (item reg module)
      let progress := before host reg place relay requests.length
        (initial mem' call requests.length log) items
      (apply host reg place mem module requests).1.installed = (items.zipIdx.filter fun x =>
        (verdict host reg relay (progress x.2) x.2 x.1.1 x.1.2).isOk).map Prod.snd ∧
      ∀ x ∈ items.zipIdx, ∀ e, verdict host reg relay (progress x.2) x.2 x.1.1 x.1.2 = .error e →
        failureLine requests.length x.2 x.1.2 x.1.1.name e ∈
          (apply host reg place mem module requests).2.2

/-- Every batch, on a lawful host, reports what `Reported` says. -/
theorem apply_outcome (hlaw : host.Lawful) : Reported host reg place mem module requests := by
  -- the descriptors come first: the failed count is read off them
  have hnames : (apply host reg place mem module requests).1.breakpoints.map Breakpoint.name =
      requests.map Request.name := by
    rcases apply_cases host reg place mem module requests with
      ⟨h, -⟩ | ⟨o, relay, call, mem', log, -, -, -, h⟩
    · simp only [h, List.map_map]
      rfl
    · simp only [h]
      exact names_run reg place module requests hlaw relay mem' call log
  refine ⟨hnames, ?_, ?_, ?_⟩
  · have hlen := congrArg List.length hnames
    simp only [List.length_map] at hlen
    rw [Batch.failed, hlen]
  · intro hnone
    rcases apply_cases host reg place mem module requests with
      ⟨h, -⟩ | ⟨o, relay, call, mem', log, -, -, -, h⟩
    · simp only [h]
    · simp only [h] at hnone
      cases hnone
  · intro relay call hcaves
    rcases apply_cases host reg place mem module requests with
      ⟨h, -⟩ | ⟨o, relay', call', mem', log, -, ho, hp, h⟩
    · simp only [h] at hcaves
      cases hcaves
    simp only [h, Option.some.injEq, Prod.mk.injEq] at hcaves
    obtain ⟨rfl, rfl⟩ := hcaves
    refine ⟨o, mem', log, ho, hp, ?_, fun x hx e he => ?_⟩
    · simp only [h]
      exact installed_run reg place module requests hlaw relay' mem' call' log
    · simp only [h]
      exact failureLine_mem_run reg place module requests hlaw relay' mem' call' log hx he

end Apply

/-- The world is a lawful host, so its batches report what `Reported` says; here two requests
for one callback in the initial world, of which the first is installed at the start of the code
and the second refused for its cave size. -/
theorem apply_outcome_in_world :
    let reg : Registry Service.Callback :=
      Service.World.initial.registry.registerCallback "relay" .relay
    let requests : List Request := [⟨"relay", "Rx0", 6, .null⟩, ⟨"relay", "Rx20", 3, .null⟩]
    Service.World.host.Lawful ∧
      Reported Service.World.host reg (Service.placementAt 0) Service.World.initial
        (some 0x40000000) requests ∧
      (apply Service.World.host reg (Service.placementAt 0) Service.World.initial
        (some 0x40000000) requests).1.installed = [0] := by
  intro reg requests
  exact ⟨Service.World.host_lawful,
    apply_outcome Service.World.host reg _ _ _ requests Service.World.host_lawful, by decide +kernel⟩

end Batch

end Intercept
