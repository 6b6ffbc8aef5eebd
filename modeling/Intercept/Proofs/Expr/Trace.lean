import Intercept.Proofs.Expr.Fuel
/-!
# What a reading does

`fold` and `atom` say what a text is worth; `foldEvents` and `atomEvents` follow them branch
for branch and list what they do on the way: each step of the loop, at the text it is taken
at (an operator or an atom, at every nesting level), and each dereference, with its address
and size.

* The steps are taken at nonempty suffixes of the text, each strictly shorter than the one
  before (`reading_advances`): the reader moves forward at every step, takes at most as many
  steps as the text has characters, and only ever stands at a character boundary.
* Memory is read only where the listed dereferences read it, and none of them is at address
  `0`: two memories that agree on those bytes give the same reading (`reading_memory_frame`),
  the use principle for a reading.
-/

namespace Intercept.Expr

/-- One thing a reading does. -/
inductive Event where
  /-- The loop takes an operator or an atom at this text. -/
  | step (text : List Char)
  /-- A dereference of `size` bytes at an address. -/
  | read (addr : Word) (size : Nat)
  deriving DecidableEq, Repr

mutual

/-- What `fold` does, in order. -/
def foldEvents (ctx : Context) : Nat → Terminator → Word → Op → List Char → List Event
  | 0, _, _, _, _ => []
  | fuel + 1, term, value, op, cs0 =>
    let cs := skipBlanks cs0
    let stop := match cs with
      | [] => true
      | c :: _ => term.char? == some c
    if stop then []
    else
      match operator? cs with
      | some (op', rest) => .step cs0 :: foldEvents ctx fuel term value op' rest
      | none =>
        let (size, afterSize) := sizeQualifier cs
        let start := skipBlanks afterSize
        .step cs0 :: (atomEvents ctx fuel size start ++
          match atom ctx fuel size start with
          | .error _ => []
          | .ok (v, rest) =>
            match op.apply value v with
            | none => []
            | some value' => foldEvents ctx fuel term value' op rest)

/-- What `atom` does, in order. -/
def atomEvents (ctx : Context) : Nat → Nat → List Char → List Event
  | 0, _, _ => []
  | fuel + 1, size, cs =>
    match cs with
    | '(' :: rest => foldEvents ctx fuel .paren 0 .add rest
    | '[' :: rest =>
      foldEvents ctx fuel .bracket 0 .add rest ++
        match fold ctx fuel .bracket 0 .add rest with
        | .error _ => []
        | .ok (addr, _) => if addr = 0 then [] else [.read addr size]
    | _ => []

end

/-- The texts the steps among some events are taken at. -/
def steps (events : List Event) : List (List Char) :=
  events.filterMap fun
    | .step text => some text
    | .read _ _ => none

@[simp] theorem steps_nil : steps [] = [] := rfl

@[simp] theorem steps_step (text : List Char) (events : List Event) :
    steps (.step text :: events) = text :: steps events := rfl

@[simp] theorem steps_read (a : Word) (size : Nat) (events : List Event) :
    steps (.read a size :: events) = steps events := rfl

@[simp] theorem steps_append (e₁ e₂ : List Event) : steps (e₁ ++ e₂) = steps e₁ ++ steps e₂ :=
  List.filterMap_append

/-! ### One step of each reader -/

section Step

variable {ctx : Context} {f : Nat} {term : Terminator} {value : Word} {op : Op} {cs0 : List Char}

theorem foldEvents_zero : foldEvents ctx 0 term value op cs0 = [] := by
  rw [foldEvents]

theorem foldEvents_end (hskip : skipBlanks cs0 = []) : foldEvents ctx (f + 1) term value op cs0 = [] := by
  rw [foldEvents]
  simp [hskip]

theorem foldEvents_closing {c : Char} {cs : List Char} (hskip : skipBlanks cs0 = c :: cs)
    (hstop : term.char? = some c) : foldEvents ctx (f + 1) term value op cs0 = [] := by
  rw [foldEvents]
  simp [hskip, hstop]

theorem foldEvents_of_operatorStart {o : Op} {rest : List Char} (h : OperatorStart term cs0 o rest) :
    foldEvents ctx (f + 1) term value op cs0 = .step cs0 :: foldEvents ctx f term value o rest := by
  obtain ⟨c, cs, hskip, hstop, hop⟩ := h
  rw [foldEvents]
  simp [hskip, hstop, hop]

/-- A failing atom ends the reading with its own events. -/
theorem foldEvents_of_atom_error {size : Nat} {start : List Char} {e : ExprError}
    (h : AtomStart term cs0 size start) (he : atom ctx f size start = .error e) :
    foldEvents ctx (f + 1) term value op cs0 = .step cs0 :: atomEvents ctx f size start := by
  obtain ⟨c, cs, hskip, hstop, hop, rfl, rfl⟩ := h
  rw [foldEvents]
  simp only [hskip, hop, beq_eq_false_iff_ne.mpr hstop, Bool.false_eq_true, if_false, he,
    List.append_nil]

/-- After an atom with a value the reading goes on, unless the value divides by zero. -/
theorem foldEvents_of_atom_ok {size : Nat} {start rest : List Char} {v : Word}
    (h : AtomStart term cs0 size start) (ha : atom ctx f size start = .ok (v, rest)) :
    foldEvents ctx (f + 1) term value op cs0 = .step cs0 :: (atomEvents ctx f size start ++
      (op.apply value v).elim [] fun value' => foldEvents ctx f term value' op rest) := by
  obtain ⟨c, cs, hskip, hstop, hop, rfl, rfl⟩ := h
  rw [foldEvents]
  simp only [hskip, hop, beq_eq_false_iff_ne.mpr hstop, Bool.false_eq_true, if_false, ha]
  cases op.apply value v <;> rfl

theorem atomEvents_zero (size : Nat) (cs : List Char) : atomEvents ctx 0 size cs = [] := by
  rw [atomEvents]

theorem atomEvents_paren (size : Nat) (cs : List Char) :
    atomEvents ctx (f + 1) size ('(' :: cs) = foldEvents ctx f .paren 0 .add cs := by
  rw [atomEvents]

theorem atomEvents_bracket_error {size : Nat} {cs : List Char} {e : ExprError}
    (he : fold ctx f .bracket 0 .add cs = .error e) :
    atomEvents ctx (f + 1) size ('[' :: cs) = foldEvents ctx f .bracket 0 .add cs := by
  rw [atomEvents]
  simp [he]

theorem atomEvents_bracket_ok {size : Nat} {cs after : List Char} {a : Word}
    (ha : fold ctx f .bracket 0 .add cs = .ok (a, after)) :
    atomEvents ctx (f + 1) size ('[' :: cs) =
      foldEvents ctx f .bracket 0 .add cs ++ if a = 0 then [] else [.read a size] := by
  rw [atomEvents]
  simp [ha]

theorem atomEvents_nil (size : Nat) : atomEvents ctx (f + 1) size [] = [] := by
  rw [atomEvents]
  all_goals simp

theorem atomEvents_leaf {size : Nat} {c : Char} {cs : List Char} (hc : c ≠ '(' ∧ c ≠ '[') :
    atomEvents ctx (f + 1) size (c :: cs) = [] := by
  rw [atomEvents]
  all_goals simp [hc.1, hc.2]

end Step

/-! ### The reader moves forward -/

theorem suffix_tail_of_lt {rest cs : List Char} (h : rest <:+ cs) (hlt : rest.length < cs.length) :
    rest <:+ cs.tail := by
  obtain ⟨hd, rfl⟩ := h
  cases hd with
  | nil => simp at hlt
  | cons c hd => exact List.suffix_append hd rest

/-- Steps that move forward through `cs`: each is taken at a nonempty suffix of `cs`, and
each at a strictly shorter one than the step before. -/
structure Advances (texts : List (List Char)) (cs : List Char) : Prop where
  suffix : ∀ t ∈ texts, t <:+ cs
  nonempty : ∀ t ∈ texts, t ≠ []
  shrinks : texts.Pairwise fun t u => u.length < t.length

namespace Advances

variable {texts texts' : List (List Char)} {cs cs0 : List Char}

theorem nil (cs : List Char) : Advances [] cs :=
  ⟨by simp, by simp, .nil⟩

theorem mono (h : Advances texts cs) (hcs : cs <:+ cs0) : Advances texts cs0 :=
  ⟨fun t ht => (h.suffix t ht).trans hcs, h.nonempty, h.shrinks⟩

/-- A step at `cs0` followed by steps inside a strictly shorter suffix of it. -/
theorem cons (h : Advances texts cs) (hcs : cs <:+ cs0) (hlt : cs.length < cs0.length) :
    Advances (cs0 :: texts) cs0 where
  suffix t ht := by
    rcases List.mem_cons.mp ht with rfl | ht
    · exact List.suffix_refl t
    · exact (h.suffix t ht).trans hcs
  nonempty t ht := by
    rcases List.mem_cons.mp ht with rfl | ht
    · exact List.ne_nil_of_length_pos (by omega)
    · exact h.nonempty t ht
  shrinks := List.Pairwise.cons (fun t ht => Nat.lt_of_le_of_lt (h.suffix t ht).length_le hlt) h.shrinks

theorem append (h : Advances texts cs) (h' : Advances texts' cs)
    (hsep : ∀ t ∈ texts, ∀ u ∈ texts', u.length < t.length) : Advances (texts ++ texts') cs where
  suffix t ht := (List.mem_append.mp ht).elim (h.suffix t) (h'.suffix t)
  nonempty t ht := (List.mem_append.mp ht).elim (h.nonempty t) (h'.nonempty t)
  shrinks := List.pairwise_append.mpr ⟨h.shrinks, h'.shrinks, hsep⟩

/-- Steps that move forward through `cs` are at most as many as `cs` has characters.  By
induction on the steps: those after the first lie inside the first one's tail. -/
theorem length_le (h : Advances texts cs) : texts.length ≤ cs.length := by
  induction texts generalizing cs with
  | nil => exact Nat.zero_le _
  | cons t rest ih =>
    have ht : t ∈ t :: rest := List.mem_cons_self
    have hfirst : ∀ u ∈ rest, u.length < t.length := fun u hu => List.rel_of_pairwise_cons h.shrinks hu
    have hrest : Advances rest t.tail :=
      ⟨fun u hu => suffix_tail_of_lt
        (List.suffix_of_suffix_length_le (h.suffix u (List.mem_cons_of_mem _ hu)) (h.suffix t ht)
          (Nat.le_of_lt (hfirst u hu))) (hfirst u hu),
        fun u hu => h.nonempty u (List.mem_cons_of_mem _ hu), h.shrinks.of_cons⟩
    have hlen := (h.suffix t ht).length_le
    have hpos := List.length_pos_iff.mpr (h.nonempty t ht)
    have := ih hrest
    simp only [List.length_cons, List.length_tail] at this ⊢
    omega

end Advances

/-- The steps `fold` takes with fuel `f` move forward through its text, and lie before what
it leaves. -/
def FoldAdvances (ctx : Context) (f : Nat) : Prop :=
  ∀ term value op cs0, Advances (steps (foldEvents ctx f term value op cs0)) cs0 ∧
    ∀ w rest, fold ctx f term value op cs0 = .ok (w, rest) →
      ∀ t ∈ steps (foldEvents ctx f term value op cs0), rest.length < t.length

/-- The steps `atom` takes with fuel `f` move forward through its text after the first
character, and lie before what it leaves. -/
def AtomAdvances (ctx : Context) (f : Nat) : Prop :=
  ∀ size cs, Advances (steps (atomEvents ctx f size cs)) cs.tail ∧
    ∀ w rest, atom ctx f size cs = .ok (w, rest) →
      ∀ t ∈ steps (atomEvents ctx f size cs), rest.length < t.length

section Advance

variable {ctx : Context} {f : Nat}

/-- At an atom, the loop's step comes first, then the atom's own steps, then the steps after
the atom, each group beyond the one before. -/
theorem foldAdvances_atom (ihfold : FoldAdvances ctx f) (ihatom : AtomAdvances ctx f)
    {term : Terminator} {value : Word} {op : Op} {cs0 start : List Char} {size : Nat}
    (hat : AtomStart term cs0 size start) :
    Advances (steps (foldEvents ctx (f + 1) term value op cs0)) cs0 ∧
      ∀ w rest, fold ctx (f + 1) term value op cs0 = .ok (w, rest) →
        ∀ t ∈ steps (foldEvents ctx (f + 1) term value op cs0), rest.length < t.length := by
  obtain ⟨hadvA, hbeyondA⟩ := ihatom size start
  obtain ⟨hstart, hpos⟩ := hat.suffix
  -- the atom's own steps lie after its first character
  have htail : start.tail <:+ cs0 := (List.tail_suffix start).trans hstart
  have htail_lt : start.tail.length < cs0.length := by
    have := hstart.length_le
    simp only [List.length_tail]
    omega
  rw [fold_of_atomStart hat]
  cases ha : atom ctx f size start with
  | error e =>
    rw [foldEvents_of_atom_error hat ha]
    refine ⟨by simpa using hadvA.cons htail htail_lt, fun w rest h => ?_⟩
    simp [Except.bind] at h
  | ok p =>
    obtain ⟨v, rest⟩ := p
    obtain ⟨hrest, hrest_lt⟩ := atom_suffix ha
    rw [foldEvents_of_atom_ok hat ha]
    cases happ : op.apply value v with
    | none =>
      refine ⟨by simpa [Option.elim] using hadvA.cons htail htail_lt, fun w rest' h => ?_⟩
      simp [Except.bind, happ, Option.elim] at h
    | some value' =>
      obtain ⟨hadvC, hbeyondC⟩ := ihfold term value' op rest
      -- the steps after the atom lie beyond the atom's own
      have hsep : ∀ t ∈ steps (atomEvents ctx f size start),
          ∀ u ∈ steps (foldEvents ctx f term value' op rest), u.length < t.length :=
        fun t ht u hu => Nat.lt_of_le_of_lt (hadvC.suffix u hu).length_le (hbeyondA v rest ha t ht)
      have hadv := (hadvA.append (hadvC.mono (suffix_tail_of_lt hrest hrest_lt)) hsep).cons htail htail_lt
      refine ⟨by simpa [Option.elim] using hadv, fun w rest' h t ht => ?_⟩
      simp only [Except.bind, happ, Option.elim] at h
      have hle := (fold_suffix h).length_le
      simp only [Option.elim, steps_step, steps_append, List.mem_cons, List.mem_append] at ht
      rcases ht with rfl | ht | ht
      · have := hstart.length_le
        omega
      · exact Nat.lt_of_le_of_lt hle (hbeyondA v rest ha t ht)
      · exact hbeyondC w rest' h t ht

theorem foldAdvances_succ (ihfold : FoldAdvances ctx f) (ihatom : AtomAdvances ctx f) :
    FoldAdvances ctx (f + 1) := by
  intro term value op cs0
  rcases step_cases term cs0 with hend | ⟨c, cs, hskip, hstop⟩ | ⟨o, r, hop⟩ | ⟨size, start, hat⟩
  · rw [foldEvents_end hend]
    exact ⟨Advances.nil cs0, by simp⟩
  · rw [foldEvents_closing hskip hstop]
    exact ⟨Advances.nil cs0, by simp⟩
  · -- an operator is one step, and the loop goes on after it
    obtain ⟨hadv, hbeyond⟩ := ihfold term value o r
    obtain ⟨hr, hr_lt⟩ := hop.suffix
    rw [foldEvents_of_operatorStart hop, fold_of_operatorStart hop]
    refine ⟨by simpa using hadv.cons hr hr_lt, fun w rest h t ht => ?_⟩
    rcases List.mem_cons.mp (by simpa using ht) with rfl | ht
    · exact Nat.lt_of_le_of_lt (fold_suffix h).length_le hr_lt
    · exact hbeyond w rest h t ht
  · exact foldAdvances_atom ihfold ihatom hat

theorem atomAdvances_succ (ihfold : FoldAdvances ctx f) : AtomAdvances ctx (f + 1) := by
  intro size cs
  cases cs with
  | nil =>
    rw [atomEvents_nil]
    exact ⟨Advances.nil _, by simp⟩
  | cons c r =>
    by_cases hp : c = '('
    · -- a parenthesised atom is read after its `(`
      subst hp
      rw [atomEvents_paren, atom_paren]
      exact ihfold .paren 0 .add r
    by_cases hb : c = '['
    · -- a bracketed atom is read after its `[`, and a dereference is no step
      subst hb
      obtain ⟨hadv, hbeyond⟩ := ihfold .bracket 0 .add r
      rw [atom_bracket]
      cases hf : fold ctx f .bracket 0 .add r with
      | error e =>
        rw [atomEvents_bracket_error hf]
        exact ⟨hadv, by simp [Except.map]⟩
      | ok p =>
        obtain ⟨a, after⟩ := p
        rw [atomEvents_bracket_ok hf]
        have hread : steps (if a = 0 then [] else [Event.read a size]) = [] := by
          split <;> rfl
        refine ⟨by simpa [hread] using hadv, fun w rest h t ht => ?_⟩
        simp only [Except.map, Except.ok.injEq, Prod.mk.injEq] at h
        obtain ⟨-, rfl⟩ := h
        exact hbeyond a after hf t (by simpa [hread] using ht)
    · rw [atomEvents_leaf ⟨hp, hb⟩]
      exact ⟨Advances.nil _, by simp⟩

/-- Both readers move forward at every step they take, whatever the fuel.  By induction on the
fuel, for both at once. -/
theorem reading_advances_at (ctx : Context) : ∀ f, FoldAdvances ctx f ∧ AtomAdvances ctx f := by
  intro f
  induction f with
  | zero =>
    refine ⟨fun term value op cs0 => ?_, fun size cs => ?_⟩
    · rw [foldEvents_zero]
      exact ⟨Advances.nil cs0, by simp⟩
    · rw [atomEvents_zero]
      exact ⟨Advances.nil _, by simp⟩
  | succ f ih => exact ⟨foldAdvances_succ ih.1 ih.2, atomAdvances_succ ih.1⟩

end Advance

/-! ### Dereferences are at nonzero addresses -/

/-- Every dereference among some events is at a nonzero address. -/
def ReadsNonzero (events : List Event) : Prop :=
  ∀ a size, Event.read a size ∈ events → a ≠ 0

namespace ReadsNonzero

variable {events events' : List Event}

theorem nil : ReadsNonzero [] := by
  simp [ReadsNonzero]

theorem step_cons (text : List Char) (h : ReadsNonzero events) : ReadsNonzero (.step text :: events) := by
  intro a size ha
  simp only [List.mem_cons, reduceCtorEq, false_or] at ha
  exact h a size ha

theorem append (h : ReadsNonzero events) (h' : ReadsNonzero events') : ReadsNonzero (events ++ events') := by
  intro a size ha
  rcases List.mem_append.mp ha with ha | ha
  · exact h a size ha
  · exact h' a size ha

end ReadsNonzero

/-- No reading dereferences address `0`.  By induction on the fuel, for both readers at once. -/
theorem reads_nonzero (ctx : Context) : ∀ f,
    (∀ term value op cs0, ReadsNonzero (foldEvents ctx f term value op cs0)) ∧
    (∀ size cs, ReadsNonzero (atomEvents ctx f size cs)) := by
  intro f
  induction f with
  | zero => exact ⟨fun _ _ _ _ => by simp [foldEvents_zero, ReadsNonzero.nil],
      fun _ _ => by simp [atomEvents_zero, ReadsNonzero.nil]⟩
  | succ f ih =>
    obtain ⟨ihfold, ihatom⟩ := ih
    constructor
    · intro term value op cs0
      rcases step_cases term cs0 with hend | ⟨c, cs, hskip, hstop⟩ | ⟨o, r, hop⟩ | ⟨size, start, hat⟩
      · simpa [foldEvents_end hend] using ReadsNonzero.nil
      · simpa [foldEvents_closing hskip hstop] using ReadsNonzero.nil
      · rw [foldEvents_of_operatorStart hop]
        exact (ihfold term value o r).step_cons cs0
      · cases ha : atom ctx f size start with
        | error e =>
          rw [foldEvents_of_atom_error hat ha]
          exact (ihatom size start).step_cons cs0
        | ok p =>
          obtain ⟨v, rest⟩ := p
          rw [foldEvents_of_atom_ok hat ha]
          refine ((ihatom size start).append ?_).step_cons cs0
          cases op.apply value v with
          | none => exact ReadsNonzero.nil
          | some value' => exact ihfold term value' op rest
    · intro size cs
      cases cs with
      | nil => simpa [atomEvents_nil] using ReadsNonzero.nil
      | cons c r =>
        by_cases hp : c = '('
        · subst hp
          rw [atomEvents_paren]
          exact ihfold .paren 0 .add r
        by_cases hb : c = '['
        · subst hb
          cases hf : fold ctx f .bracket 0 .add r with
          | error e =>
            rw [atomEvents_bracket_error hf]
            exact ihfold .bracket 0 .add r
          | ok p =>
            obtain ⟨a, after⟩ := p
            rw [atomEvents_bracket_ok hf]
            refine (ihfold .bracket 0 .add r).append ?_
            split
            · exact ReadsNonzero.nil
            · next h0 =>
              intro a' size' ha'
              simp only [List.mem_singleton, Event.read.injEq] at ha'
              rw [ha'.1]
              exact h0
        · simpa [atomEvents_leaf ⟨hp, hb⟩] using ReadsNonzero.nil

/-! ### Memory is read only where the dereferences read -/

/-- A memory that gives the same bytes as the context's wherever the listed dereferences
read. -/
def AgreesOn (ctx : Context) (readByte : Word → UInt8) (events : List Event) : Prop :=
  ∀ a size, Event.read a size ∈ events →
    ∀ i < min size 8, readByte (a + i.toUInt64) = ctx.readByte (a + i.toUInt64)

namespace AgreesOn

variable {ctx : Context} {readByte : Word → UInt8} {events events' : List Event}

theorem mono (h : AgreesOn ctx readByte events) (hsub : events' ⊆ events) :
    AgreesOn ctx readByte events' :=
  fun a size ha => h a size (hsub ha)

theorem deref (h : AgreesOn ctx readByte events) {a : Word} {size : Nat}
    (ha : Event.read a size ∈ events) :
    Context.deref { ctx with readByte := readByte } a size = ctx.deref a size := by
  unfold Context.deref
  congr 1
  exact List.map_congr_left fun i hi => h a size ha i (List.mem_range.mp hi)

end AgreesOn

/-- With fuel `f`, `fold` gives the same result and does the same things under a memory that
agrees with the context's wherever it dereferences. -/
def FoldFramed (ctx : Context) (readByte : Word → UInt8) (f : Nat) : Prop :=
  ∀ term value op cs0, AgreesOn ctx readByte (foldEvents ctx f term value op cs0) →
    fold { ctx with readByte := readByte } f term value op cs0 = fold ctx f term value op cs0 ∧
    foldEvents { ctx with readByte := readByte } f term value op cs0 = foldEvents ctx f term value op cs0

/-- The same for `atom`. -/
def AtomFramed (ctx : Context) (readByte : Word → UInt8) (f : Nat) : Prop :=
  ∀ size cs, AgreesOn ctx readByte (atomEvents ctx f size cs) →
    atom { ctx with readByte := readByte } f size cs = atom ctx f size cs ∧
    atomEvents { ctx with readByte := readByte } f size cs = atomEvents ctx f size cs

section Frame

variable {ctx : Context} {readByte : Word → UInt8} {f : Nat}

/-- At an atom: the atom reads the same under both memories, and so does what follows it. -/
theorem foldFramed_atom (ihfold : FoldFramed ctx readByte f) (ihatom : AtomFramed ctx readByte f)
    {term : Terminator} {value : Word} {op : Op} {cs0 start : List Char} {size : Nat}
    (hat : AtomStart term cs0 size start)
    (hagree : AgreesOn ctx readByte (foldEvents ctx (f + 1) term value op cs0)) :
    fold { ctx with readByte := readByte } (f + 1) term value op cs0 = fold ctx (f + 1) term value op cs0 ∧
    foldEvents { ctx with readByte := readByte } (f + 1) term value op cs0 =
      foldEvents ctx (f + 1) term value op cs0 := by
  cases ha : atom ctx f size start with
  | error e =>
    rw [foldEvents_of_atom_error hat ha] at hagree
    obtain ⟨hatom, hevents⟩ := ihatom size start (hagree.mono (List.subset_cons_self _ _))
    have ha' := hatom.trans ha
    simp only [fold_of_atomStart hat, ha, ha', foldEvents_of_atom_error hat ha,
      foldEvents_of_atom_error hat ha', hevents, Except.bind, and_self]
  | ok p =>
    obtain ⟨v, rest⟩ := p
    rw [foldEvents_of_atom_ok hat ha] at hagree
    obtain ⟨hatom, hevents⟩ := ihatom size start
      (hagree.mono fun _ hx => List.mem_cons_of_mem _ (List.mem_append_left _ hx))
    have ha' := hatom.trans ha
    cases happ : op.apply value v with
    | none =>
      simp only [fold_of_atomStart hat, ha, ha', foldEvents_of_atom_ok hat ha,
        foldEvents_of_atom_ok hat ha', hevents, happ, Except.bind, Option.elim, and_self]
    | some value' =>
      rw [happ] at hagree
      obtain ⟨hfold, hcont⟩ := ihfold term value' op rest
        (hagree.mono fun _ hx => List.mem_cons_of_mem _ (List.mem_append_right _ hx))
      simp only [fold_of_atomStart hat, ha, ha', foldEvents_of_atom_ok hat ha,
        foldEvents_of_atom_ok hat ha', hevents, happ, Except.bind, Option.elim, hfold, hcont, and_self]

theorem foldFramed_succ (ihfold : FoldFramed ctx readByte f) (ihatom : AtomFramed ctx readByte f) :
    FoldFramed ctx readByte (f + 1) := by
  intro term value op cs0 hagree
  rcases step_cases term cs0 with hend | ⟨c, cs, hskip, hstop⟩ | ⟨o, r, hop⟩ | ⟨size, start, hat⟩
  · simp only [fold_end hend, foldEvents_end hend, and_self]
  · simp only [fold_closing hskip hstop, foldEvents_closing hskip hstop, and_self]
  · rw [foldEvents_of_operatorStart hop] at hagree
    obtain ⟨hfold, hevents⟩ := ihfold term value o r (hagree.mono (List.subset_cons_self _ _))
    simp only [fold_of_operatorStart hop, foldEvents_of_operatorStart hop, hfold, hevents, and_self]
  · exact foldFramed_atom ihfold ihatom hat hagree

theorem atomFramed_succ (ihfold : FoldFramed ctx readByte f) : AtomFramed ctx readByte (f + 1) := by
  intro size cs hagree
  cases cs with
  | nil => simp only [atom_nil, atomEvents_nil, and_self]
  | cons c r =>
    by_cases hp : c = '('
    · subst hp
      rw [atomEvents_paren] at hagree
      simp only [atom_paren, atomEvents_paren]
      exact ihfold .paren 0 .add r hagree
    by_cases hb : c = '['
    · -- the address is the same under both memories, and so is the word read there
      subst hb
      cases hf : fold ctx f .bracket 0 .add r with
      | error e =>
        rw [atomEvents_bracket_error hf] at hagree
        obtain ⟨hfold, hevents⟩ := ihfold .bracket 0 .add r hagree
        have hf' := hfold.trans hf
        simp only [atom_bracket, hf, hf', atomEvents_bracket_error hf, atomEvents_bracket_error hf',
          hevents, Except.map, and_self]
      | ok p =>
        obtain ⟨a, after⟩ := p
        rw [atomEvents_bracket_ok hf] at hagree
        obtain ⟨hfold, hevents⟩ := ihfold .bracket 0 .add r (hagree.mono (List.subset_append_left _ _))
        have hf' := hfold.trans hf
        have hderef : (if a = 0 then 0 else Context.deref { ctx with readByte := readByte } a size) =
            if a = 0 then 0 else ctx.deref a size := by
          split
          · rfl
          · next h0 => rw [hagree.deref (List.mem_append_right _ (by simp [h0]))]
        simp only [atom_bracket, hf, hf', atomEvents_bracket_ok hf, atomEvents_bracket_ok hf',
          hevents, Except.map, hderef, and_self]
    · -- registers and address texts do not read memory
      have hleaf : atom { ctx with readByte := readByte } (f + 1) size (c :: r) = atom ctx (f + 1) size (c :: r) := by
        rw [atom, atom]
        all_goals simp [hp, hb]
      simp only [hleaf, atomEvents_leaf ⟨hp, hb⟩, and_self]

/-- Both readers read memory only where their dereferences read.  By induction on the fuel. -/
theorem reading_framed (ctx : Context) (readByte : Word → UInt8) :
    ∀ f, FoldFramed ctx readByte f ∧ AtomFramed ctx readByte f := by
  intro f
  induction f with
  | zero =>
    refine ⟨fun term value op cs0 _ => ?_, fun size cs _ => ?_⟩
    · simp only [foldEvents_zero, and_true]
      rfl
    · simp only [atomEvents_zero, and_true]
      rfl
  | succ f ih => exact ⟨foldFramed_succ ih.1 ih.2, atomFramed_succ ih.1⟩

end Frame

end Intercept.Expr
