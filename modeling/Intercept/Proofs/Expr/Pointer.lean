import Intercept.Proofs.Expr.Fuel
/-!
# Locations and values agree

`pointer` gives the location an expression denotes and `eval` its value, by separate routes:
`pointer` matches a whole register name at once, and reads a leading `[...]` with a reader of
its own started on the text after the `[`.  The two routes agree on every text
(`pointer_agrees_with_eval`):

* a text that is exactly a register name, in any case, denotes that register's slot, which
  `registerSlot?` names too, and evaluates to the word in it;
* a text that starts with `[` has an address exactly when the bracketed atom that evaluation
  reads first has a value, and otherwise both fail with the same error; when nothing follows
  the `]`, the text evaluates to the word read at that address, or to `0` at address `0`;
* any other text denotes no location.
-/

namespace Intercept.Expr

/-! ### Register names -/

theorem Register.name_toLower (r : Register) : r.name.toList.map Char.toLower = r.name.toList := by
  cases r <;> rfl

/-- The register named at the start of a text is the one its first three characters write,
in any case. -/
theorem Register.parsePrefix?_eq_some_iff {cs rest : List Char} {r : Register} :
    Register.parsePrefix? cs = some (r, rest) ↔
      ∃ hd, cs = hd ++ rest ∧ hd.map Char.toLower = r.name.toList := by
  constructor
  · intro h
    obtain ⟨hrest, hlen⟩ := parsePrefix?_eq_some h
    match cs, hlen with
    | a :: b :: c :: tail, _ =>
      unfold Register.parsePrefix? at h
      obtain ⟨r', hfind, hpair⟩ := Option.map_eq_some_iff.mp h
      simp only [Prod.mk.injEq] at hpair
      obtain ⟨rfl, rfl⟩ := hpair
      -- the register found is one whose name the three characters write
      have hsame := List.find?_some hfind
      simp only [Register.sameIgnoringCase, beq_iff_eq, Register.name_toLower] at hsame
      exact ⟨[a, b, c], rfl, hsame⟩
  · rintro ⟨hd, rfl, hname⟩
    exact parsePrefix?_name hname rest

/-- A text is a whole register name exactly when it writes that name in some case. -/
theorem Register.ofText?_eq_some_iff {cs : List Char} {r : Register} :
    Register.ofText? cs = some r ↔ cs.map Char.toLower = r.name.toList := by
  have hwhole : Register.ofText? cs = some r ↔ Register.parsePrefix? cs = some (r, []) := by
    unfold Register.ofText?
    constructor
    · intro h
      split at h
      · next r' heq =>
        obtain rfl := Option.some.inj h
        exact heq
      · cases h
    · intro h
      rw [h]
  rw [hwhole, Register.parsePrefix?_eq_some_iff]
  constructor
  · rintro ⟨hd, rfl, hname⟩
    simpa using hname
  · intro hname
    exact ⟨cs, (List.append_nil cs).symm, hname⟩

/-! ### Evaluating a text that is one atom -/

/-- A text that starts with the first character of an atom is an atom read with a whole
word. -/
theorem atomStart_top {c : Char} {cs : List Char} (hc : c.toLower ∈ atomLead) :
    AtomStart .top (c :: cs) 8 (c :: cs) := by
  have hblank := (itemLead_ne (List.mem_append_left _ hc)).1
  refine ⟨c, cs, skipBlanks_cons cs hblank, by simp [Terminator.char?],
    operator?_eq_none cs (List.mem_append_left _ hc), ?_, ?_⟩
  · rw [sizeQualifier_bare cs hc]
  · rw [sizeQualifier_bare cs hc]
    exact skipBlanks_cons cs hblank

/-- A text that is one atom, and nothing after it, evaluates to the atom's value. -/
theorem eval_of_atom {ctx : Context} {text : String} {c : Char} {cs : List Char} {v : Word}
    (htext : text.toList = c :: cs) (hc : c.toLower ∈ atomLead)
    (hatom : atom ctx (2 * text.toList.length + 1) 8 text.toList = .ok (v, [])) :
    eval ctx text = .ok v := by
  rw [← fold_eq_eval ctx text (Nat.le_succ _), htext, fold_of_atomStart (atomStart_top hc),
    ← htext, hatom]
  have hadd : Op.add.apply 0 v = some v := by simp [Op.apply]
  simp only [Except.bind, hadd, Option.elim]
  rw [fold_end rfl]
  rfl

/-! ### The three kinds of text -/

section Kinds

variable (ctx : Context) (s : Snapshot) (x : String)

theorem pointer_of_register {r : Register} (h : x.toList.map Char.toLower = r.name.toList) :
    pointer ctx x = .ok (.slot (.reg r), []) := by
  rw [pointer, Register.ofText?_eq_some_iff.mpr h]

theorem registerSlot?_of_register {r : Register} (h : x.toList.map Char.toLower = r.name.toList) :
    registerSlot? x = some (.reg r) := by
  have hpre := parsePrefix?_name h []
  rw [List.append_nil] at hpre
  rw [registerSlot?, hpre]
  rfl

/-- A register name evaluates to the word in its slot. -/
theorem eval_register {r : Register} (h : x.toList.map Char.toLower = r.name.toList) :
    eval { ctx with regs := some s } x = .ok (s.get (.reg r)) := by
  have hname : r.name.toList.head? = some 'e' := by cases r <;> rfl
  obtain ⟨c, cs, hx⟩ : ∃ c cs, x.toList = c :: cs := by
    cases hx : x.toList with
    | nil => simp [hx, ← h] at hname
    | cons c cs => exact ⟨c, cs, rfl⟩
  have hce : c.toLower = 'e' := by simpa [hx, ← h] using hname
  have hmem : c.toLower ∈ ['e'] := by simp [hce]
  have hc : c ≠ '(' ∧ c ≠ '[' := ⟨ne_of_toLower_mem hmem (by decide), ne_of_toLower_mem hmem (by decide)⟩
  have hpre : Register.parsePrefix? (c :: cs) = some (r, []) := by
    have := parsePrefix?_name h []
    rwa [List.append_nil, hx] at this
  have htrunc : (s.get (.reg r)).truncate 8 = s.get (.reg r) := by simp [Word.truncate]
  refine eval_of_atom hx (by rw [hce]; decide) ?_
  rw [hx, atom_register hc rfl hpre, htrunc]

/-- A text that starts with `[` denotes the address its bracketed expression evaluates to. -/
theorem pointer_of_bracket {inner : List Char} (hx : x.toList = '[' :: inner) :
    pointer ctx x = (fold ctx (fuelFor inner) .bracket 0 .add inner).map
      fun p => (.addr p.1, p.2) := by
  have hnone : Register.ofText? ('[' :: inner) = none := by
    unfold Register.ofText?
    rw [parsePrefix?_eq_none inner (by decide)]
  rw [pointer, hx, hnone]
  rfl

/-- The bracketed atom at the start of a text fails exactly when the address inside it does,
with the same error. -/
theorem atom_bracket_error {inner : List Char} (hx : x.toList = '[' :: inner) {n : Nat}
    (hn : 2 * x.toList.length ≤ n) (e : ExprError) :
    atom ctx n 8 x.toList = .error e ↔ fold ctx (fuelFor inner) .bracket 0 .add inner = .error e := by
  rw [hx] at hn ⊢
  simp only [List.length_cons] at hn
  obtain ⟨g, rfl⟩ : ∃ g, n = g + 1 := ⟨n - 1, by omega⟩
  -- the reader inside the brackets gets fuel enough whichever way it is started
  rw [atom_bracket, fold_fuel (Nat.le_refl _) (show 2 * inner.length + 1 ≤ g by omega),
    ← fold_fuel (Nat.le_refl _) (show 2 * inner.length + 1 ≤ fuelFor inner by unfold fuelFor; omega)]
  cases fold ctx (fuelFor inner) .bracket 0 .add inner with
  | error e' => simp [Except.map]
  | ok p => simp [Except.map]

/-- With nothing after its `]`, a dereference evaluates to the word at its address, or to `0`
at address `0`. -/
theorem eval_bracket {inner : List Char} (hx : x.toList = '[' :: inner) {a : Word}
    (h : fold ctx (fuelFor inner) .bracket 0 .add inner = .ok (a, [])) :
    eval ctx x = .ok (if a = 0 then 0 else ctx.deref a 8) := by
  refine eval_of_atom hx (by decide) ?_
  have hfuel : 2 * x.toList.length = fuelFor inner := by
    rw [hx, fuelFor, List.length_cons]
    omega
  rw [hx, atom_bracket, ← hx, hfuel, h]
  rfl

theorem pointer_notAddressable (hreg : ∀ r : Register, x.toList.map Char.toLower ≠ r.name.toList)
    (hbracket : x.toList.head? ≠ some '[') : pointer ctx x = .error (.notAddressable x) := by
  have hnone : Register.ofText? x.toList = none := by
    cases h : Register.ofText? x.toList with
    | none => rfl
    | some r => exact absurd (Register.ofText?_eq_some_iff.mp h) (hreg r)
  unfold pointer
  simp only [hnone]
  split
  · next inner hx => simp [hx] at hbracket
  · rfl

end Kinds

/-- `pointer` and `eval` agree on every text, for every snapshot and every context: a register
name denotes its slot, which `registerSlot?` names too, and evaluates to the word in it; a
text that starts with `[` has an address exactly when the bracketed atom evaluation reads
first has a value, both failing with the same error otherwise, and with nothing after the `]`
it evaluates to the word at that address, or to `0` at address `0`; any other text denotes no
location. -/
theorem pointer_agrees_with_eval (ctx : Context) (s : Snapshot) (x : String) :
    let ctx := { ctx with regs := some s }
    (∀ r : Register, x.toList.map Char.toLower = r.name.toList →
      pointer ctx x = .ok (.slot (.reg r), []) ∧ registerSlot? x = some (.reg r) ∧
        eval ctx x = .ok (s.get (.reg r))) ∧
    (∀ inner, x.toList = '[' :: inner →
      (∀ n e, 2 * x.toList.length ≤ n → (pointer ctx x = .error e ↔ atom ctx n 8 x.toList = .error e)) ∧
      ∀ a, pointer ctx x = .ok (.addr a, []) → eval ctx x = .ok (if a = 0 then 0 else ctx.deref a 8)) ∧
    ((∀ r : Register, x.toList.map Char.toLower ≠ r.name.toList) → x.toList.head? ≠ some '[' →
      pointer ctx x = .error (.notAddressable x)) := by
  intro ctx'
  refine ⟨fun r h => ⟨pointer_of_register ctx' x h, registerSlot?_of_register x h,
    eval_register ctx s x h⟩, fun inner hx => ⟨fun n e hn => ?_, fun a ha => ?_⟩,
    pointer_notAddressable ctx' x⟩
  · -- the address fails exactly when the bracketed atom does
    rw [atom_bracket_error ctx' x hx hn e, pointer_of_bracket ctx' x hx]
    cases fold ctx' (fuelFor inner) .bracket 0 .add inner with
    | error e' => simp [Except.map]
    | ok p => simp [Except.map]
  · -- an address with nothing after the `]` is what the bracketed expression gave
    rw [pointer_of_bracket ctx' x hx] at ha
    cases hf : fold ctx' (fuelFor inner) .bracket 0 .add inner with
    | error e' =>
      rw [hf] at ha
      cases ha
    | ok p =>
      obtain ⟨a', rest⟩ := p
      rw [hf] at ha
      simp only [Except.map, Except.ok.injEq, Prod.mk.injEq, Pointer.addr.injEq] at ha
      obtain ⟨rfl, rfl⟩ := ha
      exact eval_bracket ctx' x hx hf

/-- Upper-case `EAX` denotes the slot of `eax` and evaluates to the word in it; `[eax + 9]`
denotes the address 16 and evaluates to the eight bytes stored from there, in a memory whose
every byte is the low byte of its address. -/
theorem pointer_agrees_with_eval_eax_and_bracket :
    let ctx : Context := ⟨some { eax := 7 }, fun a => a.toUInt8, ⟨fun _ => none, fun _ => none⟩, none⟩
    pointer ctx "EAX" = .ok (.slot (.reg .eax), []) ∧ eval ctx "EAX" = .ok 7 ∧
      pointer ctx "[eax + 9]" = .ok (.addr 16, []) ∧ eval ctx "[eax + 9]" = .ok 0x1716151413121110 := by
  intro ctx
  have h := pointer_agrees_with_eval
    ⟨none, fun a => a.toUInt8, ⟨fun _ => none, fun _ => none⟩, none⟩ { eax := 7 }
  obtain ⟨hpointer, -, heval⟩ := (h "EAX").1 .eax (by decide)
  -- the bracketed text: its address, then the word read there
  have haddr : pointer ctx "[eax + 9]" = .ok (.addr 16, []) := by decide +kernel
  have hword := ((h "[eax + 9]").2.1 "eax + 9]".toList rfl).2 16 haddr
  have hread : ctx.deref 16 8 = 0x1716151413121110 := by decide +kernel
  rw [if_neg (by decide), hread] at hword
  exact ⟨hpointer, heval, haddr, hword⟩

end Intercept.Expr
