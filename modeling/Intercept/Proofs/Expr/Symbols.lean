import Intercept.Proofs.Expr.Pointer
import Intercept.Proofs.Expr.Trace
/-!
# Where symbols are read

The address reader takes a text `<name>` as a symbol and looks `name` up in the symbol
tables.  The expression reader looks for an operator before it looks for an atom, though, and
`<` is the less-than operator.  So a text `<name>` is the comparison `0 < name>`, and when no
other `<` follows the symbol tables are never consulted.  A symbol is read as an atom only
where no operator is looked for: right after a size qualifier, where `byte ptr <name>` is
worth the symbol's value (`symbol_atoms_need_a_qualifier`).
-/

namespace Intercept.Expr

/-! ### The address reader -/

/-- Only a text that starts with `<` is looked up in the symbol tables. -/
theorem resolve_symbols {cs : List Char} (h : cs.head? ≠ some '<') (syms syms' : Symbols)
    (base : Option Word) : resolve syms base cs = resolve syms' base cs := by
  match cs, h with
  | [], _ => rfl
  | [c], h =>
    have hc : c ≠ '<' := fun hc => h (by simp [hc])
    -- a one-character text is read as a decimal numeral
    have hdec : ∀ syms, resolve syms base [c] = resolveNumeral 0 10 0 [c] := fun syms =>
      resolve.eq_5 syms base [c] (fun _ h' => hc (List.cons.inj h').1) (fun _ _ h' => by simp at h')
        (fun _ _ _ h' => by simp at h')
    rw [hdec, hdec]
  | c :: x :: tail, h =>
    have hc : c ≠ '<' := fun hc => h (by simp [hc])
    by_cases h0 : c = '0'
    · subst h0
      rw [resolve.eq_2, resolve.eq_2]
    · cases base with
      | none => rw [resolve.eq_4 _ _ _ _ hc h0, resolve.eq_4 _ _ _ _ hc h0]
      | some b => rw [resolve.eq_3 _ _ _ _ _ hc h0, resolve.eq_3 _ _ _ _ _ hc h0]

theorem idxOf?_append_close {s : List Char} (h : '>' ∉ s) : (s ++ ['>']).idxOf? '>' = some s.length := by
  induction s with
  | nil => simp
  | cons c s ih =>
    have hc : c ≠ '>' := fun hc => h (hc ▸ List.mem_cons_self)
    rw [List.cons_append, List.idxOf?_cons, ih (fun hs => h (List.mem_cons_of_mem _ hs))]
    simp [hc]

/-- A symbol closed by the first `>` of a text is looked up; the text is taken whole. -/
theorem resolve_symbol (syms : Symbols) (base : Option Word) {s : List Char} (h : '>' ∉ s) :
    resolve syms base ('<' :: (s ++ ['>'])) =
      (syms.lookup s).elim ⟨0, s.length + 2, some .symbolNotFound⟩ fun v => ⟨v, s.length + 2, none⟩ := by
  rw [resolve.eq_1, idxOf?_append_close h]
  simp only [List.take_left, List.length_cons, List.length_append]
  cases syms.lookup s with
  | none => rfl
  | some v => simp

/-! ### The expression reader -/

/-- A symbol read as an atom is worth its value, and is no atom when the tables lack it. -/
theorem atom_symbol {ctx : Context} {f size : Nat} {s : List Char} (hgt : '>' ∉ s) :
    atom ctx (f + 1) size ('<' :: (s ++ ['>'])) =
      (ctx.symbols.lookup s).elim (.error (.unknownCharacter (String.ofList ('<' :: (s ++ ['>'])))))
        fun v => .ok (v, []) := by
  have hnone : Register.parsePrefix? ('<' :: (s ++ ['>'])) = none := parsePrefix?_eq_none _ (by decide)
  rw [atom]
  · rw [resolve_symbol _ _ hgt]
    cases ctx.symbols.lookup s <;> simp [hnone]
  all_goals simp

/-- Readings of a text with no `<` in it never consult the symbol tables.  By induction on
the fuel, for both readers at once. -/
theorem reading_symbols_frame (ctx : Context) (syms : Symbols) : ∀ f,
    (∀ term value op cs0, '<' ∉ cs0 →
      fold { ctx with symbols := syms } f term value op cs0 = fold ctx f term value op cs0) ∧
    (∀ size cs, '<' ∉ cs → atom { ctx with symbols := syms } f size cs = atom ctx f size cs) := by
  intro f
  induction f with
  | zero => exact ⟨fun _ _ _ _ _ => rfl, fun _ _ _ => rfl⟩
  | succ f ih =>
    obtain ⟨ihfold, ihatom⟩ := ih
    constructor
    · intro term value op cs0 hlt
      rcases step_cases term cs0 with hend | ⟨c, cs, hskip, hstop⟩ | ⟨o, r, hop⟩ | ⟨size, start, hat⟩
      · simp only [fold_end hend]
      · simp only [fold_closing hskip hstop]
      · simp only [fold_of_operatorStart hop]
        exact ihfold term value o r fun h => hlt (hop.suffix.1.subset h)
      · -- the atom and what follows it lie inside the text
        have hstart : '<' ∉ start := fun h => hlt (hat.suffix.1.subset h)
        simp only [fold_of_atomStart hat, ihatom size start hstart]
        cases ha : atom ctx f size start with
        | error e => rfl
        | ok p =>
          obtain ⟨v, rest⟩ := p
          have hrest : '<' ∉ rest := fun h => hstart ((atom_suffix ha).1.subset h)
          dsimp only [Except.bind]
          cases op.apply value v with
          | none => rfl
          | some value' => simp only [Option.elim, ihfold term value' op rest hrest]
    · intro size cs hlt
      cases cs with
      | nil => simp only [atom_nil]
      | cons c r =>
        have hr : '<' ∉ r := fun h => hlt (List.mem_cons_of_mem _ h)
        by_cases hp : c = '('
        · subst hp
          simp only [atom_paren, ihfold .paren 0 .add r hr]
        by_cases hb : c = '['
        · subst hb
          simp only [atom_bracket, ihfold .bracket 0 .add r hr]
          rfl
        · -- a register or an address text that does not start with `<`
          have hc : c ≠ '<' := fun h => hlt (h ▸ List.mem_cons_self)
          have hhead : (c :: r).head? ≠ some '<' := by simpa using hc
          have hres := resolve_symbols hhead syms ctx.symbols ctx.base
          rw [atom, atom]
          all_goals simp [hp, hb, hres]

/-- Only `=` is `=` in lower case. -/
theorem eq_of_toLower_eq_equals {d : Char} (h : d.toLower = '=') : d = '=' := by
  unfold Char.toLower at h
  split at h
  · next hc =>
    -- an upper-case letter lowers to a letter
    exfalso
    have hval := congrArg (fun c => c.val.toNat) h
    obtain ⟨h1, h2⟩ := hc
    rw [ge_iff_le, UInt32.le_iff_toNat_le] at h1
    rw [UInt32.le_iff_toNat_le] at h2
    simp [UInt32.toNat_add] at hval h1 h2
    omega
  · exact h

theorem operator?_less {u : List Char} (hu : u.head? ≠ some '=') : operator? ('<' :: u) = some (.lt, u) := by
  cases u with
  | nil => rfl
  | cons d u =>
    have hd : d.toLower ≠ '=' := fun h => hu (by simp [eq_of_toLower_eq_equals h])
    simp [operator?, Op.twoChar, afterToken?, Register.sameIgnoringCase, hd, Op.ofChar?]

theorem operator?_angle (u : List Char) : ∃ o u', operator? ('<' :: u) = some (o, u') := by
  unfold operator?
  split
  · next found _ => exact ⟨found.1, found.2, rfl⟩
  · exact ⟨.lt, u, rfl⟩

theorem fold_fuel_eq {ctx : Context} {m m' : Nat} {term : Terminator} {value : Word} {op : Op}
    {cs0 : List Char} (hm : 2 * cs0.length + 1 ≤ m) (hm' : 2 * cs0.length + 1 ≤ m') :
    fold ctx m term value op cs0 = fold ctx m' term value op cs0 :=
  (fold_fuel (Nat.le_refl _) hm).trans (fold_fuel (Nat.le_refl _) hm').symm

theorem eval_of_operatorStart {ctx : Context} {text : String} {o : Op} {rest : List Char}
    (h : OperatorStart .top text.toList o rest) :
    eval ctx text = (fold ctx (fuelFor rest) .top 0 o rest).map Prod.fst := by
  have hlt := h.suffix.2
  rw [← fold_eq_eval ctx text (Nat.le_succ _), fold_of_operatorStart h,
    fold_fuel_eq (by omega) (show 2 * rest.length + 1 ≤ fuelFor rest by unfold fuelFor; omega)]

theorem angle_text (s : String) : ("<" ++ s ++ ">").toList = '<' :: (s.toList ++ ['>']) := by
  simp

/-- `<name>` is the comparison `0 < name>`, unless the name starts with `=`. -/
theorem eval_angle_less (ctx : Context) {s : String} (heq : s.toList.head? ≠ some '=') :
    eval ctx ("<" ++ s ++ ">") =
      (fold ctx (fuelFor (s.toList ++ ['>'])) .top 0 .lt (s.toList ++ ['>'])).map Prod.fst := by
  have hhead : (s.toList ++ ['>']).head? ≠ some '=' := by
    cases hs : s.toList with
    | nil => simp
    | cons d u => simpa [hs] using heq
  refine eval_of_operatorStart ⟨'<', s.toList ++ ['>'], ?_, by simp [Terminator.char?], operator?_less hhead⟩
  rw [angle_text]
  exact skipBlanks_cons _ (by decide)

/-- With no other `<` in it, `<name>` never consults the symbol tables. -/
theorem eval_angle_symbols (ctx : Context) {s : String} (hlt : '<' ∉ s.toList) (syms : Symbols) :
    eval { ctx with symbols := syms } ("<" ++ s ++ ">") = eval ctx ("<" ++ s ++ ">") := by
  obtain ⟨o, u, hop⟩ := operator?_angle (s.toList ++ ['>'])
  have hstart : OperatorStart .top ("<" ++ s ++ ">").toList o u := by
    rw [angle_text]
    exact ⟨'<', s.toList ++ ['>'], skipBlanks_cons _ (by decide), by simp [Terminator.char?], hop⟩
  -- what follows the operator is part of `name>`, with no `<` in it
  have hu : '<' ∉ u := by
    intro h
    obtain ⟨hsuf, hshorter⟩ := operator?_suffix hop
    rcases List.mem_append.mp ((suffix_tail_of_lt hsuf hshorter).subset h) with h' | h'
    · exact hlt h'
    · exact absurd h' (by decide)
  rw [eval_of_operatorStart hstart, eval_of_operatorStart hstart,
    (reading_symbols_frame ctx syms _).1 _ _ _ _ hu]

/-- After a size qualifier a symbol is an atom: `byte ptr <name>` is worth the symbol's
value, whatever the qualifier, and is an unknown character when the tables lack the name. -/
theorem eval_qualified_symbol (ctx : Context) {q : Qualifier} {qs : List Char}
    (hq : qs.map Char.toLower = q.text) {s : String} (hgt : '>' ∉ s.toList) :
    eval ctx (String.ofList qs ++ " <" ++ s ++ ">") =
      (ctx.symbols.lookup s.toList).elim (.error (.unknownCharacter ("<" ++ s ++ ">"))) .ok := by
  have hlead : ∃ k, q.text.head? = some k ∧ k ∈ itemLead := by
    cases q <;> exact ⟨_, rfl, by decide⟩
  obtain ⟨k, hk, hmem⟩ := hlead
  obtain ⟨c, qs', rfl⟩ : ∃ c qs', qs = c :: qs' := by
    cases qs with
    | nil => simp [← hq] at hk
    | cons c qs' => exact ⟨c, qs', rfl⟩
  have hc : c.toLower ∈ itemLead := by
    have hck : c.toLower = k := by simpa [← hq] using hk
    rwa [hck]
  -- the qualifier starts an item, and the symbol is the atom it reads
  have hat : AtomStart .top (String.ofList (c :: qs') ++ " <" ++ s ++ ">").toList q.bytes
      ('<' :: (s.toList ++ ['>'])) := by
    have htext : (String.ofList (c :: qs') ++ " <" ++ s ++ ">").toList =
        c :: (qs' ++ ' ' :: '<' :: (s.toList ++ ['>'])) := by
      simp
    have hsize := sizeQualifier_text hq (' ' :: '<' :: (s.toList ++ ['>']))
    rw [List.cons_append] at hsize
    rw [htext]
    refine ⟨c, qs' ++ ' ' :: '<' :: (s.toList ++ ['>']), skipBlanks_cons _ (itemLead_ne hc).1,
      by simp [Terminator.char?], operator?_eq_none _ hc, by rw [hsize], ?_⟩
    rw [hsize]
    simp [skipBlanks]
  have hname : String.ofList ('<' :: (s.toList ++ ['>'])) = "<" ++ s ++ ">" := by
    rw [← String.toList_inj, angle_text, String.toList_ofList]
  rw [← fold_eq_eval ctx _ (Nat.le_succ _), fold_of_atomStart hat, atom_symbol hgt, hname]
  cases ctx.symbols.lookup s.toList with
  | none => rfl
  | some v =>
    have hadd : Op.add.apply 0 v = some v := by simp [Op.apply]
    simp only [Option.elim, Except.bind, hadd]
    rw [fold_end rfl]
    rfl

/-- Symbols are atoms only after a size qualifier.  A text `<name>` is the comparison
`0 < name>` when the name does not start with `=`, and never consults the symbol tables when
no other `<` is in it.  After a size qualifier, in any case, `<name>` is worth the name's value
in the tables, and is an unknown character when they lack it. -/
theorem symbol_atoms_need_a_qualifier (ctx : Context) (s : String) :
    (s.toList.head? ≠ some '=' → eval ctx ("<" ++ s ++ ">") =
      (fold ctx (fuelFor (s.toList ++ ['>'])) .top 0 .lt (s.toList ++ ['>'])).map Prod.fst) ∧
    ('<' ∉ s.toList → ∀ syms : Symbols,
      eval { ctx with symbols := syms } ("<" ++ s ++ ">") = eval ctx ("<" ++ s ++ ">")) ∧
    ('>' ∉ s.toList → ∀ (q : Qualifier) (qs : List Char), qs.map Char.toLower = q.text →
      eval ctx (String.ofList qs ++ " <" ++ s ++ ">") =
        (ctx.symbols.lookup s.toList).elim (.error (.unknownCharacter ("<" ++ s ++ ">"))) .ok) :=
  ⟨eval_angle_less ctx, fun hlt => eval_angle_symbols ctx hlt,
    fun hgt _ _ hq => eval_qualified_symbol ctx hq hgt⟩

/-- With `f` registered as `5`, `<f>` reads as with no symbols at all, as the comparison of
`0` with the unknown `f>`, while `byte ptr <f>` is `5`. -/
theorem symbol_f_needs_a_qualifier :
    let ctx : Context :=
      ⟨none, fun _ => 0, ⟨fun n => if n = "f" then some 5 else none, fun _ => none⟩, none⟩
    eval { ctx with symbols := ⟨fun _ => none, fun _ => none⟩ } "<f>" = eval ctx "<f>" ∧
      eval ctx "<f>" = .error (.unknownCharacter "f>") ∧ eval ctx "byte ptr <f>" = .ok 5 := by
  intro ctx
  obtain ⟨-, hframe, hqual⟩ := symbol_atoms_need_a_qualifier ctx "f"
  have hangle : ("<" ++ "f" ++ ">" : String) = "<f>" := by decide
  have hbyte : (String.ofList "byte ptr".toList ++ " <" ++ "f" ++ ">" : String) = "byte ptr <f>" := by
    decide
  refine ⟨?_, by rfl, ?_⟩
  · rw [← hangle]
    exact hframe (by decide) _
  · rw [← hbyte, hqual (by decide) .byte _ (by decide)]
    rfl

end Intercept.Expr
