import Intercept.Proofs.Expr.Fold
/-!
# Reading makes progress, so the fuel is enough

Every step of the expression reader takes characters off the front of its text: an operator
takes its one or two characters, an atom at least its first one, and a parenthesised or
bracketed atom takes its opening character before the sub-expression inside is read.  So the
reader only ever looks at suffixes of the text it started on, and a chain of calls goes at
most about twice as deep as the text is long.

* `operator?_eq_some`, `sizeQualifier_suffix`, `parsePrefix?_eq_some` — what each piece of a
  step takes;
* `fold_succ_cases` — what one step of the reader does, said once, by what the text starts
  with after blanks;
* `fold_suffix`, `atom_suffix` — a reading leaves a suffix of its text, an atom a strictly
  shorter one;
* `reading_fuel`, `fold_fuel` — past twice the length of the text, more fuel changes nothing,
  so the fuel `eval` gives is always enough (`fold_eq_eval`).
-/

namespace Intercept.Expr

/-! ### The pieces of a step -/

theorem skipBlanks_suffix (cs : List Char) : skipBlanks cs <:+ cs := List.dropWhile_suffix _

theorem afterToken?_eq_some {tok cs rest : List Char} (h : afterToken? tok cs = some rest) :
    rest = cs.drop tok.length ∧ tok.length ≤ cs.length := by
  unfold afterToken? at h
  split at h
  · next hc => exact ⟨(Option.some.inj h).symm, hc.2⟩
  · cases h

/-- An operator takes one or two characters off the front of the text. -/
theorem operator?_eq_some {cs rest : List Char} {o : Op} (h : operator? cs = some (o, rest)) :
    ∃ k, 1 ≤ k ∧ k ≤ cs.length ∧ rest = cs.drop k := by
  unfold operator? at h
  split at h
  · next found hfound =>
    obtain rfl := Option.some.inj h
    obtain ⟨⟨tok, o'⟩, hmem, hr⟩ := List.exists_of_findSome?_eq_some hfound
    obtain ⟨r, hr', hpair⟩ := Option.map_eq_some_iff.mp hr
    obtain ⟨rfl, hle⟩ := afterToken?_eq_some hr'
    -- every two-character operator is two characters long
    have htok : tok.length = 2 := by
      simp only [Op.twoChar, List.mem_cons, Prod.mk.injEq, List.not_mem_nil, or_false] at hmem
      rcases hmem with ⟨rfl, -⟩ | ⟨rfl, -⟩ | ⟨rfl, -⟩ | ⟨rfl, -⟩ <;> rfl
    simp only [Prod.mk.injEq] at hpair
    exact ⟨2, by omega, htok ▸ hle, by rw [← hpair.2, htok]⟩
  · cases cs with
    | nil => cases h
    | cons c rest' =>
      obtain ⟨o', -, hpair⟩ := Option.map_eq_some_iff.mp h
      simp only [Prod.mk.injEq] at hpair
      exact ⟨1, Nat.le_refl 1, by simp, by simp [← hpair.2]⟩

theorem operator?_suffix {cs rest : List Char} {o : Op} (h : operator? cs = some (o, rest)) :
    rest <:+ cs ∧ rest.length < cs.length := by
  obtain ⟨k, hk1, hk2, rfl⟩ := operator?_eq_some h
  exact ⟨List.drop_suffix _ _, by simp; omega⟩

/-- A size qualifier, if there is one, is taken off the front of the text. -/
theorem sizeQualifier_suffix (cs : List Char) : (sizeQualifier cs).2 <:+ cs := by
  unfold sizeQualifier
  split
  · next found hfound =>
    obtain ⟨⟨tok, n⟩, -, hr⟩ := List.exists_of_findSome?_eq_some hfound
    obtain ⟨r, hr', rfl⟩ := Option.map_eq_some_iff.mp hr
    obtain ⟨rfl, -⟩ := afterToken?_eq_some hr'
    exact List.drop_suffix _ _
  · exact List.suffix_refl _

theorem parsePrefix?_eq_some {cs rest : List Char} {r : Register}
    (h : Register.parsePrefix? cs = some (r, rest)) : rest = cs.drop 3 ∧ 3 ≤ cs.length := by
  unfold Register.parsePrefix? at h
  split at h
  · next a b c tail =>
    obtain ⟨r', -, hpair⟩ := Option.map_eq_some_iff.mp h
    simp only [Prod.mk.injEq] at hpair
    exact ⟨by simp [← hpair.2], by simp⟩
  · cases h

/-! ### One step of the reader -/

/-- A step of the reader at `cs0`, inside a sub-expression that `term` ends, meets the operator
`o`, and goes on at `rest`. -/
def OperatorStart (term : Terminator) (cs0 : List Char) (o : Op) (rest : List Char) : Prop :=
  ∃ c cs, skipBlanks cs0 = c :: cs ∧ term.char? ≠ some c ∧ operator? (c :: cs) = some (o, rest)

/-- A step of the reader at `cs0`, inside a sub-expression that `term` ends, meets an atom:
after blanks the text neither ends, nor closes the sub-expression, nor starts with an operator.
The atom is read with `size` bytes from `start`, after any size qualifier and blanks. -/
def AtomStart (term : Terminator) (cs0 : List Char) (size : Nat) (start : List Char) : Prop :=
  ∃ c cs, skipBlanks cs0 = c :: cs ∧ term.char? ≠ some c ∧ operator? (c :: cs) = none ∧
    (sizeQualifier (c :: cs)).1 = size ∧ skipBlanks (sizeQualifier (c :: cs)).2 = start

theorem OperatorStart.suffix {term : Terminator} {cs0 rest : List Char} {o : Op}
    (h : OperatorStart term cs0 o rest) : rest <:+ cs0 ∧ rest.length < cs0.length := by
  obtain ⟨c, cs, hskip, -, hop⟩ := h
  obtain ⟨hsuf, hlt⟩ := operator?_suffix hop
  have hcs : c :: cs <:+ cs0 := hskip ▸ skipBlanks_suffix cs0
  exact ⟨hsuf.trans hcs, Nat.lt_of_lt_of_le hlt hcs.length_le⟩

theorem AtomStart.suffix {term : Terminator} {cs0 start : List Char} {size : Nat}
    (h : AtomStart term cs0 size start) : start <:+ cs0 ∧ 0 < cs0.length := by
  obtain ⟨c, cs, hskip, -, -, -, rfl⟩ := h
  have hcs : c :: cs <:+ cs0 := hskip ▸ skipBlanks_suffix cs0
  exact ⟨((skipBlanks_suffix _).trans (sizeQualifier_suffix _)).trans hcs,
    Nat.lt_of_lt_of_le (by simp) hcs.length_le⟩

/-- Where a step of the reader is: at the end of the text, at the character that closes the
sub-expression, at an operator, or at an atom. -/
theorem step_cases (term : Terminator) (cs0 : List Char) :
    skipBlanks cs0 = [] ∨ (∃ c cs, skipBlanks cs0 = c :: cs ∧ term.char? = some c) ∨
      (∃ o rest, OperatorStart term cs0 o rest) ∨ (∃ size start, AtomStart term cs0 size start) := by
  cases hskip : skipBlanks cs0 with
  | nil => exact .inl rfl
  | cons c cs =>
    by_cases hstop : term.char? = some c
    · exact .inr (.inl ⟨c, cs, rfl, hstop⟩)
    cases hop : operator? (c :: cs) with
    | some found => exact .inr (.inr (.inl ⟨found.1, found.2, c, cs, hskip, hstop, hop⟩))
    | none => exact .inr (.inr (.inr ⟨_, _, c, cs, hskip, hstop, hop, rfl, rfl⟩))

section Step

variable {ctx : Context} {f : Nat} {term : Terminator} {value : Word} {op : Op} {cs0 : List Char}

theorem fold_end (hskip : skipBlanks cs0 = []) :
    fold ctx (f + 1) term value op cs0 =
      if term = .bracket then .error (.unmatchedBracket "") else .ok (value, []) := by
  rw [fold, hskip]
  cases term <;> rfl

/-- At the character that closes the sub-expression the reader stops, after it. -/
theorem fold_closing {c : Char} {cs : List Char} (hskip : skipBlanks cs0 = c :: cs)
    (hstop : term.char? = some c) : fold ctx (f + 1) term value op cs0 = .ok (value, cs) := by
  -- the closing character is the terminator's own
  cases term with
  | top => cases hstop
  | paren =>
    obtain rfl : ')' = c := Option.some.inj hstop
    rw [fold, hskip]
    simp [Terminator.char?]
  | bracket =>
    obtain rfl : ']' = c := Option.some.inj hstop
    rw [fold, hskip]
    simp [Terminator.char?]

theorem fold_of_operatorStart {o : Op} {rest : List Char} (h : OperatorStart term cs0 o rest) :
    fold ctx (f + 1) term value op cs0 = fold ctx f term value o rest := by
  obtain ⟨c, cs, hskip, hstop, hop⟩ := h
  exact fold_operator hskip hstop hop

/-- At an atom the reader folds the atom's value in with the pending operator and goes on
after it; a failing atom, or a quotient or remainder by zero, ends the reading. -/
theorem fold_of_atomStart {size : Nat} {start : List Char} (h : AtomStart term cs0 size start) :
    fold ctx (f + 1) term value op cs0 =
      (atom ctx f size start).bind fun p =>
        (op.apply value p.1).elim (.error (.divisionByZero (String.ofList start)))
          fun value' => fold ctx f term value' op p.2 := by
  obtain ⟨c, cs, hskip, hstop, hop, rfl, rfl⟩ := h
  rw [fold]
  simp only [hskip, hop, beq_eq_false_iff_ne.mpr hstop, Bool.false_eq_true, if_false]
  cases atom ctx f (sizeQualifier (c :: cs)).1 (skipBlanks (sizeQualifier (c :: cs)).2) with
  | error e => rfl
  | ok p =>
    obtain ⟨v, rest⟩ := p
    dsimp only [Except.bind]
    cases op.apply value v <;> rfl

/-- There is no atom in an empty text. -/
theorem atom_nil (size : Nat) : atom ctx f size [] = .error (.unknownCharacter "") := by
  cases f with
  | zero => rfl
  | succ f =>
    rw [atom]
    · simp [Register.parsePrefix?, resolve, resolveNumeral, Resolution.failure]
    all_goals simp

theorem atom_leaf {c : Char} {cs : List Char} (hc : c ≠ '(' ∧ c ≠ '[') (g : Nat) :
    atom ctx (f + 1) size (c :: cs) = atom ctx (g + 1) size (c :: cs) := by
  rw [atom, atom]
  all_goals simp [hc.1, hc.2]

/-- A register takes its three characters and an address text what the resolver took, at
least one. -/
theorem atom_leaf_suffix {c : Char} {cs rest : List Char} {size : Nat} {w : Word}
    (hc : c ≠ '(' ∧ c ≠ '[') (h : atom ctx (f + 1) size (c :: cs) = .ok (w, rest)) :
    rest <:+ c :: cs ∧ rest.length < (c :: cs).length := by
  have hresolve : ctx.regs = none ∨ Register.parsePrefix? (c :: cs) = none →
      rest <:+ c :: cs ∧ rest.length < (c :: cs).length := by
    intro hreg
    have ht : (atom ctx (f + 1) size (c :: cs)).toOption = _ := atom_resolve hc hreg
    rw [h] at ht
    split at ht
    · cases ht
    · next hcond =>
      simp only [Except.toOption, Option.some.injEq, Prod.mk.injEq] at ht
      obtain ⟨-, rfl⟩ := ht
      have hpos : (resolve ctx.symbols ctx.base (c :: cs)).taken ≠ 0 := fun h0 => hcond (.inl h0)
      exact ⟨List.drop_suffix _ _, by simp only [List.length_drop, List.length_cons]; omega⟩
  cases hregs : ctx.regs with
  | none => exact hresolve (.inl hregs)
  | some s =>
    cases hr : Register.parsePrefix? (c :: cs) with
    | none => exact hresolve (.inr hr)
    | some found =>
      obtain ⟨r, u⟩ := found
      rw [atom_register hc hregs hr] at h
      obtain ⟨rfl, hle⟩ := parsePrefix?_eq_some hr
      simp only [Except.ok.injEq, Prod.mk.injEq] at h
      obtain ⟨-, rfl⟩ := h
      exact ⟨List.drop_suffix _ _, by simp only [List.length_drop]; omega⟩

end Step

/-! ### Progress -/

/-- What a reading leaves is a suffix of its text; an atom leaves a strictly shorter one.  By
induction on the fuel, for both readers at once. -/
theorem reading_suffix (ctx : Context) : ∀ f,
    (∀ term value op cs0 w rest, fold ctx f term value op cs0 = .ok (w, rest) → rest <:+ cs0) ∧
    (∀ size cs w rest, atom ctx f size cs = .ok (w, rest) → rest <:+ cs ∧ rest.length < cs.length) := by
  intro f
  induction f with
  | zero =>
    exact ⟨fun _ _ _ _ _ _ h => by simp [fold] at h, fun _ _ _ _ h => by simp [atom] at h⟩
  | succ f ih =>
    obtain ⟨ihfold, ihatom⟩ := ih
    constructor
    · intro term value op cs0 w rest h
      rcases step_cases term cs0 with hend | ⟨c, cs, hskip, hstop⟩ | ⟨o, r, hop⟩ | ⟨size, start, hat⟩
      · -- at the end nothing is left
        rw [fold_end hend] at h
        split at h
        · cases h
        · cases h
          exact List.nil_suffix
      · rw [fold_closing hskip hstop] at h
        simp only [Except.ok.injEq, Prod.mk.injEq] at h
        obtain ⟨-, rfl⟩ := h
        exact (List.suffix_cons c cs).trans (hskip ▸ skipBlanks_suffix cs0)
      · rw [fold_of_operatorStart hop] at h
        exact (ihfold _ _ _ _ _ _ h).trans hop.suffix.1
      · rw [fold_of_atomStart hat] at h
        cases ha : atom ctx f size start with
        | error e =>
          rw [ha] at h
          cases h
        | ok p =>
          obtain ⟨v, r⟩ := p
          rw [ha] at h
          cases hap : op.apply value v with
          | none => simp [Except.bind, hap, Option.elim] at h
          | some value' =>
            simp only [Except.bind, hap, Option.elim] at h
            exact ((ihfold _ _ _ _ _ _ h).trans (ihatom _ _ _ _ ha).1).trans hat.suffix.1
    · intro size cs w rest h
      cases cs with
      | nil =>
        rw [atom_nil] at h
        cases h
      | cons c r =>
        by_cases hp : c = '('
        · -- a parenthesised atom is read after its `(`
          subst hp
          rw [atom_paren] at h
          have hsuf := ihfold _ _ _ _ _ _ h
          exact ⟨hsuf.trans (List.suffix_cons _ _), by
            have := hsuf.length_le
            simp only [List.length_cons]
            omega⟩
        by_cases hb : c = '['
        · -- a bracketed atom is read after its `[`
          subst hb
          rw [atom_bracket] at h
          cases hf : fold ctx f .bracket 0 .add r with
          | error e =>
            rw [hf] at h
            cases h
          | ok p =>
            obtain ⟨a, after⟩ := p
            rw [hf] at h
            simp only [Except.map, Except.ok.injEq, Prod.mk.injEq] at h
            obtain ⟨-, rfl⟩ := h
            have hsuf := ihfold _ _ _ _ _ _ hf
            exact ⟨hsuf.trans (List.suffix_cons _ _), by
              have := hsuf.length_le
              simp only [List.length_cons]
              omega⟩
        · exact atom_leaf_suffix ⟨hp, hb⟩ h

theorem fold_suffix {ctx : Context} {f : Nat} {term : Terminator} {value w : Word} {op : Op}
    {cs0 rest : List Char} (h : fold ctx f term value op cs0 = .ok (w, rest)) : rest <:+ cs0 :=
  (reading_suffix ctx f).1 _ _ _ _ _ _ h

theorem atom_suffix {ctx : Context} {f size : Nat} {w : Word} {cs rest : List Char}
    (h : atom ctx f size cs = .ok (w, rest)) : rest <:+ cs ∧ rest.length < cs.length :=
  (reading_suffix ctx f).2 _ _ _ _ h

/-! ### Enough fuel -/

/-- Past twice the length of its text, a reading is the same with any more fuel: an operator
step takes a character for one unit of fuel, an atom's step takes one for two, and the
opening character of a parenthesised or bracketed atom pays for going one level deeper. -/
theorem reading_fuel (ctx : Context) : ∀ n,
    (∀ term value op cs0 m, 2 * cs0.length + 1 ≤ n → n ≤ m →
      fold ctx m term value op cs0 = fold ctx n term value op cs0) ∧
    (∀ size cs m, 2 * cs.length ≤ n → n ≤ m → atom ctx m size cs = atom ctx n size cs) := by
  intro n
  induction n with
  | zero =>
    refine ⟨fun _ _ _ _ _ hn _ => by omega, fun size cs m hn _ => ?_⟩
    -- only the empty text needs no fuel, and it has no atom
    obtain rfl : cs = [] := List.eq_nil_of_length_eq_zero (by omega)
    rw [atom_nil, atom_nil]
  | succ n ih =>
    obtain ⟨ihfold, ihatom⟩ := ih
    constructor
    · intro term value op cs0 m hn hm
      obtain ⟨m, rfl⟩ : ∃ m', m = m' + 1 := ⟨m - 1, by omega⟩
      rcases step_cases term cs0 with hend | ⟨c, cs, hskip, hstop⟩ | ⟨o, r, hop⟩ | ⟨size, start, hat⟩
      · rw [fold_end hend, fold_end hend]
      · rw [fold_closing hskip hstop, fold_closing hskip hstop]
      · have hlt := hop.suffix.2
        rw [fold_of_operatorStart hop, fold_of_operatorStart hop,
          ihfold _ _ _ _ _ (by omega) (by omega)]
      · have hle := hat.suffix.1.length_le
        rw [fold_of_atomStart hat, fold_of_atomStart hat, ihatom _ _ _ (by omega) (by omega)]
        cases ha : atom ctx n size start with
        | error e => rfl
        | ok p =>
          obtain ⟨v, r⟩ := p
          -- the atom took a character at least, so what follows it needs less fuel
          have hlt := (atom_suffix ha).2
          simp only [Except.bind]
          cases op.apply value v with
          | none => rfl
          | some value' => exact ihfold _ _ _ _ _ (by omega) (by omega)
    · intro size cs m hn hm
      obtain ⟨m, rfl⟩ : ∃ m', m = m' + 1 := ⟨m - 1, by omega⟩
      cases cs with
      | nil => rw [atom_nil, atom_nil]
      | cons c r =>
        simp only [List.length_cons] at hn
        by_cases hp : c = '('
        · subst hp
          rw [atom_paren, atom_paren, ihfold _ _ _ _ _ (by omega) (by omega)]
        by_cases hb : c = '['
        · subst hb
          rw [atom_bracket, atom_bracket, ihfold _ _ _ _ _ (by omega) (by omega)]
        · exact atom_leaf ⟨hp, hb⟩ n

theorem fold_fuel {ctx : Context} {n m : Nat} {term : Terminator} {value : Word} {op : Op}
    {cs0 : List Char} (hn : 2 * cs0.length + 1 ≤ n) (hm : n ≤ m) :
    fold ctx m term value op cs0 = fold ctx n term value op cs0 :=
  (reading_fuel ctx n).1 _ _ _ _ _ hn hm

/-- Evaluation is the reading of the whole text with any fuel past twice its length. -/
theorem fold_eq_eval (ctx : Context) (text : String) {n : Nat}
    (hn : 2 * text.toList.length + 1 ≤ n) :
    (fold ctx n .top 0 .add text.toList).map Prod.fst = eval ctx text := by
  have hgiven : fold ctx (fuelFor text.toList) .top 0 .add text.toList =
      fold ctx (2 * text.toList.length + 1) .top 0 .add text.toList :=
    fold_fuel (Nat.le_refl _) (by unfold fuelFor; omega)
  rw [eval, hgiven, fold_fuel (Nat.le_refl _) hn]

end Intercept.Expr
