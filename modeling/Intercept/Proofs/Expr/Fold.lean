import Intercept.Proofs.Expr.Tokens
/-!
# Reading a written expression gives its left-to-right fold

The evaluator reads a text one token at a time, keeping a running value and a pending
operator, while the meaning of an expression is a fold over its syntax tree.  This module shows
that the two agree on every text that writes a tree, whatever the spacing, the letter case and
the nesting of parentheses and brackets: evaluation succeeds with `v` exactly when the fold of
the tree is `v` (`eval_eq_ok_iff`).  The context is arbitrary: without a snapshot a register
has no value, and without a base neither has a module-relative numeral.

The proof follows the tree, by mutual recursion on the texts (`atom_text`, `fold_text`): a
sequence followed by what may close it is read as the fold of its items, leaving the text after
the closing character, and an atom followed by what may follow a token is read as its value,
leaving the rest.  The reader runs on fuel; `SeqText.size_le` shows that the fuel `eval` gives
it is always enough.
-/

namespace Intercept.Expr

/-- The operators mean what `Op.meaning` says: wrapping arithmetic, unsigned division, and
comparisons as `0` or `1`. -/
theorem Op.apply_eq_meaning (o : Op) (a b : Word) :
    o.apply a b = (o.meaning a.toNat b.toNat).map UInt64.ofNat := by
  have ha := a.toNat_lt
  have hb := b.toNat_lt
  have hb0 : b = 0 ↔ b.toNat = 0 := by
    rw [← UInt64.toNat_inj]
    rfl
  cases o with
  | add =>
    simp only [Op.apply, Op.meaning, Option.map_some, Option.some.injEq]
    apply UInt64.toNat_inj.mp
    simp [UInt64.toNat_add]
  | sub =>
    simp only [Op.apply, Op.meaning, Option.map_some, Option.some.injEq]
    apply UInt64.toNat_inj.mp
    rw [UInt64.toNat_sub, UInt64.toNat_ofNat', Nat.mod_mod]
    congr 1
    omega
  | mul =>
    simp only [Op.apply, Op.meaning, Option.map_some, Option.some.injEq]
    apply UInt64.toNat_inj.mp
    simp [UInt64.toNat_mul]
  | div =>
    simp only [Op.apply, Op.meaning, hb0]
    split
    · rfl
    · simp only [Option.map_some, Option.some.injEq]
      apply UInt64.toNat_inj.mp
      rw [UInt64.toNat_div, UInt64.toNat_ofNat', Nat.mod_eq_of_lt]
      exact Nat.lt_of_le_of_lt (Nat.div_le_self _ _) ha
  | rem =>
    simp only [Op.apply, Op.meaning, hb0]
    split
    · rfl
    · simp only [Option.map_some, Option.some.injEq]
      apply UInt64.toNat_inj.mp
      rw [UInt64.toNat_mod, UInt64.toNat_ofNat']
      exact (Nat.mod_eq_of_lt (Nat.lt_of_le_of_lt (Nat.mod_le _ _) ha)).symm
  | lt =>
    simp only [Op.apply, Op.meaning, Option.map_some, Op.ofBool]
    split <;> split <;> simp_all [UInt64.lt_iff_toNat_lt]
  | gt =>
    simp only [Op.apply, Op.meaning, Option.map_some, Op.ofBool]
    split <;> split <;> simp_all [UInt64.lt_iff_toNat_lt]
  | eq =>
    simp only [Op.apply, Op.meaning, Option.map_some, Op.ofBool]
    split <;> split <;> simp_all [← UInt64.toNat_inj]
  | ne =>
    simp only [Op.apply, Op.meaning, Option.map_some, Op.ofBool]
    split <;> split <;> simp_all [← UInt64.toNat_inj]
  | le =>
    simp only [Op.apply, Op.meaning, Option.map_some, Op.ofBool]
    split <;> split <;> simp_all [UInt64.le_iff_toNat_le]
  | ge =>
    simp only [Op.apply, Op.meaning, Option.map_some, Op.ofBool]
    split <;> split <;> simp_all [UInt64.le_iff_toNat_le]

/-! ### The first character of an item -/

/-- What closes a sequence read up to a terminator: the end of the text at the top, and the
closing character inside parentheses or brackets. -/
def Closes : Terminator → List Char → Prop
  | .top, rest => rest = []
  | .paren, rest => ∃ r, rest = ')' :: r
  | .bracket, rest => ∃ r, rest = ']' :: r

theorem Closes.delimited {term : Terminator} {rest : List Char} (h : Closes term rest) :
    Delimited rest := by
  intro d r hr
  cases term with
  | top => exact absurd (h.symm.trans hr) (List.cons_ne_nil d r).symm
  | paren =>
    obtain ⟨r', rfl⟩ := h
    simp only [List.cons.injEq] at hr
    simp [← hr.1]
  | bracket =>
    obtain ⟨r', rfl⟩ := h
    simp only [List.cons.injEq] at hr
    simp [← hr.1]

theorem Closes.skipBlanks {term : Terminator} {rest : List Char} (h : Closes term rest) :
    skipBlanks rest = rest := by
  cases term with
  | top => rw [show rest = [] from h]; rfl
  | paren =>
    obtain ⟨r, rfl⟩ := h
    exact skipBlanks_cons r (by decide)
  | bracket =>
    obtain ⟨r, rfl⟩ := h
    exact skipBlanks_cons r (by decide)

theorem Terminator.char?_ne {c : Char} (term : Terminator) (hc : c ≠ ')' ∧ c ≠ ']') :
    term.char? ≠ some c := by
  cases term <;> simp [Terminator.char?, Ne.symm hc.1, Ne.symm hc.2]

/-- Blanks before text that may follow a token leave it so. -/
theorem Delimited.blanks_append {bs u : List Char} (hbs : Blanks bs) (hu : Delimited u) :
    Delimited (bs ++ u) := by
  intro d r h
  cases bs with
  | nil => exact hu d r h
  | cons b bs =>
    simp only [List.cons_append, List.cons.injEq] at h
    rw [← h.1]
    rcases hbs b List.mem_cons_self with hb | hb <;> simp [hb]

theorem Delimited.of_blanks_ne_nil {bs : List Char} (hbs : Blanks bs) (hne : bs ≠ [])
    (v : List Char) : Delimited (bs ++ v) := by
  intro d r h
  obtain ⟨b, bs, rfl⟩ := List.exists_cons_of_ne_nil hne
  simp only [List.cons_append, List.cons.injEq] at h
  rw [← h.1]
  rcases hbs b List.mem_cons_self with hb | hb <;> simp [hb]

/-- What follows an item in a written sequence may follow a token. -/
theorem SeqText.delimited {items : List Item} {cs rest : List Char} (h : SeqText true items cs)
    (hrest : Delimited rest) : Delimited (cs ++ rest) := by
  cases h with
  | nil hbs => exact hrest.blanks_append hbs
  | cons hbs hne _ _ =>
    rw [List.append_assoc, List.append_assoc]
    exact Delimited.of_blanks_ne_nil hbs (hne rfl) _

theorem itemLead_ne {c : Char} (hc : c.toLower ∈ itemLead) :
    (c ≠ ' ' ∧ c ≠ '\t') ∧ (c ≠ ')' ∧ c ≠ ']') :=
  ⟨⟨ne_of_toLower_mem hc (by decide), ne_of_toLower_mem hc (by decide)⟩,
    ⟨ne_of_toLower_mem hc (by decide), ne_of_toLower_mem hc (by decide)⟩⟩

theorem Op.token_head (o : Op) :
    ∃ c t, o.token = c :: t ∧ (c ≠ ' ' ∧ c ≠ '\t') ∧ (c ≠ ')' ∧ c ≠ ']') := by
  cases o <;> exact ⟨_, _, rfl, by decide, by decide⟩

theorem Atom.size_pos (a : Atom) : 1 ≤ a.size := by
  cases a <;> simp [Atom.size]

/-! ### One step of the reader -/

section Step

variable {ctx : Context} {f : Nat} {term : Terminator} {value : Word} {op : Op}

/-- At what closes the sequence the reader stops with the value it has. -/
theorem fold_close {bs rest : List Char} (hbs : Blanks bs) (h : Closes term rest) :
    fold ctx (f + 1) term value op (bs ++ rest) = .ok (value, rest.drop 1) := by
  rw [fold, skipBlanks_append hbs, h.skipBlanks]
  cases term with
  | top => rw [show rest = [] from h]; rfl
  | paren =>
    obtain ⟨r, rfl⟩ := h
    rfl
  | bracket =>
    obtain ⟨r, rfl⟩ := h
    rfl

theorem fold_operator {o : Op} {c : Char} {cs0 cs u : List Char} (hskip : skipBlanks cs0 = c :: cs)
    (hstop : term.char? ≠ some c) (hop : operator? (c :: cs) = some (o, u)) :
    fold ctx (f + 1) term value op cs0 = fold ctx f term value o u := by
  rw [fold]
  simp [hskip, hstop, hop]

/-- An atom is folded into the value with the pending operator, which stays pending. -/
theorem fold_atom {c : Char} {cs0 cs after start u : List Char} {size : Nat} {x? : Option Word}
    (hskip : skipBlanks cs0 = c :: cs) (hstop : term.char? ≠ some c)
    (hop : operator? (c :: cs) = none) (hsize : sizeQualifier (c :: cs) = (size, after))
    (hstart : skipBlanks after = start) (hatom : (atom ctx f size start).toOption = x?.map (·, u)) :
    (fold ctx (f + 1) term value op cs0).toOption =
      x?.bind fun x => (op.apply value x).bind fun value' => (fold ctx f term value' op u).toOption := by
  rw [fold]
  simp only [hskip, hop, hsize, hstart, beq_eq_false_iff_ne.mpr hstop, Bool.false_eq_true,
    if_false]
  cases h : atom ctx f size start with
  | error e =>
    rw [h] at hatom
    obtain rfl : x? = none := Option.map_eq_none_iff.mp hatom.symm
    rfl
  | ok p =>
    rw [h] at hatom
    obtain ⟨v, r⟩ := p
    obtain ⟨x, rfl, hx⟩ := Option.map_eq_some_iff.mp hatom.symm
    simp only [Prod.mk.injEq] at hx
    obtain ⟨rfl, rfl⟩ := hx
    cases hap : op.apply value x <;> simp [hap, Except.toOption]

theorem atom_paren (size : Nat) (cs : List Char) :
    atom ctx (f + 1) size ('(' :: cs) = fold ctx f .paren 0 .add cs := by
  rw [atom]

theorem atom_bracket (size : Nat) (cs : List Char) :
    atom ctx (f + 1) size ('[' :: cs) = (fold ctx f .bracket 0 .add cs).map
      fun (addr, after) => (if addr = 0 then 0 else ctx.deref addr size, after) := by
  rw [atom]
  cases fold ctx f .bracket 0 .add cs <;> rfl

/-- A register name is read as that register of the snapshot. -/
theorem atom_register {size : Nat} {c : Char} {cs u : List Char} {s : Snapshot} {r : Register}
    (hc : c ≠ '(' ∧ c ≠ '[') (hregs : ctx.regs = some s)
    (hr : Register.parsePrefix? (c :: cs) = some (r, u)) :
    atom ctx (f + 1) size (c :: cs) = .ok ((s.get (.reg r)).truncate size, u) := by
  -- the equation for text that is neither `(` nor `[` asks for both to be ruled out
  rw [atom]
  · simp [hregs, hr]
  all_goals simp [hc.1, hc.2]

/-- Any other text is read by the address resolver, and is no atom if the resolver takes
nothing of it or fails for another reason than text left after the address. -/
theorem atom_resolve {size : Nat} {c : Char} {cs : List Char} (hc : c ≠ '(' ∧ c ≠ '[')
    (hreg : ctx.regs = none ∨ Register.parsePrefix? (c :: cs) = none) :
    (atom ctx (f + 1) size (c :: cs)).toOption =
      if (resolve ctx.symbols ctx.base (c :: cs)).taken = 0 ∨
          (resolve ctx.symbols ctx.base (c :: cs)).error ∉ [none, some .garbage] then none
      else some ((resolve ctx.symbols ctx.base (c :: cs)).value,
        (c :: cs).drop (resolve ctx.symbols ctx.base (c :: cs)).taken) := by
  rw [atom]
  · split
    · next found hfound =>
      -- there is no register file, or no register name, to read
      rcases hreg with h | h <;> simp [h] at hfound
    · dsimp only
      split <;> split <;> simp_all [Except.toOption]
  all_goals simp [hc.1, hc.2]

/-- A numeral that the resolver reads whole is an atom, and the reader goes on after it. -/
theorem atom_numeral {size : Nat} {offset : Word} {radix n : Nat} {c : Char} (cs pre : List Char)
    {ds u : List Char} (hc : c ≠ '(' ∧ c ≠ '[') (hreg : c.toLower ≠ 'e')
    (hr : radix = 10 ∨ radix = 16) (h : Numeral radix ds n) (hn : n < 2 ^ 64) (hu : Delimited u)
    (htext : c :: cs = pre ++ ds ++ u)
    (hres : resolve ctx.symbols ctx.base (c :: cs) =
      resolveNumeral offset radix pre.length (pre ++ ds ++ u)) :
    (atom ctx (f + 1) size (c :: cs)).toOption = some (n.toUInt64 + offset, u) := by
  obtain ⟨hv, ht, he⟩ := resolveNumeral_numeral offset hr h hn hu
  have hds := List.length_pos_iff.mpr h.ne_nil
  rw [atom_resolve hc (.inr (parsePrefix?_eq_none cs hreg)), hres, hv, ht, if_neg, htext]
  · simp
  · rintro (h0 | herr)
    · omega
    · exact herr he

/-- An atom item is folded in as `Item.foldFrom` folds it, when its atom is read as its value
and what follows as the fold of the items after it. -/
theorem fold_item {q : Option Qualifier} {a : Atom} {is : List Item} {c : Char}
    {cs0 cs after start u r : List Char} (hskip : skipBlanks cs0 = c :: cs)
    (hstop : term.char? ≠ some c) (hop : operator? (c :: cs) = none)
    (hsize : sizeQualifier (c :: cs) = (width q, after)) (hstart : skipBlanks after = start)
    (hatom : (atom ctx f (width q) start).toOption = (a.value ctx (width q)).map (·, u))
    (hrest : ∀ w, (fold ctx f term w op u).toOption = (Item.foldFrom ctx op w is).map (·, r)) :
    (fold ctx (f + 1) term value op cs0).toOption =
      (Item.foldFrom ctx op value (.atom q a :: is)).map (·, r) := by
  rw [fold_atom hskip hstop hop hsize hstart hatom, Item.foldFrom]
  simp only [Op.apply_eq_meaning, Option.bind_map, hrest, Option.map_bind, Function.comp_def]

end Step

/-! ### Atoms that are single tokens -/

section Leaves

variable {ctx : Context} {f size : Nat} {u : List Char}

theorem atom_dec {n : Word} {ds : List Char} (h : Numeral 10 ds n.toNat) (hu : Delimited u) :
    (atom ctx (f + 1) size (ds ++ u)).toOption = some (n, u) := by
  obtain ⟨c, rest, rfl⟩ := List.exists_cons_of_ne_nil h.ne_nil
  have key : ∀ c ∈ decimalChars, (c ≠ '(' ∧ c ≠ '[') ∧ c.toLower ≠ 'e' :=
    forall_mem_of_all (by decide)
  obtain ⟨hc, hreg⟩ := key c (h.mem_decimalChars c List.mem_cons_self)
  have hres := resolve_decimal ctx.symbols ctx.base h hu
  rw [List.cons_append] at hres ⊢
  rw [atom_numeral (rest ++ u) [] hc hreg (.inl rfl) h n.toNat_lt hu (by simp) hres]
  simp

theorem atom_hex {n : Word} {x : Char} {ds : List Char} (hx : x.toLower = 'x')
    (h : Numeral 16 ds n.toNat) (hu : Delimited u) :
    (atom ctx (f + 1) size ('0' :: x :: ds ++ u)).toOption = some (n, u) := by
  rw [List.cons_append, List.cons_append,
    atom_numeral (x :: (ds ++ u)) ['0', x] (by decide) (by decide) (.inr rfl) h
      n.toNat_lt hu (by simp) (resolve_hex ctx.symbols ctx.base hx)]
  simp

theorem atom_rel {n : Word} {r x : Char} {ds : List Char} (hr : r.toLower = 'r')
    (hx : x.toLower = 'x') (h : Numeral 16 ds n.toNat) (hu : Delimited u) :
    (atom ctx (f + 1) size (r :: x :: ds ++ u)).toOption = (ctx.base.map (n + ·)).map (·, u) := by
  have hc : r ≠ '(' ∧ r ≠ '[' := by
    rcases eq_or_eq_of_toLower_eq hr (K := 'R') rfl with rfl | rfl <;> decide
  have hreg : r.toLower ≠ 'e' := by rw [hr]; decide
  have hres := @resolve_rel ctx.symbols ctx.base r x (ds ++ u) hr hx
  rw [List.cons_append, List.cons_append]
  cases hb : ctx.base with
  | none =>
    rw [atom_resolve hc (.inr (parsePrefix?_eq_none _ hreg)), hres, hb]
    simp [Resolution.failure]
  | some b =>
    have hres' : resolve ctx.symbols ctx.base (r :: x :: (ds ++ u)) =
        resolveNumeral b 16 [r, x].length ([r, x] ++ ds ++ u) := by
      rw [hres, hb]
      rfl
    rw [atom_numeral _ [r, x] hc hreg (.inr rfl) h n.toNat_lt hu (by simp) hres']
    simp

theorem atom_reg {r : Register} {cs : List Char} (h : cs.map Char.toLower = r.name.toList) :
    (atom ctx (f + 1) size (cs ++ u)).toOption =
      (ctx.regs.map fun s => (s.get (.reg r)).truncate size).map (·, u) := by
  have hname : r.name.toList.head? = some 'e' := by cases r <;> rfl
  obtain ⟨c, rest, rfl⟩ : ∃ c rest, cs = c :: rest := by
    cases cs with
    | nil => simp [← h] at hname
    | cons c rest => exact ⟨c, rest, rfl⟩
  have hce : c.toLower = 'e' := by simpa [← h] using hname
  have hc : c ≠ '(' ∧ c ≠ '[' := by
    rcases eq_or_eq_of_toLower_eq hce (K := 'E') rfl with rfl | rfl <;> decide
  have htaken := resolve_name_taken ctx.symbols ctx.base h u
  rw [List.cons_append] at htaken ⊢
  cases hregs : ctx.regs with
  | none =>
    rw [atom_resolve hc (.inl hregs), htaken]
    simp
  | some s =>
    have hr := parsePrefix?_name h u
    rw [List.cons_append] at hr
    rw [atom_register hc hregs hr]
    rfl

end Leaves

theorem toOption_map {ε α β : Type} (g : α → β) (e : Except ε α) :
    (e.map g).toOption = e.toOption.map g := by
  cases e <;> rfl

theorem Item.seqSize_pos (items : List Item) : 1 ≤ Item.seqSize items := by
  cases items <;> simp [Item.seqSize]

/-! ### Whole texts -/

mutual

/-- An atom followed by what may follow a token is read as its value. -/
theorem atom_text : ∀ {a : Atom} {t : List Char}, AtomText a t →
    ∀ (ctx : Context) (f size : Nat) {u : List Char}, Delimited u → a.size ≤ f + 1 →
      (atom ctx (f + 1) size (t ++ u)).toOption = (a.value ctx size).map (·, u)
  | _, _, .dec h, _, _, _, _, hu, _ => by rw [atom_dec h hu]; rfl
  | _, _, .hex hx h, _, _, _, _, hu, _ => by rw [atom_hex hx h hu]; rfl
  | _, _, .rel hr hx h, _, _, _, _, hu, _ => atom_rel hr hx h hu
  | _, _, .reg h, _, _, _, _, _, _ => atom_reg h
  | _, _, @AtomText.paren _ cs h, ctx, f, size, u, _, hf => by
    have hclose : Closes .paren (')' :: u) := ⟨u, rfl⟩
    rw [show '(' :: cs ++ [')'] ++ u = '(' :: (cs ++ ')' :: u) by simp, atom_paren]
    exact fold_text h ctx f .paren 0 .add hclose (by simp only [Atom.size] at hf; omega)
  | _, _, @AtomText.bracket _ cs h, ctx, f, size, u, _, hf => by
    have hclose : Closes .bracket (']' :: u) := ⟨u, rfl⟩
    rw [show '[' :: cs ++ [']'] ++ u = '[' :: (cs ++ ']' :: u) by simp, atom_bracket]
    have hfold := fold_text h ctx f .bracket 0 .add hclose (by simp only [Atom.size] at hf; omega)
    rw [toOption_map, hfold]
    simp [Atom.value, Function.comp_def]

/-- A written sequence followed by what closes it is read as the fold of its items, and the
reader goes on after the closing character. -/
theorem fold_text : ∀ {apart : Bool} {items : List Item} {cs : List Char}, SeqText apart items cs →
    ∀ (ctx : Context) (fuel : Nat) (term : Terminator) (value : Word) (op : Op) {rest : List Char},
      Closes term rest → Item.seqSize items ≤ fuel →
        (fold ctx fuel term value op (cs ++ rest)).toOption =
          (Item.foldFrom ctx op value items).map (·, rest.drop 1)
  | _, _, _, .nil hbs, ctx, fuel, term, value, op, rest, hc, hf => by
    obtain ⟨f, rfl⟩ : ∃ f, fuel = f + 1 := ⟨fuel - 1, by simp only [Item.seqSize] at hf; omega⟩
    rw [fold_close hbs hc]
    rfl
  | _, _, _, @SeqText.cons _ _ tail bs _ rest' hbs _ hi hrest, ctx, fuel, term, value, op, rest,
      hc, hf => by
    have hu : Delimited (rest' ++ rest) := hrest.delimited hc.delimited
    have hsize := Item.seqSize_pos tail
    rw [List.append_assoc, List.append_assoc]
    cases hi with
    | @op o =>
      obtain ⟨f, rfl⟩ : ∃ f, fuel = f + 1 := ⟨fuel - 1, by simp only [Item.seqSize] at hf; omega⟩
      obtain ⟨c, tt, htok, hblank, hclose⟩ := o.token_head
      have hskip : skipBlanks (bs ++ (o.token ++ (rest' ++ rest))) = c :: (tt ++ (rest' ++ rest)) := by
        rw [skipBlanks_append hbs, htok, List.cons_append, skipBlanks_cons _ hblank]
      have hop : operator? (c :: (tt ++ (rest' ++ rest))) = some (o, rest' ++ rest) := by
        rw [← List.cons_append, ← htok]
        exact operator?_token o hu
      rw [fold_operator hskip (term.char?_ne hclose) hop, Item.foldFrom]
      exact fold_text hrest ctx f term value o hc (by simp only [Item.seqSize, Item.size] at hf; omega)
    | @bare a t ha =>
      have hpos := a.size_pos
      obtain ⟨f, rfl⟩ : ∃ f, fuel = f + 1 + 1 :=
        ⟨fuel - 2, by simp only [Item.seqSize, Item.size] at hf; omega⟩
      obtain ⟨c, tt, rfl, hlead⟩ := ha.head
      have hitem : c.toLower ∈ itemLead := List.mem_append_left _ hlead
      obtain ⟨hblank, hclose⟩ := itemLead_ne hitem
      have hskip : skipBlanks (bs ++ (c :: tt ++ (rest' ++ rest))) = c :: (tt ++ (rest' ++ rest)) := by
        rw [skipBlanks_append hbs, List.cons_append, skipBlanks_cons _ hblank]
      refine fold_item (u := rest' ++ rest) hskip (term.char?_ne hclose) (operator?_eq_none _ hitem)
        (sizeQualifier_bare _ hlead) (skipBlanks_cons _ hblank) ?_ ?_
      · rw [← List.cons_append]
        exact atom_text ha ctx f 8 hu (by simp only [Item.seqSize, Item.size] at hf; omega)
      · intro w
        exact fold_text hrest ctx (f + 1) term w op hc
          (by simp only [Item.seqSize, Item.size] at hf; omega)
    | @sized q a qs bs' cs' hq hbs' ha =>
      have hpos := a.size_pos
      obtain ⟨f, rfl⟩ : ∃ f, fuel = f + 1 + 1 :=
        ⟨fuel - 2, by simp only [Item.seqSize, Item.size] at hf; omega⟩
      obtain ⟨c, tt, ht, hitem⟩ := (ItemText.sized hq hbs' ha).head_atom
      obtain ⟨hblank, hclose⟩ := itemLead_ne hitem
      obtain ⟨c', tt', rfl, hlead'⟩ := ha.head
      obtain ⟨hblank', -⟩ := itemLead_ne (List.mem_append_left _ hlead')
      have hskip : skipBlanks (bs ++ (qs ++ bs' ++ c' :: tt' ++ (rest' ++ rest))) =
          c :: (tt ++ (rest' ++ rest)) := by
        rw [skipBlanks_append hbs, ht, List.cons_append, skipBlanks_cons _ hblank]
      have hsize : sizeQualifier (c :: (tt ++ (rest' ++ rest))) =
          (width (some q), bs' ++ (c' :: tt' ++ (rest' ++ rest))) := by
        rw [← List.cons_append, ← ht, List.append_assoc, List.append_assoc]
        exact sizeQualifier_text hq _
      have hstart : skipBlanks (bs' ++ (c' :: tt' ++ (rest' ++ rest))) = c' :: tt' ++ (rest' ++ rest) := by
        rw [skipBlanks_append hbs', List.cons_append, skipBlanks_cons _ hblank']
      refine fold_item (u := rest' ++ rest) hskip (term.char?_ne hclose) (operator?_eq_none _ hitem) hsize hstart ?_ ?_
      · exact atom_text ha ctx f _ hu (by simp only [Item.seqSize, Item.size] at hf; omega)
      · intro w
        exact fold_text hrest ctx (f + 1) term w op hc
          (by simp only [Item.seqSize, Item.size] at hf; omega)

end

/-- Evaluating a written expression succeeds with `v` exactly when its left-to-right fold is
`v`, whatever the context: where the fold has no value (a quotient or remainder by zero, a
register without a snapshot, a module-relative numeral without a base) evaluation fails. -/
theorem eval_eq_ok_iff {items : List Item} {text : String} (h : Writes items text)
    (ctx : Context) (v : Word) : eval ctx text = .ok v ↔ Item.value ctx items = some v := by
  have hfuel : Item.seqSize items ≤ fuelFor text.toList := by
    have := SeqText.size_le h
    unfold fuelFor
    omega
  have hfold := fold_text h ctx _ .top 0 .add (show Closes .top [] from rfl) hfuel
  rw [List.append_nil] at hfold
  unfold eval Item.value
  cases hr : fold ctx (fuelFor text.toList) .top 0 .add text.toList with
  | error e =>
    rw [hr] at hfold
    have hnone : Item.foldFrom ctx .add 0 items = none := Option.map_eq_none_iff.mp hfold.symm
    simp [hr, hnone, Except.map]
  | ok p =>
    rw [hr] at hfold
    obtain ⟨w, hw, rfl⟩ := Option.map_eq_some_iff.mp hfold.symm
    simp [hr, hw, Except.map]

/-- `2 * (EAX + 1)` is evaluated as its fold with `eax = 6`. -/
theorem eval_double_successor :
    Writes [.atom none (.dec 2), .op .mul,
      .atom none (.paren [.atom none (.reg .eax), .op .add, .atom none (.dec 1)])] "2 * (EAX + 1)" ∧
    (eval ⟨some { eax := 6 }, fun _ => 0, ⟨fun _ => none, fun _ => none⟩, none⟩ "2 * (EAX + 1)" =
        .ok 14 ↔
      Item.value ⟨some { eax := 6 }, fun _ => 0, ⟨fun _ => none, fun _ => none⟩, none⟩
        [.atom none (.dec 2), .op .mul,
          .atom none (.paren [.atom none (.reg .eax), .op .add, .atom none (.dec 1)])] = some 14) := by
  have none_ : Blanks [] := fun _ h => absurd h List.not_mem_nil
  have space : Blanks [' '] := by simp [Blanks]
  have two : Numeral 10 ['2'] (2 : Word).toNat := ⟨[2], .cons (.inl rfl) .nil, by simp, by decide, rfl⟩
  have one : Numeral 10 ['1'] (1 : Word).toNat := ⟨[1], .cons (.inl rfl) .nil, by simp, by decide, rfl⟩
  have inner : SeqText false [.atom none (.reg .eax), .op .add, .atom none (.dec 1)]
      ['E', 'A', 'X', ' ', '+', ' ', '1'] :=
    @SeqText.cons false _ _ [] ['E', 'A', 'X'] _ none_ (fun h => absurd h (by decide))
      (.bare (.reg (by decide)))
      (@SeqText.cons true _ _ [' '] ['+'] _ space (fun _ => by simp) .op
        (@SeqText.cons true _ _ [' '] ['1'] _ space (fun _ => by simp) (.bare (.dec one)) (.nil none_)))
  have hw : Writes [.atom none (.dec 2), .op .mul,
      .atom none (.paren [.atom none (.reg .eax), .op .add, .atom none (.dec 1)])] "2 * (EAX + 1)" := by
    show SeqText false _ ['2', ' ', '*', ' ', '(', 'E', 'A', 'X', ' ', '+', ' ', '1', ')']
    exact @SeqText.cons false _ _ [] ['2'] _ none_ (fun h => absurd h (by decide)) (.bare (.dec two))
      (@SeqText.cons true _ _ [' '] ['*'] _ space (fun _ => by simp) .op
        (@SeqText.cons true _ _ [' '] ('(' :: ['E', 'A', 'X', ' ', '+', ' ', '1'] ++ [')']) []
          space (fun _ => by simp) (.bare (.paren inner)) (.nil none_)))
  exact ⟨hw, eval_eq_ok_iff hw _ 14⟩

end Intercept.Expr
