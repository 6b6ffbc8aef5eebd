import Intercept.Proofs.Expr.Tokens
import Intercept.Registry
/-!
# Reading addresses

`resolve` reads the longest address at the start of a text, by a grammar of four forms: a
symbol `<name>`, a hexadecimal numeral after `0x`, a numeral relative to the module base after
`Rx`, and a decimal numeral.  This module says what it reads in the grammar's own terms: the
digits are the characters of the digit tables (`WritesDigit`), a numeral is worth what its
digits write (`Numeral`), and the digits read are the longest run of them (`LongestRun`).

* `resolveNumeral_longestRun` — after its prefix, a numeral takes the longest run of digits;
  a run of none is no numeral, a value of `2 ^ 64` or more is an overflow that still reports
  the length, and text after the digits is garbage that keeps the value.
* `resolve_symbol_unclosed`, `resolve_symbol_closed` — a symbol ends at the first `>`, and its
  name is looked up in the one table its prefix selects.
* `resolve_reads_longest_address` — all of it for the resolver of a registry, with the module
  base taken from the caller, else from the resolver, else from the registry.
-/

namespace Intercept

open Intercept.Expr (WritesDigit Numeral lowerDigits upperDigits)

/-! ### Digits -/

/-- A character is a digit of the radix: it writes a digit below the radix, in either case. -/
def IsDigit (radix : Nat) (c : Char) : Prop := ∃ d < radix, WritesDigit c d

/-- `ds` is the longest run of digits of the radix at the start of `ds ++ u`. -/
def LongestRun (radix : Nat) (ds u : List Char) : Prop :=
  (∀ c ∈ ds, IsDigit radix c) ∧ ∀ c, u.head? = some c → ¬ IsDigit radix c

theorem char_le_iff (x y : Char) : x ≤ y ↔ x.toNat ≤ y.toNat := by
  rw [Char.le_def, UInt32.le_iff_toNat_le]
  rfl

theorem eq_ofNat_of_toNat {c : Char} {n : Nat} (h : c.toNat = n) : c = Char.ofNat n := by
  rw [← h, Char.ofNat_toNat]

/-- Every value the digit reader gives, in a radix up to 16, is a written digit below the
radix. -/
theorem writesDigit_of_digitValue? {radix d : Nat} {c : Char} (hr : radix ≤ 16)
    (h : Text.digitValue? radix c = some d) : d < radix ∧ WritesDigit c d := by
  have dec : ∀ d : Fin 10, lowerDigits[(d : Nat)]? = some (Char.ofNat (48 + d)) := by decide
  have low : ∀ d : Fin 6, lowerDigits[(d : Nat) + 10]? = some (Char.ofNat (97 + d)) := by decide
  have up : ∀ d : Fin 6, upperDigits[(d : Nat) + 10]? = some (Char.ofNat (65 + d)) := by decide
  have h0 : '0'.toNat = 48 := rfl
  have h9 : '9'.toNat = 57 := rfl
  have ha : 'a'.toNat = 97 := rfl
  have hA : 'A'.toNat = 65 := rfl
  simp only [Text.digitValue?, char_le_iff, h0, h9, ha, hA] at h
  split at h
  · next v hv =>
    split at h
    · next hlt =>
      cases h
      refine ⟨hlt, ?_⟩
      -- the reader's three ranges of code points are the three runs of the digit tables
      split at hv
      · cases hv
        obtain ⟨e, he⟩ : ∃ e, c.toNat = 48 + e := ⟨c.toNat - 48, by omega⟩
        rw [show c.toNat - 48 = e by omega, eq_ofNat_of_toNat he]
        exact .inl (dec ⟨e, by omega⟩)
      · split at hv
        · cases hv
          obtain ⟨e, he⟩ : ∃ e, c.toNat = 97 + e := ⟨c.toNat - 97, by omega⟩
          rw [show c.toNat - 97 + 10 = e + 10 by omega, eq_ofNat_of_toNat he]
          exact .inl (low ⟨e, by omega⟩)
        · split at hv
          · cases hv
            obtain ⟨e, he⟩ : ∃ e, c.toNat = 65 + e := ⟨c.toNat - 65, by omega⟩
            rw [show c.toNat - 65 + 10 = e + 10 by omega, eq_ofNat_of_toNat he]
            exact .inr (up ⟨e, by omega⟩)
          · cases hv
    · cases h
  · cases h

/-- The resolver's digit class is the grammar's. -/
theorem isDigitIn_iff {radix : Nat} (hr : radix = 10 ∨ radix = 16) (c : Char) :
    Text.isDigitIn radix c = true ↔ IsDigit radix c := by
  constructor
  · intro h
    obtain ⟨d, hd⟩ := Option.isSome_iff_exists.mp h
    have hle : radix ≤ 16 := by omega
    exact ⟨d, writesDigit_of_digitValue? hle hd⟩
  · rintro ⟨d, hlt, hw⟩
    simp [Text.isDigitIn, hw.digitValue? hlt hr]

theorem LongestRun.takeWhile {radix : Nat} {ds u : List Char} (hrun : LongestRun radix ds u)
    (hr : radix = 10 ∨ radix = 16) : (ds ++ u).takeWhile (Text.isDigitIn radix) = ds := by
  rw [List.takeWhile_append_of_pos fun c hc => (isDigitIn_iff hr c).mpr (hrun.1 c hc)]
  cases u with
  | nil => simp
  | cons c rest =>
    have hc : Text.isDigitIn radix c = false := by
      cases h : Text.isDigitIn radix c with
      | false => rfl
      | true => exact absurd ((isDigitIn_iff hr c).mp h) (hrun.2 c rfl)
    simp [hc]

/-- A run of digits writes a numeral: each digit has its value. -/
theorem exists_digitValues {radix : Nat} {ds : List Char} (h : ∀ c ∈ ds, IsDigit radix c) :
    ∃ dv : List Nat, List.Forall₂ WritesDigit ds dv ∧ ∀ d ∈ dv, d < radix := by
  induction ds with
  | nil => exact ⟨[], .nil, by simp⟩
  | cons c rest ih =>
    obtain ⟨d, hd, hw⟩ := h c List.mem_cons_self
    obtain ⟨dv, hdv, hlt⟩ := ih fun c' hc' => h c' (List.mem_cons_of_mem _ hc')
    refine ⟨d :: dv, .cons hw hdv, ?_⟩
    intro d' hd'
    rcases List.mem_cons.mp hd' with rfl | hd'
    · exact hd
    · exact hlt d' hd'

theorem LongestRun.numeral {radix : Nat} {ds u : List Char} (hrun : LongestRun radix ds u)
    (hne : ds ≠ []) : ∃ n, Numeral radix ds n := by
  obtain ⟨dv, hdv, hlt⟩ := exists_digitValues hrun.1
  have hdv_ne : dv ≠ [] := by
    rintro rfl
    cases hdv
    exact hne rfl
  exact ⟨_, dv, hdv, hdv_ne, hlt, rfl⟩

/-! ### Numerals -/

/-- What the grammar makes of a numeral: `skip` characters of prefix, then the longest run
`ds` of digits, then the text `u`.  No digit is no numeral and takes nothing; otherwise the
numeral takes its prefix and digits, and is worth the value they write, plus `offset`, unless
that value needs more than 64 bits.  Text after a value is garbage. -/
def NumeralReading (offset : Word) (radix skip : Nat) (ds u : List Char) (r : Resolution) :
    Prop :=
  (ds = [] ∧ r = .failure .garbage) ∨
    ∃ n, Numeral radix ds n ∧
      r = if n < 2 ^ 64 then
          ⟨n.toUInt64 + offset, skip + ds.length, if u = [] then none else some .garbage⟩
        else ⟨0, skip + ds.length, some .overflow⟩

/-- After its prefix, a numeral takes the longest run of digits of its radix. -/
theorem resolveNumeral_longestRun (offset : Word) {radix skip : Nat} {t ds u : List Char}
    (hr : radix = 10 ∨ radix = 16) (ht : t.drop skip = ds ++ u) (hrun : LongestRun radix ds u) :
    NumeralReading offset radix skip ds u (resolveNumeral offset radix skip t) := by
  have htake : (t.drop skip).takeWhile (Text.isDigitIn radix) = ds := by
    rw [ht]
    exact hrun.takeWhile hr
  unfold resolveNumeral
  simp only [htake]
  by_cases hds : ds = []
  · exact .inl ⟨hds, by simp [hds]⟩
  · obtain ⟨n, hn⟩ := hrun.numeral hds
    have hlen : t.length = skip + ds.length + u.length := by
      have hd := congrArg List.length ht
      have hpos : 0 < ds.length := List.length_pos_iff.mpr hds
      simp only [List.length_drop, List.length_append] at hd
      omega
    -- text is left over exactly when something follows the digits
    have hgarbage : (skip + ds.length < t.length) = (u ≠ []) := by
      rw [hlen]
      exact propext ⟨fun h hu => by simp [hu] at h, fun hu => by
        have := List.length_pos_iff.mpr hu
        omega⟩
    refine .inr ⟨n, hn, ?_⟩
    simp only [List.isEmpty_iff, hds, if_false, hn.digitsValue? hr, hgarbage]
    by_cases hu : u = [] <;> simp [hu]

/-! ### Symbols -/

/-- What a symbol closed by `>` gives: the value its name stands for, if the table has it,
and the characters up to the `>`.  Text after the `>` is garbage that keeps the value. -/
def SymbolReading (value? : Option Word) (taken : Nat) (tail : List Char) : Resolution :=
  match value? with
  | some v => ⟨v, taken, if tail = [] then none else some .garbage⟩
  | none => ⟨0, taken, some .symbolNotFound⟩

theorem idxOf?_close {name : List Char} (h : '>' ∉ name) (tail : List Char) :
    (name ++ '>' :: tail).idxOf? '>' = some name.length := by
  induction name with
  | nil => rw [List.nil_append, List.idxOf?_cons, if_pos (beq_self_eq_true '>')]; rfl
  | cons c name ih =>
    have hc : c ≠ '>' := fun hc => h (hc ▸ List.mem_cons_self)
    rw [List.cons_append, List.idxOf?_cons, ih (fun hs => h (List.mem_cons_of_mem _ hs))]
    simp [hc]

theorem resolve_symbol_unclosed (syms : Symbols) (base : Option Word) {rest : List Char}
    (h : '>' ∉ rest) : resolve syms base ('<' :: rest) = .failure .symbolNotFound := by
  rw [resolve.eq_1, List.idxOf?_eq_none_iff.mpr h]

/-- A symbol ends at the first `>`: its name is looked up, and it takes everything up to the
`>`. -/
theorem resolve_symbol_closed (syms : Symbols) (base : Option Word) {name : List Char}
    (h : '>' ∉ name) (tail : List Char) :
    resolve syms base ('<' :: (name ++ '>' :: tail)) =
      SymbolReading (syms.lookup name) (name.length + 2) tail := by
  rw [resolve.eq_1, idxOf?_close h]
  simp only [List.take_left', List.length_cons, List.length_append]
  cases syms.lookup name with
  | none => rfl
  | some v => by_cases ht : tail = [] <;> simp [SymbolReading, ht]

theorem Symbols.lookup_option (syms : Symbols) (o : List Char) :
    syms.lookup ("option:".toList ++ o) = syms.option? (String.ofList o) := rfl

/-- Any other name is looked up among the functions, and only there. -/
theorem Symbols.lookup_function (syms : Symbols) {name : List Char}
    (h : ¬ "option:".toList <+: name) :
    syms.lookup name = syms.function? (String.ofList name) := by
  unfold Symbols.lookup
  split
  · next o => exact absurd ⟨o, rfl⟩ h
  · rfl

/-! ### Prefixes -/

/-- A text with none of the grammar's prefixes: it starts with no `<`, and with neither `0x`
nor `Rx`, in any case. -/
def Unprefixed (t : List Char) : Prop :=
  t.head? ≠ some '<' ∧
    ∀ c x rest, t = c :: x :: rest → (x = 'x' ∨ x = 'X') → c ≠ '0' ∧ c ≠ 'R' ∧ c ≠ 'r'

/-- A text without a prefix is read as decimal. -/
theorem resolve_unprefixed (syms : Symbols) (base : Option Word) {t : List Char}
    (h : Unprefixed t) : resolve syms base t = resolveNumeral 0 10 0 t := by
  obtain ⟨hlt, hpre⟩ := h
  match t, hlt, hpre with
  | [], _, _ => rfl
  | [c], hlt, _ =>
    have hc : c ≠ '<' := fun hc => hlt (by simp [hc])
    exact resolve.eq_5 syms base [c] (fun _ h' => hc (List.cons.inj h').1)
      (fun _ _ h' => by simp at h') (fun _ _ _ h' => by simp at h')
  | c :: x :: tail, hlt, hpre =>
    have hc : c ≠ '<' := fun hc => hlt (by simp [hc])
    by_cases h0 : c = '0'
    · subst h0
      rw [resolve.eq_2, if_neg fun hx => (hpre '0' x tail rfl hx).1 rfl]
    · have hrel : ¬ ((c = 'R' ∨ c = 'r') ∧ (x = 'x' ∨ x = 'X')) := by
        rintro ⟨hR | hR, hx⟩
        · exact (hpre c x tail rfl hx).2.1 hR
        · exact (hpre c x tail rfl hx).2.2 hR
      cases base with
      | none => rw [resolve.eq_4 _ _ _ _ hc h0, if_neg hrel]
      | some b => rw [resolve.eq_3 _ _ _ _ _ hc h0, if_neg hrel]

theorem resolve_hex_prefix (syms : Symbols) (base : Option Word) {x : Char} (rest : List Char)
    (hx : x = 'x' ∨ x = 'X') :
    resolve syms base ('0' :: x :: rest) = resolveNumeral 0 16 2 ('0' :: x :: rest) := by
  rw [resolve.eq_2, if_pos hx]

/-- `Rx`, in any case, starts a numeral relative to the base, and is refused without one. -/
theorem resolve_rel_prefix (syms : Symbols) (base : Option Word) {c x : Char} (rest : List Char)
    (hc : c = 'R' ∨ c = 'r') (hx : x = 'x' ∨ x = 'X') :
    resolve syms base (c :: x :: rest) =
      base.elim (.failure .noModule) fun b => resolveNumeral b 16 2 (c :: x :: rest) := by
  have hlt : c ≠ '<' := by rcases hc with rfl | rfl <;> decide
  have h0 : c ≠ '0' := by rcases hc with rfl | rfl <;> decide
  cases base with
  | none => rw [resolve.eq_4 _ _ _ _ hlt h0, if_pos ⟨hc, hx⟩]; rfl
  | some b => rw [resolve.eq_3 _ _ _ _ _ hlt h0, if_pos ⟨hc, hx⟩]; rfl

/-! ### The resolver of a registry -/

/-- The address resolver reads the longest address at the start of every text, for every
registry and every choice of module base: the caller's, else the resolver's own, else the
registry's.

* A `<` without a `>` after it takes nothing and is a symbol not found.  Otherwise the name
  runs to the first `>`, which ends what is taken; a name after `option:` is worth the word of
  the option of that name, any other name the address of the function of that name, and a
  name the table lacks is not found, with no look into the other table.
* After `0x` or `0X`, after `Rx` in any case, or with no prefix, a numeral of radix 16, 16 or
  10 takes the longest run of digits after the prefix (`NumeralReading`); `Rx` adds the base,
  and without a base takes nothing. -/
theorem resolve_reads_longest_address {κ : Type} (reg : Registry κ) (arg own : Option Word)
    (t : List Char) :
    let base := arg <|> own <|> reg.module
    let r := resolve reg.symbols base t
    (∀ rest, t = '<' :: rest → '>' ∉ rest → r = .failure .symbolNotFound) ∧
    (∀ o tail, t = '<' :: ("option:".toList ++ o ++ '>' :: tail) → '>' ∉ o →
      r = SymbolReading ((reg.option? (String.ofList o)).map PatchOption.asWord)
        (o.length + 9) tail) ∧
    (∀ name tail, t = '<' :: (name ++ '>' :: tail) → '>' ∉ name → ¬ "option:".toList <+: name →
      r = SymbolReading (reg.function? (String.ofList name)) (name.length + 2) tail) ∧
    (∀ x ds u, t = '0' :: x :: (ds ++ u) → (x = 'x' ∨ x = 'X') → LongestRun 16 ds u →
      NumeralReading 0 16 2 ds u r) ∧
    (∀ c x rest, t = c :: x :: rest → (c = 'R' ∨ c = 'r') → (x = 'x' ∨ x = 'X') →
      base = none → r = .failure .noModule) ∧
    (∀ c x ds u b, t = c :: x :: (ds ++ u) → (c = 'R' ∨ c = 'r') → (x = 'x' ∨ x = 'X') →
      base = some b → LongestRun 16 ds u → NumeralReading b 16 2 ds u r) ∧
    (∀ ds u, t = ds ++ u → Unprefixed t → LongestRun 10 ds u →
      NumeralReading 0 10 0 ds u r) := by
  intro base r
  refine ⟨?_, ?_, ?_, ?_, ?_, ?_, ?_⟩
  · rintro rest rfl h
    exact resolve_symbol_unclosed _ _ h
  · rintro o tail rfl h
    have hname : '>' ∉ "option:".toList ++ o := by
      simp only [List.mem_append, not_or]
      exact ⟨by decide, h⟩
    have hlen : ("option:".toList ++ o).length + 2 = o.length + 9 := by
      simp only [List.length_append]
      have : "option:".toList.length = 7 := rfl
      omega
    simp only [r, resolve_symbol_closed _ _ hname, Symbols.lookup_option, hlen]
    rfl
  · rintro name tail rfl h hopt
    simp only [r, resolve_symbol_closed _ _ h, Symbols.lookup_function _ hopt]
    rfl
  · rintro x ds u rfl hx hrun
    simp only [r, resolve_hex_prefix _ _ _ hx]
    exact resolveNumeral_longestRun 0 (.inr rfl) rfl hrun
  · rintro c x rest rfl hc hx hbase
    simp only [r, resolve_rel_prefix _ _ _ hc hx, hbase]
    rfl
  · rintro c x ds u b rfl hc hx hbase hrun
    simp only [r, resolve_rel_prefix _ _ _ hc hx, hbase]
    exact resolveNumeral_longestRun b (.inr rfl) rfl hrun
  · rintro ds u rfl hpre hrun
    simp only [r, resolve_unprefixed _ _ hpre]
    exact resolveNumeral_longestRun 0 (.inl rfl) rfl hrun

end Intercept
