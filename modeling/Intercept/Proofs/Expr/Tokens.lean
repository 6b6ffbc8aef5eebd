import Intercept.Proofs.Expr.Written
/-!
# The reader on written tokens

What each piece of the expression reader does at the start of a written token: blanks are
skipped, an operator's token is read as that operator, a qualifier as its width, a register name
as its register, and a numeral by the address resolver as its value.  Every lemma holds whatever
text follows the token, as long as it is `Delimited`: the text ends there or goes on with a
blank or a closing parenthesis or bracket, which is what a written sequence puts after an item.

Tokens are told apart by their first character, compared after lowercasing (`Char.toLower`
moves the uppercase ASCII letters only): atoms start with `(`, `[`, `e`, `r` or a digit,
qualifiers with `b`, `w` or `d`, and operators with none of these.
-/

namespace Intercept.Expr

/-- What may follow a token: nothing, a blank, or a closing parenthesis or bracket. -/
def Delimited (u : List Char) : Prop :=
  ∀ d r, u = d :: r → d = ' ' ∨ d = '\t' ∨ d = ')' ∨ d = ']'

/-- The first characters of atoms, lowercased. -/
def atomLead : List Char := ['(', '[', 'e', 'r', '0', '1', '2', '3', '4', '5', '6', '7', '8', '9']

/-- The first characters of items that are atoms, with or without a qualifier, lowercased. -/
def itemLead : List Char := atomLead ++ ['b', 'w', 'd']

/-- The decimal digits. -/
def decimalChars : List Char := ['0', '1', '2', '3', '4', '5', '6', '7', '8', '9']

/-! ### Characters -/

/-- Lowercasing moves only the uppercase ASCII letters, each by 32 code points. -/
theorem toLower_cases (c : Char) :
    c.toLower = c ∨ (65 ≤ c.toNat ∧ c.toNat ≤ 90 ∧ c.toLower.toNat = c.toNat + 32) := by
  unfold Char.toLower
  split
  · next h =>
    right
    have hA : 'A'.val.toNat = 65 := rfl
    have hZ : 'Z'.val.toNat = 90 := rfl
    have ha : ('a'.val - 'A'.val).toNat = 32 := rfl
    simp only [ge_iff_le, UInt32.le_iff_toNat_le, hA, hZ] at h
    simp only [Char.toNat, UInt32.toNat_add, ha]
    omega
  · left
    rfl

/-- A character that lowercases to a letter is that letter or the one 32 code points below. -/
theorem eq_or_upper_of_toLower_eq {c k : Char} (h : c.toLower = k) :
    c = k ∨ c.toNat + 32 = k.toNat := by
  rcases toLower_cases c with hc | ⟨-, -, hc⟩
  · left
    rw [← hc, h]
  · right
    rw [← hc, h]

theorem ne_of_toLower_mem {c k : Char} {l : List Char} (hc : c.toLower ∈ l) (hk : k.toLower ∉ l) :
    c ≠ k := by
  rintro rfl
  exact hk hc

/-- A property holds of every character of a list when the list's `all` says so.  Deciding
the `all` runs over the list's entries; deciding the statement itself may instead run over
every character there is. -/
theorem forall_mem_of_all {l : List Char} {p : Char → Prop} [DecidablePred p]
    (h : (l.all fun c => decide (p c)) = true) : ∀ c ∈ l, p c := by
  simpa using h

theorem decimalChars_toLower : ∀ c ∈ decimalChars, c.toLower = c := forall_mem_of_all (by decide)

theorem WritesDigit.mem_decimalChars {c : Char} {d : Nat} (h : WritesDigit c d) (hd : d < 10) :
    c ∈ decimalChars := by
  have key : ∀ d : Fin 10, (lowerDigits[(d : Nat)]?).all decimalChars.contains ∧
      (upperDigits[(d : Nat)]?).all decimalChars.contains := by decide
  obtain ⟨hl, hu⟩ := key ⟨d, hd⟩
  rcases h with h | h
  · simpa [h] using hl
  · simpa [h] using hu

/-- A digit written in either case is read as its value, in radix 10 and 16 alike. -/
theorem WritesDigit.digitValue? {c : Char} {d radix : Nat} (h : WritesDigit c d) (hd : d < radix)
    (hr : radix = 10 ∨ radix = 16) : Text.digitValue? radix c = some d := by
  have dec : ∀ d : Fin 10, (lowerDigits[(d : Nat)]?).bind (Text.digitValue? 10) = some d ∧
      (upperDigits[(d : Nat)]?).bind (Text.digitValue? 10) = some d := by decide
  have hex : ∀ d : Fin 16, (lowerDigits[(d : Nat)]?).bind (Text.digitValue? 16) = some d ∧
      (upperDigits[(d : Nat)]?).bind (Text.digitValue? 16) = some d := by decide
  rcases hr with rfl | rfl
  · obtain ⟨hl, hu⟩ := dec ⟨d, hd⟩
    rcases h with h | h
    · simpa [h] using hl
    · simpa [h] using hu
  · obtain ⟨hl, hu⟩ := hex ⟨d, hd⟩
    rcases h with h | h
    · simpa [h] using hl
    · simpa [h] using hu

theorem Delimited.not_digit {u : List Char} (hu : Delimited u) (radix : Nat)
    (hr : radix = 10 ∨ radix = 16) : ∀ d r, u = d :: r → Text.isDigitIn radix d = false := by
  intro d r h
  rcases hu d r h with rfl | rfl | rfl | rfl <;> rcases hr with rfl | rfl <;> decide

/-! ### Blanks and first characters -/

theorem skipBlanks_append {bs : List Char} (h : Blanks bs) (cs : List Char) :
    skipBlanks (bs ++ cs) = skipBlanks cs := by
  unfold skipBlanks
  rw [List.dropWhile_append_of_pos]
  intro c hc
  rcases h c hc with rfl | rfl <;> rfl

theorem skipBlanks_cons {c : Char} (u : List Char) (hc : c ≠ ' ' ∧ c ≠ '\t') :
    skipBlanks (c :: u) = c :: u := by
  unfold skipBlanks
  rw [List.dropWhile_cons_of_neg]
  simp [hc.1, hc.2]

theorem AtomText.head {a : Atom} {t : List Char} (h : AtomText a t) :
    ∃ c u, t = c :: u ∧ c.toLower ∈ atomLead := by
  cases h with
  | dec hn =>
    obtain ⟨dv, hds, hne, hlt, -⟩ := hn
    cases hds with
    | nil => exact absurd rfl hne
    | @cons c d _ _ hcd _ =>
      have hc := hcd.mem_decimalChars (hlt d (by simp))
      have hsub : ∀ c ∈ decimalChars, c ∈ atomLead := forall_mem_of_all (by decide)
      exact ⟨c, _, rfl, by rw [decimalChars_toLower c hc]; exact hsub c hc⟩
  | hex _ _ => exact ⟨'0', _, rfl, by decide⟩
  | rel hr _ _ => exact ⟨_, _, rfl, by rw [hr]; decide⟩
  | @reg r _ hr =>
    have hname : r.name.toList.head? = some 'e' := by cases r <;> rfl
    cases t with
    | nil => simp [← hr] at hname
    | cons c u =>
      refine ⟨c, u, rfl, ?_⟩
      have hc : c.toLower = 'e' := by simpa [← hr] using hname
      rw [hc]
      decide
  | paren _ => exact ⟨'(', _, rfl, by decide⟩
  | bracket _ => exact ⟨'[', _, rfl, by decide⟩

theorem ItemText.head_atom {q : Option Qualifier} {a : Atom} {t : List Char}
    (h : ItemText (.atom q a) t) : ∃ c u, t = c :: u ∧ c.toLower ∈ itemLead := by
  cases h with
  | bare ha =>
    obtain ⟨c, u, rfl, hc⟩ := ha.head
    exact ⟨c, u, rfl, List.mem_append_left _ hc⟩
  | @sized q _ qs _ _ hq _ _ =>
    have hlead : ∀ q : Qualifier, ∃ k, q.text.head? = some k ∧ k ∈ itemLead := by
      intro q
      cases q <;> exact ⟨_, rfl, by decide⟩
    obtain ⟨k, hk, hmem⟩ := hlead q
    cases qs with
    | nil => simp [← hq] at hk
    | cons c u =>
      refine ⟨c, _, rfl, ?_⟩
      have hc : c.toLower = k := by simpa [← hq] using hk
      rwa [hc]

/-! ### Operators and qualifiers -/

theorem afterToken?_cons_of_ne {t c : Char} {ts u : List Char} (h : c.toLower ≠ t.toLower) :
    afterToken? (t :: ts) (c :: u) = none := by
  simp [afterToken?, Register.sameIgnoringCase, h]

theorem afterToken?_nil (t : Char) (ts : List Char) : afterToken? (t :: ts) [] = none := by
  simp [afterToken?]

/-- An operator's token is read as that operator, whatever may follow it. -/
theorem operator?_token (o : Op) {u : List Char} (hu : Delimited u) :
    operator? (o.token ++ u) = some (o, u) := by
  rcases u with _ | ⟨d, r⟩
  · cases o <;> decide
  · rcases hu d r rfl with rfl | rfl | rfl | rfl <;> cases o <;>
      simp [operator?, Op.token, Op.twoChar, List.findSome?, afterToken?,
        Register.sameIgnoringCase, Op.ofChar?]

/-- No operator starts an item that is an atom. -/
theorem operator?_eq_none {c : Char} (u : List Char) (hc : c.toLower ∈ itemLead) :
    operator? (c :: u) = none := by
  have key : ∀ k ∈ ['=', '!', '<', '>', '+', '-', '*', '/', '%'], k.toLower ∉ itemLead :=
    forall_mem_of_all (by decide)
  have hne : ∀ k ∈ ['=', '!', '<', '>', '+', '-', '*', '/', '%'], c.toLower ≠ k.toLower :=
    fun k hk h => key k hk (h ▸ hc)
  simp only [List.mem_cons, List.not_mem_nil, or_false, forall_eq_or_imp, forall_eq] at hne
  obtain ⟨h1, h2, h3, h4, h5, h6, h7, h8, h9⟩ := hne
  have hofChar : Op.ofChar? c = none := by
    unfold Op.ofChar?
    split <;> first | rfl | simp_all
  simp [operator?, Op.twoChar, List.findSome?, afterToken?_cons_of_ne h1,
    afterToken?_cons_of_ne h2, afterToken?_cons_of_ne h3, afterToken?_cons_of_ne h4, hofChar]

theorem afterToken?_append {tok qs : List Char} (h : qs.map Char.toLower = tok.map Char.toLower)
    (u : List Char) : afterToken? tok (qs ++ u) = some u := by
  have hlen : qs.length = tok.length := by
    rw [← List.length_map (f := Char.toLower), h, List.length_map]
  simp [afterToken?, Register.sameIgnoringCase, ← hlen, h]

theorem afterToken?_of_take_ne {tok qs : List Char} (hlen : tok.length ≤ qs.length)
    (h : (qs.map Char.toLower).take tok.length ≠ tok.map Char.toLower) (u : List Char) :
    afterToken? tok (qs ++ u) = none := by
  simp [afterToken?, Register.sameIgnoringCase, List.take_append_of_le_length hlen, h]

/-- A qualifier in any case is read as its width. -/
theorem sizeQualifier_text {q : Qualifier} {qs : List Char} (hq : qs.map Char.toLower = q.text)
    (u : List Char) : sizeQualifier (qs ++ u) = (q.bytes, u) := by
  have hlen : qs.length = q.text.length := by rw [← hq, List.length_map]
  cases q with
  | byte =>
    have h1 : afterToken? ['b', 'y', 't', 'e', ' ', 'p', 't', 'r'] (qs ++ u) = some u :=
      afterToken?_append (by rw [hq]; decide) u
    simp [sizeQualifier, sizeQualifiers, h1, Qualifier.bytes]
  | word =>
    have h1 : afterToken? ['b', 'y', 't', 'e', ' ', 'p', 't', 'r'] (qs ++ u) = none :=
      afterToken?_of_take_ne (by rw [hlen]; decide) (by rw [hq]; decide) u
    have h2 : afterToken? ['w', 'o', 'r', 'd', ' ', 'p', 't', 'r'] (qs ++ u) = some u :=
      afterToken?_append (by rw [hq]; decide) u
    simp [sizeQualifier, sizeQualifiers, List.findSome?, h1, h2, Qualifier.bytes]
  | dword =>
    have h1 : afterToken? ['b', 'y', 't', 'e', ' ', 'p', 't', 'r'] (qs ++ u) = none :=
      afterToken?_of_take_ne (by rw [hlen]; decide) (by rw [hq]; decide) u
    have h2 : afterToken? ['w', 'o', 'r', 'd', ' ', 'p', 't', 'r'] (qs ++ u) = none :=
      afterToken?_of_take_ne (by rw [hlen]; decide) (by rw [hq]; decide) u
    have h3 : afterToken? ['d', 'w', 'o', 'r', 'd', ' ', 'p', 't', 'r'] (qs ++ u) = some u :=
      afterToken?_append (by rw [hq]; decide) u
    simp [sizeQualifier, sizeQualifiers, List.findSome?, h1, h2, h3, Qualifier.bytes]

/-- An atom without a qualifier is read with a whole word. -/
theorem sizeQualifier_bare {c : Char} (u : List Char) (hc : c.toLower ∈ atomLead) :
    sizeQualifier (c :: u) = (8, c :: u) := by
  have key : ∀ k ∈ ['b', 'w', 'd'], k.toLower ∉ atomLead := forall_mem_of_all (by decide)
  have hne : ∀ k ∈ ['b', 'w', 'd'], c.toLower ≠ k.toLower := fun k hk h => key k hk (h ▸ hc)
  simp only [List.mem_cons, List.not_mem_nil, or_false, forall_eq_or_imp, forall_eq] at hne
  have h1 : afterToken? ['b', 'y', 't', 'e', ' ', 'p', 't', 'r'] (c :: u) = none :=
    afterToken?_cons_of_ne hne.1
  have h2 : afterToken? ['w', 'o', 'r', 'd', ' ', 'p', 't', 'r'] (c :: u) = none :=
    afterToken?_cons_of_ne hne.2.1
  have h3 : afterToken? ['d', 'w', 'o', 'r', 'd', ' ', 'p', 't', 'r'] (c :: u) = none :=
    afterToken?_cons_of_ne hne.2.2
  simp [sizeQualifier, sizeQualifiers, List.findSome?, h1, h2, h3]

/-! ### Registers -/

/-- A register name in any case is read as that register, whatever follows it. -/
theorem parsePrefix?_name {r : Register} {cs : List Char} (h : cs.map Char.toLower = r.name.toList)
    (u : List Char) : Register.parsePrefix? (cs ++ u) = some (r, u) := by
  have hlen : cs.length = 3 := by
    rw [← List.length_map (f := Char.toLower), h]
    cases r <;> rfl
  obtain ⟨a, b, c, rfl⟩ : ∃ a b c, cs = [a, b, c] := by
    match cs, hlen with
    | [a, b, c], _ => exact ⟨a, b, c, rfl⟩
  have key : ∀ r : Register,
      Register.all.find? (fun r' => r.name.toList == r'.name.toList.map Char.toLower) = some r := by
    intro r
    cases r <;> decide
  simp only [List.cons_append, List.nil_append, Register.parsePrefix?, Register.sameIgnoringCase]
  rw [h, key]
  rfl

/-- No register name starts a text whose first character is no `e`. -/
theorem parsePrefix?_eq_none {c : Char} (u : List Char) (hc : c.toLower ≠ 'e') :
    Register.parsePrefix? (c :: u) = none := by
  match u with
  | [] => rfl
  | [_] => rfl
  | b :: d :: rest =>
    have hnone : ∀ r : Register, Register.sameIgnoringCase [c, b, d] r.name.toList = false := by
      intro r
      cases r <;> simp [Register.sameIgnoringCase, Register.name, hc]
    simp [Register.parsePrefix?, hnone]

/-! ### Numerals -/

theorem foldlM_digitValue? {radix : Nat} (hr : radix = 10 ∨ radix = 16) :
    ∀ {ds : List Char} {dv : List Nat}, List.Forall₂ WritesDigit ds dv → (∀ d ∈ dv, d < radix) →
      ∀ acc : Nat, ds.foldlM (fun acc c => (Text.digitValue? radix c).map fun d => acc * radix + d)
        acc = some (dv.foldl (fun acc d => acc * radix + d) acc)
  | _, _, .nil, _, _ => rfl
  | _, _, .cons hcd hrest, hlt, acc => by
    rw [List.foldlM_cons, hcd.digitValue? (hlt _ List.mem_cons_self) hr]
    exact foldlM_digitValue? hr hrest (fun d hd => hlt d (List.mem_cons_of_mem _ hd)) _

theorem Numeral.digitsValue? {radix n : Nat} {ds : List Char} (h : Numeral radix ds n)
    (hr : radix = 10 ∨ radix = 16) : Text.digitsValue? radix ds = some n := by
  have hne := h.ne_nil
  obtain ⟨dv, hds, -, hlt, rfl⟩ := h
  simp [Text.digitsValue?, hne, foldlM_digitValue? hr hds hlt]

theorem Numeral.isDigitIn {radix n : Nat} {ds : List Char} (h : Numeral radix ds n)
    (hr : radix = 10 ∨ radix = 16) : ∀ c ∈ ds, Text.isDigitIn radix c = true := by
  obtain ⟨dv, hds, -, hlt, -⟩ := h
  induction hds with
  | nil => simp
  | cons hcd _ ih =>
    intro c hc
    rcases List.mem_cons.mp hc with rfl | hc
    · simp [Text.isDigitIn, hcd.digitValue? (hlt _ List.mem_cons_self) hr]
    · exact ih (fun d hd => hlt d (List.mem_cons_of_mem _ hd)) c hc

/-- The resolver reads a whole numeral after its prefix and stops at what follows it; text
after it is only reported as `garbage`. -/
theorem resolveNumeral_numeral (offset : Word) {radix n : Nat} {pre ds u : List Char}
    (hr : radix = 10 ∨ radix = 16) (h : Numeral radix ds n) (hn : n < 2 ^ 64) (hu : Delimited u) :
    (resolveNumeral offset radix pre.length (pre ++ ds ++ u)).value = n.toUInt64 + offset ∧
    (resolveNumeral offset radix pre.length (pre ++ ds ++ u)).taken = pre.length + ds.length ∧
    (resolveNumeral offset radix pre.length (pre ++ ds ++ u)).error ∈ [none, some .garbage] := by
  have htake : (ds ++ u).takeWhile (Text.isDigitIn radix) = ds := by
    rw [List.takeWhile_append_of_pos (h.isDigitIn hr)]
    cases u with
    | nil => simp
    | cons d r => simp [hu.not_digit radix hr d r rfl]
  have hne := h.ne_nil
  simp only [resolveNumeral, List.append_assoc, List.drop_left, htake, List.isEmpty_iff, hne,
    if_false, h.digitsValue? hr, hn, if_true, true_and]
  split <;> simp

theorem Numeral.mem_decimalChars {n : Nat} {ds : List Char} (h : Numeral 10 ds n) :
    ∀ c ∈ ds, c ∈ decimalChars := by
  obtain ⟨dv, hds, -, hlt, -⟩ := h
  induction hds with
  | nil => simp
  | cons hcd _ ih =>
    intro c hc
    rcases List.mem_cons.mp hc with rfl | hc
    · exact hcd.mem_decimalChars (hlt _ List.mem_cons_self)
    · exact ih (fun d hd => hlt d (List.mem_cons_of_mem _ hd)) c hc

/-! ### Address texts -/

theorem eq_or_eq_of_toLower_eq {c k K : Char} (h : c.toLower = k) (hK : K.toNat + 32 = k.toNat) :
    c = k ∨ c = K := by
  rcases eq_or_upper_of_toLower_eq h with h' | h'
  · exact .inl h'
  · exact .inr (Char.toNat_inj.mp (by omega))

/-- A text that starts with neither `<`, `0x` nor `Rx`, in any case, is read as decimal. -/
theorem resolve_of_plain (syms : Symbols) (base : Option Word) {c : Char} {rest : List Char}
    (hc : c ≠ '<' ∧ c ≠ 'R' ∧ c ≠ 'r')
    (hx : c = '0' → ∀ x tail, rest = x :: tail → x ≠ 'x' ∧ x ≠ 'X') :
    resolve syms base (c :: rest) = resolveNumeral 0 10 0 (c :: rest) := by
  unfold resolve
  split
  · next heq =>
    simp only [List.cons.injEq] at heq
    exact absurd heq.1 hc.1
  · next x tail heq =>
    simp only [List.cons.injEq] at heq
    obtain ⟨rfl, rfl⟩ := heq
    rw [if_neg]
    rintro (h | h)
    · exact (hx rfl x tail rfl).1 h
    · exact (hx rfl x tail rfl).2 h
  · next r x tail _ _ heq =>
    simp only [List.cons.injEq] at heq
    obtain ⟨rfl, -⟩ := heq
    rw [if_neg]
    rintro ⟨h | h, -⟩
    · exact hc.2.1 h
    · exact hc.2.2 h
  · rfl

/-- A decimal numeral is read by the decimal reader. -/
theorem resolve_decimal (syms : Symbols) (base : Option Word) {n : Nat} {ds u : List Char}
    (h : Numeral 10 ds n) (hu : Delimited u) :
    resolve syms base (ds ++ u) = resolveNumeral 0 10 0 (ds ++ u) := by
  have hdig := h.mem_decimalChars
  obtain ⟨c, rest, rfl⟩ := List.exists_cons_of_ne_nil h.ne_nil
  have key : ∀ c ∈ decimalChars, c ≠ '<' ∧ c ≠ 'R' ∧ c ≠ 'r' ∧ c ≠ 'x' ∧ c ≠ 'X' :=
    forall_mem_of_all (by decide)
  obtain ⟨h1, h2, h3, -, -⟩ := key c (hdig c List.mem_cons_self)
  apply resolve_of_plain syms base ⟨h1, h2, h3⟩
  intro _ x tail he
  cases rest with
  | nil => rcases hu x tail he with rfl | rfl | rfl | rfl <;> decide
  | cons y ys =>
    simp only [List.append_eq, List.cons_append, List.cons.injEq] at he
    obtain ⟨rfl, -⟩ := he
    obtain ⟨-, -, -, h4, h5⟩ := key y (hdig y (by simp))
    exact ⟨h4, h5⟩

theorem resolve_hex (syms : Symbols) (base : Option Word) {x : Char} {rest : List Char}
    (hx : x.toLower = 'x') :
    resolve syms base ('0' :: x :: rest) = resolveNumeral 0 16 2 ('0' :: x :: rest) := by
  have hx' := eq_or_eq_of_toLower_eq hx (K := 'X') rfl
  unfold resolve
  simp [hx']

/-- A numeral after `Rx`, in any case, is read relative to the base, and not without one. -/
theorem resolve_rel (syms : Symbols) {base : Option Word} {r x : Char} {rest : List Char}
    (hr : r.toLower = 'r') (hx : x.toLower = 'x') :
    resolve syms base (r :: x :: rest) = match base with
      | some b => resolveNumeral b 16 2 (r :: x :: rest)
      | none => .failure .noModule := by
  have hx' := eq_or_eq_of_toLower_eq hx (K := 'X') rfl
  rcases eq_or_eq_of_toLower_eq hr (K := 'R') rfl with rfl | rfl <;> cases base <;>
    unfold resolve <;> simp [hx']

/-- A register name is no address: nothing of it is read. -/
theorem resolve_name_taken (syms : Symbols) (base : Option Word) {r : Register} {cs : List Char}
    (h : cs.map Char.toLower = r.name.toList) (u : List Char) :
    (resolve syms base (cs ++ u)).taken = 0 := by
  have hname : r.name.toList.head? = some 'e' := by cases r <;> rfl
  cases cs with
  | nil => simp [← h] at hname
  | cons c rest =>
    have hc : c.toLower = 'e' := by simpa [← h] using hname
    rcases eq_or_eq_of_toLower_eq hc (K := 'E') rfl with rfl | rfl <;>
      rw [List.cons_append, resolve_of_plain syms base (by decide)
        (fun h => absurd h (by decide))] <;>
      simp [resolveNumeral, Text.isDigitIn, Text.digitValue?, Resolution.failure]

end Intercept.Expr
