import Intercept.Proofs.Address
/-!
# Loading patch options

`Registry.loadOptions` reads an object of patch options entry by entry.  This module shows that
loading is a per-key update of the option table, and says which entries give integer options,
in the grammar's terms rather than the readers':

* `readWord?_eq_some_iff` — the reader of unsigned words takes exactly an optional `+` and a
  numeral below `2 ^ 64` (`WritesWord`);
* `hexValue?_eq_some_iff` — an option's value stands for an integer when it is a JSON integer,
  or a text that, trimmed, writes one in hexadecimal after `0x` or in decimal
  (`IntegerValue`);
* `ofJson_of_integer_kind` — an entry of an integer type is decided by its bit count and the
  integer its value stands for, and nothing else;
* `loadOptions_updates_per_key` — loading overwrites the table at exactly the accepted keys,
  counts them, accepts exactly the integer entries `IntegerEntry` describes, and reads a word
  the same from a JSON number, its decimal text and its `0x` text.
-/

namespace Intercept

open Intercept.Expr (WritesDigit Numeral lowerDigits upperDigits)

/-! ### Words written as text -/

theorem foldlM_digitValue?_isDigitIn {radix : Nat} {ds : List Char} {acc n : Nat}
    (h : ds.foldlM (fun acc c => (Text.digitValue? radix c).map fun d => acc * radix + d) acc =
      some n) :
    ∀ c ∈ ds, Text.isDigitIn radix c = true := by
  induction ds generalizing acc with
  | nil => simp
  | cons c rest ih =>
    rw [List.foldlM_cons] at h
    cases hc : Text.digitValue? radix c with
    | none => simp [hc] at h
    | some d =>
      simp only [hc, Option.map_some, Option.bind_eq_bind, Option.bind_some] at h
      intro c' hc'
      rcases List.mem_cons.mp hc' with rfl | hrest
      · simp [Text.isDigitIn, hc]
      · exact ih h c' hrest

/-- The digit reader reads exactly the numerals of the grammar. -/
theorem digitsValue?_eq_some_iff {radix : Nat} (hr : radix = 10 ∨ radix = 16) {ds : List Char}
    {n : Nat} : Text.digitsValue? radix ds = some n ↔ Numeral radix ds n := by
  constructor
  · intro h
    have hne : ds ≠ [] := by
      rintro rfl
      simp [Text.digitsValue?] at h
    have hdig : ∀ c ∈ ds, IsDigit radix c := by
      simp only [Text.digitsValue?, List.isEmpty_iff, hne, if_false] at h
      exact fun c hc => (isDigitIn_iff hr c).mp (foldlM_digitValue?_isDigitIn h c hc)
    obtain ⟨m, hm⟩ := LongestRun.numeral (u := []) ⟨hdig, by simp⟩ hne
    have hval := hm.digitsValue? hr
    rw [h] at hval
    cases hval
    exact hm
  · exact fun h => h.digitsValue? hr

theorem Expr.Numeral.unique {radix n m : Nat} {ds : List Char} (hr : radix = 10 ∨ radix = 16)
    (hn : Numeral radix ds n) (hm : Numeral radix ds m) : n = m := by
  have h := hn.digitsValue? hr
  rw [hm.digitsValue? hr] at h
  exact (Option.some.inj h).symm

theorem Expr.Numeral.head_ne_plus {radix n : Nat} {ds : List Char} (h : Numeral radix ds n)
    (hr : radix = 10 ∨ radix = 16) (rest : List Char) : ds ≠ '+' :: rest := by
  rintro rfl
  have := h.isDigitIn hr '+' List.mem_cons_self
  rcases hr with rfl | rfl <;> simp [Text.isDigitIn, Text.digitValue?] at this

/-- A numeral followed by one more digit writes the number shifted by the radix, plus the
digit. -/
theorem Expr.Numeral.snoc {radix n d : Nat} {ds : List Char} {c : Char} (h : Numeral radix ds n)
    (hc : WritesDigit c d) (hd : d < radix) : Numeral radix (ds ++ [c]) (n * radix + d) := by
  obtain ⟨dv, hdv, -, hlt, rfl⟩ := h
  refine ⟨dv ++ [d], List.rel_append hdv (.cons hc .nil), by simp, ?_, by simp⟩
  intro d' hd'
  rcases List.mem_append.mp hd' with hd' | hd'
  · exact hlt d' hd'
  · rw [List.mem_singleton.mp hd']
    exact hd

/-- The digits core prints for a number are a numeral that writes it. -/
theorem numeral_toDigits {radix : Nat} (hr : radix = 10 ∨ radix = 16) (m : Nat) :
    Numeral radix (Nat.toDigits radix m) m := by
  have hchar : ∀ d : Fin 16, lowerDigits[(d : Nat)]? = some (Nat.digitChar d) := by decide
  have hb : 1 < radix := by omega
  induction m using Nat.strongRecOn with
  | _ m ih =>
    rw [Nat.toDigits_eq_if hb]
    split
    · next hlt =>
      exact ⟨[m], .cons (.inl (hchar ⟨m, by omega⟩)) .nil, by simp, by simpa, by simp⟩
    · next hge =>
      -- the leading digits write `m / radix`, and the last digit is `m % radix`
      have hlast : m % radix < radix := Nat.mod_lt m (by omega)
      have hsnoc := (ih (m / radix) (Nat.div_lt_self (by omega) hb)).snoc
        (.inl (hchar ⟨m % radix, by omega⟩)) hlast
      rwa [Nat.div_add_mod'] at hsnoc

/-- A text writes a word the way the standard reader takes it: an optional `+`, then a numeral
of the radix, whose value is the word's. -/
def WritesWord (radix : Nat) (cs : List Char) (w : Word) : Prop :=
  ∃ ds, (cs = ds ∨ cs = '+' :: ds) ∧ Numeral radix ds w.toNat

theorem readDigits_eq_some_iff {radix : Nat} (hr : radix = 10 ∨ radix = 16) (ds : List Char)
    (w : Word) : Text.readWord?.readDigits radix ds = some w ↔ Numeral radix ds w.toNat := by
  unfold Text.readWord?.readDigits
  cases h : Text.digitsValue? radix ds with
  | none =>
    simp only [reduceCtorEq, false_iff]
    intro hn
    rw [(digitsValue?_eq_some_iff hr).mpr hn] at h
    cases h
  | some n =>
    have hn := (digitsValue?_eq_some_iff hr).mp h
    by_cases hlt : n < 2 ^ 64
    · simp only [hlt, if_true, Option.some.injEq]
      constructor
      · rintro rfl
        rwa [UInt64.toNat_ofNat_of_lt' hlt]
      · intro hw
        rw [hn.unique hr hw]
        simp
    · simp only [hlt, if_false, reduceCtorEq, false_iff]
      intro hw
      exact hlt (hn.unique hr hw ▸ w.toNat_lt)

/-- The standard reader of words reads exactly the texts that write them. -/
theorem readWord?_eq_some_iff {radix : Nat} (hr : radix = 10 ∨ radix = 16) (cs : List Char)
    (w : Word) : Text.readWord? radix cs = some w ↔ WritesWord radix cs w := by
  unfold Text.readWord?
  split
  · next ds =>
    rw [readDigits_eq_some_iff hr]
    constructor
    · exact fun h => ⟨ds, .inr rfl, h⟩
    · rintro ⟨ds', hcs | hcs, h⟩
      · exact absurd hcs.symm (h.head_ne_plus hr ds)
      · cases hcs
        exact h
  · next hplus =>
    rw [readDigits_eq_some_iff hr]
    constructor
    · exact fun h => ⟨cs, .inl rfl, h⟩
    · rintro ⟨ds', hcs | hcs, h⟩
      · subst hcs
        exact h
      · exact absurd hcs (hplus ds')

/-! ### Values of integer options -/

/-- What a trimmed text stands for as an integer: a hexadecimal word after `0x` or `0X`, or
else a decimal word. -/
def TextWord (cs : List Char) (v : Word) : Prop :=
  (∃ x hex, cs = '0' :: x :: hex ∧ (x = 'x' ∨ x = 'X') ∧ WritesWord 16 hex v) ∨
    WritesWord 10 cs v

/-- The integer an option's value stands for: an integer number, a negative one in two's
complement, or a text that, trimmed of blanks, stands for it. -/
def IntegerValue (val : Json) (v : Word) : Prop :=
  val = .number (.unsigned v) ∨ (∃ i, val = .number (.negative i) ∧ v = Word.ofInt i) ∨
    ∃ s, val = .string s ∧ TextWord (Text.trimBlank s.toList) v

/-- `0x` never starts a decimal word. -/
theorem not_writesWord_after_hex_mark {x : Char} (hx : x = 'x' ∨ x = 'X') (hex : List Char)
    (v : Word) : ¬ WritesWord 10 ('0' :: x :: hex) v := by
  rintro ⟨ds, hcs | hcs, h⟩
  · subst hcs
    have := h.isDigitIn (.inl rfl) x (by simp)
    rcases hx with rfl | rfl <;> simp [Text.isDigitIn, Text.digitValue?] at this
  · simp at hcs

/-- After `0x` or `0X`, a text stands for the word its hexadecimal digits write, and only for
that one. -/
theorem textWord_hex_iff {x : Char} (hx : x = 'x' ∨ x = 'X') (hex : List Char) (v : Word) :
    TextWord ('0' :: x :: hex) v ↔ WritesWord 16 hex v := by
  constructor
  · rintro (⟨x', hex', heq, -, h⟩ | h)
    · cases heq
      exact h
    · exact absurd h (not_writesWord_after_hex_mark hx hex v)
  · exact fun h => .inl ⟨x, hex, rfl, hx, h⟩

theorem hexValue?_string_iff (s : String) (v : Word) :
    Param.hexValue? (.string s) = some v ↔ TextWord (Text.trimBlank s.toList) v := by
  simp only [Param.hexValue?]
  generalize Text.trimBlank s.toList = cs
  split
  · next hex => rw [readWord?_eq_some_iff (.inr rfl), textWord_hex_iff (.inl rfl)]
  · next hex => rw [readWord?_eq_some_iff (.inr rfl), textWord_hex_iff (.inr rfl)]
  · next hnx hnX =>
    rw [readWord?_eq_some_iff (.inl rfl)]
    constructor
    · exact .inr
    · rintro (⟨x, hex, rfl, hx | hx, -⟩ | h)
      · subst hx
        exact absurd rfl (hnx hex)
      · subst hx
        exact absurd rfl (hnX hex)
      · exact h

/-- The reader of integer values reads exactly the values that stand for integers. -/
theorem hexValue?_eq_some_iff (val : Json) (v : Word) :
    Param.hexValue? val = some v ↔ IntegerValue val v := by
  cases val with
  | number n =>
    cases n with
    | unsigned w =>
      simp [Param.hexValue?, Number.asWord?, Number.toWord?, IntegerValue, eq_comm]
    | negative i =>
      simp [Param.hexValue?, Number.asWord?, Number.toWord?, Number.toInt?, IntegerValue, eq_comm]
    | float b => simp [Param.hexValue?, Number.asWord?, Number.toWord?, Number.toInt?, IntegerValue]
  | string s => simp [hexValue?_string_iff, IntegerValue]
  | null => simp [Param.hexValue?, IntegerValue]
  | bool b => simp [Param.hexValue?, IntegerValue]
  | array items => simp [Param.hexValue?, IntegerValue]
  | object fields => simp [Param.hexValue?, IntegerValue]

/-! ### Entries of integer options -/

/-- The integer options: a byte, a word or a double word. -/
def PatchOption.IsInteger : PatchOption → Prop
  | .byte _ | .word _ | .dword _ => True
  | _ => False

/-- The integer option of a size in bytes that keeps the low bytes of `v`; only sizes 1, 2 and
4 have one. -/
def sizedInteger (size : Nat) (v : Word) : Except OptionError PatchOption :=
  if size = 1 then .ok (.byte v.toUInt8)
  else if size = 2 then .ok (.word v.toUInt16)
  else if size = 4 then .ok (.dword v.toUInt32)
  else .error .invalidIntegerType

/-- An integer option is determined by its size and its word, which keeps the low bytes. -/
theorem sizedInteger_eq_ok_iff (size : Nat) (v : Word) (opt : PatchOption) :
    sizedInteger size v = .ok opt ↔
      size ∈ [1, 2, 4] ∧ opt.IsInteger ∧ opt.size = size ∧
        opt.asWord.toNat = v.toNat % 2 ^ (8 * size) := by
  constructor
  · intro h
    unfold sizedInteger at h
    -- each branch fixes the size and builds that size's option, or refuses the size
    repeat' split at h
    all_goals cases h <;> simp_all [PatchOption.IsInteger, PatchOption.size, PatchOption.asWord]
  · rintro ⟨hsize, hint, hsz, hword⟩
    -- the size names the constructor, and the word its payload
    cases opt with
    | byte b =>
      simp only [PatchOption.size] at hsz
      subst hsz
      have : b = v.toUInt8 := UInt8.toNat_inj.mp (by simpa [PatchOption.asWord] using hword)
      simp [sizedInteger, this]
    | word w =>
      simp only [PatchOption.size] at hsz
      subst hsz
      have : w = v.toUInt16 := UInt16.toNat_inj.mp (by simpa [PatchOption.asWord] using hword)
      simp [sizedInteger, this]
    | dword d =>
      simp only [PatchOption.size] at hsz
      subst hsz
      have : d = v.toUInt32 := UInt32.toNat_inj.mp (by simpa [PatchOption.asWord] using hword)
      simp [sizedInteger, this]
    | float _ => exact hint.elim
    | double _ => exact hint.elim

/-- An entry whose type is `i` followed by a bit count, and whose value stands for an integer,
is read as the integer option of the bit count's bytes, or refused for its type. -/
theorem ofJson_of_integer_kind {entry : Json} {tname : String} {rest : List Char} {val : Json}
    {v : Word} (hty : entry.get? "type" = some (.string tname)) (hi : tname.toList = 'i' :: rest)
    (hval : entry.get? "val" = some val) (hv : IntegerValue val v) :
    PatchOption.ofJson entry =
      (Text.readWord? 10 rest).elim (.error .invalidType) fun bits =>
        sizedInteger (bits.toNat / 8) v := by
  have hhex : Param.hexValue? val = some v := (hexValue?_eq_some_iff val v).mpr hv
  cases entry with
  | object fields =>
    unfold PatchOption.ofJson
    simp only [hval, hty, Option.bind_some, Json.getString?, Option.getD_some, hi]
    -- the value is a number or a text, and no float
    rcases hv with rfl | ⟨i, rfl, rfl⟩ | ⟨s, rfl, -⟩ <;>
      cases Text.readWord? 10 rest <;>
      simp [Option.filter, Json.getNumber?, Number.isFloat, hhex, sizedInteger]
  | _ => simp [Json.get?] at hval

theorem type_of_getD {o : Option Json} {t : String} (h : (o.bind Json.getString?).getD "" = t)
    (ht : t.toList ≠ []) : o = some (.string t) := by
  cases o with
  | none => simp [← h] at ht
  | some j =>
    cases j with
    | string s => simpa [Json.getString?] using h
    | _ => simp [Json.getString?, ← h] at ht

/-- Only an entry of type `i…` whose value stands for an integer gives an integer option. -/
theorem ofJson_integer_inv {entry : Json} {opt : PatchOption}
    (h : PatchOption.ofJson entry = .ok opt) (hint : opt.IsInteger) :
    ∃ tname rest val v, entry.get? "type" = some (.string tname) ∧
      tname.toList = 'i' :: rest ∧ entry.get? "val" = some val ∧ IntegerValue val v := by
  cases entry with
  | object fields =>
    unfold PatchOption.ofJson at h
    dsimp only at h
    split at h
    · cases h
    · next value hvalue =>
      have hget := (Option.filter_eq_some_iff.mp hvalue).1
      split at h
      · cases h
      · next bits _ =>
        generalize htn :
          ((Json.get? "type" (.object fields)).bind Json.getString?).getD "" = tname at h
        cases hcs : tname.toList with
        | nil => simp [hcs] at h
        | cons c r =>
          simp only [hcs] at h
          split at h
          · -- an integer type: the value must stand for an integer
            next hkind =>
            cases hkind
            split at h
            · cases h
            · split at h
              · cases h
              · next v hv =>
                exact ⟨tname, r, value, v, type_of_getD htn (by simp [hcs]), hcs, hget,
                  (hexValue?_eq_some_iff value v).mp hv⟩
          · -- a float type gives no integer option
            split at h
            · cases h
            · split at h
              · cases h
                exact hint.elim
              · split at h
                · cases h
                  exact hint.elim
                · cases h
          · cases h
  | _ => simp [PatchOption.ofJson] at h

/-- An entry that sets an integer option: its type is `i` followed by a decimal bit count
whose eighth, rounded down, is 1, 2 or 4 bytes, its value stands for an integer `v`, and the
option is `v` cut to that many bytes. -/
def IntegerEntry (entry : Json) (opt : PatchOption) : Prop :=
  ∃ tname rest bits val v, entry.get? "type" = some (.string tname) ∧
    tname.toList = 'i' :: rest ∧ WritesWord 10 rest bits ∧ bits.toNat / 8 ∈ [1, 2, 4] ∧
    entry.get? "val" = some val ∧ IntegerValue val v ∧
    opt.IsInteger ∧ opt.size = bits.toNat / 8 ∧ opt.asWord.toNat = v.toNat % 2 ^ (8 * opt.size)

/-- The integer options an entry gives are exactly those `IntegerEntry` describes. -/
theorem ofJson_integer_iff (entry : Json) (opt : PatchOption) :
    (PatchOption.ofJson entry = .ok opt ∧ opt.IsInteger) ↔ IntegerEntry entry opt := by
  constructor
  · rintro ⟨h, hint⟩
    obtain ⟨tname, rest, val, v, hty, hi, hval, hv⟩ := ofJson_integer_inv h hint
    rw [ofJson_of_integer_kind hty hi hval hv] at h
    cases hbits : Text.readWord? 10 rest with
    | none => simp [hbits] at h
    | some bits =>
      simp only [hbits, Option.elim_some] at h
      obtain ⟨hsize, -, hsz, hword⟩ := (sizedInteger_eq_ok_iff _ _ _).mp h
      exact ⟨tname, rest, bits, val, v, hty, hi, (readWord?_eq_some_iff (.inl rfl) _ _).mp hbits,
        hsize, hval, hv, hint, hsz, hsz ▸ hword⟩
  · rintro ⟨tname, rest, bits, val, v, hty, hi, hbits, hsize, hval, hv, hint, hsz, hword⟩
    have hread := (readWord?_eq_some_iff (.inl rfl) _ _).mpr hbits
    refine ⟨?_, hint⟩
    rw [ofJson_of_integer_kind hty hi hval hv, hread, Option.elim_some]
    exact (sizedInteger_eq_ok_iff _ _ _).mpr ⟨hsize, hint, hsz, hsz ▸ hword⟩

/-! ### Three spellings of a word -/

/-- The three ways to give a word as an option's value: a JSON number, its decimal text and
its `0x` hexadecimal text. -/
def wordValues (n : Word) : List Json :=
  [.number (.unsigned n), .string (toString n.toNat), .string ("0x" ++ Word.hex n)]

theorem dropWhile_of_forall {p : Char → Bool} {cs : List Char} (h : ∀ c ∈ cs, p c = false) :
    cs.dropWhile p = cs := by
  cases cs with
  | nil => rfl
  | cons c rest => simp [h c List.mem_cons_self]

theorem trimBlank_of_forall {cs : List Char} (h : ∀ c ∈ cs, Text.isBlank c = false) :
    Text.trimBlank cs = cs := by
  unfold Text.trimBlank
  rw [dropWhile_of_forall h, dropWhile_of_forall (fun c hc => h c (List.mem_reverse.mp hc)),
    List.reverse_reverse]

theorem IsDigit.not_blank {radix : Nat} {c : Char} (h : IsDigit radix c) :
    Text.isBlank c = false := by
  obtain ⟨d, -, hw⟩ := h
  -- both tables have sixteen digits, none of them blank
  have key : ∀ d : Fin 16, (lowerDigits[(d : Nat)]?).all (fun c => !Text.isBlank c) ∧
      (upperDigits[(d : Nat)]?).all (fun c => !Text.isBlank c) := by decide
  rcases hw with hw | hw
  · simpa [hw] using (key ⟨d, (List.getElem?_eq_some_iff.mp hw).1⟩).1
  · simpa [hw] using (key ⟨d, (List.getElem?_eq_some_iff.mp hw).1⟩).2

theorem toDigits_reads {radix : Nat} (hr : radix = 10 ∨ radix = 16) (m : Nat) :
    (∀ c ∈ Nat.toDigits radix m, Text.isBlank c = false) ∧
      Numeral radix (Nat.toDigits radix m) m := by
  have hnum := numeral_toDigits hr m
  exact ⟨fun c hc => ((isDigitIn_iff hr c).mp (hnum.isDigitIn hr c hc)).not_blank, hnum⟩

/-- Each spelling of a word stands for the word. -/
theorem integerValue_of_mem_wordValues {n : Word} {val : Json} (h : val ∈ wordValues n) :
    IntegerValue val n := by
  simp only [wordValues, List.mem_cons, List.not_mem_nil, or_false] at h
  rcases h with rfl | rfl | rfl
  · exact .inl rfl
  · -- the decimal text
    obtain ⟨hblank, hnum⟩ := toDigits_reads (.inl rfl) n.toNat
    have htext : (toString n.toNat).toList = Nat.toDigits 10 n.toNat := by
      simp [toString, Nat.repr]
    refine .inr (.inr ⟨_, rfl, .inr ?_⟩)
    rw [htext, trimBlank_of_forall hblank]
    exact ⟨_, .inl rfl, hnum⟩
  · -- the hexadecimal text after `0x`
    obtain ⟨hblank, hnum⟩ := toDigits_reads (.inr rfl) n.toNat
    have htext : ("0x" ++ Word.hex n).toList = '0' :: 'x' :: Nat.toDigits 16 n.toNat := by
      simp [Word.hex, Word.hexDigits]
    have hblank' : ∀ c ∈ '0' :: 'x' :: Nat.toDigits 16 n.toNat, Text.isBlank c = false :=
      List.forall_mem_cons.mpr ⟨by decide, List.forall_mem_cons.mpr ⟨by decide, hblank⟩⟩
    refine .inr (.inr ⟨_, rfl, .inl ⟨'x', _, ?_, .inl rfl, _, .inl rfl, hnum⟩⟩)
    rw [htext, trimBlank_of_forall hblank']

/-! ### Loading -/

namespace Table

theorem lookup_filter_ne {α : Type} (t : Table α) {k key : String} (h : key ≠ k) :
    (t.filter fun e => e.1 != k).lookup key = t.lookup key := by
  induction t with
  | nil => rfl
  | cons e rest ih =>
    obtain ⟨k', a⟩ := e
    by_cases hk : k' = k
    · subst hk
      have hne : (key == k') = false := by simpa using h
      simp [List.lookup_cons, hne, ih]
    · simp [hk, List.lookup_cons, ih]

/-- Storing under a name replaces the entry of that name, and only that entry. -/
theorem get?_put_eq {α : Type} (t : Table α) (k key : String) (a : α) :
    (t.put k a).get? key = ([(k, a)].lookup key).or (t.get? key) := by
  by_cases h : key = k
  · subst h
    simp [get?, put]
  · have hne : (key == k) = false := by simpa using h
    simp [get?, put, List.lookup_cons, hne, lookup_filter_ne t h]

end Table

/-- The accepted entries of an options object, each with the option it gives, in order. -/
def acceptedOptions (fields : List (String × Json)) : List (String × PatchOption) :=
  fields.filterMap fun kv => (PatchOption.ofJson kv.2).toOption.map (kv.1, ·)

theorem acceptedOptions_cons_error {key : String} {entry : Json} {e : OptionError}
    (h : PatchOption.ofJson entry = .error e) (rest : List (String × Json)) :
    acceptedOptions ((key, entry) :: rest) = acceptedOptions rest := by
  simp [acceptedOptions, h, Except.toOption]

theorem acceptedOptions_cons_ok {key : String} {entry : Json} {o : PatchOption}
    (h : PatchOption.ofJson entry = .ok o) (rest : List (String × Json)) :
    acceptedOptions ((key, entry) :: rest) = (key, o) :: acceptedOptions rest := by
  simp [acceptedOptions, h, Except.toOption]

namespace Registry

variable {κ : Type}

/-- Loading entries stores each accepted one under its key, the later over the earlier, and
keeps the rest of the registry.  By induction on the entries: an accepted entry is stored
before the entries after it are loaded on top of it. -/
theorem loadEntries_spec (r : Registry κ) (fields : List (String × Json)) :
    let r' := (r.loadEntries fields).1
    (r.loadEntries fields).2.1 = (acceptedOptions fields).length ∧
      r'.module = r.module ∧ r'.callbacks = r.callbacks ∧ r'.functions = r.functions ∧
      ∀ key, r'.option? key =
        ((acceptedOptions fields).reverse.lookup key).or (r.option? key) := by
  induction fields generalizing r with
  | nil => simp [loadEntries, acceptedOptions]
  | cons kv rest ih =>
    obtain ⟨key, entry⟩ := kv
    cases h : PatchOption.ofJson entry with
    | error e =>
      obtain ⟨hn, hm, hc, hf, ho⟩ := ih r
      simp only [loadEntries, h, acceptedOptions_cons_error h]
      exact ⟨hn, hm, hc, hf, ho⟩
    | ok o =>
      obtain ⟨hn, hm, hc, hf, ho⟩ := ih { r with options := r.options.put key o }
      simp only [loadEntries, h, acceptedOptions_cons_ok h]
      refine ⟨by rw [hn, List.length_cons], hm, hc, hf, fun k => ?_⟩
      rw [ho k, List.reverse_cons, List.lookup_append, Option.or_assoc]
      simp only [option?, Table.get?_put_eq]

/-- Loading patch options is a per-key update of the option table, for every JSON value and
every registry.

* A value that is no object loads nothing and changes nothing.
* An object loads its accepted entries (`acceptedOptions`) and counts them: the table is
  overwritten at exactly their keys and keeps its earlier entry under every other key, a
  refused entry's included; the other tables stay as they were.
* An entry gives an integer option exactly when its type is `i` followed by a decimal bit count
  of 1, 2 or 4 bytes and its value stands for an integer, which the option keeps modulo
  `2 ^ (8 * size)` (`IntegerEntry`).
* Under a type of that kind, a word given as a JSON number, as its decimal text or as its `0x`
  text gives the same result. -/
theorem loadOptions_updates_per_key (r : Registry κ) :
    (∀ o, (∀ fields, o ≠ .object fields) → (r.loadOptions o).1 = r ∧ (r.loadOptions o).2.1 = 0) ∧
    (∀ fields, let r' := (r.loadOptions (.object fields)).1
      (r.loadOptions (.object fields)).2.1 = (acceptedOptions fields).length ∧
      r'.module = r.module ∧ r'.callbacks = r.callbacks ∧ r'.functions = r.functions ∧
      ∀ key, r'.option? key = ((acceptedOptions fields).reverse.lookup key).or (r.option? key)) ∧
    (∀ entry opt, (PatchOption.ofJson entry = .ok opt ∧ opt.IsInteger) ↔ IntegerEntry entry opt) ∧
    (∀ (e e' : Json) (tname : String) (rest : List Char) (n : Word) (val val' : Json),
      e.get? "type" = some (.string tname) → e'.get? "type" = some (.string tname) →
      tname.toList = 'i' :: rest → e.get? "val" = some val → e'.get? "val" = some val' →
      val ∈ wordValues n → val' ∈ wordValues n → PatchOption.ofJson e = PatchOption.ofJson e') := by
  refine ⟨?_, fun fields => r.loadEntries_spec fields, ofJson_integer_iff, ?_⟩
  · intro o ho
    cases o with
    | object fields => exact absurd rfl (ho fields)
    | _ => exact ⟨rfl, rfl⟩
  · intro e e' tname rest n val val' hty hty' hi hval hval' hmem hmem'
    rw [ofJson_of_integer_kind hty hi hval (integerValue_of_mem_wordValues hmem),
      ofJson_of_integer_kind hty' hi hval' (integerValue_of_mem_wordValues hmem')]

end Registry

end Intercept
