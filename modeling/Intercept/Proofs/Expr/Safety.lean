import Mathlib.Algebra.BigOperators.Group.List.Basic
import Intercept.Proofs.Expr.Pointer
import Intercept.Proofs.Expr.Trace
/-!
# Reading never goes wrong

Reading an expression is total and safe on every text, under every snapshot, memory and
symbol table (`reading_is_total_and_safe`):

* no reading runs out of fuel: with any fuel past twice the text's length the reader gives
  `eval`'s answer;
* the loop's steps move strictly forward through the text, at most one per character, each
  at a character boundary, and every atom takes at least one character;
* what the reader compares as bytes (an operator or size qualifier token, the three letters
  of a register name) and the prefix the address reader takes end at character boundaries;
* division and remainder by zero are the only operations without a value, and truncating to
  a size keeps exactly that many low bytes, so no shift reaches the word's width;
* memory is read only through dereferences at nonzero addresses, and only there.
-/

namespace Intercept.Expr

/-! ### Character boundaries -/

/-- The bytes of a list of characters are those of its characters. -/
theorem utf8ByteSize_ofList (cs : List Char) :
    (String.ofList cs).utf8ByteSize = (cs.map Char.utf8Size).sum := by
  induction cs with
  | nil => rfl
  | cons c cs ih =>
    rw [← List.singleton_append, String.ofList_append, String.utf8ByteSize_append, ih,
      ← String.singleton_eq_ofList, String.utf8ByteSize_singleton]
    simp

/-- A text has at most as many characters as bytes. -/
theorem length_le_utf8ByteSize (x : String) : x.toList.length ≤ x.utf8ByteSize := by
  have hbytes := utf8ByteSize_ofList x.toList
  rw [String.ofList_toList] at hbytes
  rw [hbytes, ← List.length_map (f := Char.utf8Size)]
  exact List.length_le_sum_of_one_le _ fun n hn => by
    obtain ⟨c, -, rfl⟩ := List.mem_map.mp hn
    exact c.utf8Size_pos

/-- The byte offset at which a suffix of a text starts is a character boundary of the text. -/
theorem isValid_of_suffix {x : String} {t : List Char} (h : t <:+ x.toList) :
    (⟨x.utf8ByteSize - (String.ofList t).utf8ByteSize⟩ : String.Pos.Raw).IsValid x := by
  obtain ⟨hd, hx⟩ := h
  have hsplit : x = String.ofList hd ++ String.ofList t := by
    rw [← String.ofList_append, hx, String.ofList_toList]
  rw [String.Pos.Raw.isValid_iff_exists_append]
  refine ⟨String.ofList hd, String.ofList t, hsplit, ?_⟩
  have hsize : x.utf8ByteSize = (String.ofList hd).utf8ByteSize + (String.ofList t).utf8ByteSize := by
    rw [← String.utf8ByteSize_append, ← hsplit]
  rw [String.Pos.Raw.ext_iff, String.byteIdx_rawEndPos, hsize, Nat.add_sub_cancel]

theorem Resolution.consumedBytes_isValid (r : Resolution) (text : List Char) :
    (⟨r.consumedBytes text⟩ : String.Pos.Raw).IsValid (String.ofList text) := by
  rw [String.Pos.Raw.isValid_ofList]
  exact ⟨r.taken, by rw [utf8ByteSize_ofList]; rfl⟩

theorem utf8Size_of_toLower {c : Char} (h : c.toLower.val ≤ 127) : c.utf8Size = 1 := by
  rw [Char.utf8Size_eq_one_iff]
  unfold Char.toLower at h
  split at h
  · next hc => exact UInt32.le_trans hc.2 (by decide)
  · exact h

/-- Characters equal up to case to ASCII ones are one byte each. -/
theorem utf8ByteSize_of_sameIgnoringCase {cs tok : List Char}
    (h : Register.sameIgnoringCase cs tok = true) (htok : ∀ d ∈ tok, d.toLower.val ≤ 127) :
    (String.ofList cs).utf8ByteSize = cs.length := by
  have hmap : cs.map Char.toLower = tok.map Char.toLower := by
    simpa [Register.sameIgnoringCase] using h
  have hone : ∀ c ∈ cs, c.utf8Size = 1 := by
    intro c hc
    obtain ⟨d, hd, hdc⟩ := List.mem_map.mp (hmap ▸ List.mem_map_of_mem hc : c.toLower ∈ tok.map Char.toLower)
    exact utf8Size_of_toLower (hdc ▸ htok d hd)
  rw [utf8ByteSize_ofList, List.map_congr_left hone]
  simp

/-- A token the reader takes is as many bytes as characters. -/
theorem afterToken?_head_bytes {tok cs rest : List Char} (h : afterToken? tok cs = some rest)
    (htok : ∀ d ∈ tok, d.toLower.val ≤ 127) :
    (String.ofList (cs.take tok.length)).utf8ByteSize = tok.length := by
  unfold afterToken? at h
  split at h
  · next hc => rw [utf8ByteSize_of_sameIgnoringCase hc.1 htok, List.length_take, Nat.min_eq_left hc.2]
  · cases h

theorem tokens_ascii : ∀ tok ∈ Op.twoChar.map Prod.fst ++ sizeQualifiers.map Prod.fst,
    ∀ d ∈ tok, d.toLower.val ≤ 127 := by
  intro tok htok
  simp only [Op.twoChar, sizeQualifiers, List.map_cons, List.map_nil, List.cons_append,
    List.nil_append, List.mem_cons, List.not_mem_nil, or_false] at htok
  rcases htok with rfl | rfl | rfl | rfl | rfl | rfl | rfl <;> exact forall_mem_of_all (by decide)

/-- The three letters of a register name the reader takes are three bytes. -/
theorem parsePrefix?_head_bytes {cs rest : List Char} {r : Register}
    (h : Register.parsePrefix? cs = some (r, rest)) : (String.ofList (cs.take 3)).utf8ByteSize = 3 := by
  obtain ⟨hd, rfl, hname⟩ := Register.parsePrefix?_eq_some_iff.mp h
  have hlen : hd.length = 3 := by
    rw [← List.length_map (f := Char.toLower), hname]
    cases r <;> rfl
  have hsame : Register.sameIgnoringCase hd r.name.toList = true := by
    simp [Register.sameIgnoringCase, hname, Register.name_toLower]
  have hascii : ∀ d ∈ r.name.toList, d.toLower.val ≤ 127 := by
    cases r <;> exact forall_mem_of_all (by decide)
  rw [List.take_left' hlen, utf8ByteSize_of_sameIgnoringCase hsame hascii, hlen]

/-! ### Arithmetic that cannot trap -/

theorem Op.apply_eq_none_iff {o : Op} {a b : Word} :
    o.apply a b = none ↔ (o = .div ∨ o = .rem) ∧ b = 0 := by
  cases o <;> simp [Op.apply]

/-- Truncating to a size keeps exactly that many low bytes, at most all eight. -/
theorem Word.toNat_truncate (w : Word) (size : Nat) :
    (w.truncate size).toNat = w.toNat % 2 ^ (8 * min size 8) := by
  unfold Word.truncate
  split
  · next h =>
    rw [Nat.min_eq_right h, Nat.mod_eq_of_lt w.toNat_lt]
  · next h =>
    -- below eight bytes the shift is less than the word's width
    have hshift : (size * 8).toUInt64.toNat % 64 = 8 * size := by
      simp [Nat.toUInt64]
      omega
    have hlt : 2 ^ (8 * size) < 2 ^ 64 := Nat.pow_lt_pow_right (by decide) (by omega)
    have hpow : (1 <<< (size * 8).toUInt64 : Word).toNat = 2 ^ (8 * size) := by
      rw [UInt64.toNat_shiftLeft, hshift, UInt64.toNat_one, Nat.one_shiftLeft, Nat.mod_eq_of_lt hlt]
    have hmask : ((1 <<< (size * 8).toUInt64 : Word) - 1).toNat = 2 ^ (8 * size) - 1 := by
      rw [UInt64.toNat_sub_of_le, hpow, UInt64.toNat_one]
      rw [UInt64.le_iff_toNat_le, hpow, UInt64.toNat_one]
      exact Nat.one_le_two_pow
    rw [UInt64.toNat_and, hmask, Nat.and_two_pow_sub_one_eq_mod, Nat.min_eq_left (by omega)]

/-! ### Whole readings -/

section Reading

variable (ctx : Context) (x : String)

/-- The steps of a whole reading move forward through the text. -/
theorem eval_advances :
    Advances (steps (foldEvents ctx (fuelFor x.toList) .top 0 .add x.toList)) x.toList :=
  ((reading_advances_at ctx _).1 _ _ _ _).1

theorem eval_reads_nonzero :
    ReadsNonzero (foldEvents ctx (fuelFor x.toList) .top 0 .add x.toList) :=
  (reads_nonzero ctx _).1 _ _ _ _

/-- A memory that agrees with the context's wherever a reading dereferences gives the same
value. -/
theorem eval_memory_frame (readByte : Word → UInt8)
    (h : AgreesOn ctx readByte (foldEvents ctx (fuelFor x.toList) .top 0 .add x.toList)) :
    eval { ctx with readByte := readByte } x = eval ctx x := by
  simp only [eval, ((reading_framed ctx readByte _).1 _ _ _ _ h).1]

end Reading

/-- Reading an expression is total and safe, on every text and in every context.  No reading
runs out of fuel.  The loop's steps move strictly forward through the text, at most one per
character, each at a character boundary, and every atom takes at least one character.  The
tokens and register letters compared as bytes, and the prefix the address reader takes, end at
character boundaries.  Only division and remainder by zero have no value, and truncation
keeps exactly the low bytes.  Memory is read only through dereferences at nonzero addresses:
a memory that agrees with the context's there gives the same value. -/
theorem reading_is_total_and_safe (ctx : Context) (x : String) :
    let events := foldEvents ctx (fuelFor x.toList) .top 0 .add x.toList
    (∀ n, 2 * x.toList.length + 1 ≤ n → (fold ctx n .top 0 .add x.toList).map Prod.fst = eval ctx x) ∧
    (steps events).Pairwise (fun t u => u.length < t.length) ∧
    (steps events).length ≤ x.toList.length ∧ x.toList.length ≤ x.utf8ByteSize ∧
    (∀ t ∈ steps events, t <:+ x.toList ∧
      (⟨x.utf8ByteSize - (String.ofList t).utf8ByteSize⟩ : String.Pos.Raw).IsValid x) ∧
    (∀ n size cs w rest, atom ctx n size cs = .ok (w, rest) → rest.length < cs.length) ∧
    (∀ tok ∈ Op.twoChar.map Prod.fst ++ sizeQualifiers.map Prod.fst, ∀ cs rest,
      afterToken? tok cs = some rest → (String.ofList (cs.take tok.length)).utf8ByteSize = tok.length) ∧
    (∀ cs r rest, Register.parsePrefix? cs = some (r, rest) → (String.ofList (cs.take 3)).utf8ByteSize = 3) ∧
    (∀ syms base cs, (⟨(resolve syms base cs).consumedBytes cs⟩ : String.Pos.Raw).IsValid (String.ofList cs)) ∧
    (∀ (o : Op) a b, o.apply a b = none ↔ (o = .div ∨ o = .rem) ∧ b = 0) ∧
    (∀ (w : Word) size, (w.truncate size).toNat = w.toNat % 2 ^ (8 * min size 8)) ∧
    ReadsNonzero events ∧
    (∀ readByte, AgreesOn ctx readByte events → eval { ctx with readByte := readByte } x = eval ctx x) := by
  intro events
  have hadv := eval_advances ctx x
  refine ⟨fun n hn => fold_eq_eval ctx x hn, hadv.shrinks, hadv.length_le,
    length_le_utf8ByteSize x, fun t ht => ⟨hadv.suffix t ht, isValid_of_suffix (hadv.suffix t ht)⟩,
    fun n size cs w rest h => (atom_suffix h).2,
    fun tok htok cs rest h => afterToken?_head_bytes h (tokens_ascii tok htok),
    fun cs r rest h => parsePrefix?_head_bytes h,
    fun syms base cs => Resolution.consumedBytes_isValid _ cs,
    fun o a b => Op.apply_eq_none_iff, Word.toNat_truncate, eval_reads_nonzero ctx x,
    eval_memory_frame ctx x⟩

/-- A dereference of address `0` reads no memory: `[0]` is worth the same whatever memory
holds. -/
theorem null_dereference_reads_no_memory :
    let ctx : Context := ⟨none, fun _ => 0, ⟨fun _ => none, fun _ => none⟩, none⟩
    eval { ctx with readByte := fun _ => 0xFF } "[0]" = eval ctx "[0]" := by
  intro ctx
  have hevents : foldEvents ctx (fuelFor "[0]".toList) .top 0 .add "[0]".toList =
      [.step ['[', '0', ']'], .step ['0', ']']] := by
    decide
  refine (reading_is_total_and_safe ctx "[0]").2.2.2.2.2.2.2.2.2.2.2.2 _ ?_
  intro a size ha
  rw [hevents] at ha
  simp at ha

end Intercept.Expr
