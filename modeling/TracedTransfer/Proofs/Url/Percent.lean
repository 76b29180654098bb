/-
Percent-encoding settles.

What is encoded consists of characters that are shown bare, percent signs
and hexadecimal digits; no set of characters to be encoded holds any of
those. So encoding a second time changes nothing (`percentEncode_settled`),
and no separator gets in that was not there (`mem_percentEncode`).

A text of ASCII without percent signs is what it is decoded to
(`decodeLossy_plain`); and where percent signs are encoded, decoding gives
back any bytes (`percentDecode_percentEncodeBytes`).
-/
import TracedTransfer.Proofs.Text.Boundary
import TracedTransfer.Url.Percent

namespace TracedTransfer.Url

open Text

variable {set : EncodeSet} {s t : List Char}

-- ================================================================ bare

/-- Every character of a text is shown bare in a part of a URL. -/
def Bare (set : EncodeSet) (s : List Char) : Prop :=
  ∀ c ∈ s, 0x20 ≤ c.toNat ∧ c.toNat < 0x7f ∧ set c = false

theorem bare_nil : Bare set [] := fun _ h => (List.not_mem_nil h).elim

/-- A character that is not to be escaped may stand in front. -/
theorem Bare.cons {c : Char} (hc : 0x20 ≤ c.toNat ∧ c.toNat < 0x7f ∧ set c = false)
    (hs : Bare set s) : Bare set (c :: s) := by
  intro d hd
  rcases List.mem_cons.1 hd with rfl | hd
  · exact hc
  · exact hs d hd

theorem Bare.ascii (h : Bare set s) : ∀ c ∈ s, c.toNat < 0x80 := by
  intro c hc
  have := (h c hc).2.1
  omega

/-- A character that is to be encoded does not stand in a bare text. -/
theorem Bare.not_mem (h : Bare set s) {c : Char} (hc : set c = true) : c ∉ s := by
  intro hmem
  rw [(h c hmem).2.2] at hc
  cases hc

-- ============================================================= encoding

/-- The characters of triples. -/
def tripleChars : List Char := "%0123456789ABCDEF".toList

theorem hexDigitUpper_mem {n : Nat} (hn : n < 16) : hexDigitUpper n ∈ tripleChars := by
  have hall : ∀ n < 16, hexDigitUpper n ∈ tripleChars := by decide
  exact hall n hn

theorem tripleChars_plain : ∀ c ∈ tripleChars, 0x20 ≤ c.toNat ∧ c.toNat < 0x7f := by
  have hall : tripleChars.all (fun c => 0x20 ≤ c.toNat ∧ c.toNat < 0x7f) = true := by decide
  simpa only [List.all_eq_true, decide_eq_true_eq] using hall

/-- A set that leaves the characters of triples alone, as that of every part of a URL does. -/
def Spares (set : EncodeSet) : Prop := ∀ c ∈ tripleChars, set c = false

theorem Spares.of_all (h : tripleChars.all (fun c => set c = false) = true) : Spares set := by
  simpa only [Spares, List.all_eq_true, decide_eq_true_eq] using h

theorem spares_controls : Spares EncodeSet.controls := .of_all (by decide)
theorem spares_fragment : Spares EncodeSet.fragment := .of_all (by decide)
theorem spares_query : Spares EncodeSet.query := .of_all (by decide)
theorem spares_specialQuery : Spares EncodeSet.specialQuery := .of_all (by decide)
theorem spares_path : Spares EncodeSet.path := .of_all (by decide)

theorem percentEncode_nil : percentEncode set [] = [] := rfl

theorem percentEncode_append (s t : List Char) :
    percentEncode set (s ++ t) = percentEncode set s ++ percentEncode set t := by
  unfold percentEncode percentEncodeBytes
  rw [Utf8.encode_append, List.flatMap_append]

theorem staysBare_iff (b : UInt8) : staysBare set b = true
    ↔ 0x20 ≤ b.toNat ∧ b.toNat < 0x7f ∧ set (Char.ofNat b.toNat) = false := by
  simp [staysBare, UInt8.le_iff_toNat_le, UInt8.lt_iff_toNat_lt, and_assoc]

/-- A character that a byte is encoded to is that byte, shown bare, or belongs to a triple. -/
theorem mem_encodeByte {c : Char} {b : UInt8} (h : c ∈ encodeByte set b) :
    b < 0x80 ∧ c = Char.ofNat b.toNat ∧ 0x20 ≤ c.toNat ∧ c.toNat < 0x7f ∧ set c = false
      ∨ c ∈ tripleChars := by
  have hlt : b.toNat < 256 := b.toNat_lt
  unfold encodeByte at h
  by_cases hbare : staysBare set b = true
  · rw [if_pos hbare, List.mem_singleton] at h
    rw [staysBare_iff] at hbare
    have hascii : b < 0x80 := by
      rw [UInt8.lt_iff_toNat_lt]
      exact Nat.lt_trans hbare.2.1 (by decide)
    subst h
    rw [Utf8.toNat_ofNat_ascii hascii]
    exact .inl ⟨hascii, rfl, hbare⟩
  · rw [if_neg hbare] at h
    refine .inr ?_
    rcases List.mem_cons.1 h with rfl | h
    · decide
    · rcases List.mem_cons.1 h with rfl | h
      · exact hexDigitUpper_mem (by omega)
      · rw [List.mem_singleton.1 h]
        exact hexDigitUpper_mem (by omega)

/-- An escape is ASCII. -/
theorem encodeByte_ascii (b : UInt8) : ∀ c ∈ encodeByte set b, c.toNat < 0x80 := by
  intro c hc
  rcases mem_encodeByte hc with ⟨-, -, -, hlt, -⟩ | htriple
  · exact Nat.lt_trans hlt (by decide)
  · exact Nat.lt_trans (tripleChars_plain c htriple).2 (by decide)

/-- A character of an encoded text is shown bare and was there before, or belongs to a triple. -/
theorem mem_percentEncode {c : Char} (h : c ∈ percentEncode set s) :
    c ∈ s ∧ 0x20 ≤ c.toNat ∧ c.toNat < 0x7f ∧ set c = false ∨ c ∈ tripleChars := by
  obtain ⟨b, hb, hc⟩ := List.mem_flatMap.1 h
  refine (mem_encodeByte hc).imp_left fun ⟨hascii, heq, hbare⟩ => ⟨?_, hbare⟩
  rw [heq]
  exact Utf8.mem_of_mem_encode (UInt8.lt_iff_toNat_lt.1 hascii) hb

/-- A character that is to be encoded does not stand in what is encoded. -/
theorem not_mem_percentEncodeBytes {c : Char} (hset : set c = true) (hc : c ∉ tripleChars)
    (s : Bytes) : c ∉ percentEncodeBytes set s := by
  intro hmem
  obtain ⟨b, -, hb⟩ := List.mem_flatMap.1 hmem
  rcases mem_encodeByte hb with ⟨-, -, -, -, hbare⟩ | htriple
  · exact Bool.false_ne_true (hbare.symm.trans hset)
  · exact hc htriple

/-- What is escaped has nothing left to escape, if escapes are spared: so to escape again changes
nothing. -/
theorem bare_percentEncode (hset : Spares set) (s : List Char) :
    Bare set (percentEncode set s) := by
  intro c hc
  rcases mem_percentEncode hc with ⟨-, h⟩ | h
  · exact h
  · exact ⟨(tripleChars_plain c h).1, (tripleChars_plain c h).2, hset c h⟩

/-- A bare text is not changed. -/
theorem Bare.percentEncode_eq (h : Bare set s) : percentEncode set s = s := by
  unfold percentEncode percentEncodeBytes
  rw [Utf8.encode_ascii h.ascii]
  induction s with
  | nil => rfl
  | cons c s ih =>
      obtain ⟨hlow, hhigh, hset⟩ := h c (List.mem_cons_self ..)
      have hbyte : (UInt8.ofNat c.toNat).toNat = c.toNat := Utf8.toNat_ofNat (by omega)
      have hbare : staysBare set (UInt8.ofNat c.toNat) = true := by
        rw [staysBare_iff, hbyte, Char.ofNat_toNat]
        exact ⟨hlow, hhigh, hset⟩
      rw [List.map_cons, List.flatMap_cons, ih fun d hd => h d (List.mem_cons_of_mem _ hd),
        encodeByte, if_pos hbare, hbyte, Char.ofNat_toNat]
      rfl

/-- What is encoded is not changed by encoding it again. -/
theorem percentEncode_settled (hset : Spares set) (s : List Char) :
    percentEncode set (percentEncode set s) = percentEncode set s :=
  (bare_percentEncode hset s).percentEncode_eq

/-- Nothing is lost altogether. -/
theorem percentEncode_eq_nil : percentEncode set s = [] ↔ s = [] := by
  refine ⟨fun h => ?_, fun h => by rw [h, percentEncode_nil]⟩
  cases s with
  | nil => rfl
  | cons c s =>
      obtain ⟨b, bs, hbytes, -⟩ := Utf8.next_encodeChar c
      have hcons : percentEncode set (c :: s) = encodeByte set b
          ++ percentEncodeBytes set (bs ++ Utf8.encode s) := by
        unfold percentEncode percentEncodeBytes
        rw [Utf8.encode_cons, hbytes]
        rfl
      rw [hcons, List.append_eq_nil_iff] at h
      have hne : encodeByte set b ≠ [] := by
        unfold encodeByte
        split <;> exact List.cons_ne_nil _ _
      exact absurd h.1 hne

-- ============================================================= decoding

/-- A text is read back from its bytes, also by the reading that never fails. -/
theorem decodeLossy_encode (s : List Char) : Utf8.decodeLossy (Utf8.encode s) = s := by
  have h := Utf8.decode?_encode s
  unfold Utf8.decode? at h
  dsimp only at h
  split at h
  · exact Option.some.inj h
  · cases h

/-- Without a sign of an escape nothing is decoded. -/
theorem percentDecodeBytes_plain {s : Bytes} (h : (0x25 : UInt8) ∉ s) :
    percentDecodeBytes s = s := by
  induction s with
  | nil => rw [percentDecodeBytes]
  | cons b s ih =>
      have hb : b ≠ 0x25 := fun heq => h (heq ▸ List.mem_cons_self ..)
      rw [percentDecodeBytes.eq_def]
      dsimp only
      rw [if_neg hb, ih fun hmem => h (List.mem_cons_of_mem _ hmem)]

/-- A text without percent signs is what it is decoded to. -/
theorem decodeLossy_plain (h : '%' ∉ s) : Utf8.decodeLossy (percentDecode s) = s := by
  have hbytes : (0x25 : UInt8) ∉ Utf8.encode s := fun hmem =>
    h (Utf8.mem_of_mem_encode (by decide) hmem)
  rw [percentDecode, percentDecodeBytes_plain hbytes, decodeLossy_encode]

theorem hexByte?_hexDigitUpper {n : Nat} (hn : n < 16) :
    hexByte? (UInt8.ofNat (hexDigitUpper n).toNat) = some n := by
  have hall : ∀ n < 16, hexByte? (UInt8.ofNat (hexDigitUpper n).toNat) = some n := by decide
  exact hall n hn

/-- A byte is decoded again where percent signs are encoded. -/
theorem percentDecodeBytes_encodeByte (hset : set '%' = true) (b : UInt8) (rest : Bytes) :
    percentDecodeBytes (Utf8.encode (encodeByte set b) ++ rest) = b :: percentDecodeBytes rest := by
  have hlt : b.toNat < 256 := b.toNat_lt
  rw [Utf8.encode_ascii (encodeByte_ascii b)]
  unfold encodeByte
  by_cases hbare : staysBare set b = true
  · rw [if_pos hbare]
    rw [staysBare_iff] at hbare
    have hb : b ≠ 0x25 := by
      rintro rfl
      exact Bool.false_ne_true (hbare.2.2.symm.trans hset)
    have hchar : (Char.ofNat b.toNat).toNat = b.toNat :=
      Utf8.toNat_ofNat_ascii (UInt8.lt_iff_toNat_lt.2 (Nat.lt_trans hbare.2.1 (by decide)))
    rw [List.map_singleton, hchar, UInt8.ofNat_toNat, List.singleton_append,
      percentDecodeBytes.eq_def]
    dsimp only
    rw [if_neg hb]
  · have hpercent : UInt8.ofNat '%'.toNat = 0x25 := rfl
    have hhigh := hexByte?_hexDigitUpper (n := b.toNat / 16) (by omega)
    have hlow := hexByte?_hexDigitUpper (n := b.toNat % 16) (by omega)
    rw [if_neg hbare, List.map_cons, List.map_cons, List.map_singleton, hpercent,
      List.cons_append, percentDecodeBytes.eq_def]
    simp only [if_true, List.cons_append, List.nil_append, hhigh, hlow, Nat.div_add_mod',
      UInt8.ofNat_toNat]

/-- Bytes are decoded again where percent signs are encoded. -/
theorem percentDecode_percentEncodeBytes (hset : set '%' = true) (s : Bytes) :
    percentDecode (percentEncodeBytes set s) = s := by
  unfold percentDecode percentEncodeBytes
  induction s with
  | nil => exact percentDecodeBytes_plain List.not_mem_nil
  | cons b s ih =>
      rw [List.flatMap_cons, Utf8.encode_append, percentDecodeBytes_encodeByte hset, ih]
end TracedTransfer.Url
