/-
Characters among the bytes of a text.

A character of ASCII is one byte, its own; any other is a first byte from
0xc0 on and one or more bytes between 0x80 and 0xc0 (`encodeChar_cases`).
So a place among the bytes is inside a character exactly if the byte
behind it is one of the latter, and every other place cuts the text into
two texts (`split_of_boundary`).

The search for such a place goes down byte by byte and cannot get below
the beginning, which is one (`boundary?_spec`).
-/
import TracedTransfer.Proofs.Text.Encoding

namespace TracedTransfer.Text.Utf8

-- ========================================================== characters

/-- A byte that a character goes on with. -/
def IsInner (b : UInt8) : Prop := 0x80 ≤ b.toNat ∧ b.toNat < 0xc0

/-- The bytes that follow a first one are inner ones. -/
theorem isInner_ofNat {x : Nat} (hx : x < 64) : IsInner (UInt8.ofNat (x + 128)) := by
  unfold IsInner
  rw [toNat_ofNat (by omega)]
  omega

/-- The bytes of a character. -/
theorem encodeChar_cases (c : Char) :
    c.toNat < 0x80 ∧ String.utf8EncodeChar c = [UInt8.ofNat c.toNat]
    ∨ 0x80 ≤ c.toNat ∧ ∃ b bs, String.utf8EncodeChar c = b :: bs ∧ 0xc0 ≤ b.toNat
        ∧ ∀ x ∈ bs, IsInner x := by
  have hvalid := valid_cases c
  unfold String.utf8EncodeChar Char.toNat
  generalize c.val.toNat = v at hvalid ⊢
  dsimp only
  split
  · exact .inl ⟨by omega, rfl⟩
  · refine .inr ⟨by omega, ?_⟩
    split
    · refine ⟨_, _, rfl, ?_, ?_⟩
      · rw [toNat_ofNat (by omega)]
        omega
      · simp only [List.mem_singleton, forall_eq]
        exact isInner_ofNat (by omega)
    · split
      · refine ⟨_, _, rfl, ?_, ?_⟩
        · rw [toNat_ofNat (by omega)]
          omega
        · simp only [List.mem_cons, List.not_mem_nil, or_false, forall_eq_or_imp, forall_eq]
          exact ⟨isInner_ofNat (by omega), isInner_ofNat (by omega)⟩
      · refine ⟨_, _, rfl, ?_, ?_⟩
        · rw [toNat_ofNat (by omega)]
          omega
        · simp only [List.mem_cons, List.not_mem_nil, or_false, forall_eq_or_imp, forall_eq]
          exact ⟨isInner_ofNat (by omega), isInner_ofNat (by omega), isInner_ofNat (by omega)⟩

theorem encode_cons (c : Char) (s : List Char) :
    encode (c :: s) = String.utf8EncodeChar c ++ encode s := rfl

theorem encode_append (s t : List Char) : encode (s ++ t) = encode s ++ encode t :=
  List.flatMap_append

theorem encodeChar_ascii {c : Char} (h : c.toNat < 0x80) :
    String.utf8EncodeChar c = [UInt8.ofNat c.toNat] := by
  rcases encodeChar_cases c with ⟨-, h'⟩ | ⟨h', -⟩
  · exact h'
  · omega

/-- A text of ASCII is written byte by byte. -/
theorem encode_ascii {s : List Char} (h : ∀ c ∈ s, c.toNat < 0x80) :
    encode s = s.map fun c => UInt8.ofNat c.toNat := by
  induction s with
  | nil => rfl
  | cons c s ih =>
      rw [encode_cons, encodeChar_ascii (h c (List.mem_cons_self ..)),
        ih fun d hd => h d (List.mem_cons_of_mem _ hd)]
      rfl

/-- A byte of ASCII among those of a text is that of a character. -/
theorem mem_of_mem_encode {b : UInt8} (hb : b.toNat < 0x80) {s : List Char}
    (h : b ∈ encode s) : Char.ofNat b.toNat ∈ s := by
  obtain ⟨c, hc, hmem⟩ := List.mem_flatMap.1 h
  rcases encodeChar_cases c with ⟨hlow, hbytes⟩ | ⟨-, b', bs, hbytes, hfirst, hinner⟩
  · rw [hbytes, List.mem_singleton] at hmem
    rwa [hmem, toNat_ofNat (by omega), Char.ofNat_toNat]
  · rw [hbytes] at hmem
    rcases List.mem_cons.1 hmem with rfl | hmem
    · omega
    · have := (hinner b hmem).1
      omega

-- ========================================================== boundaries

theorem isBoundary_zero (s : Bytes) : isBoundary s 0 = true := by
  simp [isBoundary]

/-- There is no boundary in front of a byte that a character goes on with. -/
theorem not_boundary_of_inner {s : Bytes} {n : Nat} {b : UInt8} (hn : n ≠ 0)
    (hb : s[n]? = some b) (hinner : IsInner b) : isBoundary s n = false := by
  have hlow : ¬ b < 0x80 := by
    rw [UInt8.lt_iff_toNat_lt]
    exact Nat.not_lt.2 hinner.1
  have hhigh : ¬ 0xc0 ≤ b := by
    rw [UInt8.le_iff_toNat_le]
    exact Nat.not_le.2 hinner.2
  simp [isBoundary, hn, hb, hlow, hhigh]

/-- Behind the first character, the boundaries are those of the rest. -/
theorem isBoundary_append {s t : Bytes} {n : Nat} (hn : n ≠ 0)
    (h : isBoundary (s ++ t) (s.length + n) = true) : isBoundary t n = true := by
  have hget : (s ++ t)[s.length + n]? = t[n]? := by
    rw [List.getElem?_append_right (Nat.le_add_right ..), Nat.add_sub_cancel_left]
  have hne : s.length + n ≠ 0 := by omega
  unfold isBoundary at h ⊢
  rw [hget] at h
  cases ht : t[n]? with
  | some b => simpa [ht, hn, hne] using h
  | none => simpa [ht, hn, hne] using h

/-- A boundary cuts a text into two texts. -/
theorem split_of_boundary {s : List Char} {k : Nat} (h : isBoundary (encode s) k = true)
    (hk : k ≤ (encode s).length) :
    ∃ t rest, s = t ++ rest ∧ (encode s).take k = encode t ∧ (encode t).length = k := by
  induction s generalizing k with
  | nil =>
      have hzero : k = 0 := Nat.le_zero.1 hk
      exact ⟨[], [], rfl, List.take_nil, hzero.symm⟩
  | cons c s ih =>
      by_cases hzero : k = 0
      · subst hzero
        exact ⟨[], c :: s, rfl, List.take_zero, rfl⟩
      · rw [encode_cons] at h hk ⊢
        by_cases hin : k < (String.utf8EncodeChar c).length
        · -- Inside the first character every byte is an inner one.
          exfalso
          have hget : (String.utf8EncodeChar c ++ encode s)[k]? = (String.utf8EncodeChar c)[k]? :=
            List.getElem?_append_left hin
          rcases encodeChar_cases c with ⟨-, hbytes⟩ | ⟨-, b, bs, hbytes, -, hinner⟩
          · rw [hbytes, List.length_singleton] at hin
            omega
          · obtain ⟨j, rfl⟩ : ∃ j, k = j + 1 := ⟨k - 1, by omega⟩
            rw [hbytes] at hin hget
            have hj : j < bs.length := by simpa using hin
            rw [List.getElem?_cons_succ, List.getElem?_eq_getElem hj, ← hbytes] at hget
            rw [not_boundary_of_inner hzero hget (hinner _ (List.getElem_mem hj))] at h
            cases h
        · obtain ⟨j, rfl⟩ : ∃ j, k = (String.utf8EncodeChar c).length + j :=
            ⟨k - (String.utf8EncodeChar c).length, by omega⟩
          have hrest : isBoundary (encode s) j = true := by
            by_cases hj : j = 0
            · rw [hj]
              exact isBoundary_zero _
            · exact isBoundary_append hj h
          obtain ⟨t, rest, rfl, htake, hlen⟩ := ih hrest (by simpa using hk)
          refine ⟨c :: t, rest, rfl, ?_, ?_⟩
          · rw [List.take_length_add_append, htake, encode_cons]
          · rw [encode_cons, List.length_append, hlen]

/-- The search for a boundary ends at one, at the latest at the beginning, and at the last there
is. -/
theorem boundary?_spec (s : Bytes) (n : Nat) :
    ∃ k ≤ n, boundary? s n = some k ∧ isBoundary s k = true
      ∧ ∀ j, k < j → j ≤ n → isBoundary s j = false := by
  induction n with
  | zero =>
      refine ⟨0, Nat.le_refl 0, ?_, isBoundary_zero s, fun j hj hj' => absurd hj' (by omega)⟩
      rw [boundary?, if_pos (isBoundary_zero s)]
  | succ n ih =>
      by_cases h : isBoundary s (n + 1) = true
      · refine ⟨n + 1, Nat.le_refl _, ?_, h, fun j hj hj' => absurd hj' (by omega)⟩
        rw [boundary?, if_pos h]
      · obtain ⟨k, hk, hsome, hbound, hlast⟩ := ih
        refine ⟨k, by omega, ?_, hbound, fun j hj hj' => ?_⟩
        · rw [boundary?, if_neg h, hsome]
        · by_cases hj'' : j = n + 1
          · rw [hj'']
            exact Bool.eq_false_iff.2 h
          · exact hlast j hj (by omega)

end TracedTransfer.Text.Utf8
