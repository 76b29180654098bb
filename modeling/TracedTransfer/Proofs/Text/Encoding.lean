/-
What is written as UTF-8 is read back.

Every character has a first byte that says how many follow, and six bits
in each of those. The reader takes the branch of that first byte
(`next_encodeChar`): what it asks of the byte behind it is that no
character is written longer than it has to be, and that no surrogate is
one. So a text reads back from its bytes (`decode?_encode`), and a line
break among them is one in the text (`newline_mem_encode`).
-/
import Mathlib.Tactic.IntervalCases
import TracedTransfer.Proofs.Text.Ascii

namespace TracedTransfer.Text.Utf8

-- ============================================================== bytes

theorem toNat_ofNat {x : Nat} (hx : x < 256) : (UInt8.ofNat x).toNat = x :=
  UInt8.toNat_ofNat_of_lt' hx

/-- The bits of a continuation byte. -/
theorem continuation_bits {x : Nat} (hx : x < 64) :
    (UInt8.ofNat (x + 128) &&& 0x3f).toNat = x := by
  have h : ∀ x < 64, (UInt8.ofNat (x + 128) &&& 0x3f).toNat = x := by decide
  exact h x hx

/-- A continuation byte that is within bounds puts its bits behind those
read before. -/
theorem continuation_cons {x : Nat} (hx : x < 64) {lo hi : UInt8}
    (hlo : lo.toNat ≤ x + 128) (hhi : x + 128 ≤ hi.toNat) (n acc : Nat) (rest : Bytes) :
    continuation (n + 1) lo hi acc (UInt8.ofNat (x + 128) :: rest)
      = continuation n 0x80 0xbf (acc * 64 + x) rest := by
  have hb : (UInt8.ofNat (x + 128)).toNat = x + 128 := toNat_ofNat (by omega)
  have hwithin : (decide (lo ≤ UInt8.ofNat (x + 128))
      && decide (UInt8.ofNat (x + 128) ≤ hi)) = true := by
    rw [Bool.and_eq_true, decide_eq_true_eq, decide_eq_true_eq, UInt8.le_iff_toNat_le,
      UInt8.le_iff_toNat_le, hb]
    exact ⟨hlo, hhi⟩
  rw [continuation, if_pos hwithin, continuation_bits hx]

/-- A plain continuation byte. -/
theorem continuation_plain {x : Nat} (hx : x < 64) (n acc : Nat) (rest : Bytes) :
    continuation (n + 1) 0x80 0xbf acc (UInt8.ofNat (x + 128) :: rest)
      = continuation n 0x80 0xbf (acc * 64 + x) rest := by
  have hlo : (0x80 : UInt8).toNat ≤ x + 128 := Nat.le_add_left 128 x
  have hhi : x + 128 ≤ (0xbf : UInt8).toNat := show x + 128 ≤ 191 by omega
  exact continuation_cons hx hlo hhi n acc rest

-- ========================================================= first bytes

/-- A first byte says how many follow and which bits it adds: here it is
one. -/
theorem next_two {a : Nat} (ha : 2 ≤ a) (ha' : a < 32) (rest : Bytes) :
    next (UInt8.ofNat (a + 192)) rest = continuation 1 0x80 0xbf a rest := by
  unfold next
  interval_cases a <;> rfl

/-- The bounds of the byte behind the first of three. -/
def secondOfThree (a : Nat) : UInt8 × UInt8 :=
  if a = 0 then (0xa0, 0xbf) else if a = 13 then (0x80, 0x9f) else (0x80, 0xbf)

/-- Here it is two, of which the first is kept away from what is too short
or a surrogate. -/
theorem next_three {a : Nat} (ha : a < 16) (rest : Bytes) :
    next (UInt8.ofNat (a + 224)) rest
      = continuation 2 (secondOfThree a).1 (secondOfThree a).2 a rest := by
  unfold next
  interval_cases a <;> rfl

/-- The bounds of the byte behind the first of four. -/
def secondOfFour (a : Nat) : UInt8 × UInt8 :=
  if a = 0 then (0x90, 0xbf) else if a = 4 then (0x80, 0x8f) else (0x80, 0xbf)

/-- Here it is three, of which the first is kept within what there is. -/
theorem next_four {a : Nat} (ha : a < 5) (rest : Bytes) :
    next (UInt8.ofNat (a + 240)) rest
      = continuation 3 (secondOfFour a).1 (secondOfFour a).2 a rest := by
  unfold next
  interval_cases a <;> rfl

-- ========================================================== characters

/-- A character is below the surrogates or above them. -/
theorem valid_cases (c : Char) : c.val.toNat < 0xd800
    ∨ 0xdfff < c.val.toNat ∧ c.val.toNat < 0x110000 := by
  rcases c.valid with h | ⟨h, h'⟩
  · exact .inl h
  · exact .inr ⟨h, h'⟩

theorem ofNat_val (c : Char) : Char.ofNat c.val.toNat = c := Char.ofNat_toNat c

/-- The bytes of a character are read as that character, whatever
follows. -/
theorem next_encodeChar (c : Char) : ∃ b bs, String.utf8EncodeChar c = b :: bs
    ∧ ∀ rest, next b (bs ++ rest) = (some c, rest) := by
  have hvalid := valid_cases c
  have hback := ofNat_val c
  -- One case for each number of bytes; the second byte is where the ranges that are left out
  -- lie.
  unfold String.utf8EncodeChar
  generalize c.val.toNat = v at hvalid hback ⊢
  dsimp only
  split
  · refine ⟨_, _, rfl, fun rest => ?_⟩
    have hb : (UInt8.ofNat v).toNat = v := toNat_ofNat (by omega)
    have hlt : UInt8.ofNat v < 0x80 := by
      rw [UInt8.lt_iff_toNat_lt, hb]
      exact Nat.lt_succ_of_le ‹_›
    rw [List.nil_append, next_ascii hlt, hb, hback]
  · split
    · refine ⟨_, _, rfl, fun rest => ?_⟩
      rw [List.singleton_append, next_two (by omega) (by omega),
        continuation_plain (by omega), continuation,
        show v / 64 % 32 * 64 + v % 64 = v by omega, hback]
    · split
      · refine ⟨_, _, rfl, fun rest => ?_⟩
        have hsecond : (secondOfThree (v / 4096 % 16)).1.toNat ≤ v / 64 % 64 + 128
            ∧ v / 64 % 64 + 128 ≤ (secondOfThree (v / 4096 % 16)).2.toNat := by
          unfold secondOfThree
          split
          · exact ⟨show 160 ≤ _ by omega, show _ ≤ 191 by omega⟩
          · split
            · exact ⟨show 128 ≤ _ by omega, show _ ≤ 159 by omega⟩
            · exact ⟨show 128 ≤ _ by omega, show _ ≤ 191 by omega⟩
        rw [List.cons_append, List.singleton_append, next_three (by omega),
          continuation_cons (by omega) hsecond.1 hsecond.2, continuation_plain (by omega),
          continuation,
          show (v / 4096 % 16 * 64 + v / 64 % 64) * 64 + v % 64 = v by omega, hback]
      · refine ⟨_, _, rfl, fun rest => ?_⟩
        have hsecond : (secondOfFour (v / 262144 % 8)).1.toNat ≤ v / 4096 % 64 + 128
            ∧ v / 4096 % 64 + 128 ≤ (secondOfFour (v / 262144 % 8)).2.toNat := by
          unfold secondOfFour
          split
          · exact ⟨show 144 ≤ _ by omega, show _ ≤ 191 by omega⟩
          · split
            · exact ⟨show 128 ≤ _ by omega, show _ ≤ 143 by omega⟩
            · exact ⟨show 128 ≤ _ by omega, show _ ≤ 191 by omega⟩
        rw [List.cons_append, List.cons_append, List.singleton_append, next_four (by omega),
          continuation_cons (by omega) hsecond.1 hsecond.2, continuation_plain (by omega),
          continuation_plain (by omega), continuation,
          show ((v / 262144 % 8 * 64 + v / 4096 % 64) * 64 + v / 64 % 64) * 64 + v % 64 = v
            by omega, hback]

/-- A text reads back from its bytes. -/
theorem decode?_encode (s : List Char) : decode? (encode s) = some s := by
  induction s with
  | nil => exact decode?_nil
  | cons c s ih =>
      obtain ⟨b, bs, hbytes, hnext⟩ := next_encodeChar c
      have hencode : encode (c :: s) = b :: (bs ++ encode s) := by
        show String.utf8EncodeChar c ++ encode s = _
        rw [hbytes]
        rfl
      rw [hencode, decode?_cons, hnext, Option.bind_some, ih]
      rfl

-- ========================================================= line breaks

/-- Only a line break is written with the byte of one. -/
theorem newline_mem_encodeChar {c : Char} (h : (0x0a : UInt8) ∈ String.utf8EncodeChar c) :
    c = '\n' := by
  have hlow : ∀ x < 256, (0x0a : UInt8) = UInt8.ofNat x → x = 10 := by
    intro x hx heq
    rw [← toNat_ofNat hx, ← heq]
    rfl
  have hback := ofNat_val c
  have hvalid := valid_cases c
  unfold String.utf8EncodeChar at h
  generalize c.val.toNat = v at h hback hvalid
  dsimp only at h
  -- In every longer form each byte has its highest bit set.
  split at h
  · rw [List.mem_singleton] at h
    rw [hlow v (by omega) h] at hback
    exact hback.symm
  · split at h
    · simp only [List.mem_cons, List.not_mem_nil, or_false] at h
      rcases h with h | h
      · have := hlow _ (by omega) h
        omega
      · have := hlow _ (by omega) h
        omega
    · split at h
      · simp only [List.mem_cons, List.not_mem_nil, or_false] at h
        rcases h with h | h | h
        · have := hlow _ (by omega) h
          omega
        · have := hlow _ (by omega) h
          omega
        · have := hlow _ (by omega) h
          omega
      · simp only [List.mem_cons, List.not_mem_nil, or_false] at h
        rcases h with h | h | h | h
        · have := hlow _ (by omega) h
          omega
        · have := hlow _ (by omega) h
          omega
        · have := hlow _ (by omega) h
          omega
        · have := hlow _ (by omega) h
          omega

/-- An end of line in the bytes of a text is one in the text. -/
theorem newline_mem_encode {s : List Char} (h : (0x0a : UInt8) ∈ encode s) : '\n' ∈ s := by
  obtain ⟨c, hc, hmem⟩ := List.mem_flatMap.1 h
  rw [← newline_mem_encodeChar hmem]
  exact hc

end TracedTransfer.Text.Utf8
