/-
ASCII within UTF-8.

A byte below 0x80 stands for itself, and nothing else is read as a
character of ASCII: what starts with another byte is a character from 0x80
on, or no character. So a text in ASCII begins a sequence of bytes exactly
if its characters begin what the bytes are read as (`decode?_ascii`,
`ascii_of_decode?`).

The last section has what a text begins with that is all of one kind, and
the blanks at its end, which leave a beginning alone that ends in
something else.
-/
import Mathlib.Data.List.Basic
import TracedTransfer.Text.Utf8

namespace TracedTransfer.Text

namespace Utf8

-- ============================================================= reading

/-- What is read is put behind what has been read. -/
theorem readOnto_eq (acc : List (Option Char)) (s : Bytes) :
    readOnto acc s = (read s).reverse ++ acc := by
  have hgoes : ∀ (n : Nat) (acc : List (Option Char)) (s : Bytes), s.length ≤ n →
      readOnto acc s = readOnto [] s ++ acc := by
    intro n
    induction n with
    | zero =>
        intro acc s hs
        rw [List.eq_nil_of_length_eq_zero (Nat.le_zero.1 hs), readOnto, readOnto]
        rfl
    | succ n ih =>
        intro acc s hs
        cases s with
        | nil =>
            rw [readOnto, readOnto]
            rfl
        | cons b rest =>
            have hlen : (next b rest).2.length ≤ n :=
              Nat.le_trans (next_length_le b rest) (Nat.le_of_succ_le_succ hs)
            rw [readOnto, readOnto, ih _ _ hlen, ih [_] _ hlen, List.append_assoc]
            rfl
  rw [hgoes _ acc s (Nat.le_refl _), read, List.reverse_reverse]

theorem read_nil : read [] = [] := by
  rw [read, readOnto]
  rfl

theorem read_cons (b : UInt8) (rest : Bytes) :
    read (b :: rest) = (next b rest).1 :: read (next b rest).2 := by
  rw [read, readOnto, readOnto_eq, List.reverse_append, List.reverse_reverse]
  rfl

theorem decode?_nil : decode? [] = some [] := by
  rw [decode?, read_nil]
  rfl

/-- The first character of a well-formed sequence, and the others. -/
theorem decode?_cons (b : UInt8) (rest : Bytes) :
    decode? (b :: rest) = (next b rest).1.bind fun c =>
      (decode? (next b rest).2).map (c :: ·) := by
  simp only [decode?, read_cons, List.all_cons, List.map_cons]
  cases (next b rest).1 with
  | none => rfl
  | some c =>
      rw [Option.isSome_some, Bool.true_and, Option.bind_some]
      split
      · rfl
      · rfl

-- =============================================================== ASCII

theorem next_ascii {b : UInt8} (h : b < 0x80) (rest : Bytes) :
    next b rest = (some (Char.ofNat b.toNat), rest) := by
  rw [next, if_pos h]

/-- A byte of ASCII stands for itself. -/
theorem decode?_ascii {b : UInt8} (h : b < 0x80) (rest : Bytes) :
    decode? (b :: rest) = (decode? rest).map (Char.ofNat b.toNat :: ·) := by
  rw [decode?_cons, next_ascii h]
  rfl

/-- A number that is no character is read as the null character. -/
theorem toNat_ofNat_cases (n : Nat) : (Char.ofNat n).toNat = n ∨ (Char.ofNat n).toNat = 0 := by
  by_cases h : n.isValidChar
  · rw [Char.ofNat, dif_pos h]
    exact .inl rfl
  · rw [Char.ofNat, dif_neg h]
    exact .inr rfl

/-- A number that is beyond ASCII when `n` continuation bytes have been
added. -/
def Grows (n acc : Nat) : Prop := 0x80 ≤ acc ∨ 1 ≤ n ∧ 2 ≤ acc ∨ 2 ≤ n ∧ 1 ≤ acc

/-- Each byte that follows adds six bits, -/
theorem Grows.step {n acc : Nat} (h : Grows (n + 1) acc) (x : Nat) : Grows n (acc * 64 + x) := by
  unfold Grows at h ⊢
  omega

/-- so what it takes more than one byte to write is not ASCII, or is nothing
that can be read. -/
theorem Grows.continuation {n acc : Nat} {lo hi : UInt8} {s : Bytes} {c : Char}
    (hg : Grows n acc) (h : (continuation n lo hi acc s).1 = some c) :
    c.toNat = 0 ∨ 0x80 ≤ c.toNat := by
  induction n generalizing lo hi acc s with
  | zero =>
      cases h
      unfold Grows at hg
      rcases toNat_ofNat_cases acc with hn | hn
      · rw [hn]
        omega
      · exact .inl hn
  | succ n ih =>
      cases s with
      | nil => cases h
      | cons b rest =>
          rw [Utf8.continuation] at h
          split at h
          · exact ih (hg.step _) h
          · cases h

/-- A leading byte without bits of its own asks for more of the byte after
it. -/
theorem le_of_first_continuation {n : Nat} {lo hi : UInt8} {s : Bytes} {c : Char}
    (hlo : 0x82 ≤ lo.toNat) (hhi : hi.toNat < 0xc0)
    (h : (continuation (n + 2) lo hi 0 s).1 = some c) : c.toNat = 0 ∨ 0x80 ≤ c.toNat := by
  cases s with
  | nil => cases h
  | cons b rest =>
      rw [Utf8.continuation] at h
      split at h
      · next hb =>
          rw [Bool.and_eq_true, decide_eq_true_eq, decide_eq_true_eq, UInt8.le_iff_toNat_le,
            UInt8.le_iff_toNat_le] at hb
          have hbits : (b &&& 0x3f).toNat = b.toNat % 64 :=
            Nat.and_two_pow_sub_one_eq_mod b.toNat 6
          refine Grows.continuation ?_ h
          unfold Grows
          omega
      · cases h

/-- What starts with another byte is no character of ASCII, unless it is the
null character. -/
theorem le_of_next {b : UInt8} (hb : ¬ b < 0x80) {rest : Bytes} {c : Char}
    (h : (next b rest).1 = some c) : c.toNat = 0 ∨ 0x80 ≤ c.toNat := by
  have htwo : (b &&& 0x1f).toNat = b.toNat % 32 := Nat.and_two_pow_sub_one_eq_mod b.toNat 5
  have hthree : (b &&& 0xf).toNat = b.toNat % 16 := Nat.and_two_pow_sub_one_eq_mod b.toNat 4
  have hfour : (b &&& 0x7).toNat = b.toNat % 8 := Nat.and_two_pow_sub_one_eq_mod b.toNat 3
  have hrange : ∀ {lo hi : UInt8}, (lo ≤ b && b ≤ hi) = true →
      lo.toNat ≤ b.toNat ∧ b.toNat ≤ hi.toNat := by
    intro lo hi h
    rwa [Bool.and_eq_true, decide_eq_true_eq, decide_eq_true_eq, UInt8.le_iff_toNat_le,
      UInt8.le_iff_toNat_le] at h
  -- The leading byte decides how many bytes follow, and each of them makes the number grow.
  rw [next, if_neg hb] at h
  split at h
  · next hlead =>
      obtain ⟨hlo, hhi⟩ : 0xc2 ≤ b.toNat ∧ b.toNat ≤ 0xdf := hrange hlead
      exact Grows.continuation (.inr (.inl ⟨by omega, by omega⟩)) h
  split at h
  · exact le_of_first_continuation (by decide) (by decide) h
  split at h
  · exact Grows.continuation (.inr (.inl ⟨by omega, by omega⟩)) h
  split at h
  · next hlead =>
      obtain ⟨hlo, hhi⟩ : 0xe1 ≤ b.toNat ∧ b.toNat ≤ 0xef := hrange hlead
      exact Grows.continuation (.inr (.inr ⟨by omega, by omega⟩)) h
  split at h
  · exact le_of_first_continuation (by decide) (by decide) h
  split at h
  · exact Grows.continuation (.inr (.inl ⟨by omega, by omega⟩)) h
  split at h
  · next hlead =>
      obtain ⟨hlo, hhi⟩ : 0xf1 ≤ b.toNat ∧ b.toNat ≤ 0xf3 := hrange hlead
      exact Grows.continuation (.inr (.inr ⟨by omega, by omega⟩)) h
  · cases h

/-- A byte below 0x80 has the number of its character. -/
theorem toNat_ofNat_ascii {b : UInt8} (h : b < 0x80) : (Char.ofNat b.toNat).toNat = b.toNat := by
  have hlt : b.toNat < 0x80 := UInt8.lt_iff_toNat_lt.1 h
  have hvalid : b.toNat.isValidChar := .inl (by omega)
  rw [Char.ofNat, dif_pos hvalid]
  rfl

/-- A character of ASCII comes from its own byte. -/
theorem ascii_of_decode?_cons {b : UInt8} (hpos : 0 < b) (hb : b < 0x80) {s : Bytes}
    {text : List Char} (h : decode? s = some (Char.ofNat b.toNat :: text)) :
    ∃ rest, s = b :: rest ∧ decode? rest = some text := by
  have hchar := toNat_ofNat_ascii hb
  have hlow : 0 < b.toNat := UInt8.lt_iff_toNat_lt.1 hpos
  have hhigh : b.toNat < 0x80 := UInt8.lt_iff_toNat_lt.1 hb
  cases s with
  | nil =>
      rw [decode?_nil] at h
      cases h
  | cons b' rest =>
      -- A longer character could not be that of one byte.
      by_cases hb' : b' < 0x80
      · rw [decode?_ascii hb', Option.map_eq_some_iff] at h
        obtain ⟨text', hrest, heq⟩ := h
        obtain ⟨hc, rfl⟩ := List.cons.inj heq
        have hsame : b'.toNat = b.toNat := by rw [← toNat_ofNat_ascii hb', hc, hchar]
        rw [UInt8.toNat_inj.1 hsame]
        exact ⟨rest, rfl, hrest⟩
      · rw [decode?_cons] at h
        cases hnext : (next b' rest).1 with
        | none =>
            rw [hnext] at h
            cases h
        | some c =>
            rw [hnext, Option.bind_some, Option.map_eq_some_iff] at h
            obtain ⟨text', -, heq⟩ := h
            have hc := (List.cons.inj heq).1
            have hle := le_of_next hb' hnext
            rw [hc, hchar] at hle
            omega

/-- A text of ASCII begins bytes if it begins what they are read as. -/
theorem ascii_of_decode? {start : Bytes} (hstart : ∀ b ∈ start, 0 < b ∧ b < 0x80) {s : Bytes}
    {text : List Char}
    (h : decode? s = some (start.map (fun b => Char.ofNat b.toNat) ++ text)) :
    ∃ rest, s = start ++ rest ∧ decode? rest = some text := by
  induction start generalizing s with
  | nil => exact ⟨s, rfl, h⟩
  | cons b start ih =>
      obtain ⟨hpos, hb⟩ := hstart b (List.mem_cons_self ..)
      obtain ⟨rest, rfl, hrest⟩ := ascii_of_decode?_cons hpos hb h
      obtain ⟨rest', rfl, hrest'⟩ := ih (fun b' hb' => hstart b' (List.mem_cons_of_mem _ hb')) hrest
      exact ⟨rest', rfl, hrest'⟩

/-- Bytes that begin with a text of ASCII are read as beginning with it. -/
theorem decode?_append_ascii {start : Bytes} (hstart : ∀ b ∈ start, b < 0x80) (s : Bytes) :
    decode? (start ++ s)
      = (decode? s).map (start.map (fun b => Char.ofNat b.toNat) ++ ·) := by
  induction start with
  | nil =>
      rw [List.nil_append]
      cases decode? s with
      | none => rfl
      | some text => rfl
  | cons b start ih =>
      rw [List.cons_append, decode?_ascii (hstart b (List.mem_cons_self ..)),
        ih fun b' hb' => hstart b' (List.mem_cons_of_mem _ hb'), Option.map_map]
      rfl

end Utf8

-- ========================================================== beginnings

/-- Taken as long as it has a property, a text ends where the property
does, -/
theorem takeWhile_append_of_all {α : Type} {p : α → Bool} {s rest : List α}
    (h : ∀ b ∈ s, p b = true) (hrest : ∀ b ∈ rest.head?, p b = false) :
    (s ++ rest).takeWhile p = s := by
  rw [List.takeWhile_append_of_pos h]
  cases rest with
  | nil => exact List.append_nil s
  | cons b rest =>
      rw [List.takeWhile_cons_of_neg (by rw [hrest b rfl]; exact Bool.false_ne_true),
        List.append_nil]

/-- and the rest stands behind it. -/
theorem dropWhile_append_of_all {α : Type} {p : α → Bool} {s rest : List α}
    (h : ∀ b ∈ s, p b = true) (hrest : ∀ b ∈ rest.head?, p b = false) :
    (s ++ rest).dropWhile p = rest := by
  rw [List.dropWhile_append_of_pos h]
  cases rest with
  | nil => rfl
  | cons b rest =>
      exact List.dropWhile_cons_of_neg (by rw [hrest b rfl]; exact Bool.false_ne_true)

/-- A list is cut in front of the first member that ends a part. -/
theorem cut_append {α : Type} {p : α → Bool} {s rest : List α} (h : ∀ b ∈ s, p b = false)
    (hrest : ∀ b ∈ rest.head?, p b = true) :
    (s ++ rest).takeWhile (!p ·) = s ∧ (s ++ rest).dropWhile (!p ·) = rest := by
  have hinside : ∀ b ∈ s, (!p b) = true := fun b hb => by rw [h b hb, Bool.not_false]
  have hend : ∀ b ∈ rest.head?, (!p b) = false := fun b hb => by rw [hrest b hb, Bool.not_true]
  exact ⟨takeWhile_append_of_all hinside hend, dropWhile_append_of_all hinside hend⟩

/-- A text without the blanks at its end. -/
def trimRight (s : List Char) : List Char := (s.reverse.dropWhile isBlank).reverse

/-- Dropping stops at a character without the property, if not before. -/
theorem dropWhile_append_of_neg {p : Char → Bool} {c : Char} (hc : p c = false)
    (s rest : List Char) :
    (s ++ c :: rest).dropWhile p = s.dropWhile p ++ c :: rest := by
  induction s with
  | nil => exact List.dropWhile_cons_of_neg (by rw [hc]; exact Bool.false_ne_true)
  | cons d s ih =>
      rw [List.cons_append, List.dropWhile_cons, List.dropWhile_cons, ih]
      split
      · rfl
      · rfl

/-- What ends in something else than a blank stays. -/
theorem trimRight_append {c : Char} (hc : isBlank c = false) (start s : List Char) :
    trimRight (start ++ c :: s) = start ++ c :: trimRight s := by
  have hreverse : (start ++ c :: s).reverse = s.reverse ++ c :: start.reverse := by
    rw [List.reverse_append, List.reverse_cons, List.append_assoc]
    rfl
  rw [trimRight, hreverse, dropWhile_append_of_neg hc, List.reverse_append, List.reverse_cons,
    List.reverse_reverse, List.append_assoc]
  rfl

/-- What is missing is at the end. -/
theorem trimRight_append_rest (s : List Char) : ∃ rest, s = trimRight s ++ rest := by
  refine ⟨(s.reverse.takeWhile isBlank).reverse, ?_⟩
  rw [trimRight, ← List.reverse_append, List.takeWhile_append_dropWhile, List.reverse_reverse]

end TracedTransfer.Text
