/-
Punycode is read back.

A number is read back digit by digit, whatever follows it
(`readNumber_number`): a digit from its threshold on leaves the rest of
the number to the digits behind it.

Reader and writer walk through the same states, pairs of a code point and
a place in the text that stands so far; a state with a text of `count`
characters has the number `codePoint * (count + 1) + place`. The writer
counts the states it passes, and `Synced` says that its count is the
difference between where it is and where the reader stands. One walk over
the text keeps that (`pass_read`), and so does the step to the next code
point that occurs; after the last one the reader has the whole text
(`insertAll_read`).
-/
import Mathlib.Tactic.Ring
import TracedTransfer.Proofs.Text.Separator
import TracedTransfer.Url.Punycode

namespace TracedTransfer.Url.Punycode

open Text

-- ============================================================== numbers

theorem value?_digit {v : Nat} (h : v < 36) : value? (digit v) = some v := by
  have hall : ∀ v < 36, value? (digit v) = some v := by decide
  exact hall v h

/-- A number is read back, and nothing of what follows it. -/
theorem readNumber_number (bias : Nat) (rest : List Char) (n k weight acc : Nat) :
    readNumber bias k weight acc (number bias k n ++ rest) = some (acc + n * weight, rest) := by
  induction n using Nat.strongRecOn generalizing k weight acc with
  | ind n ih =>
      have hpos := threshold_pos bias k
      have hle := threshold_le bias k
      rw [number]
      split
      · rename_i hlt
        rw [List.singleton_append, readNumber, value?_digit (by omega)]
        simp [hlt]
      · rename_i hge
        have hmod : (n - threshold bias k) % (36 - threshold bias k) < 36 - threshold bias k :=
          Nat.mod_lt _ (by omega)
        have hdiv := Nat.div_add_mod (n - threshold bias k) (36 - threshold bias k)
        have hsmall : (n - threshold bias k) / (36 - threshold bias k) < n := by
          have := Nat.div_le_self (n - threshold bias k) (36 - threshold bias k)
          omega
        rw [List.cons_append, readNumber, value?_digit (by omega)]
        simp only [Option.bind_eq_bind, Option.bind_some]
        rw [if_neg (by omega), ih _ hsmall]
        -- the digit and the number behind it add up
        have hsum : threshold bias k + (n - threshold bias k) % (36 - threshold bias k)
            + (n - threshold bias k) / (36 - threshold bias k) * (36 - threshold bias k) = n := by
          rw [Nat.mul_comm] at hdiv
          omega
        generalize (n - threshold bias k) / (36 - threshold bias k) = q at hsum
        generalize (n - threshold bias k) % (36 - threshold bias k) = r at hsum
        generalize 36 - threshold bias k = w at hsum
        rw [← hsum]
        simp only [Option.some.injEq, Prod.mk.injEq, and_true]
        ring

-- =============================================================== states

/-- Reader and writer are together: what the writer has counted since the reader's state `(n, i)`
leads to `(m, pos)`, with `count` characters standing. -/
def Synced (count delta n i m pos : Nat) : Prop :=
  delta + i + n * (count + 1) = m * (count + 1) + pos

variable {count delta n i m pos : Nat}

/-- From the count the reader gets where the writer is. -/
theorem Synced.place (h : Synced count delta n i m pos) (hpos : pos ≤ count) :
    n + (i + delta) / (count + 1) = m ∧ (i + delta) % (count + 1) = pos := by
  unfold Synced at h
  have hsum : (i + delta) + n * (count + 1) = pos + m * (count + 1) := by omega
  have hdiv : (i + delta) / (count + 1) + n = m := by
    rw [← Nat.add_mul_div_right _ _ (Nat.succ_pos count), hsum,
      Nat.add_mul_div_right _ _ (Nat.succ_pos count), Nat.div_eq_of_lt (Nat.lt_succ_of_le hpos),
      Nat.zero_add]
  have hmod : (i + delta) % (count + 1) = pos := by
    rw [← Nat.add_mul_mod_self_right (i + delta) n (count + 1), hsum, Nat.add_mul_mod_self_right,
      Nat.mod_eq_of_lt (Nat.lt_succ_of_le hpos)]
  exact ⟨by omega, hmod⟩

/-- The characters of a text below a code point. -/
def below (m : Nat) (s : List Char) : List Char := s.filter fun c => c.toNat < m

theorem below_append (m : Nat) (s t : List Char) : below m (s ++ t) = below m s ++ below m t :=
  List.filter_append ..

theorem below_cons_of_lt {m : Nat} {c : Char} (h : c.toNat < m) (s : List Char) :
    below m (c :: s) = c :: below m s :=
  List.filter_cons_of_pos (decide_eq_true h)

theorem below_cons_of_le {m : Nat} {c : Char} (h : m ≤ c.toNat) (s : List Char) :
    below m (c :: s) = below m s :=
  List.filter_cons_of_neg (ne_true_of_eq_false (decide_eq_false (Nat.not_lt.2 h)))

theorem below_append_of_lt {m : Nat} {c : Char} (h : c.toNat < m) (s : List Char) :
    below m (s ++ [c]) = below m s ++ [c] := by
  rw [below_append, below_cons_of_lt h]
  rfl

theorem below_append_of_le {m : Nat} {c : Char} (h : m ≤ c.toNat) (s : List Char) :
    below m (s ++ [c]) = below m s := by
  rw [below_append, below_cons_of_le h]
  exact List.append_nil _

/-- One character of the input is read back with what it makes the writer write. -/
theorem readInsertions_number {acc : List Char} {bias : Nat} {first : Bool}
    (h : Synced acc.length delta n i m pos) (hpos : pos ≤ acc.length) (hm : m.isValidChar)
    (rest : List Char) :
    readInsertions acc n i bias first (number bias 36 delta ++ rest)
      = readInsertions (acc.take pos ++ Char.ofNat m :: acc.drop pos) m (pos + 1)
          (adapt delta (acc.length + 1) first) false rest := by
  obtain ⟨hcode, hplace⟩ := h.place hpos
  have hread := readNumber_number bias rest delta 36 1 0
  rw [Nat.zero_add, Nat.mul_one] at hread
  cases hs : number bias 36 delta ++ rest with
  | nil =>
      rw [hs] at hread
      cases hread
  | cons c t =>
      rw [hs] at hread
      rw [readInsertions.eq_def]
      dsimp only
      split
      · rename_i heq
        rw [hread] at heq
        cases heq
      · rename_i heq
        rw [hread] at heq
        cases heq
        rw [hcode, hplace, if_pos hm]

/-- Where the reader is when it has read what has been written. -/
structure Reader where
  acc : List Char
  n : Nat
  i : Nat

/-- The reader has what stands of a text, and the writer is at a place of it for the code point
`m`. -/
structure Along (w : Writer) (r : Reader) (m : Nat) (before after : List Char) : Prop where
  /-- The writer has counted what the reader has read, -/
  count : w.count = r.acc.length
  /-- which is all up to the code point before this place and all below it behind. -/
  acc : r.acc = below (m + 1) before ++ below m after
  /-- The writer is ahead by what it has still to write. -/
  synced : Synced r.acc.length w.delta r.n r.i m (below (m + 1) before).length

/-- What is written from one state of the writer to another is read from one state of the reader to
another. -/
def Reads (w w' : Writer) (r r' : Reader) : Prop :=
  ∃ out, w'.written = w.written ++ out ∧ ∀ rest,
    readInsertions r.acc r.n r.i w.bias w.first (out ++ rest)
      = readInsertions r'.acc r'.n r'.i w'.bias w'.first rest

theorem Reads.refl {w w' : Writer} (r : Reader) (hwritten : w'.written = w.written)
    (hbias : w'.bias = w.bias) (hfirst : w'.first = w.first) : Reads w w' r r :=
  ⟨[], by rw [hwritten, List.append_nil], fun rest => by rw [hbias, hfirst, List.nil_append]⟩

/-- What two writers add is read by the one reader after the other. -/
theorem Reads.trans {w₁ w₂ w₃ : Writer} {r₁ r₂ r₃ : Reader} (h : Reads w₁ w₂ r₁ r₂)
    (h' : Reads w₂ w₃ r₂ r₃) : Reads w₁ w₃ r₁ r₃ := by
  obtain ⟨out, hwritten, hread⟩ := h
  obtain ⟨out', hwritten', hread'⟩ := h'
  refine ⟨out ++ out', by rw [hwritten', hwritten, List.append_assoc], fun rest => ?_⟩
  rw [List.append_assoc, hread, hread']

section Passing

variable {w : Writer} {r : Reader} {before after : List Char} {c : Char}

/-- The writer passes a character that stands already. -/
theorem Along.stands (h : Along w r m before (c :: after)) (hlt : c.toNat < m) :
    Along (w.pass m c) r m (before ++ [c]) after ∧ Reads w (w.pass m c) r r := by
  obtain ⟨hcount, hacc, hsynced⟩ := h
  have hbefore : below (m + 1) (before ++ [c]) = below (m + 1) before ++ [c] :=
    below_append_of_lt (Nat.lt_succ_of_lt hlt) before
  have hafter := below_cons_of_lt hlt after
  have hpass : w.pass m c = { w with delta := w.delta + 1 } := if_pos hlt
  rw [hpass]
  refine ⟨⟨hcount, ?_, ?_⟩, Reads.refl r rfl rfl rfl⟩
  · rw [hacc, hbefore, hafter, List.append_assoc]
    rfl
  · show w.delta + 1 + r.i + r.n * (r.acc.length + 1) = _
    unfold Synced at hsynced
    rw [hbefore, List.length_append, List.length_singleton]
    omega

/-- The writer passes a character that is inserted. -/
theorem Along.inserts (h : Along w r m before (c :: after)) (heq : c.toNat = m) :
    ∃ r', Along (w.pass m c) r' m (before ++ [c]) after ∧ Reads w (w.pass m c) r r' := by
  obtain ⟨hcount, hacc, hsynced⟩ := h
  rw [below_cons_of_le (Nat.le_of_eq heq.symm)] at hacc
  have hbefore : below (m + 1) (before ++ [c]) = below (m + 1) before ++ [c] :=
    below_append_of_lt (Nat.lt_succ_of_le (Nat.le_of_eq heq)) before
  -- The character is the least that is still missing, so it is written now, as the distance
  -- from the last one.
  have hpass : w.pass m c = ⟨0, adapt w.delta (w.count + 1) w.first, w.count + 1, false,
      w.written ++ number w.bias 36 w.delta⟩ := by
    rw [Writer.pass, if_neg (Nat.not_lt.2 (Nat.le_of_eq heq.symm)), if_pos heq]
  rw [hpass]
  refine ⟨⟨below (m + 1) before ++ c :: below m after, m, (below (m + 1) before).length + 1⟩,
    ⟨?_, ?_, ?_⟩, ?_⟩
  · rw [hcount, hacc]
    simp
    omega
  · rw [hbefore, List.append_assoc]
    rfl
  · show 0 + ((below (m + 1) before).length + 1)
        + m * ((below (m + 1) before ++ c :: below m after).length + 1) = _
    rw [hbefore, Nat.zero_add, Nat.add_comm, List.length_append,
      List.length_append, List.length_singleton]
  · refine ⟨number w.bias 36 w.delta, rfl, fun rest => ?_⟩
    have hpos : (below (m + 1) before).length ≤ r.acc.length := by
      rw [hacc]
      simp
    have hvalid : m.isValidChar := heq ▸ c.valid
    have hchar : Char.ofNat m = c := by rw [← heq, Char.ofNat_toNat]
    rw [readInsertions_number hsynced hpos hvalid, hchar, hcount, hacc, List.take_left,
      List.drop_left]

/-- The writer passes a character that is for later. -/
theorem Along.waits (h : Along w r m before (c :: after)) (hgt : m < c.toNat) :
    Along (w.pass m c) r m (before ++ [c]) after ∧ Reads w (w.pass m c) r r := by
  obtain ⟨hcount, hacc, hsynced⟩ := h
  rw [below_cons_of_le (Nat.le_of_lt hgt)] at hacc
  have hbefore := below_append_of_le hgt before
  have hpass : w.pass m c = w := by
    rw [Writer.pass, if_neg (Nat.lt_asymm hgt), if_neg (Nat.ne_of_gt hgt)]
  rw [hpass]
  refine ⟨⟨hcount, ?_, ?_⟩, Reads.refl r rfl rfl rfl⟩
  · rw [hacc, hbefore]
  · unfold Synced
    rw [hbefore]
    exact hsynced

/-- The writer passes one character. -/
theorem pass_step (h : Along w r m before (c :: after)) :
    ∃ r', Along (w.pass m c) r' m (before ++ [c]) after ∧ Reads w (w.pass m c) r r' := by
  rcases Nat.lt_trichotomy c.toNat m with hlt | heq | hgt
  · exact ⟨r, h.stands hlt⟩
  · exact h.inserts heq
  · exact ⟨r, h.waits hgt⟩

end Passing

/-- The writer passes a text. -/
theorem pass_read {w : Writer} {r : Reader} (before after : List Char)
    (h : Along w r m before after) :
    ∃ r', Along (after.foldl (Writer.pass m) w) r' m (before ++ after) []
      ∧ Reads w (after.foldl (Writer.pass m) w) r r' := by
  induction after generalizing w r before with
  | nil => exact ⟨r, by simpa using h, Reads.refl r rfl rfl rfl⟩
  | cons c after ih =>
      obtain ⟨r₁, halong, hreads⟩ := pass_step h
      obtain ⟨r₂, halong', hreads'⟩ := ih (before ++ [c]) halong
      refine ⟨r₂, ?_, hreads.trans hreads'⟩
      rwa [List.append_assoc, List.singleton_append] at halong'

-- ======================================================== rising points

/-- A rising list that has every code point of a text from `n` on. -/
structure Covers (s : List Char) (n : Nat) (points : List Nat) : Prop where
  /-- None of them is below the bound, -/
  low : ∀ m ∈ points, n ≤ m
  /-- each is above the one before, -/
  rising : points.Pairwise (· < ·)
  /-- and all that occur from there on are among them. -/
  all : ∀ c ∈ s, n ≤ c.toNat → c.toNat ∈ points

/-- Without repeats a rising list rises in each step. -/
theorem rising_eraseDups {l : List Nat} (h : l.Pairwise (· ≤ ·)) :
    l.eraseDups.Pairwise (· < ·) := by
  induction hn : l.length using Nat.strongRecOn generalizing l with
  | ind n ih =>
      cases l with
      | nil => rw [List.eraseDups_nil]; exact .nil
      | cons a l =>
          obtain ⟨hfirst, hrest⟩ := List.pairwise_cons.1 h
          have hshort : (l.filter fun b => !b == a).length < n := by
            have := List.length_filter_le (fun b => !b == a) l
            rw [List.length_cons] at hn
            omega
          rw [List.eraseDups_cons]
          refine .cons (fun b hb => ?_) (ih _ hshort (hrest.filter _) rfl)
          obtain ⟨hmem, hne⟩ := List.mem_filter.1 (List.mem_eraseDups.1 hb)
          have := hfirst b hmem
          simp only [Bool.not_eq_true', beq_eq_false_iff_ne, ne_eq] at hne
          omega

/-- The wide characters of a text are all of those at 0x80 and above. -/
theorem covers_wideCodePoints (s : List Char) : Covers s 0x80 (wideCodePoints s) := by
  have hmem : ∀ m, m ∈ wideCodePoints s ↔ (∃ c ∈ s, c.toNat = m) ∧ 0x80 ≤ m := by
    intro m
    unfold wideCodePoints
    rw [List.mem_eraseDups, List.mem_mergeSort, List.mem_filter, List.mem_map, decide_eq_true_eq]
  refine ⟨fun m hm => ((hmem m).1 hm).2, ?_, fun c hc hwide => (hmem _).2 ⟨⟨c, hc, rfl⟩, hwide⟩⟩
  refine rising_eraseDups ?_
  have htrans : ∀ a b c : Nat, decide (a ≤ b) = true → decide (b ≤ c) = true →
      decide (a ≤ c) = true := by
    simp only [decide_eq_true_eq]
    omega
  have htotal : ∀ a b : Nat, (decide (a ≤ b) || decide (b ≤ a)) = true := by
    simp only [Bool.or_eq_true, decide_eq_true_eq]
    omega
  exact (List.pairwise_mergeSort htrans htotal _).imp of_decide_eq_true

-- ============================================================ whole text

/-- The writer and the reader are in front of the code points from `n` on. -/
structure Before (s : List Char) (w : Writer) (r : Reader) (n : Nat) : Prop where
  /-- The writer has counted what the reader has read, -/
  count : w.count = r.acc.length
  /-- which is all below the code point, -/
  acc : r.acc = below n s
  /-- and is ahead by what it has still to write. -/
  synced : Synced r.acc.length w.delta r.n r.i n 0

/-- Where no character lies between two bounds, the same characters are below them. -/
theorem below_of_gap {s : List Char} {m n : Nat} (hle : n ≤ m)
    (h : ∀ c ∈ s, n ≤ c.toNat → m ≤ c.toNat) : below n s = below m s := by
  refine List.filter_congr fun c hc => ?_
  have := h c hc
  simp only [decide_eq_decide]
  omega

section Insertions

variable {s : List Char} {points : List Nat} {n : Nat} {w : Writer} {r : Reader}

/-- Nothing stands between the code points of a rising list. -/
theorem Covers.gap (h : Covers s n (m :: points)) : ∀ c ∈ s, n ≤ c.toNat → m ≤ c.toNat := by
  obtain ⟨hfirst, -⟩ := List.pairwise_cons.1 h.rising
  intro c hc hn
  rcases List.mem_cons.1 (h.all c hc hn) with heq | hmem
  · exact Nat.le_of_eq heq.symm
  · exact Nat.le_of_lt (hfirst _ hmem)

/-- Behind the first point the others cover what is above it. -/
theorem Covers.tail (h : Covers s n (m :: points)) : Covers s (m + 1) points := by
  obtain ⟨hlow, hrising, hall⟩ := h
  obtain ⟨hfirst, hrest⟩ := List.pairwise_cons.1 hrising
  have hle : n ≤ m := hlow m (List.mem_cons_self ..)
  refine ⟨fun x hx => hfirst x hx, hrest, fun c hc hm => ?_⟩
  rcases List.mem_cons.1 (hall c hc (by omega)) with heq | hmem
  · omega
  · exact hmem

/-- The writer counts the states up to the next code point of the text. -/
theorem Before.along (h : Before s w r n) (hle : n ≤ m)
    (hgap : ∀ c ∈ s, n ≤ c.toNat → m ≤ c.toNat) :
    Along { w with delta := w.delta + (m - n) * (w.count + 1) } r m [] s := by
  obtain ⟨hcount, hacc, hsynced⟩ := h
  refine ⟨hcount, by rw [hacc, below_of_gap hle hgap]; rfl, ?_⟩
  obtain ⟨d, rfl⟩ := Nat.exists_eq_add_of_le hle
  show w.delta + (n + d - n) * (w.count + 1) + r.i + r.n * (r.acc.length + 1)
    = (n + d) * (r.acc.length + 1) + 0
  unfold Synced at hsynced
  rw [hcount, Nat.add_sub_cancel_left, Nat.add_mul]
  omega

/-- At the end of the text the writer counts one more state. -/
theorem Along.before (h : Along w r m s []) :
    Before s { w with delta := w.delta + 1 } r (m + 1) := by
  obtain ⟨hcount, hacc, hsynced⟩ := h
  rw [show below m [] = [] from rfl, List.append_nil] at hacc
  refine ⟨hcount, hacc, ?_⟩
  rw [← hacc] at hsynced
  unfold Synced at hsynced
  show w.delta + 1 + r.i + r.n * (r.acc.length + 1) = (m + 1) * (r.acc.length + 1) + 0
  rw [Nat.add_mul]
  omega

/-- After the last code point the reader has the whole text. -/
theorem insertAll_read (hcovers : Covers s n points) (h : Before s w r n) :
    ∃ r', r'.acc = s ∧ Reads w (Writer.insertAll s w n points) r r' := by
  induction points generalizing n w r with
  | nil =>
      refine ⟨r, ?_, Reads.refl r rfl rfl rfl⟩
      rw [h.acc]
      refine List.filter_eq_self.2 fun c hc => decide_eq_true ?_
      have := hcovers.all c hc
      exact Nat.lt_of_not_le fun hle => List.not_mem_nil (this hle)
  | cons m points ih =>
      have hle : n ≤ m := hcovers.low m (List.mem_cons_self ..)
      obtain ⟨r₁, halong, hreads₁⟩ := pass_read [] s (h.along hle hcovers.gap)
      rw [Writer.insertAll]
      generalize s.foldl (Writer.pass m) { w with delta := w.delta + (m - n) * (w.count + 1) } = w₁
        at halong hreads₁ ⊢
      obtain ⟨r₂, hacc, hreads₂⟩ := ih hcovers.tail halong.before
      -- between the passes the writer only counts
      have hstart : Reads w { w with delta := w.delta + (m - n) * (w.count + 1) } r r :=
        .refl r rfl rfl rfl
      have hstep : Reads w₁ { w₁ with delta := w₁.delta + 1 } r₁ r₁ := .refl r₁ rfl rfl rfl
      exact ⟨r₂, hacc, ((hstart.trans hreads₁).trans hstep).trans hreads₂⟩

end Insertions

-- ======================================================== what is written

/-- A text of digits. -/
def AllDigits (s : List Char) : Prop := ∀ c ∈ s, ∃ v < 36, c = digit v

/-- Digits behind digits. -/
theorem AllDigits.append {s t : List Char} (hs : AllDigits s) (ht : AllDigits t) :
    AllDigits (s ++ t) := by
  intro c hc
  rcases List.mem_append.1 hc with hc | hc
  · exact hs c hc
  · exact ht c hc

/-- A number is written in digits, -/
theorem allDigits_number (bias k n : Nat) : AllDigits (number bias k n) := by
  induction n using Nat.strongRecOn generalizing k with
  | ind n ih =>
      have hpos := threshold_pos bias k
      have hle := threshold_le bias k
      rw [number]
      split
      · rename_i hlt
        intro c hc
        exact ⟨n, by omega, List.mem_singleton.1 hc⟩
      · rename_i hge
        have hmod : (n - threshold bias k) % (36 - threshold bias k) < 36 - threshold bias k :=
          Nat.mod_lt _ (by omega)
        have hdiv := Nat.div_le_self (n - threshold bias k) (36 - threshold bias k)
        intro c hc
        rcases List.mem_cons.1 hc with rfl | hc
        · exact ⟨_, by omega, rfl⟩
        · exact ih _ (by omega) _ c hc

/-- so all insertions are. -/
theorem allDigits_insertAll {s : List Char} {points : List Nat} {n : Nat} {w : Writer}
    (h : AllDigits w.written) : AllDigits (Writer.insertAll s w n points).written := by
  have hpass : ∀ (m : Nat) (w : Writer) (c : Char), AllDigits w.written →
      AllDigits (w.pass m c).written := by
    intro m w c h
    unfold Writer.pass
    split
    · exact h
    · split
      · exact h.append (allDigits_number _ _ _)
      · exact h
  have hfold : ∀ (m : Nat) (t : List Char) (w : Writer), AllDigits w.written →
      AllDigits (t.foldl (Writer.pass m) w).written := by
    intro m t
    induction t with
    | nil => exact fun _ h => h
    | cons c t ih => exact fun w h => ih _ (hpass m w c h)
  induction points generalizing n w with
  | nil => exact h
  | cons m points ih => exact ih (hfold m s _ h)

/-- The digits that follow the ASCII characters of a text. -/
def digitsOf (s : List Char) : List Char :=
  (Writer.insertAll s ⟨0, 72, (basic s).length, true, []⟩ 0x80 (wideCodePoints s)).written

/-- What stands behind the last hyphen is written in digits. -/
theorem allDigits_digitsOf (s : List Char) : AllDigits (digitsOf s) :=
  allDigits_insertAll fun _ h => (List.not_mem_nil h).elim

/-- A label is written as its narrow characters, a hyphen if there are any, and the insertions of
the others. -/
theorem encode_eq (s : List Char) :
    encode s = (if (basic s).isEmpty then [] else basic s ++ ['-']) ++ digitsOf s := rfl

/-- To read the insertions into the narrow characters gives the label back. -/
theorem readInsertions_digitsOf (s : List Char) :
    readInsertions (basic s) 0x80 0 72 true (digitsOf s) = some s := by
  have hbefore : Before s ⟨0, 72, (basic s).length, true, []⟩ ⟨basic s, 0x80, 0⟩ 0x80 := by
    refine ⟨rfl, rfl, ?_⟩
    show 0 + 0 + 0x80 * ((basic s).length + 1) = 0x80 * ((basic s).length + 1) + 0
    omega
  obtain ⟨r, hacc, out, hwritten, hread⟩ := insertAll_read (covers_wideCodePoints s) hbefore
  have hout : digitsOf s = out := hwritten
  have := hread []
  rw [List.append_nil] at this
  rw [hout, this, hacc]
  rw [readInsertions]

/-- A text with a character outside ASCII has digits. -/
theorem digitsOf_ne_nil {s : List Char} {c : Char} (hc : c ∈ s) (hwide : 0x80 ≤ c.toNat) :
    digitsOf s ≠ [] := by
  intro h
  have hread := readInsertions_digitsOf s
  rw [h, readInsertions] at hread
  have hmem : c ∈ basic s := by rwa [Option.some.inj hread]
  have := of_decide_eq_true (List.mem_filter.1 hmem).2
  omega

/-- A digit is a small letter or a figure, so lower case keeps it and no mark is taken for it. -/
theorem digit_plain {v : Nat} (h : v < 36) :
    digit v ≠ '-' ∧ digit v ≠ '.' ∧ (digit v).toNat < 0x80 ∧ (digit v).toLower = digit v := by
  have hall : ∀ v < 36, digit v ≠ '-' ∧ digit v ≠ '.' ∧ (digit v).toNat < 0x80
      ∧ (digit v).toLower = digit v := by decide
  exact hall v h

/-- No hyphen is a digit, -/
theorem hyphen_not_mem_digitsOf (s : List Char) : '-' ∉ digitsOf s := by
  intro h
  obtain ⟨v, hv, heq⟩ := allDigits_digitsOf s _ h
  exact (digit_plain hv).1 heq.symm

/-- so the last hyphen parts the narrow characters from the insertions. -/
theorem splitBasic_encode (s : List Char) : splitBasic (encode s) = (basic s, digitsOf s) := by
  have hdigits : '-' ∉ (digitsOf s).reverse := fun h =>
    hyphen_not_mem_digitsOf s (List.mem_reverse.1 h)
  unfold splitBasic
  by_cases hbasic : basic s = []
  · have hencode : encode s = digitsOf s := by
      rw [encode_eq, hbasic]
      rfl
    rw [hencode, splitOnce_eq_none hdigits, hbasic]
  · have hencode : encode s = basic s ++ ['-'] ++ digitsOf s := by
      rw [encode_eq, if_neg (by simpa using hbasic)]
    have hreverse : (encode s).reverse = (digitsOf s).reverse ++ '-' :: (basic s).reverse := by
      simp [hencode]
    rw [hreverse, splitOnce_append hdigits]
    dsimp only
    rw [if_neg (by simpa using hbasic), List.reverse_reverse, List.reverse_reverse]

/-- A text is read back from its written form. -/
theorem decode?_encode (s : List Char) : decode? (encode s) = some s := by
  unfold decode?
  rw [splitBasic_encode]
  exact readInsertions_digitsOf s

/-- What a written form consists of. -/
theorem mem_encode {s : List Char} {c : Char} (h : c ∈ encode s) :
    (c ∈ s ∧ c.toNat < 0x80) ∨ c = '-' ∨ ∃ v < 36, c = digit v := by
  rw [encode_eq] at h
  rcases List.mem_append.1 h with h | h
  · have hfront : c ∈ basic s ++ ['-'] := by
      split at h
      · exact (List.not_mem_nil h).elim
      · exact h
    rcases List.mem_append.1 hfront with h | h
    · obtain ⟨hmem, hascii⟩ := List.mem_filter.1 h
      exact .inl ⟨hmem, of_decide_eq_true hascii⟩
    · exact .inr (.inl (List.mem_singleton.1 h))
  · exact .inr (.inr (allDigits_digitsOf s c h))

/-- The last character of a written form is a digit. -/
theorem getLast?_encode {s : List Char} {c : Char} (hc : c ∈ s) (hwide : 0x80 ≤ c.toNat) :
    (encode s).getLast? ≠ some '-' := by
  intro h
  rw [encode_eq, List.getLast?_append_of_ne_nil _ (digitsOf_ne_nil hc hwide)] at h
  exact hyphen_not_mem_digitsOf s (List.mem_of_getLast? h)

end TracedTransfer.Url.Punycode
