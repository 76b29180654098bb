/-
Addresses are read back from their text.

The text of an IPv4 address is four decimal numbers between points, each
of which is read as it was written because none has a zero in front
(`Ipv4.parse?_text`).

The text of an IPv6 address is cut in two at the two colons that stand for
its first longest run of zeros. What stands on either side is groups
between single colons (`Ipv6.groups?_joined`), so the two colons are found
where they were put (`Ipv6.splitAtCut_joined`), and the groups that are
missing are those of the run (`Ipv6.parse?_text`).
-/
import Mathlib.Data.List.Basic
import TracedTransfer.Proofs.Json.Scalar
import TracedTransfer.Proofs.Text.Separator
import TracedTransfer.Url.Address

namespace TracedTransfer.Url

open Text

-- ============================================================== digits

/-- A digit is read as its value. -/
theorem digitValue?_digitChar {base d : Nat} (hbase : base ≤ 16) (h : d < base) :
    digitValue? base d.digitChar = some d := by
  have hall : ∀ d < 16, digitValue? 16 d.digitChar = some d := by decide
  have hd := hall d (by omega)
  simp only [digitValue?, Option.ite_none_right_eq_some, Option.some.injEq] at hd ⊢
  omega

/-- The digits of a number in any base denote it. -/
theorem ofDigits?_toDigits {base : Nat} (hone : 1 < base) (hbase : base ≤ 16) (n : Nat) :
    ofDigits? base (Nat.toDigits base n) = some n := by
  induction n using Nat.strongRecOn with
  | ind n ih =>
      rw [Nat.toDigits_eq_if hone]
      by_cases hlt : n < base
      · rw [if_pos hlt]
        show (some 0).bind (fun k => (digitValue? base n.digitChar).map (k * base + ·)) = some n
        rw [digitValue?_digitChar hbase hlt]
        simp
      · have hrest := ih (n / base) (Nat.div_lt_self (by omega) hone)
        have hmod : n % base < base := Nat.mod_lt n (by omega)
        rw [if_neg hlt]
        unfold ofDigits? at hrest ⊢
        rw [List.foldl_append, hrest, List.foldl_cons, List.foldl_nil, Option.bind_some,
          digitValue?_digitChar hbase hmod, Option.map_some, Nat.mul_comm, Nat.div_add_mod]

/-- The characters of digits in a base. -/
theorem mem_toDigits {base n : Nat} {c : Char} (hone : 1 < base) (h : c ∈ Nat.toDigits base n) :
    ∃ d < base, c = d.digitChar := by
  induction n using Nat.strongRecOn with
  | ind n ih =>
      rw [Nat.toDigits_eq_if hone] at h
      by_cases hlt : n < base
      · rw [if_pos hlt, List.mem_singleton] at h
        exact ⟨n, hlt, h⟩
      · rw [if_neg hlt] at h
        rcases List.mem_append.1 h with h | h
        · exact ih (n / base) (Nat.div_lt_self (by omega) hone) h
        · exact ⟨n % base, Nat.mod_lt n (by omega), List.mem_singleton.1 h⟩

/-- What can be read one by one can be read in a row. -/
theorem mapM_map_some {α β : Type} {f : β → Option α} {g : α → β} {xs : List α}
    (h : ∀ x ∈ xs, f (g x) = some x) : (xs.map g).mapM f = some xs := by
  induction xs with
  | nil => rfl
  | cons x xs ih =>
      rw [List.map_cons, List.mapM_cons, h x (List.mem_cons_self ..),
        ih fun y hy => h y (List.mem_cons_of_mem _ hy)]
      rfl

-- ================================================================ IPv4

namespace Ipv4

/-- A number that is written in decimals is read back: -/
theorem number?_decimal (n : Nat) : number? (decimal n) = some n := by
  have hbase : numberBase (decimal n) = (10, decimal n) := by
    unfold numberBase
    split
    all_goals try rfl
    all_goals
      next heq =>
        have hzero : n = 0 := Json.head?_decimal (by rw [heq]; rfl)
        rw [hzero] at heq
        cases heq
  unfold number?
  rw [if_neg (by simpa using Json.decimal_ne_nil n), hbase]
  exact Json.ofDigits?_decimal n

/-- there is no dot in it, -/
theorem dot_not_mem_decimal (n : Nat) : '.' ∉ decimal n := by
  intro h
  have := Json.isDigit_of_mem_decimal h
  cases this

/-- so the text of an address is cut into its four numbers, -/
theorem splitOn_text (a : Ipv4) : a.text.splitOn '.' = a.bytes.map decimal := by
  refine List.splitOn_intercalate '.' ?_ (by simp [bytes])
  intro l hl
  obtain ⟨n, -, rfl⟩ := List.mem_map.1 hl
  exact dot_not_mem_decimal n

/-- of which the last one is the lowest byte. -/
theorem getLast?_bytes (a : Ipv4) :
    (a.bytes.map decimal).getLast? = some (decimal (a.bits.toNat % 256)) := rfl

/-- The text of an address ends in a number. -/
theorem endsInNumber_text (a : Ipv4) : endsInNumber a.text = true := by
  have hne := Json.decimal_ne_nil (a.bits.toNat % 256)
  have hall : (decimal (a.bits.toNat % 256)).all Char.isDigit = true :=
    List.all_eq_true.2 fun c hc => Json.isDigit_of_mem_decimal hc
  unfold endsInNumber
  dsimp only
  rw [splitOn_text, getLast?_bytes, if_neg (by simpa using hne)]
  simp [hne, hall]

/-- The bytes of an address make it up again. -/
theorem ofNumbers?_bytes (a : Ipv4) : ofNumbers? a.bytes = some a := by
  have hbits := a.bits.toNat_lt
  have hleading : a.bytes.dropLast = [a.bits.toNat / 16777216, a.bits.toNat / 65536 % 256,
      a.bits.toNat / 256 % 256] := rfl
  have hlast : a.bytes.getLast? = some (a.bits.toNat % 256) := rfl
  have hrange : ¬ (255 < a.bits.toNat / 16777216 ∨ 255 < a.bits.toNat / 65536 % 256
      ∨ 255 < a.bits.toNat / 256 % 256 ∨ 256 ≤ a.bits.toNat % 256) := by omega
  have hsum : ((a.bits.toNat / 16777216 * 256 + a.bits.toNat / 65536 % 256) * 256
      + a.bits.toNat / 256 % 256) * 256 + a.bits.toNat % 256 = a.bits.toNat := by omega
  rw [ofNumbers?, hlast, hleading]
  simp only [List.length_cons, List.length_nil, List.any_cons, List.any_nil, List.foldl_cons,
    List.foldl_nil, Nat.zero_mul, Nat.zero_add, Nat.reduceAdd, Nat.reduceSub, Nat.pow_eq,
    Nat.pow_one]
  rw [if_neg (by simpa [or_assoc] using hrange), hsum, UInt32.ofNat_toNat]

/-- An address is read back from its text. -/
theorem parse?_text (a : Ipv4) : parse? a.text = some a := by
  have hparts : parts a.text = a.bytes.map decimal := by
    unfold parts
    dsimp only
    rw [splitOn_text, getLast?_bytes,
      if_neg (by simpa using Json.decimal_ne_nil (a.bits.toNat % 256))]
  rw [parse?, hparts, mapM_map_some fun n _ => number?_decimal n, Option.bind_some,
    ofNumbers?_bytes]

/-- An address is written in digits and dots. -/
theorem mem_text {a : Ipv4} {c : Char} (h : c ∈ a.text) : c = '.' ∨ c.isDigit = true := by
  refine (of_mem_intercalate h).imp id fun hpiece => ?_
  obtain ⟨l, hl, hc⟩ := hpiece
  obtain ⟨n, -, rfl⟩ := List.mem_map.1 hl
  exact Json.isDigit_of_mem_decimal hc

end Ipv4

-- ================================================================ IPv6

namespace Ipv6

/-- A group is written in hexadecimal digits, so no mark stands in it, -/
theorem mem_groupText {g : UInt16} {c : Char} (h : c ∈ groupText g) :
    c ≠ ':' ∧ c ≠ '.' := by
  obtain ⟨d, hd, rfl⟩ := mem_toDigits (by decide) h
  have hall : ∀ d < 16, d.digitChar ≠ ':' ∧ d.digitChar ≠ '.' := by decide
  exact hall d hd

/-- and in one at least. -/
theorem groupText_ne_nil (g : UInt16) : groupText g ≠ [] := Nat.toDigits_ne_nil

/-- A group is read back. -/
theorem group?_groupText (g : UInt16) : group? (groupText g) = some g := by
  have hlen : (groupText g).length ≤ 4 :=
    (Nat.length_toDigits_le_iff (by decide) (by decide)).2 g.toNat_lt
  unfold group?
  rw [if_neg (by simp [groupText_ne_nil g, hlen]), groupText,
    ofDigits?_toDigits (by decide) (by decide), Option.map_some, UInt16.ofNat_toNat]

/-- Groups are written with colons between them, -/
theorem joined_cons_cons (g g' : UInt16) (gs : List UInt16) :
    joined (g :: g' :: gs) = groupText g ++ ':' :: joined (g' :: gs) := by
  unfold joined
  rw [List.map_cons, List.map_cons, List.intercalate_cons_cons, List.append_assoc]
  rfl

/-- one of them by itself, -/
theorem joined_singleton (g : UInt16) : joined [g] = groupText g := by
  unfold joined
  rw [List.map_singleton, List.intercalate_singleton]

/-- and cut at the colons they are the groups again. -/
theorem splitOn_joined {gs : List UInt16} (h : gs ≠ []) :
    (joined gs).splitOn ':' = gs.map groupText := by
  refine List.splitOn_intercalate ':' ?_ (by simpa using h)
  intro l hl
  obtain ⟨g, -, rfl⟩ := List.mem_map.1 hl
  exact fun hmem => (mem_groupText hmem).1 rfl

/-- Joined groups begin with a digit. -/
theorem joined_begins {gs : List UInt16} (h : gs ≠ []) :
    ∃ c s, joined gs = c :: s ∧ c ≠ ':' := by
  have hdigit : ∀ g rest, ∃ c s, groupText g ++ rest = c :: s ∧ c ≠ ':' := by
    intro g rest
    cases hg : groupText g with
    | nil => exact absurd hg (groupText_ne_nil g)
    | cons c s =>
        exact ⟨c, s ++ rest, rfl, (mem_groupText (hg ▸ List.mem_cons_self ..)).1⟩
  cases gs with
  | nil => exact absurd rfl h
  | cons g gs =>
      cases gs with
      | nil =>
          rw [joined_singleton, ← List.append_nil (groupText g)]
          exact hdigit g []
      | cons g' gs =>
          rw [joined_cons_cons]
          exact hdigit g _

/-- Groups between single colons are read back. -/
theorem groups?_joined (tail : Bool) (gs : List UInt16) : groups? tail (joined gs) = some gs := by
  by_cases h : gs = []
  · rw [h]
    rfl
  · obtain ⟨c, s, hbegin, -⟩ := joined_begins h
    obtain ⟨last, hlast⟩ : ∃ g, gs.getLast? = some g :=
      ⟨gs.getLast h, List.getLast?_eq_some_getLast h⟩
    have hdots : (groupText last).contains '.' = false := by
      rw [List.contains_eq_mem, decide_eq_false_iff_not]
      exact fun hmem => (mem_groupText hmem).2 rfl
    unfold groups?
    rw [if_neg (by simp [hbegin])]
    dsimp only
    rw [splitOn_joined h, List.getLast?_map, hlast, Option.map_some]
    dsimp only
    rw [hdots, Bool.and_false, if_neg Bool.false_ne_true]
    exact mapM_map_some fun g _ => group?_groupText g

-- ---------------------------------------------------------- the cut

/-- The cut, two colons in a row, is not in what has no colon, -/
theorem splitAtCut_append {t : List Char} (ht : ':' ∉ t) (s : List Char) :
    splitAtCut (t ++ s) = (splitAtCut s).map fun p => (t ++ p.1, p.2) := by
  induction t with
  | nil => simp
  | cons a t ih =>
      have ha : a ≠ ':' := fun h => ht (h ▸ List.mem_cons_self ..)
      have hrest := ih fun h => ht (List.mem_cons_of_mem _ h)
      cases hts : t ++ s with
      | nil =>
          obtain ⟨rfl, rfl⟩ := List.append_eq_nil_iff.1 hts
          rfl
      | cons b r =>
          rw [List.cons_append, hts, splitAtCut, if_neg (by simp [ha]), ← hts, hrest,
            Option.map_map]
          rfl

/-- nor where another character stands behind one. -/
theorem splitAtCut_colon {c : Char} (hc : c ≠ ':') (s : List Char) :
    splitAtCut (':' :: c :: s) = (splitAtCut (c :: s)).map fun p => (':' :: p.1, p.2) := by
  rw [splitAtCut, if_neg (by simp [hc])]

/-- No two colons stand together among joined groups. -/
theorem splitAtCut_joined {gs : List UInt16} (h : gs ≠ []) (s : List Char) :
    splitAtCut (joined gs ++ s) = (splitAtCut s).map fun p => (joined gs ++ p.1, p.2) := by
  induction gs with
  | nil => exact absurd rfl h
  | cons g gs ih =>
      have hcolon : ':' ∉ groupText g := fun hmem => (mem_groupText hmem).1 rfl
      cases gs with
      | nil =>
          rw [joined_singleton]
          exact splitAtCut_append hcolon s
      | cons g' gs =>
          obtain ⟨c, r, hbegin, hc⟩ := joined_begins (List.cons_ne_nil g' gs)
          have hrest := ih (List.cons_ne_nil g' gs)
          rw [hbegin] at hrest
          rw [joined_cons_cons, List.append_assoc, splitAtCut_append hcolon, hbegin,
            List.cons_append, List.cons_append, splitAtCut_colon hc, ← List.cons_append, hrest,
            Option.map_map, Option.map_map]
          cases splitAtCut s with
          | none => rfl
          | some p => simp

/-- Two colons are found where they were put. -/
theorem splitAtCut_text (front back : List UInt16) :
    splitAtCut (joined front ++ "::".toList ++ joined back) = some (joined front, joined back) := by
  have hcut : splitAtCut ("::".toList ++ joined back) = some ([], joined back) := rfl
  rw [List.append_assoc]
  by_cases h : front = []
  · rw [h]
    exact hcut
  · rw [splitAtCut_joined h, hcut, Option.map_some, List.append_nil]

-- ---------------------------------------------------------- zero runs

/-- Zeros in front are counted. -/
theorem leadingZeros_spec (gs : List UInt16) :
    gs = List.replicate (leadingZeros gs) 0 ++ gs.drop (leadingZeros gs) := by
  have hzeros : gs.takeWhile (· == 0) = List.replicate (leadingZeros gs) 0 := by
    refine List.eq_replicate_of_mem fun g hg => ?_
    simpa using List.all_eq_true.1 (List.all_takeWhile (l := gs) (p := (· == 0))) g hg
  have hdrop : gs.drop (leadingZeros gs) = gs.dropWhile (· == 0) := by
    have h : (gs.takeWhile (· == 0) ++ gs.dropWhile (· == 0)).drop (leadingZeros gs)
        = gs.dropWhile (· == 0) := List.drop_left' rfl
    rwa [List.takeWhile_append_dropWhile] at h
  rw [hdrop, ← hzeros, List.takeWhile_append_dropWhile]

/-- The run that is found consists of zeros. -/
theorem longestZeroRun_spec (gs : List UInt16) :
    gs = gs.take (longestZeroRun gs).1 ++ List.replicate (longestZeroRun gs).2 0
      ++ gs.drop ((longestZeroRun gs).1 + (longestZeroRun gs).2) := by
  induction gs with
  | nil => rfl
  | cons g gs ih =>
      rw [longestZeroRun]
      dsimp only
      by_cases h : (longestZeroRun gs).2 ≤ leadingZeros (g :: gs)
      · rw [if_pos h]
        simpa using leadingZeros_spec (g :: gs)
      · rw [if_neg h]
        have hsum : (longestZeroRun gs).1 + 1 + (longestZeroRun gs).2
            = (longestZeroRun gs).1 + (longestZeroRun gs).2 + 1 := by omega
        rw [hsum, List.take_succ_cons, List.drop_succ_cons, List.cons_append, List.cons_append,
          ← ih]

theorem ofGroups?_groups (a : Ipv6) : ofGroups? a.groups = some a := by
  rw [ofGroups?, dif_pos a.length_eq]

/-- An address is read back from its text. -/
theorem parse?_text (a : Ipv6) : parse? a.text = some a := by
  have hne : a.groups ≠ [] := by
    intro h
    have := a.length_eq
    rw [h] at this
    cases this
  unfold text
  dsimp only
  by_cases hlen : (longestZeroRun a.groups).2 < 2
  · have hcut : splitAtCut (joined a.groups) = none := by
      have h := splitAtCut_joined hne []
      rwa [List.append_nil] at h
    rw [if_pos hlen, parse?, hcut]
    dsimp only
    rw [groups?_joined, Option.bind_some, ofGroups?_groups]
  · -- The groups on both sides and those of the run make eight.
    have hspec := longestZeroRun_spec a.groups
    have htotal := congrArg List.length hspec
    rw [List.length_append, List.length_append, List.length_replicate, a.length_eq] at htotal
    have hroom : (a.groups.take (longestZeroRun a.groups).1).length
        + (a.groups.drop ((longestZeroRun a.groups).1 + (longestZeroRun a.groups).2)).length
        ≤ 7 := by omega
    have hmissing : 8 - (a.groups.take (longestZeroRun a.groups).1).length
        - (a.groups.drop ((longestZeroRun a.groups).1 + (longestZeroRun a.groups).2)).length
        = (longestZeroRun a.groups).2 := by omega
    rw [if_neg hlen, parse?, splitAtCut_text]
    simp only [groups?_joined, bind, Option.bind]
    rw [if_pos hroom, hmissing, ← hspec, ofGroups?_groups]

/-- Groups are written in digits and colons, -/
theorem mem_joined {gs : List UInt16} {c : Char} (h : c ∈ joined gs) :
    c = ':' ∨ ∃ d < 16, c = d.digitChar := by
  refine (of_mem_intercalate h).imp id fun hpiece => ?_
  obtain ⟨l, hl, hc⟩ := hpiece
  obtain ⟨g, -, rfl⟩ := List.mem_map.1 hl
  exact mem_toDigits (by decide) hc

/-- and so is an address with a cut in it. -/
theorem mem_text {a : Ipv6} {c : Char} (h : c ∈ a.text) : c = ':' ∨ ∃ d < 16, c = d.digitChar := by
  unfold text at h
  dsimp only at h
  split at h
  · exact mem_joined h
  · rcases List.mem_append.1 h with h | h
    · rcases List.mem_append.1 h with h | h
      · exact mem_joined h
      · exact .inl (List.eq_of_mem_replicate (n := 2) h)
    · exact mem_joined h

end Ipv6

end TracedTransfer.Url
