/-
Which number a text is read as.

Digits denote the number that they have in the base of ten (`ofDigits?_eq_some_iff`, by induction
from the last digit, as the number grows). An unsigned number is digits, at
least one, with a plus sign before them or none, of a number below the
bound (`unsigned?_eq_some_iff`).
-/
import Mathlib.Data.List.Induction
import Mathlib.Data.Nat.Digits.Defs
import TracedTransfer.Proofs.Text.Letter

namespace TracedTransfer.Text

/-- A figure is one of ten characters in a row, -/
theorem isDigit_iff {c : Char} : c.isDigit = true ↔ 0x30 ≤ c.toNat ∧ c.toNat ≤ 0x39 := by
  have h0 : '0'.val.toNat = 0x30 := rfl
  have h9 : '9'.val.toNat = 0x39 := rfl
  have hc : c.toNat = c.val.toNat := rfl
  simp only [Char.isDigit, Bool.and_eq_true, decide_eq_true_eq, ge_iff_le, UInt32.le_iff_toNat_le]
  omega

/-- and its value is its place among them. -/
theorem digitValue?_ten {c : Char} {d : Nat} :
    digitValue? 10 c = some d ↔ c.isDigit = true ∧ d = c.toNat - 0x30 := by
  rw [isDigit_iff]
  unfold digitValue?
  simp only [Bool.and_eq_true, decide_eq_true_eq]
  split_ifs <;> simp only [Option.some.injEq, false_iff] <;> omega

/-- The number that decimal digits denote, of the last digit the least. -/
def decimalValue (digits : List Char) : Nat :=
  Nat.ofDigits 10 (digits.reverse.map fun c => c.toNat - 0x30)

/-- One more figure counts for itself and moves the others up by one place. -/
theorem decimalValue_concat (s : List Char) (c : Char) :
    decimalValue (s ++ [c]) = decimalValue s * 10 + (c.toNat - 0x30) := by
  unfold decimalValue
  rw [List.reverse_append, List.reverse_singleton, List.singleton_append, List.map_cons,
    Nat.ofDigits_cons]
  omega

/-- Figures are read as their value, and nothing else is. -/
theorem ofDigits?_eq_some_iff {s : List Char} {n : Nat} :
    ofDigits? 10 s = some n ↔ (∀ c ∈ s, c.isDigit = true) ∧ n = decimalValue s := by
  induction s using List.reverseRecOn generalizing n with
  | nil =>
      show some 0 = some n ↔ _
      rw [Option.some.injEq, eq_comm, and_iff_right (List.forall_mem_nil _)]
      rfl
  | append_singleton s c ih =>
      have hstep : ofDigits? 10 (s ++ [c])
          = (ofDigits? 10 s).bind fun n => (digitValue? 10 c).map (n * 10 + ·) := by
        unfold ofDigits?
        rw [List.foldl_append]
        rfl
      rw [hstep, decimalValue_concat, List.forall_mem_append, List.forall_mem_singleton]
      simp only [Option.bind_eq_some_iff, Option.map_eq_some_iff, digitValue?_ten, ih]
      constructor
      · rintro ⟨m, ⟨hs, rfl⟩, d, ⟨hc, rfl⟩, rfl⟩
        exact ⟨⟨hs, hc⟩, rfl⟩
      · rintro ⟨⟨hs, hc⟩, rfl⟩
        exact ⟨_, ⟨hs, rfl⟩, _, ⟨hc, rfl⟩, rfl⟩

/-- A text denotes a number: decimal digits, at least one, a plus sign before them or none. -/
def Denotes (s : List Char) (n : Nat) : Prop :=
  ∃ digits, (s = digits ∨ s = '+' :: digits) ∧ digits ≠ [] ∧ (∀ c ∈ digits, c.isDigit = true)
    ∧ n = decimalValue digits

/-- A number is read from a text that denotes it, if it is below the bound. -/
theorem unsigned?_eq_some_iff {bound : Nat} {s : List Char} {n : Nat} :
    unsigned? bound s = some n ↔ Denotes s n ∧ n < bound := by
  -- The sign goes if it is there; digits do not begin with one.
  obtain ⟨digits, hdigits, hsigned⟩ : ∃ digits, (stripStart? ['+'] s).getD s = digits
      ∧ (s = digits ∧ digits.head? ≠ some '+' ∨ s = '+' :: digits) := by
    refine ⟨_, rfl, ?_⟩
    cases hstrip : stripStart? ['+'] s with
    | some rest => exact .inr (eq_append_of_stripStart? hstrip)
    | none =>
        refine .inl ⟨rfl, fun hplus => ?_⟩
        obtain ⟨rest, rfl⟩ := List.head?_eq_some_iff.1 hplus
        cases hstrip
  have hdenotes : Denotes s n
      ↔ digits ≠ [] ∧ (∀ c ∈ digits, c.isDigit = true) ∧ n = decimalValue digits := by
    constructor
    · rintro ⟨digits', hs, hne, hall, hn⟩
      have hsame : digits' = digits := by
        rcases hs with rfl | rfl <;> rcases hsigned with ⟨rfl, hplus⟩ | hsigned
        · rfl
        · rw [hsigned] at hall
          exact absurd (hall '+' (List.mem_cons_self ..)) (by decide)
        · exact absurd rfl hplus
        · exact (List.cons.inj hsigned).2
      subst hsame
      exact ⟨hne, hall, hn⟩
    · rintro ⟨hne, hall, hn⟩
      exact ⟨digits, hsigned.imp And.left id, hne, hall, hn⟩
  rw [unsigned?, hdigits, hdenotes]
  by_cases hempty : digits = []
  · simp [hempty]
  · rw [if_neg (by simpa using hempty), Option.filter_eq_some_iff, ofDigits?_eq_some_iff,
      decide_eq_true_eq]
    tauto

end TracedTransfer.Text
