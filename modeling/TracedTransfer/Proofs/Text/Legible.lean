/-
Legible text: the characters of ASCII from the blank to the tilde. None
of them is a control character, so a text of them stays on one line.

What is put together of legible texts is legible, and so is what is cut
out of one. The first is for `simp`, which takes texts apart; for the
second there is `Legible.of_subset`.
-/
import TracedTransfer.Proofs.Json.Scalar
import TracedTransfer.Proofs.Text.Letter
import TracedTransfer.Text.Blank

namespace TracedTransfer.Text

variable {c : Char} {s t : List Char}

/-- A character of ASCII that is no control character. -/
def LegibleChar (c : Char) : Prop := 0x20 ≤ c.toNat ∧ c.toNat < 0x7f

instance (c : Char) : Decidable (LegibleChar c) :=
  inferInstanceAs (Decidable (0x20 ≤ c.toNat ∧ c.toNat < 0x7f))

/-- A text of such characters. -/
def Legible (s : List Char) : Prop := ∀ c ∈ s, LegibleChar c

instance (s : List Char) : Decidable (Legible s) := List.decidableBAll LegibleChar s

theorem LegibleChar.not_control (h : LegibleChar c) : isControl c = false := by
  unfold LegibleChar at h
  simp only [isControl, Bool.or_eq_false_iff, Bool.and_eq_false_iff, decide_eq_false_iff_not]
  omega

@[simp] theorem legible_nil : Legible [] := by simp [Legible]

@[simp] theorem legible_cons : Legible (c :: s) ↔ LegibleChar c ∧ Legible s := by
  simp [Legible]

@[simp] theorem legible_append : Legible (s ++ t) ↔ Legible s ∧ Legible t := by
  simp [Legible, or_imp, forall_and]

/-- What is cut out of a legible text is legible. -/
theorem Legible.of_subset (h : Legible t) (hs : s ⊆ t) : Legible s :=
  fun c hc => h c (hs hc)

-- ====================================================== letters, digits

theorem legible_of_isAlphanum (h : c.isAlphanum = true) : LegibleChar c :=
  of_ascii (P := fun c => c.isAlphanum = true → LegibleChar c) (by decide) (isAlphanum_lt h) h

theorem legible_of_isAlpha (h : c.isAlpha = true) : LegibleChar c := by
  apply legible_of_isAlphanum
  simp [Char.isAlphanum, h]

theorem legible_of_isDigit (h : c.isDigit = true) : LegibleChar c := by
  apply legible_of_isAlphanum
  simp [Char.isAlphanum, h]

/-- A number is written in digits. -/
@[simp] theorem legible_decimal (n : Nat) : Legible (decimal n) := by
  intro c hc
  apply legible_of_isDigit
  exact Json.isDigit_of_mem_decimal hc

end TracedTransfer.Text
