/-
Letters and digits of ASCII.

What holds of the 128 characters of ASCII is decided by looking at each of
them (`of_ascii`); letters and digits are among them, and no other
character has a lower case.
-/
import TracedTransfer.Text.Number

namespace TracedTransfer.Text

variable {c : Char}

/-- What the 128 characters of ASCII have, every one of them has. -/
theorem of_ascii {P : Char → Prop} (h : ∀ n < 0x80, P (Char.ofNat n)) (hc : c.toNat < 0x80) :
    P c := by
  have := h c.toNat hc
  rwa [Char.ofNat_toNat] at this

/-- Letters of ASCII, -/
theorem isAlpha_lt (h : c.isAlpha = true) : c.toNat < 0x80 := by
  change (decide (c.val ≥ 'A'.val ∧ c.val ≤ 'Z'.val)
    || (decide (c.val ≥ 'a'.val) && decide (c.val ≤ 'z'.val))) = true at h
  simp only [Bool.or_eq_true, Bool.and_eq_true, decide_eq_true_eq, ge_iff_le,
    UInt32.le_iff_toNat_le] at h
  have hz : 'z'.val.toNat = 122 := rfl
  have hZ : 'Z'.val.toNat = 90 := rfl
  have hc : c.toNat = c.val.toNat := rfl
  omega

/-- its figures -/
theorem isDigit_lt (h : c.isDigit = true) : c.toNat < 0x80 := by
  simp only [Char.isDigit, Bool.and_eq_true, decide_eq_true_eq, ge_iff_le,
    UInt32.le_iff_toNat_le] at h
  have h9 : '9'.val.toNat = 57 := rfl
  have hc : c.toNat = c.val.toNat := rfl
  omega

/-- and both together are below 0x80. -/
theorem isAlphanum_lt (h : c.isAlphanum = true) : c.toNat < 0x80 := by
  rw [Char.isAlphanum, Bool.or_eq_true] at h
  rcases h with h | h
  · exact isAlpha_lt h
  · exact isDigit_lt h

/-- A digit has a value in the base of ten. -/
theorem digitValue?_isSome (h : c.isDigit = true) : (digitValue? 10 c).isSome = true :=
  of_ascii (P := fun c => c.isDigit = true → (digitValue? 10 c).isSome = true) (by decide)
    (isDigit_lt h) h

-- =========================================================== lower case

/-- Lower case here is that of ASCII, so a wide character stays. -/
theorem toLower_wide (h : 0x80 ≤ c.toNat) : c.toLower = c := by
  unfold Char.toLower
  rw [dif_neg]
  intro hupper
  have hle : c.toNat ≤ 90 := UInt32.le_iff_toNat_le.1 hupper.2
  omega

/-- Once in lower case a character stays so, -/
theorem toLower_toLower (c : Char) : c.toLower.toLower = c.toLower := by
  by_cases hc : c.toNat < 0x80
  · exact of_ascii (P := fun c => c.toLower.toLower = c.toLower) (by decide) hc
  · have hwide := toLower_wide (Nat.le_of_not_lt hc)
    rw [hwide, hwide]

/-- and a letter stays a letter. -/
theorem isAlpha_toLower (h : c.isAlpha = true) : c.toLower.isAlpha = true :=
  of_ascii (P := fun c => c.isAlpha = true → c.toLower.isAlpha = true) (by decide)
    (isAlpha_lt h) h

end TracedTransfer.Text
