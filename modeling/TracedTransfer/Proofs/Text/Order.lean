/-
The order of texts is the order of their bytes.

Texts are compared character by character, their bytes byte by byte. The
first byte of a character grows with it (`lt_of_lead`), and where it is the
same, so is the number of bytes behind, each of which puts six more bits
behind those compared before (`digit_cons_lt`).
-/
import Mathlib
import TracedTransfer.Proofs.Text.Encoding

namespace TracedTransfer.Text.Utf8

-- ========================================================== characters

/-- The first byte of a character. -/
def lead (v : Nat) : Nat :=
  if v ≤ 0x7f then v else if v ≤ 0x7ff then v / 64 + 192
  else if v ≤ 0xffff then v / 4096 + 224 else v / 262144 + 240

/-- A continuation byte: the last six bits of a number. -/
def digit (v : Nat) : UInt8 := UInt8.ofNat (v % 64 + 128)

/-- The bytes behind the first. -/
def trail (v : Nat) : Bytes :=
  if v ≤ 0x7f then [] else if v ≤ 0x7ff then [digit v]
  else if v ≤ 0xffff then [digit (v / 64), digit v]
  else [digit (v / 64 / 64), digit (v / 64), digit v]

theorem lead_lt_size {v : Nat} (hv : v < 0x110000) : lead v < 256 := by
  unfold lead
  split_ifs <;> omega

/-- A character is encoded as a first byte and what trails it. -/
theorem encodeChar_eq (c : Char) :
    String.utf8EncodeChar c = UInt8.ofNat (lead c.val.toNat) :: trail c.val.toNat := by
  have hvalid := valid_cases c
  unfold String.utf8EncodeChar lead trail
  generalize c.val.toNat = v at hvalid
  dsimp only [digit]
  split_ifs
  · rfl
  · rw [show v / 64 % 32 = v / 64 by omega]
  · rw [show v / 4096 % 16 = v / 4096 by omega]
  · rw [show v / 262144 % 8 = v / 262144 by omega, show v / 4096 = v / 64 / 64 by omega]

/-- Bytes are compared by the first one, and by the rest if that is the
same. -/
theorem ofNat_cons_lt {x y : Nat} (hx : x < 256) (hy : y < 256) (s t : Bytes) :
    UInt8.ofNat x :: s < UInt8.ofNat y :: t ↔ x < y ∨ x = y ∧ s < t := by
  rw [List.cons_lt_cons_iff, UInt8.lt_iff_toNat_lt, ← UInt8.toNat_inj, toNat_ofNat hx,
    toNat_ofNat hy]

/-- A continuation byte decides where what was compared before it does not. -/
theorem digit_cons_lt (v w : Nat) (s t : Bytes) :
    (v / 64 < w / 64 ∨ v / 64 = w / 64 ∧ digit v :: s < digit w :: t)
      ↔ v < w ∨ v = w ∧ s < t := by
  unfold digit
  rw [ofNat_cons_lt (by omega) (by omega)]
  by_cases hst : s < t
  · simp only [hst, and_true]
    omega
  · simp only [hst, and_false, or_false]
    omega

/-- A character with a lesser first byte is less. -/
theorem lt_of_lead {v w : Nat} (hv : v < 0x110000) (h : lead v < lead w) : v < w := by
  unfold lead at h
  split_ifs at h <;> omega

/-- Of characters with one first byte, the bytes behind are compared as they
are. -/
theorem trail_append_lt {v w : Nat} (h : lead v = lead w) (hv : v < 0x110000)
    (hw : w < 0x110000) (s t : Bytes) :
    trail v ++ s < trail w ++ t ↔ v < w ∨ v = w ∧ s < t := by
  -- Behind the first byte of a class there is the number that it tells.
  have hsame {x y : Nat} (heq : x = y) (p : Prop) : p ↔ x < y ∨ x = y ∧ p := by
    simp only [heq, lt_irrefl, true_and, false_or]
  unfold lead at h
  unfold trail
  split_ifs at h ⊢
  -- The first byte tells the class, so the classes of the two are one.
  all_goals try omega
  · rw [List.nil_append, List.nil_append]
    exact hsame h _
  · rw [hsame (x := v / 64) (y := w / 64) (by omega) ([digit v] ++ s < [digit w] ++ t)]
    exact digit_cons_lt v w s t
  · rw [← digit_cons_lt v w, ← digit_cons_lt (v / 64) (w / 64)]
    exact hsame (by omega) _
  · rw [← digit_cons_lt v w, ← digit_cons_lt (v / 64) (w / 64),
      ← digit_cons_lt (v / 64 / 64) (w / 64 / 64)]
    exact hsame (by omega) _

/-- Characters are compared before what follows them. -/
theorem encodeChar_append_lt (c d : Char) (s t : Bytes) :
    String.utf8EncodeChar c ++ s < String.utf8EncodeChar d ++ t ↔ c < d ∨ c = d ∧ s < t := by
  have hvalid {c : Char} : c.val.toNat < 0x110000 := by
    have := valid_cases c
    omega
  have hlt : c < d ↔ c.val.toNat < d.val.toNat := UInt32.lt_iff_toNat_lt
  have heq : c = d ↔ c.val.toNat = d.val.toNat := by rw [Char.ext_iff, UInt32.toNat_inj]
  rw [hlt, heq, encodeChar_eq, encodeChar_eq, List.cons_append, List.cons_append,
    ofNat_cons_lt (lead_lt_size hvalid) (lead_lt_size hvalid)]
  rcases lt_trichotomy (lead c.val.toNat) (lead d.val.toNat) with h | h | h
  · exact iff_of_true (.inl h) (.inl (lt_of_lead hvalid h))
  · rw [trail_append_lt h hvalid hvalid]
    simp only [h, lt_irrefl, true_and, false_or]
  · have hgt := lt_of_lead hvalid h
    exact iff_of_false (by omega) (by omega)

-- =============================================================== texts

/-- The order of texts is that of their bytes. -/
theorem encode_lt (s t : List Char) : encode s < encode t ↔ s < t := by
  induction s generalizing t with
  | nil =>
      cases t with
      | nil => exact iff_of_false (List.not_lt_nil _) (List.not_lt_nil _)
      | cons d t =>
          show [] < String.utf8EncodeChar d ++ encode t ↔ _
          rw [encodeChar_eq]
          exact iff_of_true (List.nil_lt_cons _ _) (List.nil_lt_cons _ _)
  | cons c s ih =>
      cases t with
      | nil => exact iff_of_false (List.not_lt_nil _) (List.not_lt_nil _)
      | cons d t =>
          show String.utf8EncodeChar c ++ encode s < String.utf8EncodeChar d ++ encode t ↔ _
          rw [encodeChar_append_lt, ih, List.cons_lt_cons_iff]

end TracedTransfer.Text.Utf8

/-- So it is of strings. -/
theorem TracedTransfer.Text.bytesOf_lt (s t : String) : bytesOf s < bytesOf t ↔ s < t :=
  Utf8.encode_lt s.toList t.toList

theorem TracedTransfer.Text.bytesOf_le (s t : String) : bytesOf s ≤ bytesOf t ↔ s ≤ t :=
  not_congr (bytesOf_lt t s)
