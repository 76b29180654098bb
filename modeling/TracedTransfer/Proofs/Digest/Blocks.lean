/-
Content taken in pieces.

Mixing whole blocks in can be interrupted anywhere: what is left of a
beginning goes in front of what follows (`compressAll_append`). So a hasher
that has taken pieces stands where it would if it had taken them as one
(`Hasher.updates`), and `finish` is the digest of that.
-/
import Mathlib
import TracedTransfer.Digest.Sha256

namespace TracedTransfer.Digest

open Text

namespace Sha256

variable (v : Words) (s t : Bytes)

theorem compressAll_short (h : s.length < blockSize) : compressAll v s = (v, s) := by
  rw [compressAll, if_pos h]

theorem compressAll_step (h : blockSize ≤ s.length) :
    compressAll v s = compressAll (compress v (s.take blockSize)) (s.drop blockSize) := by
  rw [compressAll, if_neg (Nat.not_lt.2 h)]

theorem compressAll_block {block : Bytes} (h : block.length = blockSize) :
    compressAll v block = (compress v block, []) := by
  rw [compressAll_step v block h.ge, List.take_of_length_le h.le, List.drop_of_length_le h.le]
  exact compressAll_short _ _ (by decide)

/-- What is left of a beginning goes in front of what follows. -/
theorem compressAll_append :
    compressAll v (s ++ t) = compressAll (compressAll v s).1 ((compressAll v s).2 ++ t) := by
  fun_induction compressAll v s with
  | case1 v s hshort => rfl
  | case2 v s hlong ih =>
      have hle : blockSize ≤ s.length := Nat.not_lt.1 hlong
      have hle' : blockSize ≤ (s ++ t).length := by
        rw [List.length_append]
        exact Nat.le_add_right_of_le hle
      -- The first block lies within the beginning, whatever follows.
      rw [compressAll_step v (s ++ t) hle', List.take_append_of_le_length hle,
        List.drop_append_of_le_length hle]
      exact ih

/-- Nothing is left of whole blocks. -/
theorem compressAll_whole {n : ℕ} (h : s.length = blockSize * n) : (compressAll v s).2 = [] := by
  induction n generalizing v s with
  | zero =>
      rw [compressAll_short v s (by rw [h]; decide)]
      exact List.eq_nil_of_length_eq_zero h
  | succ n ih =>
      have hle : blockSize ≤ s.length := h ▸ Nat.le_mul_of_pos_right _ n.succ_pos
      rw [compressAll_step v s hle]
      exact ih _ _ (by rw [List.length_drop, h, Nat.mul_succ, Nat.add_sub_cancel])

end Sha256

namespace Hasher

/-- The hasher that has taken `s` at once. -/
def taken (s : Bytes) : Hasher :=
  ⟨(Sha256.compressAll Sha256.initial s).1, (Sha256.compressAll Sha256.initial s).2, s.length⟩

theorem taken_nil : taken [] = empty := by
  unfold taken empty
  rw [Sha256.compressAll_short _ _ (by decide)]
  rfl

theorem update_taken (s piece : Bytes) : (taken s).update piece = taken (s ++ piece) := by
  unfold update taken
  rw [Sha256.compressAll_append _ s piece, List.length_append]

/-- How a message is cut into pieces plays no part in what a hasher holds. -/
theorem updates (s : Bytes) (pieces : List Bytes) :
    pieces.foldl update (taken s) = taken (s ++ pieces.flatten) := by
  induction pieces generalizing s with
  | nil => rw [List.foldl_nil, List.flatten_nil, List.append_nil]
  | cons piece pieces ih =>
      rw [List.foldl_cons, update_taken, ih, List.flatten_cons, List.append_assoc]

theorem finish_taken (s : Bytes) : (taken s).finish = Sha256.digest s := by
  unfold finish taken Sha256.digest
  rw [Sha256.compressAll_append _ s]

end Hasher

end TracedTransfer.Digest
