/-
What stands between separators.

A text is cut at the first separator (`splitOnce_append`), or at every
one: then no piece has a separator, and the pieces have nothing that the
text has not (`of_mem_splitOn`). Pieces that are joined have the separator
between them (`of_mem_intercalate`). With the separator in front of each of
them they make up the text again (`flatMap_splitOn`), and pieces that are
put together so are what the text is cut into (`splitOn_flatMap`).
-/
import Mathlib.Data.List.Basic
import TracedTransfer.Text.Blank

namespace TracedTransfer.Text

/-- A text is cut at the first separator, -/
theorem splitOnce_append {sep : Char} {s : List Char} (h : sep ∉ s) (rest : List Char) :
    splitOnce sep (s ++ sep :: rest) = some (s, rest) := by
  induction s with
  | nil => simp [splitOnce]
  | cons c s ih =>
      rw [List.mem_cons, not_or] at h
      rw [List.cons_append, splitOnce, if_neg (Ne.symm h.1), ih h.2]
      rfl

/-- and not at all without one. -/
theorem splitOnce_eq_none {sep : Char} {s : List Char} (h : sep ∉ s) : splitOnce sep s = none := by
  induction s with
  | nil => rfl
  | cons c s ih =>
      rw [List.mem_cons, not_or] at h
      rw [splitOnce, if_neg (Ne.symm h.1), ih h.2]
      rfl

/-- The pieces of a text do not have what stands between them, and nothing new. -/
theorem of_mem_splitOn {α : Type} [BEq α] [LawfulBEq α] {sep : α} {s piece : List α}
    (h : piece ∈ s.splitOn sep) : sep ∉ piece ∧ ∀ c ∈ piece, c ∈ s := by
  induction hn : s.length using Nat.strongRecOn generalizing s with
  | ind n ih =>
      by_cases hmem : sep ∈ s
      · obtain ⟨front, back, rfl, hfront⟩ := List.eq_append_cons_of_mem hmem
        rw [List.splitOn_append_cons_self, List.splitOn_eq_singleton hfront] at h
        rcases List.mem_cons.1 h with rfl | h
        · exact ⟨hfront, fun c hc => List.mem_append_left _ hc⟩
        · have hlt : back.length < n := by
            rw [← hn, List.length_append, List.length_cons]
            omega
          obtain ⟨hnot, hall⟩ := ih back.length hlt h rfl
          exact ⟨hnot, fun c hc => List.mem_append_right _ (List.mem_cons_of_mem _ (hall c hc))⟩
      · rw [List.splitOn_eq_singleton hmem, List.mem_singleton] at h
        rw [h]
        exact ⟨hmem, fun _ hc => hc⟩

/-- What pieces are joined to is of the pieces or the separator. -/
theorem of_mem_intercalate {α : Type} {sep c : α} {pieces : List (List α)}
    (h : c ∈ [sep].intercalate pieces) : c = sep ∨ ∃ piece ∈ pieces, c ∈ piece := by
  induction pieces with
  | nil => exact (List.not_mem_nil h).elim
  | cons p pieces ih =>
      cases pieces with
      | nil =>
          rw [List.intercalate_singleton] at h
          exact .inr ⟨p, List.mem_cons_self .., h⟩
      | cons q pieces =>
          rw [List.intercalate_cons_cons, List.append_assoc] at h
          rcases List.mem_append.1 h with h | h
          · exact .inr ⟨p, List.mem_cons_self .., h⟩
          · rcases List.mem_append.1 h with h | h
            · exact .inl (List.mem_singleton.1 h)
            · refine (ih h).imp id fun hpiece => ?_
              obtain ⟨piece, hmem, hc⟩ := hpiece
              exact ⟨piece, List.mem_cons_of_mem _ hmem, hc⟩

/-- A text with a separator in front is made of its pieces, each with one in front. -/
theorem flatMap_splitOn {α : Type} [BEq α] [LawfulBEq α] (sep : α) (s : List α) :
    (s.splitOn sep).flatMap (sep :: ·) = sep :: s := by
  have hjoin : ∀ piece pieces, (piece :: pieces).flatMap (sep :: ·)
      = sep :: [sep].intercalate (piece :: pieces) := by
    intro piece pieces
    induction pieces generalizing piece with
    | nil => rw [List.flatMap_singleton, List.intercalate_singleton]
    | cons next pieces ih =>
        rw [List.flatMap_cons, ih, List.intercalate_cons_cons]
        simp
  rcases hs : s.splitOn sep with _ | ⟨piece, pieces⟩
  · exact absurd hs (List.splitOn_ne_nil _ _)
  · rw [hjoin, ← hs, List.intercalate_splitOn]

/-- A separator before each of some pieces: they are what stands behind the first one. -/
theorem splitOn_flatMap {α : Type} [BEq α] [LawfulBEq α] {sep : α} {pieces : List (List α)}
    (h : ∀ piece ∈ pieces, sep ∉ piece) :
    (pieces.flatMap (sep :: ·)).splitOn sep = [] :: pieces := by
  induction pieces with
  | nil => exact List.splitOn_nil sep
  | cons piece pieces ih =>
      have hpiece := h piece List.mem_cons_self
      have hpieces := ih fun c hc => h c (List.mem_cons_of_mem _ hc)
      cases pieces with
      | nil =>
          show ([] ++ sep :: (piece ++ [])).splitOn sep = _
          rw [List.splitOn_append_cons_self, List.append_nil,
            List.splitOn_eq_singleton hpiece, List.splitOn_nil]
          rfl
      | cons next pieces =>
          rw [List.flatMap_cons] at hpieces ⊢
          have hrest : (next ++ pieces.flatMap (sep :: ·)).splitOn sep = next :: pieces := by
            rw [List.cons_append, ← List.nil_append (sep :: _),
              List.splitOn_append_cons_self, List.splitOn_nil] at hpieces
            exact (List.cons.inj hpieces).2
          rw [List.flatMap_cons, List.cons_append, List.cons_append,
            ← List.nil_append (sep :: _), List.splitOn_append_cons_self,
            List.splitOn_append_cons_self, List.splitOn_eq_singleton hpiece, hrest,
            List.splitOn_nil]
          rfl

end TracedTransfer.Text
