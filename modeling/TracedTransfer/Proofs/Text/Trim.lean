/-
What trimming leaves.

A text without the characters of a class at its ends is the one between
such characters that neither begins nor ends with one (`trimMatches_eq_iff`).
So what is blank at an end does not count, however often it is taken away
(`trim_append_blank`, `trim_dropWhile`), and a text that is trimmed before
it is cut gives the same trimmed parts as one that is not
(`splitOnce_trim`).
-/
import Mathlib.Data.List.DropRight
import TracedTransfer.Proofs.Text.Ascii
import TracedTransfer.Proofs.Text.Separator

namespace TracedTransfer.Text

variable {p : Char → Bool}

-- ================================================================ ends

/-- What is left of a text is a part of it. -/
theorem trimMatches_part (p : Char → Bool) (s : List Char) : trimMatches p s <:+: s := by
  unfold trimMatches
  refine List.IsInfix.trans ?_ (List.dropWhile_suffix p).isInfix
  rw [← List.reverse_infix, List.reverse_reverse]
  exact (List.dropWhile_suffix p).isInfix

/-- What is trimmed starts with nothing that is to go. -/
theorem head?_trimMatches {s : List Char} {c : Char}
    (h : (trimMatches p s).head? = some c) : p c = false := by
  have hprefix : trimMatches p s <+: s.dropWhile p := by
    unfold trimMatches
    rw [← List.reverse_suffix, List.reverse_reverse]
    exact List.dropWhile_suffix p
  obtain ⟨rest, hrest⟩ := hprefix
  have hhead : (s.dropWhile p).head? = some c := by
    rw [← hrest, List.head?_append, h, Option.some_or]
  have := List.head?_dropWhile_not p s
  rw [hhead] at this
  simpa using this

/-- What is trimmed ends with nothing that is to go. -/
theorem getLast?_trimMatches {s : List Char} {c : Char}
    (h : (trimMatches p s).getLast? = some c) : p c = false := by
  unfold trimMatches at h
  rw [List.getLast?_reverse] at h
  have := List.head?_dropWhile_not p (s.dropWhile p).reverse
  rw [h] at this
  simpa using this

/-- A text between characters that are to go. -/
structure IsTrimmed (p : Char → Bool) (s t : List Char) : Prop where
  /-- It is the text without characters of the class at both ends, -/
  part : ∃ front back, s = front ++ t ++ back
    ∧ (∀ c ∈ front, p c = true) ∧ ∀ c ∈ back, p c = true
  /-- and starts with none of them -/
  head : ∀ c ∈ t.head?, p c = false
  /-- and ends with none. -/
  last : ∀ c ∈ t.getLast?, p c = false

/-- Around what is left stands nothing but what is dropped. -/
theorem isTrimmed_trimMatches (p : Char → Bool) (s : List Char) :
    IsTrimmed p s (trimMatches p s) := by
  refine ⟨⟨s.takeWhile p, ((s.dropWhile p).reverse.takeWhile p).reverse, ?_, ?_, ?_⟩,
    fun c hc => head?_trimMatches hc, fun c hc => getLast?_trimMatches hc⟩
  · rw [trimMatches, List.append_assoc, ← List.reverse_append, List.takeWhile_append_dropWhile,
      List.reverse_reverse, List.takeWhile_append_dropWhile]
  · exact fun c hc => List.mem_takeWhile_imp hc
  · exact fun c hc => List.mem_takeWhile_imp (List.mem_reverse.1 hc)

/-- No other part is so, -/
theorem IsTrimmed.eq {s t : List Char} (h : IsTrimmed p s t) : trimMatches p s = t := by
  obtain ⟨⟨front, back, rfl, hfront, hback⟩, hhead, hlast⟩ := h
  rw [trimMatches, List.append_assoc, List.dropWhile_append_of_pos hfront]
  rcases List.eq_nil_or_concat t with rfl | ⟨start, d, heq⟩
  · have hall : back.dropWhile p = [] := List.dropWhile_eq_nil_iff.2 hback
    rw [List.nil_append, hall]
    rfl
  · have hdrop : (t ++ back).dropWhile p = t ++ back := by
      cases t with
      | nil => simp at heq
      | cons c t =>
          refine List.dropWhile_cons_of_neg ?_
          rw [hhead c rfl]
          exact Bool.false_ne_true
    have hlastd : ∀ c ∈ t.reverse.head?, p c = false := by
      intro c hc
      rw [List.head?_reverse] at hc
      exact hlast c hc
    rw [hdrop, List.reverse_append,
      dropWhile_append_of_all (fun c hc => hback c (List.mem_reverse.1 hc)) hlastd,
      List.reverse_reverse]

/-- so trimming is known by that. -/
theorem trimMatches_eq_iff {s t : List Char} : trimMatches p s = t ↔ IsTrimmed p s t :=
  ⟨fun h => h ▸ isTrimmed_trimMatches p s, IsTrimmed.eq⟩

-- ============================================================== blanks

/-- In front of what is no blank nothing is dropped. -/
theorem trim_cons {c : Char} (hc : isBlank c = false) (s : List Char) :
    trim (c :: s) = c :: trimRight s := by
  have hdrop : (c :: s).dropWhile isBlank = [] ++ c :: s :=
    List.dropWhile_cons_of_neg (by rw [hc]; exact Bool.false_ne_true)
  have htrim : trim (c :: s) = trimRight ((c :: s).dropWhile isBlank) := rfl
  rw [htrim, hdrop, trimRight_append hc]
  rfl

/-- Blanks at the end make no difference, -/
theorem trim_append_blank (s : List Char) {blanks : List Char}
    (h : ∀ c ∈ blanks, isBlank c = true) : trim (s ++ blanks) = trim s := by
  obtain ⟨⟨front, back, hs, hfront, hback⟩, hhead, hlast⟩ := isTrimmed_trimMatches isBlank s
  refine IsTrimmed.eq ⟨⟨front, back ++ blanks, ?_, hfront, ?_⟩, hhead, hlast⟩
  · calc s ++ blanks = front ++ trimMatches isBlank s ++ back ++ blanks := by rw [← hs]
      _ = front ++ trimMatches isBlank s ++ (back ++ blanks) := List.append_assoc ..
  · exact List.forall_mem_append.2 ⟨hback, h⟩

/-- those in front make none, -/
theorem trim_dropWhile (s : List Char) : trim (s.dropWhile isBlank) = trim s := by
  rw [trim, trim, trimMatches, trimMatches, List.dropWhile_idempotent]

/-- and to drop those at the end first makes none. -/
theorem trim_trimRight (s : List Char) : trim (trimRight s) = trim s := by
  have hs : trimRight s ++ (s.reverse.takeWhile isBlank).reverse = s := by
    rw [trimRight, ← List.reverse_append, List.takeWhile_append_dropWhile, List.reverse_reverse]
  have hblanks : ∀ c ∈ (s.reverse.takeWhile isBlank).reverse, isBlank c = true :=
    fun c hc => List.mem_takeWhile_imp (List.mem_reverse.1 hc)
  rw [← trim_append_blank (trimRight s) hblanks, hs]

/-- Blanks at the ends of a text do not count for its trimmed parts. -/
theorem splitOnce_trim {sep : Char} (hsep : isBlank sep = false) (s : List Char) :
    (splitOnce sep (trim s)).map (fun q => (trim q.1, trim q.2))
      = (splitOnce sep s).map fun q => (trim q.1, trim q.2) := by
  by_cases hmem : sep ∈ s
  · obtain ⟨front, back, rfl, hfront⟩ := List.eq_append_cons_of_mem hmem
    have htrim : trim (front ++ sep :: back)
        = front.dropWhile isBlank ++ sep :: trimRight back := by
      show trimRight ((front ++ sep :: back).dropWhile isBlank) = _
      rw [dropWhile_append_of_neg hsep, trimRight_append hsep]
    have hstart : sep ∉ front.dropWhile isBlank :=
      fun hc => hfront ((List.dropWhile_suffix isBlank).subset hc)
    rw [htrim, splitOnce_append hstart, splitOnce_append hfront]
    simp only [Option.map_some, trim_dropWhile, trim_trimRight]
  · have hnot : sep ∉ trim s := fun hc => hmem ((trimMatches_part isBlank s).subset hc)
    rw [splitOnce_eq_none hmem, splitOnce_eq_none hnot]

end TracedTransfer.Text
