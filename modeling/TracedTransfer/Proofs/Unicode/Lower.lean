/-
No capital letter of ASCII comes out of the tables for host names.

The tables are texts. The kernel takes a text apart once it is spelled out
as a list of characters, which `Spelled` does line by line; then one pass
over the words of a table shows that each of them names no capital
(`lower_of_mem_composites`, `lower_of_mem_expansions`, `lower_of_run`).

So what a character outside ASCII turns into is in lower case
(`lower_of_appearance`), and the canonical form of a text in lower case is
in lower case (`lower_canonical`).
-/
import TracedTransfer.Proofs.Text.Letter
import TracedTransfer.Unicode.Composition
import TracedTransfer.Unicode.DomainMapping

namespace TracedTransfer.Unicode

open Text

/-- A text without the capital letters of ASCII. -/
def Lower (s : List Char) : Prop := ∀ c ∈ s, c.toLower = c

theorem lower_nil : Lower [] := fun _ h => (List.not_mem_nil h).elim

theorem lower_cons {c : Char} {s : List Char} : Lower (c :: s) ↔ c.toLower = c ∧ Lower s :=
  List.forall_mem_cons

theorem lower_append {s t : List Char} : Lower (s ++ t) ↔ Lower s ∧ Lower t :=
  List.forall_mem_append

theorem lower_reverse {s : List Char} : Lower s.reverse ↔ Lower s := by
  simp [Lower]

/-- Whether a code point is not that of a capital letter of ASCII. -/
def isLow (n : Nat) : Bool := n < 0x41 || 0x5a < n

/-- Lower case moves the letters `A` to `Z` only. -/
theorem toLower_ofNat {n : Nat} (h : isLow n = true) : (Char.ofNat n).toLower = Char.ofNat n := by
  have hascii : ∀ n < 0x80, isLow n = true → (Char.ofNat n).toLower = Char.ofNat n := by decide
  by_cases hn : n < 0x80
  · exact hascii n hn h
  · by_cases hvalid : n.isValidChar
    · refine toLower_wide ?_
      rw [Char.ofNat, dif_pos hvalid]
      exact Nat.le_of_not_lt hn
    · rw [Char.ofNat, dif_neg hvalid]
      rfl

-- =============================================================== words

/-- Lines of text with their characters. -/
inductive Spelled : List String → List (List Char) → Prop
  | nil : Spelled [] []
  | cons (s : List Char) {lines : List String} {spelled : List (List Char)}
      (h : Spelled lines spelled) : Spelled (String.ofList s :: lines) (s :: spelled)

/-- The words of a table are those of its lines. -/
theorem Spelled.wordsOf_eq {lines : List String} {spelled : List (List Char)}
    (h : Spelled lines spelled) : wordsOf lines = spelled.flatMap (·.splitOn ' ') := by
  induction h with
  | nil => rfl
  | cons s h ih =>
      unfold wordsOf at ih ⊢
      rw [List.flatMap_cons, List.flatMap_cons, ih, String.toList_ofList]

/-- What is checked for the spelled words holds of every word of the lines. -/
theorem Spelled.all {check : List Char → Bool} {lines : List String}
    {spelled : List (List Char)} (h : Spelled lines spelled)
    (hall : (spelled.flatMap (·.splitOn ' ')).all check = true) :
    ∀ w ∈ wordsOf lines, check w = true := by
  rw [h.wordsOf_eq]
  exact List.all_eq_true.1 hall

/-- Whether the code points between the plus signs of a word are low. -/
def areLow (parts : List Char) : Bool := (parts.splitOn '+').all fun p => isLow (codePoint p)

theorem lower_charactersOf {parts : List Char} (h : areLow parts = true) :
    Lower (charactersOf parts) := by
  intro c hc
  obtain ⟨p, hp, rfl⟩ := List.mem_map.1 hc
  exact toLower_ofNat (List.all_eq_true.1 h p hp)

-- ========================================================== composites

/-- The check of one composite. -/
def lowComposite (entry : List Char) : Bool :=
  (splitOnce '=' entry).all fun p => isLow (codePoint p.1) && areLow p.2

/-- The table of composites, checked word by word -/
theorem composites_words :
    ∃ lines, composites = compositesOfText lines ∧ ∀ w ∈ wordsOf lines, lowComposite w = true := by
  refine ⟨_, rfl, ?_⟩
  apply Spelled.all
  case h => repeat' (first | exact Spelled.nil | apply Spelled.cons)
  case hall => decide +kernel

/-- and read: it is made of small characters. -/
theorem lower_of_mem_composites {c a b : Char} (h : (c, a, b) ∈ composites) :
    c.toLower = c ∧ a.toLower = a ∧ b.toLower = b := by
  obtain ⟨lines, heq, hall⟩ := composites_words
  rw [heq] at h
  obtain ⟨w, hw, hentry⟩ := List.mem_filterMap.1 h
  have hlow := hall w hw
  unfold lowComposite at hlow
  cases hs : splitOnce '=' w with
  | none =>
      rw [hs] at hentry
      cases hentry
  | some p =>
      rw [hs] at hentry hlow
      rw [Option.all_some, Bool.and_eq_true] at hlow
      have hparts := lower_charactersOf hlow.2
      simp only [Option.bind_eq_bind, Option.bind_some] at hentry
      split at hentry
      · rename_i x y hxy
        rw [hxy] at hparts
        cases hentry
        simp only [lower_cons] at hparts
        exact ⟨toLower_ofNat hlow.1, hparts.1, hparts.2.1⟩
      · cases hentry

-- ========================================================== appearance

/-- The check of one expansion. -/
def lowExpansion (entry : List Char) : Bool := (splitOnce '>' entry).all fun p => areLow p.2

/-- The table of expansions, checked word by word -/
theorem expansions_words :
    ∃ lines, expansions = expansionsOfText lines
      ∧ ∀ w ∈ wordsOf lines, lowExpansion w = true := by
  refine ⟨_, rfl, ?_⟩
  apply Spelled.all
  case h => repeat' (first | exact Spelled.nil | apply Spelled.cons)
  case hall => decide +kernel

/-- and read: it is too. -/
theorem lower_of_mem_expansions {n : Nat} {text : List Char} (h : (n, text) ∈ expansions) :
    Lower text := by
  obtain ⟨lines, heq, hall⟩ := expansions_words
  rw [heq] at h
  obtain ⟨w, hw, hentry⟩ := List.mem_filterMap.1 h
  have hlow := hall w hw
  unfold lowExpansion at hlow
  cases hs : splitOnce '>' w with
  | none =>
      rw [hs] at hentry
      cases hentry
  | some p =>
      rw [hs] at hentry hlow
      cases hentry
      exact lower_charactersOf hlow

/-- Whether a run turns nothing into a capital letter of ASCII. -/
def Run.isLow (r : Run) : Bool := 0x5a < r.target || r.target + (r.last - r.first) < 0x41

/-- The table of runs, checked word by word -/
theorem runs_words :
    ∃ lines, runs = Run.listOfText lines
      ∧ ∀ w ∈ wordsOf lines, (Run.ofList? w).all Run.isLow = true := by
  refine ⟨_, rfl, ?_⟩
  apply Spelled.all
  case h => repeat' (first | exact Spelled.nil | apply Spelled.cons)
  case hall => decide +kernel

/-- and read: their images are. -/
theorem lower_of_run {c d : Char} {r : Run} (h : r ∈ runs) (hd : r.image? c = some d) :
    d.toLower = d := by
  obtain ⟨lines, heq, hall⟩ := runs_words
  rw [heq] at h
  obtain ⟨w, hw, hentry⟩ := List.mem_filterMap.1 h
  have hlow := hall w hw
  rw [hentry, Option.all_some] at hlow
  unfold Run.image? at hd
  dsimp only at hd
  split at hd
  · rename_i hcovers
    simp only [Bool.and_eq_true, decide_eq_true_eq] at hcovers
    cases hd
    refine toLower_ofNat ?_
    simp only [Run.isLow, Unicode.isLow, Bool.or_eq_true, decide_eq_true_eq] at hlow ⊢
    omega
  · cases hd

/-- What a character outside ASCII turns into is in lower case. -/
theorem lower_of_appearance {c : Char} {text : List Char} (h : appearance c = .becomes text) :
    Lower text := by
  unfold appearance at h
  split at h
  · cases h
  · split at h
    · cases h
    · split at h
      · rename_i d hd
        cases h
        obtain ⟨r, hr, himage⟩ := List.exists_of_findSome?_eq_some hd
        exact lower_cons.2 ⟨lower_of_run hr himage, lower_nil⟩
      · split at h
        · rename_i hfind
          cases h
          exact lower_of_mem_expansions (List.mem_of_find?_eq_some hfind)
        · cases h

-- ====================================================== canonical form

/-- The parts of a syllable are no letters of ASCII. -/
theorem lower_syllableParts {c : Char} {parts : List Char} (h : syllableParts? c = some parts) :
    Lower parts := by
  have hlow : ∀ n, 0x1100 ≤ n → (Char.ofNat n).toLower = Char.ofNat n := by
    intro n hn
    refine toLower_ofNat ?_
    simp only [isLow, Bool.or_eq_true, decide_eq_true_eq]
    omega
  unfold syllableParts? at h
  dsimp only at h
  split at h
  · rw [← Option.some.inj h]
    split
    · exact lower_cons.2 ⟨hlow _ (by omega), lower_cons.2 ⟨hlow _ (by omega), lower_nil⟩⟩
    · refine lower_append.2 ⟨?_, lower_cons.2 ⟨hlow _ (by omega), lower_nil⟩⟩
      exact lower_cons.2 ⟨hlow _ (by omega), lower_cons.2 ⟨hlow _ (by omega), lower_nil⟩⟩
  · cases h

set_option maxRecDepth 100000 in
/-- A character is taken apart as a syllable, or by the table, or not at
all. -/
theorem decompose_succ (depth : Nat) (c : Char) :
    decompose (depth + 1) c =
      match syllableParts? c with
      | some parts => parts
      | none =>
        match composite? c with
        | some (first, mark) => decompose depth first ++ [mark]
        | none => [c] := rfl

/-- What is taken apart is small, -/
theorem lower_decompose (depth : Nat) {c : Char} (h : c.toLower = c) :
    Lower (decompose depth c) := by
  induction depth generalizing c with
  | zero => exact lower_cons.2 ⟨h, lower_nil⟩
  | succ depth ih =>
      rw [decompose_succ]
      cases hparts : syllableParts? c with
      | some parts => exact lower_syllableParts hparts
      | none =>
          cases hcomposite : composite? c with
          | none => exact lower_cons.2 ⟨h, lower_nil⟩
          | some p =>
              obtain ⟨⟨a, q⟩, hfind, rfl⟩ := Option.map_eq_some_iff.1 hcomposite
              obtain ⟨-, hfirst, hmark⟩ := lower_of_mem_composites (List.mem_of_find?_eq_some hfind)
              exact lower_append.2 ⟨ih hfirst, lower_cons.2 ⟨hmark, lower_nil⟩⟩

/-- a mark goes to its place, -/
theorem lower_insertMark {c : Char} {s : List Char} (hc : c.toLower = c) (hs : Lower s) :
    Lower (insertMark c s) := by
  induction s with
  | nil => exact lower_cons.2 ⟨hc, lower_nil⟩
  | cons d s ih =>
      rw [insertMark]
      split
      · exact lower_cons.2 ⟨(lower_cons.1 hs).1, ih (lower_cons.1 hs).2⟩
      · exact lower_cons.2 ⟨hc, hs⟩

/-- marks are ordered, -/
theorem lower_orderMarks {s : List Char} (h : Lower s) : Lower (orderMarks s) := by
  have hfold : ∀ acc, Lower acc → Lower (s.foldl (fun acc c => insertMark c acc) acc) := by
    induction s with
    | nil => exact fun _ hacc => hacc
    | cons c s ih =>
        intro acc hacc
        exact ih (lower_cons.1 h).2 _ (lower_insertMark (lower_cons.1 h).1 hacc)
  exact lower_reverse.2 (hfold [] lower_nil)

/-- and what is put together again is small. -/
theorem lower_compose {a b c : Char} (h : compose? a b = some c) : c.toLower = c := by
  unfold compose? at h
  split at h
  · rename_i d hd
    cases h
    unfold syllable? at hd
    dsimp only at hd
    have hlow : ∀ n, syllableBase ≤ n → (Char.ofNat n).toLower = Char.ofNat n := by
      intro n hn
      refine toLower_ofNat ?_
      unfold syllableBase at hn
      simp only [isLow, Bool.or_eq_true, decide_eq_true_eq]
      omega
    split at hd
    · rw [← Option.some.inj hd]
      exact hlow _ (Nat.le_add_right ..)
    · split at hd
      · rename_i hsyllable
        simp only [Bool.and_eq_true, decide_eq_true_eq] at hsyllable
        rw [← Option.some.inj hd]
        exact hlow _ (by omega)
      · cases hd
  · obtain ⟨⟨x, p⟩, hfind, hx⟩ := Option.map_eq_some_iff.1 h
    cases hx
    exact (lower_of_mem_composites (List.mem_of_find?_eq_some hfind)).1

/-- Everything in a composition is in lower case. -/
def Composing.Low (st : Composing) : Prop :=
  Lower st.before ∧ Lower st.starter.toList ∧ Lower st.kept

/-- A character that is added to a composition keeps it small. -/
theorem Composing.Low.add {st : Composing} {c : Char} (h : st.Low) (hc : c.toLower = c) :
    (st.add c).Low := by
  obtain ⟨hbefore, hstarter, hkept⟩ := h
  unfold Composing.add
  cases hs : st.starter with
  | none =>
      dsimp only
      split
      · exact ⟨hbefore, lower_cons.2 ⟨hc, lower_nil⟩, hkept⟩
      · exact ⟨lower_cons.2 ⟨hc, hbefore⟩, lower_nil, hkept⟩
  | some s =>
      rw [hs] at hstarter
      have hsl : s.toLower = s := (lower_cons.1 hstarter).1
      dsimp only
      split
      · rename_i d hd
        have hcomposed : compose? s c = some d := by
          rw [Option.ite_none_left_eq_some] at hd
          exact hd.2
        exact ⟨hbefore, lower_cons.2 ⟨lower_compose hcomposed, lower_nil⟩, hkept⟩
      · split
        · exact ⟨lower_append.2 ⟨hkept, lower_cons.2 ⟨hsl, hbefore⟩⟩,
            lower_cons.2 ⟨hc, lower_nil⟩, lower_nil⟩
        · exact ⟨hbefore, hstarter, lower_cons.2 ⟨hc, hkept⟩⟩

/-- The canonical form of a text in lower case is in lower case. -/
theorem lower_canonical {s : List Char} (h : Lower s) : Lower (canonical s) := by
  have hparts : Lower (s.flatMap (decompose decompositionDepth)) := by
    intro c hc
    obtain ⟨d, hd, hmem⟩ := List.mem_flatMap.1 hc
    exact lower_decompose _ (h d hd) c hmem
  have hfold : ∀ (t : List Char) (st : Composing), Lower t → st.Low →
      (t.foldl Composing.add st).Low := by
    intro t
    induction t with
    | nil => exact fun _ _ hst => hst
    | cons c t ih => exact fun st ht hst => ih _ (lower_cons.1 ht).2 (hst.add (lower_cons.1 ht).1)
  obtain ⟨hbefore, hstarter, hkept⟩ := hfold _ _ (lower_orderMarks hparts)
    (show (⟨[], none, []⟩ : Composing).Low from ⟨lower_nil, lower_nil, lower_nil⟩)
  exact lower_reverse.2 (lower_append.2 ⟨lower_append.2 ⟨hkept, hstarter⟩, hbefore⟩)

end TracedTransfer.Unicode
