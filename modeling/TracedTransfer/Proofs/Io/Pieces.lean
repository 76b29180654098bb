/-
Content read piece by piece.

A loop that reads is handed pieces (`Hands`), and what ends it is the first
answer that is none: nothing (`Brings`), or a failure. It goes the same under
a reader that counts them, and under one that keeps every answer
(`Transcribed`), which tells how often the loop has read.

How a script cuts its content says little about these pieces, as a longer one
is handed out in parts (`hands_cuts`); together they are the content all the
same (`brings_script`).

A loop that does not read again after an interruption brings what a script
holds up to its first failure of any kind (`Event.upToFailure`); up to an
interruption that is less than the script yields, else it is the same.
-/
import Mathlib
import TracedTransfer.Proofs.Io.Drain

namespace TracedTransfer.Io

open Text

variable {ρ : Type} [Source ρ] {fs : FileSystem} {n : ℕ}

/-- Reads of up to `n` bytes that are answered with `pieces`, one after the
other. What the next one is answered with is left open. -/
inductive Hands (fs : FileSystem) (n : ℕ) : ρ → List Bytes → ρ → Prop where
  /-- Nothing is handed over, -/
  | still (r : ρ) : Hands fs n r [] r
  /-- or a piece and then the others. -/
  | piece {r r' r'' : ρ} {s : Bytes} {pieces : List Bytes}
      (hread : Source.read fs n r = (.ok s, r')) (hs : s ≠ [])
      (hrest : Hands fs n r' pieces r'') : Hands fs n r (s :: pieces) r''

/-- Reads of up to `n` bytes that are answered with `pieces`, one after the
other, and the next one with nothing. -/
inductive Brings (fs : FileSystem) (n : ℕ) : ρ → List Bytes → ρ → Prop where
  /-- An empty piece is the end. -/
  | nothing {r r' : ρ} (hread : Source.read fs n r = (.ok [], r')) : Brings fs n r [] r'
  /-- Before it come the others. -/
  | piece {r r' r'' : ρ} {s : Bytes} {pieces : List Bytes}
      (hread : Source.read fs n r = (.ok s, r')) (hs : s ≠ [])
      (hrest : Brings fs n r' pieces r'') : Brings fs n r (s :: pieces) r''

namespace Hands

variable {r r' r'' : ρ} {pieces more : List Bytes}

theorem append (h : Hands fs n r pieces r') (hmore : Hands fs n r' more r'') :
    Hands fs n r (pieces ++ more) r'' := by
  induction h with
  | still r => exact hmore
  | piece hread hs hrest ih => exact .piece hread hs (ih hmore)

/-- What is handed out before an empty answer is what is brought. -/
theorem brings (h : Hands fs n r pieces r') (hread : Source.read fs n r' = (.ok [], r'')) :
    Brings fs n r pieces r'' := by
  induction h with
  | still r => exact .nothing hread
  | piece hpiece hs hrest ih => exact .piece hpiece hs (ih hread)

/-- There are not more pieces than bytes. -/
theorem length_le (h : Hands fs n r pieces r') : pieces.length ≤ pieces.flatten.length := by
  induction h with
  | still r => exact le_rfl
  | piece hread hs hrest ih =>
      rw [List.flatten_cons, List.length_append, List.length_cons, Nat.add_comm]
      exact Nat.add_le_add (List.length_pos_iff.2 hs) ih

/-- A counting reader hands over the same pieces and counts their bytes. -/
theorem counted (h : Hands fs n r pieces r') (count : ℕ) :
    Hands fs n (⟨r, count⟩ : Counted ρ) pieces ⟨r', count + pieces.flatten.length⟩ := by
  induction h generalizing count with
  | still r => exact .still _
  | piece hread hs hrest ih =>
      rw [List.flatten_cons, List.length_append, ← Nat.add_assoc]
      exact .piece (by rw [read_counted, hread]) hs (ih _)

end Hands

namespace Brings

variable {r r' : ρ} {pieces : List Bytes}

/-- No piece is empty, since an empty one is the end. -/
theorem nonempty (h : Brings fs n r pieces r') : [] ∉ pieces := by
  induction h with
  | nothing hread => exact List.not_mem_nil
  | piece hread hs hrest ih => exact List.not_mem_cons_of_ne_of_not_mem hs.symm ih

/-- Up to the end, a reader hands over its pieces. -/
theorem hands (h : Brings fs n r pieces r') :
    ∃ r₁, Hands fs n r pieces r₁ ∧ Source.read fs n r₁ = (.ok [], r') := by
  induction h with
  | nothing hread => exact ⟨_, .still _, hread⟩
  | piece hread hs hrest ih =>
      obtain ⟨r₁, hhands, hend⟩ := ih
      exact ⟨r₁, .piece hread hs hhands, hend⟩

/-- The same of what is read to its end. -/
theorem counted (h : Brings fs n r pieces r') (count : ℕ) :
    Brings fs n (⟨r, count⟩ : Counted ρ) pieces ⟨r', count + pieces.flatten.length⟩ := by
  obtain ⟨r₁, hhands, hend⟩ := h.hands
  refine (hhands.counted count).brings ?_
  rw [read_counted, hend]
  rfl

end Brings

-- ============================================================ transcripts

/-- A reader with the answers that it has given. -/
structure Transcribed (ρ : Type) where
  inner : ρ
  answers : List (Except Error Bytes)

namespace Transcribed

/-- A reader that has not been asked yet. -/
def ofSource (r : ρ) : Transcribed ρ := ⟨r, []⟩

instance : Source (Transcribed ρ) where
  read fs n r :=
    let (answer, inner) := Source.read fs n r.inner
    (answer, ⟨inner, r.answers ++ [answer]⟩)
  pending fs r := Source.pending fs r.inner

/-- A reader that is transcribed reads as it does alone, and each answer is
written down. -/
theorem read_eq (n : ℕ) (r : Transcribed ρ) : Source.read fs n r
    = ((Source.read fs n r.inner).1,
      ⟨(Source.read fs n r.inner).2, r.answers ++ [(Source.read fs n r.inner).1]⟩) := rfl

end Transcribed

/-- The answers are the pieces and an empty one, and there is no other. -/
theorem Brings.transcribed {r r' : ρ} {pieces : List Bytes} (h : Brings fs n r pieces r')
    (answers : List (Except Error Bytes)) : Brings fs n (⟨r, answers⟩ : Transcribed ρ) pieces
      ⟨r', answers ++ (pieces ++ [[]]).map .ok⟩ := by
  induction h generalizing answers with
  | nothing hread => exact .nothing (by rw [Transcribed.read_eq, hread]; rfl)
  | piece hread hs hrest ih =>
      rw [List.cons_append, List.map_cons, List.append_cons]
      exact .piece (by rw [Transcribed.read_eq, hread]) hs (ih _)

-- =============================================================== scripts

/-- How content comes to its end in a script: nothing follows, or a read
that brings nothing and whatever is behind it. -/
inductive Event.Ends : List Event → List Event → Prop where
  /-- Nothing is left, -/
  | exhausted : Event.Ends [] []
  /-- or an empty piece is next. -/
  | empty (rest : List Event) : Event.Ends (.data [] :: rest) rest

variable {events ending rest : List Event}

/-- A script at its end gives an empty piece to any read that asks for
something. -/
theorem Event.Ends.read (h : Event.Ends ending rest) (fs : FileSystem) (hn : n ≠ 0) :
    Source.read fs n (Reader.script ending) = (.ok [], .script rest) := by
  cases h with
  | exhausted => exact if_neg hn
  | empty rest => exact (read_script hn _ _).trans (if_pos n.zero_le)

/-- What the reads of a script bring up to the first that brings nothing or
fails, and that failure. -/
def Event.upToFailure : List Event → Bytes × Option Error
  | [] => ([], none)
  | .data s :: rest =>
    if s = [] then ([], none) else (s ++ (upToFailure rest).1, (upToFailure rest).2)
  | .fail e :: _ => ([], some e)

/-- The reads of a script are interrupted before they have come to its end or
failed. -/
def Event.Interrupted (events : List Event) : Prop :=
  ∃ e, (upToFailure events).2 = some e ∧ e.kind = .interrupted

/-- Pieces of data come before the first failure as they are. -/
theorem Event.upToFailure_cuts {cuts : List Bytes} (hcuts : [] ∉ cuts) (events : List Event) :
    upToFailure (cuts.map .data ++ events)
      = (cuts.flatten ++ (upToFailure events).1, (upToFailure events).2) := by
  induction cuts with
  | nil => rfl
  | cons s cuts ih =>
      obtain ⟨hs, hcuts⟩ := not_or.1 (mt List.mem_cons.2 hcuts)
      rw [List.map_cons, List.cons_append, upToFailure, if_neg (Ne.symm hs), ih hcuts,
        List.flatten_cons, List.append_assoc]

/-- A script at its end has no failure left to meet. -/
theorem Event.Ends.upToFailure (h : Event.Ends ending rest) :
    Event.upToFailure ending = ([], none) := by
  cases h with
  | exhausted => rfl
  | empty rest => rfl

/-- Reading again after an interruption makes no difference if there is none. -/
theorem Event.yield_of_not_interrupted (h : ¬Interrupted events) :
    yield events = upToFailure events := by
  induction events with
  | nil => rfl
  | cons event events ih =>
      cases event with
      | data s =>
          rw [yield, upToFailure]
          by_cases hs : s = []
          · rw [if_pos hs, if_pos hs]
          · rw [if_neg hs, if_neg hs, ih]
            rintro ⟨e, he, hkind⟩
            exact h ⟨e, by rwa [upToFailure, if_neg hs], hkind⟩
      | fail e =>
          rw [yield, if_neg fun hkind => h ⟨e, rfl, hkind⟩]
          rfl

/-- A script is pieces of data up to where its content comes to its end, or
up to its first failure. -/
theorem Event.exists_cuts (events : List Event) : ∃ cuts : List Bytes, [] ∉ cuts
    ∧ ((∃ ending rest, Event.Ends ending rest ∧ events = cuts.map .data ++ ending)
      ∨ ∃ e rest, events = cuts.map .data ++ .fail e :: rest) := by
  induction events with
  | nil => exact ⟨[], List.not_mem_nil, .inl ⟨[], [], .exhausted, rfl⟩⟩
  | cons event events ih =>
      cases event with
      | data s =>
          by_cases hs : s = []
          · subst hs
            exact ⟨[], List.not_mem_nil, .inl ⟨_, events, .empty events, rfl⟩⟩
          · obtain ⟨cuts, hcuts, hends⟩ := ih
            refine ⟨s :: cuts, List.not_mem_cons_of_ne_of_not_mem (Ne.symm hs) hcuts, ?_⟩
            rcases hends with ⟨ending, rest, hend, rfl⟩ | ⟨e, rest, rfl⟩
            · exact .inl ⟨ending, rest, hend, rfl⟩
            · exact .inr ⟨e, rest, rfl⟩
      | fail e => exact ⟨[], List.not_mem_nil, .inr ⟨e, events, rfl⟩⟩

/-- A piece of a script is handed out as it is or in parts. -/
theorem hands_data (fs : FileSystem) (hn : n ≠ 0) (events : List Event) {s : Bytes}
    (hs : s ≠ []) : ∃ pieces,
      Hands fs n (Reader.script (.data s :: events)) pieces (.script events)
        ∧ pieces.flatten = s := by
  -- What is left of a longer piece stays in front, and is shorter.
  induction hlength : s.length using Nat.strong_induction_on generalizing s with
  | h length ih =>
      by_cases hshort : s.length ≤ n
      · exact ⟨[s], .piece ((read_script hn _ _).trans (if_pos hshort)) hs (.still _),
          List.flatten_singleton⟩
      · have hpart : s.take n ≠ [] := fun hnil =>
          (List.take_eq_nil_iff.1 hnil).elim hn hs
        have hleft : s.drop n ≠ [] := fun hnil => hshort (List.drop_eq_nil_iff.1 hnil)
        have hless : (s.drop n).length < length := by
          rw [List.length_drop]
          omega
        obtain ⟨parts, hparts, hflatten⟩ := ih _ hless hleft rfl
        refine ⟨s.take n :: parts,
          .piece ((read_script hn _ _).trans (if_neg hshort)) hpart hparts, ?_⟩
        rw [List.flatten_cons, hflatten, List.take_append_drop]

/-- However content is cut, it is handed out up to where it ends. -/
theorem hands_cuts (fs : FileSystem) (hn : n ≠ 0) {cuts : List Bytes} (hcuts : [] ∉ cuts)
    (events : List Event) : ∃ pieces,
      Hands fs n (Reader.script (cuts.map .data ++ events)) pieces (.script events)
        ∧ pieces.flatten = cuts.flatten := by
  induction cuts with
  | nil => exact ⟨[], .still _, rfl⟩
  | cons s cuts ih =>
      obtain ⟨hs, hcuts⟩ := not_or.1 (mt List.mem_cons.2 hcuts)
      obtain ⟨front, hfront, hdata⟩ := hands_data fs hn (cuts.map .data ++ events) (Ne.symm hs)
      obtain ⟨pieces, hpieces, hflatten⟩ := ih hcuts
      refine ⟨front ++ pieces, hfront.append hpieces, ?_⟩
      rw [List.flatten_append, hdata, hflatten, List.flatten_cons]

/-- The bound of a loop counts the bytes of a script. -/
theorem length_le_pending (fs : FileSystem) (cuts : List Bytes) (ending : List Event) :
    cuts.flatten.length ≤ Source.pending fs (Reader.script (cuts.map .data ++ ending)) := by
  show _ ≤ (List.map Event.weight _).foldr (· + ·) 0
  induction cuts with
  | nil => exact Nat.zero_le _
  | cons s cuts ih =>
      rw [List.flatten_cons, List.length_append, List.map_cons, List.cons_append, List.map_cons,
        List.foldr_cons]
      exact Nat.add_le_add (Nat.le_succ _) ih

/-- That bound allows for the pieces that are handed out. -/
theorem Hands.length_le_pending {r' : Reader} {cuts pieces : List Bytes}
    (h : Hands fs n (Reader.script (cuts.map .data ++ events)) pieces r')
    (hflatten : pieces.flatten = cuts.flatten) :
    pieces.length ≤ Source.pending fs (Reader.script (cuts.map .data ++ events)) :=
  calc pieces.length
      ≤ pieces.flatten.length := h.length_le
    _ = cuts.flatten.length := by rw [hflatten]
    _ ≤ Source.pending fs (Reader.script (cuts.map .data ++ events)) :=
        Io.length_le_pending fs cuts events

/-- However content is cut, the pieces that it is read in are that content,
and the bound of a loop allows for them. -/
theorem brings_script (fs : FileSystem) (hn : n ≠ 0) {cuts : List Bytes} (hcuts : [] ∉ cuts)
    (hend : Event.Ends ending rest) :
    ∃ pieces, Brings fs n (Reader.script (cuts.map .data ++ ending)) pieces (.script rest)
      ∧ pieces.flatten = cuts.flatten
      ∧ pieces.length ≤ Source.pending fs (Reader.script (cuts.map .data ++ ending)) := by
  obtain ⟨pieces, hpieces, hflatten⟩ := hands_cuts fs hn hcuts ending
  exact ⟨pieces, hpieces.brings (hend.read fs hn), hflatten, hpieces.length_le_pending hflatten⟩

end TracedTransfer.Io
