/-
Reading to the end.

What a reader brings when it is read to the end is known of two kinds of
readers: a script brings what it holds up to its first empty piece or its
first failure that is not an interruption (`Event.yield`), and an open
file brings its content. How long the pieces are that a loop asks for
plays no part in it, nor do interruptions; and the bound of the loop is
never what ends it.
-/
import TracedTransfer.Io.Writer

namespace TracedTransfer.Io

open Text

-- ============================================================== scripts

namespace Event

/-- Whether an event is an interruption. -/
def isInterruption : Event → Bool
  | .data _ => false
  | .fail e => e.kind = .interrupted

/-- What the reads of a script bring up to the first that brings nothing,
and the failure that they end with, if they do. Interrupted reads are made
again. -/
def yield : List Event → Bytes × Option Error
  | [] => ([], none)
  | .data s :: rest =>
    if s = [] then ([], none) else (s ++ (yield rest).1, (yield rest).2)
  | .fail e :: rest => if e.kind = .interrupted then yield rest else ([], some e)

/-- Interruptions make no difference to what a script brings. -/
theorem yield_filter (events : List Event) :
    yield (events.filter (!·.isInterruption)) = yield events := by
  induction events with
  | nil => rfl
  | cons event rest ih =>
      cases event with
      | data s =>
          rw [List.filter_cons_of_pos (by rfl), yield, yield, ih]
      | fail e =>
          by_cases he : e.kind = .interrupted
          · rw [List.filter_cons_of_neg (by simp [isInterruption, he]), yield,
              if_pos he, ih]
          · rw [List.filter_cons_of_pos (by simp [isInterruption, he]), yield, yield,
              if_neg he, if_neg he]

end Event

-- ================================================================ loops

variable {ρ : Type} [Source ρ] {fs : FileSystem}

/-- One round of reading to the end: a piece, the end, an interruption that
is read past, or a failure. -/
theorem readToEndWithin_succ (fuel : Nat) (acc : List Bytes) (r : ρ) :
    readToEndWithin fs (fuel + 1) acc r =
      match Source.read fs chunkSize r with
      | (.ok s, r) =>
        if s.isEmpty then ((acc, none), r) else readToEndWithin fs fuel (s :: acc) r
      | (.error e, r) =>
        if e.kind = .interrupted then readToEndWithin fs fuel acc r
        else ((acc, some e), r) := rfl

/-- What has been read before stays in front. -/
theorem readToEndWithin_append (fuel : Nat) (acc : List Bytes) (r : ρ) :
    readToEndWithin fs fuel acc r
      = (((readToEndWithin fs fuel [] r).1.1 ++ acc,
          (readToEndWithin fs fuel [] r).1.2), (readToEndWithin fs fuel [] r).2) := by
  induction fuel generalizing acc r with
  | zero => rfl
  | succ fuel ih =>
      rw [readToEndWithin_succ, readToEndWithin_succ]
      rcases Source.read fs chunkSize r with ⟨answer, r'⟩
      cases answer with
      | ok s =>
          dsimp only
          split
          · rfl
          · rw [ih (s :: acc), ih [s]]
            simp only [List.append_assoc, List.singleton_append]
      | error e =>
          dsimp only
          split
          · exact ih acc r'
          · rfl

/-- What a loop brings within a bound, and the failure it ends with. -/
def drain (fs : FileSystem) (fuel : Nat) (r : ρ) : (Bytes × Option Error) × ρ :=
  let ((chunks, e), r) := readToEndWithin fs fuel [] r
  ((chunks.reverse.flatten, e), r)

/-- A read to the end has one round more than reads are pending, which is enough
to drain the reader. -/
theorem readToEnd_eq (r : ρ) :
    readToEnd fs r = drain fs (Source.pending fs r + 1) r := rfl

theorem drain_zero (r : ρ) : drain fs 0 r = (([], none), r) := rfl

/-- A loop reads once and goes on, unless that brings nothing or fails. -/
theorem drain_succ (fuel : Nat) (r : ρ) : drain fs (fuel + 1) r =
    match Source.read fs chunkSize r with
    | (.ok s, r) =>
      if s.isEmpty then (([], none), r)
      else ((s ++ (drain fs fuel r).1.1, (drain fs fuel r).1.2), (drain fs fuel r).2)
    | (.error e, r) =>
      if e.kind = .interrupted then drain fs fuel r else (([], some e), r) := by
  unfold drain
  rw [readToEndWithin_succ]
  rcases Source.read fs chunkSize r with ⟨answer, r'⟩
  cases answer with
  | ok s =>
      dsimp only
      split
      · rfl
      · rw [readToEndWithin_append]
        simp only [List.reverse_append, List.reverse_singleton, List.singleton_append,
          List.flatten_cons]
  | error e =>
      dsimp only
      split
      · rfl
      · rfl

/-- One read of a script. -/
theorem read_script {n : Nat} (hn : n ≠ 0) (event : Event) (rest : List Event) :
    Source.read fs n (Reader.script (event :: rest)) = match event with
      | .fail e => (.error e, .script rest)
      | .data s =>
        if s.length ≤ n then (.ok s, .script rest)
        else (.ok (s.take n), .script (.data (s.drop n) :: rest)) := by
  have hread : Source.read fs n (Reader.script (event :: rest))
      = ((Reader.readScript n (event :: rest)).1,
        .script (Reader.readScript n (event :: rest)).2) := if_neg hn
  rw [hread]
  cases event with
  | fail e => rfl
  | data s =>
      simp only [Reader.readScript]
      split
      · rfl
      · rfl

/-- A loop over a script brings what the script yields. The bound counts
bytes and events, so it is never what ends the loop. -/
theorem drain_script {fuel : Nat} {events : List Event}
    (h : (events.map Event.weight).foldr (· + ·) 0 < fuel) :
    (drain fs fuel (Reader.script events)).1 = Event.yield events := by
  induction fuel generalizing events with
  | zero => omega
  | succ fuel ih =>
      rw [drain_succ]
      cases events with
      | nil => rfl
      | cons event rest =>
          rw [List.map_cons, List.foldr_cons, Event.weight] at h
          rw [read_script (by decide)]
          cases event with
          | fail e =>
              rw [Event.yield]
              dsimp only
              split
              · exact ih (by omega)
              · rfl
          | data s =>
              rw [Event.bytes] at h
              rw [Event.yield]
              by_cases hshort : s.length ≤ chunkSize
              · -- The piece is read as a whole.
                simp only [if_pos hshort, List.isEmpty_iff]
                split
                · rfl
                · rw [ih (by omega)]
              · -- A part of the piece is read, and its rest stays in front.
                have hrest : s.drop chunkSize ≠ [] := by
                  rw [ne_eq, List.drop_eq_nil_iff]
                  exact hshort
                have hs : s ≠ [] := fun hnil => hrest (by rw [hnil]; rfl)
                have htake : s.take chunkSize ≠ [] := by
                  rw [ne_eq, List.take_eq_nil_iff, not_or]
                  exact ⟨by decide, hs⟩
                have hrec := @ih (.data (s.drop chunkSize) :: rest) (by
                  simp only [List.map_cons, List.foldr_cons, Event.weight, Event.bytes,
                    List.length_drop]
                  have hpos : 0 < chunkSize := by decide
                  omega)
                rw [Event.yield, if_neg hrest] at hrec
                simp only [if_neg hshort, List.isEmpty_iff, if_neg htake, if_neg hs]
                rw [hrec, ← List.append_assoc, List.take_append_drop]

theorem readToEnd_script (events : List Event) :
    (readToEnd fs (Reader.script events)).1 = Event.yield events := by
  rw [readToEnd_eq]
  exact drain_script (Nat.lt_succ_self _)

/-- What is read and what is left behind it are the whole. -/
theorem take_append_drop_length (s : Bytes) (n : Nat) :
    s.take n ++ s.drop (s.take n).length = s := by
  by_cases h : n ≤ s.length
  · rw [List.length_take_of_le h, List.take_append_drop]
  · rw [List.take_of_length_le (Nat.le_of_not_le h), List.drop_length, List.append_nil]

/-- One read of an open file. -/
theorem read_file {i : FileSystem.Id} {s : Bytes} (hi : fs.node? i = some (.file s))
    (n offset : Nat) : Source.read fs n (Reader.file ⟨i, offset⟩)
      = (.ok ((s.drop offset).take n),
        .file ⟨i, offset + ((s.drop offset).take n).length⟩) := by
  show Reader.read fs n (.file ⟨i, offset⟩) = _
  simp only [Reader.read, FileSystem.readHandle, hi]

/-- A loop over an open file brings what is left of its content. -/
theorem drain_file {i : FileSystem.Id} {s : Bytes}
    (hi : fs.node? i = some (.file s)) {fuel offset : Nat}
    (h : s.length - offset < fuel) :
    (drain fs fuel (Reader.file ⟨i, offset⟩)).1 = (s.drop offset, none) := by
  induction fuel generalizing offset with
  | zero => omega
  | succ fuel ih =>
      rw [drain_succ, read_file hi]
      by_cases hend : s.drop offset = []
      · simp only [hend, List.take_nil, List.isEmpty_nil, if_true]
      · have htake : (s.drop offset).take chunkSize ≠ [] := by
          rw [ne_eq, List.take_eq_nil_iff, not_or]
          exact ⟨by decide, hend⟩
        have hpos := List.length_pos_iff.2 htake
        rw [List.drop_eq_nil_iff, Nat.not_le] at hend
        simp only [List.isEmpty_iff, if_neg htake]
        rw [ih (by omega), ← List.drop_drop, take_append_drop_length]

/-- A file is read from its first byte to its end. -/
theorem readToEnd_file {i : FileSystem.Id} {s : Bytes}
    (hi : fs.node? i = some (.file s)) :
    (readToEnd fs (Reader.file ⟨i, 0⟩)).1 = (s, none) := by
  rw [readToEnd_eq]
  refine (drain_file hi ?_).trans rfl
  have hpending : Source.pending fs (Reader.file ⟨i, 0⟩) = s.length := by
    show (fs.content i).length - 0 = s.length
    rw [FileSystem.content, hi, Nat.sub_zero]
  rw [hpending]
  exact Nat.lt_succ_self _

-- ============================================================= counting

/-- A counting reader reads as the reader in it, and counts. -/
theorem read_counted (n : Nat) (r : Counted ρ) : Source.read fs n r
    = match Source.read fs n r.inner with
      | (.ok s, inner) => (.ok s, ⟨inner, r.count + s.length⟩)
      | (.error e, inner) => (.error e, ⟨inner, r.count⟩) := rfl

/-- A counting reader brings what the reader inside brings, and counts
it. -/
theorem drain_counted (fuel : Nat) (r : Counted ρ) : drain fs fuel r
    = ((drain fs fuel r.inner).1, ⟨(drain fs fuel r.inner).2,
      r.count + (drain fs fuel r.inner).1.1.length⟩) := by
  induction fuel generalizing r with
  | zero => rfl
  | succ fuel ih =>
      rw [drain_succ, drain_succ, read_counted]
      rcases Source.read fs chunkSize r.inner with ⟨answer, inner⟩
      cases answer with
      | ok s =>
          dsimp only
          split
          · next hempty =>
              rw [List.isEmpty_iff.1 hempty]
          · rw [ih]
            simp only [List.length_append, Nat.add_assoc]
      | error e =>
          dsimp only
          split
          · rw [ih]
          · rfl

/-- At its end a counting reader has counted what it has brought. -/
theorem readToEnd_counted (r : ρ) : readToEnd fs (Counted.ofSource r)
    = ((readToEnd fs r).1, ⟨(readToEnd fs r).2, (readToEnd fs r).1.1.length⟩) := by
  rw [readToEnd_eq, readToEnd_eq, drain_counted]
  simp only [Counted.ofSource, Nat.zero_add]
  rfl

-- ============================================================ blindness

/-- What readers bring that read the same in two file systems. -/
theorem drain_congr {fs' : FileSystem} {kind : ρ → Prop}
    (hread : ∀ {r : ρ}, kind r → ∀ n, Source.read fs n r = Source.read fs' n r)
    (hstays : ∀ {r : ρ}, kind r → ∀ n, kind (Source.read fs n r).2) (fuel : Nat) {r : ρ}
    (hr : kind r) : drain fs fuel r = drain fs' fuel r := by
  induction fuel generalizing r with
  | zero => rfl
  | succ fuel ih =>
      have hnext := hstays hr chunkSize
      rw [drain_succ, drain_succ, ← hread hr]
      rcases hanswer : Source.read fs chunkSize r with ⟨answer, r'⟩
      rw [hanswer] at hnext
      cases answer with
      | ok s =>
          dsimp only
          rw [ih hnext]
      | error e =>
          dsimp only
          rw [ih hnext]

/-- Readers of a kind that read the same whatever a node is. -/
structure Blind (i : FileSystem.Id) (kind : ρ → Prop) : Prop where
  /-- What is read does not depend on the node, -/
  read : ∀ {r : ρ}, kind r → ∀ (fs : FileSystem) (node : FileSystem.Node) (n : Nat),
    Source.read (fs.setNode i node) n r = Source.read fs n r
  /-- and reading keeps it so. -/
  stays : ∀ {r : ρ}, kind r → ∀ (fs : FileSystem) (n : Nat),
    kind (Source.read fs n r).2

/-- What such readers bring is the same too. -/
theorem Blind.drain {i : FileSystem.Id} {kind : ρ → Prop} (h : Blind i kind)
    (node : FileSystem.Node) (fuel : Nat) {r : ρ} (hr : kind r) :
    Io.drain (fs.setNode i node) fuel r = Io.drain fs fuel r :=
  (drain_congr (fun hr n => (h.read hr fs node n).symm) (fun hr n => h.stays hr fs n)
    fuel hr).symm

/-- A reader that does not read from a node. -/
def Reader.Apart (i : FileSystem.Id) : Reader → Prop
  | .script _ => True
  | .file h => h.node ≠ i

/-- A reader that is no handle on a file is blind to it, -/
theorem Reader.blind (i : FileSystem.Id) : Blind i (Reader.Apart i) where
  read {r} hr fs node n := by
    cases r with
    | script events => rfl
    | file h =>
        have hnode : (fs.setNode i node).node? h.node = fs.node? h.node :=
          List.getElem?_set_ne (Ne.symm hr)
        show Reader.read _ n (.file h) = Reader.read fs n (.file h)
        simp only [Reader.read, FileSystem.readHandle, hnode]
  stays {r} hr fs n := by
    cases r with
    | script events =>
        show Reader.Apart i (Reader.read fs n (.script events)).2
        simp only [Reader.read]
        split
        · trivial
        · trivial
    | file h =>
        show Reader.Apart i (Reader.read fs n (.file h)).2
        simp only [Reader.read, FileSystem.readHandle]
        rcases fs.node? h.node with _ | node
        · exact hr
        · cases node with
          | file s => exact hr
          | directory es => exact hr
          | link target => exact hr
          | full => exact hr

/-- also if it is counted. -/
theorem Blind.counted {i : FileSystem.Id} {kind : ρ → Prop} (h : Blind i kind) :
    Blind i fun r : Counted ρ => kind r.inner where
  read {r} hr fs node n := by
    rw [read_counted, read_counted, h.read hr fs node n]
  stays {r} hr fs n := by
    have hstays := h.stays hr fs n
    rw [read_counted]
    rcases hread : Source.read fs n r.inner with ⟨answer, inner⟩
    rw [hread] at hstays
    cases answer with
    | ok s => exact hstays
    | error e => exact hstays

end TracedTransfer.Io
