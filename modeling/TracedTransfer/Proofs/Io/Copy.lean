/-
Copying to a writer that takes everything.

Such a writer may take less than it is given, as long as it takes a byte
at least and never fails (`Writer.TakesAll`). A copy to it comes to what
reading to the end comes to (`copy_takesAll`): it brings the same bytes,
ends with the same failure if there is one, and leaves the reader at the
same place. That is said of readers that read the same whatever the files
are (`Steady`), as scripts do, since nothing is known of what the writer
does to them.

Which event of a script ends its reading is told by `Event.Comes`: the
first failure that is no interruption, if it stands before the first empty
piece.
-/
import TracedTransfer.Proofs.Io.Drain

namespace TracedTransfer.Io

open Text

/-- What is brought as a whole, unless a read fails. -/
def whole : Bytes × Option Error → Except Error Bytes
  | (bytes, none) => .ok bytes
  | (_, some e) => .error e

/-- What is brought as a whole has met no failure. -/
theorem whole_ok {x : Bytes × Option Error} {bytes : Bytes} (h : whole x = .ok bytes) :
    x = (bytes, none) := by
  rcases x with ⟨brought, _ | e⟩
  · cases h
    rfl
  · cases h

-- ============================================================== scripts

namespace Event

/-- An event that a loop reads past: bytes, or an interruption. -/
def Passed : Event → Prop
  | .data s => s ≠ []
  | .fail e => e.kind = .interrupted

/-- What the reading of a script comes to: the bytes before what ends it,
which is the end of the script, an empty piece, or a failure that is no
interruption. -/
inductive Comes : List Event → Bytes × Option Error → Prop where
  /-- The script ends, -/
  | ended {before : List Event} (passed : ∀ event ∈ before, event.Passed) :
      Comes before (before.flatMap Event.bytes, none)
  /-- an empty piece ends it, -/
  | empty {before : List Event} (passed : ∀ event ∈ before, event.Passed)
      (rest : List Event) :
      Comes (before ++ .data [] :: rest) (before.flatMap Event.bytes, none)
  /-- or a failure that is no interruption. -/
  | failed {before : List Event} (passed : ∀ event ∈ before, event.Passed)
      {e : Error} (fatal : e.kind ≠ .interrupted) (rest : List Event) :
      Comes (before ++ .fail e :: rest) (before.flatMap Event.bytes, some e)

/-- What is read past may stand in front. -/
theorem Comes.cons {event : Event} {events : List Event} {x : Bytes × Option Error}
    (h : Comes events x) (hevent : event.Passed) :
    Comes (event :: events) (event.bytes ++ x.1, x.2) := by
  cases h with
  | ended passed => exact .ended (List.forall_mem_cons.2 ⟨hevent, passed⟩)
  | empty passed rest => exact .empty (List.forall_mem_cons.2 ⟨hevent, passed⟩) rest
  | failed passed fatal rest =>
      exact .failed (List.forall_mem_cons.2 ⟨hevent, passed⟩) fatal rest

/-- Reading a script comes to what its events up to the one that ends it
bring. -/
theorem comes_yield (events : List Event) : Comes events (yield events) := by
  induction events with
  | nil => exact @Comes.ended [] (by simp)
  | cons event rest ih =>
      cases event with
      | data s =>
          rw [yield]
          split
          · next hs =>
              subst hs
              exact @Comes.empty [] (by simp) rest
          · next hs => exact ih.cons hs
      | fail e =>
          rw [yield]
          split
          · next he => exact ih.cons he
          · next he => exact @Comes.failed [] (by simp) e he rest

end Event

-- ============================================================== writing

section writing

variable {σ : Type}

theorem writeAllWithin_nil (writer : Writer σ) (fuel : Nat) (s : σ) :
    writer.writeAllWithin fuel [] s = (.ok (), s) := by
  cases fuel with
  | zero => rfl
  | succ fuel => rfl

/-- One round of writing: done, some bytes taken, an interruption that is
written past, or a failure. -/
theorem writeAllWithin_succ (writer : Writer σ) (fuel : Nat) (data : Bytes) (s : σ) :
    writer.writeAllWithin (fuel + 1) data s =
      if data.isEmpty then (.ok (), s)
      else
        match writer.write data s with
        | (.ok n, s) =>
          if n = 0 then (.error .noProgress, s)
          else writer.writeAllWithin fuel (data.drop n) s
        | (.error e, s) =>
          if e.kind = .interrupted then writer.writeAllWithin fuel data s
          else (.error e, s) := rfl

/-- A write of all bytes has a first round. -/
theorem writeAll_eq (writer : Writer σ) {data : Bytes} (hdata : data ≠ []) (s : σ) :
    ∃ fuel, writer.writeAll data s = writer.writeAllWithin (fuel + 1) data s := by
  obtain ⟨b, rest, rfl⟩ := List.exists_cons_of_ne_nil hdata
  refine ⟨rest.length + Writer.maxInterruptions, ?_⟩
  rw [Writer.writeAll, List.length_cons, Nat.add_right_comm]

/-- A writer that takes everything while its state is of a kind, which it
stays: of every write some, in the end all. -/
structure Writer.TakesAll (w : Writer σ) (kind : σ → Prop) (written : σ → Bytes) :
    Prop where
  /-- It takes some of what it is given, keeps that, and stays so, -/
  write : ∀ {s : σ}, kind s → ∀ {data : Bytes}, data ≠ [] → ∃ n s',
    w.write data s = (.ok n, s') ∧ 0 < n ∧ n ≤ data.length ∧ kind s'
      ∧ written s' = written s ++ data.take n
  /-- and it can be flushed. -/
  flush : ∀ {s : σ}, kind s → ∃ s', w.flush s = (.ok (), s') ∧ written s' = written s

variable {w : Writer σ} {taking : σ → Prop} {written : σ → Bytes}

/-- A writer that takes everything takes what it is given in at most as many
rounds as there are bytes. -/
theorem writeAllWithin_takesAll (hw : w.TakesAll taking written) (fuel : Nat)
    (data : Bytes) (hfuel : data.length ≤ fuel) {s : σ} (hs : taking s) :
    ∃ s', w.writeAllWithin fuel data s = (.ok (), s') ∧ taking s'
      ∧ written s' = written s ++ data := by
  induction fuel generalizing data s with
  | zero =>
      obtain rfl : data = [] := List.length_eq_zero_iff.1 (Nat.le_zero.1 hfuel)
      exact ⟨s, rfl, hs, (List.append_nil _).symm⟩
  | succ fuel ih =>
      by_cases hdata : data = []
      · subst hdata
        exact ⟨s, rfl, hs, (List.append_nil _).symm⟩
      · obtain ⟨n, s₁, hwrite, hpos, hle, hs₁, hwritten⟩ := hw.write hs hdata
        obtain ⟨s', hrest, hs', hall⟩ := ih (data.drop n) (by
          rw [List.length_drop]
          omega) hs₁
        refine ⟨s', ?_, hs', ?_⟩
        · rw [writeAllWithin_succ, hwrite]
          simp only [List.isEmpty_iff, if_neg hdata, if_neg (Nat.pos_iff_ne_zero.1 hpos)]
          exact hrest
        · rw [hall, hwritten, List.append_assoc, List.take_append_drop]

theorem writeAll_takesAll (hw : w.TakesAll taking written) (data : Bytes) {s : σ}
    (hs : taking s) : ∃ s', w.writeAll data s = (.ok (), s') ∧ taking s'
      ∧ written s' = written s ++ data :=
  writeAllWithin_takesAll hw _ data (Nat.le_add_right _ _) hs

end writing

-- ============================================================== copying

section copying

variable {σ ρ : Type} [Source ρ]

/-- Readers of a kind that read the same whatever the files are. -/
structure Steady (kind : ρ → Prop) : Prop where
  /-- What is read does not depend on the files, -/
  read : ∀ {r : ρ}, kind r → ∀ (fs fs' : FileSystem) (n : Nat),
    Source.read fs n r = Source.read fs' n r
  /-- neither does how much there is to read, -/
  pending : ∀ {r : ρ}, kind r → ∀ fs fs' : FileSystem,
    Source.pending fs r = Source.pending fs' r
  /-- and reading keeps it so. -/
  stays : ∀ {r : ρ}, kind r → ∀ (fs : FileSystem) (n : Nat),
    kind (Source.read fs n r).2

/-- They read the same whatever a node is. -/
theorem Steady.blind {kind : ρ → Prop} (h : Steady kind) (i : FileSystem.Id) :
    Blind i kind :=
  ⟨fun hr fs node n => h.read hr (fs.setNode i node) fs n, h.stays⟩

theorem Steady.drain {kind : ρ → Prop} (h : Steady kind) (fs fs' : FileSystem)
    (fuel : Nat) {r : ρ} (hr : kind r) : Io.drain fs fuel r = Io.drain fs' fuel r :=
  drain_congr (fun hr n => h.read hr fs fs' n) (fun hr n => h.stays hr fs n) fuel hr

theorem Steady.readToEnd {kind : ρ → Prop} (h : Steady kind) (fs fs' : FileSystem)
    {r : ρ} (hr : kind r) : Io.readToEnd fs r = Io.readToEnd fs' r := by
  rw [readToEnd_eq, readToEnd_eq, h.pending hr fs fs', h.drain fs fs' _ hr]

/-- A steady reader that is counted is steady. -/
theorem Steady.counted {kind : ρ → Prop} (h : Steady kind) :
    Steady fun r : Counted ρ => kind r.inner where
  read {r} hr fs fs' n := by
    rw [read_counted, read_counted, h.read hr fs fs' n]
  pending hr := h.pending hr
  stays {r} hr fs n := by
    have hstays := h.stays hr fs n
    rw [read_counted]
    rcases hread : Source.read fs n r.inner with ⟨answer, inner⟩
    rw [hread] at hstays
    cases answer with
    | ok s => exact hstays
    | error e => exact hstays

/-- A reader of a script. -/
def Reader.IsScript (r : Reader) : Prop := ∃ events, r = .script events

/-- Scripts are steady. -/
theorem Reader.steady : Steady Reader.IsScript where
  read := by
    rintro _ ⟨events, rfl⟩ fs fs' n
    rfl
  pending := by
    rintro _ ⟨events, rfl⟩ fs fs'
    rfl
  stays := by
    rintro _ ⟨events, rfl⟩ fs n
    show Reader.IsScript (Reader.read fs n (.script events)).2
    by_cases hn : n = 0
    · simp only [Reader.read, if_pos hn]
      exact ⟨events, rfl⟩
    · simp only [Reader.read, if_neg hn]
      exact ⟨_, rfl⟩

variable {w : Writer σ} {taking : σ → Prop} {written : σ → Bytes} {kind : ρ → Prop}

/-- A copy to a writer that takes everything goes as a loop that only
reads. -/
theorem copyWithin_takesAll (hw : w.TakesAll taking written) (hk : Steady kind)
    (files : σ → FileSystem) (fs : FileSystem) (fuel count : Nat) {r : ρ} (hr : kind r)
    {s : σ} (hs : taking s) : ∃ s', copyWithin files w fuel count r s =
      { outcome := (whole (drain fs fuel r).1).map fun bytes => count + bytes.length
        reader := (drain fs fuel r).2
        state := s' } ∧ taking s' ∧ written s' = written s ++ (drain fs fuel r).1.1 := by
  induction fuel generalizing count r s with
  | zero => exact ⟨s, rfl, hs, (List.append_nil _).symm⟩
  | succ fuel ih =>
      have hstays := hk.stays hr fs chunkSize
      unfold copyWithin
      rw [drain_succ, hk.read hr (files s) fs]
      rcases hread : Source.read fs chunkSize r with ⟨answer, r'⟩
      rw [hread] at hstays
      cases answer with
      | ok data =>
          -- An empty piece is the end of the content.
          by_cases hdata : data = []
          · subst hdata
            exact ⟨s, rfl, hs, (List.append_nil _).symm⟩
          · obtain ⟨s₁, hall, hs₁, hwritten⟩ := writeAll_takesAll hw data hs
            obtain ⟨s', hrest, hs', hmore⟩ := ih (count + data.length) hstays hs₁
            refine ⟨s', ?_, hs', ?_⟩
            · simp only [List.isEmpty_iff, if_neg hdata, hall]
              rw [hrest]
              rcases (drain fs fuel r').1 with ⟨bytes, _ | e⟩
              · simp only [whole, Except.map, List.length_append, Nat.add_assoc]
              · rfl
            · simp only [List.isEmpty_iff, if_neg hdata]
              rw [hmore, hwritten, List.append_assoc]
      | error e =>
          dsimp only
          -- An interrupted read is asked again, with nothing taken.
          by_cases he : e.kind = .interrupted
          · simp only [if_pos he]
            exact ih count hstays hs
          · simp only [if_neg he]
            exact ⟨s, rfl, hs, (List.append_nil _).symm⟩

/-- A copy comes to what reading to the end comes to. The state of the
writer changes with each piece, but the reader does not see it. -/
theorem copy_takesAll (hw : w.TakesAll taking written) (hk : Steady kind)
    (files : σ → FileSystem) {r : ρ} (hr : kind r) {s : σ} (hs : taking s) :
    ∃ s', copy files w r s =
      { outcome := (whole (readToEnd (files s) r).1).map List.length
        reader := (readToEnd (files s) r).2
        state := s' } ∧ taking s'
      ∧ written s' = written s ++ (readToEnd (files s) r).1.1 := by
  have h := copyWithin_takesAll hw hk files (files s) (Source.pending (files s) r + 1) 0
    hr hs
  rw [← readToEnd_eq] at h
  unfold copy
  simpa only [Nat.zero_add] using h

end copying

end TracedTransfer.Io
