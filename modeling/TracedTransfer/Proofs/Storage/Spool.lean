/-
What temporary files keep.

A temporary file that is written from its beginning on holds what has been
written (`TempFile.holding`), and once it has been rewound it is read from
the first byte (`reader_holding`). A spool can be too small. That is told
of all bytes together (`Spool.overfull?`), and it is what the writes come
to, however the bytes are cut into pieces: all of them are held, or the
write fails that first goes beyond the room (`writePieces_eq`). The
induction is on the pieces; what has been written so far always has room.
-/
import TracedTransfer.Proofs.Io.Copy
import TracedTransfer.Storage.TempFile

namespace TracedTransfer.Storage

open Text Io

variable {s data : Bytes}

-- =============================================================== files

namespace TempFile

/-- A temporary file that has been written from its beginning on. -/
def holding (s : Bytes) : TempFile := ⟨s, s.length⟩

/-- What is written goes behind what has been written. -/
theorem put_holding (s data : Bytes) : (holding s).put data = holding (s ++ data) := by
  unfold put holding FileSystem.overwrite
  rw [if_pos rfl, List.length_append]

/-- A rewound file is read from its first byte. -/
theorem reader_holding (s : Bytes) : ({ holding s with position := 0 } : TempFile).reader
    = .ofBytes s := rfl

end TempFile

open TempFile

-- ============================================================== spools

namespace Spool

variable {p : Spool} {e : Io.Error}

/-- Why some bytes have no room, if they have none. -/
def overfull? (p : Spool) (s : Bytes) : Option Io.Error :=
  match p.room with
  | none => none
  | some (size, e) => if size < s.length then some e else none

/-- A spool that gives back some bytes. -/
structure Keeps (p : Spool) (s : Bytes) : Prop where
  /-- It can be made, -/
  creation : p.creation = none
  /-- it is large enough, -/
  room : p.overfull? s = none
  /-- and it can be read from its first byte. -/
  rewinding : p.rewinding = none

/-- A file that is overfull has a bound, which the bytes exceed, -/
theorem overfull?_some (h : p.overfull? s = some e) :
    ∃ size lasting, p.room = some (size, lasting) ∧ lasting.1 = e ∧ size < s.length := by
  unfold overfull? at h
  cases hroom : p.room with
  | none =>
      rw [hroom] at h
      cases h
  | some room =>
      obtain ⟨size, lasting⟩ := room
      rw [hroom] at h
      dsimp only at h
      split at h
      · next hlong => exact ⟨size, lasting, rfl, Option.some.inj h, hlong⟩
      · cases h

/-- and one that is not has room for all of them. -/
theorem overfull?_none {size : Nat} {lasting : Lasting} (hroom : p.room = some (size, lasting)) :
    p.overfull? s = none ↔ s.length ≤ size := by
  unfold overfull?
  rw [hroom]
  dsimp only
  split
  · next hlong => exact iff_of_false (by simp) (Nat.not_le.2 hlong)
  · next hfits => exact iff_of_true rfl (Nat.le_of_not_lt hfits)

/-- What has no room has none with more behind it. -/
theorem overfull?_append (h : p.overfull? s = some e) (more : Bytes) :
    p.overfull? (s ++ more) = some e := by
  obtain ⟨size, lasting, hroom, rfl, hlong⟩ := overfull?_some h
  unfold overfull?
  rw [hroom]
  refine if_pos ?_
  rw [List.length_append]
  omega

-- ============================================================== writes

/-- What fits is written in one piece. -/
theorem write_fitting (h : p.overfull? (s ++ data) = none) :
    p.write data (holding s) = (.ok data.length, holding (s ++ data)) := by
  unfold write
  cases hroom : p.room with
  | none => exact Prod.ext rfl (put_holding s data)
  | some room =>
      obtain ⟨size, lasting⟩ := room
      have hlength := (overfull?_none hroom).1 h
      rw [List.length_append] at hlength
      have htaken : data.take (size - s.length) = data :=
        List.take_of_length_le (Nat.le_sub_of_add_le' hlength)
      dsimp only [holding]
      rw [htaken]
      have hempty : ¬ (data.isEmpty && !data.isEmpty) = true := by simp
      rw [if_neg hempty]
      exact Prod.ext rfl (put_holding s data)

/-- A write takes what there is room for. -/
theorem write_partly {size : Nat} {lasting : Lasting} (hroom : p.room = some (size, lasting))
    (hsome : s.length < size) (hdata : data ≠ []) : p.write data (holding s)
      = (.ok (data.take (size - s.length)).length,
        holding (s ++ data.take (size - s.length))) := by
  have htaken : data.take (size - s.length) ≠ [] := by
    rw [Ne, List.take_eq_nil_iff, not_or]
    exact ⟨Nat.sub_ne_zero_of_lt hsome, hdata⟩
  unfold write
  rw [hroom]
  dsimp only [holding]
  rw [if_neg (by simp [htaken])]
  exact Prod.ext rfl (put_holding s _)

/-- A write without room fails. -/
theorem write_full {size : Nat} {lasting : Lasting} (hroom : p.room = some (size, lasting))
    (hfull : size ≤ s.length) (hdata : data ≠ []) :
    p.write data (holding s) = (.error lasting, holding s) := by
  unfold write
  rw [hroom]
  dsimp only [holding]
  rw [Nat.sub_eq_zero_of_le hfull, List.take_zero, if_pos (by simp [hdata])]

/-- And it is not tried again. -/
theorem writeAllWithin_full {size : Nat} {lasting : Lasting}
    (hroom : p.room = some (size, lasting)) (hfull : size ≤ s.length) (hdata : data ≠ [])
    (fuel : Nat) :
    p.writer.writeAllWithin (fuel + 1) data (holding s) = (.error lasting, holding s) := by
  have hwrite : p.writer.write data (holding s) = (.error lasting, holding s) :=
    write_full hroom hfull hdata
  rw [writeAllWithin_succ, if_neg (by rwa [List.isEmpty_iff]), hwrite]
  exact if_neg lasting.2

/-- Where all fits nothing is left to write. -/
theorem writeAll_fitting (h : p.overfull? (s ++ data) = none) :
    p.writer.writeAll data (holding s) = (.ok (), holding (s ++ data)) := by
  by_cases hdata : data = []
  · subst hdata
    rw [Writer.writeAll, writeAllWithin_nil, List.append_nil]
  · obtain ⟨fuel, hfuel⟩ := writeAll_eq p.writer hdata (holding s)
    have hwrite : p.writer.write data (holding s) = (.ok data.length, holding (s ++ data)) :=
      write_fitting h
    have hlength : data.length ≠ 0 := by rwa [Ne, List.length_eq_zero_iff]
    rw [hfuel, writeAllWithin_succ, if_neg (by rwa [List.isEmpty_iff]), hwrite]
    dsimp only
    rw [if_neg hlength, List.drop_length, writeAllWithin_nil]

/-- Bytes for which there is no room: some may be taken, and then the write fails. -/
theorem writeAll_overfull (hs : p.overfull? s = none) (h : p.overfull? (s ++ data) = some e) :
    (p.writer.writeAll data (holding s)).1 = .error e := by
  obtain ⟨size, lasting, hroom, rfl, hlong⟩ := overfull?_some h
  have hfits := (overfull?_none hroom).1 hs
  rw [List.length_append] at hlong
  have hdata : data ≠ [] := by
    rintro rfl
    rw [List.length_nil] at hlong
    omega
  -- a round that takes something, and one that fails
  have hrounds : data.length + Writer.maxInterruptions = data.length + 65534 + 1 + 1 := rfl
  rw [Writer.writeAll, hrounds]
  rcases Nat.lt_or_eq_of_le hfits with hsome | hfull
  · have htaken : (data.take (size - s.length)).length = size - s.length := by
      rw [List.length_take]
      omega
    have hrest : data.drop (size - s.length) ≠ [] := by
      rw [Ne, List.drop_eq_nil_iff]
      omega
    have hnow : size ≤ (s ++ data.take (size - s.length)).length := by
      rw [List.length_append, htaken]
      omega
    have hwrite : p.writer.write data (holding s)
        = (.ok (data.take (size - s.length)).length,
          holding (s ++ data.take (size - s.length))) := write_partly hroom hsome hdata
    rw [writeAllWithin_succ, if_neg (by rwa [List.isEmpty_iff]), hwrite]
    dsimp only
    rw [htaken, if_neg (by omega), writeAllWithin_full hroom hnow hrest]
  · rw [writeAllWithin_full hroom (Nat.le_of_eq hfull.symm) hdata]

/-- Pieces are held together, or have no room together. -/
theorem writePieces_eq (pieces : List Bytes) (hs : p.overfull? s = none) :
    p.writePieces pieces (holding s) = match p.overfull? (s ++ pieces.flatten) with
      | none => .ok (holding (s ++ pieces.flatten))
      | some e => .error e := by
  induction pieces generalizing s with
  | nil =>
      rw [List.flatten_nil, List.append_nil, hs]
      rfl
  | cons data rest ih =>
      rw [writePieces, List.flatten_cons, ← List.append_assoc]
      cases hdata : p.overfull? (s ++ data) with
      | none =>
          rw [writeAll_fitting hdata]
          exact ih hdata
      | some e =>
          have hfailed := writeAll_overfull hs hdata
          rcases hwrite : p.writer.writeAll data (holding s) with ⟨answer, file⟩
          rw [hwrite] at hfailed
          obtain rfl : answer = .error e := hfailed
          rw [overfull?_append hdata]

/-- Nothing has room everywhere. -/
theorem overfull?_nil (p : Spool) : p.overfull? [] = none := by
  unfold overfull?
  split
  · rfl
  · exact if_neg (Nat.not_lt_zero _)

end Spool

end TracedTransfer.Storage
