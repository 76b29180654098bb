/-
The lines of a trace file.

A line is the text of a JSON object and a newline, and there is no other
newline in it: what a record holds stands in strings, where control
characters are escaped. So a line is read back as the record's fields
(`read_body`), whatever is in its names, statuses and failures, and lines
behind one another are told apart again (`splitOn_lines`). Only what
stood in the file before may run on into the first of them: it does if it
had no newline at its end (`splitOn_append_lines`).
-/
import TracedTransfer.Operation.TraceFile
import TracedTransfer.Proofs.Json.RoundTrip
import TracedTransfer.Proofs.Text.Encoding

namespace TracedTransfer

open Text

-- ============================================================== pieces

/-- What is put behind a text only belongs to its last piece. -/
theorem splitOn_append {a : UInt8} {xs t : Bytes} {ls : List Bytes}
    (h : xs.splitOn a = ls ++ [t]) (ys : Bytes) :
    a ∉ t ∧ (xs ++ ys).splitOn a = ls ++ (t ++ ys).splitOn a := by
  induction hn : xs.length using Nat.strongRecOn generalizing xs ls with
  | ind n ih =>
      by_cases hmem : a ∈ xs
      · obtain ⟨as, bs, rfl, has⟩ := List.eq_append_cons_of_mem hmem
        rw [List.splitOn_append_cons_self, List.splitOn_eq_singleton has] at h
        rw [List.append_assoc, List.cons_append, List.splitOn_append_cons_self,
          List.splitOn_eq_singleton has]
        cases ls with
        | nil => exact absurd (List.cons.inj h).2 (List.splitOn_ne_nil a bs)
        | cons l ls =>
            obtain ⟨rfl, hbs⟩ := List.cons.inj h
            have hlt : bs.length < n := by
              rw [← hn, List.length_append, List.length_cons]
              omega
            obtain ⟨ht, happend⟩ := ih bs.length hlt hbs rfl
            exact ⟨ht, congrArg (as :: ·) happend⟩
      · rw [List.splitOn_eq_singleton hmem] at h
        cases ls with
        | nil =>
            obtain ⟨rfl, -⟩ := List.cons.inj h
            exact ⟨hmem, rfl⟩
        | cons l ls => exact absurd (List.cons.inj h).2.symm (by simp)

namespace Operation

-- =============================================================== lines

/-- A record of which nothing is lost in a text: no floating-point number
is in it, and all numbers have sixty-four bits. -/
structure Record.Exact (r : Record) : Prop where
  /-- Its number, -/
  id : r.id < u64Bound
  /-- the one of the operation around it, -/
  parent : ∀ p ∈ r.parent, p < u64Bound
  /-- its details, -/
  details : r.descriptor.details.isExact = true
  /-- its times -/
  started : r.startedAtMs < u64Bound
  /-- and durations -/
  duration : r.durationMs < u64Bound
  /-- and its result are such as JSON can tell without loss. -/
  result : ∀ j ∈ r.result, j.isExact = true

namespace TraceFile

/-- The line of a record, without its end. -/
def body (r : Record) : Bytes := Utf8.encode (entry r).text

/-- A line of the trace file is a JSON text and the mark of its end. -/
theorem line_eq (r : Record) : line r = body r ++ [0x0a] := by
  unfold line body Utf8.encode
  rw [List.flatMap_append]
  rfl

/-- There is no newline within a line. -/
theorem newline_not_mem_body (r : Record) : (0x0a : UInt8) ∉ body r :=
  fun h => (entry r).newline_not_mem_text (Utf8.newline_mem_encode h)

/-- Cut at line ends, a text goes on with the first line if it does not end
in one. -/
theorem splitOn_cons_line {t : Bytes} (ht : (0x0a : UInt8) ∉ t) (r : Record) (rest : Bytes) :
    (t ++ (line r ++ rest)).splitOn 0x0a = (t ++ body r) :: rest.splitOn 0x0a := by
  have hnone : (0x0a : UInt8) ∉ t ++ body r := fun h =>
    (List.mem_append.1 h).elim ht (newline_not_mem_body r)
  rw [line_eq, List.append_assoc, List.singleton_append, ← List.append_assoc,
    List.splitOn_append_cons_self, List.splitOn_eq_singleton hnone]
  rfl

/-- Lines behind one another are told apart again. -/
theorem splitOn_lines (rs : List Record) :
    (rs.flatMap line).splitOn 0x0a = rs.map body ++ [[]] := by
  induction rs with
  | nil => exact List.splitOn_nil _
  | cons r rs ih =>
      have hcons := splitOn_cons_line List.not_mem_nil r (rs.flatMap line)
      rw [List.flatMap_cons, List.map_cons, List.cons_append, ← ih]
      exact hcons

/-- Behind a content, the first line continues its last piece, which is
empty if the content ends in a newline. -/
theorem splitOn_append_lines {prior t : Bytes} {ls : List Bytes}
    (h : prior.splitOn 0x0a = ls ++ [t]) (r : Record) (rs : List Record) :
    (prior ++ (r :: rs).flatMap line).splitOn 0x0a
      = ls ++ (t ++ body r) :: (rs.map body ++ [[]]) := by
  obtain ⟨ht, happend⟩ := splitOn_append h ((r :: rs).flatMap line)
  rw [happend, List.flatMap_cons, splitOn_cons_line ht, splitOn_lines]

/-- A text that may be missing is told exactly by JSON, -/
theorem ofString?_exact (s : Option String) : (Json.ofString? s).isExact = true := by
  cases s with
  | none => rfl
  | some s => rfl

/-- and so is a record, if its result is. -/
theorem entry_exact {r : Record} (h : r.Exact) : (entry r).isExact = true := by
  have hid : Json.isExact (.nat r.id) = true := Json.fits_natCast h.id
  have hparent : ((r.parent.map Json.nat).getD .null).isExact = true := by
    rcases hp : r.parent with _ | p
    · rfl
    · exact Json.fits_natCast (h.parent p hp)
  have hstarted : Json.isExact (.nat r.startedAtMs) = true := Json.fits_natCast h.started
  have hduration : Json.isExact (.nat r.durationMs) = true := Json.fits_natCast h.duration
  have hresult : (r.result.getD .null).isExact = true := by
    rcases hj : r.result with _ | j
    · rfl
    · exact h.result j hj
  unfold entry
  simp only [Json.isExact, Json.membersExact, hid, hparent, h.details, hstarted, hduration, hresult,
    ofString?_exact, Bool.and_self]

/-- A part of a record that is missing is `null`. -/
theorem getD_map_null {α : Type} (o : Option α) (f : α → Json) :
    (o.map f).getD .null = o.elim .null f := by
  cases o with
  | none => rfl
  | some a => rfl

/-- A line is read as an object with the fields of its record, in order;
those that are absent are null. -/
theorem read_body {r : Record} (h : r.Exact) :
    ∃ cs, Utf8.decode? (body r) = some cs ∧ Json.parseChars cs = some (.obj [
      ("id", .int r.id),
      ("parentId", r.parent.elim .null fun p => .int p),
      ("displayName", .str r.descriptor.displayName),
      ("progressDisplayName", r.descriptor.progressDisplayName.elim .null .str),
      ("details", r.descriptor.details),
      ("startedAtMs", .int r.startedAtMs),
      ("durationMs", .int r.durationMs),
      ("status", r.status.elim .null .str),
      ("result", r.result.getD .null),
      ("failure", r.failure.elim .null .str)]) := by
  refine ⟨(entry r).text, Utf8.decode?_encode _, ?_⟩
  rw [Json.parseChars_text (entry_exact h)]
  unfold entry Json.ofString?
  rw [getD_map_null, getD_map_null, getD_map_null, getD_map_null]
  rfl

end TraceFile

end Operation

end TracedTransfer
