/-
The digest of content that is read piece by piece.

The loop hands each piece to a hasher, and a hasher holds what it would if it
had taken the pieces as one (`Hasher.updates`). So the digest is that of all
the pieces together, whatever they are, and the reader is left behind the
first empty answer (`sha256_of_brings`). The first failure, of whatever kind,
ends it without a digest (`sha256_of_failure`). Of a script this is the
content up to its first failure (`sha256_script`). Content in memory is one
piece, which never fails.
-/
import TracedTransfer.Digest.Streaming
import TracedTransfer.Proofs.Digest.Conformance
import TracedTransfer.Proofs.Io.Copy
import TracedTransfer.Proofs.Io.Pieces

namespace TracedTransfer.Digest

open Text Io

variable {ρ : Type} [Source ρ] {fs : FileSystem}

/-- The loop takes every piece that it is handed, and goes on with the rest
of its bound. -/
theorem absorbWithin_of_hands {r r' : ρ} {pieces : List Bytes}
    (h : Hands fs pieceSize r pieces r') (fuel : ℕ) (hasher : Hasher) :
    absorbWithin fs (pieces.length + fuel) hasher r
      = absorbWithin fs fuel (pieces.foldl Hasher.update hasher) r' := by
  induction h generalizing hasher with
  | still r => rw [List.length_nil, Nat.zero_add, List.foldl_nil]
  | piece hread hs hrest ih =>
      rw [List.length_cons, Nat.add_right_comm]
      conv_lhs => unfold absorbWithin
      rw [hread]
      dsimp only
      rw [if_neg (mt List.isEmpty_iff.1 hs), List.foldl_cons]
      exact ih _

/-- What the answer behind the pieces makes of what has been taken, if the
bound allows for them. -/
theorem absorbWithin_of_answer {r r' r'' : ρ} {pieces : List Bytes}
    (h : Hands fs pieceSize r pieces r') (hpending : pieces.length ≤ Source.pending fs r)
    {answer : Except Error Bytes} (hread : Source.read fs pieceSize r' = (answer, r''))
    (hends : ∀ s, answer = .ok s → s = []) :
    absorbWithin fs (Source.pending fs r + 1) Hasher.empty r
      = (answer.map fun _ => Hasher.taken pieces.flatten, r'') := by
  obtain ⟨left, hleft⟩ := Nat.exists_eq_add_of_le hpending
  rw [hleft, Nat.add_assoc, absorbWithin_of_hands h, ← Hasher.taken_nil, Hasher.updates,
    List.nil_append]
  unfold absorbWithin
  rw [hread]
  cases answer with
  | error e => rfl
  | ok s =>
      obtain rfl := hends s rfl
      rfl

/-- **The digest of content is that of its pieces together**, of any reader
whose bound allows for them. -/
theorem sha256_of_brings {r r' : ρ} {pieces : List Bytes} (h : Brings fs pieceSize r pieces r')
    (hpending : pieces.length ≤ Source.pending fs r) :
    sha256 fs r = (.ok (Standard.sha256Hex pieces.flatten), r') := by
  obtain ⟨r₁, hhands, hend⟩ := h.hands
  unfold sha256
  rw [absorbWithin_of_answer hhands hpending hend fun s hs => (Except.ok.inj hs).symm,
    ← Standard.hexDigest_eq, Sha256.hexDigest, ← Hasher.finish_taken]
  rfl

/-- A failure ends the reading, whatever has been taken before. -/
theorem sha256_of_failure {r r' r'' : ρ} {pieces : List Bytes}
    (h : Hands fs pieceSize r pieces r') (hpending : pieces.length ≤ Source.pending fs r)
    {e : Error} (hread : Source.read fs pieceSize r' = (.error e, r'')) :
    sha256 fs r = (.error e, r'') := by
  unfold sha256
  rw [absorbWithin_of_answer h hpending hread nofun]
  rfl

/-- The digest of a script is that of what it holds up to its first failure,
or there is that failure in its place. Those bytes are counted. -/
theorem sha256_script (fs : FileSystem) (events : List Event) : ∃ left,
    sha256 fs (Counted.ofSource (Reader.script events))
      = ((whole (Event.upToFailure events)).map Standard.sha256Hex,
        ⟨left, (Event.upToFailure events).1.length⟩) := by
  obtain ⟨cuts, hcuts, ⟨ending, rest, hend, rfl⟩ | ⟨e, rest, rfl⟩⟩ := Event.exists_cuts events
  · obtain ⟨pieces, hpieces, hflatten, hpending⟩ :=
      brings_script fs (n := pieceSize) (by decide) hcuts hend
    refine ⟨.script rest, ?_⟩
    rw [Counted.ofSource, sha256_of_brings (hpieces.counted 0) hpending, hflatten, Nat.zero_add,
      Event.upToFailure_cuts hcuts, hend.upToFailure, List.append_nil]
    rfl
  · obtain ⟨pieces, hpieces, hflatten⟩ :=
      hands_cuts fs (n := pieceSize) (by decide) hcuts (.fail e :: rest)
    have hread : Source.read fs pieceSize
        (⟨.script (.fail e :: rest), 0 + pieces.flatten.length⟩ : Counted Reader)
          = (.error e, ⟨.script rest, 0 + pieces.flatten.length⟩) := by
      rw [read_counted, read_script (by decide)]
    refine ⟨.script rest, ?_⟩
    rw [Counted.ofSource,
      sha256_of_failure (hpieces.counted 0) (hpieces.length_le_pending hflatten) hread, hflatten,
      Nat.zero_add, Event.upToFailure_cuts hcuts, Event.upToFailure, List.append_nil]
    rfl

/-- The digest of content in memory does not fail. -/
theorem sha256_ofBytes (fs : FileSystem) (bytes : Bytes) :
    sha256 fs (Counted.ofSource (Reader.ofBytes bytes))
      = (.ok (Standard.sha256Hex bytes), ⟨.script [], bytes.length⟩) := by
  have hscript : ∃ cuts : List Bytes, [] ∉ cuts ∧ cuts.flatten = bytes
      ∧ Reader.ofBytes bytes = .script (cuts.map .data ++ []) := by
    cases bytes with
    | nil => exact ⟨[], List.not_mem_nil, rfl, rfl⟩
    | cons b bytes => exact ⟨[b :: bytes], by simp, by simp, rfl⟩
  obtain ⟨cuts, hcuts, rfl, hreader⟩ := hscript
  obtain ⟨pieces, hpieces, hflatten, hpending⟩ :=
    brings_script fs (n := pieceSize) (by decide) hcuts .exhausted
  rw [Counted.ofSource, hreader, sha256_of_brings (hpieces.counted 0) hpending, hflatten,
    Nat.zero_add]

end TracedTransfer.Digest
