/-
The checksum of content.

Whatever the pieces are that content comes in, smaller or larger than what is
asked for at once and cut anywhere in a block, its checksum is the digest that
FIPS 180-4 defines of all of them together. The reads go to the first that
brings nothing, and what is behind that stays unread. As the action of a
resource it reports the length of the content with it
(`sha256_of_pieces`).

A copy of the same content into a stream comes to the same, whether the
content ends or fails, with one exception: the copy reads again after an
interruption, and the checksum takes it for a failure
(`sha256_agrees_with_copy`).
-/
import TracedTransfer.Proofs.Digest.Streaming
import TracedTransfer.Proofs.Resource.ReadVariants

namespace TracedTransfer.Resource

open Text Io Storage
open Digest.Standard (sha256Hex)

/-- A digest that could be computed is what the action returns. -/
theorem sha256Action_of_ok {info : Metadata} {r left : ContentReader} {m : Machine}
    {digest : String} (h : Digest.sha256 m.files r = (.ok digest, left)) :
    sha256Action info r m = (.value (.ok digest, left), m) := by
  have hgets : (Action.gets fun m : Machine => Digest.sha256 m.files r) m
      = (.value (.ok digest, left), m) := by
    rw [Action.run_gets, h]
  unfold sha256Action
  rw [Action.bind_of_value hgets]
  rfl

/-- What the checksum of a script comes to that holds `content` and behind
its end `rest`. -/
structure Checksummed (events rest : List Io.Event) (content : Bytes) : Prop where
  /-- The digest is that of the content, and the rest is left. -/
  digest : ∀ fs, Digest.sha256 fs (Reader.script events)
    = (.ok (sha256Hex content), .script rest)
  /-- The reads bring the content in pieces and then nothing, and there are
  no others. -/
  reads : ∀ fs, ∃ pieces : List Bytes, [] ∉ pieces ∧ pieces.flatten = content
    ∧ Digest.sha256 fs (Transcribed.ofSource (Reader.script events))
      = (.ok (sha256Hex content), ⟨.script rest, (pieces ++ [[]]).map .ok⟩)
  /-- A resource that opens the script reports the digest and the length. -/
  action : ∀ {s : ContentSource} {info : Metadata} {m m₁ : Machine},
    s.openContent m = (.value (.ok (some ⟨.script events, info⟩)), m₁) →
      BothCome (s.resource.withAction sha256Action) (s.resource.withActionIfPresent sha256Action)
        m (.ok ⟨content.length, sha256Hex content⟩) m₁

/-- **How content is cut plays no part in its checksum.** -/
theorem sha256_of_pieces {cuts : List Bytes} (hcuts : [] ∉ cuts) {ending rest : List Io.Event}
    (hend : Event.Ends ending rest) :
    Checksummed (cuts.map .data ++ ending) rest cuts.flatten := by
  have hbrings := fun fs =>
    brings_script fs (n := Digest.pieceSize) (by decide) hcuts hend
  refine ⟨fun fs => ?_, fun fs => ?_, fun {s info m m₁} hopen => ?_⟩
  · obtain ⟨pieces, hpieces, hflatten, hpending⟩ := hbrings fs
    rw [← hflatten]
    exact Digest.sha256_of_brings hpieces hpending
  · obtain ⟨pieces, hpieces, hflatten, hpending⟩ := hbrings fs
    refine ⟨pieces, hpieces.nonempty, hflatten, ?_⟩
    rw [← hflatten]
    exact Digest.sha256_of_brings (hpieces.transcribed []) hpending
  · obtain ⟨pieces, hpieces, hflatten, hpending⟩ := hbrings m₁.files
    have hdigest := Digest.sha256_of_brings (hpieces.counted 0) hpending
    rw [hflatten, Nat.zero_add] at hdigest
    have hact : sha256Action info (Counted.ofSource (Reader.script (cuts.map .data ++ ending))) m₁
        = (.value (.ok (sha256Hex cuts.flatten), ⟨.script rest, cuts.flatten.length⟩), m₁) :=
      sha256Action_of_ok hdigest
    refine ifPresent_of_some hopen ?_
    rw [Action.bind_of_value hact]
    rfl

/-- A memory resource whose content comes in two pieces: its checksum is that
of the three bytes, and neither the failure behind the empty read nor the data
behind that is met. -/
theorem sha256_of_pieces_before_failure :
    let cuts : List Bytes := [[0x61, 0x62], [0x63]]
    let rest : List Io.Event := [.fail (.system .notFound), .data [0x64]]
    let events : List Io.Event := cuts.map .data ++ .data [] :: rest
    let n : Name := ⟨⟨"memory".toList, none, "/abc".toList, none, none⟩⟩
    let s : ContentSource := (MemoryResource.mk n 0 [] (.ok none) none).source
    let m : Machine := { Machine.initial .empty .default with shelves := [⟨some events, 0, 0⟩] }
    let m₁ : Machine := { m with shelves := [⟨some events, 1, 0⟩] }
    [] ∉ cuts ∧ Event.Ends (.data [] :: rest) rest
      ∧ s.openContent m = (.value (.ok (some ⟨.script events, .ofLength n.url 4⟩)), m₁)
      ∧ s.resource.withAction sha256Action m = (.value (.ok ⟨3, sha256Hex [0x61, 0x62, 0x63]⟩), m₁)
      ∧ Digest.sha256 m.files (Reader.script events)
        = (.ok (sha256Hex [0x61, 0x62, 0x63]), .script rest) := by
  intro cuts rest events n s m m₁
  have hcuts : [] ∉ cuts := by decide
  have hopen : s.openContent m
      = (.value (.ok (some ⟨.script events, .ofLength n.url 4⟩)), m₁) := rfl
  have hsum := sha256_of_pieces hcuts (.empty rest)
  exact ⟨hcuts, .empty rest, hopen, (hsum.action hopen).1, hsum.digest _⟩

-- ============================================================== copying

/-- How a checksum fails that cannot read the content. -/
def hashFailure (n : Name) (info : Metadata) (e : Io.Error) : Error :=
  .transform n.location (.known ("hash " ++ info.location.text) :: e.chain)

/-- What a checksum returns for what was brought. -/
noncomputable def hashed (n : Name) (info : Metadata) :
    Except Io.Error Bytes → Except Error (ReadResult String)
  | .ok bytes => .ok ⟨bytes.length, sha256Hex bytes⟩
  | .error e => .error (hashFailure n info e)

section

variable {s : ContentSource} {info : Metadata} {events : List Io.Event} {m m₁ : Machine}

/-- The checksum of a script is that of what it holds up to its first
failure, an interruption included. -/
theorem sha256Action_of_script
    (hopen : s.openContent m = (.value (.ok (some ⟨.script events, info⟩)), m₁)) :
    BothCome (s.resource.withAction sha256Action) (s.resource.withActionIfPresent sha256Action)
      m (hashed s.name info (whole (Event.upToFailure events))) m₁ := by
  obtain ⟨left, hsum⟩ := Digest.sha256_script m₁.files events
  have hread : (Action.gets fun m : Machine =>
      Digest.sha256 m.files (Counted.ofSource (Reader.script events))) m₁
        = (.value ((whole (Event.upToFailure events)).map sha256Hex,
            ⟨left, (Event.upToFailure events).1.length⟩), m₁) := by
    rw [Action.run_gets, hsum]
  have hact : ∃ outcome, sha256Action info (Counted.ofSource (Reader.script events)) m₁
        = (.value (outcome, ⟨left, (Event.upToFailure events).1.length⟩), m₁)
      ∧ (outcome.mapError (Error.transform s.name.location)).map
          (ReadResult.mk (Event.upToFailure events).1.length)
        = hashed s.name info (whole (Event.upToFailure events)) := by
    unfold sha256Action
    rw [Action.bind_of_value hread]
    rcases Event.upToFailure events with ⟨bytes, _ | e⟩
    · exact ⟨_, rfl, rfl⟩
    · exact ⟨_, rfl, rfl⟩
  obtain ⟨outcome, hact, houtcome⟩ := hact
  refine ifPresent_of_some hopen ?_
  rw [Action.bind_of_value hact, ← houtcome]
  cases outcome with
  | ok digest => rfl
  | error c => rfl

/-- How the checksum of a script, which comes to `sum`, compares with a copy
of it that comes to `sent` and to which the bytes `reached` belong. -/
structure Compared (n : Name) (info : Metadata) (events : List Io.Event)
    (sum : Except Error (ReadResult String)) (sent : Except Error (ReadResult Unit))
    (reached : Bytes) : Prop where
  /-- The checksum succeeds if the copy does and there is no interruption. -/
  succeeds : (∃ x, sum = .ok x) ↔ (∃ y, sent = .ok y) ∧ ¬Event.Interrupted events
  /-- Then it is the checksum of the copy, and as long. -/
  digest : ∀ x, sum = .ok x →
    x = ⟨reached.length, sha256Hex reached⟩ ∧ sent = .ok ⟨reached.length, ()⟩
  /-- What the copy fails with the checksum fails with too, -/
  failure : ¬Event.Interrupted events → ∀ e, sent = .error e →
    ∃ cause, e = .io n.location cause ∧ sum = .error (hashFailure n info cause)
  /-- and an interruption is a failure of the checksum, whatever comes of the
  copy. -/
  interruption : Event.Interrupted events →
    ∃ cause, cause.kind = .interrupted ∧ sum = .error (hashFailure n info cause)

/-- The three ways to read the same events, side by side: hashed up to the
first failure, copied and read to the end past interruptions. -/
theorem compared (n : Name) (info : Metadata) (events : List Io.Event) :
    Compared n info events (hashed n info (whole (Event.upToFailure events)))
      (copied n (whole (Event.yield events))) (Event.yield events).1 := by
  by_cases hstop : Event.Interrupted events
  · obtain ⟨e, he, hkind⟩ := hstop
    have hsum : hashed n info (whole (Event.upToFailure events))
        = .error (hashFailure n info e) := by
      rw [← Prod.mk.eta (p := Event.upToFailure events), he]
      rfl
    refine ⟨?_, ?_, fun h => absurd ⟨e, he, hkind⟩ h, fun _ => ⟨e, hkind, hsum⟩⟩
    · rw [hsum]
      exact iff_of_false nofun fun h => h.2 ⟨e, he, hkind⟩
    · rw [hsum]
      exact nofun
  · rw [← Event.yield_of_not_interrupted hstop]
    rcases Event.yield events with ⟨bytes, _ | e⟩
    · refine ⟨iff_of_true ⟨_, rfl⟩ ⟨⟨_, rfl⟩, hstop⟩, ?_, fun _ => nofun, fun h => absurd h hstop⟩
      intro x hx
      cases hx
      exact ⟨rfl, rfl⟩
    · refine ⟨iff_of_false nofun ?_, nofun, ?_, fun h => absurd h hstop⟩
      · rintro ⟨⟨y, hy⟩, -⟩
        cases hy
      · intro _ _ he
        cases he
        exact ⟨e, rfl, rfl⟩

/-- **A checksum is that of a copy**, and fails as the copy does, unless the
reading is interrupted: that it takes for a failure. -/
theorem sha256_agrees_with_copy {w : Writer Machine} {taking : Machine → Prop}
    {written : Machine → Bytes} (hw : w.TakesAll taking written) (hm₁ : taking m₁)
    (hopen : s.openContent m = (.value (.ok (some ⟨.script events, info⟩)), m₁)) :
    ∃ sum sent m' reached,
      BothCome (s.resource.withAction sha256Action) (s.resource.withActionIfPresent sha256Action)
          m sum m₁
        ∧ s.resource.writeToStream w m = (.value sent, m') ∧ written m' = written m₁ ++ reached
        ∧ Compared s.name info events sum sent reached := by
  obtain ⟨m', hsent, hreached⟩ := writeToStream_of_script hw hm₁ hopen
  exact ⟨_, _, m', _, sha256Action_of_script hopen, hsent, hreached, compared _ _ _⟩

end

/-- A memory resource whose content comes in two pieces, with an
interruption behind its end: the checksum is that of the word in the
output. -/
theorem sha256_agrees_with_copy_of_memory :
    let events : List Io.Event :=
      [.data (bytesOf "ne"), .data (bytesOf "w"), .data [], .fail (.system .interrupted)]
    let n : Name := ⟨⟨"memory".toList, none, "/new".toList, none, none⟩⟩
    let s : ContentSource := (MemoryResource.mk n 0 [] (.ok none) none).source
    let m : Machine := { Machine.initial .empty .default with shelves := [⟨some events, 0, 0⟩] }
    let m₁ : Machine := { m with shelves := [⟨some events, 1, 0⟩] }
    s.openContent m = (.value (.ok (some ⟨.script events, .ofLength n.url 3⟩)), m₁)
      ∧ ¬Event.Interrupted events
      ∧ ∃ sum sent m' reached,
        BothCome (s.resource.withAction sha256Action)
            (s.resource.withActionIfPresent sha256Action) m sum m₁
          ∧ s.resource.writeToStream Machine.outputWriter m = (.value sent, m')
          ∧ m'.console.output = m₁.console.output ++ reached
          ∧ Compared s.name (.ofLength n.url 3) events sum sent reached := by
  intro events n s m m₁
  have hopen : s.openContent m
      = (.value (.ok (some ⟨.script events, .ofLength n.url 3⟩)), m₁) := rfl
  have hstop : ¬Event.Interrupted events := by
    rintro ⟨e, he, -⟩
    cases he
  exact ⟨hopen, hstop, sha256_agrees_with_copy outputWriter_takesAll trivial hopen⟩

/-- A word in two pieces with an interruption between them: the copy brings
the word, and there is no checksum of it. -/
theorem no_sha256_of_interrupted :
    let n : Name := ⟨⟨"memory".toList, none, "/new".toList, none, none⟩⟩
    let s : ContentSource := (MemoryResource.mk n 0 [] (.ok none) none).source
    let m : Machine := { Machine.initial .empty .default with
      shelves := [⟨some twoPieces, 0, 0⟩] }
    let m₁ : Machine := { m with shelves := [⟨some twoPieces, 1, 0⟩] }
    (∃ m', s.resource.writeToStream Machine.outputWriter m = (.value (.ok ⟨3, ()⟩), m')
        ∧ m'.console.output = m₁.console.output ++ bytesOf "new")
      ∧ s.resource.withAction sha256Action m
        = (.value (.error (.transform n.location [.known "hash memory:/new", .system])), m₁) := by
  intro n s m m₁
  have hopen : s.openContent m
      = (.value (.ok (some ⟨.script twoPieces, .ofLength n.url 3⟩)), m₁) := rfl
  have hyield : Event.yield twoPieces = (bytesOf "new", none) := by cbv
  obtain ⟨m', hsent, hreached⟩ := writeToStream_of_script outputWriter_takesAll trivial hopen
  rw [hyield] at hsent hreached
  exact ⟨⟨m', hsent, hreached⟩, (sha256Action_of_script hopen).1⟩

end TracedTransfer.Resource
