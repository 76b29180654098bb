/-
One put and one get of a file resource.

An upload has a copy loop of its own, but leaves what a copy to the path
leaves (`FileResource.replace_eq`); a put copies what is brought to the
path of the resource if the content can be opened (`Put.run_spec`), and a
get returns what the path shows (`FileResource.get_eq`). So what is known
of one copy in a tree (`Replaced`) is known of one put (`Put.run_done`).
-/
import TracedTransfer.Proofs.Resource.Footprint
import TracedTransfer.Proofs.Storage.Replacement
import TracedTransfer.Resource.File

namespace TracedTransfer.Resource

open Text Io FileSystem FilePath Storage

-- ============================================================= sources

/-- Local content that comes from no file: bytes in memory, or a script that may fail. -/
inductive Supply where
  | memory (displayName : String) (bytes : Bytes)
  | script (displayName : String) (events : List Event) (openFailure : Option Io.Error)

namespace Supply

/-- The content as it is uploaded. -/
def source : Supply → LocalSource
  | memory displayName bytes => .inMemory displayName bytes
  | script displayName events openFailure => .scripted displayName events openFailure

/-- What there is to be read, unless it cannot be opened. -/
def events : Supply → Except Io.Error (List Event)
  | memory _ bytes => .ok (if bytes.isEmpty then [] else [.data bytes])
  | script _ events none => .ok events
  | script _ _ (some e) => .error e

/-- What is brought as a whole, unless the content cannot be opened or a read fails. -/
def brought : Supply → Except Io.Error Bytes
  | memory _ bytes => .ok bytes
  | script _ events none => whole (Event.yield events)
  | script _ _ (some e) => .error e

/-- A supply is opened as its script says. -/
theorem openReader_run (s : Supply) (m : Machine) :
    s.source.openReader m = (.value (s.events.map Reader.script), m) := by
  cases s with
  | memory displayName bytes => rfl
  | script displayName events openFailure =>
      cases openFailure with
      | none => rfl
      | some e => rfl

/-- What it brings is what its events come to. -/
theorem brought_eq {s : Supply} {events : List Event} (h : s.events = .ok events) :
    s.brought = whole (Event.yield events) := by
  cases s with
  | memory displayName bytes =>
      cases h
      by_cases hbytes : bytes = []
      · subst hbytes
        rfl
      · have hyield : Event.yield [.data bytes] = (bytes, none) := by
          rw [Event.yield, if_neg hbytes, Event.yield, List.append_nil]
        rw [List.isEmpty_eq_false_iff.2 hbytes, if_neg Bool.false_ne_true, hyield]
        rfl
  | script displayName events openFailure =>
      cases openFailure with
      | none =>
          cases h
          rfl
      | some e => cases h

end Supply

-- ================================================================ gets

namespace FileResource

variable (r : FileResource)

/-- Reads the whole content, if there is any. -/
def get : IfPresent Bytes := r.source.resource.withContentIfPresent readAll

/-- A resource with content: a get returns it, and its length is known. -/
def Shows (m : Machine) (bytes : Bytes) : Prop :=
  (r.get m).1 = .value (.ok (some ⟨bytes.length, bytes⟩))
    ∧ ∃ known, (r.source.resource.metadata m).1 = .value (.ok (some known))
      ∧ known.contentLength = some bytes.length

/-- The length of a file is that of the content which a look finds. -/
theorem length?_eq (fs : FileSystem) : r.length? fs
    = ((fs.look r.path).map (Option.map List.length)).mapError r.failure := by
  unfold length? fileLength? look
  rcases fs.resolve r.path with e | i
  · show (if e.kind = .notFound then _ else _) = _
    by_cases he : e.kind = .notFound
    · simp only [if_pos he]
      rfl
    · simp only [if_neg he]
      rfl
  · unfold isFileNode content file?
    rcases hn : fs.node? i with _ | n
    · simp only [Except.map, hn]
      rfl
    · cases n
      all_goals
        simp only [Except.map, hn]
        rfl

/-- The content is open if the path shows some. -/
theorem openContent_cases (fs : FileSystem) :
    (∃ e, fs.look r.path = .error e ∧ r.openContent fs = .error (r.failure e))
    ∨ fs.look r.path = .ok none ∧ r.openContent fs = .ok none
    ∨ ∃ s i, fs.look r.path = .ok (some s) ∧ fs.node? i = some (.file s)
      ∧ r.openContent fs = .ok (some ⟨.file ⟨i, 0⟩, r.metadataOf s.length⟩) := by
  unfold openContent
  rw [r.length?_eq]
  rcases hlook : fs.look r.path with e | content
  · exact .inl ⟨e, rfl, rfl⟩
  · right
    cases content with
    | none => exact .inl ⟨rfl, rfl⟩
    | some s =>
        right
        -- A content that shows is that of a node, which is then opened for
        -- reading.
        unfold look at hlook
        rcases hr : fs.resolve r.path with e | i
        · rw [hr] at hlook
          dsimp only at hlook
          split at hlook
          · cases hlook
          · cases hlook
        · rw [hr] at hlook
          have hfile := Except.ok.inj hlook
          unfold file? at hfile
          split at hfile
          · next s' hn =>
              cases hfile
              refine ⟨s, i, rfl, hn, ?_⟩
              simp only [Except.map, Except.mapError, Option.map, openToRead, hr]
          · cases hfile

/-- What a get returns is what the path shows. -/
theorem get_eq (m : Machine) : r.get m = (.value (((m.files.look r.path).map
    (Option.map fun s => ⟨s.length, s⟩)).mapError r.failure), m) := by
  have hopen : r.source.openContent m = (.value (r.openContent m.files), m) := rfl
  show orFail r.source.openContent _ m = _
  unfold orFail
  rw [Action.bind_of_value hopen]
  rcases r.openContent_cases m.files with
    ⟨e, hlook, hcontent⟩ | ⟨hlook, hcontent⟩ | ⟨s, i, hlook, hn, hcontent⟩
  · rw [hlook, hcontent]
    rfl
  · rw [hlook, hcontent]
    rfl
  · have hread : readAll (.ofSource (.file ⟨i, 0⟩)) m = (.value (.ok s,
        ⟨(readToEnd m.files (Reader.file ⟨i, 0⟩)).2, s.length⟩), m) := by
      show (Exit.value (unlessFailed (readToEnd m.files (Counted.ofSource _))), m) = _
      rw [readToEnd_counted, readToEnd_file hn]
      rfl
    rw [hlook, hcontent]
    dsimp only
    rw [bind_assoc, Action.bind_of_value hread]
    rfl

/-- The metadata of a file say what a look finds. -/
theorem metadata_eq (m : Machine) : r.source.resource.metadata m = (.value
    (((m.files.look r.path).map (Option.map fun s => r.metadataOf s.length)).mapError
      r.failure), m) := by
  show (Exit.value ((r.length? m.files).map fun n => n.map r.metadataOf), m) = _
  rw [r.length?_eq]
  rcases m.files.look r.path with e | content
  · rfl
  · cases content with
    | none => rfl
    | some s => rfl

/-- A resource shows content exactly if a look at its path finds it. -/
theorem shows_iff {m : Machine} {bytes : Bytes} :
    r.Shows m bytes ↔ m.files.look r.path = .ok (some bytes) := by
  unfold Shows
  rw [r.get_eq, r.metadata_eq]
  rcases m.files.look r.path with e | content
  · simp [Except.map, Except.mapError]
  · cases content with
    | none => simp [Except.map, Except.mapError]
    | some s =>
        simp only [Except.map, Except.mapError, Option.map]
        constructor
        · rintro ⟨hget, -⟩
          have hread := Option.some.inj (Except.ok.inj (Exit.value.inj hget))
          rw [(ReadResult.mk.inj hread).2]
        · intro hs
          cases hs
          exact ⟨rfl, _, rfl, rfl⟩

/-- An upload leaves what a copy to the path leaves. -/
theorem replace_eq (fs : FileSystem) (reader : Reader) : r.replace fs reader
    = ((copyToPath fs reader r.path).files,
      (copyToPath fs reader r.path).outcome.map fun _ => (),
      (copyToPath fs reader r.path).removal) := by
  unfold replace copyToPath
  rcases PartFile.create fs r.path with ⟨fs₁, e | part⟩
  · rfl
  · dsimp only
    rcases (copy Prod.fst PartFile.writer reader (fs₁, part)).outcome with e | n
    · rfl
    · dsimp only
      rcases (PartFile.commit (copy Prod.fst PartFile.writer reader (fs₁, part)).state.1
        (copy Prod.fst PartFile.writer reader (fs₁, part)).state.2).outcome with e | done
      · rfl
      · rfl

end FileResource

-- ================================================================ puts

/-- A put of local content to a resource. -/
structure Put where
  resource : FileResource
  supply : Supply

namespace Put

/-- The put as programs make it. -/
def run (p : Put) : Run (Except Resource.Error Unit) :=
  p.resource.source.resource.put p.supply.source

/-- A put copies what is brought to the path of the resource, if the content can be opened. -/
theorem run_spec (p : Put) (m : Machine) : ∃ answer m', p.run m = (.value answer, m')
    ∧ ((∃ e, p.supply.events = .error e ∧ answer = .error (.io p.supply.source.displayName e)
        ∧ m'.files = m.files)
      ∨ ∃ events, p.supply.events = .ok events
        ∧ answer = ((copyToPath m.files (Reader.script events) p.resource.path).outcome.map
            fun _ => ()).mapError p.resource.failure
        ∧ m'.files = (copyToPath m.files (Reader.script events) p.resource.path).files) := by
  show ∃ answer m', p.resource.upload p.supply.source m = _ ∧ _
  unfold FileResource.upload
  rw [Action.bind_of_value (p.supply.openReader_run m)]
  -- If the content cannot be opened nothing is touched; otherwise the upload is one copy to the
  -- path.
  rcases p.supply.events with e | events
  · exact ⟨_, _, rfl, .inl ⟨e, rfl, rfl, rfl⟩⟩
  · let stored := copyToPath m.files (Reader.script events) p.resource.path
    obtain ⟨m₁, hremoval, hfiles⟩ :=
      logRemoval_run stored.removal { m with files := stored.files }
    dsimp only [Except.map]
    rw [Action.bind_of_value (Run.onFiles_eq _ m), p.resource.replace_eq]
    dsimp only
    rw [Action.bind_of_value hremoval]
    rcases houtcome : stored.outcome with e | n
    · refine ⟨_, m₁, rfl, .inr ⟨events, rfl, ?_, hfiles⟩⟩
      show _ = (stored.outcome.map fun _ => ()).mapError p.resource.failure
      rw [houtcome]
      rfl
    · refine ⟨_, _, rfl, .inr ⟨events, rfl, ?_, (Operation.logged_files m₁ _ _ _ _).trans hfiles⟩⟩
      show _ = (stored.outcome.map fun _ => ()).mapError p.resource.failure
      rw [houtcome]
      rfl

/-- What a put returns and leaves of a tree: all that is brought is stored, or nothing is. -/
structure Done (p : Put) (fs files : FileSystem) (answer : Except Resource.Error Unit) :
    Prop where
  /-- It has stored what was brought, or has failed and stored nothing. -/
  replaced : answer = .ok () ∧ (∃ bytes, p.supply.brought = .ok bytes
      ∧ Replaced fs files p.resource.path (some bytes))
    ∨ (∃ e, answer = .error e) ∧ Replaced fs files p.resource.path none
  /-- The part file is gone, if there was something to be copied and it could be created. -/
  part : ∀ events part, p.supply.events = .ok events →
    (PartFile.create fs p.resource.path).2 = .ok part → files.Absent (partPath p.resource.path)

/-- After a put the files are a tree, whatever it came to. -/
theorem Done.tree {p : Put} {fs files : FileSystem} {answer : Except Resource.Error Unit}
    (h : p.Done fs files answer) : Tree files := by
  rcases h.replaced with ⟨-, bytes, -, hreplaced⟩ | ⟨-, hreplaced⟩
  · exact hreplaced.tree
  · exact hreplaced.tree

/-- Every put to a clean path comes to an end that is known: it answers, and has replaced the
destination or left it. -/
theorem run_done (p : Put) {m : Machine} (hm : Tree m.files) (hp : Clean p.resource.path) :
    ∃ answer m', p.run m = (.value answer, m') ∧ p.Done m.files m'.files answer := by
  obtain ⟨answer, m', hrun, ⟨e, hevents, rfl, hfiles⟩ | ⟨events, hevents, rfl, hfiles⟩⟩ :=
    p.run_spec m
  · refine ⟨_, m', hrun, .inr ⟨⟨_, rfl⟩, ?_⟩, ?_⟩
    · rw [hfiles]
      exact .refl hm _
    · intro events part hopened
      rw [hevents] at hopened
      cases hopened
  · obtain ⟨hreplaced, hwhole, hpart⟩ := copyToPath_replaced hm hp events
    refine ⟨_, m', hrun, ?_, fun _ part _ => ?_⟩
    · rw [hfiles]
      rcases houtcome : (copyToPath m.files (Reader.script events) p.resource.path).outcome
        with e | n
      · rw [houtcome] at hreplaced
        exact .inr ⟨⟨_, rfl⟩, hreplaced⟩
      · rw [houtcome] at hreplaced
        refine .inl ⟨rfl, _, ?_, hreplaced⟩
        have hdata : Event.yield events = ((Event.yield events).1, none) :=
          Prod.ext rfl (hwhole n houtcome)
        exact (Supply.brought_eq hevents).trans (congrArg whole hdata)
    · rw [hfiles]
      exact hpart part

end Put

end TracedTransfer.Resource
