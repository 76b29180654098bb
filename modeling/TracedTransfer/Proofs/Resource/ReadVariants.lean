/-
The seven reads of a source agree.

Every read opens the content once, and what that comes to decides how it
goes on (`ReadsAgree`). If opening fails, so does the read, whichever it
is; if nothing is there, three of them say so and four fail, and none
does anything else. Of content the three loops, into a part file, into a
stream and to the end, bring the same (`Agreement`): whatever the pieces
are that it comes in, and wherever it is interrupted, ends early or fails.

A read that insists is the read that does not, with absence for a failure
(`Insists`).
-/
import Mathlib
import TracedTransfer.Proofs.Resource.FileFetch
import TracedTransfer.Proofs.Resource.Transparency
import TracedTransfer.Proofs.Storage.AllOrNothing
import TracedTransfer.Proofs.Storage.Creatable

namespace TracedTransfer.Resource

open Text Io Storage

variable {α : Type} {s : ContentSource} {m m₁ m' : Machine}

-- ============================================================ insisting

/-- Absence as a failure. -/
def insisted (n : Name) : Except Error (Option α) → Except Error α
  | .ok (some a) => .ok a
  | .ok none => .error (.notFound n.location)
  | .error e => .error e

/-- A run with absence as a failure. -/
def insistedRun (n : Name) :
    Exit (Except Error (Option α)) × Machine → Exit (Except Error α) × Machine
  | (.value x, m) => (.value (insisted n x), m)
  | (.unwind, m) => (.unwind, m)
  | (.abort, m) => (.abort, m)

/-- To insist is to make an absence an error, whatever else happens. -/
theorem insist_eq (n : Name) (x : IfPresent α) (m : Machine) :
    insist n x m = insistedRun n (x m) := by
  unfold insist orFail
  rcases hx : x m with ⟨v | _ | _, m'⟩
  · rw [Action.bind_of_value hx]
    rcases v with e | _ | a
    · rfl
    · rfl
    · rfl
  · exact Action.bind_of_unwind hx
  · exact Action.bind_of_abort hx

/-- Each read that insists is the one that does not, with absence as a
failure. -/
structure Insists (s : ContentSource) : Prop where
  /-- A download to a file, -/
  writeTo : ∀ (d : FilePath) (m : Machine), s.resource.writeTo d m
    = insistedRun s.name (s.resource.writeToIfPresent d m)
  /-- a transform of the content, -/
  withContent : ∀ {α : Type} (f : Transform α) (m : Machine),
    s.resource.withContent f m
      = insistedRun s.name (s.resource.withContentIfPresent f m)
  /-- and an action on it. -/
  withAction : ∀ {α : Type} (act : ContentAction α) (m : Machine),
    s.resource.withAction act m
      = insistedRun s.name (s.resource.withActionIfPresent act m)

/-- All reads of a source come in two forms that differ in that only. -/
theorem source_insists (s : ContentSource) : Insists s :=
  ⟨fun d => insist_eq s.name (s.writeToIfPresent d),
    fun f => insist_eq s.name (s.withContentIfPresent f),
    fun act => insist_eq s.name (s.withActionIfPresent act)⟩

-- ============================================================== opening

/-- What a read makes of nothing. -/
def Reading.ofNothing (n : Name) : Reading α → Except Error α
  | writeTo _ => .error (.notFound n.location)
  | writeToIfPresent _ => .ok none
  | writeToStream _ => .error (.notFound n.location)
  | withContent _ => .error (.notFound n.location)
  | withContentIfPresent _ => .ok none
  | withAction _ => .error (.notFound n.location)
  | withActionIfPresent _ => .ok none

/-- If there is no content, a read is over when that is known. -/
theorem ifPresent_of_error {e : Error} (hopen : s.openContent m = (.value (.error e), m₁))
    (f : Content → Run (Except Error (ReadResult α))) :
    s.ifPresent f m = (.value (.error e), m₁) := by
  unfold ContentSource.ifPresent orFail
  rw [Action.bind_of_value hopen]
  rfl

theorem ifPresent_of_none (hopen : s.openContent m = (.value (.ok none), m₁))
    (f : Content → Run (Except Error (ReadResult α))) :
    s.ifPresent f m = (.value (.ok none), m₁) := by
  unfold ContentSource.ifPresent orFail
  rw [Action.bind_of_value hopen]
  rfl

theorem insist_of_value {x : IfPresent α} {v : Except Error (Option (ReadResult α))}
    (n : Name) (h : x m = (.value v, m')) :
    insist n x m = (.value (insisted n v), m') := by
  rw [insist_eq, h]
  rfl

/-- What cannot be opened is read with that error by every read, -/
theorem Reading.of_error {e : Error} (hopen : s.openContent m = (.value (.error e), m₁))
    (reading : Reading α) : reading.of s.resource m = (.value (.error e), m₁) := by
  cases reading with
  | writeTo d => exact insist_of_value s.name (ifPresent_of_error hopen _)
  | writeToIfPresent d => exact ifPresent_of_error hopen _
  | writeToStream w => exact insist_of_value s.name (ifPresent_of_error hopen _)
  | withContent f => exact insist_of_value s.name (ifPresent_of_error hopen _)
  | withContentIfPresent f => exact ifPresent_of_error hopen _
  | withAction act => exact insist_of_value s.name (ifPresent_of_error hopen _)
  | withActionIfPresent act => exact ifPresent_of_error hopen _

/-- and what is absent is nothing, or an error, for every read. -/
theorem Reading.of_none (hopen : s.openContent m = (.value (.ok none), m₁))
    (reading : Reading α) :
    reading.of s.resource m = (.value (reading.ofNothing s.name), m₁) := by
  cases reading with
  | writeTo d => exact insist_of_value s.name (ifPresent_of_none hopen _)
  | writeToIfPresent d => exact ifPresent_of_none hopen _
  | writeToStream w => exact insist_of_value s.name (ifPresent_of_none hopen _)
  | withContent f => exact insist_of_value s.name (ifPresent_of_none hopen _)
  | withContentIfPresent f => exact ifPresent_of_none hopen _
  | withAction act => exact insist_of_value s.name (ifPresent_of_none hopen _)
  | withActionIfPresent act => exact ifPresent_of_none hopen _

/-- A read of content, whether it insists or not, comes to a value. -/
def BothCome (must : MustExist α) (may : IfPresent α) (m : Machine)
    (x : Except Error (ReadResult α)) (m' : Machine) : Prop :=
  must m = (.value x, m') ∧ may m = (.value (x.map some), m')

/-- Content that is there is read alike by both forms. -/
theorem ifPresent_of_some {content : Content}
    (hopen : s.openContent m = (.value (.ok (some content)), m₁))
    {f : Content → Run (Except Error (ReadResult α))}
    {x : Except Error (ReadResult α)} (hf : f content m₁ = (.value x, m')) :
    BothCome (insist s.name (s.ifPresent f)) (s.ifPresent f) m x m' := by
  have hpresent : s.ifPresent f m = (.value (x.map some), m') := by
    unfold ContentSource.ifPresent orFail
    rw [Action.bind_of_value hopen]
    dsimp only
    rw [Action.bind_of_value hf]
    cases x with
    | error e => rfl
    | ok a => rfl
  refine ⟨?_, hpresent⟩
  rw [insist_of_value s.name hpresent]
  cases x with
  | error e => rfl
  | ok a => rfl

-- ============================================================== copying

/-- What a read by copying returns for what was brought. -/
def copied (n : Name) : Except Io.Error Bytes → Except Error (ReadResult Unit)
  | .ok bytes => .ok ⟨bytes.length, ()⟩
  | .error e => .error (.io n.location e)

variable {events : List Io.Event} {info : Metadata} {d : FilePath}

/-- A counting reader of a script brings what the script yields, and has
counted it then. -/
theorem readToEnd_scripted (fs : FileSystem) (events : List Io.Event) :
    ∃ r, readToEnd fs (Counted.ofSource (Reader.script events))
      = (Event.yield events, ⟨r, (Event.yield events).1.length⟩) := by
  refine ⟨(readToEnd fs (Reader.script events)).2, ?_⟩
  rw [readToEnd_counted, readToEnd_script]

theorem scripted (events : List Io.Event) :
    Reader.IsScript (Counted.ofSource (Reader.script events)).inner := ⟨events, rfl⟩

/-- A download of scripted content stores it if all of it can be read;
otherwise it fails as the script does. -/
theorem writeTo_of_script (hfs : FileSystem.Proper m₁.files)
    (hopen : s.openContent m = (.value (.ok (some ⟨.script events, info⟩)), m₁))
    (hd : Creatable m₁.files d) : ∃ m',
      BothCome (s.resource.writeTo d) (s.resource.writeToIfPresent d) m
        (copied s.name (whole (Event.yield events))) m'
      ∧ ∀ bytes, whole (Event.yield events) = .ok bytes →
        StoredAt (withParents m₁.files d) m'.files d bytes := by
  obtain ⟨r, hdata⟩ := readToEnd_scripted m₁.files events
  obtain ⟨houtcome, hreader, hstored⟩ :=
    copyToPath_creatable hfs hd Reader.steady.counted (scripted events)
  rw [hdata] at houtcome hreader hstored
  obtain ⟨m', hstore, hfiles⟩ := store_run (Counted.ofSource (Reader.script events)) d m₁
  rw [houtcome, hreader] at hstore
  refine ⟨m', ifPresent_of_some hopen ?_, ?_⟩
  · rw [Action.bind_of_value hstore]
    dsimp only
    rcases hyield : Event.yield events with ⟨bytes, _ | e⟩
    · rfl
    · rfl
  · rw [hfiles]
    exact hstored

/-- A copy to a stream that takes everything writes what comes before the
failure, too. -/
theorem writeToStream_of_script {w : Writer Machine} {taking : Machine → Prop}
    {written : Machine → Bytes} (hw : w.TakesAll taking written) (hm₁ : taking m₁)
    (hopen : s.openContent m = (.value (.ok (some ⟨.script events, info⟩)), m₁)) :
    ∃ m', s.resource.writeToStream w m
        = (.value (copied s.name (whole (Event.yield events))), m')
      ∧ written m' = written m₁ ++ (Event.yield events).1 := by
  obtain ⟨r, hdata⟩ := readToEnd_scripted m₁.files events
  obtain ⟨m₂, hcopy, hm₂, hwritten⟩ :=
    copy_takesAll hw Reader.steady.counted Machine.files (scripted events) hm₁
  rw [hdata] at hcopy hwritten
  obtain ⟨m₃, hflush, hflushed⟩ := hw.flush hm₂
  -- Without a failure the stream is flushed in the end; with one it is left
  -- as it is.
  rcases hyield : Event.yield events with ⟨bytes, _ | e⟩
  · have hrun : copyAndFlush w (Counted.ofSource (Reader.script events)) m₁
        = (.value (.ok (), ⟨r, bytes.length⟩), m₃) := by
      unfold copyAndFlush
      rw [hcopy, hyield]
      show (Exit.value ((w.flush m₂).1, (⟨r, bytes.length⟩ : ContentReader)),
        (w.flush m₂).2) = _
      rw [hflush]
    rw [hyield] at hwritten
    refine ⟨m₃, (ifPresent_of_some hopen ?_).1, hflushed.trans hwritten⟩
    rw [Action.bind_of_value hrun]
    rfl
  · have hrun : copyAndFlush w (Counted.ofSource (Reader.script events)) m₁
        = (.value (.error e, ⟨r, bytes.length⟩), m₂) := by
      unfold copyAndFlush
      rw [hcopy, hyield]
      rfl
    rw [hyield] at hwritten
    refine ⟨m₂, (ifPresent_of_some hopen ?_).1, hwritten⟩
    rw [Action.bind_of_value hrun]
    rfl

-- ========================================================== transforming

/-- A transform that reads to the end, and then does something with what
was brought or with the failure to bring it. -/
def readToEndThen (body : Except Io.Error Bytes → Run (Except Io.Chain α)) :
    Transform α := fun r => do
  let (brought, r) ← Action.gets fun m => Io.readToEnd m.files r
  let outcome ← body (whole brought)
  return (outcome, r)

/-- To read all is to read to the end and to return that. -/
theorem readAll_eq :
    readAll = readToEndThen fun brought => pure (brought.mapError Io.Error.chain) := by
  funext r m
  show (Exit.value (unlessFailed (readToEnd m.files r)), m)
    = (Exit.value ((whole (readToEnd m.files r).1).mapError Io.Error.chain,
        (readToEnd m.files r).2), m)
  rcases readToEnd m.files r with ⟨⟨bytes, _ | e⟩, r'⟩
  · rfl
  · rfl

/-- What a read through a transform returns for what that made of the
content. -/
def delivered (n : Name) (count : Nat) : Except Io.Chain α → Except Error (ReadResult α)
  | .ok a => .ok ⟨count, a⟩
  | .error c => .error (.transform n.location c)

/-- An action that reads to the end and does something with the result gets
what the script comes to. -/
theorem withAction_of_script {outcome : Except Io.Chain α}
    (hopen : s.openContent m = (.value (.ok (some ⟨.script events, info⟩)), m₁))
    (body : Metadata → Except Io.Error Bytes → Run (Except Io.Chain α))
    (hbody : body info (whole (Event.yield events)) m₁ = (.value outcome, m')) :
    BothCome (s.resource.withAction fun info => readToEndThen (body info))
      (s.resource.withActionIfPresent fun info => readToEndThen (body info)) m
      (delivered s.name (Event.yield events).1.length outcome) m' := by
  obtain ⟨r, hdata⟩ := readToEnd_scripted m₁.files events
  have hread : Action.gets (fun m : Machine =>
      Io.readToEnd m.files (Counted.ofSource (Reader.script events))) m₁
        = (.value (Event.yield events, ⟨r, (Event.yield events).1.length⟩), m₁) := by
    rw [← hdata]
    rfl
  have hrun : readToEndThen (body info) (Counted.ofSource (Reader.script events)) m₁
      = (.value (outcome, ⟨r, (Event.yield events).1.length⟩), m') := by
    unfold readToEndThen
    rw [Action.bind_of_value hread]
    dsimp only
    rw [Action.bind_of_value hbody]
    rfl
  refine ifPresent_of_some hopen ?_
  rw [Action.bind_of_value hrun]
  cases outcome with
  | error c => rfl
  | ok a => rfl

-- ================================================== the main statement

/-- What the reads of a script come to that is opened on a machine `m` and
leaves `m₁`: all of it, or the failure that it ends with. -/
structure Agreement (s : ContentSource) (m m₁ : Machine) (info : Metadata)
    (events : List Io.Event) (d : FilePath) (w : Writer Machine)
    (written : Machine → Bytes) : Prop where
  /-- The bytes, and the event whose failure it is if there is one. -/
  comes : Event.Comes events (Event.yield events)
  /-- A file has the bytes. -/
  file : ∃ m', BothCome (s.resource.writeTo d) (s.resource.writeToIfPresent d) m
      (copied s.name (whole (Event.yield events))) m'
    ∧ ∀ bytes, whole (Event.yield events) = .ok bytes →
      StoredAt (withParents m₁.files d) m'.files d bytes
      ∧ ((withParents m₁.files d).Direct d → m'.files.contentAt d = .ok bytes)
  /-- A stream has them too, also those before a failure. -/
  stream : ∃ m', s.resource.writeToStream w m
      = (.value (copied s.name (whole (Event.yield events))), m')
    ∧ written m' = written m₁ ++ (Event.yield events).1
  /-- A transform that reads to the end is handed the bytes, or the
  failure, and goes on. -/
  content : ∀ {α : Type} (body : Except Io.Error Bytes → Run (Except Io.Chain α))
    (outcome : Except Io.Chain α) (m' : Machine),
    body (whole (Event.yield events)) m₁ = (.value outcome, m') →
    BothCome (s.resource.withContent (readToEndThen body))
      (s.resource.withContentIfPresent (readToEndThen body)) m
      (delivered s.name (Event.yield events).1.length outcome) m'
  /-- So is an action. -/
  action : ∀ {α : Type}
    (body : Metadata → Except Io.Error Bytes → Run (Except Io.Chain α))
    (outcome : Except Io.Chain α) (m' : Machine),
    body info (whole (Event.yield events)) m₁ = (.value outcome, m') →
    BothCome (s.resource.withAction fun info => readToEndThen (body info))
      (s.resource.withActionIfPresent fun info => readToEndThen (body info)) m
      (delivered s.name (Event.yield events).1.length outcome) m'
  /-- The transform that reads everything makes the bytes of it, or fails
  as the reading does; nothing else is done. -/
  all : BothCome (s.resource.withContent readAll)
      (s.resource.withContentIfPresent readAll) m
      (delivered s.name (Event.yield events).1.length
        ((whole (Event.yield events)).mapError Io.Error.chain)) m₁
    ∧ BothCome (s.resource.withAction fun _ => readAll)
      (s.resource.withActionIfPresent fun _ => readAll) m
      (delivered s.name (Event.yield events).1.length
        ((whole (Event.yield events)).mapError Io.Error.chain)) m₁

/-- How the reads of a source go whose content is opened on a machine `m`,
which leaves `m₁`. -/
structure ReadsAgree (s : ContentSource) (m m₁ : Machine)
    (opened : Except Error (Option Content)) : Prop where
  /-- If opening fails, all reads fail with that and do nothing else. -/
  failed : ∀ e, opened = .error e → ∀ {α : Type} (reading : Reading α),
    reading.of s.resource m = (.value (.error e), m₁)
  /-- Of nothing they say so, or fail for want of it, and do nothing
  else. -/
  absent : opened = .ok none → ∀ {α : Type} (reading : Reading α),
    reading.of s.resource m = (.value (reading.ofNothing s.name), m₁)
  /-- Of a script they come to the same, if a file can be stored at the
  destination and the stream takes everything. -/
  present : ∀ (events : List Io.Event) (info : Metadata),
    opened = .ok (some ⟨.script events, info⟩) → FileSystem.Proper m₁.files →
    ∀ d, Creatable m₁.files d → ∀ (w : Writer Machine) (taking : Machine → Prop)
      (written : Machine → Bytes), w.TakesAll taking written → taking m₁ →
    Agreement s m m₁ info events d w written
  /-- Each read that must find content is the one that need not, with an
  absence made an error. -/
  insists : Insists s

/-- The reads of a source agree, whatever opening its content comes to. -/
theorem reads_agree {opened : Except Error (Option Content)}
    (hopen : s.openContent m = (.value opened, m₁)) : ReadsAgree s m m₁ opened := by
  refine ⟨?_, ?_, ?_, source_insists s⟩
  · rintro e rfl α reading
    exact reading.of_error hopen
  · rintro rfl α reading
    exact reading.of_none hopen
  · rintro events info rfl hfs d hd w taking written hw hm₁
    obtain ⟨m', hfile, hstored⟩ := writeTo_of_script hfs hopen hd
    refine ⟨Event.comes_yield events, ⟨m', hfile, fun bytes hbytes => ?_⟩,
      writeToStream_of_script hw hm₁ hopen, ?_, ?_, ?_⟩
    · exact ⟨hstored bytes hbytes, (hstored bytes hbytes).contentAt⟩
    · intro α body outcome m' hbody
      exact withAction_of_script hopen (fun _ => body) hbody
    · intro α body outcome m' hbody
      exact withAction_of_script hopen body hbody
    · rw [readAll_eq]
      have hall := withAction_of_script hopen
        (fun _ brought => pure (brought.mapError Io.Error.chain)) rfl
      exact ⟨hall, hall⟩

/-- The output takes everything. -/
theorem outputWriter_takesAll :
    Machine.outputWriter.TakesAll (fun _ => True) fun m => m.console.output where
  write := by
    intro m _ data hdata
    refine ⟨data.length, _, rfl, List.length_pos_iff.2 hdata, Nat.le_refl _, trivial, ?_⟩
    rw [List.take_length]
    rfl
  flush {m} _ := ⟨m, rfl, rfl⟩

/-- A word in two pieces with an interruption between them, read over a
stale part file and to the output. -/
theorem reads_agree_of_memory :
    let n : Name := ⟨⟨"memory".toList, none, "/new".toList, none, none⟩⟩
    let s : ContentSource := (MemoryResource.mk n 0 [] (.ok none) none).source
    let m : Machine := { Machine.initial stale .default with
      shelves := [⟨some twoPieces, 0, 0⟩] }
    let m₁ : Machine := { m with shelves := [⟨some twoPieces, 1, 0⟩] }
    let info : Metadata := .ofLength n.url 3
    s.openContent m = (.value (.ok (some ⟨.script twoPieces, info⟩)), m₁)
      ∧ whole (Event.yield twoPieces) = .ok (bytesOf "new")
      ∧ Creatable m₁.files (bytesOf "d")
      ∧ Agreement s m m₁ info twoPieces (bytesOf "d") Machine.outputWriter
        fun m => m.console.output := by
  intro n s m m₁ info
  have hopen : s.openContent m
      = (.value (.ok (some ⟨.script twoPieces, info⟩)), m₁) := rfl
  have hmade : withParents stale (bytesOf "d") = stale := by cbv
  have hpart : stale.locate false (partPath (bytesOf "d"))
      = .ok (.named [] (bytesOf "d.part") (some 2)) := by cbv
  have hplace : stale.locate false (bytesOf "d")
      = .ok (.named [] (bytesOf "d") (some 1)) := by cbv
  have hd : Creatable stale (bytesOf "d") := by
    refine ⟨by cbv, ⟨[], _, _, hmade.symm ▸ hpart, ?_⟩, ⟨[], _, _, hmade.symm ▸ hplace, ?_⟩⟩
    · rintro i node hi hnode
      cases hi
      rw [hmade] at hnode
      cases hnode
      exact ⟨_, rfl⟩
    · rintro i node hi hnode es rfl
      cases hi
      rw [hmade] at hnode
      cases hnode
  exact ⟨hopen, by cbv, hd, (reads_agree hopen).present twoPieces info rfl stale_proper
    (bytesOf "d") hd _ _ _ outputWriter_takesAll trivial⟩

end TracedTransfer.Resource
