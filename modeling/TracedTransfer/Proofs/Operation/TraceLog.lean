/-
A trace file is a log that can be trusted.

It is written in sessions, one after another: each opens the file and runs
a program whose listeners include that of the file. What the file holds
(`Holds`) stays in front; one session puts a line behind it for every
operation that it hears the finish of, in the order in which they finish
(`Session.Fair.writes`), and the next one opens the file as it was left
(`create_of_holds`), so the same is true of all sessions together
(`logged_of_holds`, by induction on their list).

The file is a memory of its listener: notices change the files as
`noted` says, and nothing else does. A finish gets to the listener if those
before it do not panic at finishes (`Runner.reach_past`).

A trace file that cannot be written is not missed (`unmissed_of_failing`).
-/
import Mathlib
import TracedTransfer.Proofs.FileSystem.Appending
import TracedTransfer.Proofs.Operation.Bystander
import TracedTransfer.Proofs.Operation.FinishPanic
import TracedTransfer.Proofs.Operation.TraceLine

namespace TracedTransfer.Operation

open Text FileSystem

-- ============================================================= reaching

/-- A finish gets past listeners that do not panic at it. -/
theorem Runner.reach_past {before after : Runner} {l : Listener}
    (hbefore : ∀ x ∈ before, x.ClosesCalmly) (record : Record) (m : Machine) :
    before.length < Runner.reach (.finished record) (before ++ l :: after) m := by
  induction before generalizing m with
  | nil =>
      show 0 < Runner.reach _ (l :: after) m
      unfold Runner.reach
      split
      · exact Nat.succ_pos _
      · exact Nat.one_pos
  | cons x before ih =>
      have hx : x.hear (.finished record) m = (.value (), (x.hear (.finished record) m).2) :=
        Prod.ext (hbefore x (List.mem_cons_self ..) record m) rfl
      have hrest := ih (fun y hy => hbefore y (List.mem_cons_of_mem _ hy))
        (x.hear (.finished record) m).2
      show _ < Runner.reach _ (x :: (before ++ l :: after)) m
      rw [Runner.reach_of_value hx, List.length_cons]
      exact Nat.succ_lt_succ hrest

/-- A listener that every finish gets to hears all of them. -/
theorem finishedRecords_heardAt {j : Nat} {ts : List Tiding}
    (h : ∀ t ∈ ts, ∀ record, t.notice = .finished record → j < t.reached) :
    finishedRecords (heardAt j ts) = finishedRecords (notices ts) := by
  induction ts with
  | nil => rfl
  | cons t ts ih =>
      have hrest := ih fun u hu => h u (List.mem_cons_of_mem _ hu)
      rw [notices_cons]
      by_cases hj : j < t.reached
      · rw [heardAt_cons_of_lt hj]
        cases hn : t.notice with
        | started i p d => rw [finishedRecords_started, finishedRecords_started, hrest]
        | finished record => rw [finishedRecords_finished, finishedRecords_finished, hrest]
      · rw [heardAt_cons_of_not_lt hj, hrest]
        cases hn : t.notice with
        | started i p d => rw [finishedRecords_started]
        | finished record => exact absurd (h t (List.mem_cons_self ..) record hn) hj

-- ============================================================== records

/-- The operations that start and finish in a program, with their
tidings, and what the listener between `before` and `after` hears of
them. -/
structure Finishes (before : Runner) (l : Listener) (after : Runner) (id : Id) (value : Json)
    (steps : List Step) (m : Machine) (ts : List Tiding) (said : Context) (out : Outcome) :
    Prop where
  /-- The program ends as its chronicle does. -/
  exit : (runSteps (before ++ l :: after) id value steps m).1 = out.exit value
  /-- What happens in it is one of the stories that a program can tell. -/
  chronicle : Chronicle m.scopes.current (.steps steps) .empty ts said out
  /-- Each notice is passed to the listeners in order, until one panics. -/
  passed : ∀ t ∈ ts, ∃ m', t = Runner.tiding (before ++ l :: after) t.notice m'
  /-- Each operation that starts finishes once, unless the program ends
  before. -/
  once : ∀ i ∈ startedIds (notices ts),
    (∃ record, finishedRecords (noticesOf i (notices ts)) = [record])
      ∨ finishedRecords (noticesOf i (notices ts)) = [] ∧ out = .aborts
  /-- No other operation finishes. -/
  strange : ∀ i ∉ startedIds (notices ts), noticesOf i (notices ts) = []
  /-- The listener hears of every operation that finishes, unless one
  before it panics at finishes. -/
  heard : (∀ x ∈ before, x.ClosesCalmly) →
    finishedRecords (heardAt before.length ts) = finishedRecords (notices ts)

/-- To look at one operation and to forget who has heard commute. -/
theorem noticesOf_notices (i : Id) (ts : List Tiding) :
    noticesOf i (notices ts) = notices (tidingsOf i ts) := by
  unfold noticesOf tidingsOf notices
  rw [List.filter_map]
  rfl

/-- What a run tells the listener in the middle: the records of those
operations whose finish got that far. -/
theorem Ran.finishes {before after : Runner} {l : Listener} {id : Id} {value : Json}
    {steps : List Step} {m : Machine} {g : Context → Context} {ts : List Tiding} {out : Outcome}
    (h : Ran (before ++ l :: after) id value steps m g ts out) :
    Finishes before l after id value steps m ts (g .empty) out where
  exit := h.exit
  chronicle := h.chronicle .empty
  passed := h.told.passed
  once i hi := by
    have hnd : (startedIds (notices ts)).Nodup :=
      h.told.increasing.imp fun hlt => Nat.ne_of_lt hlt
    -- The number has one notice, its start, or two, the start and the record that closes it.
    obtain ⟨start, p, d, hs, ⟨hone, hout⟩ | ⟨finish, record, htwo, hen⟩⟩ :=
      (h.chronicle .empty).tracked hnd hi
    · right
      rw [noticesOf_notices, hone, notices_cons, hs, finishedRecords_started]
      exact ⟨rfl, hout⟩
    · left
      refine ⟨record, ?_⟩
      rw [noticesOf_notices, htwo, notices_cons, notices_cons, hs, hen.finishes,
        finishedRecords_started, finishedRecords_finished]
      rfl
  strange i hi := by
    rw [noticesOf_notices, (h.chronicle .empty).strange hi]
    rfl
  heard hbefore := by
    refine finishedRecords_heardAt fun t ht record hrecord => ?_
    obtain ⟨m', hm'⟩ := h.told.passed t ht
    rw [hrecord] at hm'
    rw [hm']
    exact Runner.reach_past hbefore record m'

namespace TraceFile

-- ============================================================== opening

/-- The files with the directories above a trace file, or a failure. -/
def readied (fs : FileSystem) (path : FilePath) : FileSystem × Option Io.Error :=
  let up := (path.parent?).getD []
  if up.isEmpty then (fs, none) else fs.makeDirectories up

/-- What a trace file holds before its first line: what can be read there
when the directories above it have been made. -/
def prior (fs : FileSystem) (path : FilePath) : Bytes :=
  match (readied fs path).1.contentAt path with
  | .ok s => s
  | .error _ => []

/-- Where something that is no directory stands at the path already,
readying it does nothing. -/
theorem readied_of_resolve {fs : FileSystem} (hfs : Proper fs) {path : FilePath} {j : FileSystem.Id}
    (h : fs.resolve path = .ok j) (hj : fs.isDirectory j = false) :
    readied fs path = (fs, none) := by
  obtain ⟨-, stack, k, hl, -⟩ := locate_of_resolve hfs h hj
  unfold readied
  dsimp only
  split
  · rfl
  · next hne =>
      rcases hup : path.parent? with _ | up
      · rw [hup] at hne
        exact absurd rfl hne
      · rw [hup, Option.getD_some, List.isEmpty_iff] at hne
        exact makeDirectories_above hfs hup hne hl

/-- What can be read at the path of a trace file is what it holds. -/
theorem prior_of_content {fs : FileSystem} (hfs : Proper fs) {path : FilePath} {s : Bytes}
    (h : fs.contentAt path = .ok s) : prior fs path = s := by
  obtain ⟨j, hj, hd⟩ := resolve_of_contentAt h
  unfold prior
  rw [readied_of_resolve hfs hj hd, h]

/-- Opening a trace file makes the directories above it and opens it to
append. -/
theorem create_eq (path : FilePath) (m : Machine) : ∃ failed refused : Io.Error → Io.Chain,
    create path m = match readied m.files path with
      | (fs, some e) => (.value (.error (failed e)), { m with files := fs })
      | (fs, none) =>
        match fs.openToWrite false path with
        | .ok (fs, h) => (.value (.ok (listener path h.node)), { m with files := fs })
        | .error e => (.value (.error (refused e)), { m with files := fs }) := by
  refine ⟨fun e => .known ("create trace dir " ++ ((path.parent?).getD []).shown) :: e.chain,
    fun e => .known ("open trace file " ++ path.shown) :: e.chain, ?_⟩
  unfold create readied Run.onFiles
  dsimp only
  rcases (if ((path.parent?).getD []).isEmpty = true then (m.files, none)
    else m.files.makeDirectories ((path.parent?).getD [])) with ⟨fs, _ | e⟩
  · dsimp only
    rcases ho : fs.openToWrite false path with e | ⟨fs', h⟩
    · rfl
    · rfl
  · rfl

/-- A trace file that was opened holds what it held before. -/
theorem holds_of_create {path : FilePath} {m m' : Machine} {l : Listener} {n : Nat}
    (hfs : Proper m.files) (hopen : create path m = (.value (.ok l), m'))
    (hfile : m'.files.fileLength? path = .ok (some n)) :
    ∃ i, l = listener path i ∧ m' = { m with files := m'.files }
      ∧ Holds m'.files path i (prior m.files path) := by
  obtain ⟨failed, refused, heq⟩ := create_eq path m
  rw [heq] at hopen
  -- Directories may have been made for the file; that keeps the tree
  -- proper.
  have hproper : Proper (readied m.files path).1 := by
    unfold readied
    dsimp only
    split
    · exact hfs
    · exact hfs.makeDirectoriesWithin _ _
  -- If that failed nothing was opened, against what is assumed.
  rcases hready : readied m.files path with ⟨fs, _ | e⟩
  · rw [hready] at hopen hproper
    dsimp only at hopen
    rcases ho : fs.openToWrite false path with e | ⟨fs', h⟩
    · rw [ho] at hopen
      cases hopen
    · rw [ho] at hopen
      cases hopen
      obtain ⟨s, hholds, hs⟩ := openToWrite_holds hproper ho hfile
      refine ⟨h.node, rfl, rfl, ?_⟩
      have hprior : prior m.files path = s := by
        unfold prior
        rw [hready]
        rcases hs with hs | ⟨hnone, rfl⟩
        · rw [hs]
        · rcases hc : fs.contentAt path with e | c
          · rfl
          · exact absurd hc (hnone c)
      rw [hprior]
      exact hholds
  · rw [hready] at hopen
    cases hopen

/-- A trace file that is there is opened as it is. -/
theorem create_of_holds {path : FilePath} {m : Machine} {i : FileSystem.Id} {s : Bytes}
    (h : Holds m.files path i s) : create path m = (.value (.ok (listener path i)), m) := by
  obtain ⟨failed, refused, heq⟩ := create_eq path m
  rw [heq, readied_of_resolve h.proper h.leads (isDirectory_eq_false h.file (by simp))]
  dsimp only
  rw [h.openToWrite]

-- ============================================================ listening

/-- A record is appended as one line, or the write fails and the log has a
line. -/
theorem append_eq (path : FilePath) (i : FileSystem.Id) (r : Record) (m : Machine) :
    append path i r m = match m.files.appendToNode i (line r) with
      | .ok fs => (.value (), { m with files := fs })
      | .error e => (.value (), m.logged .warn "resfetch_core::operation::trace_file"
          (Io.Chain.text [.known ("could not write trace " ++ path.shown), e.cause]) []) := by
  unfold append
  rw [Action.bind_of_value (Run.onFiles_eq _ m)]
  rcases m.files.appendToNode i (line r) with e | fs
  · rfl
  · rfl

/-- A write that fails is logged and is no panic. -/
theorem listener_calm (path : FilePath) (i : FileSystem.Id) : (listener path i).Calm := by
  intro n m
  cases n with
  | started j p d => exact ⟨rfl, .refl _⟩
  | finished r =>
      show (append path i r m).1 = _ ∧ m.scopes.Keeps (append path i r m).2.scopes
      rw [append_eq]
      split
      · exact ⟨rfl, .refl _⟩
      · refine ⟨rfl, ?_⟩
        rw [logged_scopes]
        exact .refl _

/-- What a notice makes of the files, by the listener of a trace file. -/
def noted (i : FileSystem.Id) (fs : FileSystem) : Notice → FileSystem
  | .started _ _ _ => fs
  | .finished r =>
    match fs.appendToNode i (line r) with
    | .ok fs => fs
    | .error _ => fs

theorem noted_finished (i : FileSystem.Id) (fs : FileSystem) (r : Record) :
    noted i fs (.finished r) = match fs.appendToNode i (line r) with
      | .ok fs => fs
      | .error _ => fs := rfl

/-- The files, as the listener of a trace file changes them. -/
def memory (i : FileSystem.Id) : Memory FileSystem := ⟨Machine.files, noted i⟩

/-- The files are no part of scopes, answers or the log of the program. -/
theorem private_files : Private Machine.files where
  scopes _ _ := rfl
  answers _ _ := rfl
  logged m level target message fields := by
    obtain ⟨log, console, h⟩ := logged_eq m level target message fields
    rw [h]

/-- The trace file is what its listener has been told. -/
theorem listener_keeps (path : FilePath) (i : FileSystem.Id) :
    (listener path i).Keeps (memory i) := by
  intro n m
  cases n with
  | started j p d => rfl
  | finished r =>
      show (append path i r m).2.files = noted i m.files (.finished r)
      rw [append_eq, noted_finished]
      rcases m.files.appendToNode i (line r) with e | fs
      · exact private_files.logged ..
      · rfl

/-- The records that are heard stand in the file, one line each. -/
theorem holds_noted {path : FilePath} {i : FileSystem.Id} {fs : FileSystem} {s : Bytes}
    (h : Holds fs path i s) (es : List Notice) :
    Holds (es.foldl (noted i) fs) path i (s ++ (finishedRecords es).flatMap line) := by
  induction es generalizing fs s with
  | nil =>
      rw [show (finishedRecords []).flatMap line = [] from rfl, List.append_nil]
      exact h
  | cons n es ih =>
      rw [List.foldl_cons]
      cases n with
      | started j p d => exact ih h
      | finished r =>
          obtain ⟨fs', hok, hholds⟩ := h.append (line r)
          have hnoted : noted i fs (.finished r) = fs' := by rw [noted_finished, hok]
          rw [hnoted, finishedRecords_finished, List.flatMap_cons, ← List.append_assoc]
          exact ih hholds

-- ============================================================= sessions

/-- A program that is run with a trace file, among other listeners. -/
structure Session where
  /-- The machine before the trace file is opened, but for its files. -/
  machine : Machine
  before : Runner
  after : Runner
  id : Id
  value : Json
  steps : List Step

namespace Session

/-- The listeners of a session. -/
def runner (s : Session) (l : Listener) : Runner := s.before ++ l :: s.after

/-- The machine of a session with files. -/
def machineOn (s : Session) (fs : FileSystem) : Machine := { s.machine with files := fs }

/-- A session whose other listeners leave files alone. They may panic. -/
structure Fair (s : Session) : Prop where
  /-- Panics of other listeners are contained, -/
  contained : ∀ x ∈ s.before ++ s.after, x.Contained
  /-- and they leave the files alone. -/
  leaves : ∀ x ∈ s.before ++ s.after, x.Leaves Machine.files
  /-- No step takes the recording away, -/
  steps : leaveRecording s.steps = true
  /-- and the frames are numbered at the start. -/
  numbered : s.machine.scopes.Numbered

variable {s : Session} {path : FilePath} {i : FileSystem.Id}

/-- In a fair session the panics of all listeners are contained, -/
theorem Fair.runner_contained (h : s.Fair) : (s.runner (listener path i)).Contained := by
  intro x hx
  rcases List.mem_append.1 hx with hx | hx
  · exact h.contained x (List.mem_append_left _ hx)
  · rcases List.mem_cons.1 hx with rfl | hx
    · exact (listener_calm path i).contained
    · exact h.contained x (List.mem_append_right _ hx)

/-- and the trace file has its place among them. -/
theorem Fair.servesAt (h : s.Fair) :
    (s.runner (listener path i)).ServesAt s.before.length (memory i) where
  apart := private_files
  place := ⟨s.before, listener path i, s.after, rfl, rfl, listener_keeps path i,
    fun x hx => h.leaves x (List.mem_append_left _ hx),
    fun x hx => h.leaves x (List.mem_append_right _ hx)⟩

/-- A session writes one line for each record that its trace file hears
of. -/
theorem Fair.writes (hs : s.Fair) {fs : FileSystem} {c : Bytes} (h : Holds fs path i c) :
    ∃ ts said out, Finishes s.before (listener path i) s.after s.id s.value s.steps
        (s.machineOn fs) ts said out
      ∧ Holds (runSteps (s.runner (listener path i)) s.id s.value s.steps
          (s.machineOn fs)).2.files path i
        (c ++ (finishedRecords (heardAt s.before.length ts)).flatMap line) := by
  obtain ⟨g, ts, out, hran⟩ := runSteps_ran hs.runner_contained s.steps hs.steps s.id s.value
    (show (s.machineOn fs).scopes.Numbered from hs.numbered)
  have hfiles : (runSteps (s.runner (listener path i)) s.id s.value s.steps
      (s.machineOn fs)).2.files = (heardAt s.before.length ts).foldl (noted i) fs :=
    hran.told.recalled (memory i) s.before.length hs.servesAt
  refine ⟨ts, g .empty, out, hran.finishes, ?_⟩
  rw [hfiles]
  exact holds_noted h _

end Session

/-- Sessions that are run one after another, each on the files that the
one before left, and the records of the operations that finish in them, as
their trace files hear of them. -/
inductive Logged (path : FilePath) :
    FileSystem → List Session → List Record → FileSystem → Prop where
  /-- Without sessions nothing is logged. -/
  | none {fs : FileSystem} : Logged path fs [] [] fs
  /-- A session opens the file, runs, and logs what its listener has heard
  finish. -/
  | next {fs fs' : FileSystem} {s : Session} {ss : List Session} {l : Listener} {m : Machine}
      {ts : List Tiding} {said : Context} {out : Outcome} {log : List Record} :
      create path (s.machineOn fs) = (.value (.ok l), m) →
      Finishes s.before l s.after s.id s.value s.steps m ts said out →
      Logged path (runSteps (s.runner l) s.id s.value s.steps m).2.files ss log fs' →
      Logged path fs (s :: ss) (finishedRecords (heardAt s.before.length ts) ++ log) fs'

/-- What a trace file holds stays in front of the lines that all sessions
write. -/
theorem logged_of_holds {path : FilePath} {ss : List Session} (hss : ∀ s ∈ ss, s.Fair)
    {fs : FileSystem} {i : FileSystem.Id} {c : Bytes} (h : Holds fs path i c) :
    ∃ log fs', Logged path fs ss log fs' ∧ Holds fs' path i (c ++ log.flatMap line) := by
  induction ss generalizing fs c with
  | nil => exact ⟨[], fs, .none, by rw [List.flatMap_nil, List.append_nil]; exact h⟩
  | cons s ss ih =>
      have hcreate : create path (s.machineOn fs)
          = (.value (.ok (listener path i)), s.machineOn fs) :=
        create_of_holds (show Holds (s.machineOn fs).files path i c from h)
      obtain ⟨ts, said, out, hfinishes, hholds⟩ := (hss s (List.mem_cons_self ..)).writes h
      obtain ⟨log, fs', hlogged, hends⟩ := ih (fun x hx => hss x (List.mem_cons_of_mem _ hx)) hholds
      refine ⟨_, fs', .next hcreate hfinishes hlogged, ?_⟩
      rw [List.flatMap_append, ← List.append_assoc]
      exact hends

/-- What becomes of a trace file in sessions. -/
structure Faithful (path : FilePath) (fs : FileSystem) (ss : List Session) (log : List Record)
    (fs' : FileSystem) : Prop where
  /-- All sessions open the file, and these are the operations that finish
  in them, in the order in which they do. -/
  logged : Logged path fs ss log fs'
  /-- Their lines stand behind what the file held before. -/
  content : fs'.contentAt path = .ok (prior fs path ++ log.flatMap line)
  /-- What the file held is its content, or nothing if there was no file. -/
  prior : ∀ s, fs.contentAt path = .ok s → TraceFile.prior fs path = s
  /-- There is one line for each operation. The first one continues what
  stood behind the last newline before. -/
  pieces : ∀ ls t, (TraceFile.prior fs path).splitOn 0x0a = ls ++ [t] → ∀ r rs, log = r :: rs →
    (TraceFile.prior fs path ++ log.flatMap line).splitOn 0x0a
      = ls ++ (t ++ body r) :: (rs.map body ++ [[]])
  /-- A line ends where it says and nowhere else. -/
  ends : ∀ r, line r = body r ++ [0x0a] ∧ (0x0a : UInt8) ∉ body r
  /-- A line is read as an object with the fields of its record, in order;
  those that are absent are null. -/
  read : ∀ r ∈ log, r.Exact → ∃ cs, Utf8.decode? (body r) = some cs
    ∧ Json.parseChars cs = some (.obj [
      ("id", .int r.id),
      ("parentId", r.parent.elim .null fun p => .int p),
      ("displayName", .str r.descriptor.displayName),
      ("progressDisplayName", r.descriptor.progressDisplayName.elim .null .str),
      ("details", r.descriptor.details),
      ("startedAtMs", .int r.startedAtMs),
      ("durationMs", .int r.durationMs),
      ("status", r.status.elim .null .str),
      ("result", r.result.getD .null),
      ("failure", r.failure.elim .null .str)])

/-- Once the first session has opened the file, the others find it where it
is, and each goes on behind what it holds already. -/
theorem faithful_of_opened {path : FilePath} {fs : FileSystem} {s : Session} {ss : List Session}
    {l : Listener} {m : Machine} {n : Nat} (hfs : Proper fs)
    (hopen : create path (s.machineOn fs) = (.value (.ok l), m))
    (hfile : m.files.fileLength? path = .ok (some n)) (hss : ∀ x ∈ s :: ss, x.Fair) :
    ∃ log fs', Faithful path fs (s :: ss) log fs' := by
  obtain ⟨i, rfl, hm, hholds⟩ :=
    holds_of_create (show Proper (s.machineOn fs).files from hfs) hopen hfile
  have hmachine : m = s.machineOn m.files := hm
  obtain ⟨ts, said, out, hfinishes, hwritten⟩ := (hss s (List.mem_cons_self ..)).writes hholds
  rw [← hmachine] at hfinishes hwritten
  obtain ⟨log, fs', hlogged, hends⟩ :=
    logged_of_holds (fun x hx => hss x (List.mem_cons_of_mem _ hx)) hwritten
  refine ⟨_, fs', {
    logged := .next hopen hfinishes hlogged
    content := ?_
    prior := fun s => prior_of_content hfs
    pieces := ?_
    ends := fun r => ⟨line_eq r, newline_not_mem_body r⟩
    read := fun r _ hr => read_body hr }⟩
  · rw [List.flatMap_append, ← List.append_assoc]
    exact hends.contentAt
  · intro ls t hpieces r rs hlog
    rw [hlog]
    exact splitOn_append_lines hpieces r rs

-- ====================================================== failing writes

/-- What there is to see of a program without one of its listeners: how
its calls end, the machine but for log and console, and what each other
listener makes of what it hears. -/
structure Unmissed (held : FileSystem → Prop) (r r' : Runner) : Prop where
  /-- Calls go alike with it and without, -/
  calls : ∀ {ε α : Type} (d : Descriptor) (display : ε → String)
    {body body' : Id → Run (Except ε α)}, (∀ id, Alike held (body id) (body' id)) →
    Alike held (call r d display body) (call r' d display body')
  /-- programs end alike, -/
  exit : ∀ (id : Id) (value : Json) (steps : List Step) (m : Machine), held m.files →
    (runSteps r id value steps m).1 = (runSteps r' id value steps m).1
  /-- leave the same machine but for log and console, -/
  machine : ∀ (id : Id) (value : Json) (steps : List Step) (m : Machine), held m.files →
    ∃ log console, (runSteps r' id value steps m).2
      = { (runSteps r id value steps m).2 with log, console }
  /-- and every other listener has heard the same. -/
  received : ∀ {β : Type} (k : Memory β),
    (∀ m log console, k.kept { m with log, console } = k.kept m) →
    ∀ (id : Id) (value : Json) (steps : List Step) (m : Machine), held m.files →
    k.kept (runSteps r id value steps m).2 = k.kept (runSteps r' id value steps m).2

/-- A listener whose writes all fail changes no file. -/
theorem listener_mute {held : FileSystem → Prop} {i : FileSystem.Id}
    (hfails : ∀ fs, held fs → ∀ r, ∃ e, fs.appendToNode i (line r) = .error e)
    (path : FilePath) : (listener path i).Mute held := by
  intro n m hm
  cases n with
  | started j p d => exact ⟨m.log, m.console, rfl⟩
  | finished r =>
      obtain ⟨e, he⟩ := hfails m.files hm r
      obtain ⟨log, console, hlogged⟩ := logged_eq m .warn "resfetch_core::operation::trace_file"
        (Io.Chain.text [.known ("could not write trace " ++ path.shown), e.cause]) []
      refine ⟨log, console, ?_⟩
      show append path i r m = _
      rw [append_eq, he]
      exact congrArg (Prod.mk _) hlogged

/-- A trace file that cannot be written is not missed. -/
theorem unmissed_of_failing {held : FileSystem → Prop} {i : FileSystem.Id} {path : FilePath}
    {before after : Runner}
    (hfails : ∀ fs, held fs → ∀ r, ∃ e, fs.appendToNode i (line r) = .error e)
    (hothers : ∀ x ∈ before ++ after, x.Steady held) :
    Unmissed held (before ++ listener path i :: after) (before ++ after) := by
  have htell := alike_tell (listener_mute hfails path) hothers
  have hruns : ∀ id value steps m, held m.files →
      (runSteps (before ++ listener path i :: after) id value steps m).1
        = (runSteps (before ++ after) id value steps m).1
      ∧ Agree held (runSteps (before ++ listener path i :: after) id value steps m).2
        (runSteps (before ++ after) id value steps m).2 :=
    fun id value steps m hm => alike_runSteps htell id value steps m m (.refl hm)
  refine {
    calls := fun d display _ _ hbody => alike_call htell d display hbody
    exit := fun id value steps m hm => (hruns id value steps m hm).1
    machine := fun id value steps m hm => (hruns id value steps m hm).2.2
    received := ?_ }
  intro β k hk id value steps m hm
  obtain ⟨log, console, hsame⟩ := (hruns id value steps m hm).2.2
  rw [hsame]
  exact (hk _ log console).symm

-- ================================================== the main statement

/-- A trace file that can be opened has the lines of all operations that
finish, behind what it held before; one that cannot be written is not
missed. -/
theorem trace_file_log :
    (∀ {path : FilePath} {fs : FileSystem} {s : Session} {ss : List Session} {l : Listener}
      {m : Machine} {n : Nat}, Proper fs →
      create path (s.machineOn fs) = (.value (.ok l), m) →
      m.files.fileLength? path = .ok (some n) → (∀ x ∈ s :: ss, x.Fair) →
      ∃ log fs', Faithful path fs (s :: ss) log fs')
    ∧ ∀ {held : FileSystem → Prop} {i : FileSystem.Id} {path : FilePath} {before after : Runner},
      (∀ fs, held fs → ∀ r, ∃ e, fs.appendToNode i (line r) = .error e) →
      (∀ x ∈ before ++ after, x.Steady held) →
      Unmissed held (before ++ listener path i :: after) (before ++ after) :=
  ⟨faithful_of_opened, unmissed_of_failing⟩

/-- A trace file with a content, and a device that takes nothing. -/
def traced (content : Bytes) : FileSystem where
  nodes := [.directory [(bytesOf "t", 1), (bytesOf "full", 2)], .file content, .full]
  workingDirectory := []

/-- A tree with one trace file in it is proper, -/
theorem traced_proper (content : Bytes) : Proper (traced content) := by
  refine proper_of_entries rfl (fun i hi => (List.not_mem_nil hi).elim) fun i hi e he => ?_
  have hroot : ∀ e ∈ [(bytesOf "t", 1), (bytesOf "full", 2)], e.2 < 3 := by decide
  match i, hi with
  | 0, _ => exact hroot e he
  | 1, _ => exact (List.not_mem_nil he).elim
  | 2, _ => exact (List.not_mem_nil he).elim

/-- and the file holds its content. -/
theorem traced_holds (content : Bytes) : Holds (traced content) (bytesOf "t") 1 content where
  proper := traced_proper content
  leads := by cbv
  file := rfl

/-- A call around another, the name of which has a newline in it. -/
def nested : List Step :=
  [.call true ⟨"outer", none, none, none⟩ .null
    [.setStatus "half", .call false ⟨"in\nner", none, some (.obj [("n", .int 3)]), none⟩ .null
      [.panic]]]

/-- Two sessions, of which the second runs with a listener that panics at
starts; and a run whose trace file is a device that takes nothing. -/
theorem trace_file_log_of_sessions :
    let s : Session := ⟨.initial .empty .default, [.recording], [.journal], 0, .null, nested⟩
    let t : Session := ⟨.initial .empty .default, [.panicOnStart], [], 0, .null, nested⟩
    let fs := traced (bytesOf "[]\n")
    let held : FileSystem → Prop := fun fs => fs.node? 2 = some .full
    (Proper fs ∧ create (bytesOf "t") (s.machineOn fs)
        = (.value (.ok (listener (bytesOf "t") 1)), s.machineOn fs)
      ∧ (s.machineOn fs).files.fileLength? (bytesOf "t") = .ok (some 3)
      ∧ (∀ x ∈ [s, t], x.Fair) ∧ ∃ log fs', Faithful (bytesOf "t") fs [s, t] log fs')
    ∧ (∀ fs, held fs → ∀ r, ∃ e, fs.appendToNode 2 (line r) = .error e)
      ∧ (∀ x ∈ ([.recording] ++ [.journal] : Runner), x.Steady held)
      ∧ held (s.machineOn fs).files
      ∧ Unmissed held ([.recording] ++ listener (bytesOf "full") 2 :: [.journal])
        ([.recording] ++ [.journal]) := by
  intro s t fs held
  have hfair : ∀ x ∈ [s, t], x.Fair := by
    intro x hx
    rcases List.mem_cons.1 hx with rfl | hx
    · refine ⟨?_, ?_, by decide, fun _ hf => (List.not_mem_nil hf).elim⟩
      · intro l hl
        rcases List.mem_cons.1 hl with rfl | hl
        · exact Listener.recording_calm.contained
        · rw [List.mem_singleton.1 hl]
          exact Listener.journal_calm.contained
      · intro l hl
        rcases List.mem_cons.1 hl with rfl | hl
        · exact Listener.recording_leaves fun _ _ => rfl
        · rw [List.mem_singleton.1 hl]
          exact Listener.journal_leaves fun _ _ => rfl
    · rw [List.mem_singleton.1 hx]
      refine ⟨?_, ?_, by decide, fun _ hf => (List.not_mem_nil hf).elim⟩
      · intro l hl
        rw [List.mem_singleton.1 hl]
        exact Listener.panicOnStart_contained
      · intro l hl n m
        rw [List.mem_singleton.1 hl]
        cases n with
        | started i p d => rfl
        | finished r => rfl
  have hopen : create (bytesOf "t") (s.machineOn fs)
      = (.value (.ok (listener (bytesOf "t") 1)), s.machineOn fs) :=
    create_of_holds (traced_holds (bytesOf "[]\n"))
  have hfile : (s.machineOn fs).files.fileLength? (bytesOf "t") = .ok (some 3) := by cbv
  -- A line is never empty, and a full device refuses whatever is not.
  have hfails : ∀ fs, held fs → ∀ r, ∃ e, fs.appendToNode 2 (line r) = .error e := by
    intro fs hfull r
    refine ⟨.system .storageFull, ?_⟩
    have hne : (line r).isEmpty = false := by
      rw [line_eq, List.isEmpty_eq_false_iff]
      exact List.append_ne_nil_of_right_ne_nil _ (List.cons_ne_nil _ _)
    unfold appendToNode
    rw [show fs.node? 2 = some .full from hfull]
    simp only [hne, Bool.false_eq_true, if_false]
  have hsteady : ∀ x ∈ ([.recording] ++ [.journal] : Runner), x.Steady held := by
    intro x hx
    rcases List.mem_cons.1 hx with rfl | hx
    · exact Listener.recording_steady
    · rw [List.mem_singleton.1 hx]
      exact Listener.journal_steady
  exact ⟨⟨traced_proper _, hopen, hfile, hfair,
      trace_file_log.1 (traced_proper _) hopen hfile hfair⟩,
    hfails, hsteady, rfl, trace_file_log.2 hfails hsteady⟩

/-- What stood behind the last newline of a trace file runs on into the
line of the next operation, and neither can be read again. -/
theorem first_line_runs_on :
    let path := bytesOf "t"
    let m := Machine.initial (traced (bytesOf "abc")) .default
    let run := runSteps [listener path 1] 0 .null
      [.call true ⟨"a", none, none, none⟩ .null []] m
    let record : Record := ⟨1, none, ⟨"a", none, .null⟩, 0, 0, none, none, none⟩
    create path m = (.value (.ok (listener path 1)), m) ∧ run.1 = .value (.ok .null)
      ∧ run.2.files.contentAt path = .ok (bytesOf "abc" ++ line record)
      ∧ (bytesOf "abc" ++ line record).splitOn 0x0a = [bytesOf "abc" ++ body record, []]
      ∧ ∀ cs, Utf8.decode? (bytesOf "abc" ++ body record) = some cs →
        Json.parseChars cs = none := by
  intro path m run record
  have hholds : Holds m.files path 1 (bytesOf "abc") := traced_holds (bytesOf "abc")
  have hfiles : run.2.files = noted 1 m.files (.finished record) := rfl
  have hwritten := holds_noted hholds [.finished record]
  have hone : (bytesOf "abc").splitOn 0x0a = [] ++ [bytesOf "abc"] := by decide
  have hline : [record].flatMap line = line record := List.append_nil _
  have hpieces := splitOn_append_lines hone record []
  rw [hline] at hpieces
  refine ⟨create_of_holds hholds, rfl, ?_, ?_, ?_⟩
  · rw [hfiles, ← hline]
    exact hwritten.contentAt
  · exact hpieces
  · intro cs hcs
    have hencoded : bytesOf "abc" ++ body record
        = Utf8.encode ('a' :: 'b' :: 'c' :: (entry record).text) := rfl
    rw [hencoded, Utf8.decode?_encode] at hcs
    cases hcs
    rfl

end TraceFile

end TracedTransfer.Operation
