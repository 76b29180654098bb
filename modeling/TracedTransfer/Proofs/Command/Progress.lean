/-
What the listeners of a command show.

The console of a command hears of each operation that finishes and prints
its line (`Progress.listener_keeps`); to the log and the trace file goes
what is not shown. The listeners of a session do no more than to write
log lines before an operation finishes (`waits_listeners`). `Reports`
says what there is to see of them then, and those of every session that is
not quiet have it (`reports_listeners`).

Of two reads that end alike, the lines of progress are the same, unless
there is a failure to tell of (`line_alike`). That listeners hear of what a
command reads is because every resource that it uses is instrumented with
them (`Session.on_connected`).
-/
import TracedTransfer.Command.Execution
import TracedTransfer.Proofs.Operation.TraceLog
import TracedTransfer.Proofs.Resource.WebUsers

namespace TracedTransfer

open Operation

-- =========================================================== listeners

namespace Operation

/-- What log lines leave alone, the log leaves alone. -/
theorem Listener.logging_leaves {β : Type} {view : Machine → β}
    (h : ∀ m level target message fields, view (Machine.logged m level target message fields)
      = view m) : Listener.logging.Leaves view := by
  intro n m
  cases n with
  | started i p d => exact h m _ _ _ _
  | finished r =>
      show view (Listener.finished _ r m).2 = view m
      unfold Listener.logging
      dsimp only
      cases r.failure with
      | none => exact h m _ _ _ _
      | some e => exact h m _ _ _ _

/-- The listener that writes to the log never panics. -/
theorem Listener.logging_calm : Listener.logging.Calm := by
  intro n m
  have hscopes : (Listener.logging.hear n m).2.scopes = m.scopes :=
    Listener.logging_leaves (fun m => logged_scopes m) n m
  rw [hscopes]
  refine ⟨?_, .refl _⟩
  cases n with
  | started i p d => rfl
  | finished r =>
      show (Listener.finished _ r m).1 = _
      unfold Listener.logging
      dsimp only
      cases r.failure with
      | none => rfl
      | some e => rfl

/-- What neither files nor log lines touch, a trace file leaves alone. -/
theorem TraceFile.listener_leaves {β : Type} {view : Machine → β}
    (hfiles : ∀ m fs, view { m with files := fs } = view m)
    (hlog : ∀ m level target message fields, view (Machine.logged m level target message fields)
      = view m) (path : FilePath) (i : FileSystem.Id) :
    (TraceFile.listener path i).Leaves view := by
  intro n m
  cases n with
  | started j p d => rfl
  | finished r =>
      show view (TraceFile.append path i r m).2 = view m
      rw [TraceFile.append_eq]
      split
      · exact hfiles m _
      · exact hlog m _ _ _ _

end Operation

namespace Command

namespace Progress

/-- What a notice makes of the texts on the error output. -/
def noted (texts : List String) : Operation.Notice → List String
  | .started _ _ _ => texts
  | .finished r => texts ++ [line r ++ "\n"]

/-- The texts on the error output, to which progress is added. -/
def memory : Memory (List String) := ⟨fun m => m.console.texts, noted⟩

/-- The texts on the console are no part of scopes, answers or the log. -/
theorem private_texts : Private memory.kept where
  scopes _ _ := rfl
  answers _ _ := rfl
  logged m level target message fields :=
    congrArg Sight.texts (m.sight_logged level target message fields)

/-- The one that shows progress never panics, -/
theorem listener_calm : listener.Calm := by
  intro n m
  cases n with
  | started i p d => exact ⟨rfl, .refl _⟩
  | finished r => exact ⟨rfl, .refl _⟩

/-- and the console shows each notice that it is told. -/
theorem listener_keeps : listener.Keeps memory := by
  intro n m
  cases n with
  | started i p d => rfl
  | finished r => exact Console.texts_text m.console _

/-- The output is not the error output. -/
theorem listener_leaves : listener.Leaves fun m => m.console.output := by
  intro n m
  cases n with
  | started i p d => rfl
  | finished r => rfl

end Progress

/-- The listeners of a session: the log, progress and a trace file. -/
theorem mem_listeners {quiet : Bool} {trace : Option (FilePath × FileSystem.Id)} {l : Listener}
    (h : l ∈ Session.listeners quiet (trace.map fun t => TraceFile.listener t.1 t.2)) :
    l = .logging ∨ l = Progress.listener ∨ ∃ path i, l = TraceFile.listener path i := by
  rcases List.mem_cons.1 h with rfl | h
  · exact .inl rfl
  · rcases List.mem_append.1 h with h | h
    · cases quiet with
      | true => cases h
      | false => exact .inr (.inl (List.mem_singleton.1 h))
    · obtain ⟨t, -, rfl⟩ := Option.map_eq_some_iff.1 (Option.mem_toList.1 h)
      exact .inr (.inr ⟨t.1, t.2, rfl⟩)

/-- Listeners that do not touch a file before an operation finishes. -/
structure Waits (r : Runner) : Prop where
  /-- None of them panics, -/
  calm : r.Calm
  /-- and none touches the files at a start. -/
  starts : ∀ l ∈ r, ∀ (f : Frame) m, (l.hear f.start m).2.files = m.files

/-- The listeners of every session wait. -/
theorem waits_listeners (quiet : Bool) (trace : Option (FilePath × FileSystem.Id)) :
    Waits (Session.listeners quiet (trace.map fun t => TraceFile.listener t.1 t.2)) := by
  constructor
  · intro l hl
    rcases mem_listeners hl with rfl | rfl | ⟨path, i, rfl⟩
    · exact Listener.logging_calm
    · exact Progress.listener_calm
    · exact TraceFile.listener_calm path i
  · intro l hl f m
    rcases mem_listeners hl with rfl | rfl | ⟨path, i, rfl⟩
    · exact Listener.logging_leaves logged_files f.start m
    · rfl
    · rfl

/-- Listeners one of whom prints progress, while the others print nothing;
and until an operation finishes nobody does more than to write log
lines. -/
structure Reports (r : Runner) : Prop where
  /-- None of them panics, -/
  calm : r.Calm
  /-- progress is shown by one of them, -/
  progress : r.Serves Progress.memory
  /-- at a start none changes what is seen, -/
  starts : ∀ l ∈ r, ∀ (f : Frame) m, (l.hear f.start m).2.sight = m.sight
  /-- and none ever writes to the output. -/
  output : ∀ l ∈ r, l.Leaves fun m => m.console.output

/-- The listeners of a session report, with a trace file and without. -/
theorem reports_listeners (trace : Option (FilePath × FileSystem.Id)) :
    Reports (Session.listeners false
      (trace.map fun t => TraceFile.listener t.1 t.2)) := by
  have hlogged := Progress.private_texts.logged
  constructor
  · exact (waits_listeners false trace).calm
  · refine ⟨Progress.private_texts, [.logging], Progress.listener, _, rfl,
      Progress.listener_keeps, ?_, ?_⟩
    · intro l hl
      rw [List.mem_singleton.1 hl]
      exact Listener.logging_leaves hlogged
    · intro l hl
      obtain ⟨t, -, rfl⟩ := Option.map_eq_some_iff.1 (Option.mem_toList.1 hl)
      exact TraceFile.listener_leaves (fun _ _ => rfl) hlogged t.1 t.2
  · intro l hl f m
    rcases mem_listeners hl with rfl | rfl | ⟨path, i, rfl⟩
    · exact Listener.logging_leaves Machine.sight_logged f.start m
    · rfl
    · rfl
  · have houtput : ∀ m level target message fields,
        (Machine.logged m level target message fields).console.output = m.console.output :=
      fun m level target message fields =>
        congrArg Sight.output (m.sight_logged level target message fields)
    intro l hl
    rcases mem_listeners hl with rfl | rfl | ⟨path, i, rfl⟩
    · exact Listener.logging_leaves houtput
    · exact Progress.listener_leaves
    · exact TraceFile.listener_leaves (fun _ _ => rfl) houtput path i

/-- A session that shows progress. -/
def plainSession : Session := ⟨.default, Session.listeners false none⟩

-- =============================================================== lines

open Resource

variable {ε α : Type} {l l' : String}

/-- The lines of two operations that end alike: the same, unless there is
a failure to tell of. -/
def LinesLike (l l' : String) : Exit (Except ε α) → String → String → Prop
  | .value (.error _) => SameAround l l'
  | _ => Eq

/-- The line of a failed operation. -/
theorem Progress.line_failed {record : Record} {text : String} (h : record.failure = some text) :
    Progress.line record
      = "Download " ++ Progress.name record.descriptor ++ ": " ++ ("failed (" ++ text ++ ")") := by
  unfold Progress.line
  rw [h]

/-- A line shows the short name, the result and the failure. -/
theorem Progress.line_congr {record record' : Record}
    (hname : Progress.name record.descriptor = Progress.name record'.descriptor)
    (hresult : record.result = record'.result) (hfailure : record.failure = record'.failure) :
    Progress.line record = Progress.line record' := by
  unfold Progress.line Record.resultU64?
  rw [hname, hresult, hfailure]

/-- The lines of two reads of one resource that end alike. -/
theorem line_alike {n n' : Name} {bytes : α → Nat} {m m' : Machine} {record record' : Record}
    {exit exit' : Exit (Except Error α)} (hname : n.shortDisplayName = n'.shortDisplayName)
    (hexit : Exit.Like (AnswerLike (Error.Twins l l') Eq) exit exit') (hne : exit ≠ .abort)
    (h : Accounts n bytes m exit record) (h' : Accounts n' bytes m' exit' record') :
    LinesLike l l' exit (Progress.line record ++ "\n") (Progress.line record' ++ "\n") := by
  have hshown : Progress.name record.descriptor = Progress.name record'.descriptor := by
    rw [h.descriptor, h'.descriptor]
    exact hname
  -- A line shows the name and how the operation ended, and only a failure has a text of its
  -- own.
  cases hexit with
  | abort => exact absurd rfl hne
  | unwind =>
      obtain ⟨hfailure, hresult⟩ := h.panic rfl
      obtain ⟨hfailure', hresult'⟩ := h'.panic rfl
      exact congrArg (· ++ "\n") (Progress.line_congr hshown (hresult.trans hresult'.symm)
        (hfailure.trans hfailure'.symm))
  | value hanswer =>
      cases hanswer with
      | ok hvalue =>
          subst hvalue
          obtain ⟨hfailure, hresult⟩ := h.success _ rfl
          obtain ⟨hfailure', hresult'⟩ := h'.success _ rfl
          exact congrArg (· ++ "\n") (Progress.line_congr hshown (hresult.trans hresult'.symm)
            (hfailure.trans hfailure'.symm))
      | error htwins =>
          obtain ⟨hfailure, -⟩ := h.failure _ rfl
          obtain ⟨hfailure', -⟩ := h'.failure _ rfl
          show SameAround l l' _ _
          rw [Progress.line_failed hfailure, Progress.line_failed hfailure', hshown]
          exact (((htwins.message.prepend _).append _).prepend _).append _

-- =========================================================== resources

/-- A resource is instrumented when its name is connected. -/
theorem connectInstrumented_of_connect {o : Http.Options} {n : Name} {a : AnyResource}
    (h : connect o n = .ok a) (r : Runner) :
    connectInstrumented o n r = .ok (instrumented a.source.resource n r) := by
  unfold connectInstrumented
  rw [h]
  rfl

/-- The resource that an argument means is used in scopes of the session's
listeners. -/
theorem Session.on_connected {s : Session} {argument : String} {n : Name} {a : AnyResource}
    {m : Machine} (htarget : target m.files.workingPath? argument = .ok n)
    (hconnect : connect s.options n = .ok a) (f : Resource → Run (Except Failure Unit)) :
    s.on argument f m = f (instrumented a.source.resource n s.runner) m := by
  unfold Session.on Session.resource
  rw [htarget]
  dsimp only
  rw [connectInstrumented_of_connect hconnect]

end Command

end TracedTransfer
