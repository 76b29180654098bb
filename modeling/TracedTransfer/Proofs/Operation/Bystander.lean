/-
A listener that does nothing but write log lines is not missed.

Machines agree here if they differ at most in the log and the console
(`Agree`), and steps are alike if they end alike on machines that agree,
and leave machines that agree (`Alike`). Every way to put steps together
keeps that, so it is enough that listeners are alike: with a listener that
only logs (`Listener.Mute`) among others that do not look at the log
(`Listener.Steady`), telling is alike to telling the others
(`alike_tell`), and so are calls with any bodies (`alike_call`) and all
programs (`alike_runSteps`).

The listener may need some of the files to be as they are to do nothing,
so machines that agree also have files of a kind, `held`.
-/
import TracedTransfer.Operation.Program
import TracedTransfer.Proofs.Effect
import TracedTransfer.Proofs.Operation.Notice

namespace TracedTransfer.Operation

variable {α β : Type} {held : FileSystem → Prop}

-- ============================================================ agreeing

/-- Machines that differ at most in the log and the console, with files of
a kind. -/
def Agree (held : FileSystem → Prop) (m m' : Machine) : Prop :=
  held m.files ∧ ∃ log console, m' = { m with log, console }

theorem Agree.refl {m : Machine} (h : held m.files) : Agree held m m :=
  ⟨h, m.log, m.console, rfl⟩

/-- Steps that go alike on machines that agree. -/
def Alike (held : FileSystem → Prop) (x y : Run α) : Prop :=
  ∀ m m', Agree held m m' → (x m).1 = (y m').1 ∧ Agree held (x m).2 (y m').2

theorem alike_pure (a : α) : Alike held (pure a) (pure a) := fun _ _ h => ⟨rfl, h⟩

theorem alike_panic : Alike held (Action.panic : Run α) Action.panic := fun _ _ h => ⟨rfl, h⟩

/-- The relation is that of actions in general, with equal values and
machines that agree. -/
theorem alike_iff {x y : Run α} : Alike held x y ↔ Action.Like (Agree held) Eq x y :=
  Action.like_eq_iff.symm

theorem alike_bind {x y : Run α} {f g : α → Run β} (h : Alike held x y)
    (hf : ∀ a, Alike held (f a) (g a)) : Alike held (x >>= f) (y >>= g) :=
  alike_iff.2 (Action.like_bind_eq (alike_iff.1 h) fun a => alike_iff.1 (hf a))

/-- What is looked up is not in the log. -/
theorem alike_gets {f : Machine → α}
    (hf : ∀ m log console, f { m with log, console } = f m) :
    Alike held (Action.gets f) (Action.gets f) := by
  rintro m m' ⟨hheld, log, console, rfl⟩
  exact ⟨congrArg Exit.value (hf m log console).symm, hheld, log, console, rfl⟩

/-- What changes is neither in the log nor in the files. -/
theorem alike_modify {f : Machine → Machine}
    (hf : ∀ m log console, f { m with log, console } = { f m with log, console })
    (hfiles : ∀ m, (f m).files = m.files) :
    Alike held (Action.modify f) (Action.modify f) := by
  rintro m m' ⟨hheld, log, console, rfl⟩
  refine ⟨rfl, ?_, log, console, hf m log console⟩
  show held (f m).files
  rw [hfiles]
  exact hheld

/-- A log line makes no difference. -/
theorem alike_log (level : Log.Level) (target message : String)
    (fields : List (String × String)) :
    Alike held (Run.log level target message fields) (Run.log level target message fields) := by
  rintro m m' ⟨hheld, log, console, rfl⟩
  obtain ⟨log₁, console₁, h₁⟩ := logged_eq m level target message fields
  obtain ⟨log₂, console₂, h₂⟩ := logged_eq { m with log, console } level target message fields
  refine ⟨rfl, ?_, log₂, console₂, ?_⟩
  · show held (m.logged level target message fields).files
    rw [h₁]
    exact hheld
  · show Machine.logged _ level target message fields
      = { m.logged level target message fields with log := log₂, console := console₂ }
    rw [h₁, h₂]

-- =========================================================== listeners

/-- A listener that does not look at the log, and keeps the kind of the
files. -/
def Listener.Steady (held : FileSystem → Prop) (l : Listener) : Prop :=
  ∀ n, Alike held (l.hear n) (l.hear n)

/-- A listener that leaves nothing but log lines. -/
def Listener.Mute (held : FileSystem → Prop) (l : Listener) : Prop :=
  ∀ n m, held m.files → ∃ log console, l.hear n m = (.value (), { m with log, console })

/-- A recording listener writes no file, -/
theorem Listener.recording_steady : Listener.recording.Steady held := by
  intro n
  cases n with
  | started i p d =>
      refine alike_modify ?_ ?_
      · exact fun _ _ _ => rfl
      · exact fun _ => rfl
  | finished r =>
      refine alike_modify ?_ ?_
      · exact fun _ _ _ => rfl
      · exact fun _ => rfl

/-- and the journal none either. -/
theorem Listener.journal_steady : Listener.journal.Steady held := by
  intro n
  cases n with
  | started i p d =>
      refine alike_modify ?_ ?_
      · exact fun _ _ _ => rfl
      · exact fun _ => rfl
  | finished r =>
      refine alike_modify ?_ ?_
      · exact fun _ _ _ => rfl
      · exact fun _ => rfl

/-- Listeners that do not look at the log are told alike. -/
theorem steady_tell {r : Runner} (hr : ∀ x ∈ r, x.Steady held) (n : Notice) :
    Alike held (Runner.tell n r) (Runner.tell n r) := by
  induction r with
  | nil => exact alike_pure ()
  | cons x r ih =>
      exact alike_bind (hr x (List.mem_cons_self ..) n) fun _ =>
        ih fun y hy => hr y (List.mem_cons_of_mem _ hy)

/-- Telling a runner is alike to telling it without a listener that is
mute. -/
theorem alike_tell {before after : Runner} {l : Listener} (hl : l.Mute held)
    (hothers : ∀ x ∈ before ++ after, x.Steady held) (n : Notice) :
    Alike held (Runner.tell n (before ++ l :: after)) (Runner.tell n (before ++ after)) := by
  induction before with
  | nil =>
      rintro m m' ⟨hheld, log, console, rfl⟩
      obtain ⟨log₁, console₁, hhear⟩ := hl n m hheld
      have htell : Runner.tell n (l :: after) m
          = Runner.tell n after { m with log := log₁, console := console₁ } :=
        Action.bind_of_value hhear
      rw [List.nil_append, List.nil_append, htell]
      exact steady_tell hothers n _ _ ⟨hheld, log, console, rfl⟩
  | cons x before ih =>
      exact alike_bind (hothers x (List.mem_cons_self ..) n) fun _ =>
        ih fun y hy => hothers y (List.mem_cons_of_mem _ hy)

-- =============================================================== calls

section calls

variable {r r' : Runner}

theorem alike_updateContext (id : Id) (f : Context → Context) :
    Alike held (updateContext id f) (updateContext id f) := by
  refine alike_modify ?_ ?_
  · exact fun _ _ _ => rfl
  · exact fun _ => rfl

/-- Two runners that tell alike run a body alike, whose calls may be told to
either of them. -/
theorem alike_runBody {ε : Type} (htell : ∀ n, Alike held (r.tell n) (r'.tell n)) (f : Frame)
    (display : ε → String) {body body' : Id → Run (Except ε α)}
    (hbody : ∀ id, Alike held (body id) (body' id)) :
    Alike held (runBody r f display body) (runBody r' f display body') := by
  unfold runBody
  rw [Runner.notifyStarted_eq_tell, Runner.notifyStarted_eq_tell]
  refine alike_bind (htell _) fun _ => alike_bind (hbody _) fun outcome => ?_
  cases outcome with
  | ok a => exact alike_pure _
  | error e => exact alike_bind (alike_updateContext _ _) fun _ => alike_pure _

/-- They leave a scope alike. -/
theorem alike_closeScope (htell : ∀ n, Alike held (r.tell n) (r'.tell n)) (f : Frame)
    (unwound : Bool) : Alike held (closeScope r f unwound) (closeScope r' f unwound) := by
  unfold closeScope
  refine alike_bind (alike_gets fun _ _ _ => rfl) fun record => ?_
  refine alike_bind (alike_modify ?_ ?_) fun _ => ?_
  · exact fun _ _ _ => rfl
  · exact fun _ => rfl
  · rw [Runner.notifyFinished_eq_tell, Runner.notifyFinished_eq_tell]
    exact htell _

theorem Agree.dropFrame {m m' : Machine} (h : Agree held m m') :
    Agree held (dropFrame m) (dropFrame m') := by
  obtain ⟨hheld, log, console, rfl⟩ := h
  exact ⟨hheld, log, console, rfl⟩

/-- Calls with bodies that go alike go alike. -/
theorem alike_call {ε : Type} (htell : ∀ n, Alike held (r.tell n) (r'.tell n))
    (d : Descriptor) (display : ε → String) {body body' : Id → Run (Except ε α)}
    (hbody : ∀ id, Alike held (body id) (body' id)) :
    Alike held (call r d display body) (call r' d display body') := by
  rintro m m' ⟨hheld, log, console, rfl⟩
  have hopened : Agree held (openScope d m).2 (openScope d { m with log, console }).2 :=
    ⟨hheld, log, console, rfl⟩
  obtain ⟨hexit, hran⟩ := alike_runBody htell (m.scopes.nextFrame d m.clock) display hbody
    _ _ hopened
  show (call r d display body m).1 = _ ∧ _
  unfold call
  simp only [openScope] at hexit hran ⊢
  rcases hx : runBody r (m.scopes.nextFrame d m.clock) display body _ with ⟨exit, m₁⟩
  rcases hy : runBody r' (m.scopes.nextFrame d m.clock) display body' _ with ⟨exit', m₁'⟩
  rw [hx, hy] at hexit hran
  cases hexit
  -- Both runners leave the scope alike, whichever way the body has ended.
  have hclose : ∀ unwound, (closeScope r (m.scopes.nextFrame d m.clock) unwound m₁).1
      = (closeScope r' (m.scopes.nextFrame d m.clock) unwound m₁').1
      ∧ Agree held (closeScope r (m.scopes.nextFrame d m.clock) unwound m₁).2
        (closeScope r' (m.scopes.nextFrame d m.clock) unwound m₁').2 :=
    fun unwound => alike_closeScope htell _ unwound _ _ hran
  cases exit with
  | abort => exact ⟨rfl, hran⟩
  | value outcome =>
      obtain ⟨hexit, hclosed⟩ := hclose false
      dsimp only
      rcases hc : closeScope r (m.scopes.nextFrame d m.clock) false m₁ with ⟨exit, m₂⟩
      rcases hc' : closeScope r' (m.scopes.nextFrame d m.clock) false m₁' with ⟨exit', m₂'⟩
      rw [hc, hc'] at hexit hclosed
      cases hexit
      cases exit with
      | value _ => exact ⟨rfl, hclosed.dropFrame⟩
      | unwind => exact ⟨rfl, hclosed.dropFrame⟩
      | abort => exact ⟨rfl, hclosed⟩
  | unwind =>
      obtain ⟨hexit, hclosed⟩ := hclose true
      dsimp only
      rcases hc : closeScope r (m.scopes.nextFrame d m.clock) true m₁ with ⟨exit, m₂⟩
      rcases hc' : closeScope r' (m.scopes.nextFrame d m.clock) true m₁' with ⟨exit', m₂'⟩
      rw [hc, hc'] at hexit hclosed
      cases hexit
      cases exit with
      | value _ => exact ⟨rfl, hclosed.dropFrame⟩
      | unwind => exact ⟨rfl, hclosed⟩
      | abort => exact ⟨rfl, hclosed⟩

-- ============================================================ programs

theorem alike_structured (what : String) (value : Except String Json) :
    Alike held (structured what value) (structured what value) := by
  cases value with
  | ok j => exact alike_pure _
  | error e => exact alike_bind (alike_log _ _ _ _) fun _ => alike_pure _

/-- An outline makes one descriptor, or panics, on both sides. -/
theorem alike_descriptor (o : Outline) : Alike held o.descriptor o.descriptor := by
  obtain ⟨name, progress, details, unstructured⟩ := o
  cases details with
  | none =>
      cases unstructured with
      | none =>
          exact alike_bind (alike_pure _) fun _ =>
            alike_bind (alike_pure _) fun _ => alike_pure _
      | some e =>
          exact alike_bind (alike_pure _) fun _ =>
            alike_bind (alike_structured _ _) fun _ => alike_pure _
  | some j =>
      cases unstructured with
      | none =>
          exact alike_bind (alike_structured _ _) fun _ =>
            alike_bind (alike_pure _) fun _ => alike_pure _
      | some e =>
          exact alike_bind (alike_structured _ _) fun _ =>
            alike_bind (alike_structured _ _) fun _ => alike_pure _

/-- A body ends alike on both sides. -/
theorem alike_answer (a : Answer) : Alike held (answer a) (answer a) := by
  refine alike_modify (fun m log console => ?_) fun m => ?_
  · cases hm : m.answers with
    | nil => rfl
    | cons top rest => rfl
  · cases hm : m.answers with
    | nil => rfl
    | cons top rest => rfl

/-- The answers of steps that go alike are the same. -/
theorem alike_answering {x y : Run α} (h : Alike held x y) :
    Alike held (answering x) (answering y) := by
  rintro m m' ⟨hheld, log, console, rfl⟩
  have hinner : Agree held { m with answers := [] :: m.answers }
      { m with log, console, answers := [] :: m.answers } := ⟨hheld, log, console, rfl⟩
  obtain ⟨hexit, hran⟩ := h _ _ hinner
  unfold answering Action.catching
  dsimp only
  rcases hx : x { m with answers := [] :: m.answers } with ⟨exit, m₁⟩
  rcases hy : y { m with log, console, answers := [] :: m.answers } with ⟨exit', m₁'⟩
  rw [hx, hy] at hexit hran
  cases hexit
  obtain ⟨hheld₁, log₁, console₁, rfl⟩ := hran
  cases exit with
  | value a => exact ⟨rfl, hheld₁, log₁, console₁, rfl⟩
  | unwind => exact ⟨rfl, hheld₁, log₁, console₁, rfl⟩
  | abort => exact ⟨rfl, hheld₁, log₁, console₁, rfl⟩

/-- On a new thread two actions that are alike stay so: both come back with
the scopes of their own side. -/
theorem alike_onNewThread {x y : Run α} (h : Alike held x y) :
    Alike held (onNewThread x) (onNewThread y) := by
  rintro m m' ⟨hheld, log, console, rfl⟩
  have hinner : Agree held { m with scopes := m.scopes.onNewThread }
      { m with log, console, scopes := m.scopes.onNewThread } := ⟨hheld, log, console, rfl⟩
  obtain ⟨hexit, hheld₁, log₁, console₁, hran⟩ := h _ _ hinner
  refine ⟨hexit, hheld₁, log₁, console₁, ?_⟩
  unfold onNewThread
  dsimp only
  rw [hran]

/-- A call of a program, with what is made of its outcome. -/
theorem alike_callAndAnswer (htell : ∀ n, Alike held (r.tell n) (r'.tell n)) (caught : Bool)
    (o : Outline) {body body' : Id → Run (Except String Json)}
    (hbody : ∀ id, Alike held (body id) (body' id)) :
    Alike held (callAndAnswer caught o r body) (callAndAnswer caught o r' body') := by
  unfold callAndAnswer
  refine alike_bind (alike_answering ?_) fun outcome => ?_
  · exact alike_bind (alike_descriptor o) fun d => alike_call htell d _ hbody
  · refine alike_bind (alike_gets fun _ _ _ => rfl) fun after => ?_
    refine alike_bind (alike_answer _) fun _ => ?_
    split
    · exact alike_panic
    · exact alike_pure ()

mutual

/-- Steps go alike whichever of two runners they run with, if telling
these goes alike. -/
theorem alike_runSteps (htell : ∀ n, Alike held (r.tell n) (r'.tell n)) (id : Id)
    (value : Json) : ∀ steps : List Step,
      Alike held (runSteps r id value steps) (runSteps r' id value steps)
  | [] => by
      unfold runSteps
      exact alike_pure _
  | s :: rest => by
      unfold runSteps
      refine alike_bind (alike_runStep htell id s) fun failure => ?_
      cases failure with
      | some e => exact alike_pure _
      | none => exact alike_runSteps htell id value rest

/-- So does one step. -/
theorem alike_runStep (htell : ∀ n, Alike held (r.tell n) (r'.tell n)) (id : Id) :
    ∀ s : Step, Alike held (runStep r id s) (runStep r' id s)
  | .setResult v => by
      unfold runStep
      exact alike_bind (alike_structured _ _) fun _ =>
        alike_bind (alike_updateContext _ _) fun _ => alike_pure _
  | .setStatus s => by
      unfold runStep
      exact alike_bind (alike_updateContext _ _) fun _ => alike_pure _
  | .setFailure s => by
      unfold runStep
      exact alike_bind (alike_updateContext _ _) fun _ => alike_pure _
  | .call caught o value body => by
      unfold runStep
      exact alike_bind (alike_callAndAnswer htell caught o fun inner =>
        alike_runSteps htell inner value body) fun _ => alike_pure _
  | .thread o value body => by
      unfold runStep
      exact alike_bind (alike_onNewThread (alike_callAndAnswer htell true o fun inner =>
        alike_runSteps htell inner value body)) fun _ => alike_pure _
  | .current => by
      unfold runStep
      exact alike_bind (alike_gets fun _ _ _ => rfl) fun _ =>
        alike_bind (alike_answer _) fun _ => alike_pure _
  | .summary => by
      unfold runStep
      exact alike_bind (alike_gets fun _ _ _ => rfl) fun _ =>
        alike_bind (alike_answer _) fun _ => alike_pure _
  | .clear => by
      unfold runStep
      refine alike_bind (alike_modify ?_ ?_) fun _ => alike_pure _
      · exact fun _ _ _ => rfl
      · exact fun _ => rfl
  | .fail e => by
      unfold runStep
      exact alike_pure _
  | .panic => by
      unfold runStep
      exact alike_panic

end

end calls

end TracedTransfer.Operation
