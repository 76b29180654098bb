/-
What the listeners of a runner are told, and what may be said of a
listener whose behaviour is not known.

A notice is one notification with everything it carries. A runner tells
a notice by passing it to each of its listeners in order. The rest of
the theory needs two things of listeners: that they are calm (they do
not panic, and open scopes stay as they are), and what they keep. What a
listener keeps is a memory: a part of the machine together with what one
notice makes of it. Nothing is asked of the form of that part, so a
statement about every memory is a statement about every listener.

- `tell_calm`: telling calm listeners returns, and open scopes stay.
- `recall_tell`: a notice told to a runner reaches the memory of each
  listener once.
- `view_tell`: what no listener touches, telling leaves as it was.
-/
import TracedTransfer.Operation.Runner

namespace TracedTransfer.Operation

-- ============================================================ notices

/-- One notification, with everything that it carries. -/
inductive Notice where
  /-- An operation has started, -/
  | started (id : Id) (parent : Option Id) (descriptor : Descriptor)
  /-- or one has finished, with this record. -/
  | finished (record : Record)

namespace Notice

/-- The operation that a notice is about. -/
def id : Notice → Id
  | .started i _ _ => i
  | .finished r => r.id

/-- The operation that a notice says has started. -/
def startedId? : Notice → Option Id
  | .started i _ _ => some i
  | .finished _ => none

end Notice

/-- The operations that notices say have started, in order. -/
def startedIds (es : List Notice) : List Id := es.filterMap Notice.startedId?

@[simp] theorem startedIds_started (i : Id) (p : Option Id) (d : Descriptor)
    (es : List Notice) :
    startedIds (.started i p d :: es) = i :: startedIds es := rfl

@[simp] theorem startedIds_finished (r : Record) (es : List Notice) :
    startedIds (.finished r :: es) = startedIds es := rfl

@[simp] theorem startedIds_append (es fs : List Notice) :
    startedIds (es ++ fs) = startedIds es ++ startedIds fs :=
  List.filterMap_append

/-- Passes a notice to a listener. -/
def Listener.hear (l : Listener) : Notice → Run Unit
  | .started i p d => l.started i p d
  | .finished r => l.finished r

/-- Passes a notice to every listener, in order. -/
def Runner.tell (n : Notice) : Runner → Run Unit
  | [] => pure ()
  | l :: rest => do
    l.hear n
    tell n rest

/-- Listeners are told of a start in the one way in which they are told
anything, -/
theorem Runner.notifyStarted_eq_tell (r : Runner) (f : Frame) :
    r.notifyStarted f = r.tell (.started f.id f.parent f.descriptor) := by
  induction r with
  | nil => rfl
  | cons l rest ih =>
      unfold Runner.notifyStarted Runner.tell
      rw [ih]
      rfl

/-- and of a finish too. -/
theorem Runner.notifyFinished_eq_tell (r : Runner) (rec : Record) :
    r.notifyFinished rec = r.tell (.finished rec) := by
  induction r with
  | nil => rfl
  | cons l rest ih =>
      unfold Runner.notifyFinished Runner.tell
      rw [ih]
      rfl

-- ===================================================== calm listeners

/-- What may become of scopes while the open ones stay as they are:
further operations may have taken numbers. -/
structure Scopes.Keeps (s t : Scopes) : Prop where
  /-- The current operation -/
  current : t.current = s.current
  /-- and the frames are the same, -/
  frames : t.frames = s.frames
  /-- and no number is given again. -/
  nextId : s.nextId ≤ t.nextId

theorem Scopes.Keeps.refl (s : Scopes) : s.Keeps s := ⟨rfl, rfl, Nat.le_refl _⟩

theorem Scopes.Keeps.trans {s t u : Scopes} (h : s.Keeps t) (h' : t.Keeps u) :
    s.Keeps u :=
  ⟨h'.current.trans h.current, h'.frames.trans h.frames,
    Nat.le_trans h.nextId h'.nextId⟩

/-- A listener that does not panic and leaves open scopes as they are. -/
def Listener.Calm (l : Listener) : Prop :=
  ∀ n m, (l.hear n m).1 = .value () ∧ m.scopes.Keeps (l.hear n m).2.scopes

/-- A runner of calm listeners. -/
def Runner.Calm (r : Runner) : Prop := ∀ l ∈ r, l.Calm

theorem Runner.Calm.tail {l : Listener} {r : Runner} (h : Runner.Calm (l :: r)) :
    r.Calm := fun x hx => h x (List.mem_cons_of_mem _ hx)

/-- Telling starts with the first listener. -/
theorem Runner.tell_cons {l : Listener} {r : Runner} (hl : l.Calm) (n : Notice)
    (m : Machine) : Runner.tell n (l :: r) m = r.tell n (l.hear n m).2 := by
  have hv := (hl n m).1
  exact Action.bind_of_value (Prod.ext hv rfl)

/-- Telling calm listeners returns, and the open scopes stay. -/
theorem Runner.tell_calm {r : Runner} (hr : r.Calm) (n : Notice) (m : Machine) :
    (r.tell n m).1 = .value () ∧ m.scopes.Keeps (r.tell n m).2.scopes := by
  induction r generalizing m with
  | nil => exact ⟨rfl, .refl _⟩
  | cons l rest ih =>
      have hl := hr l (List.mem_cons_self ..)
      rw [Runner.tell_cons hl]
      obtain ⟨hv, hk⟩ := ih hr.tail (l.hear n m).2
      exact ⟨hv, (hl n m).2.trans hk⟩

theorem Runner.tell_eq {r : Runner} (hr : r.Calm) (n : Notice) (m : Machine) :
    r.tell n m = (.value (), (r.tell n m).2) :=
  Prod.ext (Runner.tell_calm hr n m).1 rfl

-- =========================================================== memories

/-- A part of the machine, and what a notice makes of it. -/
structure Memory (β : Type) where
  /-- What is kept, as it stands in the machine, -/
  kept : Machine → β
  /-- and what a notice adds to it. -/
  note : β → Notice → β

/-- A part of the machine that neither scopes nor the answers of a
program nor its log touch. -/
structure Private {β : Type} (view : Machine → β) : Prop where
  /-- It does not show scopes, -/
  scopes : ∀ m s, view { m with scopes := s } = view m
  /-- answers -/
  answers : ∀ m a, view { m with answers := a } = view m
  /-- or the log. -/
  logged : ∀ m level target message fields,
    view (m.logged level target message fields) = view m

/-- A listener that leaves a part of the machine as it was. -/
def Listener.Leaves {β : Type} (l : Listener) (view : Machine → β) : Prop :=
  ∀ n m, view (l.hear n m).2 = view m

/-- A listener that keeps every notice in a memory. -/
def Listener.Keeps {β : Type} (l : Listener) (k : Memory β) : Prop :=
  ∀ n m, k.kept (l.hear n m).2 = k.note (k.kept m) n

/-- The memory of one listener of a runner: that listener keeps every
notice in it, the others leave it alone, and so does everything else
that a program does. -/
structure Runner.Serves {β : Type} (r : Runner) (k : Memory β) : Prop where
  /-- Nothing but listeners changes what is kept, -/
  apart : Private k.kept
  /-- and among those only one. -/
  place : ∃ before l after, r = before ++ l :: after ∧ l.Keeps k
    ∧ (∀ x ∈ before, x.Leaves k.kept) ∧ ∀ x ∈ after, x.Leaves k.kept

variable {β : Type}

/-- What no listener touches on hearing a notice, telling it leaves as it
was. -/
theorem Runner.view_tell_of {r : Runner} {view : Machine → β} (hr : r.Calm) {n : Notice}
    (hv : ∀ l ∈ r, ∀ m, view (l.hear n m).2 = view m) (m : Machine) :
    view (r.tell n m).2 = view m := by
  induction r generalizing m with
  | nil => rfl
  | cons l rest ih =>
      have hl := hr l (List.mem_cons_self ..)
      rw [Runner.tell_cons hl,
        ih hr.tail (fun x hx => hv x (List.mem_cons_of_mem _ hx))]
      exact hv l (List.mem_cons_self ..) m

/-- What no listener touches, telling leaves as it was. -/
theorem Runner.view_tell {r : Runner} {view : Machine → β} (hr : r.Calm)
    (hv : ∀ l ∈ r, l.Leaves view) (n : Notice) (m : Machine) :
    view (r.tell n m).2 = view m :=
  Runner.view_tell_of hr (fun l hl => hv l hl n) m

/-- A notice told to a runner reaches each memory once. -/
theorem Runner.recall_tell {r : Runner} {k : Memory β} (hr : r.Calm)
    (hk : r.Serves k) (n : Notice) (m : Machine) :
    k.kept (r.tell n m).2 = k.note (k.kept m) n := by
  obtain ⟨before, l, after, rfl, hl, hb, ha⟩ := hk.place
  clear hk
  induction before generalizing m with
  | nil =>
      have hc := hr l (List.mem_cons_self ..)
      rw [List.nil_append, Runner.tell_cons hc, Runner.view_tell hr.tail ha]
      exact hl n m
  | cons x before ih =>
      have hx := hr x (List.mem_cons_self ..)
      rw [List.cons_append, Runner.tell_cons hx,
        ih _ hr.tail fun y hy => hb y (List.mem_cons_of_mem _ hy)]
      rw [hb x (List.mem_cons_self ..) n m]

-- ========================================================== recording

/-- What a notice adds to a recording. -/
def Recording.note (r : Recording) : Notice → Recording
  | .started i _ _ => { r with started := r.started ++ [i] }
  | .finished rec => { r with records := r.records ++ [rec] }

/-- What a recording listener keeps. -/
def Recording.memory : Memory Recording := ⟨Machine.recording, Recording.note⟩

/-- Log lines leave everything but the log and the console alone. -/
theorem logged_eq (m : Machine) (level : Log.Level) (target message : String)
    (fields : List (String × String)) :
    ∃ log console,
      m.logged level target message fields = { m with log, console } := by
  unfold Machine.logged
  split
  · exact ⟨m.log, m.console, rfl⟩
  · split
    · exact ⟨m.log, _, rfl⟩
    · exact ⟨_, m.console, rfl⟩

theorem logged_scopes (m : Machine) (level : Log.Level) (target message : String)
    (fields : List (String × String)) :
    (m.logged level target message fields).scopes = m.scopes := by
  obtain ⟨log, console, h⟩ := logged_eq m level target message fields
  rw [h]

theorem logged_files (m : Machine) (level : Log.Level) (target message : String)
    (fields : List (String × String)) :
    (m.logged level target message fields).files = m.files := by
  obtain ⟨log, console, h⟩ := logged_eq m level target message fields
  rw [h]

/-- A recording is no part of scopes, answers or the log. -/
theorem private_recording : Private Machine.recording where
  scopes _ _ := rfl
  answers _ _ := rfl
  logged m level target message fields := by
    obtain ⟨log, console, h⟩ := logged_eq m level target message fields
    rw [h]

namespace Listener

/-- A recording listener never panics, -/
theorem recording_calm : recording.Calm := by
  intro n m
  cases n with
  | started i p d => exact ⟨rfl, .refl _⟩
  | finished r => exact ⟨rfl, .refl _⟩

/-- and keeps each notice that it is told. -/
theorem recording_keeps : recording.Keeps Recording.memory := by
  intro n m
  cases n with
  | started i p d => rfl
  | finished r => rfl

/-- The journal never panics either. -/
theorem journal_calm : journal.Calm := by
  intro n m
  cases n with
  | started i p d => exact ⟨rfl, .refl _⟩
  | finished r => exact ⟨rfl, .refl _⟩

/-- A journal leaves whatever does not look at the events alone. -/
theorem journal_leaves {view : Machine → β}
    (h : ∀ m es, view { m with events := es } = view m) : journal.Leaves view := by
  intro n m
  cases n with
  | started i p d => exact h m _
  | finished r => exact h m _

/-- A recording leaves whatever does not look at it alone. -/
theorem recording_leaves {view : Machine → β}
    (h : ∀ m r, view { m with recording := r } = view m) :
    recording.Leaves view := by
  intro n m
  cases n with
  | started i p d => exact h m _
  | finished r => exact h m _

end Listener

end TracedTransfer.Operation
