/-
Threads that share a runner do not come in each other's way.

Whatever the schedule, a step moves one thread and leaves the others as
they are. So `System.Follows` holds of every run (`follows_run`): each
thread follows its own program (`Thread.Follows`, which mentions no other
thread), and what the threads share is put together from what each has
done: the numbers given out are those that the threads got, each once, and
the recording holds what the threads told, in some order.

`Independent` says what that means to somebody who looks at a run from
outside, in the middle of it or at its end, and `run_independent` that it
holds of all programs under all schedules.
-/
import Mathlib.Data.List.Flatten
import Mathlib.Data.List.Perm.Basic
import TracedTransfer.Proofs.Operation.Remaining

namespace TracedTransfer.Operation.Threads

variable {program : List Call} {programs : List (List Call)} {y : System}
  {s s' : Shared} {t t' : Thread}

-- =========================================================== one thread

/-- A thread that has told `es` on its way through a program. -/
structure Thread.Follows (t : Thread) (program : List Call) (es : List Notice) : Prop where
  /-- It has told these notices, -/
  told : t.told = es.map Notice.event
  /-- it is in a state that it can get into, -/
  sound : t.Sound
  /-- the notices leave open what the thread has open, -/
  replay : Replay [] es (heardOf t.calls)
  /-- and whatever it may still tell completes them to the course of its
  program. -/
  course : ∀ es', t.Remains es' → Course none (deeds program) (es ++ es')

/-- A thread that has not begun follows any program. -/
theorem Thread.start_follows (program : List Call) :
    (Thread.start program).Follows program [] where
  told := rfl
  sound := ⟨.nil, rfl, by rintro _ ⟨⟩⟩
  replay := .nil
  course := fun _ h => Thread.remains_start.1 h

/-- A thread that makes a step still follows its program, having told what
the step tells. -/
theorem Thread.Follows.moved {es heard : List Notice} {given : List Id}
    (h : t.Follows program es) (hm : Moved s t s' t' heard given) :
    t'.Follows program (es ++ heard) where
  told := by rw [hm.told, h.told, List.map_append]
  sound := hm.sound
  replay := h.replay.append hm.replay
  course := fun es' hr => by
    rw [List.append_assoc]
    exact h.course _ (hm.remains es' hr)

/-- What a thread has told can be gone on with to the end of its program. -/
theorem Thread.Follows.extends {es : List Notice} (h : t.Follows program es) :
    ∃ es', Course none (deeds program) (es ++ es') := by
  obtain ⟨es', hes'⟩ := t.exists_remains
  exact ⟨es', h.course es' hes'⟩

/-- A thread that has ended has told the course of its program. -/
theorem Thread.Follows.ended {es : List Notice} (h : t.Follows program es)
    (hdone : t.isDone = true) : Course none (deeds program) es := by
  have := h.course [] (Thread.remains_nil hdone)
  rwa [List.append_nil] at this

-- ========================================================== the shared

/-- A change of one of several adds to what they have between them. -/
theorem perm_flatMap_set {α β : Type} {f : α → List β} {a b : α} {extra : List β}
    (h : (f b).Perm (f a ++ extra)) (l : List α) (i : Nat) (hi : l[i]? = some a) :
    ((l.set i b).flatMap f).Perm (l.flatMap f ++ extra) := by
  induction l generalizing i with
  | nil => cases hi
  | cons x l ih =>
      cases i with
      | zero =>
          cases hi
          rw [List.set_cons_zero, List.flatMap_cons, List.flatMap_cons, List.append_assoc]
          refine (h.append_right _).trans ?_
          rw [List.append_assoc]
          exact List.perm_append_comm.append_left _
      | succ i =>
          rw [List.set_cons_succ, List.flatMap_cons, List.flatMap_cons, List.append_assoc]
          exact (ih i hi).append_left _

/-- Each thread follows its program, and what the threads share is put
together from what each has done. -/
structure System.Follows (programs : List (List Call)) (y : System) : Prop where
  /-- There is a thread for each program, -/
  length : y.threads.length = programs.length
  /-- which follows it. -/
  threads : ∀ (i : Nat) (program : List Call) (t : Thread), programs[i]? = some program →
    y.threads[i]? = some t → ∃ es, t.Follows program es
  /-- Numbers start with one, -/
  positive : 0 < y.shared.nextId
  /-- and those that were given are shared out among the threads. -/
  numbers : (y.threads.flatMap Thread.numbers).Perm (List.range' 1 (y.shared.nextId - 1))
  /-- The recording has the starts of all threads, in some order, -/
  started : y.shared.recording.started.Perm (y.threads.flatMap fun t => startsOf t.told)
  /-- and their records. -/
  records : y.shared.recording.records.Perm (y.threads.flatMap fun t => recordsOf t.told)

/-- Before the first step all threads are at the start of their programs,
and nothing is shared. -/
theorem follows_start (programs : List (List Call)) :
    (System.start programs).Follows programs := by
  have hnothing : ∀ {β : Type} (f : Thread → List β), (∀ program, f (.start program) = []) →
      (System.start programs).threads.flatMap f = [] := by
    intro β f hf
    rw [List.flatMap_eq_nil_iff]
    intro t ht
    obtain ⟨program, -, rfl⟩ := List.mem_map.1 ht
    exact hf program
  constructor
  · exact List.length_map _
  · intro i program t hp ht
    rw [System.start, List.getElem?_map, hp] at ht
    cases ht
    exact ⟨[], Thread.start_follows program⟩
  · exact Nat.one_pos
  · rw [hnothing _ fun _ => rfl]
    exact .refl []
  · rw [hnothing _ fun _ => rfl]
    exact .refl []
  · rw [hnothing _ fun _ => rfl]
    exact .refl []

/-- A step of one thread. -/
theorem System.Follows.moved (h : y.Follows programs) {i : Nat} (hi : y.threads[i]? = some t)
    {heard : List Notice} {given : List Id} (hm : Moved y.shared t s' t' heard given) :
    System.Follows programs ⟨s', y.threads.set i t'⟩ := by
  have hpositive := h.positive
  have hnext := hm.nextId
  have hrecording := Recording.foldl_note heard y.shared.recording
  rw [← hm.recording] at hrecording
  constructor
  · exact (List.length_set ..).trans h.length
  · intro j program u hp hu
    rw [List.getElem?_set] at hu
    split at hu
    · next hij =>
        subst hij
        obtain ⟨es, hes⟩ := h.threads i program t hp hi
        split at hu
        · cases hu
          exact ⟨es ++ heard, hes.moved hm⟩
        · cases hu
    · exact h.threads j program u hp hu
  · show 0 < s'.nextId
    rw [hnext]
    exact Nat.add_pos_left hpositive _
  · refine (perm_flatMap_set hm.numbers _ i hi).trans ?_
    refine (h.numbers.append_right given).trans (.of_eq ?_)
    -- A step takes no number, or the next one.
    show List.range' 1 (y.shared.nextId - 1) ++ given = List.range' 1 (s'.nextId - 1)
    rw [hnext]
    obtain ⟨n, hn⟩ := Nat.exists_eq_add_one.2 hpositive
    rcases hm.fresh with hg | hg
    · rw [hg, List.append_nil]
      rfl
    · rw [hg, hn, List.length_singleton, Nat.add_sub_cancel, Nat.add_sub_cancel,
        List.range'_1_concat, Nat.add_comm 1 n]
  · have htold : startsOf t'.told = startsOf t.told ++ startedIds heard := by
      rw [hm.told, startsOf, List.filterMap_append]
      exact congrArg _ (startsOf_event heard)
    rw [hrecording]
    refine (h.started.append_right _).trans (List.Perm.symm ?_)
    exact perm_flatMap_set (f := fun t => startsOf t.told) (.of_eq htold) _ i hi
  · have htold : recordsOf t'.told = recordsOf t.told ++ finishedRecords heard := by
      rw [hm.told, recordsOf, List.filterMap_append]
      exact congrArg _ (recordsOf_event heard)
    rw [hrecording]
    refine (h.records.append_right _).trans (List.Perm.symm ?_)
    exact perm_flatMap_set (f := fun t => recordsOf t.told) (.of_eq htold) _ i hi

/-- A step of the schedule, be it one of a thread or one that names none. -/
theorem System.Follows.step (h : y.Follows programs) (i : Nat) :
    (y.step i).Follows programs := by
  rw [System.step]
  cases hi : y.threads[i]? with
  | none => exact h
  | some t =>
      cases hs : t.step? y.shared with
      | none => simpa only [hs] using h
      | some next =>
          obtain ⟨program, hp⟩ : ∃ program, programs[i]? = some program := by
            have := (List.getElem?_eq_some_iff.1 hi).1
            exact ⟨_, List.getElem?_eq_getElem (h.length ▸ this)⟩
          obtain ⟨es, hes⟩ := h.threads i program t hp hi
          obtain ⟨heard, given, hm⟩ := step?_moved hes.sound hs
          simp only [hs]
          exact h.moved hi hm

/-- The induction over the schedule. -/
theorem follows_run (programs : List (List Call)) (schedule : List Nat) :
    ((System.start programs).run schedule).Follows programs := by
  have hrun : ∀ (schedule : List Nat) {y : System}, y.Follows programs →
      (y.run schedule).Follows programs := by
    intro schedule
    induction schedule with
    | nil => exact fun h => h
    | cons i rest ih => exact fun h => ih (h.step i)
  exact hrun schedule (follows_start programs)

-- ====================================================== from outside

/-- What threads have left when all of them have ended. -/
structure Completed (programs : List (List Call)) (y : System) : Prop where
  /-- The listener heard from each thread what its program comes to. -/
  courses : ∀ (i : Nat) (program : List Call) (t : Thread), programs[i]? = some program →
    y.threads[i]? = some t → ∃ es, t.told = es.map Notice.event
      ∧ Course none (deeds program) es ∧ Replay [] es []
  /-- Each operation that started has one record. -/
  ids : (y.shared.recording.records.map Record.id).Perm y.shared.recording.started
  /-- The records say what the bodies of the calls did. -/
  accounts : (y.shared.recording.records.map Account.ofRecord).Perm
    (programs.flatMap fun program => accounts (deeds program))
  /-- There are as many records as calls have been made, -/
  calls : y.shared.recording.records.length
    = programs.foldr (fun program n => made (deeds program) + n) 0
  /-- and nothing is left open. -/
  open_ : y.shared.recording.open_ = []

/-- What is seen of threads that run their programs through one runner. -/
structure Independent (programs : List (List Call)) (y : System) : Prop where
  /-- No two operations have the same number. -/
  distinct : (y.threads.flatMap Thread.numbers).Nodup
  /-- What the listener has heard from a thread is well bracketed among
  itself, with the calls that this thread has open on the stack, and is the
  beginning of what the program of the thread comes to. -/
  bracketed : ∀ (i : Nat) (program : List Call) (t : Thread), programs[i]? = some program →
    y.threads[i]? = some t → ∃ es, t.told = es.map Notice.event
      ∧ Replay [] es (heardOf t.calls) ∧ ∃ es', Course none (deeds program) (es ++ es')
  /-- The recording holds what the threads told, each start once. -/
  once : y.shared.recording.started.Nodup
  started : y.shared.recording.started.Perm (y.threads.flatMap fun t => startsOf t.told)
  records : y.shared.recording.records.Perm (y.threads.flatMap fun t => recordsOf t.told)
  ended : y.isDone = true → Completed programs y

/-- No number is given to two operations, so none starts twice. -/
theorem System.Follows.nodup (h : y.Follows programs) :
    (y.threads.flatMap Thread.numbers).Nodup ∧ y.shared.recording.started.Nodup := by
  have hnumbers : (y.threads.flatMap Thread.numbers).Nodup :=
    h.numbers.nodup_iff.2 List.nodup_range'
  refine ⟨hnumbers, h.started.nodup_iff.2 ?_⟩
  -- What has been told is a part of what has been given out.
  have hparts : (y.threads.flatMap fun t => startsOf t.told).Sublist
      (y.threads.flatMap Thread.numbers) :=
    List.Sublist.flatMap_right _ fun t _ => List.sublist_append_left ..
  exact hparts.nodup hnumbers

/-- What a thread that has ended has told. -/
theorem System.Follows.told (h : y.Follows programs) (hdone : y.isDone = true) {i : Nat}
    {program : List Call} (hp : programs[i]? = some program) (ht : y.threads[i]? = some t) :
    ∃ es, t.told = es.map Notice.event ∧ Course none (deeds program) es := by
  obtain ⟨es, hes⟩ := h.threads i program t hp ht
  have hended : t.isDone = true := List.all_eq_true.1 hdone t (List.mem_of_getElem? ht)
  exact ⟨es, hes.told, hes.ended hended⟩

/-- When all threads are done, the records of each tell what its program
comes to by itself. -/
theorem System.Follows.accounts (h : y.Follows programs) (hdone : y.isDone = true) :
    (y.threads.flatMap fun t => (recordsOf t.told).map Account.ofRecord)
      = programs.flatMap fun program => accounts (deeds program) := by
  rw [List.flatMap_def, List.flatMap_def]
  congr 1
  refine List.ext_getElem? fun i => ?_
  rw [List.getElem?_map, List.getElem?_map]
  cases hp : programs[i]? with
  | none =>
      rw [List.getElem?_eq_none_iff, ← h.length, ← List.getElem?_eq_none_iff] at hp
      rw [hp]
      rfl
  | some program =>
      have hi := (List.getElem?_eq_some_iff.1 hp).1
      rw [← h.length] at hi
      have ht := List.getElem?_eq_getElem hi
      obtain ⟨es, htold, hcourse⟩ := h.told hdone hp ht
      rw [ht, Option.map_some, Option.map_some, htold, recordsOf_event, hcourse.accounts]

/-- Each operation that has started has then finished, once. -/
theorem System.Follows.ids (h : y.Follows programs) (hdone : y.isDone = true) :
    (y.shared.recording.records.map Record.id).Perm y.shared.recording.started := by
  refine ((h.records.map Record.id).trans ?_).trans h.started.symm
  rw [List.map_flatMap]
  refine List.Perm.flatMap_left _ fun t ht => ?_
  obtain ⟨i, hi⟩ := List.mem_iff_getElem?.1 ht
  have hlt := (List.getElem?_eq_some_iff.1 hi).1
  rw [h.length] at hlt
  obtain ⟨es, htold, hcourse⟩ := h.told hdone (List.getElem?_eq_getElem hlt) hi
  rw [htold, recordsOf_event, startsOf_event]
  exact hcourse.ids

/-- A system whose threads are done has run each program as if it were
alone. -/
theorem System.Follows.completed (h : y.Follows programs) (hdone : y.isDone = true) :
    Completed programs y := by
  have haccounts : (y.shared.recording.records.map Account.ofRecord).Perm
      (programs.flatMap fun program => Threads.accounts (deeds program)) := by
    refine (h.records.map Account.ofRecord).trans (.of_eq ?_)
    rw [List.map_flatMap]
    exact h.accounts hdone
  constructor
  · intro i program t hp ht
    obtain ⟨es, htold, hcourse⟩ := h.told hdone hp ht
    exact ⟨es, htold, hcourse, hcourse.replay rfl⟩
  · exact h.ids hdone
  · exact haccounts
  · rw [← List.length_map Account.ofRecord, haccounts.length_eq]
    clear haccounts h
    induction programs with
    | nil => rfl
    | cons program rest ih =>
        rw [List.flatMap_cons, List.length_append, length_accounts, ih, List.foldr_cons]
  -- Each start has its record among those of the recording.
  · rw [Recording.open_, List.filter_eq_nil_iff]
    intro i hi
    obtain ⟨r, hr, rfl⟩ := List.mem_map.1 ((h.ids hdone).symm.subset hi)
    have : (y.shared.recording.records.any fun r' => r'.id = r.id) = true :=
      List.any_eq_true.2 ⟨r, hr, decide_eq_true rfl⟩
    rw [this]
    exact Bool.false_ne_true

/-- Threads that share a runner do not come in each other's way, whatever
their programs and in whatever order their steps come. -/
theorem run_independent (programs : List (List Call)) (schedule : List Nat) :
    Independent programs ((System.start programs).run schedule) := by
  have h := follows_run programs schedule
  constructor
  · exact h.nodup.1
  · intro i program t hp ht
    obtain ⟨es, hes⟩ := h.threads i program t hp ht
    exact ⟨es, hes.told, hes.replay, hes.extends⟩
  · exact h.nodup.2
  · exact h.started
  · exact h.records
  · exact h.completed

/-- One thread makes a call whose body panics inside another one, the other
thread a call that says something. -/
def panicBeside : List (List Call) :=
  [[⟨true, .named "outer", [.call false (.named "inner") [.panic], .setStatus "unsaid"]⟩],
    [⟨true, .named "beside", [.setStatus "said"]⟩]]

/-- The inner call of the first thread starts and unwinds while the call of
the second one is open. -/
theorem run_independent_of_panic :
    let y := (System.start panicBeside).run [0, 1, 0, 1, 0, 1, 0, 0, 0, 1, 0, 0, 1]
    y.isDone = true ∧ y.shared.recording.started = [1, 2, 3]
      ∧ y.shared.recording.records.map (fun r => (r.id, r.status, r.failure))
        = [(3, none, some "operation panicked"), (1, none, some "operation panicked"),
          (2, some "said", none)]
      ∧ Completed panicBeside y := by
  refine ⟨rfl, rfl, rfl, ?_⟩
  exact (run_independent panicBeside [0, 1, 0, 1, 0, 1, 0, 0, 0, 1, 0, 0, 1]).ended rfl

end TracedTransfer.Operation.Threads
