/-
A listener that panics when an operation starts leaks no scope.

The listeners may panic at any start, also at some and not at others, but
at no finish. The body of a call is then run exactly if its start got to
every listener; and however the call comes to its end, every listener
hears its record, those included that were not told of its start
(`scopes_close`).

Each part rests on one fact about finishes, `Runner.closes_uncut`: a
finish gets to all listeners. So no program ends while it unwinds, calls
settle as they do for calm listeners, and the chronicle of a program has
the finish of every operation that starts in it.
-/
import TracedTransfer.Proofs.Operation.Telling

namespace TracedTransfer.Operation

variable {r : Runner}

-- ============================================================ finishes

/-- A finish gets to every listener, if none panics at it. -/
theorem Runner.closes_uncut (hr : r.Contained) (hclose : ∀ l ∈ r, l.ClosesCalmly)
    (record : Record) (m : Machine) :
    (r.tiding (.finished record) m).cut = false
      ∧ (r.tiding (.finished record) m).reached = r.length := by
  rcases Runner.tell_cases hr (.finished record) m with ⟨h, hcut⟩ | ⟨h, -⟩
  · exact ⟨hcut, Runner.reach_of_not_cut h⟩
  · obtain ⟨before, l, after, m₁, rfl, hl, -⟩ := Runner.tiding_cut_cases h
    have hmem : l ∈ before ++ l :: after :=
      List.mem_append_right _ (List.mem_cons_self ..)
    rw [show l.hear (.finished record) m₁ = l.finished record m₁ from rfl,
      hclose l hmem record m₁] at hl
    cases hl

/-- Where all listeners close calmly, each finish gets to every one of
them. -/
theorem Told.finish {m m' : Machine} {ts : List Tiding} (h : Told r m ts m')
    (hr : r.Contained) (hclose : ∀ l ∈ r, l.ClosesCalmly) {t : Tiding} (ht : t ∈ ts)
    {record : Record} (hf : t.notice = .finished record) :
    t.cut = false ∧ t.reached = r.length := by
  obtain ⟨m₁, hm₁⟩ := h.passed t ht
  rw [hf] at hm₁
  rw [hm₁]
  exact Runner.closes_uncut hr hclose record m₁

/-- What the listener at a place hears of a start and a finish of which
the finish got to everyone. -/
theorem heardAt_pair {j : Nat} {start finish : Tiding} (h : j < finish.reached) :
    heardAt j [start, finish]
      = (if j < start.reached then [start.notice] else []) ++ [finish.notice] := by
  by_cases hs : j < start.reached
  · rw [heardAt_cons_of_lt hs, heardAt_cons_of_lt h, if_pos hs]
    rfl
  · rw [heardAt_cons_of_not_lt hs, heardAt_cons_of_lt h, if_neg hs]
    rfl

-- =============================================================== calls

/-- A call, of which the finish gets to everyone, settles as its body has
ended. -/
theorem settled_of_calm {α : Type} (hr : r.Contained) (hclose : ∀ l ∈ r, l.ClosesCalmly)
    (f : Frame) (unwound : Bool) (exit : Exit α) (m : Machine) :
    settled r f unwound exit m = (exit, left r f unwound m) :=
  settled_of_not_cut (Runner.closes_uncut hr hclose _ _).1 exit

/-- The body of a call is run exactly if its start was not cut. Otherwise
the call unwinds, whatever its body would have done. -/
theorem call_of_calm_finish {ε α : Type} (hr : r.Contained)
    (hclose : ∀ l ∈ r, l.ClosesCalmly) (d : Descriptor) (display : ε → String)
    (body : Id → Run (Except ε α)) (m : Machine) :
    call r d display body m =
      if (opening r d m).cut then (.unwind, left r (frameOf d m) true (entered r d m))
      else
        match body (frameOf d m).id (entered r d m) with
        | (.value outcome, m₁) =>
          (.value outcome,
            left r (frameOf d m) false (returned (frameOf d m) display outcome m₁))
        | (.unwind, m₁) => (.unwind, left r (frameOf d m) true m₁)
        | (.abort, m₁) => (.abort, m₁) := by
  have h := call_contained hr d display body m
  simp only [settled_of_calm hr hclose] at h
  exact h

-- ================================================== the main statement

/-- What a program comes to when listeners may panic at starts. -/
structure Leakless (r : Runner) (id : Id) (value : Json) (steps : List Step) (m : Machine)
    (ts : List Tiding) (said : Context) (ending : Ending) : Prop where
  /-- The program ends as its chronicle does. In the chronicle, a call runs
  its body if its start was not cut, and otherwise does what a body does
  that panics at once; a panic goes through every call that does not catch
  it, and each of these finishes next, the innermost first, with a record
  of what was said of it, and of a panic unless a failure was said. -/
  exit : (runSteps r id value steps m).1 = ending.exit value
  /-- What happens in it is one of the stories that a program can tell. -/
  chronicle : Chronicle m.scopes.current (.steps steps) .empty ts said (.ends ending)
  /-- Each notice is passed to the listeners in order, until one panics. -/
  passed : ∀ t ∈ ts, ∃ m', t = r.tiding t.notice m'
  /-- Whatever the body of a call does, it is run exactly if no listener
  panicked at the start of the call. -/
  runs : ∀ {ε α : Type} (d : Descriptor) (display : ε → String)
    (body : Id → Run (Except ε α)) (m : Machine),
    call r d display body m =
      if (opening r d m).cut then (.unwind, left r (frameOf d m) true (entered r d m))
      else
        match body (frameOf d m).id (entered r d m) with
        | (.value outcome, m₁) =>
          (.value outcome,
            left r (frameOf d m) false (returned (frameOf d m) display outcome m₁))
        | (.unwind, m₁) => (.unwind, left r (frameOf d m) true m₁)
        | (.abort, m₁) => (.abort, m₁)
  /-- Of each operation there is one start and one finish. The record of
  one whose start was cut says that it panicked, and nothing else. Every
  listener hears the finish, whether it heard the start or not. -/
  once : ∀ i ∈ startedIds (notices ts), ∃ start finish p d record,
    tidingsOf i ts = [start, finish] ∧ Encloses start finish i p d record
      ∧ ∀ j < r.length, noticesOf i (heardAt j ts)
        = (if j < start.reached then [.started i p d] else []) ++ [.finished record]
  /-- There is nothing to hear of other operations, and no number is used
  twice. -/
  strange : ∀ i ∉ startedIds (notices ts), tidingsOf i ts = []
  /-- Numbers increase from start to start. -/
  increasing : (startedIds (notices ts)).Pairwise (· < ·)
  /-- On one thread, every finish closes the innermost open operation. -/
  nested : arePlain steps = true → ∀ {stack : List Opened},
    m.scopes.current = innermost stack → Replay stack (notices ts) stack
  /-- Every listener has taken in what it heard, whatever it makes of it. -/
  recalled : ∀ {β : Type} (k : Memory β) (j : Nat), r.ServesAt j k →
    k.kept (runSteps r id value steps m).2 = (heardAt j ts).foldl k.note (k.kept m)
  /-- After each step, a call that returns or unwinds included, the
  operation is current that was current before it. -/
  restored : ∀ {s : Step}, s.leavesRecording = true → ∀ (id : Id) (m : Machine),
    m.scopes.Numbered → (runStep r id s m).2.scopes.current = m.scopes.current

theorem Ran.ends (hr : r.Contained) (hclose : ∀ l ∈ r, l.ClosesCalmly) {id : Id}
    {value : Json} {steps : List Step} {m : Machine} {g : Context → Context}
    {ts : List Tiding} {out : Outcome} (h : Ran r id value steps m g ts out) :
    out ≠ .aborts :=
  (h.chronicle .empty).ends fun _ ht _ hf => (h.told.finish hr hclose ht hf).1

/-- A step gives the current operation back, whatever listeners do at its
start. -/
theorem runStep_restores (hr : r.Contained) (hclose : ∀ l ∈ r, l.ClosesCalmly) {s : Step}
    (hs : s.leavesRecording = true) (id : Id) {m : Machine} (hm : m.scopes.Numbered) :
    (runStep r id s m).2.scopes.current = m.scopes.current := by
  obtain ⟨g, ts, out, h⟩ := runSteps_ran hr [s]
    (by rw [leaveRecording, hs]; rfl) id .null hm
  have hcur := h.current (h.ends hr hclose)
  rw [runSteps_singleton] at hcur
  exact hcur

/-- A program whose listeners panic at some starts, and at no finish,
leaks no scope. -/
theorem scopes_close (hr : r.Contained) (hclose : ∀ l ∈ r, l.ClosesCalmly)
    {steps : List Step} (hs : leaveRecording steps = true) (id : Id) (value : Json)
    {m : Machine} (hm : m.scopes.Numbered) :
    ∃ ts said ending, Leakless r id value steps m ts said ending := by
  obtain ⟨g, ts, out, h⟩ := runSteps_ran hr steps hs id value hm
  -- No listener panics at a finish, so no record is cut and nothing unwinds while something
  -- unwinds already.
  have hends := h.ends hr hclose
  have hnd : (startedIds (notices ts)).Nodup :=
    h.told.increasing.imp fun hlt => Nat.ne_of_lt hlt
  match out, h, hends with
  | .ends ending, h, _ =>
    refine ⟨ts, g .empty, ending, {
      exit := h.exit
      chronicle := h.chronicle .empty
      passed := h.told.passed
      runs := call_of_calm_finish hr hclose
      once := ?_
      strange := fun i hi => (h.chronicle .empty).strange hi
      increasing := h.told.increasing
      nested := fun hp _ hstack => (h.chronicle .empty).replay hp nofun hstack
      recalled := h.told.recalled
      restored := fun hs' id' _ hm' => runStep_restores hr hclose hs' id' hm' }⟩
    intro i hi
    obtain ⟨start, p, d, -, ⟨-, habort⟩ | ⟨finish, record, hpair, hen⟩⟩ :=
      (h.chronicle .empty).tracked hnd hi
    · cases habort
    · refine ⟨start, finish, p, d, record, hpair, hen, fun j hj => ?_⟩
      -- The finish got to all of them, the start perhaps to some.
      have hreach := (h.told.finish hr hclose (finish_mem hpair) hen.finishes).2
      rw [noticesOf_heardAt, hpair, heardAt_pair (hreach ▸ hj), hen.starts, hen.finishes]

-- ============================================================ a witness

/-- Panics when an operation of a name starts. -/
def Listener.refusing (name : String) : Listener where
  started _ _ d := if d.displayName = name then Action.panic else pure ()
  finished _ := pure ()

/-- A listener that refuses every start panics in that one place only. -/
theorem Listener.refusing_contained (name : String) : (refusing name).Contained := by
  intro n m
  cases n with
  | started i p d =>
      show ((if d.displayName = name then Action.panic else pure () : Run Unit) m).1 ≠ .abort
        ∧ m.scopes.Keeps ((if d.displayName = name then Action.panic else pure () :
          Run Unit) m).2.scopes
      by_cases h : d.displayName = name
      · rw [if_pos h]
        exact ⟨nofun, .refl _⟩
      · rw [if_neg h]
        exact ⟨nofun, .refl _⟩
  | finished rec => exact ⟨nofun, .refl _⟩

/-- A call inside another is refused by the second of three listeners, and
its panic goes through the call around it, which is caught. -/
theorem scopes_close_of_refused_inner :
    let r : Runner := [.recording, .refusing "inner", .journal]
    let steps : List Step := [.call true ⟨"outer", none, none, none⟩ .null
      [.setStatus "begun", .call false ⟨"inner", none, none, none⟩ .null [.setStatus "on"],
        .setStatus "behind"], .current]
    let m := Machine.initial .empty .default
    r.Contained ∧ (∀ l ∈ r, l.ClosesCalmly) ∧ leaveRecording steps = true
      ∧ m.scopes.Numbered
      ∧ (arePlain steps = true ∧ m.scopes.current = innermost [])
      ∧ ∃ ts said ending, Leakless r 0 .null steps m ts said ending := by
  intro r steps m
  have hr : r.Contained := by
    intro l hl
    rcases List.mem_cons.1 hl with rfl | hl
    · exact Listener.recording_calm.contained
    · rcases List.mem_cons.1 hl with rfl | hl
      · exact Listener.refusing_contained "inner"
      · rw [List.mem_singleton.1 hl]
        exact Listener.journal_calm.contained
  have hclose : ∀ l ∈ r, l.ClosesCalmly := by
    intro l hl
    rcases List.mem_cons.1 hl with rfl | hl
    · exact Listener.recording_calm.closesCalmly
    · rcases List.mem_cons.1 hl with rfl | hl
      · exact fun _ _ => rfl
      · rw [List.mem_singleton.1 hl]
        exact Listener.journal_calm.closesCalmly
  have hs : leaveRecording steps = true := by decide
  have hm : m.scopes.Numbered := fun _ hf => (List.not_mem_nil hf).elim
  exact ⟨hr, hclose, hs, hm, ⟨by decide, rfl⟩, scopes_close hr hclose hs 0 .null hm⟩

end TracedTransfer.Operation
