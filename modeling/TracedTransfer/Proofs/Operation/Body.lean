/-
Bodies of calls, and what of them gets into records.

A body says things of operations, makes calls, whose panics it may catch,
does anything else that leaves open scopes alone, and in the end returns or
panics (`Body`). A nested body may speak of the operations around it, whose
contexts it can be given.

All that a run of a body does to the open frames is what has been said of
their operations (`Body.spoken`). The induction is on the body; for a call
in it, the frame that the call opens is on top while its body runs, and is
gone behind it. So a record tells what has last been said of its operation,
and how its body ended (`record_of_body`).
-/
import TracedTransfer.Proofs.Operation.Saying

namespace TracedTransfer.Operation

variable {ε α β : Type}

-- ============================================================== bodies

/-- What a body may do until it returns or panics. A call in it hands out the
context of the operation that it opens. -/
inductive Body : Type → Type → Type 1 where
  /-- It returns a value or a failure, -/
  | returns {ε α : Type} (outcome : Except ε α) : Body ε α
  /-- or panics, -/
  | panics {ε α : Type} : Body ε α
  /-- says something of an operation, -/
  | tells {ε α : Type} (id : Id) (s : Saying) (rest : Body ε α) : Body ε α
  /-- does anything that leaves scopes alone, -/
  | acts {ε α β : Type} (x : Run β) (rest : β → Body ε α) : Body ε α
  /-- or makes a call, whose panic it may catch, and goes on by what comes
  of it. -/
  | calls {ε α ε' α' : Type} (caught : Bool) (r : Runner) (d : Descriptor)
      (display : ε' → String) (inner : Id → Body ε' α')
      (rest : Option (Except ε' α') → Body ε α) : Body ε α

namespace Body

/-- Runs a body. -/
def run {ε α : Type} : Body ε α → Run (Except ε α)
  | returns outcome => pure outcome
  | panics => Action.panic
  | tells id s rest => do
    s.run id
    rest.run
  | acts x rest => do (rest (← x)).run
  | calls caught r d display inner rest => do
    (rest (← catchingIf caught (call r d display fun id => (inner id).run))).run

/-- What is said while a body runs, by the bodies of its calls too. -/
def said {ε α : Type} : Body ε α → Machine → Said
  | returns _, _ => []
  | panics, _ => []
  | tells id s rest, m => (id, s) :: rest.said (s.run id m).2
  | acts x rest, m => afterwards (x m) fun b m => (rest b).said m
  | calls caught r d display inner rest, m =>
    (inner (frameOf d m).id).said (entered r d m) ++
      afterwards (catchingIf caught (call r d display fun id => (inner id).run) m)
        fun outcome m => (rest outcome).said m

/-- What a body itself says, without those of its calls. -/
def own {ε α : Type} : Body ε α → Machine → List Saying
  | returns _, _ => []
  | panics, _ => []
  | tells id s rest, m => s :: rest.own (s.run id m).2
  | acts x rest, m => afterwards (x m) fun b m => (rest b).own m
  | calls caught r d display inner rest, m =>
    afterwards (catchingIf caught (call r d display fun id => (inner id).run) m)
      fun outcome m => (rest outcome).own m

/-- A body that speaks of its own operation only, as those of its calls do
of theirs. -/
def Discreet {ε α : Type} : Id → Body ε α → Prop
  | _, returns _ => True
  | _, panics => True
  | id, tells i _ rest => i = id ∧ rest.Discreet id
  | id, acts _ rest => ∀ b, (rest b).Discreet id
  | id, calls _ _ _ _ inner rest =>
    (∀ i, (inner i).Discreet i) ∧ ∀ outcome, (rest outcome).Discreet id

/-- A body whose calls have calm listeners, and which for the rest leaves
open scopes alone and does not end the program. -/
def Proper {ε α : Type} : Body ε α → Prop
  | returns _ => True
  | panics => True
  | tells _ _ rest => rest.Proper
  | acts x rest => (Run.KeepsScopes x ∧ ∀ m, (x m).1 ≠ .abort) ∧ ∀ b, (rest b).Proper
  | calls _ r _ _ inner rest =>
    r.Calm ∧ (∀ id, (inner id).Proper) ∧ ∀ outcome, (rest outcome).Proper

end Body

-- =============================================================== calls

section

variable {r : Runner} {d : Descriptor} {m : Machine}

/-- What the outcome of a body makes known of its operation. -/
def Context.afterOutcome (display : ε → String) (outcome : Except ε α) (c : Context) : Context :=
  match outcome with
  | .ok _ => c
  | .error e => { c with failure := some (display e) }

/-- How a body ends gets into the context on top and nowhere else: a failure
that is returned is known of the innermost operation, whose number is above
all others. -/
theorem returned_frames {f g : Frame} {rest : List Frame} {m : Machine}
    (hm : m.scopes.frames = g :: rest) (hg : g.id = f.id) (hrest : ∀ x ∈ rest, x.id < f.id)
    (display : ε → String) (outcome : Except ε α) :
    (returned f display outcome m).scopes.frames
      = { g with context := g.context.afterOutcome display outcome } :: rest := by
  cases outcome with
  | ok a => exact hm
  | error e =>
      show (m.scopes.updateContext f.id _).frames = _
      rw [← hg] at hrest ⊢
      exact updateContext_innermost hm hrest _

/-- It moves neither the current operation nor the next number. -/
theorem returned_scopes (f : Frame) (display : ε → String) (outcome : Except ε α) (m : Machine) :
    (returned f display outcome m).scopes.current = m.scopes.current
      ∧ (returned f display outcome m).scopes.nextId = m.scopes.nextId := by
  cases outcome with
  | ok a => exact ⟨rfl, rfl⟩
  | error e => exact ⟨rfl, rfl⟩

/-- The frame of a call is on top while its body has run. -/
theorem Spoken.framed (hr : r.Calm) {said : Said} {x : Exit β × Machine}
    (h : Spoken (entered r d m) said x) : x.2.scopes.frames
      = (frameOf d m).hear said :: m.scopes.frames.map (·.hear said) := by
  rw [h.frames, entered_frames hr, List.map_cons]

/-- The number of a call is above those of the frames around it, whatever is
said of them. So what is said of its operation is never taken for one of
theirs. -/
theorem below_frameOf (hm : m.scopes.Numbered) (d : Descriptor) (said : Said) :
    ∀ x ∈ m.scopes.frames.map (·.hear said), x.id < (frameOf d m).id := by
  intro x hx
  obtain ⟨g, hg, rfl⟩ := List.mem_map.1 hx
  exact hm g hg

/-- All that a call does to the frames around it is what its body has said of
them. -/
theorem call_spoken (hr : r.Calm) (hm : m.scopes.Numbered) {display : ε → String}
    (body : Id → Run (Except ε α)) {said : Said}
    (h : Spoken (entered r d m) said (body (frameOf d m).id (entered r d m))) :
    Spoken m said (call r d display body m) := by
  have hframes := h.framed hr
  have hbelow := below_frameOf hm d said
  rw [call_eq hr]
  rcases hbody : body (frameOf d m).id (entered r d m) with ⟨exit, m₁⟩
  rw [hbody] at h hframes
  -- The frame of the call has been on top all the time, and goes when the scope is left.
  have hnext := Nat.le_trans (Nat.le_of_lt (entered_nextId hr d m)) h.nextId
  cases exit with
  | value outcome =>
      refine ⟨nofun, left_current hr _ _ _, ?_, ?_⟩
      · refine Nat.le_trans ?_ (left_nextId hr _ _ _)
        rw [(returned_scopes _ _ _ _).2]
        exact hnext
      · have hreturned : (returned (frameOf d m) display outcome m₁).scopes.frames = _ :=
          returned_frames hframes rfl hbelow display outcome
        rw [left_frames hr, hreturned]
        rfl
  | unwind =>
      refine ⟨nofun, left_current hr _ _ _, Nat.le_trans hnext (left_nextId hr _ _ _), ?_⟩
      rw [left_frames hr, hframes]
      rfl
  | abort => exact absurd rfl h.ends

/-- The same for a call in a body. -/
theorem calls_spoken (hr : r.Calm) (hm : m.scopes.Numbered) (caught : Bool)
    (display : ε → String) {inner : Id → Body ε α} {said : Said}
    (h : Spoken (entered r d m) said ((inner (frameOf d m).id).run (entered r d m))) :
    Spoken m said (catchingIf caught (call r d display fun id => (inner id).run) m) :=
  catchingIf_spoken caught (call_spoken hr hm (fun id => (inner id).run) h)

theorem entered_numbered (hr : r.Calm) (hm : m.scopes.Numbered) (d : Descriptor) :
    (entered r d m).scopes.Numbered :=
  (entered_keeps hr d m).numbered (hm.enter rfl)

end

/-- **All that a body does to the open frames is what has been said of their
operations.** -/
theorem Body.spoken {ε α : Type} {body : Body ε α} (hbody : body.Proper) {m : Machine}
    (hm : m.scopes.Numbered) : Spoken m (body.said m) (body.run m) := by
  induction body generalizing m with
  | returns outcome => exact .still nofun
  | panics => exact .still nofun
  | tells id s rest ih =>
      have hsay := s.spoken id m
      obtain ⟨m₁, hrun, -⟩ := s.run_eq id m
      unfold Body.run Body.said
      rw [hrun] at hsay ⊢
      rw [Action.bind_of_value hrun]
      exact hsay.trans (ih hbody (hsay.numbered hm))
  | acts x rest ih =>
      obtain ⟨⟨hkeeps, hends⟩, hrest⟩ := hbody
      have hact := spoken_of_keepsScopes hkeeps (hends m) hm
      exact hact.bind hm fun b m₁ hm₁ => ih b (hrest b) hm₁
  | calls caught r d display inner rest ihinner ihrest =>
      obtain ⟨hr, hinner, hrest⟩ := hbody
      -- What the inner body says reaches the frames around it as well, since the frame of the
      -- call stands on top of them.
      have hcall := calls_spoken hr hm caught display
        (ihinner (frameOf d m).id (hinner _) (entered_numbered hr hm d))
      exact hcall.bind hm fun outcome m₁ hm₁ => ihrest outcome (hrest outcome) hm₁

/-- Of a discreet body its own operation hears what it says itself, and no
other that is open hears anything: the calls in it have later numbers. -/
theorem Body.Discreet.said_of {ε α : Type} {body : Body ε α} {id : Id} (hbody : body.Proper)
    (h : body.Discreet id) {m : Machine} (hm : m.scopes.Numbered) {j : Id}
    (hj : j < m.scopes.nextId) : (body.said m).of j = if j = id then body.own m else [] := by
  induction body generalizing m id j with
  | returns outcome => exact (ite_self _).symm
  | panics => exact (ite_self _).symm
  | tells i s rest ih =>
      obtain ⟨rfl, hrest⟩ := h
      have hsay := s.spoken i m
      have hrec := ih hbody hrest (hsay.numbered hm) (Nat.lt_of_lt_of_le hj hsay.nextId)
      unfold Body.said Body.own
      rw [Said.of_cons, hrec]
      by_cases hji : j = i
      · rw [if_pos hji, if_pos hji, if_pos hji.symm]
      · rw [if_neg hji, if_neg hji, if_neg (Ne.symm hji)]
  | acts x rest ih =>
      obtain ⟨⟨hkeeps, hends⟩, hrest⟩ := hbody
      have hact := spoken_of_keepsScopes hkeeps (hends m) hm
      exact hact.of_afterwards hm hj fun b m₁ hm₁ hj₁ => ih b (hrest b) (h b) hm₁ hj₁
  | calls caught r d display inner rest ihinner ihrest =>
      obtain ⟨hr, hinner, hrest⟩ := hbody
      have hentered := entered_numbered hr hm d
      have hcall := calls_spoken hr hm caught display
        (Body.spoken (hinner (frameOf d m).id) hentered)
      -- The inner body speaks of its own operation, whose number is later than any that is open
      -- here.
      have hnested : ((inner (frameOf d m).id).said (entered r d m)).of j = [] := by
        rw [ihinner _ (hinner _) (h.1 _) hentered (Nat.lt_trans hj (entered_nextId hr d m))]
        exact if_neg (Nat.ne_of_lt hj)
      unfold Body.said Body.own
      rw [Said.of_append, hnested, List.nil_append]
      exact hcall.of_afterwards hm hj fun outcome m₁ hm₁ hj₁ =>
        ihrest outcome (hrest outcome) (h.2 outcome) hm₁ hj₁

-- ============================================================= records

/-- What is told by the record of a call that is made on a machine `m`: what
it is, what has last been said of its operation, and how its body ended. -/
structure Record.TellsOf (record : Record) (m : Machine) (d : Descriptor) (display : ε → String)
    (said : List Saying) (exit : Exit (Except ε α)) : Prop where
  /-- It has the number that was next, -/
  id : record.id = m.scopes.nextId
  /-- the operation around it -/
  parent : record.parent = m.scopes.current
  /-- and its own description. -/
  descriptor : record.descriptor = d
  /-- Of a result the last one that was said counts, -/
  result : record.result = lastOf Saying.result? said
  /-- and of a status too. -/
  status : record.status = lastOf Saying.status? said
  /-- What the body returns as a failure goes before what it has said. -/
  failed : ∀ e, exit = .value (.error e) → record.failure = some (display e)
  /-- If the body returns a value, only what was said can be a failure. -/
  succeeded : ∀ a, exit = .value (.ok a) → record.failure = lastOf Saying.failure? said
  /-- A panic is told of if nothing else has been said. -/
  panicked : exit = .unwind →
    record.failure = some ((lastOf Saying.failure? said).getD Record.panicFailure)

/-- The record of a frame is made of the context on top, as long as the
frame is the innermost one. -/
theorem recordOf_innermost {f g : Frame} {rest : List Frame} {m : Machine}
    (hm : m.scopes.frames = g :: rest) (hg : g.id = f.id) (unwound : Bool) :
    recordOf f unwound m = f.record g.context m.clock unwound := by
  unfold recordOf
  rw [← hg, Resource.context_of_innermost hm]

section

variable {r : Runner} {d : Descriptor} {m m₁ : Machine} {said : Said} {rest : List Frame}

/-- The context of an operation of which no more is known than what has been
said. -/
theorem hear_frameOf (d : Descriptor) (m : Machine) (said : Said) :
    ((frameOf d m).hear said).context
      = ⟨lastOf Saying.result? (said.of m.scopes.nextId),
        lastOf Saying.status? (said.of m.scopes.nextId),
        lastOf Saying.failure? (said.of m.scopes.nextId)⟩ := by
  refine (foldl_note _ _).trans ?_
  simp only [frameOf, Scopes.nextFrame, Context.empty, Option.or_none]

/-- The record of a call whose body has returned, with a value or a
failure. -/
theorem tellsOf_returned (hframes : m₁.scopes.frames = (frameOf d m).hear said :: rest)
    (hrest : ∀ x ∈ rest, x.id < (frameOf d m).id) (display : ε → String)
    (outcome : Except ε α) :
    (recordOf (frameOf d m) false (returned (frameOf d m) display outcome m₁)).TellsOf m d display
      (said.of m.scopes.nextId) (.value outcome) := by
  have hreturned : (returned (frameOf d m) display outcome m₁).scopes.frames = _ :=
    returned_frames hframes rfl hrest display outcome
  have hrecord : recordOf (frameOf d m) false (returned (frameOf d m) display outcome m₁) = _ :=
    recordOf_innermost hreturned rfl false
  rw [hrecord, hear_frameOf]
  cases outcome with
  | ok a =>
      refine ⟨rfl, rfl, rfl, rfl, rfl, nofun, fun _ _ => ?_, nofun⟩
      simp only [Frame.record, Bool.and_false, Bool.false_eq_true, if_false]
      rfl
  | error e =>
      refine ⟨rfl, rfl, rfl, rfl, rfl, fun e' he => ?_, nofun, nofun⟩
      cases he
      rfl

/-- The record of a call whose body has panicked: the panic is told of
unless a failure was said before. -/
theorem tellsOf_unwound (hframes : m₁.scopes.frames = (frameOf d m).hear said :: rest)
    (display : ε → String) :
    (recordOf (frameOf d m) true m₁).TellsOf m d display (said.of m.scopes.nextId)
      (Exit.unwind (α := Except ε α)) := by
  have hrecord : recordOf (frameOf d m) true m₁ = _ := recordOf_innermost hframes rfl true
  rw [hrecord, hear_frameOf]
  refine ⟨rfl, rfl, rfl, rfl, rfl, nofun, nofun, fun _ => ?_⟩
  unfold Frame.record
  cases lastOf Saying.failure? (said.of m.scopes.nextId) with
  | none => rfl
  | some text => rfl

end

-- ================================================== the main statement

/-- What a call comes to that is made on a machine `m`, and while whose body
ran to its end this has been said. -/
structure Recorded (r : Runner) (d : Descriptor) (display : ε → String) (m : Machine) (said : Said)
    (ran called : Exit (Except ε α) × Machine) : Prop where
  /-- It ends as its body ends: with the same value or failure, or it
  unwinds. -/
  exit : called.1 = ran.1
  /-- The program goes on behind it. -/
  ends : called.1 ≠ .abort
  /-- When the body has run each listener hears of one record, which tells
  what has been said of the operation and how the body has ended. -/
  record : ∃ record : Record, record.TellsOf m d display (said.of m.scopes.nextId) ran.1
    ∧ ∀ {γ : Type} (k : Memory γ), r.Serves k →
      k.kept called.2 = k.note (k.kept ran.2) (.finished record)
  /-- Of the operations around it no more is known afterwards than what has
  been said of them, -/
  around : called.2.scopes.frames = m.scopes.frames.map (·.hear said)
  /-- so that nothing has changed for them if all was said of the operation
  itself and of those of its calls. -/
  apart : (∀ f ∈ m.scopes.frames, said.of f.id = []) → m.scopes.Keeps called.2.scopes

/-- No listener notices what a body returns before the call is left. -/
theorem kept_returned {r : Runner} {γ : Type} {k : Memory γ} (hk : r.Serves k) (f : Frame)
    (display : ε → String) (outcome : Except ε α) (m : Machine) :
    k.kept (returned f display outcome m) = k.kept m := by
  cases outcome with
  | ok a => rfl
  | error e => exact hk.apart.scopes _ _

/-- What is said while a body runs settles what its call comes to. Here the
body is any action; only what it does to the open frames must be known. -/
theorem recorded_of_spoken {r : Runner} (hr : r.Calm) {d : Descriptor} {display : ε → String}
    {m : Machine} (hm : m.scopes.Numbered) (body : Id → Run (Except ε α)) {said : Said}
    (h : Spoken (entered r d m) said (body m.scopes.nextId (entered r d m))) :
    Recorded r d display m said (body m.scopes.nextId (entered r d m))
      (call r d display body m) := by
  have hcall : Spoken m said (call r d display body m) := call_spoken hr hm body h
  have hframes := h.framed hr
  have heq := call_eq hr d display body m
  rw [show (frameOf d m).id = m.scopes.nextId from rfl] at heq
  -- If nothing was said of the operations around, hearing of it changes none of their frames.
  have hapart : (∀ f ∈ m.scopes.frames, said.of f.id = []) →
      m.scopes.Keeps (call r d display body m).2.scopes := fun hsaid =>
    ⟨hcall.current, hcall.frames.trans ((List.map_congr_left fun f hf =>
      f.hear_of_nil (hsaid f hf)).trans (List.map_id' _)), hcall.nextId⟩
  rcases hbody : body m.scopes.nextId (entered r d m) with ⟨exit, m₁⟩
  rw [hbody] at h hframes heq
  -- However the body has ended, one record is told when the scope is left.
  cases exit with
  | value outcome =>
      refine ⟨by rw [heq], hcall.ends, ⟨_, tellsOf_returned hframes (below_frameOf hm d said)
        display outcome, fun k hk => ?_⟩, hcall.frames, hapart⟩
      rw [heq]
      exact (recall_left hr hk _ _ _).trans (by rw [kept_returned hk])
  | unwind =>
      refine ⟨by rw [heq], hcall.ends, ⟨_, tellsOf_unwound hframes display, fun k hk => ?_⟩,
        hcall.frames, hapart⟩
      rw [heq]
      exact recall_left hr hk _ _ _
  | abort => exact absurd rfl h.ends

/-- **A record tells what its own body did**, and how that ended. If a body
and those of its calls speak of their own operations only, then this is what
the body itself has said, and no operation around it hears of it. -/
theorem record_of_body {r : Runner} (hr : r.Calm) (d : Descriptor) (display : ε → String)
    {body : Id → Body ε α} (hbody : ∀ id, (body id).Proper) {m : Machine}
    (hm : m.scopes.Numbered) :
    Recorded r d display m ((body m.scopes.nextId).said (entered r d m))
        ((body m.scopes.nextId).run (entered r d m))
        (call r d display (fun id => (body id).run) m)
      ∧ ((∀ id, (body id).Discreet id) →
        ((body m.scopes.nextId).said (entered r d m)).of m.scopes.nextId
            = (body m.scopes.nextId).own (entered r d m)
          ∧ ∀ f ∈ m.scopes.frames,
            ((body m.scopes.nextId).said (entered r d m)).of f.id = []) := by
  have hentered := entered_numbered hr hm d
  refine ⟨recorded_of_spoken hr hm (fun id => (body id).run) (Body.spoken (hbody _) hentered),
    fun hdiscreet => ⟨?_, fun f hf => ?_⟩⟩
  · exact ((hdiscreet _).said_of (hbody _) hentered (entered_nextId hr d m)).trans (if_pos rfl)
  · have hf' : f.id < m.scopes.nextId := hm f hf
    exact ((hdiscreet _).said_of (hbody _) hentered
      (Nat.lt_trans hf' (entered_nextId hr d m))).trans (if_neg (Nat.ne_of_lt hf'))

/-- The record of a call whose body says that it has failed, catches a call
that does so too and panics, and returns another failure. -/
theorem record_of_body_caught :
    let inner : Id → Body String Json := fun id =>
      .tells id (.status "left") (.tells id (.failed "inner") .panics)
    let body : Id → Body String Json := fun id =>
      .tells id (.result (.ok .null)) (.tells id (.failed "first")
        (.calls true [.recording] (.named "inner") (fun e => e) inner fun _ =>
          .tells id (.status "done") (.returns (.error "second"))))
    let m := Machine.initial .empty .default
    let called := call [.recording] (.named "outer") (fun e => e) (fun id => (body id).run) m
    Runner.Calm [.recording] ∧ (∀ id, (body id).Proper) ∧ m.scopes.Numbered
      ∧ (∀ id, (body id).Discreet id)
      ∧ Recorded [.recording] (.named "outer") (fun e => e) m
        ((body m.scopes.nextId).said (entered [.recording] (.named "outer") m))
        ((body m.scopes.nextId).run (entered [.recording] (.named "outer") m)) called
      ∧ ((body m.scopes.nextId).said (entered [.recording] (.named "outer") m)).of m.scopes.nextId
        = (body m.scopes.nextId).own (entered [.recording] (.named "outer") m)
      ∧ called.2.recording.records.map (·.failure) = [some "inner", some "second"]
      ∧ called.2.recording.records.map (·.status) = [some "left", some "done"] := by
  intro inner body m called
  have hr : Runner.Calm [.recording] := by
    intro l hl
    rw [List.mem_singleton.1 hl]
    exact Listener.recording_calm
  have hbody : ∀ id, (body id).Proper := fun _ => ⟨hr, fun _ => trivial, fun _ => trivial⟩
  have hdiscreet : ∀ id, (body id).Discreet id := fun _ =>
    ⟨rfl, rfl, fun _ => ⟨rfl, rfl, trivial⟩, fun _ => ⟨rfl, trivial⟩⟩
  have hm : m.scopes.Numbered := fun _ hf => (List.not_mem_nil hf).elim
  have h := record_of_body hr (.named "outer") (fun e => e) hbody hm
  exact ⟨hr, hbody, hm, hdiscreet, h.1, (h.2 hdiscreet).1, rfl, rfl⟩

end TracedTransfer.Operation
