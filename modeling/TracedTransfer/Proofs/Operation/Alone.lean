/-
A thread that no other one comes between.

The steps of `Threads` are the work of the runner cut into pieces, so that
pieces of other threads can come between them. Here none does: a thread
that has every turn until it ends leaves the recording and the numbers that
the runner leaves when it makes the calls itself (`doDeeds`, each call by
`Operation.call`), and it has told what a journal beside the recording has
been told (`run_alone`).

`StandsAt` ties a thread to a machine at the points between two deeds. The
induction is on the deeds, with one body inside the other: a body is done
up to the closing of its scope (`Goes`), and a call is the opening of its
scope, its body, and what comes of the closing (`Goes.call`).
-/
import Mathlib.Logic.Relation
import TracedTransfer.Proofs.Operation.Body
import TracedTransfer.Proofs.Operation.Remaining

namespace TracedTransfer.Operation.Threads

variable {before : List Event} {m : Machine} {s s' : Shared} {t t' : Thread} {a : Activation}
  {outer : List Activation} {body rest : List Deed}

-- ====================================================== by the runner

/-- A recording, and a journal of what it hears. -/
def watched : Runner := [.recording, .journal]

mutual

/-- Does the deeds of a body, its calls by a runner. -/
def doDeeds (r : Runner) (id : Id) : List Deed → Run (Except String Unit)
  | [] => pure (.ok ())
  | d :: rest => do
    match ← doDeed r id d with
    | some e => return .error e
    | none => doDeeds r id rest

/-- Does one deed of a body; a text is the failure that the body returns. -/
def doDeed (r : Runner) (id : Id) : Deed → Run (Option String)
  | .setResult v => do
    setResult id v
    return none
  | .setStatus v => do
    setStatus id v
    return none
  | .setFailure v => do
    setFailure id v
    return none
  | .call caught d body => do
    let _ ← catchingIf caught (call r d (fun e => e) fun inner => doDeeds r inner body)
    return none
  | .fail e => return some e
  | .panic => Action.panic

end

/-- Makes a call whose body is deeds. -/
def Call.make (r : Runner) (c : Call) : Run (Except String Unit) :=
  call r c.descriptor (fun e => e) fun id => doDeeds r id c.body

-- ============================================================= standing

/-- A thread stands where a machine stands, whose journal began with `before`. -/
structure StandsAt (before : List Event) (m : Machine) (s : Shared) (t : Thread) : Prop where
  /-- Machine and thread agree in the next number, -/
  nextId : m.scopes.nextId = s.nextId
  /-- in the operation that is current, -/
  current : m.scopes.current = t.current
  /-- in the frames that are open, -/
  frames : m.scopes.frames = t.calls.map Activation.frame
  /-- in what the recording holds -/
  recording : m.recording = s.recording
  /-- and in what the journal has been told. -/
  told : m.events = before ++ t.told
  /-- No time goes by in either. -/
  clock : m.clock = 0
  /-- Scopes inside others have the later numbers. -/
  rising : (m.scopes.nextId :: m.scopes.frames.map Frame.id).Pairwise (· > ·)

/-- The frames around the innermost one. -/
theorem StandsAt.innermost (h : StandsAt before m s t) (hcalls : t.calls = a :: outer) :
    m.scopes.frames = a.frame :: outer.map Activation.frame
      ∧ ∀ f ∈ outer.map Activation.frame, f.id < a.frame.id := by
  have hframes := h.frames
  rw [hcalls, List.map_cons] at hframes
  have hrising := h.rising
  rw [hframes, List.map_cons] at hrising
  refine ⟨hframes, fun f hf => ?_⟩
  exact (List.pairwise_cons.1 hrising.of_cons).1 f.id (List.mem_map_of_mem hf)

/-- What a body says of its operation is said in the innermost call. -/
theorem StandsAt.say (h : StandsAt before m s t) (hcalls : t.calls = a :: outer)
    (rest : List Deed) (g : Context → Context) :
    StandsAt before (updateContext a.frame.id g m).2 s (t.say outer a rest g) := by
  obtain ⟨hframes, hbelow⟩ := h.innermost hcalls
  have hsaid := updateContext_innermost hframes hbelow g
  have hids : (m.scopes.updateContext a.frame.id g).frames.map Frame.id
      = m.scopes.frames.map Frame.id := by
    rw [hsaid, hframes]
    rfl
  refine ⟨h.nextId, h.current, hsaid, h.recording, h.told, h.clock, ?_⟩
  show (m.scopes.nextId :: (m.scopes.updateContext a.frame.id g).frames.map Frame.id).Pairwise _
  rw [hids]
  exact h.rising

/-- What calls have left to do does not matter, nor what the thread has. -/
theorem StandsAt.change (h : StandsAt before m s t) {calls : List Activation} (left : List Call)
    (hcalls : t.calls.map Activation.frame = calls.map Activation.frame) :
    StandsAt before m s { t with calls, left } :=
  ⟨h.nextId, h.current, h.frames.trans hcalls, h.recording, h.told, h.clock, h.rising⟩

-- =============================================================== going

/-- A thread gets somewhere by steps of its own. -/
abbrev Gets : Shared × Thread → Shared × Thread → Prop :=
  Relation.ReflTransGen fun x y => x.2.step? x.1 = some y

/-- The machine when what a body has come to has been written down. -/
def written (f : Frame) (exit : Exit (Except String Unit)) (m : Machine) : Machine :=
  match exit with
  | .value outcome => returned f (fun e => e) outcome m
  | _ => m

/-- A call whose body has been done, with what has been said of it. -/
def Activation.done (a : Activation) (c : Context) (rest : List Deed) : Activation :=
  { a with frame := { a.frame with context := c }, body := rest }

/-- A thread that has done the body of a call, and stands where a machine stands. It is about to
close the scope of the call. -/
structure Reaches (before : List Event) (s : Shared) (t : Thread) (a : Activation)
    (outer : List Activation) (unwound : Bool) (m : Machine) (s' : Shared) (t' : Thread)
    (b : Activation) : Prop where
  /-- The thread stands where the machine does, in the same call, -/
  stands : StandsAt before m s' { t' with calls := b :: outer }
  /-- which is all that it has gone through, -/
  left : t'.left = t.left
  /-- with what has been said of it and what is left of its body, -/
  same : ∃ c rest, b = a.done c rest
  /-- so that it goes on by closing its scope. -/
  gets : Gets (s, t) (s', t'.close outer b unwound)

/-- A body that every running call does as the runner does it. -/
def Goes (body : List Deed) : Prop :=
  ∀ {before : List Event} {m : Machine} {s : Shared} {t : Thread} {a : Activation}
    {outer : List Activation}, StandsAt before m s t → t.calls = a :: outer →
      a.stage = .running → a.body = body →
        ∃ exit m₁ s' t' b, doDeeds watched a.frame.id body m = (exit, m₁) ∧ exit ≠ .abort
          ∧ Reaches before s t a outer (Resource.unwound exit) (written a.frame exit m₁) s' t' b

theorem step?_running (hcalls : t.calls = a :: outer) (hstage : a.stage = .running) :
    t.step? s = some (t.act s outer a) := by
  rw [Thread.step?, hcalls]
  simp only [hstage]

/-- Nothing is left to be done. -/
theorem goes_nil : Goes [] := by
  intro before m s t a outer h hcalls hstage hbody
  refine ⟨.value (.ok ()), m, s, t, a, rfl, nofun, ?_, rfl, ⟨a.frame.context, a.body, rfl⟩, ?_⟩
  · rw [← hcalls]
    exact h
  · refine .single ?_
    show t.step? s = _
    rw [step?_running hcalls hstage, Thread.act, hbody]
    rfl

/-- The body says something of its operation and goes on. -/
theorem Goes.say {d : Deed} {rest : List Deed} {g : Context → Context} (hrest : Goes rest)
    (hdo : ∀ id m, doDeed watched id d m = (.value none, (updateContext id g m).2))
    (hact : ∀ (s : Shared) (t : Thread) (outer : List Activation) (a : Activation),
      a.body = d :: rest → t.act s outer a = (s, t.say outer a rest g)) : Goes (d :: rest) := by
  intro before m s t a outer h hcalls hstage hbody
  let b : Activation :=
    { a with frame := { a.frame with context := g a.frame.context }, body := rest }
  obtain ⟨exit, m₁, s', t', b', hdone, hexit, hreaches⟩ :=
    hrest (a := b) (h.say hcalls rest g) rfl hstage rfl
  refine ⟨exit, m₁, s', t', b', ?_, hexit, hreaches.stands, hreaches.left, ?_, ?_⟩
  · rw [doDeeds, Action.bind_of_value (hdo a.frame.id m)]
    exact hdone
  · obtain ⟨c, rest', rfl⟩ := hreaches.same
    exact ⟨c, rest', rfl⟩
  · refine .head ?_ hreaches.gets
    show t.step? s = _
    rw [step?_running hcalls hstage, hact s t outer a hbody]

/-- The body returns a failure, which is said of its operation. -/
theorem goes_fail (e : String) (rest : List Deed) : Goes (.fail e :: rest) := by
  intro before m s t a outer h hcalls hstage hbody
  let g : Context → Context := fun c => { c with failure := some e }
  let b : Activation :=
    { a with frame := { a.frame with context := g a.frame.context }, body := [] }
  refine ⟨.value (.error e), m, s, t.say outer a [] g, b, rfl, nofun, h.say hcalls [] g, rfl,
    ⟨_, _, rfl⟩, ?_⟩
  refine .head (b := (s, t.say outer a [] g)) ?_ (.single ?_)
  · show t.step? s = _
    rw [step?_running hcalls hstage, Thread.act, hbody]
  · show (t.say outer a [] g).step? s = _
    rw [step?_running (a := b) rfl hstage]
    rfl

/-- The body panics. -/
theorem goes_panic (rest : List Deed) : Goes (.panic :: rest) := by
  intro before m s t a outer h hcalls hstage hbody
  refine ⟨.unwind, m, s, t, a, rfl, nofun, ?_, rfl, ⟨a.frame.context, a.body, rfl⟩, ?_⟩
  · rw [← hcalls]
    exact h
  · refine .single ?_
    show t.step? s = _
    rw [step?_running hcalls hstage, Thread.act, hbody]
    rfl

-- =============================================================== calls

/-- The listener that watches a run never panics. -/
theorem watched_calm : watched.Calm := by
  intro l hl
  rcases List.mem_cons.1 hl with rfl | hl
  · exact Listener.recording_calm
  · rw [List.mem_singleton.1 hl]
    exact Listener.journal_calm

/-- A thread whose call is open and has been told of. -/
def Thread.begun (t : Thread) (c : Call) (f : Frame) : Thread :=
  { t with
    current := some f.id
    calls := ⟨f, c.caught, .running, c.body⟩ :: t.calls
    told := t.told ++ [.started f.id f.parent f.descriptor.displayName] }

/-- The shared part when a scope has been opened and told of. -/
def Shared.begun (s : Shared) (f : Frame) : Shared :=
  ⟨s.nextId + 1, { s.recording with started := s.recording.started ++ [f.id] }⟩

/-- A call opens a scope as the runner does. -/
theorem StandsAt.begun (h : StandsAt before m s t) (c : Call) :
    StandsAt before (entered watched c.descriptor m) (s.begun (frameOf c.descriptor m))
        (t.begun c (frameOf c.descriptor m))
      ∧ Gets (t.enter s t.calls c)
        (s.begun (frameOf c.descriptor m), t.begun c (frameOf c.descriptor m)) := by
  have hframe : (⟨s.nextId, t.current, c.descriptor, 0, .empty⟩ : Frame)
      = frameOf c.descriptor m := by
    rw [frameOf, Scopes.nextFrame, h.nextId, h.current, h.clock]
  constructor
  · refine ⟨congrArg (· + 1) h.nextId, rfl, congrArg _ h.frames, ?_, ?_, h.clock, ?_⟩
    · show (⟨m.recording.started ++ [_], m.recording.records⟩ : Recording) = _
      rw [h.recording]
      rfl
    · show m.events ++ [_] = before ++ (t.told ++ [_])
      rw [h.told, List.append_assoc]
    · have hnext : ∀ i ∈ m.scopes.nextId :: m.scopes.frames.map Frame.id,
          m.scopes.nextId + 1 > i := by
        intro i hi
        rcases List.mem_cons.1 hi with rfl | hi
        · exact Nat.lt_succ_self _
        · exact Nat.lt_succ_of_lt ((List.pairwise_cons.1 h.rising).1 i hi)
      exact List.pairwise_cons.2 ⟨hnext, h.rising⟩
  · refine .single ?_
    show Thread.step? _ _ = _
    rw [Thread.enter, hframe]
    rfl

/-- A thread whose call has ended, before what the call leaves to those around it. -/
def Thread.ended (t : Thread) (calls : List Activation) (f : Frame) (record : Record) : Thread :=
  { t with current := f.parent, calls, told := t.told ++ [.finished record] }

/-- The shared part when a record has been told of. -/
def Shared.ended (s : Shared) (record : Record) : Shared :=
  { s with recording := { s.recording with records := s.recording.records ++ [record] } }

/-- A call closes its scope as the runner does. -/
theorem StandsAt.ended {c : Context} (unwound : Bool)
    (h : StandsAt before m s { t with calls := a.done c rest :: outer }) :
    StandsAt before (Operation.left watched a.frame unwound m)
        (s.ended (recordOf a.frame unwound m))
        (t.ended outer a.frame (recordOf a.frame unwound m))
      ∧ Gets (s, t.close outer (a.done c rest) unwound)
        (s.ended (recordOf a.frame unwound m),
          (t.ended outer a.frame (recordOf a.frame unwound m)).resume outer
            (unwound && !a.caught)) := by
  obtain ⟨hframes, -⟩ := h.innermost rfl
  -- No time goes by, so the record of the machine is the one that the thread makes.
  have hrecord : recordOf a.frame unwound m = (a.done c rest).frame.record c 0 unwound := by
    rw [recordOf_innermost (f := a.frame) hframes rfl, h.clock]
    rfl
  have htail : m.scopes.frames.tail = outer.map Activation.frame := by
    rw [hframes, List.tail_cons]
  constructor
  · refine ⟨h.nextId, rfl, htail, ?_, ?_, h.clock, ?_⟩
    · show (⟨m.recording.started, m.recording.records ++ [_]⟩ : Recording) = _
      rw [h.recording]
      rfl
    · show m.events ++ [_] = before ++ (t.told ++ [_])
      rw [h.told, List.append_assoc]
    · have hrising := h.rising
      rw [hframes, List.map_cons] at hrising
      show (m.scopes.nextId :: m.scopes.frames.tail.map Frame.id).Pairwise _
      rw [htail]
      exact hrising.sublist ((List.sublist_cons_self ..).cons_cons _)
  · refine .single ?_
    rw [hrecord]
    cases unwound with
    | false => rfl
    | true => rfl

/-- A call is made as the runner makes it, if its body is done so. -/
theorem Goes.make {c : Call} (hbody : Goes c.body) (h : StandsAt before m s t) :
    ∃ exit m' s' t', c.make watched m = (exit, m') ∧ exit ≠ .abort ∧ StandsAt before m' s' t'
      ∧ t'.calls = t.calls ∧ t'.left = t.left
      ∧ Gets (t.enter s t.calls c)
        (s', t'.resume t.calls (Resource.unwound exit && !c.caught)) := by
  obtain ⟨hstands, hopens⟩ := h.begun c
  obtain ⟨exit, m₁, s₁, t₁, b, hdone, hexit, hreaches⟩ := hbody hstands rfl rfl rfl
  obtain ⟨context, rest, rfl⟩ := hreaches.same
  obtain ⟨hended, hcloses⟩ := hreaches.stands.ended (Resource.unwound exit)
  refine ⟨exit, _, _, _, ?_, hexit, hended, rfl, hreaches.left,
    (hopens.trans hreaches.gets).trans hcloses⟩
  rw [Call.make, call_eq watched_calm, hdone]
  cases exit with
  | value outcome => rfl
  | unwind => rfl
  | abort => exact absurd rfl hexit

/-- When a call has been made, the deeds behind it are done, or a panic goes on. -/
theorem doDeeds_call {c : Call} {m' : Machine} {exit : Exit (Except String Unit)}
    (hmake : c.make watched m = (exit, m')) (hexit : exit ≠ .abort) (id : Id)
    (rest : List Deed) : doDeeds watched id (c.deed :: rest) m
      = doDeeds watched id (onward (Resource.unwound exit && !c.caught) rest) m' := by
  have hdeed : doDeed watched id c.deed
      = (catchingIf c.caught (c.make watched) >>= fun _ => pure none) := rfl
  rw [doDeeds, hdeed, bind_assoc]
  cases exit with
  | value outcome =>
      rw [Action.bind_of_value (catchingIf_of_value c.caught hmake)]
      rfl
  | unwind =>
      have hcatch := catchingIf_of_unwind c.caught hmake
      cases hcaught : c.caught with
      | true =>
          rw [hcaught, if_pos rfl] at hcatch
          rw [Action.bind_of_value hcatch]
          rfl
      | false =>
          rw [hcaught, if_neg Bool.false_ne_true] at hcatch
          rw [Action.bind_of_unwind hcatch]
          rfl
  | abort => exact absurd rfl hexit

/-- The body makes a call. -/
theorem Goes.call {c : Call} (hbody : Goes c.body) (hrest : Goes rest) :
    Goes (c.deed :: rest) := by
  intro before m s t a outer h hcalls hstage hdeeds
  let around : List Activation := { a with body := rest } :: outer
  have haround : StandsAt before m s { t with calls := around } :=
    h.change t.left (by rw [hcalls]; rfl)
  have hstart : t.step? s = some (t.enter s around c) := by
    rw [step?_running hcalls hstage, Thread.act, hdeeds]
    rfl
  obtain ⟨exit, m', s', t', hmake, hexit, hstands, hcalls', hleft, hgets⟩ :=
    hbody.make haround
  have hdo := doDeeds_call hmake hexit a.frame.id rest
  -- What is done after the call is the rest of the body, or a panic.
  generalize (Resource.unwound exit && !c.caught) = unwinding at hgets hdo
  have honward : Goes (onward unwinding rest) := by
    cases unwinding with
    | true => exact goes_panic []
    | false => exact hrest
  let b : Activation := { a with body := onward unwinding rest }
  have hresume : t'.resume around unwinding = { t' with calls := b :: outer } := by
    cases unwinding with
    | true => rfl
    | false => rfl
  have hthere : StandsAt before m' s' { t' with calls := b :: outer } :=
    hstands.change t'.left (by rw [hcalls']; rfl)
  obtain ⟨exit', m₁, s₁, t₁, b', hdone, hexit', hreaches⟩ := honward hthere rfl hstage rfl
  refine ⟨exit', m₁, s₁, t₁, b', hdo.trans hdone, hexit', hreaches.stands,
    hreaches.left.trans hleft, ?_, ?_⟩
  · obtain ⟨context, rest', rfl⟩ := hreaches.same
    exact ⟨context, rest', rfl⟩
  · refine .head hstart (hgets.trans ?_)
    show Gets (s', t'.resume around unwinding) _
    rw [hresume]
    exact hreaches.gets

mutual

/-- A deed can be run if what is behind it can, whichever way it ends. -/
theorem Deed.goes (d : Deed) {rest : List Deed} (hrest : Goes rest) : Goes (d :: rest) := by
  cases d with
  | setResult v =>
      refine hrest.say (fun _ _ => rfl) fun s t outer a hbody => ?_
      rw [Thread.act, hbody]
  | setStatus v =>
      refine hrest.say (fun _ _ => rfl) fun s t outer a hbody => ?_
      rw [Thread.act, hbody]
  | setFailure v =>
      refine hrest.say (fun _ _ => rfl) fun s t outer a hbody => ?_
      rw [Thread.act, hbody]
  | call caught d body => exact Goes.call (c := ⟨caught, d, body⟩) (goes body) hrest
  | fail e => exact goes_fail e rest
  | panic => exact goes_panic rest

/-- Every body is done as the runner does it. -/
theorem goes (body : List Deed) : Goes body := by
  cases body with
  | nil => exact goes_nil
  | cons d rest => exact d.goes (goes rest)

end

-- ============================================================ programs

/-- A thread makes the calls of a program as the runner makes them. -/
theorem gets_end (program : List Call) : ∀ {m : Machine} {s : Shared} {t : Thread},
    StandsAt before m s t → t.calls = [] → t.left = program →
      ∃ exit m' s' t', doDeeds watched 0 (deeds program) m = (exit, m') ∧ exit ≠ .abort
        ∧ StandsAt before m' s' t' ∧ t'.isDone = true ∧ Gets (s, t) (s', t') := by
  induction program with
  | nil =>
      intro m s t h hcalls hleft
      refine ⟨.value (.ok ()), m, s, t, rfl, by simp, h, ?_, .refl⟩
      rw [Thread.isDone, hcalls, hleft]
      rfl
  | cons c program ih =>
      intro m s t h hcalls hleft
      have hstart : t.step? s = some ({ t with left := program }.enter s [] c) := by
        rw [Thread.step?, hcalls, hleft]
      have hthere : StandsAt before m s { t with calls := [], left := program } :=
        h.change program (by rw [hcalls])
      obtain ⟨exit, m', s', t', hmake, hexit, hstands, hcalls', hleft', hgets⟩ :=
        Goes.make (goes c.body) hthere
      have hdo := doDeeds_call hmake hexit 0 (deeds program)
      -- A panic that nobody caught ends the program; otherwise the rest is made.
      generalize (Resource.unwound exit && !c.caught) = unwinding at hgets hdo
      cases unwinding with
      | true =>
          exact ⟨.unwind, m', s', { t' with calls := [], left := [] }, hdo, by simp,
            hstands.change [] (by rw [hcalls']), rfl, .head hstart hgets⟩
      | false =>
          obtain ⟨exit', m₁, s₁, t₁, hdone, hexit', hstands', hended, hgets'⟩ :=
            ih hstands hcalls' hleft'
          have hnone : t'.calls = [] := hcalls'
          have hresume : t'.resume [] false = t' := by
            rw [Thread.resume, ← hnone]
          refine ⟨exit', m₁, s₁, t₁, hdo.trans hdone, hexit', hstands', hended,
            .head hstart (hgets.trans ?_)⟩
          show Gets (s', t'.resume [] false) _
          rw [hresume]
          exact hgets'

-- ============================================================= systems

/-- A schedule that names a thread makes its step, -/
theorem step_of_thread {y : System} {i : Nat} (hi : y.threads[i]? = some t)
    (h : t.step? y.shared = some (s', t')) : y.step i = ⟨s', y.threads.set i t'⟩ := by
  rw [System.step, hi]
  dsimp only
  rw [h]

/-- and does nothing if that thread is done. -/
theorem step_of_done {y : System} {i : Nat} (hi : y.threads[i]? = some t)
    (h : t.isDone = true) : y.step i = y := by
  rw [Thread.isDone, Bool.and_eq_true, List.isEmpty_iff, List.isEmpty_iff] at h
  have hnone : t.step? y.shared = none := by
    rw [Thread.step?, h.1, h.2]
  rw [System.step, hi]
  dsimp only
  rw [hnone]

/-- A thread that has the turns gets where it gets by itself. -/
theorem run_of_gets {y : System} {i : Nat} (hi : y.threads[i]? = some t)
    {x : Shared × Thread} (h : Gets (y.shared, t) x) :
    ∃ n, y.run (List.replicate n i) = ⟨x.1, y.threads.set i x.2⟩ := by
  obtain ⟨hlt, hget⟩ := List.getElem?_eq_some_iff.1 hi
  induction h with
  | refl =>
      refine ⟨0, ?_⟩
      have hsame : y.threads.set i t = y.threads := by
        rw [← hget, List.set_getElem_self]
      show y = ⟨y.shared, y.threads.set i t⟩
      rw [hsame]
  | @tail b c _ hstep ih =>
      obtain ⟨n, hrun⟩ := ih
      have hb : (y.threads.set i b.2)[i]? = some b.2 := List.getElem?_set_self hlt
      refine ⟨n + 1, ?_⟩
      rw [List.replicate_succ', System.run, List.foldl_append]
      show System.step (y.run (List.replicate n i)) i = _
      rw [hrun, step_of_thread hb hstep, List.set_set]

/-- When a thread has ended, further turns make no difference. -/
theorem run_of_done {y : System} {i : Nat} (hi : y.threads[i]? = some t)
    (h : t.isDone = true) (n : Nat) : y.run (List.replicate n i) = y := by
  induction n with
  | zero => rfl
  | succ n ih =>
      show System.run (y.step i) (List.replicate n i) = y
      rw [step_of_done hi h, ih]

/-- A thread that has every turn until it ends does with its program what the runner does with it,
whatever the other threads were doing before. -/
theorem run_alone {y : System} {i : Nat} {program : List Call}
    (hi : y.threads[i]? = some (.start program)) {m : Machine}
    (hscopes : m.scopes = ⟨y.shared.nextId, none, []⟩)
    (hrecording : m.recording = y.shared.recording) (hclock : m.clock = 0) :
    ∃ n exit m' t, doDeeds watched 0 (deeds program) m = (exit, m') ∧ exit ≠ .abort
      ∧ t.isDone = true ∧ m'.events = m.events ++ t.told
      ∧ ∀ k, n ≤ k → y.run (List.replicate k i)
        = ⟨⟨m'.scopes.nextId, m'.recording⟩, y.threads.set i t⟩ := by
  have hstands : StandsAt m.events m y.shared (.start program) := by
    refine ⟨by rw [hscopes], by rw [hscopes]; rfl, by rw [hscopes]; rfl, hrecording,
      (List.append_nil _).symm, hclock, ?_⟩
    rw [hscopes]
    exact List.pairwise_singleton _ _
  obtain ⟨exit, m', s, t, hdo, hexit, hends, hdone, hgets⟩ := gets_end program hstands rfl rfl
  obtain ⟨n, hrun⟩ := run_of_gets hi hgets
  -- The thread is done, so turns beyond the last one that it needs change nothing.
  have hshared : s = ⟨m'.scopes.nextId, m'.recording⟩ := by
    rw [hends.nextId, hends.recording]
  have hlt := (List.getElem?_eq_some_iff.1 hi).1
  refine ⟨n, exit, m', t, hdo, hexit, hdone, hends.told, fun k hk => ?_⟩
  obtain ⟨more, rfl⟩ := Nat.exists_eq_add_of_le hk
  rw [List.replicate_add, System.run, List.foldl_append]
  show System.run (y.run (List.replicate n i)) (List.replicate more i) = _
  rw [hrun, ← hshared]
  exact run_of_done (List.getElem?_set_self hlt) hdone more

end TracedTransfer.Operation.Threads
