/-
One thread among others: what it has told, and what it still has to tell.

Whatever the other threads do, a thread meets them only in the number that
it gets when a scope opens. So what becomes of it can be told from itself
alone, and that backwards: `Thread.Remains` gives the notices that a thread
may still tell, from the calls that it has open and those that it has yet
to make. A step tells some notices, at most one, and what remains after it
remains before it behind these (`Moved.remains`). When nothing remains,
everything that a thread has told is the course of its program.

The rest is about the present. The calls of a thread nest (`Nested`): each
has the one below it as its parent, which is doing its body. And the
notices told so far can be read up to the calls that have been heard of
and not finished (`Moved.replay`).

`step?_moved` has all of this for every step.
-/
import TracedTransfer.Proofs.Operation.Course

namespace TracedTransfer.Operation

/-- What is kept of a notice. -/
def Notice.event : Notice → Event
  | .started i p d => .started i p d.displayName
  | .finished r => .finished r

namespace Threads

variable {s s' : Shared} {t t' : Thread} {a : Activation}
  {outer calls : List Activation} {left : List Call}

-- ============================================================== nesting

/-- The innermost of calls on top of each other. -/
def topId (calls : List Activation) : Option Id := calls.head?.map fun a => a.frame.id

/-- Calls on top of each other, the innermost first: each has the next one
as its parent, which is doing its body. -/
inductive Nested : List Activation → Prop where
  /-- No call is open. -/
  | nil : Nested []
  /-- A call stands in the one around it, whose body is running. -/
  | cons {a : Activation} {outer : List Activation} (parent : a.frame.parent = topId outer)
      (running : ∀ b ∈ outer.head?, b.stage = .running) : Nested outer → Nested (a :: outer)

theorem Nested.change {b : Activation} (h : Nested (a :: outer))
    (hp : b.frame.parent = a.frame.parent) : Nested (b :: outer) := by
  cases h with
  | cons parent running hout => exact .cons (hp.trans parent) running hout

/-- Without the innermost call the others are nested, and the one around it
is running. -/
theorem Nested.outside (h : Nested (a :: outer)) :
    Nested outer ∧ a.frame.parent = topId outer ∧ ∀ b ∈ outer.head?, b.stage = .running := by
  cases h with
  | cons parent running hout => exact ⟨hout, parent, running⟩

/-- The operation that is current while calls are open: a scope that has
closed has made its parent current again. -/
def currentOf : List Activation → Option Id
  | [] => none
  | a :: _ =>
    match a.stage with
    | .closed .. => a.frame.parent
    | _ => some a.frame.id

/-- While its body runs, the innermost call is the current operation. -/
theorem currentOf_running (h : ∀ b ∈ calls.head?, b.stage = .running) :
    currentOf calls = topId calls := by
  cases calls with
  | nil => rfl
  | cons b rest =>
      have hb := h b rfl
      rw [currentOf, hb]
      rfl

/-- The calls of a thread nest, the operation that is current is the
innermost whose scope is open, and the record of a closed scope is that of
its call. -/
structure Thread.Sound (t : Thread) : Prop where
  /-- Its calls are nested, -/
  nested : Nested t.calls
  /-- the current operation is the innermost one, -/
  current : t.current = currentOf t.calls
  /-- and a record that is still to be told is that of its call. -/
  closed : ∀ a ∈ t.calls.head?, ∀ r unwound, a.stage = .closed r unwound →
    r.Closes a.frame.id a.frame.parent a.frame.descriptor

/-- A call as an operation that listeners have heard of, if they have. -/
def Activation.heard? (a : Activation) : Option Opened :=
  match a.stage with
  | .opened => none
  | _ => some ⟨a.frame.id, a.frame.parent, a.frame.descriptor⟩

/-- The calls that listeners have heard of and that have not ended, the
innermost first. -/
def heardOf (calls : List Activation) : List Opened := calls.filterMap Activation.heard?

/-- A call that listeners have not heard of. -/
def Activation.unheard? (a : Activation) : Option Id :=
  match a.stage with
  | .opened => some a.frame.id
  | _ => none

/-- Calls that are doing their bodies have been heard of. -/
theorem Nested.heardOf (h : Nested calls) (hr : ∀ b ∈ calls.head?, b.stage = .running) :
    innermost (heardOf calls) = topId calls ∧ calls.filterMap Activation.unheard? = [] := by
  induction h with
  | nil => exact ⟨rfl, rfl⟩
  | @cons a outer parent running _ ih =>
      have ha := hr a rfl
      have hheard : a.heard? = some ⟨a.frame.id, a.frame.parent, a.frame.descriptor⟩ := by
        rw [Activation.heard?, ha]
      have hunheard : a.unheard? = none := by rw [Activation.unheard?, ha]
      constructor
      · rw [Threads.heardOf, List.filterMap_cons_some hheard]
        rfl
      · rw [List.filterMap_cons_none hunheard]
        exact (ih running).2

/-- The operations that events say have started. -/
def startsOf (es : List Event) : List Id := es.filterMap fun
  | .started i _ _ => some i
  | .finished _ => none

/-- The records in events. -/
def recordsOf (es : List Event) : List Record := es.filterMap fun
  | .started .. => none
  | .finished r => some r

/-- The starts that a thread tells are those of the notices, -/
theorem startsOf_event (es : List Notice) : startsOf (es.map Notice.event) = startedIds es := by
  rw [startsOf, startedIds, List.filterMap_map]
  refine List.filterMap_congr fun n _ => ?_
  cases n with
  | started i p d => rfl
  | finished r => rfl

/-- and the records too. -/
theorem recordsOf_event (es : List Notice) :
    recordsOf (es.map Notice.event) = finishedRecords es := by
  rw [recordsOf, finishedRecords, List.filterMap_map]
  refine List.filterMap_congr fun n _ => ?_
  cases n with
  | started i p d => rfl
  | finished r => rfl

/-- The numbers that a thread has got: those that it has told of, and that
of a call that it has not told of. -/
def Thread.numbers (t : Thread) : List Id :=
  startsOf t.told ++ t.calls.filterMap Activation.unheard?

-- ====================================================== what is to come

/-- A call outside all others as a deed. -/
def Call.deed (c : Call) : Deed := .call c.caught c.descriptor c.body

/-- The deeds of a program. -/
def deeds (program : List Call) : List Deed := program.map Call.deed

/-- What a call has left to do when the one inside it has come to an end. -/
def onward (unwinding : Bool) (body : List Deed) : List Deed :=
  if unwinding then [.panic] else body

theorem onward_false (body : List Deed) : onward false body = body := rfl

/-- The notices that come when the calls of a thread go on that are doing
their bodies, and after them the calls that it has yet to make. A call that
unwinds and is not caught makes the next one unwind. -/
def Rest : Bool → List Activation → List Call → List Notice → Prop
  | unwinding, [], left, es => Course none (if unwinding then [] else deeds left) es
  | unwinding, a :: outer, left, es => ∃ inner record es',
      es = inner ++ .finished record :: es'
        ∧ record.Closes a.frame.id a.frame.parent a.frame.descriptor
        ∧ Account.ofRecord record
          = account a.frame.descriptor a.frame.context (onward unwinding a.body)
        ∧ Course (some a.frame.id) (onward unwinding a.body) inner
        ∧ Rest (unwinds (onward unwinding a.body) && !a.caught) outer left es'

/-- The notices that remain to be told. -/
def Thread.Remains (t : Thread) (es : List Notice) : Prop :=
  match t.calls with
  | [] => Rest false [] t.left es
  | a :: outer =>
    match a.stage with
    | .opened => ∃ es', es = a.frame.start :: es' ∧ Rest false (a :: outer) t.left es'
    | .running => Rest false (a :: outer) t.left es
    | .closed record unwound => ∃ es', es = .finished record :: es'
        ∧ Rest (unwound && !a.caught) outer t.left es'

/-- Before anything is told, the course of the program remains. -/
theorem Thread.remains_start {program : List Call} {es : List Notice} :
    (Thread.start program).Remains es ↔ Course none (deeds program) es := Iff.rfl

/-- When a thread has ended, nothing remains. -/
theorem Thread.remains_nil (h : t.isDone = true) : t.Remains [] := by
  rw [Thread.isDone, Bool.and_eq_true, List.isEmpty_iff, List.isEmpty_iff] at h
  rw [Thread.Remains, h.1, h.2]
  exact .nil

theorem Thread.remains_opened (hcalls : t.calls = a :: outer) (hstage : a.stage = .opened)
    (es : List Notice) :
    t.Remains es ↔ ∃ es', es = a.frame.start :: es' ∧ Rest false (a :: outer) t.left es' := by
  rw [Thread.Remains, hcalls]
  simp only [hstage]

theorem Thread.remains_closed {record : Record} {unwound : Bool}
    (hcalls : t.calls = a :: outer) (hstage : a.stage = .closed record unwound)
    (es : List Notice) :
    t.Remains es ↔ ∃ es', es = .finished record :: es'
      ∧ Rest (unwound && !a.caught) outer t.left es' := by
  rw [Thread.Remains, hcalls]
  simp only [hstage]

/-- A thread whose calls are doing their bodies. -/
theorem Thread.remains_running (h : ∀ b ∈ t.calls.head?, b.stage = .running)
    (es : List Notice) : t.Remains es ↔ Rest false t.calls t.left es := by
  rw [Thread.Remains]
  cases hc : t.calls with
  | nil => exact Iff.rfl
  | cons a outer =>
      rw [hc] at h
      simp only [h a rfl]

/-- There is always a way on for a thread, whatever is left of its calls. -/
theorem exists_rest (calls : List Activation) :
    ∀ unwinding left, ∃ es, Rest unwinding calls left es := by
  induction calls with
  | nil => exact fun unwinding left => exists_course _ none
  | cons a outer ih =>
      intro unwinding left
      obtain ⟨inner, hinner⟩ := exists_course (onward unwinding a.body) (some a.frame.id)
      obtain ⟨es, hes⟩ := ih (unwinds (onward unwinding a.body) && !a.caught) left
      let f := a.frame
      let c := account f.descriptor f.context (onward unwinding a.body)
      let record : Record := ⟨f.id, f.parent, f.descriptor, 0, 0, c.status, c.result, c.failure⟩
      exact ⟨_, inner, record, es, rfl, ⟨rfl, rfl, rfl⟩, rfl, hinner, hes⟩

/-- A thread can always go on to its end. -/
theorem Thread.exists_remains (t : Thread) : ∃ es, t.Remains es := by
  cases hcalls : t.calls with
  | nil =>
      obtain ⟨es, h⟩ := exists_rest [] false t.left
      refine ⟨es, (t.remains_running ?_ es).2 (hcalls ▸ h)⟩
      rw [hcalls]
      rintro _ ⟨⟩
  | cons a outer =>
      cases hstage : a.stage with
      | opened =>
          obtain ⟨es, h⟩ := exists_rest (a :: outer) false t.left
          exact ⟨_, (t.remains_opened hcalls hstage _).2 ⟨es, rfl, h⟩⟩
      | running =>
          obtain ⟨es, h⟩ := exists_rest (a :: outer) false t.left
          refine ⟨es, (t.remains_running ?_ es).2 (hcalls ▸ h)⟩
          rw [hcalls]
          rintro _ ⟨⟩
          exact hstage
      | closed record unwound =>
          obtain ⟨es, h⟩ := exists_rest outer (unwound && !a.caught) t.left
          exact ⟨_, (t.remains_closed hcalls hstage _).2 ⟨es, rfl, h⟩⟩

/-- What a call that has ended leaves to those around it. -/
theorem Thread.rest_resume (unwinding : Bool) (es : List Notice) :
    Rest false (t.resume outer unwinding).calls (t.resume outer unwinding).left es
      ↔ Rest unwinding outer t.left es := by
  cases unwinding with
  | false => exact Iff.rfl
  | true =>
      cases outer with
      | nil => exact Iff.rfl
      | cons a rest => exact Iff.rfl

/-- A call leaves the deeds behind it to be done, or a panic. -/
theorem unwinds_call (c : Call) (rest : List Deed) :
    unwinds (c.deed :: rest) = unwinds (onward (unwinds c.body && !c.caught) rest) := by
  cases hu : unwinds c.body && !c.caught with
  | false =>
      have hends : c.deed.ends? = none := by
        rw [Call.deed, Deed.ends?, hu]
        rfl
      exact unwinds_cons_of_none hends rest
  | true =>
      have hends : c.deed.ends? = some true := by
        rw [Call.deed, Deed.ends?, hu]
        rfl
      exact (unwinds_cons_of_some hends rest).trans rfl

/-- A call says nothing of the operation around it, and ends its body if it
unwinds and is not caught. -/
theorem said_call (context : Context) (c : Call) (rest : List Deed) :
    said context (c.deed :: rest)
      = said context (onward (unwinds c.body && !c.caught) rest) := by
  rw [Call.deed, said, Deed.ends?]
  cases unwinds c.body && !c.caught with
  | false => rfl
  | true => rfl

/-- A deed that is no call is done without a word. -/
theorem Rest.of_quiet {d : Deed} {rest : List Deed} {es : List Notice} {f : Frame}
    (hd : d.isCall = false) (ha : a.body = d :: rest)
    (hf : f = { a.frame with context := d.said a.frame.context })
    (hu : unwinds (d.leaves rest) = unwinds (d :: rest))
    (h : Rest false ({ a with frame := f, body := d.leaves rest } :: outer) left es) :
    Rest false (a :: outer) left es := by
  subst hf
  obtain ⟨inner, record, es', rfl, hcloses, htold, hcourse, hrest⟩ := h
  refine ⟨inner, record, es', rfl, hcloses, ?_, ?_, ?_⟩
  · rw [htold]
    simp only [onward_false, ha, account, said_cons, hu]
  · rw [onward_false, ha]
    exact .quiet hd hcourse
  · rw [onward_false, ha, ← hu]
    exact hrest

/-- What comes of a call, and after it of the deeds behind it. -/
theorem Course.of_rest {parent : Option Id} {c : Call} {f : Frame} {rest : List Deed}
    {inner es : List Notice} {record : Record} (hf : f.parent = parent)
    (hd : f.descriptor = c.descriptor) (hcloses : record.Closes f.id f.parent f.descriptor)
    (htold : Account.ofRecord record = account f.descriptor .empty c.body)
    (hcourse : Course (some f.id) c.body inner)
    (h : Course parent (onward (unwinds c.body && !c.caught) rest) es) :
    Course parent (c.deed :: rest)
      (f.start :: (inner ++ .finished record :: es)) := by
  subst hf
  rw [hd] at hcloses htold
  have hleaves : Course f.parent (c.deed.leaves rest) es := by
    rw [Deed.leaves, Call.deed, Deed.ends?]
    cases hu : unwinds c.body && !c.caught with
    | false =>
        rw [hu] at h
        exact h
    | true =>
        rw [hu] at h
        rw [Course.of_panic h]
        exact .nil
  have := Course.call hcloses htold hcourse hleaves
  rw [bracket, List.cons_append, List.append_assoc] at this
  rw [Frame.start, hd]
  exact this

-- =============================================================== steps

/-- What a step of a thread does: which notices it tells, which number it
gets, and that this fits what the thread has told and has yet to tell. -/
structure Moved (s : Shared) (t : Thread) (s' : Shared) (t' : Thread)
    (heard : List Notice) (given : List Id) : Prop where
  /-- The thread has told them, -/
  told : t'.told = t.told ++ heard.map Notice.event
  /-- the recording has taken them in, -/
  recording : s'.recording = heard.foldl Recording.note s.recording
  /-- and a number was given or none. -/
  fresh : given = [] ∨ given = [s.nextId]
  /-- Numbers are given in order -/
  nextId : s'.nextId = s.nextId + given.length
  /-- and kept by the thread. -/
  numbers : t'.numbers.Perm (t.numbers ++ given)
  /-- It is in a state that it can get into, -/
  sound : t'.Sound
  /-- the notices open and close its calls, -/
  replay : Replay (heardOf t.calls) heard (heardOf t'.calls)
  /-- and all that it has to tell still, it had to tell behind them. -/
  remains : ∀ es, t'.Remains es → t.Remains (heard ++ es)

/-- A scope opens on top of calls that are doing their bodies. `t₀` is the
thread without the call in what it has yet to make. -/
theorem moved_enter {t₀ : Thread} {c : Call} (htold : t₀.told = t.told)
    (hheard : heardOf outer = heardOf t.calls)
    (hunheard : t.calls.filterMap Activation.unheard? = []) (hnested : Nested outer)
    (hrunning : ∀ b ∈ outer.head?, b.stage = .running)
    (hcurrent : t₀.current = topId outer)
    (hremains : ∀ es, (t₀.enter s outer c).2.Remains es → t.Remains es) :
    Moved s t (t₀.enter s outer c).1 (t₀.enter s outer c).2 [] [s.nextId] where
  told := htold.trans (List.append_nil _).symm
  recording := rfl
  fresh := .inr rfl
  nextId := rfl
  numbers := by
    have hrest := (hnested.heardOf hrunning).2
    show (startsOf t₀.told ++ s.nextId :: outer.filterMap Activation.unheard?).Perm _
    rw [hrest, htold, Thread.numbers, hunheard, List.append_nil]
  sound := by
    refine ⟨.cons hcurrent hrunning hnested, rfl, ?_⟩
    rintro _ ⟨⟩ r unwound ⟨⟩
  replay := hheard ▸ .nil
  remains := hremains

/-- A thread makes a call outside all others. -/
theorem moved_enter_outside {c : Call} (ht : t.Sound) (hcalls : t.calls = [])
    (hleft : t.left = c :: left) :
    Moved s t ({ t with left }.enter s [] c).1 ({ t with left }.enter s [] c).2 []
      [s.nextId] := by
  have hcurrent : t.current = none := by rw [ht.current, hcalls, currentOf]
  refine moved_enter rfl (by rw [hcalls]) (by rw [hcalls]; rfl) .nil (by simp) hcurrent ?_
  rintro es ⟨es', rfl, inner, record, es'', rfl, hcloses, hsays, hcourse, hrest⟩
  rw [Thread.Remains, hcalls]
  show Course none (deeds t.left) _
  rw [hleft]
  refine Course.of_rest hcurrent rfl hcloses hsays hcourse ?_
  -- Outside all calls a panic ends the thread, so it has nothing left to do.
  have hrest : Course none (if unwinds c.body && !c.caught then [] else deeds left) es'' := hrest
  rw [onward]
  split at hrest
  · next hu =>
      rw [if_pos hu, hrest.eq_nil]
      exact .quiet rfl .nil
  · next hu => rwa [if_neg hu]

/-- A body makes a call. -/
theorem moved_enter_inside {caught : Bool} {d : Descriptor} {body rest : List Deed}
    (ht : t.Sound) (hcalls : t.calls = a :: outer) (hstage : a.stage = .running)
    (hbody : a.body = .call caught d body :: rest) :
    Moved s t (t.enter s ({ a with body := rest } :: outer) ⟨caught, d, body⟩).1
      (t.enter s ({ a with body := rest } :: outer) ⟨caught, d, body⟩).2 [] [s.nextId] := by
  have hnested := ht.nested
  have hcurrent := ht.current
  rw [hcalls] at hnested hcurrent
  have hrunning : ∀ b ∈ (a :: outer).head?, b.stage = .running := by
    rintro _ ⟨⟩
    exact hstage
  rw [currentOf_running hrunning] at hcurrent
  refine moved_enter rfl ?_ ?_ (hnested.change rfl) ?_ hcurrent ?_
  · rw [hcalls]
    rfl
  · rw [hcalls]
    exact (hnested.heardOf hrunning).2
  · rintro _ ⟨⟩
    exact hstage
  · rintro es ⟨es', rfl, inner, record, es₁, rfl, hcloses, hsays, hcourse, hrest⟩
    -- What is left splits into what the call will tell and what the caller tells after it.
    obtain ⟨inner', record', es₂, rfl, hcloses', hsays', hcourse', hrest'⟩ := hrest
    rw [t.remains_running (by rwa [hcalls]), hcalls]
    let c : Call := ⟨caught, d, body⟩
    let f : Frame := ⟨s.nextId, t.current, d, 0, .empty⟩
    have hbody : a.body = c.deed :: rest := hbody
    have hsays' : Account.ofRecord record' = account a.frame.descriptor a.frame.context
        (onward (unwinds c.body && !c.caught) rest) := hsays'
    have hcourse' : Course (some a.frame.id) (onward (unwinds c.body && !c.caught) rest)
        inner' := hcourse'
    refine ⟨f.start :: (inner ++ .finished record :: inner'), record', es₂, ?_, hcloses',
      ?_, ?_, ?_⟩
    · rw [List.cons_append, List.append_assoc, List.cons_append]
    · rw [hsays', onward_false, hbody, account, account, said_call, unwinds_call]
    · rw [onward_false, hbody]
      exact Course.of_rest hcurrent rfl hcloses hsays hcourse hcourse'
    · rw [onward_false, hbody, unwinds_call]
      exact hrest'

/-- The listener hears of the innermost call. -/
theorem moved_tellStarted (ht : t.Sound) (hcalls : t.calls = a :: outer)
    (hstage : a.stage = .opened) :
    Moved s t (t.tellStarted s outer a).1 (t.tellStarted s outer a).2 [a.frame.start] [] := by
  have hnested := ht.nested
  rw [hcalls] at hnested
  obtain ⟨hout, hparent, hrunning⟩ := hnested.outside
  have hunheard : a.unheard? = some a.frame.id := by rw [Activation.unheard?, hstage]
  have hheard : a.heard? = none := by rw [Activation.heard?, hstage]
  constructor
  · rfl
  · rfl
  · exact .inl rfl
  · rfl
  · show (startsOf (t.told ++ [.started a.frame.id _ _])
      ++ outer.filterMap Activation.unheard?).Perm _
    rw [Thread.numbers, hcalls, List.filterMap_cons_some hunheard, startsOf,
      List.filterMap_append, List.append_assoc, List.append_nil]
    rfl
  · refine ⟨hnested.change rfl, ?_, ?_⟩
    · show t.current = some a.frame.id
      rw [ht.current, hcalls, currentOf, hstage]
    · rintro _ ⟨⟩ r unwound ⟨⟩
  · rw [hcalls, heardOf, List.filterMap_cons_none hheard]
    refine .started (o := ⟨a.frame.id, a.frame.parent, a.frame.descriptor⟩) ?_ .nil
    exact hparent.trans (hout.heardOf hrunning).1.symm
  · intro es h
    exact (t.remains_opened hcalls hstage _).2 ⟨es, rfl, h⟩

/-- A body says something, or returns a failure. -/
theorem moved_say {d : Deed} {rest left : List Deed} {f : Context → Context} (ht : t.Sound)
    (hcalls : t.calls = a :: outer) (hstage : a.stage = .running) (hbody : a.body = d :: rest)
    (hd : d.isCall = false) (hf : f a.frame.context = d.said a.frame.context)
    (hleft : left = d.leaves rest) (hu : unwinds left = unwinds (d :: rest)) :
    Moved s t s (t.say outer a left f) [] [] := by
  subst hleft
  have hnested := ht.nested
  have hcurrent := ht.current
  rw [hcalls] at hnested hcurrent
  constructor
  · exact (List.append_nil _).symm
  · rfl
  · exact .inl rfl
  · rfl
  · rw [List.append_nil, Thread.numbers, Thread.numbers, hcalls]
    exact .refl _
  · refine ⟨hnested.change rfl, hcurrent, ?_⟩
    rintro _ ⟨⟩ r unwound h
    exact Stage.noConfusion (hstage.symm.trans h)
  · rw [hcalls]
    exact .nil
  · intro es h
    rw [Thread.remains_running (by rintro _ ⟨⟩; exact hstage)] at h
    rw [Thread.remains_running (by rw [hcalls]; rintro _ ⟨⟩; exact hstage), hcalls]
    exact Rest.of_quiet hd hbody (congrArg (Frame.mk _ _ _ _) hf) hu h

/-- A scope closes when its body has ended. -/
theorem moved_close {unwound : Bool} (ht : t.Sound) (hcalls : t.calls = a :: outer)
    (hstage : a.stage = .running) (hcourse : Course (some a.frame.id) a.body [])
    (hsaid : said a.frame.context a.body = a.frame.context) (hu : unwinds a.body = unwound) :
    Moved s t s (t.close outer a unwound) [] [] := by
  have hnested := ht.nested
  rw [hcalls] at hnested
  constructor
  · exact (List.append_nil _).symm
  · rfl
  · exact .inl rfl
  · rfl
  · have hunheard : a.unheard? = none := by rw [Activation.unheard?, hstage]
    rw [List.append_nil, Thread.numbers, Thread.numbers, hcalls,
      List.filterMap_cons_none hunheard]
    exact .refl _
  · refine ⟨hnested.change rfl, rfl, ?_⟩
    rintro _ ⟨⟩ r unwound ⟨⟩
    exact ⟨rfl, rfl, rfl⟩
  · have hheard : a.heard? = some ⟨a.frame.id, a.frame.parent, a.frame.descriptor⟩ := by
      rw [Activation.heard?, hstage]
    rw [hcalls, heardOf, List.filterMap_cons_some hheard]
    exact .nil
  -- What is left to tell begins with the record of this call, and the body that is over adds
  -- nothing to it.
  · rintro es ⟨es', rfl, hrest⟩
    rw [Thread.remains_running (by rw [hcalls]; rintro _ ⟨⟩; exact hstage), hcalls]
    refine ⟨[], _, es', rfl, ⟨rfl, rfl, rfl⟩, ?_, hcourse, ?_⟩
    · rw [onward_false, account, hsaid, hu]
      rfl
    · rw [onward_false, hu]
      exact hrest

/-- What does not depend on bodies is the same for the calls around one
that has ended. -/
theorem filterMap_resume {β : Type} {g : Activation → Option β}
    (hg : ∀ a body, g { a with body } = g a) (t : Thread) (outer : List Activation)
    (unwinding : Bool) : (t.resume outer unwinding).calls.filterMap g = outer.filterMap g := by
  cases unwinding with
  | false => rfl
  | true =>
      cases outer with
      | nil => rfl
      | cons b rest =>
          show ({ b with body := [.panic] } :: rest).filterMap g = _
          rw [List.filterMap_cons, List.filterMap_cons, hg]

/-- The calls around one that has ended are doing their bodies. -/
theorem Thread.resume_sound (t : Thread) (hnested : Nested outer)
    (hrunning : ∀ b ∈ outer.head?, b.stage = .running) (hcurrent : t.current = topId outer)
    (unwinding : Bool) :
    (t.resume outer unwinding).Sound
      ∧ ∀ b ∈ (t.resume outer unwinding).calls.head?, b.stage = .running := by
  have hsound : ∀ {u : Thread}, Nested u.calls → u.current = topId u.calls →
      (∀ b ∈ u.calls.head?, b.stage = .running) → u.Sound := by
    intro u hn hc hr
    refine ⟨hn, hc.trans (currentOf_running hr).symm, ?_⟩
    intro b hb r unwound h
    exact Stage.noConfusion ((hr b hb).symm.trans h)
  cases unwinding with
  | false => exact ⟨hsound hnested hcurrent hrunning, hrunning⟩
  | true =>
      cases outer with
      | nil => exact ⟨hsound .nil hcurrent (by rintro _ ⟨⟩), by rintro _ ⟨⟩⟩
      | cons b rest =>
          have hr : ∀ c ∈ (t.resume (b :: rest) true).calls.head?, c.stage = .running := by
            rintro _ ⟨⟩
            exact hrunning b rfl
          exact ⟨hsound (hnested.change rfl) hcurrent hr, hr⟩

/-- The listener hears of the record of the innermost call, and the call
has ended. -/
theorem moved_tellFinished {r : Record} {unwound : Bool} (ht : t.Sound)
    (hcalls : t.calls = a :: outer) (hstage : a.stage = .closed r unwound) :
    Moved s t (t.tellFinished s outer a r unwound).1 (t.tellFinished s outer a r unwound).2
      [.finished r] [] := by
  have hnested := ht.nested
  have hcurrent := ht.current
  have hcloses := ht.closed
  rw [hcalls] at hnested hcurrent hcloses
  obtain ⟨hout, hparent, hrunning⟩ := hnested.outside
  have htop : t.current = topId outer := by
    rw [hcurrent, ← hparent, currentOf, hstage]
  have hunheard : a.unheard? = none := by rw [Activation.unheard?, hstage]
  have hheard : a.heard? = some ⟨a.frame.id, a.frame.parent, a.frame.descriptor⟩ := by
    rw [Activation.heard?, hstage]
  -- The record is told first, and the caller goes on in the thread that has heard it.
  let u : Thread := { t with told := t.told ++ [Event.finished r] }
  obtain ⟨hsound, hrunning'⟩ := u.resume_sound hout hrunning htop (unwound && !a.caught)
  have htold : (u.resume outer (unwound && !a.caught)).told = t.told ++ [Event.finished r] := by
    cases unwound && !a.caught with
    | false => rfl
    | true => cases outer <;> rfl
  constructor
  · exact htold
  · rfl
  · exact .inl rfl
  · rfl
  · show (startsOf (u.resume outer (unwound && !a.caught)).told
      ++ (u.resume outer (unwound && !a.caught)).calls.filterMap Activation.unheard?).Perm _
    rw [htold, filterMap_resume (fun _ _ => rfl), List.append_nil, Thread.numbers, hcalls,
      List.filterMap_cons_none hunheard, startsOf, List.filterMap_append]
    exact .of_eq (congrArg (· ++ _) (List.append_nil _))
  · exact hsound
  · show Replay _ _ ((u.resume outer (unwound && !a.caught)).calls.filterMap Activation.heard?)
    rw [filterMap_resume (fun _ _ => rfl), hcalls, heardOf, List.filterMap_cons_some hheard]
    exact .finished (o := ⟨a.frame.id, a.frame.parent, a.frame.descriptor⟩)
      (hcloses a rfl r unwound hstage) .nil
  · intro es h
    refine (t.remains_closed hcalls hstage _).2 ⟨es, rfl, ?_⟩
    exact (u.rest_resume _ es).1 ((Thread.remains_running hrunning' es).1 h)

/-- A thread does the next deed of its innermost call. -/
theorem moved_act (ht : t.Sound) (hcalls : t.calls = a :: outer) (hstage : a.stage = .running) :
    ∃ given, Moved s t (t.act s outer a).1 (t.act s outer a).2 [] given := by
  rw [Thread.act]
  cases hbody : a.body with
  | nil =>
      refine ⟨[], moved_close ht hcalls hstage ?_ ?_ ?_⟩
      · rw [hbody]
        exact .nil
      · rw [hbody]
        rfl
      · rw [hbody]
        rfl
  | cons d rest =>
      -- What is said changes a context and tells nobody; a call opens a scope, whose start is
      -- told in the next step; and a panic closes the scope that is running, as the end of a
      -- body does.
      cases d with
      | setResult v =>
          refine ⟨[], moved_say (f := fun c => { c with result := some v }) ht hcalls hstage hbody
            rfl rfl rfl rfl⟩
      | setStatus v =>
          refine ⟨[], moved_say (f := fun c => { c with status := some v }) ht hcalls hstage hbody
            rfl rfl rfl rfl⟩
      | setFailure v =>
          refine ⟨[], moved_say (f := fun c => { c with failure := some v }) ht hcalls hstage hbody
            rfl rfl rfl rfl⟩
      | call caught d body => exact ⟨_, moved_enter_inside ht hcalls hstage hbody⟩
      | fail e =>
          refine ⟨[], moved_say (f := fun c => { c with failure := some e }) ht hcalls hstage hbody
            rfl rfl rfl rfl⟩
      | panic =>
          refine ⟨[], moved_close ht hcalls hstage ?_ ?_ ?_⟩
          · rw [hbody]
            exact .quiet rfl .nil
          · rw [hbody]
            rfl
          · rw [hbody]
            rfl

/-- What a step of a thread does. -/
theorem step?_moved (ht : t.Sound) (h : t.step? s = some (s', t')) :
    ∃ heard given, Moved s t s' t' heard given := by
  rw [Thread.step?] at h
  -- A thread without open calls begins the next one. With one, the stage of
  -- the innermost decides.
  cases hcalls : t.calls with
  | nil =>
      rw [hcalls] at h
      cases hleft : t.left with
      | nil =>
          rw [hleft] at h
          cases h
      | cons c left =>
          rw [hleft] at h
          cases h
          exact ⟨_, _, moved_enter_outside ht hcalls hleft⟩
  | cons a outer =>
      rw [hcalls] at h
      cases hstage : a.stage with
      | opened =>
          simp only [hstage] at h
          cases h
          exact ⟨_, _, moved_tellStarted ht hcalls hstage⟩
      | running =>
          simp only [hstage, Option.some.injEq] at h
          have hact := moved_act (s := s) ht hcalls hstage
          rw [h] at hact
          exact ⟨[], hact⟩
      | closed r unwound =>
          simp only [hstage] at h
          cases h
          exact ⟨_, _, moved_tellFinished ht hcalls hstage⟩

end Threads

end TracedTransfer.Operation
