/-
Calls nest: the listeners of a program hear its story, and at every point
of a run the open operations are the calls around that point.

# The run

`runSteps_tale` ties the run of steps to their story. The induction is on
the steps; a call needs it for its body and for the steps behind it. What
it carries beside the story is that steps leave the current operation as
they found it, which holds because leaving a scope makes the parent
current that entering has saved, whatever the body did in between.

# The points

`Visits` gives the machines that a run comes through between its steps,
in bodies at any depth, each with the chain of calls around it. At all of
them the notices told so far can be read from the empty stack to the
stack of that chain (`Visits.heard`), so that what a recording shows as
open, and what is current, are the chain and its end.
-/
import TracedTransfer.Proofs.Operation.Story

namespace TracedTransfer.Operation

variable {r : Runner}

-- ============================================================ the run

/-- The run of steps from a machine has told a story, and has left the
current operation as it was. -/
structure Tale (r : Runner) (m : Machine) (steps : List Step) (value : Json)
    (run : Exit (Except String Json) × Machine) (es : List Notice)
    (ending : Ending) : Prop where
  /-- The steps end as the story does, -/
  exit : run.1 = ending.exit value
  /-- which is one that such steps can have. -/
  story : Story m.scopes.current steps es ending
  /-- Listeners hear it, -/
  heard : Heard r m es run.2
  /-- and the current operation is what it was. -/
  current : run.2.scopes.current = m.scopes.current

/-- How a call of a program goes on with the steps behind it. -/
def Ending.after (caught : Bool) : Ending → Exit (Option String)
  | .panics => if caught then .value none else .unwind
  | _ => .value none

/-- What is left of a call of a program when it has come to an end: its
answer, and the panic if it is not caught. -/
theorem callAndAnswer_of_answering {caught : Bool} {o : Outline}
    {body : Id → Run (Except String Json)} {m m₁ : Machine}
    (outcome : Option (Except String Json)) {how : Returned}
    (hhow : how = match outcome with
      | some (.ok v) => .ok v
      | some (.error e) => .failed e
      | none => .panicked)
    (h : answering (do
        let d ← o.descriptor
        call r d (fun e => e) body : Run (Except String Json)) m
      = (.value (outcome, m₁.answers.headD []),
          { m₁ with answers := m₁.answers.tail })) :
    callAndAnswer caught o r body m =
      (if outcome.isNone && !caught then .unwind else .value (), answered how m₁) := by
  have hcur : Run.currentOperation { m₁ with answers := m₁.answers.tail }
      = (.value m₁.scopes.current, { m₁ with answers := m₁.answers.tail }) := rfl
  unfold callAndAnswer
  rw [Action.bind_of_value h]
  refine (Action.bind_of_value hcur).trans ?_
  subst hhow
  refine (Action.bind_of_value (answer_answered _ m₁)).trans ?_
  split
  · rfl
  · rfl

/-- A call of a program is the call, with its answer. -/
theorem callAndAnswer_eq (caught : Bool) {o : Outline}
    {body : Id → Run (Except String Json)} {m m₁ : Machine}
    {exit : Exit (Except String Json)}
    (hcall : call r o.described (fun e => e) body (summoned o m) = (exit, m₁)) :
    callAndAnswer caught o r body m =
      match exit with
      | .value (.ok v) => (.value (), answered (.ok v) m₁)
      | .value (.error e) => (.value (), answered (.failed e) m₁)
      | .unwind => (if caught then .value () else .unwind, answered .panicked m₁)
      | .abort => (.abort, m₁) := by
  -- The outline is made into a descriptor first, which may leave a line in
  -- the log.
  have hmade : (do
      let d ← o.descriptor
      call r d (fun e => e) body : Run (Except String Json))
        { m with answers := [] :: m.answers } = (exit, m₁) := by
    rw [Action.bind_of_value (descriptor_eq o _).1]
    exact hcall
  cases exit with
  | value outcome =>
      rw [callAndAnswer_of_answering (some outcome) rfl
        (by unfold answering Action.catching; rw [hmade])]
      cases outcome with
      | ok v => rfl
      | error e => rfl
  | unwind =>
      rw [callAndAnswer_of_answering none rfl
        (by unfold answering Action.catching; rw [hmade])]
      cases caught with
      | false => rfl
      | true => rfl
  | abort =>
      have h : answering (do
          let d ← o.descriptor
          call r d (fun e => e) body : Run (Except String Json)) m
            = (.abort, m₁) := by
        unfold answering Action.catching
        rw [hmade]
      exact Action.bind_of_abort h

/-- A call of a program, from what its body does to how it goes on. -/
theorem runStep_call (hr : r.Calm) (caught : Bool) (id : Id) {o : Outline}
    {value : Json} {body : List Step} {m m₁ : Machine} {ended : Ending}
    (hbody : runSteps r (frameOf o.described (summoned o m)).id value body
      (entered r o.described (summoned o m)) = (ended.exit value, m₁)) :
    ∃ record m₂, record.Closes m.scopes.nextId m.scopes.current o.described
      ∧ Heard r m₁ [.finished record] m₂
      ∧ m₂.scopes.current = m.scopes.current
      ∧ runStep r id (.call caught o value body) m = (ended.after caught, m₂) := by
  have hcall := call_eq hr o.described (fun e => e)
    (fun inner => runSteps r inner value body) (summoned o m)
  simp only [hbody] at hcall
  have hs := summoned_scopes o m
  have hid : (frameOf o.described (summoned o m)).id = m.scopes.nextId :=
    congrArg Scopes.nextId hs
  have hparent : (frameOf o.described (summoned o m)).parent = m.scopes.current :=
    congrArg Scopes.current hs
  unfold runStep
  -- The three endings differ in what is noted before the scope is closed.
  cases ended with
  | returns =>
      refine ⟨_, _, ⟨hid, hparent, rfl⟩,
        (heard_left hr _ false m₁).trans (heard_answered (.ok value) _), ?_,
        Action.bind_of_value (callAndAnswer_eq caught hcall)⟩
      rw [answered_scopes, left_current hr, hparent]
  | fails e =>
      refine ⟨_, _, ⟨hid, hparent, rfl⟩,
        (heard_returned _ _ (.error e) m₁).trans
          ((heard_left hr _ false _).trans (heard_answered (.failed e) _)), ?_,
        Action.bind_of_value (callAndAnswer_eq caught hcall)⟩
      rw [answered_scopes, left_current hr, hparent]
  | panics =>
      refine ⟨recordOf (frameOf o.described (summoned o m)) true m₁, _,
        ⟨hid, hparent, rfl⟩,
        (heard_left hr _ true m₁).trans (heard_answered .panicked _), ?_, ?_⟩
      · rw [answered_scopes, left_current hr, hparent]
      · have hca := callAndAnswer_eq caught hcall
        cases caught with
        | false => exact Action.bind_of_unwind hca
        | true => exact Action.bind_of_value hca

/-- The machines agree on everything but contexts, answers and the log. -/
structure Quietly (m m' : Machine) : Prop where
  /-- The current operation -/
  current : m'.scopes.current = m.scopes.current
  /-- and the next number stay, -/
  nextId : m'.scopes.nextId = m.scopes.nextId
  /-- and so does all that scopes, answers and the log are no part of. -/
  view : ∀ {β : Type} (view : Machine → β), Private view → view m' = view m

theorem Quietly.heard {m m' : Machine} (h : Quietly m m') : Heard r m [] m' :=
  .silent h.nextId h.view

theorem Quietly.trans {m m₁ m₂ : Machine} (h : Quietly m m₁)
    (h' : Quietly m₁ m₂) : Quietly m m₂ :=
  ⟨h'.current.trans h.current, h'.nextId.trans h.nextId,
    fun v hv => (h'.view v hv).trans (h.view v hv)⟩

theorem quietly_updateContext (id : Id) (f : Context → Context) (m : Machine) :
    Quietly m (updateContext id f m).2 :=
  ⟨rfl, rfl, fun _ hv => hv.scopes m _⟩

/-- A body ends quietly: it is the call around it that tells. -/
theorem quietly_answer (a : Answer) (m : Machine) : Quietly m (answer a m).2 := by
  obtain ⟨as, h⟩ := answer_eq a m
  rw [h]
  exact ⟨rfl, rfl, fun _ hv => hv.answers m as⟩

/-- A value that is made of JSON is made quietly. -/
theorem quietly_structured (what : String) (v : Except String Json) (m : Machine) :
    ∃ j m', structured what v m = (.value j, m') ∧ Quietly m m' := by
  cases v with
  | ok j => exact ⟨_, _, rfl, rfl, rfl, fun _ _ => rfl⟩
  | error e =>
      exact ⟨.null, _, rfl, congrArg Scopes.current (logged_scopes m _ _ _ _),
        congrArg Scopes.nextId (logged_scopes m _ _ _ _),
        fun _ hv => hv.logged m _ _ _ _⟩

/-- A quiet step goes on, and nothing is heard of it. -/
theorem runStep_quiet {s : Step} (hq : s.isQuiet = true) (id : Id) (m : Machine) :
    ∃ m', runStep r id s m = (.value none, m') ∧ Quietly m m' := by
  -- Only steps that call, clear, fail or panic are not quiet.
  cases s with
  | setResult v =>
      obtain ⟨j, m₁, hs, hquiet⟩ := quietly_structured "result" v m
      unfold runStep
      rw [Action.bind_of_value hs]
      exact ⟨_, rfl, hquiet.trans (quietly_updateContext id _ m₁)⟩
  | setStatus text =>
      unfold runStep
      exact ⟨_, rfl, quietly_updateContext id _ m⟩
  | setFailure text =>
      unfold runStep
      exact ⟨_, rfl, quietly_updateContext id _ m⟩
  | current =>
      obtain ⟨as, ha⟩ := answer_eq (.current m.scopes.current) m
      have hquiet := quietly_answer (.current m.scopes.current) m
      rw [ha] at hquiet
      unfold runStep
      refine ⟨_, ?_, hquiet⟩
      exact (Action.bind_of_value (show Run.currentOperation m
        = (.value m.scopes.current, m) from rfl)).trans (Action.bind_of_value ha)
  | summary =>
      obtain ⟨as, ha⟩ := answer_eq
        (.summary (m.recording.summary m.scopes.current)) m
      have hquiet := quietly_answer
        (.summary (m.recording.summary m.scopes.current)) m
      rw [ha] at hquiet
      unfold runStep
      refine ⟨_, ?_, hquiet⟩
      exact (Action.bind_of_value (show summary m
        = (.value (m.recording.summary m.scopes.current), m) from rfl)).trans
          (Action.bind_of_value ha)
  | call caught o value body => exact absurd hq Bool.false_ne_true
  | thread o value body => exact absurd hq Bool.false_ne_true
  | clear => exact absurd hq Bool.false_ne_true
  | fail text => exact absurd hq Bool.false_ne_true
  | panic => exact absurd hq Bool.false_ne_true

/-- A step that goes on leaves it to the steps behind it. -/
theorem Tale.cons {s : Step} {rest : List Step} {id : Id} {value : Json}
    {m m₁ : Machine} {es es' : List Notice} {ending : Ending}
    (ht : Tale r m₁ rest value (runSteps r id value rest m₁) es' ending)
    (hstep : runStep r id s m = (.value none, m₁)) (hheard : Heard r m es m₁)
    (hcur : m₁.scopes.current = m.scopes.current)
    (hstory : Story m.scopes.current rest es' ending →
      Story m.scopes.current (s :: rest) (es ++ es') ending) :
    Tale r m (s :: rest) value (runSteps r id value (s :: rest) m) (es ++ es') ending := by
  have hs := ht.story
  rw [hcur] at hs
  unfold runSteps
  rw [Action.bind_of_value hstep]
  exact ⟨ht.exit, hstory hs, hheard.trans ht.heard, ht.current.trans hcur⟩

/-- A call brackets what its body tells, and goes on or unwinds. -/
theorem tale_call (hr : r.Calm) {caught : Bool} {o : Outline} {v value : Json}
    {body rest : List Step} {id : Id} {m : Machine}
    (hbody : ∃ inner ended, Tale r (entered r o.described (summoned o m)) body v
      (runSteps r (frameOf o.described (summoned o m)).id v body
        (entered r o.described (summoned o m))) inner ended)
    (hrest : ∀ m₁, ∃ es ending, Tale r m₁ rest value (runSteps r id value rest m₁) es ending) :
    ∃ es ending, Tale r m (.call caught o v body :: rest) value
      (runSteps r id value (.call caught o v body :: rest) m) es ending := by
  obtain ⟨inner, ended, ht⟩ := hbody
  obtain ⟨record, m₂, hcloses, hfinish, hcur, hstep⟩ :=
    runStep_call hr caught id (Prod.ext ht.exit rfl)
  have hheard := (heard_summoned (r := r) o m).trans
    ((heard_entered hr o.described _).trans (ht.heard.trans hfinish))
  rw [start_summoned] at hheard
  have hstory := ht.story
  rw [entered_current hr, summoned_scopes] at hstory
  -- Only a panic that is not caught takes the steps behind the call along.
  by_cases hout : ended = .panics ∧ caught = false
  · obtain ⟨rfl, rfl⟩ := hout
    refine ⟨bracket m.scopes.nextId m.scopes.current o.described inner record,
      .panics, ?_⟩
    unfold runSteps
    rw [Action.bind_of_unwind hstep]
    exact ⟨rfl, .unwound hcloses hstory, hheard, hcur⟩
  · have hends : ended = .panics → caught = true := by
      intro he
      cases caught with
      | false => exact absurd ⟨he, rfl⟩ hout
      | true => rfl
    have hafter : ended.after caught = .value none := by
      cases ended with
      | returns => rfl
      | fails e => rfl
      | panics => rw [hends rfl]; rfl
    rw [hafter] at hstep
    obtain ⟨es, ending, hmore⟩ := hrest m₂
    exact ⟨_, ending, hmore.cons hstep hheard hcur fun h =>
      .call hcloses hends hstory h⟩

/-- Steps tell their story. -/
theorem runSteps_tale (hr : r.Calm) (steps : List Step)
    (hp : arePlain steps = true) (id : Id) (value : Json) (m : Machine) :
    ∃ es ending, Tale r m steps value (runSteps r id value steps m) es ending := by
  match steps with
  | [] =>
      exact ⟨[], .returns, by unfold runSteps; exact ⟨rfl, .nil, .refl m, rfl⟩⟩
  | s :: rest =>
      rw [arePlain, Bool.and_eq_true] at hp
      have hrest := fun m₁ => runSteps_tale hr rest hp.2 id value m₁
      cases hq : s.isQuiet with
      | true =>
          obtain ⟨m₁, hstep, hquiet⟩ := runStep_quiet (r := r) hq id m
          obtain ⟨es, ending, ht⟩ := hrest m₁
          exact ⟨[] ++ es, ending, ht.cons hstep hquiet.heard hquiet.current (.quiet hq)⟩
      | false =>
          -- A plain step that is heard is a call, or ends the list it stands in.
          cases s with
          | call caught o v body =>
              exact tale_call hr (runSteps_tale hr body hp.1 _ v _) hrest
          | fail text =>
              refine ⟨[], .fails text, ?_⟩
              unfold runSteps
              exact ⟨rfl, .fail, .refl m, rfl⟩
          | panic =>
              refine ⟨[], .panics, ?_⟩
              unfold runSteps
              exact ⟨rfl, .panic, .refl m, rfl⟩
          | thread o v body => exact absurd hp.1 Bool.false_ne_true
          | clear => exact absurd hp.1 Bool.false_ne_true
          | setResult v => cases hq
          | setStatus text => cases hq
          | setFailure text => cases hq
          | current => cases hq
          | summary => cases hq
termination_by sizeOf steps

/-- Running one step is running the list of it, as far as the machine
goes. -/
theorem runSteps_singleton (id : Id) (value : Json) (s : Step) (m : Machine) :
    (runSteps r id value [s] m).2 = (runStep r id s m).2 := by
  unfold runSteps
  rcases hs : runStep r id s m with ⟨exit, m₁⟩
  cases exit with
  | value a =>
      rw [Action.bind_of_value hs]
      cases a with
      | none => unfold runSteps; rfl
      | some e => rfl
  | unwind => rw [Action.bind_of_unwind hs]
  | abort => rw [Action.bind_of_abort hs]

/-- What one step told, and that it leaves the current operation as it
was, whether it goes on or unwinds. -/
theorem runStep_heard (hr : r.Calm) {s : Step} (hp : s.isPlain = true) (id : Id)
    (m : Machine) :
    (∃ es, Heard r m es (runStep r id s m).2
      ∧ ∀ {stack : List Opened}, m.scopes.current = innermost stack →
        Replay stack es stack)
    ∧ (runStep r id s m).2.scopes.current = m.scopes.current := by
  obtain ⟨es, ending, ht⟩ := runSteps_tale hr [s]
    (by rw [arePlain, hp]; rfl) id .null m
  have hh := ht.heard
  have hc := ht.current
  rw [runSteps_singleton] at hh hc
  exact ⟨⟨es, hh, fun h => ht.story.replay h⟩, hc⟩

-- ========================================================= the points

/-- The machines that steps come through: before the first of them, after
each that goes on, and inside the calls among them. `chain` holds the
calls around the point, the outermost first. -/
inductive Visits (r : Runner) :
    Id → List Step → Machine → List Id → Machine → Prop where
  /-- The point in front of the steps, -/
  | here {id : Id} {steps : List Step} {m : Machine} : Visits r id steps m [] m
  /-- one behind a step, -/
  | later {id : Id} {s : Step} {rest : List Step} {m m₁ m' : Machine}
      {chain : List Id} (goesOn : runStep r id s m = (.value none, m₁)) :
      Visits r id rest m₁ chain m' → Visits r id (s :: rest) m chain m'
  /-- or one inside a call, which is then the innermost of the chain. -/
  | inside {id : Id} {caught : Bool} {o : Outline} {value : Json}
      {body rest : List Step} {m m' : Machine} {chain : List Id} :
      Visits r (frameOf o.described (summoned o m)).id body
        (entered r o.described (summoned o m)) chain m' →
      Visits r id (.call caught o value body :: rest) m
        ((frameOf o.described (summoned o m)).id :: chain) m'

/-- At every point, the notices told on the way can be read to a stack
that the chain of calls has been put on. -/
theorem Visits.heard (hr : r.Calm) {id : Id} {steps : List Step}
    {m m' : Machine} {chain : List Id} (h : Visits r id steps m chain m') :
    arePlain steps = true → ∀ (stack : List Opened),
      m.scopes.current = innermost stack →
      ∃ es stack', Replay stack es stack'
        ∧ stack'.map Opened.id = chain.reverse ++ stack.map Opened.id
        ∧ Heard r m es m' ∧ m'.scopes.current = innermost stack' := by
  induction h with
  | here =>
      intro _ stack hs
      exact ⟨[], stack, .nil, rfl, .refl _, hs⟩
  | @later id s rest m m₁ m' chain hstep _ ih =>
      intro hp stack hs
      rw [arePlain, Bool.and_eq_true] at hp
      obtain ⟨⟨es₀, hheard, hreplay⟩, hcur⟩ := runStep_heard hr hp.1 id m
      rw [hstep] at hheard hcur
      obtain ⟨es, stack', hr', hst, hh, hc⟩ := ih hp.2 stack (hcur.trans hs)
      exact ⟨es₀ ++ es, stack', (hreplay hs).append hr', hst, hheard.trans hh, hc⟩
  | @inside id caught o value body rest m m' chain _ ih =>
      intro hp stack hs
      rw [arePlain, Bool.and_eq_true] at hp
      have hcur : (entered r o.described (summoned o m)).scopes.current
          = innermost (⟨m.scopes.nextId, m.scopes.current, o.described⟩ :: stack) := by
        rw [entered_current hr, summoned_scopes]
        rfl
      obtain ⟨es, stack', hr', hst, hh, hc⟩ := ih hp.1 _ hcur
      have hheard := (heard_summoned (r := r) o m).trans
        ((heard_entered hr o.described _).trans hh)
      rw [start_summoned] at hheard
      -- The call in which the point lies is still open there: its start is read and stays on
      -- the stack.
      refine ⟨_, stack', .started
        (o := ⟨m.scopes.nextId, m.scopes.current, o.described⟩) hs hr', ?_, hheard, hc⟩
      have hid : (frameOf o.described (summoned o m)).id = m.scopes.nextId :=
        congrArg Scopes.nextId (summoned_scopes o m)
      rw [hst, hid, List.reverse_cons, List.append_assoc]
      rfl

/-- At every point of a program that begins outside all calls, a
recording shows the chain of calls around the point as open, the
outermost first, and the last of them is current. -/
theorem Visits.open_eq (hr : r.Calm) (hk : r.Serves Recording.memory) {id : Id}
    {steps : List Step} {m m' : Machine} {chain : List Id}
    (h : Visits r id steps m chain m') (hp : arePlain steps = true)
    (hm : m.scopes.current = none) (hopen : m.recording.open_ = [])
    (hsound : m.recording.Sound m.scopes.nextId) :
    m'.recording.open_ = chain ∧ m'.scopes.current = chain.getLast? := by
  obtain ⟨es, stack, hreplay, hst, hheard, hcur⟩ :=
    h.heard hr hp [] (hm.trans rfl)
  rw [List.map_nil, List.append_nil] at hst
  constructor
  · have hrec : m'.recording = es.foldl Recording.note m.recording :=
      hheard.recalled Recording.memory hk
    rw [hrec, hreplay.recording hsound (hopen.trans rfl)
      (fun i hi => (hheard.ids i hi).1) hheard.increasing, hst,
      List.reverse_reverse]
  · rw [hcur, List.getLast?_eq_head?_reverse, ← hst]
    exact (List.head?_map ..).symm

-- ================================================== the main statement

/-- What listeners make of a program that begins outside all calls. -/
structure Brackets (r : Runner) (id : Id) (value : Json) (steps : List Step)
    (m : Machine) (es : List Notice) (ending : Ending) : Prop where
  /-- The program ends as its story does, and `es` are the notices of that
  story: every call that is made has its start and its finish there. -/
  exit : (runSteps r id value steps m).1 = ending.exit value
  /-- The story is one that such a program can have. -/
  story : Story none steps es ending
  /-- Every finish closes the operation that started last of those that
  are open, every parent is the innermost open operation, and numbers
  increase from start to start. -/
  wellBracketed : WellBracketed es
  /-- Of each operation there are one start and one finish, with the same
  number, parent and descriptor. -/
  pair : ∀ i ∈ startedIds es, ∃ p d record,
    noticesOf i es = [.started i p d, .finished record] ∧ record.Closes i p d
  /-- Every listener hears the same notices, whatever it makes of them. -/
  recalled : ∀ {β : Type} (k : Memory β), r.Serves k →
    k.kept (runSteps r id value steps m).2 = es.foldl k.note (k.kept m)
  /-- At every point, what a recording shows as open is the chain of the
  calls around, and what is current is its end. -/
  open_ : r.Serves Recording.memory → m.recording.open_ = [] →
    m.recording.Sound m.scopes.nextId → ∀ {chain : List Id} {m' : Machine},
    Visits r id steps m chain m' →
      m'.recording.open_ = chain ∧ m'.scopes.current = chain.getLast?
  /-- After each step, a call that returns or unwinds included, the
  operation is current that was current before it. -/
  restored : ∀ {s : Step}, s.isPlain = true → ∀ (id : Id) (m : Machine),
    (runStep r id s m).2.scopes.current = m.scopes.current

/-- A program of nested calls on one thread, under calm listeners, is
heard as a well-bracketed sequence of starts and finishes. A runner that
is shared passes its calls on, so it is the same runner. -/
theorem brackets_of_plain (hr : r.Calm) {steps : List Step}
    (hp : arePlain steps = true) (id : Id) (value : Json) {m : Machine}
    (hm : m.scopes.current = none) :
    ∃ es ending, Brackets r id value steps m es ending := by
  obtain ⟨es, ending, ht⟩ := runSteps_tale hr steps hp id value m
  have hstory := ht.story
  rw [hm] at hstory
  have hbr : WellBracketed es := ⟨hstory.replay rfl, ht.heard.increasing⟩
  exact ⟨es, ending, {
    exit := ht.exit
    story := hstory
    wellBracketed := hbr
    pair := fun _ hi => hbr.pair hi
    recalled := ht.heard.recalled
    open_ := fun hk hopen hsound _ _ hv =>
      hv.open_eq hr hk hp hm hopen hsound
    restored := fun hs id m => (runStep_heard hr hs id m).2 }⟩

/-- A recording beside a journal has its memory to itself. -/
theorem serves_recording : Runner.Serves [.journal, .recording] Recording.memory where
  apart := private_recording
  place := by
    refine ⟨[.journal], .recording, [], rfl, Listener.recording_keeps, ?_, ?_⟩
    · intro l hl
      rw [List.mem_singleton.1 hl]
      exact Listener.journal_leaves fun _ _ => rfl
    · intro l hl
      exact absurd hl List.not_mem_nil

/-- A call that catches the panic of a call inside it and then looks
around, heard by a journal and a recording. -/
theorem brackets_of_caught_panic :
    let steps : List Step := [.call false ⟨"outer", none, none, none⟩ .null
      [.call true ⟨"inner", none, none, none⟩ .null [.setStatus "on", .panic],
        .summary]]
    let m := Machine.initial .empty .default
    Runner.Calm [.journal, .recording] ∧ arePlain steps = true
      ∧ m.scopes.current = none
      ∧ Runner.Serves [.journal, .recording] Recording.memory
      ∧ m.recording.Sound m.scopes.nextId
      ∧ ∃ es ending, Brackets [.journal, .recording] 0 .null steps m es ending := by
  intro steps m
  have hcalm : Runner.Calm [.journal, .recording] := by
    intro l hl
    rcases List.mem_cons.1 hl with rfl | hl
    · exact Listener.journal_calm
    · rw [List.mem_singleton.1 hl]
      exact Listener.recording_calm
  have hplain : arePlain steps = true := by decide
  have hnone : m.scopes.current = none := rfl
  exact ⟨hcalm, hplain, hnone, serves_recording, Recording.empty_sound _,
    brackets_of_plain hcalm hplain 0 .null hnone⟩

end TracedTransfer.Operation
