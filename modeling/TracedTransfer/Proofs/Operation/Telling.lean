/-
The run of a program whose listeners may panic tells a chronicle.

`runSteps_ran` ties the run of steps to their chronicle. The induction is
on the steps, as for calm listeners, but a step now leaves more to be
known: that the frame of the operation around it is still the innermost
one, since a call reads from its frame what its body has said when the
record is made. So it carries what steps do to all open frames, which is
that they say things of their own operation and nothing else. It is the
numbers that keep frames apart, so open frames have to be numbered below
the next one.

What a call does is told for its body as it is done (`Summons.done`): that
a call was refused is then no case of its own.
-/
import TracedTransfer.Proofs.Operation.Chronicle
import TracedTransfer.Proofs.Operation.Nesting
import TracedTransfer.Proofs.Operation.Refusal
import TracedTransfer.Proofs.Resource.Transparency

namespace TracedTransfer.Operation

variable {r : Runner}

-- ============================================================= telling

/-- Between two machines a runner has told `ts` and nothing else: each
notice was passed to the listeners until one panicked, memories have taken
in what got to them, and the operations that started took their numbers in
order. -/
structure Told (r : Runner) (m : Machine) (ts : List Tiding) (m' : Machine) : Prop where
  /-- Numbers are given in order, -/
  nextId : m.scopes.nextId ≤ m'.scopes.nextId
  /-- those that were told of are among the ones given meanwhile, -/
  ids : ∀ i ∈ startedIds (notices ts), m.scopes.nextId ≤ i ∧ i < m'.scopes.nextId
  /-- and each is later than the one before. -/
  increasing : (startedIds (notices ts)).Pairwise (· < ·)
  /-- Each notice went through the listeners as the runner tells it, -/
  passed : ∀ t ∈ ts, ∃ m₁, t = r.tiding t.notice m₁
  /-- and each of them has taken in what got to its place. -/
  recalled : ∀ {β : Type} (k : Memory β) (j : Nat), r.ServesAt j k →
    k.kept m' = (heardAt j ts).foldl k.note (k.kept m)

/-- What is told in two runs, one behind the other, is told in that
order. -/
theorem Told.trans {m m₁ m₂ : Machine} {ts us : List Tiding} (h : Told r m ts m₁)
    (h' : Told r m₁ us m₂) : Told r m (ts ++ us) m₂ := by
  constructor
  · exact Nat.le_trans h.nextId h'.nextId
  · intro i hi
    rw [notices_append, startedIds_append] at hi
    rcases List.mem_append.1 hi with hi | hi
    · obtain ⟨hlo, hhi⟩ := h.ids i hi
      exact ⟨hlo, Nat.lt_of_lt_of_le hhi h'.nextId⟩
    · obtain ⟨hlo, hhi⟩ := h'.ids i hi
      exact ⟨Nat.le_trans h.nextId hlo, hhi⟩
  · rw [notices_append, startedIds_append, List.pairwise_append]
    refine ⟨h.increasing, h'.increasing, fun i hi j hj => ?_⟩
    exact Nat.lt_of_lt_of_le (h.ids i hi).2 (h'.ids j hj).1
  · intro t ht
    rcases List.mem_append.1 ht with ht | ht
    · exact h.passed t ht
    · exact h'.passed t ht
  · intro β k j hk
    rw [h'.recalled k j hk, h.recalled k j hk, heardAt_append, List.foldl_append]

/-- Nothing is told while only the contexts of scopes, the answers and the
log change. -/
theorem Told.silent {m m' : Machine} (hn : m'.scopes.nextId = m.scopes.nextId)
    (hv : ∀ {β : Type} (view : Machine → β), Private view → view m' = view m) :
    Told r m [] m' :=
  ⟨Nat.le_of_eq hn.symm, fun _ hi => (List.not_mem_nil hi).elim, List.Pairwise.nil,
    fun _ ht => (List.not_mem_nil ht).elim, fun k _ hk => hv k.kept hk.apart⟩

theorem Told.refl (m : Machine) : Told r m [] m := .silent rfl fun _ _ => rfl

theorem Quietly.told {m m' : Machine} (h : Quietly m m') : Told r m [] m' :=
  .silent h.nextId h.view

/-- On a thread of its own, the same is told. -/
theorem Told.onThread {m m' : Machine} {s : Scopes} {ts : List Tiding}
    (h : Told r { m with scopes := s } ts m') (hs : s.nextId = m.scopes.nextId)
    {t : Scopes} (ht : t.nextId = m'.scopes.nextId) :
    Told r m ts { m' with scopes := t } := by
  have hnext : s.nextId ≤ m'.scopes.nextId := h.nextId
  have hids : ∀ i ∈ startedIds (notices ts), s.nextId ≤ i ∧ i < m'.scopes.nextId := h.ids
  constructor
  · exact hs ▸ ht ▸ hnext
  · exact hs ▸ ht ▸ hids
  · exact h.increasing
  · exact h.passed
  · intro β k j hk
    rw [hk.apart.scopes, h.recalled k j hk, hk.apart.scopes]

/-- To enter a call tells its start, to those that it reaches, -/
theorem told_opening (hr : r.Contained) (d : Descriptor) (m : Machine) :
    Told r m [opening r d m] (entered r d m) := by
  have hnext : m.scopes.nextId + 1 ≤ (entered r d m).scopes.nextId :=
    (enteredContained_keeps hr d m).nextId
  constructor
  · exact Nat.le_of_lt hnext
  · intro i hi
    rw [List.mem_singleton.1 hi]
    exact ⟨Nat.le_refl _, hnext⟩
  · exact List.pairwise_singleton _ _
  · intro t ht
    rw [List.mem_singleton.1 ht]
    exact ⟨_, rfl⟩
  · intro β k j hk
    exact recall_opening hr hk d m

/-- and to leave it its record. -/
theorem told_settled {α : Type} (hr : r.Contained) (f : Frame) (unwound : Bool)
    (exit : Exit α) (m : Machine) :
    Told r m [closing r f unwound m] (settled r f unwound exit m).2 := by
  constructor
  · exact (settled_scopes hr f unwound exit m).2
  · intro i hi
    exact (List.not_mem_nil hi).elim
  · exact List.Pairwise.nil
  · intro t ht
    rw [List.mem_singleton.1 ht]
    exact ⟨_, rfl⟩
  · intro β k j hk
    exact recall_settled hr hk f unwound exit m

/-- The descriptor of a call is made without telling anything, -/
theorem told_summoned (o : Outline) (m : Machine) : Told r m [] (summoned o m) := by
  refine .silent (congrArg Scopes.nextId (summoned_scopes o m)) fun view hv => ?_
  unfold summoned
  rw [(descriptor_eq o _).2.2 view hv, hv.answers]

/-- and what it returns is kept so too. -/
theorem told_answered (how : Returned) (m : Machine) : Told r m [] (answered how m) := by
  refine .silent (congrArg Scopes.nextId (answered_scopes how m)) fun view hv => ?_
  obtain ⟨as, h⟩ := answered_eq how m
  rw [h]
  exact hv.answers m as

-- ============================================================== frames

/-- To leave a context as it is changes nothing. -/
theorem updateContext_same (s : Scopes) (i : Id) : s.updateContext i (fun c => c) = s := by
  have hframes : (s.frames.map fun fr =>
      if fr.id = i then { fr with context := fr.context } else fr) = s.frames := by
    refine (List.map_congr_left fun fr _ => ?_).trans (List.map_id' _)
    split
    · rfl
    · rfl
  unfold Scopes.updateContext
  rw [hframes]

/-- Two changes of one context are one. -/
theorem updateContext_updateContext (s : Scopes) (i : Id) (f g : Context → Context) :
    (s.updateContext i f).updateContext i g = s.updateContext i (g ∘ f) := by
  unfold Scopes.updateContext
  rw [List.map_map]
  refine congrArg _ (List.map_congr_left fun fr _ => ?_)
  by_cases h : fr.id = i
  · simp [h]
  · simp [h]

/-- What is said of an operation does not touch the numbers of frames. -/
theorem Scopes.Numbered.updateContext {s : Scopes} (h : s.Numbered) (i : Id)
    (g : Context → Context) : (s.updateContext i g).Numbered := by
  intro fr hfr
  obtain ⟨fr', hfr', rfl⟩ := List.mem_map.1 hfr
  have hid : (if fr'.id = i then { fr' with context := g fr'.context } else fr').id
      = fr'.id := by
    split
    · rfl
    · rfl
  rw [hid]
  exact h fr' hfr'

/-- What is said of the innermost operation stays in its frame. -/
theorem updateContext_innermost {s : Scopes} {f : Frame} {rest : List Frame}
    (h : s.frames = f :: rest) (hrest : ∀ x ∈ rest, x.id < f.id) (g : Context → Context) :
    (s.updateContext f.id g).frames = { f with context := g f.context } :: rest := by
  unfold Scopes.updateContext
  rw [h, List.map_cons, if_pos rfl]
  exact congrArg _ (Resource.updateContext_other (fun x hx => Nat.ne_of_lt (hrest x hx)) g)

/-- A frame with the next number goes on top of earlier ones. -/
theorem Scopes.Numbered.enter {s : Scopes} (h : s.Numbered) {f : Frame}
    (hf : f.id = s.nextId) : (s.enter f).Numbered := by
  intro x hx
  rcases List.mem_cons.1 hx with rfl | hx
  · exact Nat.lt_succ_of_le (Nat.le_of_eq hf)
  · exact Nat.lt_succ_of_lt (h x hx)

-- ========================================================= quiet steps

/-- A quiet step says something of the operation around it, or nothing. -/
theorem runStep_quiet_scopes {s : Step} (hq : s.isQuiet = true) (id : Id) (m : Machine) :
    (runStep r id s m).2.scopes = m.scopes.updateContext id s.adds := by
  -- A step that adds nothing to the context leaves the frames as they are.
  have hstill : m.scopes = m.scopes.updateContext id (fun c => c) :=
    (updateContext_same m.scopes id).symm
  cases s with
  | setResult v =>
      unfold runStep
      cases v with
      | ok j => rfl
      | error e =>
          rw [show m.scopes = (m.logged .warn "resfetch_core::operation::descriptor"
            ("could not serialize operation " ++ "result" ++ ": " ++ e) []).scopes from
              (logged_scopes m _ _ _ _).symm]
          rfl
  | setStatus text => unfold runStep; rfl
  | setFailure text => unfold runStep; rfl
  | current =>
      obtain ⟨as, ha⟩ := answer_eq (.current m.scopes.current) m
      unfold runStep
      rw [Action.bind_of_value (show Run.currentOperation m
        = (.value m.scopes.current, m) from rfl), Action.bind_of_value ha]
      exact hstill
  | summary =>
      obtain ⟨as, ha⟩ := answer_eq (.summary (m.recording.summary m.scopes.current)) m
      unfold runStep
      rw [Action.bind_of_value (show summary m
        = (.value (m.recording.summary m.scopes.current), m) from rfl), Action.bind_of_value ha]
      exact hstill
  | call caught o value body => cases hq
  | thread o value body => cases hq
  | clear => cases hq
  | fail text => cases hq
  | panic => cases hq

-- ================================================================ runs

/-- The run of steps inside an operation has told a chronicle. What the
steps say of that operation, `g`, is all that they do to the open frames. -/
structure Ran (r : Runner) (id : Id) (value : Json) (steps : List Step) (m : Machine)
    (g : Context → Context) (ts : List Tiding) (out : Outcome) : Prop where
  /-- They end as the outcome says, -/
  exit : (runSteps r id value steps m).1 = out.exit value
  /-- with a chronicle that fits any context that they are run in, -/
  chronicle : ∀ c, Chronicle m.scopes.current (.steps steps) c ts (g c) out
  /-- having told just this; -/
  told : Told r m ts (runSteps r id value steps m).2
  /-- unless the program ends, the current operation is what it was -/
  current : out ≠ .aborts → (runSteps r id value steps m).2.scopes.current = m.scopes.current
  /-- and the frames are too, but for what was said of the operation
  itself. -/
  frames : out ≠ .aborts →
    (runSteps r id value steps m).2.scopes.frames = (m.scopes.updateContext id g).frames

/-- Steps that end at once leave everything as it is. -/
theorem ran_still {id : Id} {value : Json} {steps : List Step} {m : Machine} {out : Outcome}
    (hrun : runSteps r id value steps m = (out.exit value, m))
    (h : ∀ c, Chronicle m.scopes.current (.steps steps) c [] c out) :
    Ran r id value steps m (fun c => c) [] out := by
  constructor
  · rw [hrun]
  · exact h
  · rw [hrun]
    exact .refl m
  · rw [hrun]
    exact fun _ => rfl
  · rw [hrun, updateContext_same]
    exact fun _ => rfl

theorem ran_nil (id : Id) (value : Json) (m : Machine) :
    Ran r id value [] m (fun c => c) [] (.ends .returns) :=
  ran_still (by unfold runSteps; rfl) fun _ => .nil

theorem ran_fail (id : Id) (value : Json) (text : String) (rest : List Step) (m : Machine) :
    Ran r id value (.fail text :: rest) m (fun c => c) [] (.ends (.fails text)) :=
  ran_still (by unfold runSteps; rfl) fun _ => .fail

theorem ran_panic (id : Id) (value : Json) (rest : List Step) (m : Machine) :
    Ran r id value (.panic :: rest) m (fun c => c) [] (.ends .panics) :=
  ran_still (by unfold runSteps; rfl) fun _ => .panic

/-- A quiet step goes before the rest. -/
theorem Ran.quiet {s : Step} {rest : List Step} {id : Id} {value : Json} {m m₁ : Machine}
    {g : Context → Context} {ts : List Tiding} {out : Outcome} (hq : s.isQuiet = true)
    (hstep : runStep r id s m = (.value none, m₁)) (hquiet : Quietly m m₁)
    (h : Ran r id value rest m₁ g ts out) :
    Ran r id value (s :: rest) m (g ∘ s.adds) ts out := by
  have hscopes := runStep_quiet_scopes (r := r) hq id m
  rw [hstep] at hscopes
  have hrun : runSteps r id value (s :: rest) m = runSteps r id value rest m₁ := by
    rw [runSteps]
    exact Action.bind_of_value hstep
  constructor
  · rw [hrun]
    exact h.exit
  · intro c
    exact .quiet hq (hquiet.current ▸ h.chronicle (s.adds c))
  · rw [hrun]
    exact hquiet.told.trans h.told
  · rw [hrun]
    exact fun hout => (h.current hout).trans hquiet.current
  · rw [hrun, ← updateContext_updateContext, ← hscopes]
    exact h.frames

-- =============================================================== calls

/-- The machine when what a body ended with has been written down. -/
def Ending.noted (f : Frame) (m : Machine) : Ending → Machine
  | .fails e => (setFailure f.id e m).2
  | _ => m

/-- How a call ends whose body has come to an outcome. -/
def concluded (r : Runner) (f : Frame) (value : Json) (m : Machine) :
    Outcome → Exit (Except String Json) × Machine
  | .ends e => settled r f e.unwinds (e.exit value) (e.noted f m)
  | .aborts => (.abort, m)

/-- What a call does is told for its body as it is done. -/
theorem call_of_ran (hr : r.Contained) {k : Summons} {d : Descriptor} {m m₁ : Machine}
    {out : Outcome}
    (h : runSteps r (frameOf d m).id k.value (k.done (opening r d m).cut) (entered r d m)
      = (out.exit k.value, m₁)) :
    call r d (fun e => e) (fun i => runSteps r i k.value k.body) m
      = concluded r (frameOf d m) k.value m₁ out := by
  rw [call_contained hr]
  cases hcut : (opening r d m).cut with
  | true =>
      have hpanic : runSteps r (frameOf d m).id k.value [.panic] (entered r d m)
          = (.unwind, entered r d m) := by
        unfold runSteps
        rfl
      rw [hcut, Summons.done, if_pos rfl, hpanic] at h
      obtain ⟨hexit, rfl⟩ := Prod.mk.inj h
      match out, hexit with
      | .ends .panics, _ => rfl
  | false =>
      rw [hcut, Summons.done, if_neg Bool.false_ne_true] at h
      simp only [Bool.false_eq_true, if_false, h]
      match out with
      | .ends .returns => rfl
      | .ends (.fails e) => rfl
      | .ends .panics => rfl
      | .aborts => rfl

theorem Outcome.aborts_of_exit {out : Outcome} {value : Json}
    (h : out.exit value = .abort) : out = .aborts := by
  match out, h with
  | .aborts, _ => rfl

/-- A call ends as its body does, unless a listener refuses the record. -/
theorem settled_exit (f : Frame) (e : Ending) (value : Json) (m : Machine) :
    (settled r f e.unwinds (e.exit value) m).1
      = (e.left (closing r f e.unwinds m).cut).exit value := by
  unfold settled Ending.left
  cases (closing r f e.unwinds m).cut with
  | true =>
      cases e with
      | returns => rfl
      | fails text => rfl
      | panics => rfl
  | false => rfl

/-- A record has what was said, and that the body unwound if nothing else
failed. -/
theorem recordOf_context (f : Frame) (unwound : Bool) (m : Machine) :
    (recordOf f unwound m).context = { m.scopes.context f.id with
      failure := if (m.scopes.context f.id).failure.isNone && unwound then
        some Record.panicFailure else (m.scopes.context f.id).failure } := rfl

/-- The record of a call has what its body said, and how it ended. -/
theorem recordOf_noted {f : Frame} {said : Context} {rest : List Frame} {m : Machine}
    (hm : m.scopes.frames = { f with context := said } :: rest) (e : Ending) :
    (recordOf f e.unwinds (e.noted f m)).context = e.context said := by
  have hsaid : m.scopes.context f.id = said :=
    Resource.context_of_innermost (f := { f with context := said }) hm
  cases e with
  | returns =>
      rw [recordOf_context, show (Ending.returns.noted f m) = m from rfl, hsaid,
        show Ending.returns.unwinds = false from rfl, Bool.and_false]
      rfl
  | fails text =>
      have hnoted : ((Ending.fails text).noted f m).scopes.context f.id
          = { said with failure := some text } :=
        Resource.context_updateContext (f := { f with context := said }) hm _
      rw [recordOf_context, hnoted]
      rfl
  | panics =>
      rw [recordOf_context, show (Ending.panics.noted f m) = m from rfl, hsaid]
      cases hf : said.failure with
      | none => simp [Ending.context, Ending.unwinds, hf]
      | some text => simp [Ending.context, hf]

/-- What becomes known of the innermost operation is not seen in the frames
below. -/
theorem noted_frames_tail {f : Frame} {said : Context} {rest : List Frame} {m : Machine}
    (hm : m.scopes.frames = { f with context := said } :: rest)
    (hrest : ∀ x ∈ rest, x.id < f.id) (e : Ending) :
    (e.noted f m).scopes.frames.tail = rest := by
  cases e with
  | returns => exact congrArg List.tail hm
  | fails text =>
      have h := updateContext_innermost (f := { f with context := said }) hm hrest
        fun c => { c with failure := some text }
      exact congrArg List.tail h
  | panics => exact congrArg List.tail hm

/-- It is not told by itself either. -/
theorem told_noted (f : Frame) (e : Ending) (m : Machine) : Told r m [] (e.noted f m) := by
  cases e with
  | returns => exact .refl m
  | fails text => exact .silent rfl fun view hv => hv.scopes m _
  | panics => exact .refl m

/-- What is left of a call whose body has said `said` and come to an end:
its finish has been told with what was said, and the frames below its own,
`rest`, are open, unless the program has ended. -/
theorem concluded_ends (hr : r.Contained) {f : Frame} {said : Context} {rest : List Frame}
    {m : Machine} (hm : m.scopes.frames = { f with context := said } :: rest)
    (hrest : ∀ x ∈ rest, x.id < f.id) (value : Json) (e : Ending) :
    ∃ finish m', concluded r f value m (.ends e) = ((e.left finish.cut).exit value, m')
      ∧ finish.notice = .finished (recordOf f e.unwinds (e.noted f m))
      ∧ (recordOf f e.unwinds (e.noted f m)).context = e.context said
      ∧ Told r m [finish] m' ∧ m'.scopes.current = f.parent
      ∧ (e.left finish.cut ≠ .aborts → m'.scopes.frames = rest) := by
  have hexit := settled_exit (r := r) f e value (e.noted f m)
  refine ⟨closing r f e.unwinds (e.noted f m), _, Prod.ext hexit rfl, rfl,
    recordOf_noted hm e, ?_, ?_, ?_⟩
  · exact (told_noted f e m).trans (told_settled hr f e.unwinds (e.exit value) (e.noted f m))
  · exact (settled_scopes hr f e.unwinds (e.exit value) (e.noted f m)).1
  · intro hne
    exact (settled_frames hr f e.unwinds fun habort =>
      hne (Outcome.aborts_of_exit (hexit.symm.trans habort))).trans
        (noted_frames_tail hm hrest e)

-- ================================================= calls of a program

/-- How the steps behind a call go on. -/
def Outcome.after (caught : Bool) : Outcome → Exit Unit
  | .ends .panics => if caught then .value () else .unwind
  | .ends _ => .value ()
  | .aborts => .abort

/-- A panic that is caught lets the steps behind the call run. -/
theorem Outcome.after_caught {caught : Bool} {e : Ending} (h : e = .panics → caught = true) :
    (Outcome.ends e).after caught = .value () := by
  cases e with
  | returns => rfl
  | fails text => rfl
  | panics => exact if_pos (h rfl)

/-- A call of a program has been made, and has told its chronicle. Open
frames are what they were. -/
structure Crossed (r : Runner) (p : Option Id) (k : Summons) (m : Machine)
    (run : Exit Unit × Machine) (ts : List Tiding) (out : Outcome) : Prop where
  /-- It ends as the outcome says, -/
  exit : run.1 = out.after k.caught
  /-- with a chronicle of one call, -/
  chronicle : ∀ c, Chronicle p (.call k) c ts c out
  /-- having told just this; -/
  told : Told r m ts run.2
  /-- unless the program ends, the current operation is what it was -/
  current : out ≠ .aborts → run.2.scopes.current = m.scopes.current
  /-- and the frames are too. -/
  frames : out ≠ .aborts → run.2.scopes.frames = m.scopes.frames

/-- A call is answered, unless the program has ended. -/
theorem callAndAnswer_of_call (caught : Bool) {o : Outline} {value : Json}
    {body : Id → Run (Except String Json)} {m m₁ : Machine} {out : Outcome}
    (h : call r o.described (fun e => e) body (summoned o m) = (out.exit value, m₁)) :
    ∃ m₂, callAndAnswer caught o r body m = (out.after caught, m₂)
      ∧ Told r m₁ [] m₂ ∧ m₂.scopes = m₁.scopes := by
  have hca := callAndAnswer_eq caught h
  match out with
  | .ends .returns => exact ⟨_, hca, told_answered _ m₁, answered_scopes _ m₁⟩
  | .ends (.fails e) => exact ⟨_, hca, told_answered _ m₁, answered_scopes _ m₁⟩
  | .ends .panics => exact ⟨_, hca, told_answered _ m₁, answered_scopes _ m₁⟩
  | .aborts => exact ⟨m₁, hca, .refl m₁, rfl⟩

/-- The scopes inside a call, and those of the body when it has ended. -/
theorem entered_innermost (hr : r.Contained) {m : Machine} (hm : m.scopes.Numbered)
    (d : Descriptor) (g : Context → Context) :
    ((entered r d m).scopes.updateContext (frameOf d m).id g).frames
      = { frameOf d m with context := g .empty } :: m.scopes.frames := by
  have hframes := (enteredContained_keeps hr d m).frames
  exact updateContext_innermost (f := frameOf d m) hframes hm g

/-- A call crosses from its start to its finish, if its body runs as it is
told to. -/
theorem crossed_of_ran (hr : r.Contained) {p : Option Id} {k : Summons} {m : Machine}
    (hm : m.scopes.Numbered) (hp : k.parent p = m.scopes.current)
    {g : Context → Context} {us : List Tiding} {out : Outcome}
    (h : Ran r (frameOf k.outline.described (summoned k.outline m)).id k.value
      (k.done (opening r k.outline.described (summoned k.outline m)).cut)
      (entered r k.outline.described (summoned k.outline m)) g us out) :
    ∃ ts out', Crossed r p k m
      (callAndAnswer k.caught k.outline r (fun i => runSteps r i k.value k.body) m) ts out' := by
  let m₀ := summoned k.outline m
  let d := k.outline.described
  -- Making the descriptor moves no scope, so numbers and parents may be taken from the machine
  -- in front of it.
  have hscopes : m₀.scopes = m.scopes := summoned_scopes k.outline m
  have hm₀ : m₀.scopes.Numbered := hscopes ▸ hm
  have hstart : (opening r d m₀).notice = .started m.scopes.nextId (k.parent p) d := by
    rw [hp]
    exact start_summoned k.outline m
  have hid : (frameOf d m₀).id = m.scopes.nextId := congrArg Scopes.nextId hscopes
  have hbody := h.chronicle .empty
  rw [(enteredContained_keeps hr d m₀).current] at hbody
  have hinside : (m₀.scopes.enter (frameOf d m₀)).current = some m.scopes.nextId :=
    congrArg some hid
  rw [hinside] at hbody
  have hcall := call_of_ran hr (Prod.ext h.exit rfl)
  have htold := (told_summoned k.outline m).trans ((told_opening hr d m₀).trans h.told)
  -- If the body ends the program there is no record. Otherwise the scope closes, and what the
  -- listeners make of the record decides how the call ends.
  cases out with
  | aborts =>
      have haborts : call r d (fun e => e) (fun i => runSteps r i k.value k.body) m₀
          = (Outcome.aborts.exit k.value, _) := hcall
      obtain ⟨m₂, hca, hanswered, -⟩ := callAndAnswer_of_call k.caught haborts
      refine ⟨opening r d m₀ :: us, .aborts, ?_, fun c => .lost hstart hbody, ?_,
        fun hne => absurd rfl hne, fun hne => absurd rfl hne⟩
      · rw [hca]
      · rw [hca]
        have hall := htold.trans hanswered
        rw [List.append_nil] at hall
        exact hall
  | ends e =>
      have hframes := h.frames nofun
      rw [entered_innermost hr hm₀, hscopes] at hframes
      obtain ⟨finish, m₁, hconcluded, hfinish, hcontext, htold', hcurrent, hrest⟩ :=
        concluded_ends hr hframes (hid ▸ hm) k.value e
      obtain ⟨m₂, hca, hanswered, hsame⟩ :=
        callAndAnswer_of_call k.caught (hcall.trans hconcluded)
      have hparent : (frameOf d m₀).parent = m.scopes.current :=
        congrArg Scopes.current hscopes
      refine ⟨opening r d m₀ :: (us ++ [finish]), e.left finish.cut, ?_,
        fun c => .closed hstart hfinish ⟨hid, hparent.trans hp.symm, rfl⟩ hcontext hbody,
        ?_, ?_, ?_⟩
      · rw [hca]
      · rw [hca]
        exact htold.trans (htold'.trans hanswered)
      · intro _
        rw [hca, hsame, hcurrent, hparent]
      · intro hne
        rw [hca, hsame, hrest hne]

-- ============================================================ the run

/-- What a step does that makes a call. -/
def Summons.made (r : Runner) (k : Summons) : Run Unit :=
  let x := callAndAnswer k.caught k.outline r fun i => runSteps r i k.value k.body
  if k.apart then onNewThread x else x

/-- A step that makes a call is that call, and its body goes on behind
it. -/
theorem runStep_summons {s : Step} {k : Summons} (hs : s.summons? = some k) (id : Id)
    (m : Machine) : runStep r id s m = (k.made r >>= fun _ => pure none) m := by
  cases s with
  | call caught o value body =>
      cases hs
      unfold runStep
      rfl
  | thread o value body =>
      cases hs
      unfold runStep
      rfl
  | _ => cases hs

/-- The body of such a step is smaller than the step, so an induction over
steps covers it. -/
theorem Step.summons_body {s : Step} {k : Summons} (hs : s.summons? = some k) :
    sizeOf k.body < sizeOf s ∧ s.leavesRecording = leaveRecording k.body := by
  cases s with
  | call caught o value body =>
      cases hs
      exact ⟨by simp only [Step.call.sizeOf_spec]; omega, rfl⟩
  | thread o value body =>
      cases hs
      exact ⟨by simp only [Step.thread.sizeOf_spec]; omega, rfl⟩
  | _ => cases hs

/-- A call crosses, on the thread that is running or on a new one. -/
theorem crossed_made (hr : r.Contained) {k : Summons} {m : Machine}
    (hm : m.scopes.Numbered)
    (hbody : ∀ (id : Id) (m₁ : Machine), m₁.scopes.Numbered →
      ∃ g us out, Ran r id k.value k.body m₁ g us out) :
    ∃ ts out, Crossed r m.scopes.current k m (k.made r m) ts out := by
  have hdone : ∀ (d : Descriptor) (m₀ : Machine), m₀.scopes.Numbered → ∃ g us out,
      Ran r (frameOf d m₀).id k.value (k.done (opening r d m₀).cut) (entered r d m₀) g us out := by
    intro d m₀ hm₀
    cases (opening r d m₀).cut with
    | true => exact ⟨_, _, _, ran_panic _ _ [] _⟩
    | false =>
        refine hbody _ _ ((enteredContained_keeps hr d m₀).numbered ?_)
        exact Scopes.Numbered.enter hm₀ rfl
  unfold Summons.made
  -- On a thread of its own the body finds no scope open.
  cases hapart : k.apart with
  | false =>
      obtain ⟨g, us, out, h⟩ := hdone k.outline.described (summoned k.outline m)
        (summoned_scopes k.outline m ▸ hm)
      refine crossed_of_ran hr hm ?_ h
      rw [Summons.parent, hapart]
      rfl
  | true =>
      let m' : Machine := { m with scopes := m.scopes.onNewThread }
      have hm' : m'.scopes.Numbered := fun _ hf => (List.not_mem_nil hf).elim
      obtain ⟨g, us, out, h⟩ := hdone k.outline.described (summoned k.outline m')
        (summoned_scopes k.outline m' ▸ hm')
      have hparent : k.parent m.scopes.current = m'.scopes.current := by
        rw [Summons.parent, hapart]
        rfl
      obtain ⟨ts, out', hc⟩ := crossed_of_ran hr hm' hparent h
      exact ⟨ts, out', hc.exit, hc.chronicle, hc.told.onThread rfl rfl, fun _ => rfl, fun _ => rfl⟩

/-- A call that ends, or whose panic is caught, leaves it to the steps
behind it. -/
theorem Ran.on {s : Step} {k : Summons} {rest : List Step} {id : Id} {value : Json}
    {m m₁ : Machine} {g : Context → Context} {us ts : List Tiding} {e : Ending}
    {out : Outcome} (hs : s.summons? = some k) (hcaught : e = .panics → k.caught = true)
    (hc : Crossed r m.scopes.current k m (.value (), m₁) us (.ends e))
    (hmade : k.made r m = (.value (), m₁)) (h : Ran r id value rest m₁ g ts out) :
    Ran r id value (s :: rest) m g (us ++ ts) out := by
  have hcur : m₁.scopes.current = m.scopes.current := hc.current nofun
  have hrun : runSteps r id value (s :: rest) m = runSteps r id value rest m₁ := by
    have hstep : runStep r id s m = (.value none, m₁) := by
      rw [runStep_summons hs]
      exact Action.bind_of_value hmade
    rw [runSteps]
    exact Action.bind_of_value hstep
  constructor
  · rw [hrun]
    exact h.exit
  · intro c
    exact .on hs hcaught (hc.chronicle c) (hcur ▸ h.chronicle c)
  · rw [hrun]
    exact hc.told.trans h.told
  · rw [hrun]
    exact fun hout => (h.current hout).trans hcur
  · rw [hrun]
    intro hout
    rw [h.frames hout, Scopes.updateContext, Scopes.updateContext,
      show m₁.scopes.frames = m.scopes.frames from hc.frames nofun]

/-- A call whose panic is not caught takes the steps along, and so does one
that ends the program. -/
theorem Ran.off {s : Step} {k : Summons} {rest : List Step} {id : Id} {value : Json}
    {m : Machine} {us : List Tiding} {out : Outcome} (hs : s.summons? = some k)
    (hout : out = .aborts ∨ out = .ends .panics ∧ k.caught = false)
    (hc : Crossed r m.scopes.current k m (k.made r m) us out) :
    Ran r id value (s :: rest) m (fun c => c) us out := by
  rcases hmade : k.made r m with ⟨exit, m₁⟩
  rw [hmade] at hc
  have hexit : exit = out.after k.caught := hc.exit
  -- The steps behind are not run: the step either ends the program or
  -- unwinds.
  have hrun : runSteps r id value (s :: rest) m = (out.exit value, m₁) := by
    rw [hexit] at hmade
    rw [runSteps]
    rcases hout with rfl | ⟨rfl, hcaught⟩
    · have hstep : runStep r id s m = (.abort, m₁) := by
        rw [runStep_summons hs]
        exact Action.bind_of_abort hmade
      exact Action.bind_of_abort hstep
    · rw [hcaught] at hmade
      have hstep : runStep r id s m = (.unwind, m₁) := by
        rw [runStep_summons hs]
        exact Action.bind_of_unwind hmade
      exact Action.bind_of_unwind hstep
  constructor
  · rw [hrun]
  · intro c
    exact .off hs hout (hc.chronicle c)
  · rw [hrun]
    exact hc.told
  · rw [hrun]
    exact hc.current
  · rw [hrun, updateContext_same]
    exact hc.frames

/-- What a step that makes no call and is not quiet does to the rest. -/
theorem Step.cases_of_noisy {s : Step} (hq : s.isQuiet = false) (hk : s.summons? = none)
    (hs : s.leavesRecording = true) : (∃ text, s = .fail text) ∨ s = .panic := by
  cases s with
  | fail text => exact .inl ⟨text, rfl⟩
  | panic => exact .inr rfl
  | clear => cases hs
  | call caught o value body => cases hk
  | thread o value body => cases hk
  | _ => cases hq

/-- Steps tell their chronicle. -/
theorem runSteps_ran (hr : r.Contained) (steps : List Step)
    (hs : leaveRecording steps = true) (id : Id) (value : Json) {m : Machine}
    (hm : m.scopes.Numbered) : ∃ g ts out, Ran r id value steps m g ts out := by
  -- The recursion goes into the body of a call and into the steps behind
  -- it; both are smaller than the list.
  match steps with
  | [] => exact ⟨_, _, _, ran_nil id value m⟩
  | s :: rest =>
      rw [leaveRecording, Bool.and_eq_true] at hs
      cases hq : s.isQuiet with
      | true =>
          obtain ⟨m₁, hstep, hquiet⟩ := runStep_quiet (r := r) hq id m
          have hscopes := runStep_quiet_scopes (r := r) hq id m
          rw [hstep] at hscopes
          have hm₁ : m₁.scopes.Numbered := hscopes ▸ hm.updateContext id s.adds
          obtain ⟨g, ts, out, h⟩ := runSteps_ran hr rest hs.2 id value hm₁
          exact ⟨_, ts, out, h.quiet hq hstep hquiet⟩
      | false =>
          cases hk : s.summons? with
          | none =>
              rcases Step.cases_of_noisy hq hk hs.1 with ⟨text, rfl⟩ | rfl
              · exact ⟨_, _, _, ran_fail id value text rest m⟩
              · exact ⟨_, _, _, ran_panic id value rest m⟩
          | some k =>
              have hbody := Step.summons_body hk
              obtain ⟨us, out, hc⟩ := crossed_made hr hm fun i m₁ hm₁ =>
                runSteps_ran hr k.body (hbody.2 ▸ hs.1) i k.value hm₁
              -- Whether the steps behind run depends on how the call has
              -- ended.
              by_cases hout : out = .aborts ∨ out = .ends .panics ∧ k.caught = false
              · exact ⟨_, us, out, .off hk hout hc⟩
              · rw [not_or] at hout
                match out, hout, hc with
                | .aborts, hout, _ => exact absurd rfl hout.1
                | .ends e, hout, hc =>
                  have hcaught : e = .panics → k.caught = true := by
                    rintro rfl
                    cases hcaught : k.caught with
                    | true => rfl
                    | false => exact absurd ⟨rfl, hcaught⟩ hout.2
                  have hmade : k.made r m = (.value (), (k.made r m).2) :=
                    Prod.ext (hc.exit.trans (Outcome.after_caught hcaught)) rfl
                  -- The frames are what they were, and numbers only grow,
                  -- so they are still numbered.
                  have hm₁ : (k.made r m).2.scopes.Numbered := by
                    intro f hf
                    rw [hc.frames nofun] at hf
                    exact Nat.lt_of_lt_of_le (hm f hf) hc.told.nextId
                  obtain ⟨g, ts, out', h⟩ := runSteps_ran hr rest hs.2 id value hm₁
                  exact ⟨g, us ++ ts, out', .on hk hcaught (hmade ▸ hc) hmade h⟩
termination_by sizeOf steps
decreasing_by
  all_goals simp only [List.cons.sizeOf_spec]
  all_goals omega

end TracedTransfer.Operation
