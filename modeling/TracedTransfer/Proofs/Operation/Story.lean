/-
Programs of nested calls on one thread, and what their listeners are to
hear.

A program is a list of steps run through one runner: bodies say things
of their operations, make calls to any depth, catch the panics of those
calls or let them through, and end by returning, by failing or by a
panic.

- `Story` gives the notices that a program has to lead to, and how it
  ends, by recursion on its steps and without running anything: a call
  contributes the start of its operation, the notices of its body inside
  that operation, and the finish. The notices of a story can be read, and
  leave the stack of open operations as it was (`Story.replay`).
- `Heard` says what a stretch of a run told: between two machines every
  memory has taken in the same notices. Stretches are put together by
  `Heard.trans`, and each part of a call has its own.
-/
import TracedTransfer.Operation.Program
import TracedTransfer.Proofs.Operation.Bracket
import TracedTransfer.Proofs.Operation.Call

namespace TracedTransfer.Operation

variable {r : Runner}

-- =========================================================== programs

mutual

/-- Whether a step stays on its thread and leaves the recording alone. -/
def Step.isPlain : Step → Bool
  | .call _ _ _ body => arePlain body
  | .thread .. => false
  | .clear => false
  | _ => true

/-- Whether all steps stay on their thread and leave the recording
alone. -/
def arePlain : List Step → Bool
  | [] => true
  | s :: rest => s.isPlain && arePlain rest

end

/-- How a list of steps ends. -/
inductive Ending where
  /-- They return, -/
  | returns
  /-- return a failure -/
  | fails (text : String)
  /-- or panic. -/
  | panics

/-- The exit of a body that ends so. -/
def Ending.exit (value : Json) : Ending → Exit (Except String Json)
  | .returns => .value (.ok value)
  | .fails e => .value (.error e)
  | .panics => .unwind

/-- The descriptor of an outline. Details that have no structured form
count as none. -/
def Outline.described (o : Outline) : Descriptor where
  displayName := o.displayName
  progressDisplayName := o.progressDisplayName
  details :=
    match o.details, o.unstructured with
    | some j, none => j.normalized
    | _, _ => .null

/-- A step that only says something of its operation, or looks around. -/
def Step.isQuiet : Step → Bool
  | .setResult _ | .setStatus _ | .setFailure _ | .current | .summary => true
  | _ => false

/-- The notices of a call: its start, those of its body, its finish. -/
def bracket (i : Id) (parent : Option Id) (d : Descriptor) (inner : List Notice)
    (record : Record) : List Notice :=
  .started i parent d :: (inner ++ [.finished record])

/-- The notices that steps lead to inside an operation, and how the steps
end. -/
inductive Story : Option Id → List Step → List Notice → Ending → Prop where
  /-- Without steps it is over. -/
  | nil {parent : Option Id} : Story parent [] [] .returns
  /-- A quiet step is not heard. -/
  | quiet {parent : Option Id} {s : Step} {rest : List Step} {es : List Notice}
      {ending : Ending} (quiet : s.isQuiet = true) :
      Story parent rest es ending → Story parent (s :: rest) es ending
  /-- A failure ends the steps, -/
  | fail {parent : Option Id} {text : String} {rest : List Step} :
      Story parent (.fail text :: rest) [] (.fails text)
  /-- and so does a panic. -/
  | panic {parent : Option Id} {rest : List Step} :
      Story parent (.panic :: rest) [] .panics
  /-- A call that ends, or whose panic is caught: the steps go on. -/
  | call {parent : Option Id} {i : Id} {caught : Bool} {o : Outline}
      {value : Json} {body rest : List Step} {inner es : List Notice}
      {record : Record} {ended ending : Ending}
      (closes : record.Closes i parent o.described)
      (ends : ended = .panics → caught = true) :
      Story (some i) body inner ended → Story parent rest es ending →
      Story parent (.call caught o value body :: rest)
        (bracket i parent o.described inner record ++ es) ending
  /-- A call whose panic is not caught: it takes the steps along. -/
  | unwound {parent : Option Id} {i : Id} {o : Outline} {value : Json}
      {body rest : List Step} {inner : List Notice} {record : Record}
      (closes : record.Closes i parent o.described) :
      Story (some i) body inner .panics →
      Story parent (.call false o value body :: rest)
        (bracket i parent o.described inner record) .panics

/-- Notices of one call, read with the stack of those around it: the call
goes on top while the calls in it are read, and off again at its record. -/
theorem Replay.bracket {stack : List Opened} {i : Id} {parent : Option Id}
    {d : Descriptor} {inner : List Notice} {record : Record}
    (hp : parent = innermost stack) (hc : record.Closes i parent d)
    (h : Replay (⟨i, parent, d⟩ :: stack) inner (⟨i, parent, d⟩ :: stack)) :
    Replay stack (bracket i parent d inner record) stack :=
  .started (o := ⟨i, parent, d⟩) hp
    (h.append (.finished hc .nil))

/-- The notices of a story can be read, and leave the stack as it was. -/
theorem Story.replay {parent : Option Id} {steps : List Step}
    {es : List Notice} {ending : Ending} (h : Story parent steps es ending) :
    ∀ {stack : List Opened}, parent = innermost stack → Replay stack es stack := by
  induction h with
  | nil => intro _ _; exact .nil
  | quiet _ _ ih => intro _ hp; exact ih hp
  | fail => intro _ _; exact .nil
  | panic => intro _ _; exact .nil
  | call hc _ _ _ ihBody ihRest =>
      intro stack hp
      exact (Replay.bracket hp hc (ihBody rfl)).append (ihRest hp)
  | unwound hc _ ihBody =>
      intro stack hp
      exact Replay.bracket hp hc (ihBody rfl)

-- ============================================================ hearing

/-- Between two machines the listeners have heard `es` and nothing else:
each keeps it in its memory, and the operations it says have started took
their numbers in order. -/
structure Heard (r : Runner) (m : Machine) (es : List Notice) (m' : Machine) :
    Prop where
  /-- Numbers are given in order, -/
  nextId : m.scopes.nextId ≤ m'.scopes.nextId
  /-- those that were heard of are among the ones given meanwhile, -/
  ids : ∀ i ∈ startedIds es, m.scopes.nextId ≤ i ∧ i < m'.scopes.nextId
  /-- each is later than the one before, -/
  increasing : (startedIds es).Pairwise (· < ·)
  /-- and each listener that keeps its own state has taken in just these
  notices. -/
  recalled : ∀ {β : Type} (k : Memory β), r.Serves k →
    k.kept m' = es.foldl k.note (k.kept m)

/-- What is heard in two runs, one behind the other, is heard in that
order. -/
theorem Heard.trans {m m₁ m₂ : Machine} {es fs : List Notice}
    (h : Heard r m es m₁) (h' : Heard r m₁ fs m₂) : Heard r m (es ++ fs) m₂ := by
  constructor
  · exact Nat.le_trans h.nextId h'.nextId
  · intro i hi
    rw [startedIds_append] at hi
    rcases List.mem_append.1 hi with hi | hi
    · obtain ⟨hlo, hhi⟩ := h.ids i hi
      exact ⟨hlo, Nat.lt_of_lt_of_le hhi h'.nextId⟩
    · obtain ⟨hlo, hhi⟩ := h'.ids i hi
      exact ⟨Nat.le_trans h.nextId hlo, hhi⟩
  · rw [startedIds_append, List.pairwise_append]
    refine ⟨h.increasing, h'.increasing, fun i hi j hj => ?_⟩
    exact Nat.lt_of_lt_of_le (h.ids i hi).2 (h'.ids j hj).1
  · intro β k hk
    rw [h'.recalled k hk, h.recalled k hk, List.foldl_append]

/-- Nothing is heard while only the contexts of scopes, the answers and
the log change. -/
theorem Heard.silent {m m' : Machine}
    (hn : m'.scopes.nextId = m.scopes.nextId)
    (hv : ∀ {β : Type} (view : Machine → β), Private view → view m' = view m) :
    Heard r m [] m' :=
  ⟨Nat.le_of_eq hn.symm, fun _ hi => (List.not_mem_nil hi).elim,
    List.Pairwise.nil, fun k hk => hv k.kept hk.apart⟩

theorem Heard.refl (m : Machine) : Heard r m [] m := .silent rfl fun _ _ => rfl

/-- To enter a call is heard as its start, -/
theorem heard_entered (hr : r.Calm) (d : Descriptor) (m : Machine) :
    Heard r m [(frameOf d m).start] (entered r d m) := by
  constructor
  · exact Nat.le_of_lt (entered_nextId hr d m)
  · intro i hi
    rw [List.mem_singleton.1 hi]
    exact ⟨Nat.le_refl _, entered_nextId hr d m⟩
  · exact List.pairwise_singleton _ _
  · intro β k hk
    exact recall_entered hr hk d m

/-- and to leave it as its record. -/
theorem heard_left (hr : r.Calm) (f : Frame) (unwound : Bool) (m : Machine) :
    Heard r m [.finished (recordOf f unwound m)] (left r f unwound m) := by
  constructor
  · exact left_nextId hr f unwound m
  · intro i hi
    exact (List.not_mem_nil hi).elim
  · exact List.Pairwise.nil
  · intro β k hk
    exact recall_left hr hk f unwound m

theorem heard_returned {ε α : Type} (f : Frame) (display : ε → String)
    (outcome : Except ε α) (m : Machine) :
    Heard r m [] (returned f display outcome m) := by
  cases outcome with
  | ok a => exact .refl m
  | error e => exact .silent rfl fun view hv => hv.scopes m _

-- ======================================================= making calls

/-- The machine when a call of a program is about to be made. -/
def summoned (o : Outline) (m : Machine) : Machine :=
  (o.descriptor { m with answers := [] :: m.answers }).2

/-- Logging for want of a structured form is all that making a
descriptor does. -/
theorem descriptor_eq (o : Outline) (m : Machine) :
    o.descriptor m = (.value o.described, (o.descriptor m).2)
      ∧ (o.descriptor m).2.scopes = m.scopes
      ∧ ∀ {β : Type} (view : Machine → β), Private view →
        view (o.descriptor m).2 = view m := by
  obtain ⟨name, progress, details, unstructured⟩ := o
  cases unstructured with
  | none =>
      cases details with
      | none => exact ⟨rfl, rfl, fun _ _ => rfl⟩
      | some j => exact ⟨rfl, rfl, fun _ _ => rfl⟩
  | some e =>
      cases details with
      | none => exact ⟨rfl, logged_scopes m _ _ _ _, fun view hv => hv.logged m _ _ _ _⟩
      | some j => exact ⟨rfl, logged_scopes m _ _ _ _, fun view hv => hv.logged m _ _ _ _⟩

/-- To make a descriptor for a call leaves the scopes alone. -/
theorem summoned_scopes (o : Outline) (m : Machine) :
    (summoned o m).scopes = m.scopes :=
  (descriptor_eq o { m with answers := [] :: m.answers }).2.1

/-- The start of a call has the next number, inside what is current. -/
theorem start_summoned (o : Outline) (m : Machine) :
    (frameOf o.described (summoned o m)).start
      = .started m.scopes.nextId m.scopes.current o.described := by
  unfold frameOf
  rw [summoned_scopes]
  rfl

/-- Nobody hears of the making of a descriptor. -/
theorem heard_summoned (o : Outline) (m : Machine) :
    Heard r m [] (summoned o m) := by
  refine .silent (congrArg Scopes.nextId (summoned_scopes o m)) fun view hv => ?_
  unfold summoned
  rw [(descriptor_eq o _).2.2 view hv, hv.answers]

/-- The machine when a call of a program has been answered. -/
def answered (how : Returned) (m : Machine) : Machine :=
  (answer (.call how (m.answers.headD []) m.scopes.current)
    { m with answers := m.answers.tail }).2

/-- An answer goes on its list, and nothing else of the machine changes. -/
theorem answer_eq (a : Answer) (m : Machine) :
    ∃ as, answer a m = (.value (), { m with answers := as }) := by
  unfold answer Action.modify
  dsimp only
  split
  · exact ⟨_, rfl⟩
  · exact ⟨_, rfl⟩

/-- The answer of a call is the next one on that list. -/
theorem answer_answered (how : Returned) (m : Machine) :
    answer (.call how (m.answers.headD []) m.scopes.current)
      { m with answers := m.answers.tail } = (.value (), answered how m) := by
  obtain ⟨as, h⟩ := answer_eq (.call how (m.answers.headD []) m.scopes.current)
    { m with answers := m.answers.tail }
  unfold answered
  rw [h]

/-- What is kept of a call that has returned is its answer only, -/
theorem answered_eq (how : Returned) (m : Machine) :
    ∃ as, answered how m = { m with answers := as } := by
  obtain ⟨as, h⟩ := answer_eq (.call how (m.answers.headD []) m.scopes.current)
    { m with answers := m.answers.tail }
  refine ⟨as, ?_⟩
  unfold answered
  rw [h]

/-- no scope, -/
theorem answered_scopes (how : Returned) (m : Machine) :
    (answered how m).scopes = m.scopes := by
  obtain ⟨as, h⟩ := answered_eq how m
  rw [h]

/-- and nothing that is heard. -/
theorem heard_answered (how : Returned) (m : Machine) :
    Heard r m [] (answered how m) := by
  refine .silent (congrArg Scopes.nextId (answered_scopes how m)) fun view hv => ?_
  obtain ⟨as, h⟩ := answered_eq how m
  rw [h]
  exact hv.answers m as

end TracedTransfer.Operation
