/-
What one call does, when the listeners are calm.

A call enters a scope, runs its body there and leaves the scope, however
the body ends (`call_eq`). Entering and leaving are functions of the
machine, `entered` and `left`; each comes with what it does to the
operation that is current, to the open frames, to the next number, to
the memory of a listener, and to whatever no listener touches. Nothing
else is needed of a call: what a program does follows from these and
from what its bodies do.
-/
import TracedTransfer.Proofs.Operation.Notice

namespace TracedTransfer.Operation

variable {r : Runner} {β ε α : Type}

-- =========================================================== entering

/-- The frame of an operation that would open now. -/
def frameOf (d : Descriptor) (m : Machine) : Frame := m.scopes.nextFrame d m.clock

/-- The notice that the operation of a frame has started. -/
def Frame.start (f : Frame) : Notice := .started f.id f.parent f.descriptor

/-- The machine when a scope is open and the listeners have heard of it. -/
def entered (r : Runner) (d : Descriptor) (m : Machine) : Machine :=
  (r.tell (frameOf d m).start
    { m with scopes := m.scopes.enter (frameOf d m) }).2

/-- To enter a call changes the scopes by its frame, and listeners can only
add numbers. -/
theorem entered_keeps (hr : r.Calm) (d : Descriptor) (m : Machine) :
    (m.scopes.enter (frameOf d m)).Keeps (entered r d m).scopes :=
  (Runner.tell_calm hr (frameOf d m).start
    { m with scopes := m.scopes.enter (frameOf d m) }).2

theorem entered_current (hr : r.Calm) (d : Descriptor) (m : Machine) :
    (entered r d m).scopes.current = some m.scopes.nextId :=
  (entered_keeps hr d m).current

theorem entered_frames (hr : r.Calm) (d : Descriptor) (m : Machine) :
    (entered r d m).scopes.frames = frameOf d m :: m.scopes.frames :=
  (entered_keeps hr d m).frames

theorem entered_nextId (hr : r.Calm) (d : Descriptor) (m : Machine) :
    m.scopes.nextId < (entered r d m).scopes.nextId :=
  (entered_keeps hr d m).nextId

theorem recall_entered (hr : r.Calm) {k : Memory β} (hk : r.Serves k)
    (d : Descriptor) (m : Machine) :
    k.kept (entered r d m) = k.note (k.kept m) (frameOf d m).start := by
  unfold entered
  rw [Runner.recall_tell hr hk, hk.apart.scopes]

/-- Of what is said at an end only, nothing is said on entering. -/
theorem view_entered_of (hr : r.Calm) {view : Machine → β}
    (hs : ∀ m s, view { m with scopes := s } = view m)
    (hv : ∀ l ∈ r, ∀ (f : Frame) m, view (l.hear f.start m).2 = view m)
    (d : Descriptor) (m : Machine) : view (entered r d m) = view m := by
  unfold entered
  rw [Runner.view_tell_of hr fun l hl => hv l hl _, hs]

/-- What shows neither scopes nor what listeners do is not changed by
entering. -/
theorem view_entered (hr : r.Calm) {view : Machine → β}
    (hs : ∀ m s, view { m with scopes := s } = view m)
    (hv : ∀ l ∈ r, l.Leaves view) (d : Descriptor) (m : Machine) :
    view (entered r d m) = view m :=
  view_entered_of hr hs (fun l hl f => hv l hl f.start) d m

-- ============================================================ leaving

/-- The record of a scope that closes now. -/
def recordOf (f : Frame) (unwound : Bool) (m : Machine) : Record :=
  f.record (m.scopes.context f.id) m.clock unwound

/-- The machine when a scope has closed and the listeners have heard of
it. -/
def left (r : Runner) (f : Frame) (unwound : Bool) (m : Machine) : Machine :=
  dropFrame (r.tell (.finished (recordOf f unwound m))
    { m with scopes := m.scopes.restore f }).2

/-- What telling of a finish does to the scopes, before the frame goes. -/
theorem left_keeps (hr : r.Calm) (f : Frame) (unwound : Bool) (m : Machine) :
    (m.scopes.restore f).Keeps (r.tell (.finished (recordOf f unwound m))
      { m with scopes := m.scopes.restore f }).2.scopes :=
  (Runner.tell_calm hr (.finished (recordOf f unwound m))
    { m with scopes := m.scopes.restore f }).2

theorem left_current (hr : r.Calm) (f : Frame) (unwound : Bool) (m : Machine) :
    (left r f unwound m).scopes.current = f.parent :=
  (left_keeps hr f unwound m).current

theorem left_frames (hr : r.Calm) (f : Frame) (unwound : Bool) (m : Machine) :
    (left r f unwound m).scopes.frames = m.scopes.frames.tail :=
  congrArg List.tail (left_keeps hr f unwound m).frames

theorem left_nextId (hr : r.Calm) (f : Frame) (unwound : Bool) (m : Machine) :
    m.scopes.nextId ≤ (left r f unwound m).scopes.nextId :=
  (left_keeps hr f unwound m).nextId

theorem recall_left (hr : r.Calm) {k : Memory β} (hk : r.Serves k) (f : Frame)
    (unwound : Bool) (m : Machine) :
    k.kept (left r f unwound m)
      = k.note (k.kept m) (.finished (recordOf f unwound m)) := by
  unfold left dropFrame
  rw [hk.apart.scopes, Runner.recall_tell hr hk, hk.apart.scopes]

/-- What shows neither scopes nor what listeners do is not changed by
leaving. -/
theorem view_left (hr : r.Calm) {view : Machine → β}
    (hs : ∀ m s, view { m with scopes := s } = view m)
    (hv : ∀ l ∈ r, l.Leaves view) (f : Frame) (unwound : Bool) (m : Machine) :
    view (left r f unwound m) = view m := by
  unfold left dropFrame
  rw [hs, Runner.view_tell hr hv, hs]

/-- With calm listeners a scope is left in one way: the record is told to
all of them. -/
theorem closeScope_eq (hr : r.Calm) (f : Frame) (unwound : Bool) (m : Machine) :
    closeScope r f unwound m = (.value (),
      (r.tell (.finished (recordOf f unwound m))
        { m with scopes := m.scopes.restore f }).2) := by
  show r.notifyFinished (recordOf f unwound m)
    { m with scopes := m.scopes.restore f } = _
  rw [Runner.notifyFinished_eq_tell, Runner.tell_eq hr]

-- =========================================================== the call

/-- The machine when what a body returned has been written down. -/
def returned (f : Frame) (display : ε → String) (outcome : Except ε α)
    (m : Machine) : Machine :=
  match outcome with
  | .ok _ => m
  | .error e => (setFailure f.id (display e) m).2

/-- With calm listeners a body runs once all have heard of the start. -/
theorem runBody_eq (hr : r.Calm) (f : Frame) (display : ε → String)
    (body : Id → Run (Except ε α)) (m : Machine) :
    runBody r f display body m =
      match body f.id (r.tell f.start m).2 with
      | (.value outcome, m₁) => (.value outcome, returned f display outcome m₁)
      | (.unwind, m₁) => (.unwind, m₁)
      | (.abort, m₁) => (.abort, m₁) := by
  have htell : r.notifyStarted f m = (.value (), (r.tell f.start m).2) := by
    rw [Runner.notifyStarted_eq_tell]
    exact Runner.tell_eq hr _ _
  unfold runBody
  rw [Action.bind_of_value htell]
  rcases hb : body f.id (r.tell f.start m).2 with ⟨exit, m₁⟩
  cases exit with
  | value outcome =>
      rw [Action.bind_of_value hb]
      cases outcome with
      | ok a => rfl
      | error e => rfl
  | unwind => rw [Action.bind_of_unwind hb]
  | abort => rw [Action.bind_of_abort hb]

/-- A call enters a scope, runs its body there and leaves the scope. Only
a body that ends the whole program leaves it open. -/
theorem call_eq (hr : r.Calm) (d : Descriptor) (display : ε → String)
    (body : Id → Run (Except ε α)) (m : Machine) :
    call r d display body m =
      match body (frameOf d m).id (entered r d m) with
      | (.value outcome, m₁) =>
        (.value outcome,
          left r (frameOf d m) false (returned (frameOf d m) display outcome m₁))
      | (.unwind, m₁) => (.unwind, left r (frameOf d m) true m₁)
      | (.abort, m₁) => (.abort, m₁) := by
  have hbody := runBody_eq hr (frameOf d m) display body
    { m with scopes := m.scopes.enter (frameOf d m) }
  unfold call
  simp only [openScope]
  rw [show m.scopes.nextFrame d m.clock = frameOf d m from rfl, hbody]
  rw [show (r.tell (frameOf d m).start
    { m with scopes := m.scopes.enter (frameOf d m) }).2 = entered r d m from rfl]
  rcases body (frameOf d m).id (entered r d m) with ⟨exit, m₁⟩
  cases exit with
  | value outcome =>
      simp only [closeScope_eq hr]
      rfl
  | unwind =>
      simp only [closeScope_eq hr]
      rfl
  | abort => rfl

end TracedTransfer.Operation
