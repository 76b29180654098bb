/-
What one call does, when its listeners may panic.

A listener that panics at the start of a call keeps the body from being
run: the scope closes at once, as that of a body that unwinds. A listener
that panics at the finish makes the call unwind, or ends the program if
the call is unwinding already (`call_contained`). Entering and leaving a
scope are the functions of the machine that they are for calm listeners;
what is new is how far the two notices get.
-/
import TracedTransfer.Proofs.Operation.Call
import TracedTransfer.Proofs.Operation.Tiding

namespace TracedTransfer.Operation

variable {r : Runner} {β ε α : Type}

-- =========================================================== entering

/-- What becomes of the notice that an operation has started. -/
def opening (r : Runner) (d : Descriptor) (m : Machine) : Tiding :=
  r.tiding (frameOf d m).start { m with scopes := m.scopes.enter (frameOf d m) }

/-- To enter a call keeps the scopes around it, even if a listener refuses
the start. -/
theorem enteredContained_keeps (hr : r.Contained) (d : Descriptor) (m : Machine) :
    (m.scopes.enter (frameOf d m)).Keeps (entered r d m).scopes :=
  (Runner.tell_contained hr (frameOf d m).start
    { m with scopes := m.scopes.enter (frameOf d m) }).2

/-- A listener has heard of a start if it stands before the one that refuses
it. -/
theorem recall_opening (hr : r.Contained) {j : Nat} {k : Memory β} (hk : r.ServesAt j k)
    (d : Descriptor) (m : Machine) :
    k.kept (entered r d m)
      = (heardAt j [opening r d m]).foldl k.note (k.kept m) := by
  unfold entered
  rw [Runner.recall_heard hr hk, hk.apart.scopes]
  rfl

-- ============================================================ leaving

/-- What becomes of the notice that an operation has finished. -/
def closing (r : Runner) (f : Frame) (unwound : Bool) (m : Machine) : Tiding :=
  r.tiding (.finished (recordOf f unwound m)) { m with scopes := m.scopes.restore f }

/-- To leave a call keeps the scopes around it, even if a listener refuses
the finish. -/
theorem leftContained_keeps (hr : r.Contained) (f : Frame) (unwound : Bool) (m : Machine) :
    (m.scopes.restore f).Keeps (r.tell (.finished (recordOf f unwound m))
      { m with scopes := m.scopes.restore f }).2.scopes :=
  (Runner.tell_contained hr (.finished (recordOf f unwound m))
    { m with scopes := m.scopes.restore f }).2

/-- The machine when a scope has closed, with how the call ends. A panic
while another is under way ends the program. -/
def settled (r : Runner) (f : Frame) (unwound : Bool) (exit : Exit α) (m : Machine) :
    Exit α × Machine :=
  if (closing r f unwound m).cut then
    if unwound then
      (.abort, (r.tell (.finished (recordOf f unwound m))
        { m with scopes := m.scopes.restore f }).2)
    else (.unwind, left r f unwound m)
  else (exit, left r f unwound m)

theorem settled_of_not_cut {f : Frame} {unwound : Bool} {m : Machine}
    (h : (closing r f unwound m).cut = false) (exit : Exit α) :
    settled r f unwound exit m = (exit, left r f unwound m) := by
  rw [settled, h]
  rfl

/-- However the call ends, the parent is current again and no number is
given back. -/
theorem settled_scopes (hr : r.Contained) (f : Frame) (unwound : Bool) (exit : Exit α)
    (m : Machine) :
    (settled r f unwound exit m).2.scopes.current = f.parent
      ∧ m.scopes.nextId ≤ (settled r f unwound exit m).2.scopes.nextId := by
  have hk := leftContained_keeps hr f unwound m
  have hnext : m.scopes.nextId ≤ (r.tell (.finished (recordOf f unwound m))
      { m with scopes := m.scopes.restore f }).2.scopes.nextId := hk.nextId
  unfold settled
  split
  · split
    · exact ⟨hk.current, hnext⟩
    · exact ⟨hk.current, hnext⟩
  · exact ⟨hk.current, hnext⟩

/-- Unless the program ends, the frame goes. -/
theorem settled_frames (hr : r.Contained) (f : Frame) (unwound : Bool) {exit : Exit α}
    {m : Machine} (h : (settled r f unwound exit m).1 ≠ .abort) :
    (settled r f unwound exit m).2.scopes.frames = m.scopes.frames.tail := by
  have hk := congrArg List.tail (leftContained_keeps hr f unwound m).frames
  unfold settled at h ⊢
  split
  · split
    · rename_i hc hu
      rw [if_pos hc, if_pos hu] at h
      exact absurd rfl h
    · exact hk
  · exact hk

/-- Of the finish, a memory takes in what got to it, and nothing else. -/
theorem recall_settled (hr : r.Contained) {j : Nat} {k : Memory β} (hk : r.ServesAt j k)
    (f : Frame) (unwound : Bool) (exit : Exit α) (m : Machine) :
    k.kept (settled r f unwound exit m).2
      = (heardAt j [closing r f unwound m]).foldl k.note (k.kept m) := by
  have htold : k.kept (r.tell (.finished (recordOf f unwound m))
      { m with scopes := m.scopes.restore f }).2
      = (heardAt j [closing r f unwound m]).foldl k.note (k.kept m) := by
    rw [Runner.recall_heard hr hk, hk.apart.scopes]
    rfl
  have hleft : k.kept (left r f unwound m)
      = (heardAt j [closing r f unwound m]).foldl k.note (k.kept m) := by
    unfold left dropFrame
    rw [hk.apart.scopes, htold]
  unfold settled
  split
  · split
    · exact htold
    · exact hleft
  · exact hleft

-- =========================================================== the call

/-- A scope is left by a panic exactly if a listener refuses the finish. -/
theorem closeScope_cases (hr : r.Contained) (f : Frame) (unwound : Bool) (m : Machine) :
    closeScope r f unwound m =
      (if (closing r f unwound m).cut then .unwind else .value (),
        (r.tell (.finished (recordOf f unwound m))
          { m with scopes := m.scopes.restore f }).2) := by
  show r.notifyFinished (recordOf f unwound m) { m with scopes := m.scopes.restore f } = _
  rw [Runner.notifyFinished_eq_tell]
  rcases Runner.tell_cases hr (.finished (recordOf f unwound m))
    { m with scopes := m.scopes.restore f } with ⟨h, hcut⟩ | ⟨h, hcut⟩
  · rw [closing, hcut]
    exact h
  · rw [closing, hcut]
    exact h

/-- A body runs if no listener refuses the start. -/
theorem runBody_contained (hr : r.Contained) (d : Descriptor) (display : ε → String)
    (body : Id → Run (Except ε α)) (m : Machine) :
    runBody r (frameOf d m) display body { m with scopes := m.scopes.enter (frameOf d m) } =
      if (opening r d m).cut then (.unwind, entered r d m)
      else
        match body (frameOf d m).id (entered r d m) with
        | (.value outcome, m₁) => (.value outcome, returned (frameOf d m) display outcome m₁)
        | (.unwind, m₁) => (.unwind, m₁)
        | (.abort, m₁) => (.abort, m₁) := by
  unfold runBody
  rw [Runner.notifyStarted_eq_tell]
  rcases Runner.tell_cases hr (frameOf d m).start
    { m with scopes := m.scopes.enter (frameOf d m) } with ⟨h, hcut⟩ | ⟨h, hcut⟩
  · rw [opening, hcut, if_neg Bool.false_ne_true]
    refine (Action.bind_of_value h).trans ?_
    rw [show (r.tell (frameOf d m).start
      { m with scopes := m.scopes.enter (frameOf d m) }).2 = entered r d m from rfl]
    rcases hb : body (frameOf d m).id (entered r d m) with ⟨exit, m₁⟩
    cases exit with
    | value outcome =>
        rw [Action.bind_of_value hb]
        cases outcome with
        | ok a => rfl
        | error e => rfl
    | unwind => rw [Action.bind_of_unwind hb]
    | abort => rw [Action.bind_of_abort hb]
  · rw [opening, hcut, if_pos rfl]
    exact Action.bind_of_unwind h

/-- A call whose start is cut does not run its body: its scope closes as
that of a body that unwinds. Any other call runs its body in its scope
and leaves it, and only a body that ends the program leaves it open. -/
theorem call_contained (hr : r.Contained) (d : Descriptor) (display : ε → String)
    (body : Id → Run (Except ε α)) (m : Machine) :
    call r d display body m =
      if (opening r d m).cut then settled r (frameOf d m) true .unwind (entered r d m)
      else
        match body (frameOf d m).id (entered r d m) with
        | (.value outcome, m₁) =>
          settled r (frameOf d m) false (.value outcome)
            (returned (frameOf d m) display outcome m₁)
        | (.unwind, m₁) => settled r (frameOf d m) true .unwind m₁
        | (.abort, m₁) => (.abort, m₁) := by
  have hbody := runBody_contained hr d display body m
  unfold call
  simp only [openScope]
  rw [show m.scopes.nextFrame d m.clock = frameOf d m from rfl, hbody]
  -- A start that is refused unwinds before the body. In each case the record is told when the
  -- scope closes, and may be refused as well.
  cases (opening r d m).cut with
  | true =>
      simp only [if_true, closeScope_cases hr]
      unfold settled
      cases (closing r (frameOf d m) true (entered r d m)).cut with
      | true => rfl
      | false => rfl
  | false =>
      simp only [Bool.false_eq_true, if_false]
      rcases body (frameOf d m).id (entered r d m) with ⟨exit, m₁⟩
      cases exit with
      | value outcome =>
          simp only [closeScope_cases hr]
          unfold settled
          cases (closing r (frameOf d m) false
            (returned (frameOf d m) display outcome m₁)).cut with
          | true => rfl
          | false => rfl
      | unwind =>
          simp only [closeScope_cases hr]
          unfold settled
          cases (closing r (frameOf d m) true m₁).cut with
          | true => rfl
          | false => rfl
      | abort => rfl

end TracedTransfer.Operation
