/-
What is said of operations through their contexts, and what comes of it.

A context can be handed on, so what is said has the number of the operation
that it is said of (`Said`). Of each kind the last saying is what is known
of an operation in the end (`foldl_note`).

`Spoken` is what bodies of calls have in common: of the open frames they
change nothing but what they say of their operations. It is closed under
everything that a body is made of, that is steps one after the other
(`Spoken.bind`) and panics that are caught (`catchingIf_spoken`).
-/
import Mathlib
import TracedTransfer.Proofs.Operation.Telling

namespace TracedTransfer.Operation

variable {ε α β : Type}

-- ============================================================= sayings

/-- Something that is said of an operation through its context. -/
inductive Saying where
  /-- A structured result, or the text of why it has no structured form. -/
  | result (value : Except String Json)
  /-- A text of how far it has got. -/
  | status (text : String)
  /-- The text of a failure. -/
  | failed (text : String)

namespace Saying

/-- Says it. -/
def run (id : Id) : Saying → Run Unit
  | result value => do setResult id (← structured "result" value)
  | status text => setStatus id text
  | failed text => setFailure id text

/-- The result that is recorded of it: null if there is no structured form. -/
def result? : Saying → Option Json
  | result (.ok j) => some j.normalized
  | result (.error _) => some .null
  | status _ => none
  | failed _ => none

def status? : Saying → Option String
  | status text => some text
  | _ => none

def failure? : Saying → Option String
  | failed text => some text
  | _ => none

/-- What is known of an operation after it has been said. -/
def note (c : Context) (s : Saying) : Context :=
  ⟨s.result?.or c.result, s.status?.or c.status, s.failure?.or c.failure⟩

/-- What is said changes the context of its operation and nothing else of
the scopes. -/
theorem run_eq (s : Saying) (id : Id) (m : Machine) : ∃ m', s.run id m = (.value (), m')
    ∧ m'.scopes = m.scopes.updateContext id fun c => note c s := by
  cases s with
  | result value =>
      cases value with
      | ok j => exact ⟨_, rfl, rfl⟩
      | error e =>
          refine ⟨_, rfl, ?_⟩
          exact congrArg (Scopes.updateContext · id fun c => note c (.result (.error e)))
            (logged_scopes m _ _ _ _)
  | status text => exact ⟨_, rfl, rfl⟩
  | failed text => exact ⟨_, rfl, rfl⟩

end Saying

/-- What has been said, and of which operation each. -/
abbrev Said := List (Id × Saying)

/-- What has been said of one operation. -/
def Said.of (said : Said) (id : Id) : List Saying := (said.filter (·.1 = id)).map Prod.snd

/-- What has been said of an operation is said in order, -/
theorem Said.of_append (said more : Said) (id : Id) :
    (said ++ more : Said).of id = said.of id ++ more.of id := by
  unfold Said.of
  rw [List.filter_append, List.map_append]

/-- and only what names it counts. -/
theorem Said.of_cons (id i : Id) (s : Saying) (said : Said) :
    Said.of ((i, s) :: said) id = if i = id then s :: said.of id else said.of id := by
  unfold Said.of
  by_cases h : i = id
  · rw [if_pos h, List.filter_cons_of_pos (by simpa using h), List.map_cons]
  · rw [if_neg h, List.filter_cons_of_neg (by simpa using h)]

/-- The last of what a kind of saying tells. -/
def lastOf (f : Saying → Option β) (said : List Saying) : Option β := (said.filterMap f).getLast?

/-- Of several things that are said the last one stays. -/
theorem foldl_or (f : Saying → Option β) (said : List Saying) (x : Option β) :
    said.foldl (fun x s => (f s).or x) x = (lastOf f said).or x := by
  induction said using List.reverseRecOn with
  | nil => rfl
  | append_singleton said s ih =>
      unfold lastOf
      rw [List.foldl_append, ih, List.filterMap_append, List.getLast?_append]
      cases hs : f s with
      | none => simp [hs, lastOf]
      | some b => simp [hs]

/-- Of all that has been said the last of each kind is known. -/
theorem foldl_note (said : List Saying) (c : Context) : said.foldl Saying.note c
    = ⟨(lastOf Saying.result? said).or c.result, (lastOf Saying.status? said).or c.status,
        (lastOf Saying.failure? said).or c.failure⟩ := by
  rw [← foldl_or, ← foldl_or, ← foldl_or]
  induction said generalizing c with
  | nil => rfl
  | cons s said ih => exact ih _

-- ============================================================== frames

/-- A frame after things have been said of operations. -/
def Frame.hear (f : Frame) (said : Said) : Frame :=
  { f with context := (said.of f.id).foldl Saying.note f.context }

/-- What is said of other operations is not heard. -/
theorem Frame.hear_of_nil {f : Frame} {said : Said} (h : said.of f.id = []) :
    f.hear said = f := by
  unfold Frame.hear
  rw [h]
  rfl

theorem Frame.hear_append (f : Frame) (said more : Said) :
    f.hear (said ++ more) = (f.hear said).hear more := by
  unfold Frame.hear
  rw [Said.of_append, List.foldl_append]

/-- To update a context is to let all frames hear of it: only the one that
is named takes it in. -/
theorem updateContext_frames (s : Scopes) (id : Id) (a : Saying) :
    (s.updateContext id fun c => a.note c).frames = s.frames.map (·.hear [(id, a)]) := by
  refine List.map_congr_left fun f _ => ?_
  unfold Frame.hear
  rw [Said.of_cons]
  by_cases h : f.id = id
  · rw [if_pos h, if_pos h.symm]
    rfl
  · rw [if_neg h, if_neg (Ne.symm h)]
    rfl

/-- What is said after a step by what goes on with its value; nothing is if
the step does not come to one. -/
def afterwards (x : Exit β × Machine) (f : β → Machine → List α) : List α :=
  match x with
  | (.value b, m) => f b m
  | _ => []

theorem afterwards_unwind (m : Machine) (f : β → Machine → List α) :
    afterwards (Exit.unwind, m) f = [] := rfl

/-- Where a step ends that starts on a machine `m`, if all that it does to
the open frames is what has been said of their operations. -/
structure Spoken (m : Machine) (said : Said) (x : Exit β × Machine) : Prop where
  /-- The program goes on, -/
  ends : x.1 ≠ .abort
  /-- the current operation is what it was, -/
  current : x.2.scopes.current = m.scopes.current
  /-- no number is given again, -/
  nextId : m.scopes.nextId ≤ x.2.scopes.nextId
  /-- and what was said has come to the frames, and nothing else has. -/
  frames : x.2.scopes.frames = m.scopes.frames.map (·.hear said)

namespace Spoken

variable {m m₁ : Machine} {said more : Said} {b : β}

/-- Frames stay numbered while things are said of them. -/
theorem numbered {x : Exit β × Machine} (h : Spoken m said x) (hm : m.scopes.Numbered) :
    x.2.scopes.Numbered := by
  intro f hf
  rw [h.frames] at hf
  obtain ⟨g, hg, rfl⟩ := List.mem_map.1 hf
  exact Nat.lt_of_lt_of_le (hm g hg) h.nextId

theorem still {exit : Exit β} (hexit : exit ≠ .abort) : Spoken m [] (exit, m) :=
  ⟨hexit, rfl, Nat.le_refl _, (List.map_id' _).symm⟩

/-- What is said in two actions is said one after the other. -/
theorem trans {x : Exit α × Machine} (h : Spoken m said (Exit.value b, m₁))
    (hx : Spoken m₁ more x) : Spoken m (said ++ more) x where
  ends := hx.ends
  current := hx.current.trans h.current
  nextId := Nat.le_trans h.nextId hx.nextId
  frames := by
    rw [hx.frames, h.frames, List.map_map]
    exact List.map_congr_left fun f _ => (f.hear_append said more).symm

/-- In a step that goes on with what another has brought, the sayings of
both follow each other. -/
theorem bind {x : Run β} {f : β → Run α} {after : β → Machine → Said} (h : Spoken m said (x m))
    (hm : m.scopes.Numbered)
    (hf : ∀ b m₁, m₁.scopes.Numbered → Spoken m₁ (after b m₁) (f b m₁)) :
    Spoken m (said ++ afterwards (x m) after) ((x >>= f) m) := by
  rcases hx : x m with ⟨exit, m₁⟩
  rw [hx] at h
  cases exit with
  | value b =>
      rw [Action.bind_of_value hx]
      exact h.trans (hf b m₁ (h.numbered hm))
  | unwind =>
      rw [Action.bind_of_unwind hx, afterwards_unwind, List.append_nil]
      exact ⟨nofun, h.current, h.nextId, h.frames⟩
  | abort => exact absurd rfl h.ends

/-- What an operation that was open before hears afterwards. -/
theorem of_afterwards {x : Exit β × Machine} {after : β → Machine → Said}
    {own : β → Machine → List Saying} {P : Prop} [Decidable P] {j : Id} (h : Spoken m said x)
    (hm : m.scopes.Numbered) (hj : j < m.scopes.nextId)
    (hafter : ∀ b m₁, m₁.scopes.Numbered → j < m₁.scopes.nextId →
      (after b m₁).of j = if P then own b m₁ else []) :
    Said.of (afterwards x after) j = if P then afterwards x own else [] := by
  rcases x with ⟨exit, m₁⟩
  cases exit with
  | value b => exact hafter b m₁ (h.numbered hm) (Nat.lt_of_lt_of_le hj h.nextId)
  | unwind => exact (ite_self _).symm
  | abort => exact (ite_self _).symm

end Spoken

-- =============================================================== steps

section

variable {m : Machine}

/-- What is said of an operation changes the contexts of its frames, and
nothing else of the scopes. -/
theorem Saying.spoken (id : Id) (s : Saying) (m : Machine) : Spoken m [(id, s)] (s.run id m) := by
  obtain ⟨m₁, hrun, hscopes⟩ := s.run_eq id m
  rw [hrun]
  refine ⟨nofun, ?_, ?_, ?_⟩
  · rw [hscopes]
    rfl
  · rw [hscopes]
    exact Nat.le_refl _
  · rw [hscopes]
    exact updateContext_frames _ _ _

theorem spoken_of_keepsScopes {x : Run β} (hx : Run.KeepsScopes x) (hends : (x m).1 ≠ .abort)
    (hm : m.scopes.Numbered) : Spoken m [] (x m) := by
  obtain ⟨hcurrent, hframes, hnext⟩ := hx m hm hends
  exact ⟨hends, hcurrent, hnext, hframes.trans (List.map_id' _).symm⟩

/-- Runs a step and stops its unwinding if it is caught; `none` says that
there was one. -/
def catchingIf (caught : Bool) (x : Run β) : Run (Option β) :=
  if caught then x.catching else some <$> x

/-- An action that returns is not caught; -/
theorem catchingIf_of_value {x : Run β} {b : β} {m' : Machine} (caught : Bool)
    (h : x m = (.value b, m')) : catchingIf caught x m = (.value (some b), m') := by
  cases caught with
  | true => rw [catchingIf, if_pos rfl, Action.catching, h]
  | false => rw [catchingIf, if_neg Bool.false_ne_true, Action.run_map, h]

/-- a panic is, if it is to be. -/
theorem catchingIf_of_unwind {x : Run β} {m' : Machine} (caught : Bool)
    (h : x m = (.unwind, m')) :
    catchingIf caught x m = (if caught then .value none else .unwind, m') := by
  cases caught with
  | true => rw [catchingIf, if_pos rfl, Action.catching, h, if_pos rfl]
  | false =>
      rw [catchingIf, if_neg Bool.false_ne_true, Action.run_map, h, if_neg Bool.false_ne_true]

/-- To catch a panic does not change what has been said until then. -/
theorem catchingIf_spoken {said : Said} {x : Run β} (caught : Bool)
    (h : Spoken m said (x m)) : Spoken m said (catchingIf caught x m) := by
  rcases hx : x m with ⟨exit, m₁⟩
  rw [hx] at h
  cases exit with
  | value b =>
      rw [catchingIf_of_value caught hx]
      exact ⟨nofun, h.current, h.nextId, h.frames⟩
  | unwind =>
      rw [catchingIf_of_unwind caught hx]
      refine ⟨?_, h.current, h.nextId, h.frames⟩
      cases caught with
      | true => exact nofun
      | false => exact nofun
  | abort => exact absurd rfl h.ends

end

end TracedTransfer.Operation
