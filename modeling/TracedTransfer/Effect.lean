/-
Steps of a program that change a state and may leave early. A step ends
with a value, unwinds through the steps around it, or aborts the whole
program; failures that programs handle are ordinary values.

The state that a step leaves behind is kept however it ends, so whoever
stops an unwinding sees everything that was done before.
-/
namespace TracedTransfer

/-- How a step ends. -/
inductive Exit (α : Type) where
  | value (a : α)
  /-- The steps around it end too, up to one that stops the unwinding. -/
  | unwind
  /-- The program ends. -/
  | abort
deriving DecidableEq, Repr

/-- A step on a state. -/
def Action (σ α : Type) : Type := σ → Exit α × σ

namespace Action

variable {σ α β : Type}

/-- A step that changes nothing. -/
def pure (a : α) : Action σ α := fun s => (.value a, s)

/-- One step after another. -/
def bind (x : Action σ α) (f : α → Action σ β) : Action σ β := fun s =>
  match x s with
  | (.value a, s) => f a s
  | (.unwind, s) => (.unwind, s)
  | (.abort, s) => (.abort, s)

instance : Monad (Action σ) where
  pure := Action.pure
  bind := Action.bind

theorem map_id_eq (x : Action σ α) : id <$> x = x := by
  funext s
  show Action.bind x Action.pure s = x s
  simp only [Action.bind]
  split <;> simp_all [Action.pure]

theorem bind_bind {γ : Type} (x : Action σ α) (f : α → Action σ β) (g : β → Action σ γ) :
    (x >>= f) >>= g = x >>= fun a => f a >>= g := by
  funext s
  show Action.bind (Action.bind x f) g s = Action.bind x (fun a => Action.bind (f a) g) s
  simp only [Action.bind]
  rcases x s with ⟨_ | _ | _, t⟩ <;> rfl

instance : LawfulMonad (Action σ) :=
  LawfulMonad.mk' _ map_id_eq (fun _ _ => rfl) bind_bind

theorem pure_run (a : α) (s : σ) : (Pure.pure a : Action σ α) s = (.value a, s) := rfl

theorem bind_of_value {x : Action σ α} {f : α → Action σ β} {s t : σ} {a : α}
    (h : x s = (.value a, t)) : (x >>= f) s = f a t := by
  show Action.bind x f s = f a t
  rw [Action.bind, h]

theorem bind_of_unwind {x : Action σ α} {f : α → Action σ β} {s t : σ}
    (h : x s = (.unwind, t)) : (x >>= f) s = (.unwind, t) := by
  show Action.bind x f s = (.unwind, t)
  rw [Action.bind, h]

theorem bind_of_abort {x : Action σ α} {f : α → Action σ β} {s t : σ}
    (h : x s = (.abort, t)) : (x >>= f) s = (.abort, t) := by
  show Action.bind x f s = (.abort, t)
  rw [Action.bind, h]

/-- A function of the state. -/
def gets (f : σ → α) : Action σ α := fun s => (.value (f s), s)

/-- Changes the state. -/
def modify (f : σ → σ) : Action σ Unit := fun s => (.value (), f s)

/-- Leaves the steps around it. -/
def panic : Action σ α := fun s => (.unwind, s)

/-- Stops an unwinding; `none` says that there was one. -/
def catching (x : Action σ α) : Action σ (Option α) := fun s =>
  match x s with
  | (.value a, s) => (.value (some a), s)
  | (.unwind, s) => (.value none, s)
  | (.abort, s) => (.abort, s)

end Action

end TracedTransfer
