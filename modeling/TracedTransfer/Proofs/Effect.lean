/-
Steps side by side.

Two steps go alike (`Action.Like`) under a relation of states if, from
states that are related, they end alike and leave states that are related.
For the values that they end with there is a relation of its own, so that
two steps can tell of different things; where it is equality the steps end
the same (`Action.like_eq_iff`).

Likeness passes through `pure` and `bind` here, once for all relations. In
front of it stands what single steps come to that others are made of.
-/
import TracedTransfer.Effect

namespace TracedTransfer

variable {α β : Type}

-- ================================================================ ends

/-- Ends that are alike: with values that are related, or without. -/
inductive Exit.Like (R : α → β → Prop) : Exit α → Exit β → Prop where
  /-- Both return, values that are related, -/
  | value {a : α} {b : β} (h : R a b) : Exit.Like R (.value a) (.value b)
  /-- both panic, -/
  | unwind : Exit.Like R .unwind .unwind
  /-- or both end the program. -/
  | abort : Exit.Like R .abort .abort

/-- With equality of values, exits that are alike are equal. -/
theorem Exit.like_eq_iff {x y : Exit α} : Exit.Like Eq x y ↔ x = y := by
  constructor
  · intro h
    cases h with
    | value h => rw [h]
    | unwind => rfl
    | abort => rfl
  · rintro rfl
    cases x with
    | value a => exact .value rfl
    | unwind => exact .unwind
    | abort => exact .abort

/-- Of two exits that are alike either both end the program or none. -/
theorem Exit.Like.abort_iff {R : α → β → Prop} {x : Exit α} {y : Exit β} (h : Exit.Like R x y) :
    x = .abort ↔ y = .abort := by
  cases h with
  | value h => exact iff_of_false nofun nofun
  | unwind => exact iff_of_false nofun nofun
  | abort => exact iff_of_true rfl rfl

-- =============================================================== steps

namespace Action

variable {σ τ α' β' : Type} {rel : σ → τ → Prop} {R : α → β → Prop}

theorem run_gets (f : σ → α) (s : σ) : gets f s = (.value (f s), s) := rfl

/-- What is made of the value of a step. -/
theorem run_map (f : α → β) (x : Action σ α) (s : σ) : (f <$> x) s
    = match x s with
      | (.value a, t) => (.value (f a), t)
      | (.unwind, t) => (.unwind, t)
      | (.abort, t) => (.abort, t) := by
  show Action.bind x (fun a => Action.pure (f a)) s = _
  unfold Action.bind
  rcases x s with ⟨a | _ | _, t⟩
  · rfl
  · rfl
  · rfl

/-- What a mapped action returns is made of what the action has returned. -/
theorem value_of_map {x : Action σ α} {f : α → β} {s t : σ} {b : β}
    (h : (f <$> x) s = (.value b, t)) : ∃ a, x s = (.value a, t) ∧ f a = b := by
  rw [run_map] at h
  rcases hx : x s with ⟨a | _ | _, t'⟩
  · rw [hx] at h
    cases h
    exact ⟨a, rfl, rfl⟩
  · rw [hx] at h
    cases h
  · rw [hx] at h
    cases h

/-- A step all of whose values have a property. -/
def Returns (P : α → Prop) (x : Action σ α) : Prop := ∀ s a t, x s = (.value a, t) → P a

theorem returns_true (x : Action σ α) : Returns (fun _ => True) x := fun _ _ _ _ => trivial

theorem returns_pure {P : α → Prop} {a : α} (h : P a) : Returns P (pure a : Action σ α) := by
  rintro s b t heq
  cases heq
  exact h

/-- What is known of the first value may be used of the second action. -/
theorem returns_bind {Q : α → Prop} {P : β → Prop} {x : Action σ α} {f : α → Action σ β}
    (hx : Returns Q x) (hf : ∀ a, Q a → Returns P (f a)) : Returns P (x >>= f) := by
  intro s b t h
  rcases hrun : x s with ⟨a | _ | _, s₁⟩
  · rw [bind_of_value hrun] at h
    exact hf a (hx s a s₁ hrun) s₁ b t h
  · rw [bind_of_unwind hrun] at h
    cases h
  · rw [bind_of_abort hrun] at h
    cases h

/-- Steps that go alike under a relation of states. -/
def Like (rel : σ → τ → Prop) (R : α → β → Prop) (x : Action σ α) (y : Action τ β) : Prop :=
  ∀ s t, rel s t → Exit.Like R (x s).1 (y t).1 ∧ rel (x s).2 (y t).2

/-- Steps that go alike under equality end the same. -/
theorem like_eq_iff {x : Action σ α} {y : Action τ α} :
    Like rel Eq x y ↔ ∀ s t, rel s t → (x s).1 = (y t).1 ∧ rel (x s).2 (y t).2 :=
  forall_congr' fun _ => forall_congr' fun _ => imp_congr_right fun _ =>
    and_congr_left' Exit.like_eq_iff

theorem like_pure {a : α} {b : β} (h : R a b) :
    Like rel R (pure a : Action σ α) (pure b : Action τ β) :=
  fun _ _ hrel => ⟨.value h, hrel⟩

/-- Actions that are alike may be followed by actions that are alike for
related values. -/
theorem like_bind {S : α' → β' → Prop} {x : Action σ α} {y : Action τ β} {f : α → Action σ α'}
    {g : β → Action τ β'} (h : Like rel R x y) (hf : ∀ a b, R a b → Like rel S (f a) (g b)) :
    Like rel S (x >>= f) (y >>= g) := by
  intro s t hrel
  obtain ⟨hexit, hleft⟩ := h s t hrel
  rcases hx : x s with ⟨exit, s₁⟩
  rcases hy : y t with ⟨exit', t₁⟩
  rw [hx, hy] at hexit hleft
  cases hexit with
  | value hr =>
      rw [bind_of_value hx, bind_of_value hy]
      exact hf _ _ hr s₁ t₁ hleft
  | unwind =>
      rw [bind_of_unwind hx, bind_of_unwind hy]
      exact ⟨.unwind, hleft⟩
  | abort =>
      rw [bind_of_abort hx, bind_of_abort hy]
      exact ⟨.abort, hleft⟩

/-- Steps that begin with the same value and go on alike. -/
theorem like_bind_eq {S : α' → β' → Prop} {x : Action σ α} {y : Action τ α}
    {f : α → Action σ α'} {g : α → Action τ β'} (h : Like rel Eq x y)
    (hf : ∀ a, Like rel S (f a) (g a)) : Like rel S (x >>= f) (y >>= g) := by
  refine like_bind h ?_
  rintro a _ rfl
  exact hf a

end Action

end TracedTransfer
