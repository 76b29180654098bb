/-
Notices that do not reach every listener.

A runner passes a notice to its listeners in order, so a listener that
panics keeps it from those behind it. A tiding is a notice together with
how far it got: the number of listeners that it was passed to, and
whether the last of these panicked. Listeners are told apart by their
places, since what one of them has heard depends on who stands before it.

The listeners here are contained: whether they panic or not, they leave
open scopes as they are and do not end the whole program.

- `tell_contained`: telling contained listeners returns or unwinds, and
  open scopes stay.
- `recall_tiding`: the memory of the listener at a place takes in a
  notice exactly if the notice got as far as that place.
- `tiding_cut_cases`: a notice that was cut got to the listener that
  panicked, and no further.
-/
import TracedTransfer.Proofs.Operation.Bracket

namespace TracedTransfer.Operation

-- ========================================================== listeners

/-- A listener that leaves open scopes as they are and does not end the
program. It may panic. -/
def Listener.Contained (l : Listener) : Prop :=
  ∀ n m, (l.hear n m).1 ≠ .abort ∧ m.scopes.Keeps (l.hear n m).2.scopes

/-- A runner of contained listeners. -/
def Runner.Contained (r : Runner) : Prop := ∀ l ∈ r, l.Contained

/-- A listener that never panics does no harm by panics. -/
theorem Listener.Calm.contained {l : Listener} (h : l.Calm) : l.Contained := by
  intro n m
  obtain ⟨hv, hk⟩ := h n m
  refine ⟨?_, hk⟩
  rw [hv]
  nofun

theorem Runner.Contained.tail {l : Listener} {r : Runner}
    (h : Runner.Contained (l :: r)) : r.Contained :=
  fun x hx => h x (List.mem_cons_of_mem _ hx)

/-- A listener that does not panic when an operation finishes. -/
def Listener.ClosesCalmly (l : Listener) : Prop :=
  ∀ record m, (l.finished record m).1 = .value ()

/-- A listener passes a notice on, or panics. -/
theorem Listener.Contained.cases {l : Listener} (h : l.Contained) (n : Notice)
    (m : Machine) :
    l.hear n m = (.value (), (l.hear n m).2) ∨ l.hear n m = (.unwind, (l.hear n m).2) := by
  have ha := (h n m).1
  rcases hl : l.hear n m with ⟨exit, m'⟩
  rw [hl] at ha
  cases exit with
  | value a => exact .inl rfl
  | unwind => exact .inr rfl
  | abort => exact absurd rfl ha

namespace Listener

/-- A listener that panics at starts leaves the machine as it is then, -/
theorem panicOnStart_contained : panicOnStart.Contained := by
  intro n m
  cases n with
  | started i p d => exact ⟨nofun, .refl _⟩
  | finished r => exact ⟨nofun, .refl _⟩

/-- and so does one that panics at finishes. -/
theorem panicOnFinish_contained : panicOnFinish.Contained := by
  intro n m
  cases n with
  | started i p d => exact ⟨nofun, .refl _⟩
  | finished r => exact ⟨nofun, .refl _⟩

theorem Calm.closesCalmly {l : Listener} (h : l.Calm) : l.ClosesCalmly :=
  fun record m => (h (.finished record) m).1

end Listener

-- ============================================================ telling

/-- A listener that panics keeps the notice from those behind it. -/
theorem Runner.tell_of_unwind {l : Listener} {r : Runner} {n : Notice} {m m' : Machine}
    (h : l.hear n m = (.unwind, m')) : Runner.tell n (l :: r) m = (.unwind, m') :=
  Action.bind_of_unwind h

theorem Runner.tell_of_value {l : Listener} {r : Runner} {n : Notice} {m m' : Machine}
    (h : l.hear n m = (.value (), m')) : Runner.tell n (l :: r) m = r.tell n m' :=
  Action.bind_of_value h

/-- Telling contained listeners returns or unwinds, and open scopes stay. -/
theorem Runner.tell_contained {r : Runner} (hr : r.Contained) (n : Notice) (m : Machine) :
    (r.tell n m).1 ≠ .abort ∧ m.scopes.Keeps (r.tell n m).2.scopes := by
  induction r generalizing m with
  | nil => exact ⟨nofun, .refl _⟩
  | cons l rest ih =>
      have hl := hr l (List.mem_cons_self ..)
      rcases hl.cases n m with h | h
      · rw [Runner.tell_of_value h]
        obtain ⟨ha, hk⟩ := ih hr.tail (l.hear n m).2
        exact ⟨ha, (hl n m).2.trans hk⟩
      · rw [Runner.tell_of_unwind h]
        exact ⟨nofun, (hl n m).2⟩

-- ============================================================ tidings

/-- A notice, and how far it got. -/
structure Tiding where
  notice : Notice
  /-- How many listeners it was passed to. -/
  reached : Nat
  /-- Whether the last of these panicked. -/
  cut : Bool

/-- How many listeners a notice is passed to. -/
def Runner.reach (n : Notice) : Runner → Machine → Nat
  | [], _ => 0
  | l :: rest, m =>
    match l.hear n m with
    | (.value (), m') => Runner.reach n rest m' + 1
    | _ => 1

/-- What becomes of a notice that a runner tells. -/
def Runner.tiding (r : Runner) (n : Notice) (m : Machine) : Tiding where
  notice := n
  reached := r.reach n m
  cut := (r.tell n m).1 ≠ .value ()

theorem Runner.reach_of_value {l : Listener} {r : Runner} {n : Notice} {m m' : Machine}
    (h : l.hear n m = (.value (), m')) : Runner.reach n (l :: r) m = r.reach n m' + 1 := by
  rw [Runner.reach, h]

theorem Runner.reach_of_unwind {l : Listener} {r : Runner} {n : Notice} {m m' : Machine}
    (h : l.hear n m = (.unwind, m')) : Runner.reach n (l :: r) m = 1 := by
  rw [Runner.reach, h]

theorem Runner.cut_of_value {r : Runner} {n : Notice} {m m' : Machine}
    (h : r.tell n m = (.value (), m')) : (r.tiding n m).cut = false := by
  rw [Runner.tiding, h]
  rfl

theorem Runner.cut_of_unwind {r : Runner} {n : Notice} {m m' : Machine}
    (h : r.tell n m = (.unwind, m')) : (r.tiding n m).cut = true := by
  rw [Runner.tiding, h]
  rfl

/-- Telling contained listeners returns exactly if the notice was not
cut, and unwinds otherwise. -/
theorem Runner.tell_cases {r : Runner} (hr : r.Contained) (n : Notice) (m : Machine) :
    r.tell n m = (.value (), (r.tell n m).2) ∧ (r.tiding n m).cut = false
      ∨ r.tell n m = (.unwind, (r.tell n m).2) ∧ (r.tiding n m).cut = true := by
  have ha := (Runner.tell_contained hr n m).1
  rcases ht : r.tell n m with ⟨exit, m'⟩
  rw [ht] at ha
  cases exit with
  | value a => exact .inl ⟨rfl, Runner.cut_of_value ht⟩
  | unwind => exact .inr ⟨rfl, Runner.cut_of_unwind ht⟩
  | abort => exact absurd rfl ha

/-- A notice that was not cut got to every listener. -/
theorem Runner.reach_of_not_cut {r : Runner} {n : Notice} {m m' : Machine}
    (h : r.tell n m = (.value (), m')) : r.reach n m = r.length := by
  induction r generalizing m with
  | nil => rfl
  | cons l rest ih =>
      rcases hl : l.hear n m with ⟨exit, m₁⟩
      cases exit with
      | value a =>
          rw [Runner.tell_of_value hl] at h
          rw [Runner.reach_of_value hl, ih h, List.length_cons]
      | unwind =>
          rw [Runner.tell_of_unwind hl] at h
          cases h
      | abort =>
          rw [show Runner.tell n (l :: rest) m = (.abort, m₁) from
            Action.bind_of_abort hl] at h
          cases h

/-- A notice that was cut got to the listener that panicked, and no
further. -/
theorem Runner.tiding_cut_cases {r : Runner} {n : Notice} {m m' : Machine}
    (h : r.tell n m = (.unwind, m')) :
    ∃ before l after m₁, r = before ++ l :: after ∧ (l.hear n m₁).1 = .unwind
      ∧ r.reach n m = before.length + 1 := by
  induction r generalizing m with
  | nil => cases h
  | cons l rest ih =>
      rcases hl : l.hear n m with ⟨exit, m₁⟩
      cases exit with
      | value a =>
          rw [Runner.tell_of_value hl] at h
          obtain ⟨before, x, after, m₂, rfl, hx, hreach⟩ := ih h
          refine ⟨l :: before, x, after, m₂, rfl, hx, ?_⟩
          rw [Runner.reach_of_value hl, hreach, List.length_cons]
      | unwind =>
          refine ⟨[], l, rest, m, rfl, ?_, Runner.reach_of_unwind hl⟩
          rw [hl]
      | abort =>
          rw [show Runner.tell n (l :: rest) m = (.abort, m₁) from
            Action.bind_of_abort hl] at h
          cases h

-- =========================================================== memories

variable {β : Type}

/-- The memory of the listener at a place of a runner: that listener
keeps every notice in it that it is passed, and everything else leaves it
alone. -/
structure Runner.ServesAt (r : Runner) (j : Nat) (k : Memory β) : Prop where
  /-- Nothing but listeners changes what is kept, -/
  apart : Private k.kept
  /-- and among those only the one at this place. -/
  place : ∃ before l after, r = before ++ l :: after ∧ before.length = j ∧ l.Keeps k
    ∧ (∀ x ∈ before, x.Leaves k.kept) ∧ ∀ x ∈ after, x.Leaves k.kept

theorem Runner.ServesAt.lt_length {r : Runner} {j : Nat} {k : Memory β}
    (h : r.ServesAt j k) : j < r.length := by
  obtain ⟨before, l, after, rfl, rfl, -⟩ := h.place
  rw [List.length_append, List.length_cons]
  omega

/-- What no listener touches, telling leaves as it was, however it ends. -/
theorem Runner.view_tell_contained {r : Runner} {view : Machine → β} (hr : r.Contained)
    (hv : ∀ l ∈ r, l.Leaves view) (n : Notice) (m : Machine) :
    view (r.tell n m).2 = view m := by
  induction r generalizing m with
  | nil => rfl
  | cons l rest ih =>
      have hl := hv l (List.mem_cons_self ..) n m
      rcases (hr l (List.mem_cons_self ..)).cases n m with h | h
      · rw [Runner.tell_of_value h,
          ih hr.tail (fun x hx => hv x (List.mem_cons_of_mem _ hx))]
        exact hl
      · rw [Runner.tell_of_unwind h]
        exact hl

/-- The listener at a place is passed a notice exactly if the notice got
that far. -/
theorem Runner.recall_tiding {r : Runner} {j : Nat} {k : Memory β} (hr : r.Contained)
    (hk : r.ServesAt j k) (n : Notice) (m : Machine) :
    k.kept (r.tell n m).2
      = if j < r.reach n m then k.note (k.kept m) n else k.kept m := by
  obtain ⟨before, l, after, rfl, hj, hl, hb, ha⟩ := hk.place
  clear hk
  induction before generalizing m j with
  | nil =>
      subst hj
      rw [List.nil_append] at hr ⊢
      rcases (hr l (List.mem_cons_self ..)).cases n m with h | h
      · rw [Runner.tell_of_value h, Runner.reach_of_value h,
          Runner.view_tell_contained hr.tail ha, if_pos (by exact Nat.succ_pos _)]
        exact hl n m
      · rw [Runner.tell_of_unwind h, Runner.reach_of_unwind h, if_pos (by exact Nat.one_pos)]
        exact hl n m
  | cons x before ih =>
      have hx := hb x (List.mem_cons_self ..) n m
      rw [List.cons_append] at hr ⊢
      subst hj
      rw [List.length_cons]
      rcases (hr x (List.mem_cons_self ..)).cases n m with h | h
      · rw [Runner.tell_of_value h, Runner.reach_of_value h,
          ih (x.hear n m).2 hr.tail rfl (fun y hy => hb y (List.mem_cons_of_mem _ hy)), hx]
        simp only [Nat.add_lt_add_iff_right]
      · rw [Runner.tell_of_unwind h, Runner.reach_of_unwind h, if_neg (by omega)]
        exact hx

-- ============================================================ hearing

/-- The notices of tidings, however far they got. -/
def notices (ts : List Tiding) : List Notice := ts.map Tiding.notice

@[simp] theorem notices_cons (t : Tiding) (ts : List Tiding) :
    notices (t :: ts) = t.notice :: notices ts := rfl

@[simp] theorem notices_append (ts us : List Tiding) :
    notices (ts ++ us) = notices ts ++ notices us := List.map_append

/-- What the listener at a place hears of tidings. -/
def heardAt (j : Nat) (ts : List Tiding) : List Notice :=
  notices (ts.filter fun t => j < t.reached)

@[simp] theorem heardAt_append (j : Nat) (ts us : List Tiding) :
    heardAt j (ts ++ us) = heardAt j ts ++ heardAt j us := by
  unfold heardAt
  rw [List.filter_append, notices_append]

/-- A listener has heard what reached beyond its place, -/
theorem heardAt_cons_of_lt {j : Nat} {t : Tiding} (h : j < t.reached) (ts : List Tiding) :
    heardAt j (t :: ts) = t.notice :: heardAt j ts := by
  unfold heardAt
  rw [List.filter_cons_of_pos (by exact decide_eq_true h)]
  rfl

/-- and nothing of what did not. -/
theorem heardAt_cons_of_not_lt {j : Nat} {t : Tiding} (h : ¬ j < t.reached)
    (ts : List Tiding) : heardAt j (t :: ts) = heardAt j ts := by
  unfold heardAt
  rw [List.filter_cons_of_neg (by simpa using h)]

/-- A memory takes in what its listener hears. -/
theorem Runner.recall_heard {r : Runner} {j : Nat} {k : Memory β} (hr : r.Contained)
    (hk : r.ServesAt j k) (n : Notice) (m : Machine) :
    k.kept (r.tell n m).2 = (heardAt j [r.tiding n m]).foldl k.note (k.kept m) := by
  rw [Runner.recall_tiding hr hk]
  by_cases h : j < (r.tiding n m).reached
  · rw [heardAt_cons_of_lt h]
    exact if_pos h
  · rw [heardAt_cons_of_not_lt h]
    exact if_neg h

/-- The tidings of one operation. -/
def tidingsOf (i : Id) (ts : List Tiding) : List Tiding := ts.filter fun t => t.notice.id = i

@[simp] theorem tidingsOf_append (i : Id) (ts us : List Tiding) :
    tidingsOf i (ts ++ us) = tidingsOf i ts ++ tidingsOf i us := List.filter_append _ _

theorem tidingsOf_cons_self {i : Id} {t : Tiding} (h : t.notice.id = i) (ts : List Tiding) :
    tidingsOf i (t :: ts) = t :: tidingsOf i ts :=
  List.filter_cons_of_pos (decide_eq_true h)

theorem tidingsOf_cons_ne {i : Id} {t : Tiding} (h : t.notice.id ≠ i) (ts : List Tiding) :
    tidingsOf i (t :: ts) = tidingsOf i ts :=
  List.filter_cons_of_neg (by rw [decide_eq_true_eq]; exact h)

/-- What a listener hears of an operation are the tidings of that
operation which got to it. -/
theorem noticesOf_heardAt (i : Id) (j : Nat) (ts : List Tiding) :
    noticesOf i (heardAt j ts) = heardAt j (tidingsOf i ts) := by
  unfold noticesOf heardAt tidingsOf notices
  rw [List.filter_map, List.filter_filter, List.filter_filter]
  refine congrArg _ (List.filter_congr fun t _ => ?_)
  exact Bool.and_comm _ _

end TracedTransfer.Operation
