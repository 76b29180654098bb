/-
Bracketed sequences of notices.

`Replay` reads a sequence with a stack of the operations that are open:
a start names the top of the stack as its parent and goes on top, and a
finish closes the top, with the number, parent and descriptor of its
start. A sequence is well bracketed if it can be read from the empty
stack to the empty stack and its operations start in the order of their
numbers.

What follows of a sequence that can be read:

- `Replay.pair`: from a stack to the empty one, the notices of each
  operation are its start and its finish and nothing else, where what is
  on the stack at first has its finish alone;
- `Replay.recording`: what a recording shows as open is the stack, the
  outermost operation first.
-/
import Mathlib.Data.List.Nodup
import TracedTransfer.Proofs.Operation.Notice

namespace TracedTransfer.Operation

/-- An operation that has started and not finished. -/
structure Opened where
  id : Id
  parent : Option Id
  descriptor : Descriptor

/-- The record is that of a start. -/
structure Record.Closes (record : Record) (i : Id) (parent : Option Id)
    (d : Descriptor) : Prop where
  /-- It has the number of the operation, -/
  id : record.id = i
  /-- the one around it -/
  parent : record.parent = parent
  /-- and what it was described as. -/
  descriptor : record.descriptor = d

/-- The innermost of the operations that are open. -/
def innermost (stack : List Opened) : Option Id := stack.head?.map Opened.id

/-- Reads notices with a stack of the operations that are open, the
innermost first. -/
inductive Replay : List Opened → List Notice → List Opened → Prop where
  /-- Nothing is read. -/
  | nil {stack : List Opened} : Replay stack [] stack
  /-- A start goes on the stack, inside what is on top. -/
  | started {stack stack' : List Opened} {o : Opened} {es : List Notice}
      (parent : o.parent = innermost stack) :
      Replay (o :: stack) es stack' →
      Replay stack (.started o.id o.parent o.descriptor :: es) stack'
  /-- A record takes away what is on top, and closes that. -/
  | finished {stack stack' : List Opened} {o : Opened} {r : Record}
      {es : List Notice} (closes : r.Closes o.id o.parent o.descriptor) :
      Replay stack es stack' → Replay (o :: stack) (.finished r :: es) stack'

/-- Notices that can be read with one stack after another can be read in one
go. -/
theorem Replay.append {s t u : List Opened} {es fs : List Notice}
    (h : Replay s es t) (h' : Replay t fs u) : Replay s (es ++ fs) u := by
  induction h with
  | nil => exact h'
  | started hp _ ih => exact .started hp (ih h')
  | finished hc _ ih => exact .finished hc (ih h')

/-- A sequence of notices in which every operation starts inside the one
it names as its parent and finishes last of all that started after it. -/
structure WellBracketed (es : List Notice) : Prop where
  /-- Starts and records nest, from nothing open to nothing open, -/
  nested : Replay [] es []
  /-- and each operation has a number of its own. -/
  increasing : (startedIds es).Pairwise (· < ·)

-- ============================================================== pairs

/-- The notices of one operation. -/
def noticesOf (i : Id) (es : List Notice) : List Notice :=
  es.filter fun n => n.id = i

theorem noticesOf_started_self (i : Id) (p : Option Id) (d : Descriptor)
    (es : List Notice) :
    noticesOf i (.started i p d :: es) = .started i p d :: noticesOf i es := by
  exact List.filter_cons_of_pos (decide_eq_true rfl)

theorem noticesOf_started_ne {i j : Id} (h : j ≠ i) (p : Option Id)
    (d : Descriptor) (es : List Notice) :
    noticesOf i (.started j p d :: es) = noticesOf i es := by
  exact List.filter_cons_of_neg (by rw [decide_eq_true_eq]; exact h)

theorem noticesOf_finished_self {i : Id} {r : Record} (h : r.id = i)
    (es : List Notice) :
    noticesOf i (.finished r :: es) = .finished r :: noticesOf i es := by
  exact List.filter_cons_of_pos (decide_eq_true h)

theorem noticesOf_finished_ne {i : Id} {r : Record} (h : r.id ≠ i)
    (es : List Notice) :
    noticesOf i (.finished r :: es) = noticesOf i es := by
  exact List.filter_cons_of_neg (by rw [decide_eq_true_eq]; exact h)

/-- What there is to hear of an operation on the way to the empty stack:
nothing if it neither is open nor starts, its finish if it is open, and
its start and its finish if it starts. -/
structure Paired (stack : List Opened) (es : List Notice) : Prop where
  /-- Of an operation that neither was open nor starts nothing is told. -/
  strange : ∀ i, i ∉ stack.map Opened.id → i ∉ startedIds es →
    noticesOf i es = []
  /-- One that was open has its record, -/
  open_ : ∀ o ∈ stack, ∃ r, noticesOf o.id es = [.finished r]
    ∧ r.Closes o.id o.parent o.descriptor
  /-- and one that starts has a start and a record. -/
  starting : ∀ i ∈ startedIds es, ∃ p d r,
    noticesOf i es = [.started i p d, .finished r] ∧ r.Closes i p d

/-- An operation that starts is open for the rest. -/
theorem Paired.started {stack : List Opened} {o : Opened} {es : List Notice}
    (h : Paired (o :: stack) es) (ho : o.id ∉ stack.map Opened.id ++ startedIds es) :
    Paired stack (.started o.id o.parent o.descriptor :: es) := by
  rw [List.mem_append, not_or] at ho
  constructor
  · intro i hs he
    rw [startedIds_started, List.mem_cons, not_or] at he
    rw [noticesOf_started_ne (Ne.symm he.1)]
    refine h.strange i ?_ he.2
    rw [List.map_cons, List.mem_cons, not_or]
    exact ⟨he.1, hs⟩
  · intro q hq
    have hne : o.id ≠ q.id := by
      intro heq
      rw [heq] at ho
      exact ho.1 (List.mem_map_of_mem hq)
    rw [noticesOf_started_ne hne]
    exact h.open_ q (List.mem_cons_of_mem _ hq)
  · intro i hi
    rw [startedIds_started] at hi
    -- The scope that starts is the one that was open; its record is there already.
    rcases List.mem_cons.1 hi with rfl | hi
    · obtain ⟨r, hr, hc⟩ := h.open_ o (List.mem_cons_self ..)
      refine ⟨o.parent, o.descriptor, r, ?_, hc⟩
      rw [noticesOf_started_self, hr]
    · have hne : o.id ≠ i := by
        rintro rfl
        exact ho.2 hi
      rw [noticesOf_started_ne hne]
      exact h.starting i hi

/-- An operation that finishes is not heard of again. -/
theorem Paired.finished {stack : List Opened} {o : Opened} {r : Record}
    {es : List Notice} (h : Paired stack es) (hc : r.Closes o.id o.parent o.descriptor)
    (ho : o.id ∉ stack.map Opened.id ++ startedIds es) :
    Paired (o :: stack) (.finished r :: es) := by
  rw [List.mem_append, not_or] at ho
  constructor
  · intro i hs he
    rw [List.map_cons, List.mem_cons, not_or] at hs
    rw [startedIds_finished] at he
    rw [noticesOf_finished_ne (fun h => hs.1 (h.symm.trans hc.id))]
    exact h.strange i hs.2 he
  · intro q hq
    rcases List.mem_cons.1 hq with rfl | hq
    · refine ⟨r, ?_, hc⟩
      rw [noticesOf_finished_self hc.id, h.strange q.id ho.1 ho.2]
    · have hne : r.id ≠ q.id := by
        intro heq
        rw [← hc.id, heq] at ho
        exact ho.1 (List.mem_map_of_mem hq)
      rw [noticesOf_finished_ne hne]
      exact h.open_ q hq
  · intro i hi
    rw [startedIds_finished] at hi
    have hne : r.id ≠ i := by
      rintro rfl
      rw [hc.id] at hi
      exact ho.2 hi
    rw [noticesOf_finished_ne hne]
    exact h.starting i hi

/-- Every operation has its start and its finish, if no number is used
twice. The induction follows the reading, so the stack is arbitrary. -/
theorem Replay.paired {stack stack' : List Opened} {es : List Notice}
    (h : Replay stack es stack') (hend : stack' = [])
    (hnd : (stack.map Opened.id ++ startedIds es).Nodup) :
    Paired stack es := by
  induction h with
  | nil =>
      subst hend
      exact ⟨fun _ _ _ => rfl, fun o ho => (List.not_mem_nil ho).elim,
        fun i hi => (List.not_mem_nil hi).elim⟩
  | @started stack stack' o es hp _ ih =>
      rw [startedIds_started] at hnd
      have hnd' : ((o :: stack).map Opened.id ++ startedIds es).Nodup := by
        rw [List.map_cons, List.cons_append]
        exact (List.nodup_middle.1 hnd)
      exact (ih hend hnd').started (List.nodup_cons.1 hnd').1
  | @finished stack stack' o r es hc _ ih =>
      rw [startedIds_finished, List.map_cons, List.cons_append] at hnd
      obtain ⟨ho, hnd'⟩ := List.nodup_cons.1 hnd
      exact (ih hend hnd').finished hc ho

/-- The notices of an operation of a well-bracketed sequence are its
start and its finish. -/
theorem WellBracketed.pair {es : List Notice} (h : WellBracketed es) {i : Id}
    (hi : i ∈ startedIds es) : ∃ p d r,
    noticesOf i es = [.started i p d, .finished r] ∧ r.Closes i p d := by
  have hnd : (startedIds es).Nodup := h.increasing.imp fun hlt => Nat.ne_of_lt hlt
  exact (h.nested.paired rfl (by simpa using hnd)).starting i hi

-- ========================================================= recordings

/-- A recording that has heard of each operation once, of starts before
finishes, and of none that is numbered from `next` on. -/
structure Recording.Sound (r : Recording) (next : Id) : Prop where
  /-- No operation starts twice, -/
  nodup : r.started.Nodup
  /-- each record is of one that has started, -/
  known : ∀ rec ∈ r.records, rec.id ∈ r.started
  /-- and all have numbers that were given. -/
  earlier : ∀ i ∈ r.started, i < next

theorem Recording.empty_sound (next : Id) : Recording.empty.Sound next :=
  ⟨List.nodup_nil, fun _ h => (List.not_mem_nil h).elim,
    fun _ h => (List.not_mem_nil h).elim⟩

theorem Recording.open_sublist (r : Recording) : r.open_.Sublist r.started :=
  List.filter_sublist

/-- A start of a new operation puts it at the end of the open ones. -/
theorem Recording.open_started {r : Recording} {next i : Id} (h : r.Sound next)
    (hi : next ≤ i) (p : Option Id) (d : Descriptor) :
    (r.note (.started i p d)).open_ = r.open_ ++ [i] := by
  have hnew : (r.records.any (·.id = i)) = false := by
    rw [List.any_eq_false]
    intro rec hrec heq
    have hid : rec.id = i := by simpa using heq
    exact Nat.not_lt.2 hi (hid ▸ h.earlier _ (h.known rec hrec))
  show (r.started ++ [i]).filter (fun j => !r.records.any (·.id = j)) = _
  rw [List.filter_append, List.filter_cons_of_pos (by rw [hnew]; rfl)]
  rfl

/-- A finish takes its operation out of the open ones. -/
theorem Recording.open_finished (r : Recording) (rec : Record) :
    (r.note (.finished rec)).open_ = r.open_.filter fun i => i ≠ rec.id := by
  unfold Recording.open_ Recording.note
  rw [List.filter_filter]
  refine List.filter_congr fun i _ => ?_
  rw [List.any_append, Bool.not_or, Bool.and_comm]
  congr 1
  simp [eq_comm]

/-- A start with a number that is still free keeps a recording sound. -/
theorem Recording.Sound.started {r : Recording} {next i : Id} (h : r.Sound next)
    (hi : next ≤ i) (p : Option Id) (d : Descriptor) :
    (r.note (.started i p d)).Sound (i + 1) := by
  have hnew : i ∉ r.started := fun hmem => Nat.not_lt.2 hi (h.earlier i hmem)
  constructor
  · show (r.started ++ [i]).Nodup
    rw [List.nodup_append]
    refine ⟨h.nodup, List.nodup_singleton i, ?_⟩
    intro a ha b hb
    rw [List.mem_singleton] at hb
    rw [hb]
    exact fun heq => hnew (heq ▸ ha)
  · intro rec hrec
    exact List.mem_append_left _ (h.known rec hrec)
  · intro j hj
    rcases List.mem_append.1 hj with hj | hj
    · exact Nat.lt_succ_of_le (Nat.le_of_lt (Nat.lt_of_lt_of_le (h.earlier j hj) hi))
    · rw [List.mem_singleton] at hj
      rw [hj]
      exact Nat.lt_succ_self i

/-- So does the record of an operation of which it has heard the start. -/
theorem Recording.Sound.finished {r : Recording} {next : Id} (h : r.Sound next)
    {rec : Record} (hrec : rec.id ∈ r.started) :
    (r.note (.finished rec)).Sound next := by
  refine ⟨h.nodup, ?_, h.earlier⟩
  intro rec' hrec'
  rcases List.mem_append.1 hrec' with hrec' | hrec'
  · exact h.known rec' hrec'
  · rw [List.mem_singleton] at hrec'
    rw [hrec']
    exact hrec

/-- What a recording shows as open while a sequence is read is the
stack, the outermost operation first. -/
theorem Replay.recording {stack stack' : List Opened} {es : List Notice}
    (h : Replay stack es stack') {r : Recording} {next : Id}
    (hr : r.Sound next) (hopen : r.open_ = (stack.map Opened.id).reverse)
    (hnext : ∀ i ∈ startedIds es, next ≤ i)
    (hinc : (startedIds es).Pairwise (· < ·)) :
    (es.foldl Recording.note r).open_ = (stack'.map Opened.id).reverse := by
  induction h generalizing r next with
  | nil => exact hopen
  | @started stack stack' o es hp _ ih =>
      rw [startedIds_started] at hnext hinc
      have ho := hnext o.id (List.mem_cons_self ..)
      refine ih (hr.started ho o.parent o.descriptor) ?_ ?_ (List.pairwise_cons.1 hinc).2
      · rw [Recording.open_started hr ho, hopen, List.map_cons,
          List.reverse_cons]
      · intro i hi
        exact (List.pairwise_cons.1 hinc).1 i hi
  | @finished stack stack' o rec es hc _ ih =>
      rw [List.map_cons, List.reverse_cons] at hopen
      -- What closes is on top of the stack, so it stands last among the open ones and nowhere
      -- else.
      have hmem : rec.id ∈ r.open_ := by
        rw [hopen, hc.id]
        exact List.mem_append_right _ (List.mem_singleton_self _)
      have hnd : r.open_.Nodup := r.open_sublist.nodup hr.nodup
      rw [hopen, List.nodup_append] at hnd
      refine ih (hr.finished (r.open_sublist.subset hmem)) ?_ hnext hinc
      rw [Recording.open_finished, hopen, List.filter_append, hc.id]
      rw [List.filter_eq_self.2, List.filter_singleton]
      · simp
      · intro i hi
        have := hnd.2.2 i hi o.id (List.mem_singleton_self _)
        simpa using this

end TracedTransfer.Operation
