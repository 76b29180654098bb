/-
A listener that panics when an operation finishes keeps the record from
the listeners behind it.

One listener of a runner may panic at finishes here, and any at starts. A
finish then gets either to everyone or to the listeners up to that one
(`Runner.reach_of_finish`), in a single call with any body as well as in a
program. So the listeners before it, and it, hear one record of every
operation, and those behind it hear the records of the operations at which
it did not panic. A recording behind it shows the others as open for good
(`records_up_to_panic`); `recording_left_open` is the smallest such
program.

If the listener panics while a body unwinds, the program ends.
-/
import TracedTransfer.Proofs.Operation.Course
import TracedTransfer.Proofs.Operation.Telling

namespace TracedTransfer.Operation

variable {before after : Runner} {l : Listener}

-- ============================================================ finishes

/-- A finish gets to everyone, or to the listeners up to the one that may
panic. -/
theorem Runner.reach_of_finish (hr : Runner.Contained (before ++ l :: after))
    (hclose : ∀ x ∈ before ++ after, x.ClosesCalmly) (record : Record) (m : Machine) :
    (Runner.tiding (before ++ l :: after) (.finished record) m).reached
      = if (Runner.tiding (before ++ l :: after) (.finished record) m).cut then
          before.length + 1
        else (before ++ l :: after).length := by
  induction before generalizing m with
  | nil =>
      rw [List.nil_append] at hr hclose ⊢
      -- The listener is the first one. If it returns, those behind it do, too; if it panics,
      -- they hear nothing.
      rcases (hr l (List.mem_cons_self ..)).cases (.finished record) m with h | h
      · rcases Runner.tell_cases hr (.finished record) m with ⟨ht, hcut⟩ | ⟨ht, hcut⟩
        · rw [hcut]
          exact Runner.reach_of_not_cut ht
        · rw [Runner.tell_of_value h] at ht
          obtain ⟨before', x, after', m₁, rfl, hx, -⟩ := Runner.tiding_cut_cases ht
          have hmem : x ∈ before' ++ x :: after' :=
            List.mem_append_right _ (List.mem_cons_self ..)
          rw [show x.hear (.finished record) m₁ = x.finished record m₁ from rfl,
            hclose x hmem record m₁] at hx
          cases hx
      · rw [Runner.cut_of_unwind (Runner.tell_of_unwind h)]
        exact Runner.reach_of_unwind h
  | cons x before ih =>
      -- A listener in front returns and makes the notice reach one more.
      have hx : x.hear (.finished record) m = (.value (), (x.hear (.finished record) m).2) :=
        Prod.ext (hclose x (List.mem_cons_self ..) record m) rfl
      have hrest := ih (fun y hy => hr y (List.mem_cons_of_mem _ hy))
        (fun y hy => hclose y (List.mem_cons_of_mem _ hy)) (x.hear (.finished record) m).2
      have hcut : (Runner.tiding (x :: (before ++ l :: after)) (.finished record) m).cut
          = (Runner.tiding (before ++ l :: after) (.finished record)
            (x.hear (.finished record) m).2).cut := by
        simp only [Runner.tiding]
        rw [Runner.tell_of_value hx]
      show Runner.reach _ (x :: (before ++ l :: after)) m = _
      rw [Runner.reach_of_value hx, List.cons_append, hcut, List.length_cons, List.length_cons]
      refine (congrArg (· + 1) hrest).trans ?_
      split
      · rfl
      · rfl

/-- A listener hears a finish exactly if it does not stand behind one that
panics at it. -/
theorem Runner.hears_finish (hr : Runner.Contained (before ++ l :: after))
    (hclose : ∀ x ∈ before ++ after, x.ClosesCalmly) {j : Nat}
    (hj : j < (before ++ l :: after).length) {t : Tiding}
    (ht : ∃ m, t = Runner.tiding (before ++ l :: after) t.notice m) {record : Record}
    (hf : t.notice = .finished record) :
    j < t.reached ↔ (t.cut = true → j ≤ before.length) := by
  obtain ⟨m, hm⟩ := ht
  rw [hf] at hm
  have hreach := Runner.reach_of_finish hr hclose record m
  rw [← hm] at hreach
  rw [hreach]
  cases t.cut with
  | true => exact ⟨fun h _ => Nat.le_of_lt_succ h, fun h => Nat.lt_succ_of_le (h rfl)⟩
  | false => simpa using hj

-- ========================================================== recordings

/-- A recording that shows nothing as open shows, after it was told more,
the operations of which it heard the start and no finish. -/
theorem Recording.open_foldl {rec : Recording} {next : Id} (hopen : rec.open_ = [])
    (hsound : rec.Sound next) {es : List Notice} (hes : ∀ i ∈ startedIds es, next ≤ i) :
    (es.foldl Recording.note rec).open_
      = (startedIds es).filter fun i => !(finishedRecords es).any (·.id = i) := by
  have hold : rec.started.filter (fun i =>
      !(rec.records ++ finishedRecords es).any (·.id = i)) = [] := by
    unfold Recording.open_ at hopen
    rw [List.filter_eq_nil_iff] at hopen ⊢
    intro i hi
    have hany := hopen i hi
    simp only [Bool.not_eq_true', Bool.not_eq_false, List.any_append] at hany ⊢
    rw [hany, Bool.true_or]
  rw [Recording.foldl_note]
  unfold Recording.open_
  rw [List.filter_append, hold, List.nil_append]
  refine List.filter_congr fun i hi => ?_
  have hnew : rec.records.any (·.id = i) = false := by
    rw [List.any_eq_false]
    intro record hrecord heq
    have hid : record.id = i := by simpa using heq
    have hlt := hsound.earlier _ (hsound.known record hrecord)
    exact Nat.not_lt.2 (hes i hi) (hid ▸ hlt)
  rw [List.any_append, hnew, Bool.false_or]

/-- Whether the finish of an operation was kept from some listeners. -/
def finishCut (ts : List Tiding) (i : Id) : Bool :=
  (tidingsOf i ts).any fun t => t.cut && t.notice.record?.isSome

/-- A record of an operation is among all records if there is one among the
notices about it. -/
theorem any_finishedRecords (es : List Notice) (i : Id) :
    (finishedRecords es).any (·.id = i) = !(finishedRecords (noticesOf i es)).isEmpty := by
  induction es with
  | nil => rfl
  | cons n es ih =>
      cases n with
      | started i' p d =>
          rw [finishedRecords_started, ih]
          by_cases h : i' = i
          · subst h
            rw [noticesOf_started_self, finishedRecords_started]
          · rw [noticesOf_started_ne h]
      | finished record =>
          rw [finishedRecords_finished, List.any_cons, ih]
          by_cases h : record.id = i
          · rw [noticesOf_finished_self h, finishedRecords_finished, decide_eq_true h]
            rfl
          · rw [noticesOf_finished_ne h, decide_eq_false h]
            rfl

-- ================================================== the main statement

/-- What a program comes to when one listener of its runner, between
`before` and `after`, may panic at finishes. -/
structure Severed (before : Runner) (l : Listener) (after : Runner) (id : Id) (value : Json)
    (steps : List Step) (m : Machine) (ts : List Tiding) (said : Context) (out : Outcome) :
    Prop where
  /-- The program ends as its chronicle does. In the chronicle, a call
  whose finish is cut unwinds, and ends the program if its body unwinds. -/
  exit : (runSteps (before ++ l :: after) id value steps m).1 = out.exit value
  /-- What happens in it is one of the stories that a program can tell. -/
  chronicle : Chronicle m.scopes.current (.steps steps) .empty ts said out
  /-- Whatever the body of a call does, the call settles when the body has
  ended, or when its start was cut. -/
  settles : ∀ {ε α : Type} (d : Descriptor) (display : ε → String)
    (body : Id → Run (Except ε α)) (m : Machine),
    call (before ++ l :: after) d display body m =
      if (opening (before ++ l :: after) d m).cut then
        settled (before ++ l :: after) (frameOf d m) true .unwind
          (entered (before ++ l :: after) d m)
      else
        match body (frameOf d m).id (entered (before ++ l :: after) d m) with
        | (.value outcome, m₁) =>
          settled (before ++ l :: after) (frameOf d m) false (.value outcome)
            (returned (frameOf d m) display outcome m₁)
        | (.unwind, m₁) => settled (before ++ l :: after) (frameOf d m) true .unwind m₁
        | (.abort, m₁) => (.abort, m₁)
  /-- A call that settles passes its record to each listener once, but not
  to those behind the listener if it panics. -/
  records : ∀ {α β : Type} (k : Memory β) (j : Nat),
    Runner.ServesAt (before ++ l :: after) j k → ∀ (f : Frame) (unwound : Bool)
    (exit : Exit α) (m : Machine),
    k.kept (settled (before ++ l :: after) f unwound exit m).2
      = if (closing (before ++ l :: after) f unwound m).cut = true ∧ before.length < j then
          k.kept m
        else k.note (k.kept m) (.finished (recordOf f unwound m))
  /-- Unless the program ends, each operation has one start and one finish,
  and a listener hears of the finish one record, or none if it stands
  behind the one that panicked at it. -/
  once : ∀ i ∈ startedIds (notices ts), out ≠ .aborts → ∃ start finish p d record,
    tidingsOf i ts = [start, finish] ∧ Encloses start finish i p d record
      ∧ ∀ j < (before ++ l :: after).length, finishedRecords (noticesOf i (heardAt j ts))
        = if finishCut ts i = true ∧ before.length < j then [] else [record]
  /-- Every listener has taken in what it heard, whatever it makes of it. -/
  recalled : ∀ {β : Type} (k : Memory β) (j : Nat),
    Runner.ServesAt (before ++ l :: after) j k →
    k.kept (runSteps (before ++ l :: after) id value steps m).2
      = (heardAt j ts).foldl k.note (k.kept m)
  /-- A recording shows nothing as open after the program, unless it stands
  behind the listener. Then it shows those operations as open of which it
  heard the start and at whose finish the listener panicked. -/
  open_ : ∀ (j : Nat), Runner.ServesAt (before ++ l :: after) j Recording.memory →
    m.recording.open_ = [] → m.recording.Sound m.scopes.nextId → out ≠ .aborts →
    (runSteps (before ++ l :: after) id value steps m).2.recording.open_
      = if before.length < j then (startedIds (heardAt j ts)).filter (finishCut ts) else []

/-- What one listener has heard of starts is part of what was told, in
order. -/
theorem startedIds_heardAt (j : Nat) (ts : List Tiding) :
    (startedIds (heardAt j ts)).Sublist (startedIds (notices ts)) :=
  (List.filter_sublist.map _).filterMap _

/-- Of an operation that starts and finishes once, its one finish decides
who has heard. -/
theorem finishCut_of_pair {ts : List Tiding} {start finish : Tiding} {i : Id}
    {p : Option Id} {d : Descriptor} {record : Record}
    (hpair : tidingsOf i ts = [start, finish]) (h : Encloses start finish i p d record) :
    finishCut ts i = finish.cut := by
  unfold finishCut
  rw [hpair, List.any_cons, List.any_cons, h.starts, h.finishes]
  simp [Notice.record?]

/-- Of a start and a finish, a listener hears the record if it hears the
finish. -/
theorem finishedRecords_pair {start finish : Tiding} {i : Id} {p : Option Id}
    {d : Descriptor} {record : Record} (h : Encloses start finish i p d record) (j : Nat) :
    finishedRecords (heardAt j [start, finish])
      = if j < finish.reached then [record] else [] := by
  have hrest : finishedRecords (heardAt j [finish])
      = if j < finish.reached then [record] else [] := by
    by_cases hj : j < finish.reached
    · rw [heardAt_cons_of_lt hj, h.finishes, if_pos hj]
      rfl
    · rw [heardAt_cons_of_not_lt hj, if_neg hj]
      rfl
  by_cases hj : j < start.reached
  · rw [heardAt_cons_of_lt hj, h.starts, finishedRecords_started, hrest]
  · rw [heardAt_cons_of_not_lt hj, hrest]

/-- The record of an operation gets to every listener but those behind one
that panics at it. -/
theorem Told.record (hr : Runner.Contained (before ++ l :: after))
    (hclose : ∀ x ∈ before ++ after, x.ClosesCalmly) {m m' : Machine} {ts : List Tiding}
    (h : Told (before ++ l :: after) m ts m') {start finish : Tiding} {i : Id}
    {p : Option Id} {d : Descriptor} {record : Record}
    (hpair : tidingsOf i ts = [start, finish]) (hen : Encloses start finish i p d record)
    {j : Nat} (hj : j < (before ++ l :: after).length) :
    finishedRecords (noticesOf i (heardAt j ts))
      = if finishCut ts i = true ∧ before.length < j then [] else [record] := by
  have hhears := Runner.hears_finish hr hclose hj (h.passed finish (finish_mem hpair)) hen.finishes
  rw [noticesOf_heardAt, hpair, finishedRecords_pair hen, finishCut_of_pair hpair hen]
  by_cases hcut : finish.cut = true ∧ before.length < j
  · rw [if_pos hcut, if_neg fun hlt => Nat.not_lt.2 (hhears.1 hlt hcut.1) hcut.2]
  · rw [if_neg hcut, if_pos (hhears.2 fun hc => Nat.not_lt.1 fun hlt => hcut ⟨hc, hlt⟩)]

/-- A call passes its record to each listener once, but not to those
behind one that panics at it. -/
theorem recall_settled_severed (hr : Runner.Contained (before ++ l :: after))
    (hclose : ∀ x ∈ before ++ after, x.ClosesCalmly) {α β : Type} {k : Memory β} {j : Nat}
    (hk : Runner.ServesAt (before ++ l :: after) j k) (f : Frame) (unwound : Bool)
    (exit : Exit α) (m : Machine) :
    k.kept (settled (before ++ l :: after) f unwound exit m).2
      = if (closing (before ++ l :: after) f unwound m).cut = true ∧ before.length < j then
          k.kept m
        else k.note (k.kept m) (.finished (recordOf f unwound m)) := by
  have hhears := Runner.hears_finish hr hclose hk.lt_length
    (t := closing (before ++ l :: after) f unwound m) ⟨_, rfl⟩ rfl
  rw [recall_settled hr hk]
  by_cases hcut : (closing (before ++ l :: after) f unwound m).cut = true ∧ before.length < j
  · rw [if_pos hcut, heardAt_cons_of_not_lt fun hlt =>
      Nat.not_lt.2 (hhears.1 hlt hcut.1) hcut.2]
    rfl
  · rw [if_neg hcut, heardAt_cons_of_lt
      (hhears.2 fun hc => Nat.not_lt.1 fun hlt => hcut ⟨hc, hlt⟩)]
    rfl

/-- A program with one listener that may panic at finishes: the record of
each operation gets to every listener but those behind it. -/
theorem records_up_to_panic (hr : Runner.Contained (before ++ l :: after))
    (hclose : ∀ x ∈ before ++ after, x.ClosesCalmly) {steps : List Step}
    (hs : leaveRecording steps = true) (id : Id) (value : Json) {m : Machine}
    (hm : m.scopes.Numbered) :
    ∃ ts said out, Severed before l after id value steps m ts said out := by
  obtain ⟨g, ts, out, h⟩ := runSteps_ran hr steps hs id value hm
  have hnd : (startedIds (notices ts)).Nodup :=
    h.told.increasing.imp fun hlt => Nat.ne_of_lt hlt
  have honce : ∀ i ∈ startedIds (notices ts), out ≠ .aborts → ∃ start finish p d record,
      tidingsOf i ts = [start, finish] ∧ Encloses start finish i p d record
        ∧ ∀ j < (before ++ l :: after).length, finishedRecords (noticesOf i (heardAt j ts))
          = if finishCut ts i = true ∧ before.length < j then [] else [record] := by
    intro i hi hout
    obtain ⟨start, p, d, -, ⟨-, habort⟩ | ⟨finish, record, hpair, hen⟩⟩ :=
      (h.chronicle .empty).tracked hnd hi
    · exact absurd habort hout
    · exact ⟨start, finish, p, d, record, hpair, hen,
        fun j hj => h.told.record hr hclose hpair hen hj⟩
  refine ⟨ts, g .empty, out, {
    exit := h.exit
    chronicle := h.chronicle .empty
    settles := call_contained hr
    records := fun k j hk f unwound exit m => recall_settled_severed hr hclose hk f unwound exit m
    once := honce
    recalled := h.told.recalled
    open_ := ?_ }⟩
  intro j hj hopen hsound hout
  have hheard : ∀ i ∈ startedIds (heardAt j ts), i ∈ startedIds (notices ts) :=
    fun i hi => (startedIds_heardAt j ts).subset hi
  have hrecording := h.told.recalled Recording.memory j hj
  rw [show (runSteps (before ++ l :: after) id value steps m).2.recording
    = (heardAt j ts).foldl Recording.note m.recording from hrecording,
    Recording.open_foldl hopen hsound fun i hi => (h.told.ids i (hheard i hi)).1]
  -- What a recording shows as open is what it heard start and not finish, which by `once` is a
  -- matter of the cut and of its place.
  have hopenOf : ∀ i ∈ startedIds (heardAt j ts),
      (!(finishedRecords (heardAt j ts)).any (·.id = i))
        = (finishCut ts i && decide (before.length < j)) := by
    intro i hi
    obtain ⟨start, finish, p, d, record, -, -, hone⟩ := honce i (hheard i hi) hout
    rw [any_finishedRecords, hone j hj.lt_length]
    by_cases hcut : finishCut ts i = true ∧ before.length < j
    · rw [if_pos hcut, hcut.1, decide_eq_true hcut.2]
      rfl
    · rw [if_neg hcut]
      have hfalse : (finishCut ts i && decide (before.length < j)) = false := by
        rw [Bool.and_eq_false_iff]
        by_cases hc : finishCut ts i = true
        · exact .inr (decide_eq_false fun hlt => hcut ⟨hc, hlt⟩)
        · exact .inl (Bool.eq_false_iff.2 hc)
      rw [hfalse]
      rfl
  rw [List.filter_congr hopenOf]
  split
  · rename_i hlt
    exact List.filter_congr fun i _ => by rw [decide_eq_true hlt, Bool.and_true]
  · rename_i hlt
    rw [List.filter_eq_nil_iff]
    intro i _
    rw [decide_eq_false hlt, Bool.and_false]
    exact Bool.false_ne_true

/-- A call around another, whose listeners are a recording, one that
panics at finishes, and a journal. -/
theorem records_up_to_panic_nested :
    let steps : List Step := [.call true ⟨"outer", none, none, none⟩ .null
      [.call true ⟨"inner", none, none, none⟩ .null []], .current]
    let m := Machine.initial .empty .default
    Runner.Contained ([.recording] ++ .panicOnFinish :: [.journal])
      ∧ (∀ x ∈ ([.recording] : Runner) ++ [.journal], x.ClosesCalmly)
      ∧ leaveRecording steps = true ∧ m.scopes.Numbered
      ∧ m.recording.open_ = [] ∧ m.recording.Sound m.scopes.nextId
      ∧ ∃ ts said out,
        Severed [.recording] .panicOnFinish [.journal] 0 .null steps m ts said out := by
  intro steps m
  have hr : Runner.Contained ([.recording] ++ .panicOnFinish :: [.journal]) := by
    intro x hx
    rcases List.mem_cons.1 hx with rfl | hx
    · exact Listener.recording_calm.contained
    · rcases List.mem_cons.1 hx with rfl | hx
      · exact Listener.panicOnFinish_contained
      · rw [List.mem_singleton.1 hx]
        exact Listener.journal_calm.contained
  have hclose : ∀ x ∈ ([.recording] : Runner) ++ [.journal], x.ClosesCalmly := by
    intro x hx
    rcases List.mem_cons.1 hx with rfl | hx
    · exact Listener.recording_calm.closesCalmly
    · rw [List.mem_singleton.1 hx]
      exact Listener.journal_calm.closesCalmly
  have hs : leaveRecording steps = true := by decide
  have hm : m.scopes.Numbered := fun _ hf => (List.not_mem_nil hf).elim
  exact ⟨hr, hclose, hs, hm, rfl, Recording.empty_sound _,
    records_up_to_panic hr hclose hs 0 .null hm⟩

/-- A recording behind a listener that panics at finishes shows an
operation as open after its call was left, and has no record of it. -/
theorem recording_left_open :
    let r : Runner := [.panicOnFinish, .recording]
    let run := runSteps r 0 .null [.call true ⟨"a", none, none, none⟩ .null []]
      (Machine.initial .empty .default)
    run.1 = .value (.ok .null) ∧ run.2.scopes.current = none
      ∧ run.2.recording.started = [1] ∧ run.2.recording.records = []
      ∧ run.2.recording.open_ = [1] := by
  exact ⟨rfl, rfl, rfl, rfl, rfl⟩

end TracedTransfer.Operation
