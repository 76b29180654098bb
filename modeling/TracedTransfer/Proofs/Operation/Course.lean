/-
What the calls of a body come to, told without running them.

A body does its deeds in order up to one that ends it: a failure, a panic,
or a call that unwinds and is not caught. Two things are known of it from
its deeds alone:

- the accounts of its calls (`accounts`): for each call that is made, in
  the order in which they finish, what its record says of it. They depend
  on the deeds and on nothing else, in particular on no number;
- its course (`Course`): the notices that listeners are to hear, up to the
  numbers that operations take.

`Course` ties the two together: the records in it give the accounts
(`Course.accounts`), they close the operations that start in it
(`Course.ids`), and it can be read with a stack (`Course.replay`).
-/
import TracedTransfer.Operation.Threads
import TracedTransfer.Proofs.Operation.Story

namespace TracedTransfer.Operation

-- ============================================================== records

/-- The records of notices that say that an operation has finished. -/
def Notice.record? : Notice → Option Record
  | .started .. => none
  | .finished r => some r

/-- The records in notices, in order. -/
def finishedRecords (es : List Notice) : List Record := es.filterMap Notice.record?

@[simp] theorem finishedRecords_started (i : Id) (p : Option Id) (d : Descriptor)
    (es : List Notice) :
    finishedRecords (.started i p d :: es) = finishedRecords es := rfl

@[simp] theorem finishedRecords_finished (r : Record) (es : List Notice) :
    finishedRecords (.finished r :: es) = r :: finishedRecords es := rfl

@[simp] theorem finishedRecords_append (es fs : List Notice) :
    finishedRecords (es ++ fs) = finishedRecords es ++ finishedRecords fs :=
  List.filterMap_append

theorem finishedRecords_bracket (i : Id) (p : Option Id) (d : Descriptor)
    (inner : List Notice) (record : Record) :
    finishedRecords (bracket i p d inner record) = finishedRecords inner ++ [record] := by
  rw [bracket, finishedRecords_started, finishedRecords_append]
  rfl

theorem startedIds_bracket (i : Id) (p : Option Id) (d : Descriptor)
    (inner : List Notice) (record : Record) :
    startedIds (bracket i p d inner record) = i :: startedIds inner := by
  rw [bracket, startedIds_started, startedIds_append]
  exact congrArg (List.cons i) (List.append_nil _)

/-- What a recording has taken in: the starts and the finishes that it was
told. -/
theorem Recording.foldl_note (es : List Notice) (rec : Recording) :
    es.foldl Recording.note rec
      = ⟨rec.started ++ startedIds es, rec.records ++ finishedRecords es⟩ := by
  induction es generalizing rec with
  | nil => simp [startedIds, finishedRecords]
  | cons n es ih =>
      rw [List.foldl_cons, ih]
      cases n with
      | started i p d => simp [Recording.note]
      | finished record => simp [Recording.note]

namespace Threads

-- ======================================================= ends of bodies

mutual

/-- How a deed ends the body that it stands in, if it does: `true` is for a
panic. -/
def Deed.ends? : Deed → Option Bool
  | .call caught _ body => if unwinds body && !caught then some true else none
  | .fail _ => some false
  | .panic => some true
  | _ => none

/-- Whether a body ends by a panic. -/
def unwinds : List Deed → Bool
  | [] => false
  | d :: rest =>
    match d.ends? with
    | some unwound => unwound
    | none => unwinds rest

end

/-- What is still done of a body after a deed. -/
def Deed.leaves (d : Deed) (rest : List Deed) : List Deed :=
  if d.ends?.isSome then [] else rest

-- ============================================================= accounts

/-- What a deed adds to what is said of the operation around it. -/
def Deed.said (c : Context) : Deed → Context
  | .setResult v => { c with result := some v }
  | .setStatus v => { c with status := some v }
  | .setFailure v => { c with failure := some v }
  | .fail v => { c with failure := some v }
  | .call .. => c
  | .panic => c

/-- What a body has said of its operation when it ends. -/
def said (c : Context) : List Deed → Context
  | [] => c
  | d :: rest => if d.ends?.isSome then d.said c else said (d.said c) rest

/-- What a record says of its operation. -/
structure Account where
  descriptor : Descriptor
  status : Option String
  result : Option Json
  failure : Option String

/-- What a record says. -/
def Account.ofRecord (r : Record) : Account := ⟨r.descriptor, r.status, r.result, r.failure⟩

/-- What there is to be said of a call when its body has been done. A body
that unwinds has failed, whether it said so or not. -/
def account (d : Descriptor) (c : Context) (body : List Deed) : Account where
  descriptor := d
  status := (said c body).status
  result := (said c body).result
  failure :=
    if (said c body).failure.isNone && unwinds body then some Record.panicFailure
    else (said c body).failure

mutual

/-- The accounts of the calls of a deed. -/
def Deed.accounts : Deed → List Account
  | .call _ d body => accounts body ++ [account d .empty body]
  | _ => []

/-- The accounts of the calls that a body makes, in the order in which they
finish. -/
def accounts : List Deed → List Account
  | [] => []
  | d :: rest => d.accounts ++ if d.ends?.isSome then [] else accounts rest

end

/-- Accounts of a body are those of its first deed and of what is left of
the body behind it. -/
theorem accounts_cons (d : Deed) (rest : List Deed) :
    accounts (d :: rest) = d.accounts ++ accounts (d.leaves rest) := by
  rw [accounts, Deed.leaves]
  split
  · rfl
  · rfl

mutual

/-- The calls that a deed makes. -/
def Deed.made : Deed → Nat
  | .call _ _ body => made body + 1
  | _ => 0

/-- How many calls a body makes, with those inside them. -/
def made : List Deed → Nat
  | [] => 0
  | d :: rest => d.made + if d.ends?.isSome then 0 else made rest

end

mutual

/-- There is one account for each call that is made. -/
theorem Deed.length_accounts (d : Deed) : d.accounts.length = d.made := by
  cases d with
  | call caught d body =>
      rw [Deed.accounts, Deed.made, List.length_append, Threads.length_accounts body]
      rfl
  | setResult v => rfl
  | setStatus v => rfl
  | setFailure v => rfl
  | fail e => rfl
  | panic => rfl

/-- There is one account for each call. -/
theorem length_accounts (body : List Deed) : (accounts body).length = made body := by
  cases body with
  | nil => rfl
  | cons d rest =>
      rw [accounts, made, List.length_append, Deed.length_accounts d, Nat.add_left_cancel_iff]
      split
      · rfl
      · exact length_accounts rest

end

/-- What a body says comes in the order of its deeds. -/
theorem said_cons (c : Context) (d : Deed) (rest : List Deed) :
    said c (d :: rest) = said (d.said c) (d.leaves rest) := by
  rw [said, Deed.leaves]
  split
  · rfl
  · rfl

theorem unwinds_cons_of_none {d : Deed} (h : d.ends? = none) (rest : List Deed) :
    unwinds (d :: rest) = unwinds rest := by
  rw [unwinds, h]

theorem unwinds_cons_of_some {d : Deed} {unwound : Bool} (h : d.ends? = some unwound)
    (rest : List Deed) : unwinds (d :: rest) = unwound := by
  rw [unwinds, h]

-- ============================================================== courses

/-- Whether a deed is a call. -/
def Deed.isCall : Deed → Bool
  | .call .. => true
  | _ => false

/-- Deeds that are no calls give no accounts. -/
theorem Deed.accounts_of_not_call {d : Deed} (h : d.isCall = false) : d.accounts = [] := by
  cases d with
  | call caught d body => cases h
  | setResult v => rfl
  | setStatus v => rfl
  | setFailure v => rfl
  | fail e => rfl
  | panic => rfl

/-- The notices that deeds lead to inside an operation. A call is heard of
when it starts, while its body is done, and when it finishes; its record
says what its own body did. -/
inductive Course : Option Id → List Deed → List Notice → Prop where
  /-- Without deeds nothing is told. -/
  | nil {parent : Option Id} : Course parent [] []
  /-- A deed that is no call tells nothing. -/
  | quiet {parent : Option Id} {d : Deed} {rest : List Deed} {es : List Notice}
      (quiet : d.isCall = false) :
      Course parent (d.leaves rest) es → Course parent (d :: rest) es
  /-- A call tells its start, what its body tells, and its record, which
  accounts for the body. -/
  | call {parent : Option Id} {i : Id} {caught : Bool} {d : Descriptor}
      {body rest : List Deed} {inner es : List Notice} {record : Record}
      (closes : record.Closes i parent d)
      (told : Account.ofRecord record = account d .empty body) :
      Course (some i) body inner →
      Course parent ((Deed.call caught d body).leaves rest) es →
      Course parent (.call caught d body :: rest)
        (bracket i parent d inner record ++ es)

theorem Course.eq_nil {parent : Option Id} {es : List Notice} (h : Course parent [] es) :
    es = [] := by
  cases h
  rfl

mutual

/-- Whatever numbers it takes, a deed has a course if what is left of the
body behind it has one. -/
theorem Deed.exists_course (d : Deed) (parent : Option Id) {rest : List Deed}
    (h : ∃ es, Course parent (d.leaves rest) es) : ∃ es, Course parent (d :: rest) es := by
  obtain ⟨es, h⟩ := h
  cases d with
  | call caught d body =>
      obtain ⟨inner, hinner⟩ := Threads.exists_course body (some 0)
      let a := account d .empty body
      let record : Record := ⟨0, parent, d, 0, 0, a.status, a.result, a.failure⟩
      have hcloses : record.Closes 0 parent d := ⟨rfl, rfl, rfl⟩
      exact ⟨_, .call hcloses rfl hinner h⟩
  | setResult v => exact ⟨es, .quiet rfl h⟩
  | setStatus v => exact ⟨es, .quiet rfl h⟩
  | setFailure v => exact ⟨es, .quiet rfl h⟩
  | fail e => exact ⟨es, .quiet rfl h⟩
  | panic => exact ⟨es, .quiet rfl h⟩

/-- Every body has a course. -/
theorem exists_course (body : List Deed) (parent : Option Id) :
    ∃ es, Course parent body es := by
  cases body with
  | nil => exact ⟨[], .nil⟩
  | cons d rest =>
      refine Deed.exists_course d parent ?_
      rw [Deed.leaves]
      split
      · exact ⟨[], .nil⟩
      · exact exists_course rest parent

end

/-- A body that is made to panic is not heard of again. -/
theorem Course.of_panic {parent : Option Id} {es : List Notice}
    (h : Course parent [.panic] es) : es = [] := by
  cases h with
  | quiet _ h => exact h.eq_nil

/-- A course can be read, and leaves the stack of open operations as it
was. -/
theorem Course.replay {parent : Option Id} {body : List Deed} {es : List Notice}
    (h : Course parent body es) :
    ∀ {stack : List Opened}, parent = innermost stack → Replay stack es stack := by
  induction h with
  | nil => intro _ _; exact .nil
  | quiet _ _ ih => intro _ hp; exact ih hp
  | call hc _ _ _ ihBody ihRest =>
      intro stack hp
      exact (Replay.bracket hp hc (ihBody rfl)).append (ihRest hp)

/-- The records of a course say what the bodies of its calls did. -/
theorem Course.accounts {parent : Option Id} {body : List Deed} {es : List Notice}
    (h : Course parent body es) :
    (finishedRecords es).map Account.ofRecord = accounts body := by
  induction h with
  | nil => rfl
  | @quiet parent d rest es hq _ ih =>
      rw [accounts_cons, Deed.accounts_of_not_call hq, ih]
      rfl
  | @call parent i caught d body rest inner es record hc hs _ _ ihBody ihRest =>
      rw [finishedRecords_append, finishedRecords_bracket, accounts_cons, List.map_append,
        List.map_append, ihBody, ihRest, List.map_singleton, hs]
      rfl

/-- They close the operations that start in it, each once. -/
theorem Course.ids {parent : Option Id} {body : List Deed} {es : List Notice}
    (h : Course parent body es) :
    ((finishedRecords es).map Record.id).Perm (startedIds es) := by
  induction h with
  | nil => exact .refl []
  | quiet _ _ ih => exact ih
  | @call parent i caught d body rest inner es record hc _ _ _ ihBody ihRest =>
      rw [finishedRecords_append, finishedRecords_bracket, startedIds_append,
        startedIds_bracket, List.map_append, List.map_append, List.map_singleton, hc.id]
      exact (List.perm_append_singleton i _).trans (ihBody.cons i) |>.append ihRest

end Threads

end TracedTransfer.Operation
