/-
What becomes of a program of calls when listeners may panic.

A chronicle gives the tidings that a program leads to, what has been said
of the operation around it, and how it ends, by recursion on its steps.
It leaves open which notices are cut, and follows what comes of that: a
call whose start is cut comes to one whose body panics at once, a call
whose finish is cut unwinds whatever its body returned, and a finish that
is cut while a panic is under way ends the program. Calls on new threads
have no parent, and what they come to is always caught.

Three things follow of a chronicle alone:

- `Chronicle.tracked`: the tidings of an operation are its start and its
  finish, and only the end of the program leaves the finish out;
- `Chronicle.replay`: every finish closes the innermost open operation;
- `Chronicle.ends`: a program goes on while no finish is cut.
-/
import TracedTransfer.Proofs.Operation.Story
import TracedTransfer.Proofs.Operation.Tiding

namespace TracedTransfer.Operation

-- =========================================================== programs

/-- A call that a step makes. -/
structure Summons where
  /-- Whether it is made on a new thread. -/
  apart : Bool
  caught : Bool
  outline : Outline
  value : Json
  body : List Step

/-- The call that a step makes, if it makes one. What a thread ends with
is always caught. -/
def Step.summons? : Step → Option Summons
  | .call caught o value body => some ⟨false, caught, o, value, body⟩
  | .thread o value body => some ⟨true, true, o, value, body⟩
  | _ => none

namespace Summons

/-- The parent of a call, where an operation may be current. -/
def parent (k : Summons) (current : Option Id) : Option Id :=
  if k.apart then none else current

/-- What is done of the body of a call. A call whose start is cut comes to
one whose body panics at once. -/
def done (k : Summons) (refused : Bool) : List Step := if refused then [.panic] else k.body

end Summons

mutual

/-- Whether a step leaves the recording to its listener. -/
def Step.leavesRecording : Step → Bool
  | .call _ _ _ body => leaveRecording body
  | .thread _ _ body => leaveRecording body
  | .clear => false
  | _ => true

/-- Whether all steps leave the recording to its listener. -/
def leaveRecording : List Step → Bool
  | [] => true
  | s :: rest => s.leavesRecording && leaveRecording rest

end

/-- What has been said of an operation after a step. A result that has no
structured form is recorded as null. -/
def Step.adds : Step → Context → Context
  | .setResult (.ok j), c => { c with result := some j.normalized }
  | .setResult (.error _), c => { c with result := some .null }
  | .setStatus s, c => { c with status := some s }
  | .setFailure s, c => { c with failure := some s }
  | _, c => c

-- ============================================================= endings

/-- How a list of steps ends, or that the program does. -/
inductive Outcome where
  | ends (ending : Ending)
  | aborts

/-- The exit of a body that comes to this. -/
def Outcome.exit (value : Json) : Outcome → Exit (Except String Json)
  | .ends e => e.exit value
  | .aborts => .abort

/-- Whether a body unwinds. -/
def Ending.unwinds : Ending → Bool
  | .panics => true
  | _ => false

/-- What there is to say of an operation whose body has ended. A body that
unwinds has failed, whether it said so or not. -/
def Ending.context (c : Context) : Ending → Context
  | .returns => c
  | .fails e => { c with failure := some e }
  | .panics => { c with failure := some (c.failure.getD Record.panicFailure) }

/-- How a call is left whose body has ended, by whether its finish was
cut. -/
def Ending.left (cut : Bool) (e : Ending) : Outcome :=
  if cut then if e.unwinds then .aborts else .ends .panics else .ends e

theorem Ending.left_ne_aborts (e : Ending) : e.left false ≠ .aborts := nofun

/-- What a record says of its operation. -/
def Record.context (r : Record) : Context := ⟨r.result, r.status, r.failure⟩

-- ========================================================== chronicles

/-- A part of a program: steps one after another, or a call. -/
inductive Part where
  | steps (steps : List Step)
  | call (summons : Summons)

/-- The tidings that a part of a program leads to inside an operation of
which a context has been said, what has been said of that operation in the
end, and how the part ends. -/
inductive Chronicle :
    Option Id → Part → Context → List Tiding → Context → Outcome → Prop where
  /-- Without steps it is over. -/
  | nil {p : Option Id} {c : Context} : Chronicle p (.steps []) c [] c (.ends .returns)
  /-- A quiet step adds to the context and tells nothing. -/
  | quiet {p : Option Id} {s : Step} {rest : List Step} {c c' : Context}
      {ts : List Tiding} {out : Outcome} (quiet : s.isQuiet = true) :
      Chronicle p (.steps rest) (s.adds c) ts c' out →
      Chronicle p (.steps (s :: rest)) c ts c' out
  /-- A failure ends the steps, -/
  | fail {p : Option Id} {text : String} {rest : List Step} {c : Context} :
      Chronicle p (.steps (.fail text :: rest)) c [] c (.ends (.fails text))
  /-- and so does a panic. -/
  | panic {p : Option Id} {rest : List Step} {c : Context} :
      Chronicle p (.steps (.panic :: rest)) c [] c (.ends .panics)
  /-- A call that ends, or whose panic is caught: the steps go on. -/
  | on {p : Option Id} {s : Step} {k : Summons} {rest : List Step} {c c' : Context}
      {us ts : List Tiding} {e : Ending} {out : Outcome} (summons : s.summons? = some k)
      (caught : e = .panics → k.caught = true) :
      Chronicle p (.call k) c us c (.ends e) → Chronicle p (.steps rest) c ts c' out →
      Chronicle p (.steps (s :: rest)) c (us ++ ts) c' out
  /-- A call whose panic is not caught, or that ends the program. -/
  | off {p : Option Id} {s : Step} {k : Summons} {rest : List Step} {c : Context}
      {us : List Tiding} {out : Outcome} (summons : s.summons? = some k)
      (leaves : out = .aborts ∨ out = .ends .panics ∧ k.caught = false) :
      Chronicle p (.call k) c us c out → Chronicle p (.steps (s :: rest)) c us c out
  /-- A call whose scope closes. Its record has what its body said. -/
  | closed {p : Option Id} {k : Summons} {c said : Context} {i : Id}
      {start finish : Tiding} {us : List Tiding} {ended : Ending} {record : Record}
      (starts : start.notice = .started i (k.parent p) k.outline.described)
      (finishes : finish.notice = .finished record)
      (closes : record.Closes i (k.parent p) k.outline.described)
      (accounts : record.context = ended.context said) :
      Chronicle (some i) (.steps (k.done start.cut)) .empty us said (.ends ended) →
      Chronicle p (.call k) c (start :: (us ++ [finish])) c (ended.left finish.cut)
  /-- A call inside which the program ends. -/
  | lost {p : Option Id} {k : Summons} {c said : Context} {i : Id} {start : Tiding}
      {us : List Tiding}
      (starts : start.notice = .started i (k.parent p) k.outline.described) :
      Chronicle (some i) (.steps (k.done start.cut)) .empty us said .aborts →
      Chronicle p (.call k) c (start :: us) c .aborts

/-- Of a body that panics at once there is nothing to hear. -/
theorem Chronicle.of_panic {p : Option Id} {c c' : Context} {ts : List Tiding}
    {out : Outcome} (h : Chronicle p (.steps [.panic]) c ts c' out) :
    ts = [] ∧ c' = c ∧ out = .ends .panics := by
  cases h with
  | quiet hq _ => cases hq
  | panic => exact ⟨rfl, rfl, rfl⟩
  | on hs _ _ _ => cases hs
  | off hs _ _ => cases hs

/-- The record of a call whose start was cut says that it panicked, and
nothing else. -/
theorem Chronicle.of_refused {i : Id} {k : Summons} {start : Tiding} {us : List Tiding}
    {said : Context} {out : Outcome} (hcut : start.cut = true)
    (h : Chronicle (some i) (.steps (k.done start.cut)) .empty us said out) :
    us = [] ∧ said = .empty ∧ out = .ends .panics := by
  rw [hcut] at h
  exact h.of_panic

-- =================================================== starts and finishes

/-- A start and a finish are those of one operation. If the start was cut,
the record says that the operation panicked, and nothing else. -/
structure Encloses (start finish : Tiding) (i : Id) (p : Option Id) (d : Descriptor)
    (record : Record) : Prop where
  /-- It starts with the one, -/
  starts : start.notice = .started i p d
  /-- finishes with the other, -/
  finishes : finish.notice = .finished record
  /-- which is the record of it, -/
  closes : record.Closes i p d
  /-- and if its start was refused, that is all that there is to tell. -/
  refused : start.cut = true → record.context = ⟨none, none, some Record.panicFailure⟩

/-- Of two tidings about an operation the second is among all tidings. -/
theorem finish_mem {ts : List Tiding} {start finish : Tiding} {i : Id}
    (hpair : tidingsOf i ts = [start, finish]) : finish ∈ ts := by
  have hof : finish ∈ tidingsOf i ts := by
    rw [hpair]
    exact List.mem_cons_of_mem _ (List.mem_singleton_self _)
  exact (List.mem_filter.1 hof).1

/-- The tidings of an operation that starts: its start and its finish. Only
the end of the program leaves the finish out. -/
def Tracked (i : Id) (ts : List Tiding) (out : Outcome) : Prop :=
  ∃ start p d, start.notice = .started i p d
    ∧ (tidingsOf i ts = [start] ∧ out = .aborts
      ∨ ∃ finish record, tidingsOf i ts = [start, finish]
        ∧ Encloses start finish i p d record)

/-- What is known of an operation holds as well of other tidings with the
same about it. -/
theorem Tracked.imp {i : Id} {ts us : List Tiding} {out out' : Outcome}
    (h : Tracked i ts out) (hts : tidingsOf i us = tidingsOf i ts)
    (hout : out = .aborts → out' = .aborts) : Tracked i us out' := by
  obtain ⟨start, p, d, hs, ⟨hone, ha⟩ | ⟨finish, record, htwo, he⟩⟩ := h
  · exact ⟨start, p, d, hs, .inl ⟨hts.trans hone, hout ha⟩⟩
  · exact ⟨start, p, d, hs, .inr ⟨finish, record, hts.trans htwo, he⟩⟩

section closed

variable {start finish : Tiding} {i : Id} {p : Option Id} {d : Descriptor} {record : Record}

theorem startedIds_closed (us : List Tiding) (hs : start.notice = .started i p d)
    (hf : finish.notice = .finished record) :
    startedIds (notices (start :: (us ++ [finish]))) = i :: startedIds (notices us) := by
  rw [notices_cons, hs, startedIds_started, notices_append, startedIds_append, notices_cons, hf]
  exact congrArg (List.cons i) (List.append_nil _)

/-- The tidings about an operation are its start, what is about it within,
and its finish; -/
theorem tidingsOf_closed_self (us : List Tiding) (hs : start.notice = .started i p d)
    (hf : finish.notice = .finished record) (hc : record.Closes i p d) :
    tidingsOf i (start :: (us ++ [finish])) = start :: (tidingsOf i us ++ [finish]) := by
  have hstart : start.notice.id = i := by rw [hs]; rfl
  have hfinish : finish.notice.id = i := by rw [hf]; exact hc.id
  rw [tidingsOf_cons_self hstart, tidingsOf_append, tidingsOf_cons_self hfinish]
  rfl

/-- those about another one are all within. -/
theorem tidingsOf_closed_ne {j : Id} (hne : i ≠ j) (us : List Tiding)
    (hs : start.notice = .started i p d) (hf : finish.notice = .finished record)
    (hc : record.Closes i p d) :
    tidingsOf j (start :: (us ++ [finish])) = tidingsOf j us := by
  have hstart : start.notice.id ≠ j := by rw [hs]; exact hne
  have hfinish : finish.notice.id ≠ j := by
    rw [hf]
    exact fun h => hne (hc.id.symm.trans h)
  rw [tidingsOf_cons_ne hstart, tidingsOf_append, tidingsOf_cons_ne hfinish]
  exact List.append_nil _

end closed

/-- There is nothing to hear of an operation that does not start. -/
theorem Chronicle.strange {p : Option Id} {part : Part} {c c' : Context}
    {ts : List Tiding} {out : Outcome} (h : Chronicle p part c ts c' out) {i : Id}
    (hi : i ∉ startedIds (notices ts)) : tidingsOf i ts = [] := by
  induction h with
  | nil => rfl
  | quiet _ _ ih => exact ih hi
  | fail => rfl
  | panic => rfl
  | on _ _ _ _ ihCall ihRest =>
      rw [notices_append, startedIds_append, List.mem_append, not_or] at hi
      rw [tidingsOf_append, ihCall hi.1, ihRest hi.2]
      rfl
  | off _ _ _ ih => exact ih hi
  | @closed p k c said i' start finish us ended record hs hf hc _ _ ih =>
      rw [startedIds_closed us hs hf, List.mem_cons, not_or] at hi
      rw [tidingsOf_closed_ne (Ne.symm hi.1) us hs hf hc, ih hi.2]
  | @lost p k c said i' start us hs _ ih =>
      rw [notices_cons, hs, startedIds_started, List.mem_cons, not_or] at hi
      have hstart : start.notice.id ≠ i := by rw [hs]; exact Ne.symm hi.1
      rw [tidingsOf_cons_ne hstart, ih hi.2]

/-- Every operation that starts has its start and its finish, if no number
is used twice. -/
theorem Chronicle.tracked {p : Option Id} {part : Part} {c c' : Context}
    {ts : List Tiding} {out : Outcome} (h : Chronicle p part c ts c' out)
    (hnd : (startedIds (notices ts)).Nodup) {i : Id} (hi : i ∈ startedIds (notices ts)) :
    Tracked i ts out := by
  induction h with
  | nil => exact (List.not_mem_nil hi).elim
  | quiet _ _ ih => exact ih hnd hi
  | fail => exact (List.not_mem_nil hi).elim
  | panic => exact (List.not_mem_nil hi).elim
  | on _ _ hcall hrest ihCall ihRest =>
      -- The operation started in the call or behind it, and numbers are not used twice, so the
      -- other part says nothing of it.
      rw [notices_append, startedIds_append] at hnd hi
      obtain ⟨hndCall, hndRest, hapart⟩ := List.nodup_append.1 hnd
      rcases List.mem_append.1 hi with hi | hi
      · have hother := hrest.strange fun hmem => hapart i hi i hmem rfl
        refine (ihCall hndCall hi).imp ?_ nofun
        rw [tidingsOf_append, hother, List.append_nil]
      · have hother := hcall.strange fun hmem => hapart i hmem i hi rfl
        refine (ihRest hndRest hi).imp ?_ id
        rw [tidingsOf_append, hother, List.nil_append]
  | off _ _ _ ih => exact ih hnd hi
  | @closed p k c said i' start finish us ended record hs hf hc hsays hbody ih =>
      rw [startedIds_closed us hs hf] at hnd hi
      obtain ⟨hnew, hnd⟩ := List.nodup_cons.1 hnd
      by_cases hii : i = i'
      · subst hii
        refine ⟨start, _, _, hs, .inr ⟨finish, record, ?_, hs, hf, hc, ?_⟩⟩
        · rw [tidingsOf_closed_self us hs hf hc, hbody.strange hnew]
          rfl
        · intro hcut
          obtain ⟨-, rfl, hended⟩ := hbody.of_refused hcut
          cases hended
          exact hsays
      · have hmem := (List.mem_cons.1 hi).resolve_left hii
        exact (ih hnd hmem).imp (tidingsOf_closed_ne (Ne.symm hii) us hs hf hc) nofun
  | @lost p k c said i' start us hs hbody ih =>
      rw [notices_cons, hs, startedIds_started] at hnd hi
      obtain ⟨hnew, hnd⟩ := List.nodup_cons.1 hnd
      by_cases hii : i = i'
      · subst hii
        have hstart : start.notice.id = i := by rw [hs]; rfl
        refine ⟨start, _, _, hs, .inl ⟨?_, rfl⟩⟩
        rw [tidingsOf_cons_self hstart, hbody.strange hnew]
      · have hmem := (List.mem_cons.1 hi).resolve_left hii
        have hstart : start.notice.id ≠ i := by rw [hs]; exact Ne.symm hii
        refine (ih hnd hmem).imp ?_ id
        rw [tidingsOf_cons_ne hstart]

-- ============================================================= nesting

/-- Whether a part of a program stays on its thread. -/
def Part.isPlain : Part → Bool
  | .steps body => arePlain body
  | .call k => !k.apart && arePlain k.body

/-- A body of plain steps leaves plain steps to do. -/
theorem Summons.done_plain {k : Summons} (h : arePlain k.body = true) (refused : Bool) :
    arePlain (k.done refused) = true := by
  cases refused with
  | true => rfl
  | false => exact h

/-- What a plain step calls is plain. -/
theorem Step.summons_plain {s : Step} {k : Summons} (hs : s.summons? = some k)
    (hp : s.isPlain = true) : (Part.call k).isPlain = true := by
  cases s with
  | call caught o value body =>
      cases hs
      exact Bool.and_eq_true_iff.2 ⟨rfl, hp⟩
  | thread o value body => cases hp
  | _ => cases hs

/-- The tidings of a program that stays on its thread can be read, and
leave the stack of open operations as it was. -/
theorem Chronicle.replay {p : Option Id} {part : Part} {c c' : Context}
    {ts : List Tiding} {out : Outcome} (h : Chronicle p part c ts c' out) :
    part.isPlain = true → out ≠ .aborts → ∀ {stack : List Opened},
      p = innermost stack → Replay stack (notices ts) stack := by
  induction h with
  | nil => intro _ _ _ _; exact .nil
  | quiet _ _ ih =>
      intro hplain hout _ hp
      exact ih (Bool.and_eq_true_iff.1 hplain).2 hout hp
  | fail => intro _ _ _ _; exact .nil
  | panic => intro _ _ _ _; exact .nil
  | on hs _ _ _ ihCall ihRest =>
      intro hplain hout _ hp
      obtain ⟨hstep, hrest⟩ := Bool.and_eq_true_iff.1 hplain
      rw [notices_append]
      exact (ihCall (Step.summons_plain hs hstep) nofun hp).append (ihRest hrest hout hp)
  | off hs _ _ ih =>
      intro hplain hout _ hp
      exact ih (Step.summons_plain hs (Bool.and_eq_true_iff.1 hplain).1) hout hp
  | @closed p k c said i start finish us ended record hs hf hc _ _ ih =>
      intro hplain _ stack hp
      obtain ⟨hthread, hbody⟩ := Bool.and_eq_true_iff.1 hplain
      -- A plain call is made on this thread, so its parent is what is open here.
      have hparent : k.parent p = p := if_neg (by simpa using hthread)
      rw [hparent] at hs hc
      rw [notices_cons, notices_append, hs]
      have hopened : some i = innermost (⟨i, p, k.outline.described⟩ :: stack) := rfl
      have hinner := ih (Summons.done_plain hbody _) nofun hopened
      refine .started (o := ⟨i, p, k.outline.described⟩) hp (hinner.append ?_)
      rw [notices_cons, hf]
      exact .finished hc .nil
  | lost => intro _ hout; exact absurd rfl hout

-- ============================================================== ending

/-- A program goes on while no finish is cut. -/
theorem Chronicle.ends {p : Option Id} {part : Part} {c c' : Context}
    {ts : List Tiding} {out : Outcome} (h : Chronicle p part c ts c' out)
    (hts : ∀ t ∈ ts, ∀ record, t.notice = .finished record → t.cut = false) :
    out ≠ .aborts := by
  induction h with
  | nil => nofun
  | quiet _ _ ih => exact ih hts
  | fail => nofun
  | panic => nofun
  | on _ _ _ _ _ ihRest => exact ihRest fun t ht => hts t (List.mem_append_right _ ht)
  | off _ _ _ ih => exact ih hts
  | @closed p k c said i start finish us ended record hs hf _ _ _ _ =>
      have hmem : finish ∈ start :: (us ++ [finish]) :=
        List.mem_cons_of_mem _ (List.mem_append_right _ (List.mem_singleton_self _))
      rw [hts finish hmem record hf]
      exact ended.left_ne_aborts
  | lost _ _ ih => exact absurd rfl (ih fun t ht => hts t (List.mem_cons_of_mem _ ht))

end TracedTransfer.Operation
