/-
Clients of a reader: programs that read as they like.

A client asks for bytes, looks at what is brought or at the failure, and
goes on as it likes, or ends with an answer; in between it may do anything
else (`Client`). Whatever the reader is, it can be put under a counting
one: the client is handed the same and ends the same, and what has been
counted is the number of the bytes that it was handed (`run_counted`).

Of a script a client is handed a beginning of what the script holds, byte
for byte, also past failures and empty reads (`Reader.Holds.run`).

Both are proved of one request first, and there of one read: the loops that
fill a buffer (`fill`) or read to the end (`drain`) add up what their reads
bring.
-/
import TracedTransfer.Proofs.Io.Drain
import TracedTransfer.Proofs.Resource.Footprint

namespace TracedTransfer.Io

open Text

variable {ρ : Type} [Source ρ] {fs : FileSystem} {atEnd : Option Error}

-- ============================================================== filling

/-- One round of a bounded read: done, a piece, an interruption that is read
past, or a failure. -/
theorem readUpToWithin_succ (fuel n : Nat) (acc : List Bytes) (r : ρ) :
    readUpToWithin fs atEnd (fuel + 1) n acc r =
      if n = 0 then ((acc, none), r)
      else match Source.read fs n r with
        | (.ok s, r) =>
          if s.isEmpty then ((acc, atEnd), r)
          else readUpToWithin fs atEnd fuel (n - s.length) (s :: acc) r
        | (.error e, r) =>
          if e.kind = .interrupted then readUpToWithin fs atEnd fuel n acc r
          else ((acc, some e), r) := rfl

/-- What has been read before stays in front. -/
theorem readUpToWithin_append (fuel n : Nat) (acc : List Bytes) (r : ρ) :
    readUpToWithin fs atEnd fuel n acc r
      = (((readUpToWithin fs atEnd fuel n [] r).1.1 ++ acc,
          (readUpToWithin fs atEnd fuel n [] r).1.2),
        (readUpToWithin fs atEnd fuel n [] r).2) := by
  induction fuel generalizing n acc r with
  | zero => rfl
  | succ fuel ih =>
      rw [readUpToWithin_succ, readUpToWithin_succ]
      split
      · rfl
      · rcases Source.read fs n r with ⟨answer, r'⟩
        cases answer with
        | ok s =>
            dsimp only
            split
            · rfl
            · rw [ih _ (s :: acc), ih _ [s]]
              simp only [List.append_assoc, List.singleton_append]
        | error e =>
            dsimp only
            split
            · exact ih n acc r'
            · rfl

def fill (fs : FileSystem) (atEnd : Option Error) (fuel n : Nat) (r : ρ) :
    (Bytes × Option Error) × ρ :=
  let ((chunks, e), r) := readUpToWithin fs atEnd fuel n [] r
  ((chunks.reverse.flatten, e), r)

/-- Such a loop reads once and goes on, unless it has what it wants, or
that brings nothing or fails. -/
theorem fill_succ (fuel n : Nat) (r : ρ) : fill fs atEnd (fuel + 1) n r =
    if n = 0 then (([], none), r)
    else match Source.read fs n r with
      | (.ok s, r) =>
        if s.isEmpty then (([], atEnd), r)
        else ((s ++ (fill fs atEnd fuel (n - s.length) r).1.1,
          (fill fs atEnd fuel (n - s.length) r).1.2),
          (fill fs atEnd fuel (n - s.length) r).2)
      | (.error e, r) =>
        if e.kind = .interrupted then fill fs atEnd fuel n r else (([], some e), r) := by
  unfold fill
  rw [readUpToWithin_succ]
  by_cases hn : n = 0
  · simp only [if_pos hn, List.reverse_nil, List.flatten_nil]
  · simp only [if_neg hn]
    rcases Source.read fs n r with ⟨answer, r'⟩
    cases answer with
    | ok s =>
        dsimp only
        split
        · rfl
        · rw [readUpToWithin_append]
          simp only [List.reverse_append, List.reverse_singleton, List.singleton_append,
            List.flatten_cons]
    | error e =>
        dsimp only
        split
        · rfl
        · rfl

/-- A counting reader is filled as the reader in it, and counts what it
gives. -/
theorem fill_counted (fuel n : Nat) (r : Counted ρ) : fill fs atEnd fuel n r
    = ((fill fs atEnd fuel n r.inner).1, ⟨(fill fs atEnd fuel n r.inner).2,
      r.count + (fill fs atEnd fuel n r.inner).1.1.length⟩) := by
  induction fuel generalizing n r with
  | zero => rfl
  | succ fuel ih =>
      rw [fill_succ, fill_succ, read_counted]
      split
      · rfl
      · rcases Source.read fs n r.inner with ⟨answer, inner⟩
        cases answer with
        | ok s =>
            dsimp only
            split
            · next hempty => rw [List.isEmpty_iff.1 hempty]
            · rw [ih]
              simp only [List.length_append, Nat.add_assoc]
        | error e =>
            dsimp only
            split
            · rw [ih]
            · rfl

-- =============================================================== asking

/-- What is brought: bytes, and the failure that their reading ended with,
if it did. -/
abbrev Brought := Bytes × Option Error

/-- What a reader can be asked for. -/
inductive Request where
  /-- One read of up to `n` bytes. -/
  | once (n : Nat)
  /-- Exactly `n` bytes. To meet the end before is a failure. -/
  | exactly (n : Nat)
  /-- Up to `n` bytes, fewer only at the end. -/
  | upTo (n : Nat)
  /-- Everything. -/
  | toEnd

namespace Request

/-- What a request brings. A failure keeps what was read before it; a
single read that fails brings no bytes. -/
def ask (fs : FileSystem) : Request → ρ → Brought × ρ
  | once n, r =>
    match Source.read fs n r with
    | (.ok s, r) => ((s, none), r)
    | (.error e, r) => (([], some e), r)
  | exactly n, r => readExact fs n r
  | upTo n, r => readUpTo fs n r
  | toEnd, r => readToEnd fs r

theorem ask_once (n : Nat) (r : ρ) : (once n).ask fs r
    = match Source.read fs n r with
      | (.ok s, r) => ((s, none), r)
      | (.error e, r) => (([], some e), r) := rfl

theorem ask_exactly (n : Nat) (r : ρ) : (exactly n).ask fs r
    = fill fs (some .shortContent) (Source.pending fs r + 1) n r := rfl

theorem ask_upTo (n : Nat) (r : ρ) : (upTo n).ask fs r
    = fill fs none (Source.pending fs r + 1) n r := rfl

theorem ask_toEnd (r : ρ) : toEnd.ask fs r = drain fs (Source.pending fs r + 1) r := rfl

/-- A counting reader brings what the reader inside brings, and counts
it. -/
theorem ask_counted (q : Request) (r : Counted ρ) : q.ask fs r
    = ((q.ask fs r.inner).1,
      ⟨(q.ask fs r.inner).2, r.count + (q.ask fs r.inner).1.1.length⟩) := by
  cases q with
  | once n =>
      rw [ask_once, ask_once, read_counted]
      rcases Source.read fs n r.inner with ⟨answer, inner⟩
      cases answer with
      | ok s => rfl
      | error e => rfl
  | exactly n =>
      rw [ask_exactly, ask_exactly, fill_counted]
      rfl
  | upTo n =>
      rw [ask_upTo, ask_upTo, fill_counted]
      rfl
  | toEnd =>
      rw [ask_toEnd, ask_toEnd, drain_counted]
      rfl

end Request

-- ============================================================== clients

/-- A program that reads. -/
inductive Client (α : Type) : Type 1 where
  /-- Ends with an answer. -/
  | done (answer : Except Chain α)
  /-- Asks for bytes and goes on with what is brought. -/
  | ask (request : Request) (next : Brought → Client α)
  /-- Does something else and goes on with what that comes to. -/
  | act {β : Type} (step : Run β) (next : β → Client α)

/-- How a client ends: its answer, what it has been handed, and the reader
as it leaves it. -/
structure Handed (α ρ : Type) where
  answer : Except Chain α
  brought : List Brought
  reader : ρ

variable {α : Type}

/-- All bytes that were handed out, also those before a failure. -/
def received (brought : List Brought) : Bytes := brought.flatMap Prod.fst

/-- The same with a counting reader that has handed out `count` bytes
before. -/
def Handed.counted (count : Nat) (h : Handed α ρ) : Handed α (Counted ρ) :=
  ⟨h.answer, h.brought, ⟨h.reader, count + (received h.brought).length⟩⟩

namespace Client

/-- Runs a client with a reader. -/
def run : Client α → ρ → Run (Handed α ρ)
  | done answer, r => pure ⟨answer, [], r⟩
  | ask request next, r => do
    let (brought, r) ← Action.gets fun m => request.ask m.files r
    let ended ← (next brought).run r
    return { ended with brought := brought :: ended.brought }
  | act step next, r => do (next (← step)).run r

theorem run_ask (request : Request) (next : Brought → Client α) (r : ρ) (m : Machine) :
    (ask request next).run r m
      = ((fun ended => { ended with brought := (request.ask m.files r).1 :: ended.brought })
        <$> (next (request.ask m.files r).1).run (request.ask m.files r).2) m := rfl

theorem run_act {β : Type} (step : Run β) (next : β → Client α) (r : ρ) :
    (act step next).run r = step >>= fun b => (next b).run r := rfl

/-- **A client goes the same with a counting reader**, whether it ends with
an answer or not, and all that it is handed has been counted then. -/
theorem run_counted (c : Client α) (r : Counted ρ) :
    c.run r = Handed.counted r.count <$> c.run r.inner := by
  induction c generalizing r with
  | done answer => rfl
  | ask request next ih =>
      funext m
      rw [run_ask, Request.ask_counted, ih, ← comp_map, Action.run_map (Handed.counted r.count),
        run_ask, ← Action.run_map (Handed.counted r.count), ← comp_map]
      refine congrArg (fun f => (f <$> _ : Run _) m) (funext fun ended => ?_)
      simp only [Function.comp, Handed.counted, received, List.flatMap_cons, List.length_append,
        Nat.add_assoc]
  | act step next ih =>
      rw [run_act, run_act, map_bind]
      exact congrArg (step >>= ·) (funext fun b => ih b r)

/-- A client whose other steps leave the open scopes as they are. -/
def KeepsScopes : Client α → Prop
  | done _ => True
  | ask _ next => ∀ brought, (next brought).KeepsScopes
  | act step next => Run.KeepsScopes step ∧ ∀ b, (next b).KeepsScopes

/-- A client that touches no scope does not do so on any reader. -/
theorem KeepsScopes.run {c : Client α} (h : c.KeepsScopes) (r : ρ) :
    Run.KeepsScopes (c.run r) := by
  induction c generalizing r with
  | done answer => exact Run.keepsScopes_pure _
  | ask request next ih =>
      exact Run.keepsScopes_bind (Run.keepsScopes_gets _) fun brought =>
        Run.keepsScopes_bind (ih brought.1 (h brought.1) brought.2) fun _ =>
          Run.keepsScopes_pure _
  | act step next ih => exact Run.keepsScopes_bind h.1 fun b => ih b (h.2 b) r

end Client

-- ============================================================== scripts

/-- What a script still holds. -/
def Reader.Holds (r : Reader) (s : Bytes) : Prop :=
  ∃ events, r = .script events ∧ events.flatMap Event.bytes = s

namespace Reader.Holds

variable {r : Reader} {s : Bytes}

/-- A read hands out a beginning of what a script holds, or nothing if it
fails. -/
theorem read (h : r.Holds s) {n : Nat} {answer : Except Error Bytes} {r' : Reader}
    (hread : Source.read fs n r = (answer, r')) :
    ∃ rest, r'.Holds rest ∧ answer.toOption.getD [] ++ rest = s := by
  obtain ⟨events, rfl, rfl⟩ := h
  by_cases hn : n = 0
  · subst hn
    cases hread
    exact ⟨_, ⟨events, rfl, rfl⟩, rfl⟩
  · have hscript : Source.read fs n (Reader.script events)
        = ((readScript n events).1, .script (readScript n events).2) := if_neg hn
    cases hscript.symm.trans hread
    refine ⟨_, ⟨_, rfl, rfl⟩, ?_⟩
    cases events with
    | nil => rfl
    | cons event rest =>
        cases event with
        | fail e => rfl
        | data t =>
            rw [readScript]
            split
            · rfl
            · simp only [Except.toOption, Option.getD_some, List.flatMap_cons, Event.bytes]
              rw [← List.append_assoc, List.take_append_drop]

/-- Reading to the end leaves a rest, which with what was brought is what
the reader held. -/
theorem drain (h : r.Holds s) (fuel : Nat) :
    ∃ rest, (Io.drain fs fuel r).2.Holds rest ∧ (Io.drain fs fuel r).1.1 ++ rest = s := by
  induction fuel generalizing r s with
  | zero => exact ⟨s, h, rfl⟩
  | succ fuel ih =>
      rw [drain_succ]
      rcases hread : Source.read fs chunkSize r with ⟨answer, r'⟩
      obtain ⟨rest, hrest, hs⟩ := h.read hread
      cases answer with
      | ok t =>
          have hs : t ++ rest = s := hs
          dsimp only
          split
          · next hempty => exact ⟨rest, hrest, by rwa [List.isEmpty_iff.1 hempty] at hs⟩
          · obtain ⟨rest', hrest', hbytes⟩ := ih hrest
            exact ⟨rest', hrest', by rw [List.append_assoc, hbytes, hs]⟩
      | error e =>
          have hs : rest = s := hs
          subst hs
          dsimp only
          split
          · exact ih hrest
          · exact ⟨rest, hrest, rfl⟩

/-- So does a bounded read. -/
theorem fill (h : r.Holds s) (atEnd : Option Error) (fuel n : Nat) :
    ∃ rest, (Io.fill fs atEnd fuel n r).2.Holds rest
      ∧ (Io.fill fs atEnd fuel n r).1.1 ++ rest = s := by
  induction fuel generalizing r s n with
  | zero => exact ⟨s, h, rfl⟩
  | succ fuel ih =>
      rw [fill_succ]
      split
      · exact ⟨s, h, rfl⟩
      · rcases hread : Source.read fs n r with ⟨answer, r'⟩
        obtain ⟨rest, hrest, hs⟩ := h.read hread
        cases answer with
        | ok t =>
            have hs : t ++ rest = s := hs
            dsimp only
            split
            · next hempty => exact ⟨rest, hrest, by rwa [List.isEmpty_iff.1 hempty] at hs⟩
            · obtain ⟨rest', hrest', hbytes⟩ := ih hrest (n - t.length)
              exact ⟨rest', hrest', by rw [List.append_assoc, hbytes, hs]⟩
        | error e =>
            have hs : rest = s := hs
            subst hs
            dsimp only
            split
            · exact ih hrest n
            · exact ⟨rest, hrest, rfl⟩

/-- Whatever is asked for, what is brought is a beginning, and the script
holds the rest. -/
theorem ask (h : r.Holds s) (q : Request) :
    ∃ rest, (q.ask fs r).2.Holds rest ∧ (q.ask fs r).1.1 ++ rest = s := by
  cases q with
  | once n =>
      rw [Request.ask_once]
      rcases hread : Source.read fs n r with ⟨answer, r'⟩
      obtain ⟨rest, hrest, hs⟩ := h.read hread
      cases answer with
      | ok t => exact ⟨rest, hrest, hs⟩
      | error e => exact ⟨rest, hrest, hs⟩
  | exactly n =>
      rw [Request.ask_exactly]
      exact h.fill _ _ n
  | upTo n =>
      rw [Request.ask_upTo]
      exact h.fill _ _ n
  | toEnd =>
      rw [Request.ask_toEnd]
      exact h.drain _

/-- **All that a client is handed is a beginning of what the script
holds**, and the script holds the rest. -/
theorem run {α : Type} {c : Client α} (h : r.Holds s) {m m' : Machine} {ended : Handed α Reader}
    (hrun : c.run r m = (.value ended, m')) :
    ∃ rest, ended.reader.Holds rest ∧ received ended.brought ++ rest = s := by
  induction c generalizing r s m ended with
  | done answer =>
      cases hrun
      exact ⟨s, h, rfl⟩
  | ask request next ih =>
      obtain ⟨rest, hrest, hs⟩ : ∃ rest, (request.ask m.files r).2.Holds rest
          ∧ (request.ask m.files r).1.1 ++ rest = s := h.ask request
      rw [Client.run_ask] at hrun
      obtain ⟨ended', hnext, rfl⟩ := Action.value_of_map hrun
      obtain ⟨rest', hrest', hbytes⟩ := ih _ hrest hnext
      refine ⟨rest', hrest', ?_⟩
      rw [received, List.flatMap_cons, List.append_assoc]
      exact (congrArg ((request.ask m.files r).1.1 ++ ·) hbytes).trans hs
  | act step next ih =>
      rw [Client.run_act] at hrun
      rcases hstep : step m with ⟨b | _ | _, m₁⟩
      · rw [Action.bind_of_value hstep] at hrun
        exact ih b h hrun
      · rw [Action.bind_of_unwind hstep] at hrun
        cases hrun
      · rw [Action.bind_of_abort hstep] at hrun
        cases hrun

end Reader.Holds

end TracedTransfer.Io
