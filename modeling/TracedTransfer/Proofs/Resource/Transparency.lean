/-
A decorated resource, seen from outside: what it does is what its
delegate does, and one operation around that.

The seven reads are one family, `Reading`, and a read of a decorated
resource is that read of its delegate in a scope (`Reading.of_instrumented`).
The delegate is any resource, so the read in the scope is any step that
keeps scopes (`Footprint`).

- `inScope_eq`: a read in a scope enters the scope, runs the delegate's
  read there once, writes down what it came to and leaves.
- `accounts_recordOf`: the record that is then told says how the
  delegate's read ended.
- `Observed` puts together what there is to see of it, to listeners and
  in the machine.
-/
import TracedTransfer.Proofs.Operation.Call
import TracedTransfer.Proofs.Resource.Footprint
import TracedTransfer.Resource.Instrumented

namespace TracedTransfer.Resource

open Operation

variable {α β : Type} {r : Runner}

-- =============================================================== reads

/-- A read: one of the seven methods, with its arguments. -/
inductive Reading : Type → Type 1 where
  /-- The content is stored in a file, -/
  | writeTo (destination : FilePath) : Reading (ReadResult Unit)
  /-- if there is any. -/
  | writeToIfPresent (destination : FilePath) : Reading (Option (ReadResult Unit))
  /-- It is written to a stream. -/
  | writeToStream (w : Io.Writer Machine) : Reading (ReadResult Unit)
  /-- It is given to a transform, -/
  | withContent {α : Type} (f : Transform α) : Reading (ReadResult α)
  /-- if there is any. -/
  | withContentIfPresent {α : Type} (f : Transform α) :
      Reading (Option (ReadResult α))
  /-- It is given to an action with its metadata, -/
  | withAction {α : Type} (act : ContentAction α) : Reading (ReadResult α)
  /-- if there is any. -/
  | withActionIfPresent {α : Type} (act : ContentAction α) :
      Reading (Option (ReadResult α))

namespace Reading

/-- A read of a resource. -/
def of (d : Resource) : Reading α → Run (Except Error α)
  | writeTo p => d.writeTo p
  | writeToIfPresent p => d.writeToIfPresent p
  | writeToStream w => d.writeToStream w
  | withContent f => d.withContent f
  | withContentIfPresent f => d.withContentIfPresent f
  | withAction act => d.withAction act
  | withActionIfPresent act => d.withActionIfPresent act

/-- How many bytes a read brought. -/
def bytes : Reading α → α → Nat
  | writeTo _ => ReadResult.bytesRead
  | writeToIfPresent _ => presentBytes
  | writeToStream _ => ReadResult.bytesRead
  | withContent _ => ReadResult.bytesRead
  | withContentIfPresent _ => presentBytes
  | withAction _ => ReadResult.bytesRead
  | withActionIfPresent _ => presentBytes

/-- Reads of a decorated resource are those of its delegate in a scope. -/
theorem of_instrumented (d : Resource) (n : Name) (r : Runner)
    (reading : Reading α) :
    reading.of (instrumented d n r) = inScope n r reading.bytes (reading.of d) := by
  cases reading with
  | writeTo p => rfl
  | writeToIfPresent p => rfl
  | writeToStream w => rfl
  | withContent f => rfl
  | withContentIfPresent f => rfl
  | withAction act => rfl
  | withActionIfPresent act => rfl

/-- What a read does with the content has a property. -/
def Uses (P : ∀ α : Type, Run α → Prop) : Reading α → Prop
  | writeTo p => ∀ r, P _ (store r p)
  | writeToIfPresent p => ∀ r, P _ (store r p)
  | writeToStream w => ∀ r, P _ (copyAndFlush w r)
  | withContent f => ∀ c, P _ (f c)
  | withContentIfPresent f => ∀ c, P _ (f c)
  | withAction act => ∀ info c, P _ (act info c)
  | withActionIfPresent act => ∀ info c, P _ (act info c)

/-- A read opens the content of a source and uses it. -/
theorem of_source {P : ∀ α : Type, Run α → Prop} (hP : Run.Composes P) {s : ContentSource}
    (hs : P _ s.openContent) {reading : Reading α} (h : reading.Uses P) :
    P _ (reading.of s.resource) := by
  cases reading with
  | writeTo p => exact hP.insist _ (hP.writeToIfPresent hs h)
  | writeToIfPresent p => exact hP.writeToIfPresent hs h
  | writeToStream w => exact hP.writeToStream hs h
  | withContent f => exact hP.insist _ (hP.withActionIfPresent hs fun _ => h)
  | withContentIfPresent f => exact hP.withActionIfPresent hs fun _ => h
  | withAction act => exact hP.insist _ (hP.withActionIfPresent hs h)
  | withActionIfPresent act => exact hP.withActionIfPresent hs h

/-- A read whose arguments keep scopes. -/
def KeepsScopes : Reading α → Prop
  | writeTo _ => True
  | writeToIfPresent _ => True
  | writeToStream w => w.KeepsScopes
  | withContent f => ∀ c, Run.KeepsScopes (f c)
  | withContentIfPresent f => ∀ c, Run.KeepsScopes (f c)
  | withAction act => ∀ info c, Run.KeepsScopes (act info c)
  | withActionIfPresent act => ∀ info c, Run.KeepsScopes (act info c)

/-- Reads of a source keep scopes, if it opens its content so and their
arguments do. -/
theorem keepsScopes_source {s : ContentSource} (hs : Run.KeepsScopes s.openContent)
    {reading : Reading α} (h : reading.KeepsScopes) :
    Run.KeepsScopes (reading.of s.resource) := by
  apply of_source Run.composes_keepsScopes hs
  cases reading with
  | writeTo p => exact fun r => keepsScopes_store r p
  | writeToIfPresent p => exact fun r => keepsScopes_store r p
  | writeToStream w => exact fun r => keepsScopes_copyAndFlush h r
  | withContent f => exact h
  | withContentIfPresent f => exact h
  | withAction act => exact h
  | withActionIfPresent act => exact h

end Reading

-- ============================================================ in scope

/-- The machine when what a read came to has been written down. -/
def noted (f : Frame) (bytes : α → Nat) (exit : Exit (Except Error α))
    (m : Machine) : Machine :=
  match exit with
  | .value (.ok a) => (setResult f.id (readResult (bytes a)) m).2
  | .value (.error e) => (setFailure f.id e.message m).2
  | _ => m

/-- Whether a step unwound. -/
def unwound : Exit α → Bool
  | .unwind => true
  | _ => false

/-- The frame of a read that would begin now. -/
abbrev readFrame (n : Name) (m : Machine) : Frame := frameOf (readDescriptor n) m

/-- The machine when the scope of a read is open and the listeners have
heard of it. -/
abbrev readEntered (r : Runner) (n : Name) (m : Machine) : Machine :=
  entered r (readDescriptor n) m

/-- A read in a scope runs once, inside it, and ends as it ends there. -/
theorem inScope_eq (hr : r.Calm) (n : Name) (bytes : α → Nat)
    (x : Run (Except Error α)) (m : Machine) :
    inScope n r bytes x m =
      match x (readEntered r n m) with
      | (.abort, m₁) => (.abort, m₁)
      | (exit, m₁) => (exit, left r (readFrame n m) (unwound exit)
          (noted (readFrame n m) bytes exit m₁)) := by
  unfold inScope
  rw [call_eq hr]
  rcases hx : x (readEntered r n m) with ⟨exit, m₁⟩
  cases exit with
  | value answer =>
      rw [Action.bind_of_value hx]
      cases answer with
      | ok a => rfl
      | error e => rfl
  | unwind =>
      rw [Action.bind_of_unwind hx]
      rfl
  | abort => rw [Action.bind_of_abort hx]

variable {n : Name} {bytes : α → Nat} {x : Run (Except Error α)} {m : Machine}

/-- A read in a scope ends as it does without, -/
theorem inScope_exit (hr : r.Calm) :
    (inScope n r bytes x m).1 = (x (readEntered r n m)).1 := by
  rw [inScope_eq hr]
  rcases x (readEntered r n m) with ⟨exit, m₁⟩
  cases exit with
  | value answer => rfl
  | unwind => rfl
  | abort => rfl

/-- and leaves the machine as it does without, but for the scope, which is
left with what is known of the read. -/
theorem inScope_machine (hr : r.Calm) (h : (x (readEntered r n m)).1 ≠ .abort) :
    (inScope n r bytes x m).2
      = left r (readFrame n m) (unwound (x (readEntered r n m)).1)
        (noted (readFrame n m) bytes (x (readEntered r n m)).1
          (x (readEntered r n m)).2) := by
  rw [inScope_eq hr]
  rcases hx : x (readEntered r n m) with ⟨exit, m₁⟩
  rw [hx] at h
  cases exit with
  | value answer => rfl
  | unwind => rfl
  | abort => exact absurd rfl h

/-- What is known of a read is kept in its scope and nowhere else. -/
theorem view_noted {view : Machine → β}
    (hs : ∀ m s, view { m with scopes := s } = view m) (f : Frame)
    (bytes : α → Nat) (exit : Exit (Except Error α)) (m : Machine) :
    view (noted f bytes exit m) = view m := by
  cases exit with
  | value answer =>
      cases answer with
      | ok a => exact hs m _
      | error e => exact hs m _
  | unwind => rfl
  | abort => rfl

/-- Of what neither scopes nor listeners touch, a read in a scope leaves
what the read leaves that it runs there. -/
theorem view_inScope (hr : r.Calm) {view : Machine → β}
    (hs : ∀ m s, view { m with scopes := s } = view m)
    (hv : ∀ l ∈ r, l.Leaves view) :
    view (inScope n r bytes x m).2 = view (x (readEntered r n m)).2 := by
  by_cases h : (x (readEntered r n m)).1 = .abort
  · rw [inScope_eq hr]
    rcases hx : x (readEntered r n m) with ⟨exit, m₁⟩
    rw [hx] at h
    obtain rfl : exit = .abort := h
    rfl
  · rw [inScope_machine hr h, view_left hr hs hv, view_noted hs]

-- ============================================================= records

/-- The innermost scope is the one whose context is found. -/
theorem context_of_innermost {s : Scopes} {f : Frame} {rest : List Frame}
    (h : s.frames = f :: rest) : s.context f.id = f.context := by
  have hfind : (f :: rest).find? (fun fr => decide (fr.id = f.id)) = some f :=
    List.find?_cons_of_pos (decide_eq_true rfl)
  unfold Scopes.context
  rw [h, hfind]
  rfl

/-- What is said in the innermost scope is found there. -/
theorem context_updateContext {s : Scopes} {f : Frame} {rest : List Frame}
    (h : s.frames = f :: rest) (g : Context → Context) :
    (s.updateContext f.id g).context f.id = g f.context := by
  have hframes : (s.updateContext f.id g).frames
      = { f with context := g f.context } :: rest.map fun fr =>
        if fr.id = f.id then { fr with context := g fr.context } else fr := by
    unfold Scopes.updateContext
    rw [h, List.map_cons, if_pos rfl]
  exact context_of_innermost hframes

/-- What the record of a read tells: which operation it was, and how the
delegate's read ended. -/
structure Accounts (n : Name) (bytes : α → Nat) (m : Machine)
    (exit : Exit (Except Error α)) (record : Record) : Prop where
  /-- It has the next number, -/
  id : record.id = m.scopes.nextId
  /-- stands in the current operation, -/
  parent : record.parent = m.scopes.current
  /-- and is described by the name of the resource. -/
  descriptor : record.descriptor = ⟨"Download " ++ n.displayName,
    some n.shortDisplayName, .obj [("location", .str n.location)]⟩
  status : record.status = none
  /-- A read that succeeds tells how many bytes it has read, -/
  success : ∀ a, exit = .value (.ok a) → record.failure = none
    ∧ record.result = some (.obj [("bytesRead", .nat (bytes a))])
  /-- one that fails tells its message, -/
  failure : ∀ e, exit = .value (.error e) → record.failure = some e.message
    ∧ record.result = none
  /-- and one that panics tells so. -/
  panic : exit = .unwind → record.failure = some Record.panicFailure
    ∧ record.result = none

/-- The record of a read accounts for it: its name, its bytes if it has
succeeded, and how it ended. -/
theorem accounts_recordOf {n : Name} {bytes : α → Nat} {m m₁ : Machine}
    {exit : Exit (Except Error α)} {rest : List Frame}
    (h : m₁.scopes.frames = readFrame n m :: rest) :
    Accounts n bytes m exit (recordOf (readFrame n m) (unwound exit)
      (noted (readFrame n m) bytes exit m₁)) := by
  have hsaid := context_updateContext h
  have hsilent := context_of_innermost h
  -- The one thing that is said of the read is what its end makes known.
  have hcontext : (noted (readFrame n m) bytes exit m₁).scopes.context
      (readFrame n m).id = match exit with
        | .value (.ok a) => ⟨some (readResult (bytes a)), none, none⟩
        | .value (.error e) => ⟨none, none, some e.message⟩
        | _ => .empty := by
    match exit with
    | .value (.ok a) => exact hsaid _
    | .value (.error e) => exact hsaid _
    | .unwind => exact hsilent
    | .abort => exact hsilent
  constructor
  · rfl
  · rfl
  · rfl
  · unfold recordOf
    rw [hcontext]
    match exit with
    | .value (.ok a) => rfl
    | .value (.error e) => rfl
    | .unwind => rfl
    | .abort => rfl
  · rintro a rfl
    unfold recordOf
    rw [hcontext]
    exact ⟨rfl, rfl⟩
  · rintro e rfl
    unfold recordOf
    rw [hcontext]
    exact ⟨rfl, rfl⟩
  · rintro rfl
    unfold recordOf
    rw [hcontext]
    exact ⟨rfl, rfl⟩

-- ============================================================== scopes

/-- What is said in a scope leaves scopes of other numbers alone. -/
theorem updateContext_other {frames : List Frame} {i : Id}
    (h : ∀ f ∈ frames, f.id ≠ i) (g : Context → Context) :
    (frames.map fun fr =>
      if fr.id = i then { fr with context := g fr.context } else fr) = frames := by
  induction frames with
  | nil => rfl
  | cons f rest ih =>
      rw [List.map_cons, if_neg (h f (List.mem_cons_self ..)),
        ih fun f' hf' => h f' (List.mem_cons_of_mem _ hf')]

/-- What is known of a read stands in the innermost frame, -/
theorem noted_frames {f : Frame} {rest : List Frame} {m : Machine}
    (hm : m.scopes.frames = f :: rest) (hrest : ∀ g ∈ rest, g.id < f.id)
    (bytes : α → Nat) (exit : Exit (Except Error α)) :
    (noted f bytes exit m).scopes.frames.tail = rest := by
  have hsaid : ∀ g, (m.scopes.updateContext f.id g).frames.tail = rest := by
    intro g
    unfold Scopes.updateContext
    rw [hm, List.map_cons, List.tail_cons]
    exact updateContext_other (fun f' hf' => Nat.ne_of_lt (hrest f' hf')) g
  have hsilent : m.scopes.frames.tail = rest := by rw [hm, List.tail_cons]
  match exit with
  | .value (.ok a) => exact hsaid _
  | .value (.error e) => exact hsaid _
  | .unwind => exact hsilent
  | .abort => exact hsilent

/-- and takes no number. -/
theorem noted_nextId (f : Frame) (bytes : α → Nat)
    (exit : Exit (Except Error α)) (m : Machine) :
    (noted f bytes exit m).scopes.nextId = m.scopes.nextId := by
  match exit with
  | .value (.ok a) => rfl
  | .value (.error e) => rfl
  | .unwind => rfl
  | .abort => rfl

/-- Frames are numbered while a read runs. -/
theorem readEntered_numbered (hr : r.Calm) (n : Name) {m : Machine}
    (hm : m.scopes.Numbered) : (readEntered r n m).scopes.Numbered := by
  intro f hf
  have hnext := entered_nextId hr (readDescriptor n) m
  rw [entered_frames hr] at hf
  rcases List.mem_cons.1 hf with rfl | hf
  · exact hnext
  · exact Nat.lt_trans (hm f hf) hnext

/-- A read in a scope keeps scopes, as the read does that it runs there.
So resources can be decorated over and over. -/
theorem keepsScopes_inScope (hr : r.Calm) (n : Name) (bytes : α → Nat)
    (hx : Run.KeepsScopes x) : Run.KeepsScopes (inScope n r bytes x) := by
  intro m hm hexit
  rw [inScope_exit hr] at hexit
  have hk := hx (readEntered r n m) (readEntered_numbered hr n hm) hexit
  rw [inScope_machine hr hexit]
  generalize x (readEntered r n m) = ended at hk ⊢
  obtain ⟨exit, m₁⟩ := ended
  -- The scope is the innermost one again when the delegate's read ends.
  have hframes := hk.frames.trans (entered_frames hr (readDescriptor n) m)
  refine ⟨left_current hr .., ?_, ?_⟩
  · rw [left_frames hr, noted_frames hframes hm]
  · have hleft := left_nextId hr (readFrame n m) (unwound exit)
      (noted (readFrame n m) bytes exit m₁)
    rw [noted_nextId] at hleft
    have hnext := entered_nextId hr (readDescriptor n) m
    exact Nat.le_trans (Nat.le_of_lt hnext) (Nat.le_trans hk.nextId hleft)

-- ================================================== the main statement

/-- What there is to see of a read of a decorated resource. -/
structure Observed (d : Resource) (n : Name) (r : Runner) (reading : Reading α)
    (m : Machine) : Prop where
  /-- The delegate's read runs once, in the scope, and the exit is its. -/
  exit : (reading.of (instrumented d n r) m).1
    = (reading.of d (readEntered r n m)).1
  /-- By then every listener has heard of the start of one operation. -/
  started : ∀ {β : Type} (k : Memory β), r.Serves k →
    k.kept (readEntered r n m) = k.note (k.kept m)
      (.started m.scopes.nextId m.scopes.current ⟨"Download " ++ n.displayName,
        some n.shortDisplayName, .obj [("location", .str n.location)]⟩)
  /-- After it every listener hears of the finish of that operation, and
  the record accounts for what the delegate's read came to. -/
  finished : (reading.of d (readEntered r n m)).1 ≠ .abort →
    ∃ record, Accounts n reading.bytes m (reading.of d (readEntered r n m)).1 record
      ∧ ∀ {β : Type} (k : Memory β), r.Serves k →
        k.kept (reading.of (instrumented d n r) m).2
          = k.note (k.kept (reading.of d (readEntered r n m)).2)
            (.finished record)
  /-- Scopes are as they were. -/
  scopes : (reading.of d (readEntered r n m)).1 ≠ .abort →
    m.scopes.Keeps (reading.of (instrumented d n r) m).2.scopes
  /-- Everything else that listeners do not touch is as the delegate's
  read left it. -/
  rest : ∀ {β : Type} (view : Machine → β),
    (∀ m s, view { m with scopes := s } = view m) →
    (∀ l ∈ r, l.Leaves view) → view (reading.of (instrumented d n r) m).2
      = view (reading.of d (readEntered r n m)).2
  /-- If the delegate's read works on a part of the machine that neither
  scopes nor listeners touch, then the exit and that part are those of the
  bare read. -/
  bare : ∀ {β : Type} (view : Machine → β),
    (∀ m s, view { m with scopes := s } = view m) →
    (∀ l ∈ r, l.Leaves view) → Run.WorksOn (reading.of d) view →
    (reading.of (instrumented d n r) m).1 = (reading.of d m).1
      ∧ view (reading.of (instrumented d n r) m).2 = view (reading.of d m).2

namespace Reading

variable (hr : r.Calm) {d : Resource} {reading : Reading α}
include hr

/-- The read of a decorated resource ends as the delegate's does. -/
theorem exit_instrumented (d : Resource) (reading : Reading α) (n : Name) (m : Machine) :
    (reading.of (instrumented d n r) m).1 = (reading.of d (readEntered r n m)).1 := by
  rw [of_instrumented d n r reading, inScope_exit hr]

/-- What listeners do not touch is as the delegate's read left it. -/
theorem rest_instrumented (d : Resource) (reading : Reading α) (n : Name) (m : Machine) {β : Type}
    {view : Machine → β} (hs : ∀ m s, view { m with scopes := s } = view m)
    (hv : ∀ l ∈ r, l.Leaves view) : view (reading.of (instrumented d n r) m).2
      = view (reading.of d (readEntered r n m)).2 := by
  rw [of_instrumented d n r reading, view_inScope hr hs hv]

variable (hd : Run.KeepsScopes (reading.of d)) (n : Name) {m : Machine} (hm : m.scopes.Numbered)
include hd hm

/-- Afterwards the scopes are what they were before. -/
theorem scopes_instrumented (hne : (reading.of d (readEntered r n m)).1 ≠ .abort) :
    m.scopes.Keeps (reading.of (instrumented d n r) m).2.scopes := by
  rw [of_instrumented d n r reading]
  refine keepsScopes_inScope hr n reading.bytes hd m hm ?_
  rwa [inScope_exit hr]

/-- Whoever listens hears of one finish, of what the delegate's read came to. -/
theorem finished_instrumented (hne : (reading.of d (readEntered r n m)).1 ≠ .abort) :
    ∃ record, Accounts n reading.bytes m (reading.of d (readEntered r n m)).1 record
      ∧ ∀ {β : Type} (k : Memory β), r.Serves k →
        k.kept (reading.of (instrumented d n r) m).2
          = k.note (k.kept (reading.of d (readEntered r n m)).2) (.finished record) := by
  have hinner := hd (readEntered r n m) (readEntered_numbered hr n hm)
  have hframes := (hinner hne).frames.trans (entered_frames hr (readDescriptor n) m)
  refine ⟨_, accounts_recordOf hframes, ?_⟩
  intro β k hk
  rw [of_instrumented d n r reading, inScope_machine hr hne, recall_left hr hk,
    view_noted hk.apart.scopes]

end Reading

/-- Decorating a resource adds one operation to each read and changes
nothing else, whatever the resource does. -/
theorem read_observed (hr : r.Calm) {d : Resource} {reading : Reading α}
    (hd : Run.KeepsScopes (reading.of d)) (n : Name) {m : Machine}
    (hm : m.scopes.Numbered) : Observed d n r reading m := by
  refine ⟨reading.exit_instrumented hr d n m, ?_, Reading.finished_instrumented hr hd n hm,
    Reading.scopes_instrumented hr hd n hm, ?_, ?_⟩
  · intro β k hk
    rw [recall_entered hr hk]
    rfl
  · intro β view hs hv
    exact reading.rest_instrumented hr d n m hs hv
  · intro β view hs hv hworks
    obtain ⟨hsame, hview⟩ := hworks (readEntered r n m) m
      (view_entered hr hs hv (readDescriptor n) m)
    rw [reading.exit_instrumented hr, reading.rest_instrumented hr d n m hs hv]
    exact ⟨hsame, hview⟩

/-- A read into a file of three bytes in memory, heard by a recording. The
files and the bytes are a part of the machine that the read works on. -/
theorem read_observed_of_memory :
    let n : Name := ⟨⟨"memory".toList, none, "/three".toList, none, none⟩⟩
    let d : Resource := (MemoryResource.mk n 0 [] (.ok none) none).source.resource
    let reading : Reading (Option (ReadResult Unit)) := .writeToIfPresent [0x61]
    let m : Machine := { Machine.initial .empty .default with
      shelves := [⟨some [.data [1, 2, 3]], 0, 0⟩] }
    Runner.Calm [.recording] ∧ Run.KeepsScopes (reading.of d) ∧ m.scopes.Numbered
      ∧ (∀ l ∈ [Listener.recording], l.Leaves stock)
      ∧ Run.WorksOn (reading.of d) stock
      ∧ Observed d n [.recording] reading m := by
  intro n d reading m
  have hcalm : Runner.Calm [.recording] := by
    intro l hl
    rw [List.mem_singleton.1 hl]
    exact Listener.recording_calm
  have hkeeps : Run.KeepsScopes (reading.of d) :=
    Reading.keepsScopes_source (MemoryResource.keepsScopes_openContent _) trivial
  have hnumbered : m.scopes.Numbered := fun f hf => absurd hf List.not_mem_nil
  refine ⟨hcalm, hkeeps, hnumbered, ?_, ?_, read_observed hcalm hkeeps n hnumbered⟩
  · intro l hl
    rw [List.mem_singleton.1 hl]
    exact Listener.recording_leaves fun _ _ => rfl
  · exact ContentSource.worksOn_writeToIfPresent holdsFiles_stock
      (MemoryResource.worksOn_openContent _) [0x61]

end TracedTransfer.Resource
