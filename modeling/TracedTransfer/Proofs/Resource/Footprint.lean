/-
Where steps reach.

Of a step that is not known any further two things can matter, and both
are about the parts of the machine that it touches:

- it leaves the scopes that are open as they are (`Run.KeepsScopes`).
  Scopes belong to calls, which close what they open, so this is all that
  a step can do to them;
- it may have a part of the machine that it works on (`Run.WorksOn`): how
  it ends and what it makes of that part depend on that part alone.

Both pass from the parts of a step to the whole (`Run.Composes`). A read
is made of opening its content and of what it does with that, so what
passes on like this passes on to reads.
-/
import TracedTransfer.Proofs.Effect
import TracedTransfer.Proofs.Operation.Notice
import TracedTransfer.Resource.Memory

namespace TracedTransfer

open Operation

variable {α β : Type}

-- ============================================================== scopes

namespace Operation

/-- Every open scope has a number that has been given out. -/
def Scopes.Numbered (s : Scopes) : Prop := ∀ f ∈ s.frames, f.id < s.nextId

theorem Scopes.Keeps.numbered {s t : Scopes} (h : s.Keeps t)
    (hs : s.Numbered) : t.Numbered := by
  intro f hf
  rw [h.frames] at hf
  exact Nat.lt_of_lt_of_le (hs f hf) h.nextId

end Operation

namespace Run

/-- A step that leaves the open scopes as they are. It may open others,
which it closes, unless it ends the whole program. -/
def KeepsScopes (x : Run α) : Prop :=
  ∀ m, m.scopes.Numbered → (x m).1 ≠ .abort → m.scopes.Keeps (x m).2.scopes

/-- A step that works on a part of the machine: how it ends and what it
leaves of that part depend on that part alone. -/
def WorksOn (x : Run α) (view : Machine → β) : Prop :=
  ∀ m m', view m = view m' →
    (x m).1 = (x m').1 ∧ view (x m).2 = view (x m').2

/-- A property of steps that passes from the parts of a step to the whole. -/
structure Composes (P : ∀ α : Type, Run α → Prop) : Prop where
  /-- It holds of actions that do nothing, -/
  pure : ∀ {α : Type} (a : α), P α (pure a)
  /-- and of two in a row if it holds of each. -/
  bind : ∀ {α β : Type} {x : Run α} {f : α → Run β}, P α x → (∀ a, P β (f a)) →
    P β (x >>= f)

/-- Nothing done touches no scope, -/
theorem keepsScopes_pure (a : α) : KeepsScopes (pure a) := fun _ _ _ => .refl _

/-- and two actions that touch none touch none in a row. -/
theorem keepsScopes_bind {x : Run α} {f : α → Run β} (hx : KeepsScopes x)
    (hf : ∀ a, KeepsScopes (f a)) : KeepsScopes (x >>= f) := by
  intro m hm hexit
  rcases h : x m with ⟨exit, m₁⟩
  have hk := hx m hm
  rw [h] at hk
  cases exit with
  | value a =>
      rw [Action.bind_of_value h] at hexit ⊢
      have hk₁ := hk (by intro h; cases h)
      exact hk₁.trans (hf a m₁ (hk₁.numbered hm) hexit)
  | unwind =>
      rw [Action.bind_of_unwind h]
      exact hk (by intro h; cases h)
  | abort =>
      rw [Action.bind_of_abort h] at hexit
      exact absurd rfl hexit

theorem composes_keepsScopes : Composes fun _ x => KeepsScopes x :=
  ⟨keepsScopes_pure, keepsScopes_bind⟩

/-- To look at the machine touches no scope, -/
theorem keepsScopes_gets (f : Machine → α) : KeepsScopes (Action.gets f) :=
  fun _ _ _ => .refl _

/-- and a change does not if it says so. -/
theorem keepsScopes_modify {f : Machine → Machine}
    (h : ∀ m, (f m).scopes = m.scopes) : KeepsScopes (Action.modify f) := by
  intro m _ _
  show m.scopes.Keeps (f m).scopes
  rw [h]
  exact .refl _

/-- A request to the file system gives its answer and leaves the rest of the machine. -/
theorem onFiles_eq (f : FileSystem → α × FileSystem) (m : Machine) :
    onFiles f m = (.value (f m.files).1, { m with files := (f m.files).2 }) := rfl

/-- Work on the files touches no scope, -/
theorem keepsScopes_onFiles (f : FileSystem → α × FileSystem) :
    KeepsScopes (onFiles f) := fun _ _ _ => .refl _

/-- and neither does a line in the log. -/
theorem keepsScopes_log (level : Log.Level) (target message : String)
    (fields : List (String × String)) :
    KeepsScopes (log level target message fields) :=
  keepsScopes_modify fun m => logged_scopes m level target message fields

theorem worksOn_pure (a : α) (view : Machine → β) : WorksOn (pure a) view :=
  fun _ _ h => ⟨rfl, h⟩

/-- A step that works on a part goes like itself where that part is the
same. -/
theorem worksOn_iff {x : Run α} {view : Machine → β} : WorksOn x view
    ↔ Action.Like (fun m m' => view m = view m') Eq x x := Action.like_eq_iff.symm

theorem worksOn_bind {γ : Type} {x : Run α} {f : α → Run β}
    {view : Machine → γ} (hx : WorksOn x view) (hf : ∀ a, WorksOn (f a) view) :
    WorksOn (x >>= f) view :=
  worksOn_iff.2 (Action.like_bind_eq (worksOn_iff.1 hx) fun a => worksOn_iff.1 (hf a))

theorem composes_worksOn (view : Machine → β) : Composes fun _ x => WorksOn x view :=
  ⟨fun a => worksOn_pure a view, worksOn_bind⟩

theorem worksOn_gets {f : Machine → α} {view : Machine → β}
    (h : ∀ m m', view m = view m' → f m = f m') : WorksOn (Action.gets f) view :=
  fun m m' hm => ⟨congrArg Exit.value (h m m' hm), hm⟩

theorem worksOn_modify {f : Machine → Machine} {view : Machine → β}
    (h : ∀ m m', view m = view m' → view (f m) = view (f m')) :
    WorksOn (Action.modify f) view :=
  fun m m' hm => ⟨rfl, h m m' hm⟩

end Run

-- ============================================================= reading

namespace Io.Writer

variable {w : Writer Machine}

section

variable {R : Machine → Machine → Prop} (hrefl : ∀ m, R m m)
  (htrans : ∀ {m₁ m₂ m₃}, R m₁ m₂ → R m₂ m₃ → R m₁ m₃)
  (hw : ∀ data m, R m (w.write data m).2)

include hrefl htrans hw

/-- Writing everything is writing over and over. -/
theorem rel_writeAllWithin (fuel : Nat) (data : Text.Bytes) (m : Machine) :
    R m (w.writeAllWithin fuel data m).2 := by
  induction fuel generalizing data m with
  | zero => exact hrefl m
  | succ fuel ih =>
      have hk := hw data m
      unfold Writer.writeAllWithin
      split
      · exact hrefl m
      · rcases h : w.write data m with ⟨answer, m₁⟩
        rw [h] at hk
        cases answer with
        | ok n =>
            dsimp only
            split
            · exact hk
            · exact htrans hk (ih _ m₁)
        | error e =>
            dsimp only
            split
            · exact htrans hk (ih _ m₁)
            · exact hk

/-- So is copying, since reading touches nothing. -/
theorem rel_copyWithin {ρ : Type} [Source ρ] (fuel count : Nat) (r : ρ) (m : Machine) :
    R m (Io.copyWithin Machine.files w fuel count r m).state := by
  induction fuel generalizing count r m with
  | zero => exact hrefl m
  | succ fuel ih =>
      unfold Io.copyWithin
      rcases Source.read m.files chunkSize r with ⟨answer, r₁⟩
      cases answer with
      | ok data =>
          have hk := rel_writeAllWithin hrefl htrans hw (data.length + maxInterruptions) data m
          dsimp only
          split
          · exact hrefl m
          · rcases h : w.writeAll data m with ⟨written, m₁⟩
            rw [show w.writeAllWithin (data.length + maxInterruptions) data m
              = w.writeAll data m from rfl, h] at hk
            cases written with
            | ok u => exact htrans hk (ih _ r₁ m₁)
            | error e => exact hk
      | error e =>
          dsimp only
          split
          · exact ih _ r₁ m
          · exact hrefl m

/-- A copy that is flushed in the end. -/
theorem rel_copyAndFlush (hflush : ∀ m, R m (w.flush m).2) (r : Resource.ContentReader)
    (m : Machine) : R m (Resource.copyAndFlush w r m).2 := by
  have hk := rel_copyWithin hrefl htrans hw (Io.Source.pending m.files r + 1) 0 r m
  unfold Resource.copyAndFlush Io.copy
  rcases h : Io.copyWithin Machine.files w (Io.Source.pending m.files r + 1) 0 r m
    with ⟨outcome, r₁, m₁⟩
  rw [h] at hk
  cases outcome with
  | ok n => exact htrans hk (hflush m₁)
  | error e => exact hk

end

/-- A writer that leaves the open scopes as they are. -/
structure KeepsScopes (w : Writer Machine) : Prop where
  /-- So it does when it is written to -/
  write : ∀ data (m : Machine), m.scopes.Keeps (w.write data m).2.scopes
  /-- and when it is flushed. -/
  flush : ∀ m : Machine, m.scopes.Keeps (w.flush m).2.scopes

end Io.Writer

namespace Resource

open Run

/-- A log line about a part file leaves the files alone. -/
theorem logRemoval_run (failure : Option Io.Error) (m : Machine) :
    ∃ m', logRemoval failure m = (.value (), m') ∧ m'.files = m.files := by
  cases failure with
  | none => exact ⟨m, rfl, rfl⟩
  | some e => exact ⟨_, rfl, logged_files m _ _ _ _⟩

/-- That a part file could not be removed is logged, and no more. -/
theorem keepsScopes_logRemoval (failure : Option Io.Error) :
    KeepsScopes (logRemoval failure) := by
  cases failure with
  | none => exact keepsScopes_pure _
  | some e => exact keepsScopes_log _ _ _ _

/-- To store content touches no scope, -/
theorem keepsScopes_store (r : ContentReader) (destination : FilePath) :
    KeepsScopes (store r destination) :=
  keepsScopes_bind (keepsScopes_onFiles _) fun stored =>
    keepsScopes_bind (keepsScopes_logRemoval stored.removal) fun _ =>
      keepsScopes_pure _

/-- and to copy it to a stream does not if the stream itself touches none. -/
theorem keepsScopes_copyAndFlush {w : Io.Writer Machine} (hw : w.KeepsScopes)
    (r : ContentReader) : KeepsScopes (copyAndFlush w r) :=
  fun m _ _ => Io.Writer.rel_copyAndFlush (R := fun m m' => m.scopes.Keeps m'.scopes)
    (fun _ => .refl _) Scopes.Keeps.trans hw.write hw.flush r m

-- =============================================================== reads

end Resource

namespace Run.Composes

open Resource

variable {P : ∀ α : Type, Run α → Prop} (hP : Composes P)

include hP

/-- Where the first action fails, the second is not made, so it is enough that both have the
property. -/
theorem orFail {ε : Type} {x : Run (Except ε α)} {f : α → Run (Except ε β)} (hx : P _ x)
    (hf : ∀ a, P _ (f a)) : P _ (orFail x f) := by
  refine hP.bind hx fun answer => ?_
  cases answer with
  | ok a => exact hf a
  | error e => exact hP.pure _

/-- To insist on content adds no action, -/
theorem insist (n : Name) {x : IfPresent α} (hx : P _ x) : P _ (insist n x) := by
  refine hP.orFail hx fun found => ?_
  cases found with
  | none => exact hP.pure _
  | some r => exact hP.pure _

section Source

variable {s : ContentSource} (hs : P _ s.openContent)

include hs

/-- to read it if it is there adds the opening, -/
theorem ifPresent {f : Content → Run (Except Error (ReadResult α))} (hf : ∀ c, P _ (f c)) :
    P _ (s.ifPresent f) := by
  refine hP.orFail hs fun found => ?_
  cases found with
  | none => exact hP.pure _
  | some c => exact hP.orFail (hf c) fun r => hP.pure _

/-- a download to a file the storing, -/
theorem writeToIfPresent {destination : FilePath} (h : ∀ r, P _ (store r destination)) :
    P _ (s.writeToIfPresent destination) := by
  refine hP.ifPresent hs fun c => hP.bind (h _) fun done => ?_
  obtain ⟨outcome, r⟩ := done
  cases outcome with
  | ok n => exact hP.pure _
  | error e => exact hP.pure _

/-- a copy to a stream the copying, -/
theorem writeToStream {w : Io.Writer Machine} (h : ∀ r, P _ (copyAndFlush w r)) :
    P _ (s.writeToStream w) := by
  refine hP.insist _ (hP.ifPresent hs fun c => hP.bind (h _) fun done => ?_)
  obtain ⟨outcome, r⟩ := done
  cases outcome with
  | ok u => exact hP.pure _
  | error e => exact hP.pure _

/-- and an action on the content that action. -/
theorem withActionIfPresent {act : ContentAction α} (h : ∀ info r, P _ (act info r)) :
    P _ (s.withActionIfPresent act) := by
  refine hP.ifPresent hs fun c => hP.bind (h _ _) fun done => ?_
  obtain ⟨outcome, r⟩ := done
  cases outcome with
  | ok a => exact hP.pure _
  | error e => exact hP.pure _

end Source

end Run.Composes

namespace Resource

open Run

-- ========================================================= into a file

/-- A part of the machine that holds the files, and that log lines leave
alone. -/
structure HoldsFiles (view : Machine → β) : Prop where
  /-- The files can be seen in it, -/
  files : ∀ m m', view m = view m' → m.files = m'.files
  /-- can be put into it, -/
  replaced : ∀ m m' fs, view m = view m' →
    view { m with files := fs } = view { m' with files := fs }
  /-- and the log cannot be seen. -/
  logged : ∀ m level target message fields,
    view (m.logged level target message fields) = view m

variable {view : Machine → β}

/-- To store content needs to see the files only. -/
theorem worksOn_store (hv : HoldsFiles view) (r : ContentReader)
    (destination : FilePath) : WorksOn (store r destination) view := by
  refine worksOn_bind ?_ fun stored => worksOn_bind ?_ fun _ => worksOn_pure _ view
  · intro m m' hm
    unfold onFiles
    rw [hv.files m m' hm]
    exact ⟨rfl, hv.replaced m m' _ hm⟩
  · cases stored.removal with
    | none => exact worksOn_pure _ view
    | some e =>
        refine worksOn_modify fun m m' hm => ?_
        rw [hv.logged, hv.logged]
        exact hm

/-- Reads into a file work on the files and on what the content is opened
from. -/
theorem ContentSource.worksOn_writeToIfPresent {s : ContentSource}
    (hv : HoldsFiles view) (hs : WorksOn s.openContent view)
    (destination : FilePath) : WorksOn (s.writeToIfPresent destination) view :=
  (composes_worksOn view).writeToIfPresent hs fun r => worksOn_store hv r destination

/-- The files and the contents of sources in memory. -/
def stock (m : Machine) : FileSystem × List Shelf := (m.files, m.shelves)

/-- Files and contents in memory show the files. -/
theorem holdsFiles_stock : HoldsFiles stock where
  files _ _ h := congrArg Prod.fst h
  replaced _ _ _ h := congrArg (Prod.mk _) (congrArg Prod.snd h)
  logged m level target message fields := by
    obtain ⟨log, console, h⟩ := logged_eq m level target message fields
    rw [h]
    rfl

namespace MemoryResource

variable (s : MemoryResource)

/-- A resource in memory opens its content without touching scopes, -/
theorem keepsScopes_openContent : KeepsScopes s.openContent := by
  refine keepsScopes_bind (keepsScopes_modify fun _ => rfl) fun _ => ?_
  cases s.openFailure with
  | some e => exact keepsScopes_pure _
  | none => exact keepsScopes_bind (keepsScopes_gets _) fun _ => keepsScopes_pure _

/-- and sees no more of the machine than files and contents in memory. -/
theorem worksOn_openContent : WorksOn s.openContent stock := by
  refine worksOn_bind (worksOn_modify fun m m' hm => ?_) fun _ => ?_
  · obtain ⟨hfiles, hshelves⟩ := Prod.ext_iff.1 hm
    exact Prod.ext hfiles (congrArg (fun l => List.modify l s.shelf _) hshelves)
  · cases s.openFailure with
    | some e => exact worksOn_pure _ stock
    | none =>
        refine worksOn_bind (worksOn_gets fun m m' hm => ?_) fun _ =>
          worksOn_pure _ stock
        exact congrArg (fun l => List.getD l s.shelf _) (Prod.ext_iff.1 hm).2

end MemoryResource

end Resource

end TracedTransfer
