/-
Two sources side by side.

Two steps go alike in a part of the machine (`Run.Like`) if they do so on
machines that agree in that part. A step that works on the part goes like
itself (`WorksOn.like`). What two sources answer may differ in the place
that it tells of: a failure in its location (`Error.Twins`), content in
its metadata (`Content.Like`).

Likeness passes from what sources are made of to what is done with them,
as far as to `Reading.like_source`: two sources that open their content
alike are read alike, by every read whose arguments do not look at where
the content comes from (`Reading.Discreet`).
-/
import TracedTransfer.Proofs.Resource.DisplayName
import TracedTransfer.Proofs.Resource.Transparency

namespace TracedTransfer

variable {α β γ δ ε ε' : Type}

/-- Answers that are alike: values that are related, or failures that are. -/
inductive AnswerLike (E : ε → ε' → Prop) (R : α → β → Prop) :
    Except ε α → Except ε' β → Prop where
  /-- Both have values, which are related, -/
  | ok {a : α} {b : β} (h : R a b) : AnswerLike E R (.ok a) (.ok b)
  /-- or both have errors, which are. -/
  | error {e : ε} {e' : ε'} (h : E e e') : AnswerLike E R (.error e) (.error e')

namespace Run

/-- Steps that go alike in a part of the machine. -/
abbrev Like (view : Machine → γ) (R : α → β → Prop) (x : Run α) (y : Run β) : Prop :=
  Action.Like (fun m m' => view m = view m') R x y

theorem WorksOn.like {view : Machine → γ} {x : Run α} (h : WorksOn x view) : Like view Eq x x :=
  worksOn_iff.1 h

end Run

-- ============================================================= writers

namespace Io.Writer

/-- A writer that works on a part of the machine. -/
structure WorksOn (w : Writer Machine) (view : Machine → γ) : Prop where
  /-- It writes alike to states that look alike, -/
  write : ∀ data (m m' : Machine), view m = view m' →
    (w.write data m).1 = (w.write data m').1
      ∧ view (w.write data m).2 = view (w.write data m').2
  /-- and is flushed alike. -/
  flush : ∀ m m' : Machine, view m = view m' →
    (w.flush m).1 = (w.flush m').1 ∧ view (w.flush m).2 = view (w.flush m').2

variable {w : Writer Machine} {view : Machine → γ}

/-- All rounds of a write do so as the single ones do. -/
theorem WorksOn.writeAllWithin (hw : w.WorksOn view) (fuel : Nat) (data : Text.Bytes)
    {m m' : Machine} (hm : view m = view m') :
    (w.writeAllWithin fuel data m).1 = (w.writeAllWithin fuel data m').1
      ∧ view (w.writeAllWithin fuel data m).2 = view (w.writeAllWithin fuel data m').2 := by
  induction fuel generalizing data m m' with
  | zero => exact ⟨rfl, hm⟩
  | succ fuel ih =>
      obtain ⟨hanswer, hview⟩ := hw.write data m m' hm
      unfold Writer.writeAllWithin
      split
      · exact ⟨rfl, hm⟩
      · rcases h : w.write data m with ⟨answer, m₁⟩
        rcases h' : w.write data m' with ⟨answer', m₁'⟩
        rw [h, h'] at hanswer hview
        obtain rfl : answer = answer' := hanswer
        cases answer with
        | ok n =>
            dsimp only
            split
            · exact ⟨rfl, hview⟩
            · exact ih _ hview
        | error e =>
            dsimp only
            split
            · exact ih _ hview
            · exact ⟨rfl, hview⟩

/-- A copy reads files and writes; nothing else matters to it. -/
theorem WorksOn.copyWithin {ρ : Type} [Source ρ] (hv : Resource.HoldsFiles view)
    (hw : w.WorksOn view) (fuel count : Nat) (r : ρ) {m m' : Machine} (hm : view m = view m') :
    (Io.copyWithin Machine.files w fuel count r m).outcome
        = (Io.copyWithin Machine.files w fuel count r m').outcome
      ∧ (Io.copyWithin Machine.files w fuel count r m).reader
        = (Io.copyWithin Machine.files w fuel count r m').reader
      ∧ view (Io.copyWithin Machine.files w fuel count r m).state
        = view (Io.copyWithin Machine.files w fuel count r m').state := by
  induction fuel generalizing count r m m' with
  | zero => exact ⟨rfl, rfl, hm⟩
  | succ fuel ih =>
      unfold Io.copyWithin
      rw [hv.files m m' hm]
      rcases Source.read m'.files chunkSize r with ⟨answer, r₁⟩
      cases answer with
      | ok data =>
          obtain ⟨hwritten, hview⟩ := hw.writeAllWithin (data.length + maxInterruptions) data hm
          dsimp only
          split
          · exact ⟨rfl, rfl, hm⟩
          · unfold Writer.writeAll
            rcases h : w.writeAllWithin (data.length + maxInterruptions) data m with ⟨written, m₁⟩
            rcases h' : w.writeAllWithin (data.length + maxInterruptions) data m'
              with ⟨written', m₁'⟩
            rw [h, h'] at hwritten hview
            -- What was written is known from the view, so both go on or both stop.
            obtain rfl : written = written' := hwritten
            cases written with
            | ok u => exact ih _ r₁ hview
            | error e => exact ⟨rfl, rfl, hview⟩
      | error e =>
          dsimp only
          split
          · exact ih _ r₁ hm
          · exact ⟨rfl, rfl, hm⟩

end Io.Writer

namespace Resource

open Run TracedTransfer.Action

variable {view : Machine → γ}

/-- A copy works on what its writer works on, if that shows the files. -/
theorem worksOn_copyAndFlush (hv : HoldsFiles view) {w : Io.Writer Machine}
    (hw : w.WorksOn view) (r : ContentReader) : WorksOn (copyAndFlush w r) view := by
  intro m m' hm
  obtain ⟨houtcome, hreader, hstate⟩ :=
    hw.copyWithin hv (Io.Source.pending m'.files r + 1) 0 r hm
  unfold copyAndFlush Io.copy
  rw [hv.files m m' hm]
  rcases h : Io.copyWithin Machine.files w (Io.Source.pending m'.files r + 1) 0 r m
    with ⟨outcome, r₁, m₁⟩
  rcases h' : Io.copyWithin Machine.files w (Io.Source.pending m'.files r + 1) 0 r m'
    with ⟨outcome', r₁', m₁'⟩
  rw [h, h'] at houtcome hreader hstate
  obtain rfl : outcome = outcome' := houtcome
  obtain rfl : r₁ = r₁' := hreader
  cases outcome with
  | ok n =>
      obtain ⟨hflushed, hview⟩ := hw.flush m₁ m₁' hstate
      exact ⟨congrArg (fun x => Exit.value (x, r₁)) hflushed, hview⟩
  | error e => exact ⟨rfl, hstate⟩

-- ========================================================= two sources

/-- The failure of an operation at another location. -/
def Error.movedTo (l : String) : Error → Error
  | .notFound _ => .notFound l
  | .io _ cause => .io l cause
  | .transform _ cause => .transform l cause
  | .http _ status => .http l status
  | .transport _ cause => .transport l cause
  | .unsupported _ operation => .unsupported l operation
  | .unsupportedScheme _ scheme => .unsupportedScheme l scheme

/-- The same failure at each of two locations. -/
def Error.Twins (l l' : String) (e e' : Error) : Prop := e.location = l ∧ e' = e.movedTo l'

/-- Metadata of another place. -/
def Metadata.movedTo (u : Url) (info : Metadata) : Metadata := { info with location := u }

/-- Metadata that differ at most in the user of the place. -/
structure Metadata.Like (info info' : Metadata) : Prop where
  /-- They are located at the same place, for two users, -/
  place : Url.SamePlace info.location info'.location
  /-- and the same in all other fields. -/
  others : info' = info.movedTo info'.location

/-- Content of the same bytes in memory, with metadata that are alike. -/
structure Content.Like (c c' : Content) : Prop where
  /-- Its bytes are the same, -/
  reader : ∃ bytes, c.reader = .ofBytes bytes ∧ c'.reader = .ofBytes bytes
  /-- and its metadata differ in the user at most. -/
  metadata : c.metadata.Like c'.metadata

/-- Answers that are alike may be followed by what is alike for related
values; failures that are related stay so. -/
theorem like_orFail {ε ε' δ' : Type} {E : ε → ε' → Prop} {R : α → β → Prop} {S : δ → δ' → Prop}
    {x : Run (Except ε α)} {y : Run (Except ε' β)} {f : α → Run (Except ε δ)}
    {g : β → Run (Except ε' δ')} (h : Like view (AnswerLike E R) x y)
    (hf : ∀ a b, R a b → Like view (AnswerLike E S) (f a) (g b)) :
    Like view (AnswerLike E S) (orFail x f) (orFail y g) := by
  refine like_bind h fun answer answer' hanswer => ?_
  cases hanswer with
  | ok hr => exact hf _ _ hr
  | error he => exact like_pure (.error he)

/-- To insist on something fails at the location of each. -/
theorem like_insist {n n' : Name} {x y : IfPresent α}
    (h : Like view (AnswerLike (Error.Twins n.location n'.location) Eq) x y) :
    Like view (AnswerLike (Error.Twins n.location n'.location) Eq) (insist n x) (insist n' y) := by
  refine like_orFail h ?_
  rintro found _ rfl
  cases found with
  | none => exact like_pure (.error ⟨rfl, rfl⟩)
  | some r => exact like_pure (.ok rfl)

/-- An action that does the same with content that is alike. -/
def ContentAction.Discreet (view : Machine → γ) (act : ContentAction α) : Prop :=
  ∀ bytes info info', Metadata.Like info info' →
    Run.Like view Eq (act info (.ofSource (.ofBytes bytes)))
      (act info' (.ofSource (.ofBytes bytes)))

/-- Sources that open their content alike. -/
def ContentSource.Like (view : Machine → γ) (s s' : ContentSource) : Prop :=
  Run.Like view (AnswerLike (Error.Twins s.name.location s'.name.location)
    (Option.Rel Content.Like)) s.openContent s'.openContent

namespace ContentSource

variable {s s' : ContentSource}

/-- Answers of two reads of two sources. -/
abbrev ReadLike (s s' : ContentSource) : Except Error α → Except Error α → Prop :=
  AnswerLike (Error.Twins s.name.location s'.name.location) Eq

/-- Sources that open alike are read alike by what reads alike from like
content: -/
theorem like_ifPresent (hs : s.Like view s')
    {f g : Content → Run (Except Error (ReadResult α))}
    (hf : ∀ c c', c.Like c' → Run.Like view (s.ReadLike s') (f c) (g c')) :
    Run.Like view (s.ReadLike s') (s.ifPresent f) (s'.ifPresent g) := by
  refine like_orFail hs fun found found' hfound => ?_
  cases hfound with
  | none => exact like_pure (.ok rfl)
  | some hc =>
      refine like_orFail (hf _ _ hc) ?_
      rintro r _ rfl
      exact like_pure (.ok rfl)

/-- downloads to a file, -/
theorem like_writeToIfPresent (hv : HoldsFiles view) (hs : s.Like view s')
    (destination : FilePath) :
    Run.Like view (s.ReadLike s') (s.writeToIfPresent destination)
      (s'.writeToIfPresent destination) := by
  refine like_ifPresent hs fun c c' hc => ?_
  obtain ⟨bytes, hreader, hreader'⟩ := hc.reader
  rw [hreader, hreader']
  refine like_bind_eq (worksOn_store hv _ destination).like fun done => ?_
  obtain ⟨outcome, r⟩ := done
  cases outcome with
  | ok n => exact like_pure (.ok rfl)
  | error e => exact like_pure (.error ⟨rfl, rfl⟩)

/-- copies to a stream, -/
theorem like_writeToStream (hv : HoldsFiles view) (hs : s.Like view s')
    {w : Io.Writer Machine} (hw : w.WorksOn view) :
    Run.Like view (s.ReadLike s') (s.writeToStream w) (s'.writeToStream w) := by
  refine like_insist (like_ifPresent hs fun c c' hc => ?_)
  obtain ⟨bytes, hreader, hreader'⟩ := hc.reader
  rw [hreader, hreader']
  refine like_bind_eq (worksOn_copyAndFlush hv hw _).like fun done => ?_
  obtain ⟨outcome, r⟩ := done
  cases outcome with
  | ok u => exact like_pure (.ok rfl)
  | error e => exact like_pure (.error ⟨rfl, rfl⟩)

/-- and actions that do not look at the location. -/
theorem like_withActionIfPresent (hs : s.Like view s') {act : ContentAction α}
    (ha : act.Discreet view) :
    Run.Like view (s.ReadLike s') (s.withActionIfPresent act) (s'.withActionIfPresent act) := by
  refine like_ifPresent hs fun c c' hc => ?_
  obtain ⟨bytes, hreader, hreader'⟩ := hc.reader
  rw [hreader, hreader']
  refine like_bind_eq (ha bytes _ _ hc.metadata) fun done => ?_
  obtain ⟨outcome, r⟩ := done
  cases outcome with
  | ok a => exact like_pure (.ok rfl)
  | error e => exact like_pure (.error ⟨rfl, rfl⟩)

end ContentSource

namespace Reading

/-- A read whose arguments work on a part of the machine, whoever the user
is that the content is read for. -/
def Discreet (view : Machine → γ) : Reading α → Prop
  | writeTo _ => True
  | writeToIfPresent _ => True
  | writeToStream w => w.WorksOn view
  | withContent f => ContentAction.Discreet view fun _ => f
  | withContentIfPresent f => ContentAction.Discreet view fun _ => f
  | withAction act => act.Discreet view
  | withActionIfPresent act => act.Discreet view

/-- Two sources that open their content alike are read alike. -/
theorem like_source {s s' : ContentSource} (hv : HoldsFiles view) (hs : s.Like view s')
    {reading : Reading α} (h : reading.Discreet view) :
    Run.Like view (s.ReadLike s') (reading.of s.resource) (reading.of s'.resource) := by
  cases reading with
  | writeTo p => exact like_insist (ContentSource.like_writeToIfPresent hv hs p)
  | writeToIfPresent p => exact ContentSource.like_writeToIfPresent hv hs p
  | writeToStream w => exact ContentSource.like_writeToStream hv hs h
  | withContent f => exact like_insist (ContentSource.like_withActionIfPresent hs h)
  | withContentIfPresent f => exact ContentSource.like_withActionIfPresent hs h
  | withAction act => exact like_insist (ContentSource.like_withActionIfPresent hs h)
  | withActionIfPresent act => exact ContentSource.like_withActionIfPresent hs h

end Reading

end Resource

end TracedTransfer
