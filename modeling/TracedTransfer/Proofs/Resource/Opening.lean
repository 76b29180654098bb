/-
Opening content.

Over whatever transport it goes, opening touches no file, and what it
brings is a reader of something that is there already (`opened_there`):
bytes that have come over HTTP, or an open file. So whoever stores the
content makes a new file beside it.

What transports do are a few kinds of steps. A property that these have,
and that passes on, opening has (`Run.Transports`): it keeps scopes, and
it leaves alone what neither requests nor log lines touch. A read touches
what opening touches, the files and what its arguments touch
(`Reading.leaves_source`).
-/
import TracedTransfer.Proofs.Resource.Transparency
import TracedTransfer.Proofs.Resource.Transport
import TracedTransfer.Proofs.Resource.WebOpening
import TracedTransfer.Proofs.Storage.Vacant
import TracedTransfer.Resource.Connector

namespace TracedTransfer

variable {α β γ : Type}

-- =============================================================== steps

namespace Run

/-- A step that leaves a part of the machine as it is, however it ends. -/
def Leaves (x : Run α) (view : Machine → β) : Prop := ∀ m, view (x m).2 = view m

variable {view : Machine → γ}

/-- Nothing done leaves all as it is, -/
theorem leaves_pure (a : α) : Leaves (pure a) view := fun _ => rfl

/-- so does a look at the machine, -/
theorem leaves_gets (f : Machine → α) : Leaves (Action.gets f) view := fun _ => rfl

/-- and so do two actions in a row that do so each. -/
theorem leaves_bind {x : Run α} {f : α → Run β} (hx : Leaves x view)
    (hf : ∀ a, Leaves (f a) view) : Leaves (x >>= f) view := by
  intro m
  have hm := hx m
  rcases h : x m with ⟨exit, m₁⟩
  rw [h] at hm
  cases exit with
  | value a =>
      rw [Action.bind_of_value h]
      exact (hf a m₁).trans hm
  | unwind =>
      rw [Action.bind_of_unwind h]
      exact hm
  | abort =>
      rw [Action.bind_of_abort h]
      exact hm

theorem composes_leaves (view : Machine → γ) : Composes fun _ x => Leaves x view :=
  ⟨leaves_pure, leaves_bind⟩

/-- A part of the machine that neither requests nor log lines touch. -/
structure Offline (view : Machine → γ) : Prop where
  /-- It shows no server -/
  server : ∀ m s, view { m with server := s } = view m
  /-- and no log. -/
  logged : ∀ m level target message fields,
    view (m.logged level target message fields) = view m

theorem offline_files : Offline Machine.files where
  server _ _ := rfl
  logged := Operation.logged_files

theorem leaves_log (hv : Offline view) (level : Log.Level) (target message : String)
    (fields : List (String × String)) : Leaves (log level target message fields) view :=
  fun m => hv.logged m level target message fields

-- ================================================================ HTTP

/-- A property that passes on and that the steps have which transports
take. -/
structure Transports (P : ∀ α : Type, Run α → Prop) : Prop extends Composes P where
  /-- It holds of looking at the machine, -/
  gets : ∀ {α : Type} (f : Machine → α), P α (Action.gets f)
  /-- of sending a request, -/
  send : ∀ r, P _ (Http.send r)
  /-- and of a line in the log. -/
  log : ∀ level target message fields, P _ (log level target message fields)

/-- Requests keep the scopes, -/
theorem transports_keepsScopes : Transports fun _ x => KeepsScopes x where
  toComposes := composes_keepsScopes
  gets := keepsScopes_gets
  send r m _ _ := by
    unfold Http.send
    split
    · exact .refl _
    · exact .refl _
  log := keepsScopes_log

/-- and leave what is seen offline. -/
theorem transports_leaves (hv : Offline view) : Transports fun _ x => Leaves x view where
  toComposes := composes_leaves view
  gets := leaves_gets
  send r m := by
    unfold Http.send
    cases m.server with
    | none => rfl
    | some server => exact hv.server m _
  log := leaves_log hv

namespace Transports

open Http

variable {P : ∀ α : Type, Run α → Prop} (hP : Transports P)

include hP

/-- A request is made of sending and of what is added to the log, -/
theorem request (method : Method) (first u : Url) : P _ (request method first u) := by
  unfold Http.request
  cases authorizationFor first u with
  | error e => exact hP.pure _
  | ok authorization =>
      refine hP.bind (hP.gets _) fun refused => ?_
      cases refused with
      | some e => exact hP.pure _
      | none => exact hP.bind (hP.send _) fun _ => hP.pure _

/-- a chain of its requests, -/
theorem follow (limit : Nat) (method : Method) (first : Url) (left : Nat)
    (before : List Text.Bytes) (u : Url) : P _ (follow limit method first left before u) := by
  induction left using Nat.strongRecOn generalizing before u with
  | _ left ih =>
      unfold Http.follow
      refine hP.bind (hP.request method first u) fun answer => ?_
      cases answer with
      | error e => exact hP.pure _
      | ok r =>
          dsimp only
          split
          · exact hP.pure _
          · split
            · exact hP.pure _
            · cases left with
              | zero => exact hP.pure _
              | succ left =>
                  dsimp only
                  split
                  · exact hP.pure _
                  · exact ih left (Nat.lt_succ_self left) _ _

/-- and a download of the chain and a look at the user. -/
theorem download (o : Options) (method : Method) (u : Url) : P _ (download o method u) := by
  unfold Http.download
  split
  · exact hP.follow _ method u _ [] u
  · exact hP.pure _

end Transports

end Run

-- ============================================================= opening

namespace Resource

variable {n : Name} {o : Http.Options} {a : AnyResource} {m m₁ : Machine} {c : Content}

/-- Opening content sends requests and writes log lines, over whatever transport. -/
theorem AnyResource.openContent_transports {P : ∀ α : Type, Run α → Prop}
    (hP : Run.Transports P) (a : AnyResource) : P _ a.source.openContent := by
  cases a with
  | file r => exact hP.gets _
  | web r =>
      refine hP.bind (hP.gets _) fun p => ?_
      cases p.create with
      | error e => exact hP.pure _
      | ok file =>
          refine hP.bind (hP.download _ _ _) fun answer => ?_
          cases answer with
          | error e => exact hP.pure _
          | ok t =>
              dsimp only
              cases r.keep p file t with
              | error e => exact hP.pure _
              | ok kept =>
                  dsimp only
                  split
                  · exact hP.bind (hP.log _ _ _ _) fun _ => hP.pure _
                  · exact hP.pure _

theorem AnyResource.keepsScopes_openContent (a : AnyResource) :
    Run.KeepsScopes a.source.openContent :=
  a.openContent_transports Run.transports_keepsScopes

theorem AnyResource.leaves_openContent {γ : Type} {view : Machine → γ} (hv : Run.Offline view)
    (a : AnyResource) : Run.Leaves a.source.openContent view :=
  a.openContent_transports (Run.transports_leaves hv)

/-- What a transport brings has its name. -/
theorem connect_name (h : connect o n = .ok a) : a.source.name = n := by
  rcases connect_cases n o with ⟨-, hfile⟩ | ⟨-, hweb⟩ | ⟨-, -, herror⟩
  · rw [hfile] at h
    rcases FileResource.ofName_cases n with ⟨-, p, -, hok⟩ | ⟨-, herror⟩
    · rw [hok] at h
      cases h
      rfl
    · rw [herror] at h
      cases h
  · rw [hweb] at h
    cases h
    rfl
  · rw [herror] at h
    cases h

/-- Content that a file opens reads a file that is there. -/
theorem FileResource.opened_there {r : FileResource} {fs : FileSystem}
    (hfs : FileSystem.Proper fs) (h : r.openContent fs = .ok (some c)) : c.reader.There fs := by
  unfold FileResource.openContent at h
  split at h
  · cases h
  · cases h
  · split at h
    · next handle hhandle =>
        cases h
        unfold FileSystem.openToRead at hhandle
        cases hresolve : fs.resolve r.path with
        | error e =>
            rw [hresolve] at hhandle
            cases hhandle
        | ok i =>
            rw [hresolve] at hhandle
            cases hhandle
            exact hfs.resolve_there hresolve
    · split at h
      · cases h
      · cases h

/-- What HTTP brings is read from a temporary file that nobody else knows. -/
theorem WebResource.opened_bytes {r : WebResource}
    (h : r.openContent m = (.value (.ok (some c)), m₁)) : ∃ bytes, c.reader = .ofBytes bytes := by
  -- the file that is handed over is read from where it stands
  have hopened : Action.Returns (fun answer => ∀ c : Content, answer = .ok (some c) →
      ∃ bytes, c.reader = .ofBytes bytes) r.openContent := by
    refine WebResource.openContent_returns (fun e c hc => by cases hc) (fun e c hc => by cases hc)
      fun p file t c hc => ?_
    unfold WebResource.opened at hc
    split at hc
    · cases hc
    · cases hc
    · split at hc
      · cases hc
      · cases hc
        exact ⟨_, rfl⟩
  exact hopened m _ m₁ h c rfl

/-- What opening brings is a reader of something that is there, and no
file has been touched. -/
theorem AnyResource.opened_there (hfs : FileSystem.Proper m.files)
    (h : a.source.openContent m = (.value (.ok (some c)), m₁)) :
    m₁.files = m.files ∧ c.reader.There m.files := by
  have hfiles := a.leaves_openContent Run.offline_files m
  rw [h] at hfiles
  refine ⟨hfiles, ?_⟩
  cases a with
  | file r => exact r.opened_there hfs (Exit.value.inj (congrArg Prod.fst h))
  | web r =>
      obtain ⟨bytes, hreader⟩ := r.opened_bytes h
      rw [hreader]
      trivial

-- ============================================================= reading

/-- A part of the machine that files do not touch either. -/
structure Distant {γ : Type} (view : Machine → γ) : Prop extends Run.Offline view where
  files : ∀ m fs, view { m with files := fs } = view m

/-- A read whose arguments leave a part of the machine as it is. -/
def Reading.Leaves {γ : Type} (view : Machine → γ) : Reading α → Prop
  | writeTo _ => True
  | writeToIfPresent _ => True
  | writeToStream w =>
      (∀ data m, view (w.write data m).2 = view m) ∧ ∀ m, view (w.flush m).2 = view m
  | withContent f => ∀ c, Run.Leaves (f c) view
  | withContentIfPresent f => ∀ c, Run.Leaves (f c) view
  | withAction act => ∀ info c, Run.Leaves (act info c) view
  | withActionIfPresent act => ∀ info c, Run.Leaves (act info c) view

section

variable {γ : Type} {view : Machine → γ} (hv : Distant view)

include hv

/-- To store content changes files and log, which a view from afar does not
show. -/
theorem leaves_store (r : ContentReader) (destination : FilePath) :
    Run.Leaves (store r destination) view := by
  refine Run.leaves_bind (fun m => hv.files m _) fun stored => ?_
  refine Run.leaves_bind ?_ fun _ => Run.leaves_pure _
  cases stored.removal with
  | none => exact Run.leaves_pure _
  | some e => exact Run.leaves_log hv.toOffline _ _ _ _

/-- A read leaves what its opening and its arguments leave. -/
theorem Reading.leaves_source {s : ContentSource} (hs : Run.Leaves s.openContent view)
    {reading : Reading α} (h : reading.Leaves view) :
    Run.Leaves (reading.of s.resource) view := by
  apply of_source (Run.composes_leaves view) hs
  cases reading with
  | writeTo p => exact fun r => leaves_store hv r p
  | writeToIfPresent p => exact fun r => leaves_store hv r p
  | writeToStream w =>
      exact fun r m => Io.Writer.rel_copyAndFlush (R := fun m m' => view m' = view m)
        (fun _ => rfl) (fun h h' => h'.trans h) h.1 h.2 r m
  | withContent f => exact h
  | withContentIfPresent f => exact h
  | withAction act => exact h
  | withActionIfPresent act => exact h

end

end Resource

end TracedTransfer
