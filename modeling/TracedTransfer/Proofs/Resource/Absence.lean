/-
How a file resource tells of absence.

Nothing is at a path for one of two reasons: a name on the way is missing,
or something on the way is no directory (`FileSystem.Finds`). A resource
takes only the first for absence. The second it reports as a failure, in
all its reads and in its metadata; only its list of entries is `none` for
both (`absent_unless_blocked`).
-/
import Mathlib
import TracedTransfer.Proofs.FileSystem.Search
import TracedTransfer.Proofs.Resource.FileViews

namespace TracedTransfer.Resource

open Text Io FileSystem

variable {α : Type} {r : FileResource} {fs : FileSystem} {m : Machine} {e : Io.Error}

/-- Where a path cannot be followed to its end, the kind of failure decides. -/
theorem FileResource.Looked.of_error {length : Except Error (Option Nat)}
    {opened : Except Error (Option Content)} (h : r.Looked fs length opened)
    (hr : fs.resolve r.path = .error e) :
    e.kind = .notFound ∧ length = .ok none ∧ opened = .ok none
      ∨ e.kind ≠ .notFound ∧ length = .error (r.failure e) ∧ opened = .error (r.failure e) := by
  cases h with
  | file hr' hi =>
      rw [hr] at hr'
      cases hr'
  | other hr' hi =>
      rw [hr] at hr'
      cases hr'
  | missing hr' he =>
      rw [hr] at hr'
      cases hr'
      exact .inl ⟨he, rfl, rfl⟩
  | failed hr' he =>
      rw [hr] at hr'
      cases hr'
      exact .inr ⟨he, rfl, rfl⟩

/-- A listing takes every error of resolving the path for an absence. -/
theorem FileResource.list_of_error (hr : m.files.resolve r.path = .error e) :
    r.source.resource.list m = (.value (.ok none), m) := by
  rw [list_run]
  unfold listEntries isDirectoryAt
  rw [hr]
  rfl

/-- What a resource answers whose path comes to `found` behind `n` links. -/
structure AnswersOf (r : FileResource) (m : Machine) (n : ℕ) (found : Finding) : Prop where
  /-- If a name is missing the metadata are `none`, and each read says that
  there is nothing, in its way. -/
  missing : found.refusal? r.path n = none → found = .missing →
    r.source.resource.metadata m = (.value (.ok none), m)
      ∧ ∀ {α : Type} (reading : Reading α),
        reading.of r.source.resource m = (.value (reading.ofNothing r.name), m)
  /-- A path that is refused is a failure, for the metadata and for each
  read. So it is if something on the way is no directory. -/
  refused : ∀ kind, found.refusal? r.path n = some kind →
    r.source.resource.metadata m
        = (.value (.error (.io r.name.location (.system kind))), m)
      ∧ ∀ {α : Type} (reading : Reading α), reading.of r.source.resource m
        = (.value (.error (.io r.name.location (.system kind))), m)
  /-- There is no list of entries where there is nothing. -/
  list : (∀ i, found ≠ .node i) → r.source.resource.list m = (.value (.ok none), m)

/-- **Absence is a missing name**, and not something else in a directory's
place. -/
theorem absent_unless_blocked {n : ℕ} {found : Finding} (hzero : r.path.contains 0 = false)
    (hfinds : m.files.Finds r.path n found) : AnswersOf r m n found := by
  have hlooked := r.looked m.files
  have hmetadata := r.metadata_run m
  have hopen := r.open_run m
  generalize r.length? m.files = length at hlooked hmetadata
  generalize r.openContent m.files = opened at hlooked hopen
  refine ⟨?_, ?_, ?_⟩
  -- Nothing is there: every read says so.
  · rintro hrefusal rfl
    rcases hlooked.of_error (hfinds.resolve_of_none hzero hrefusal) with
      ⟨-, rfl, rfl⟩ | ⟨hkind, -, -⟩
    · exact ⟨hmetadata, fun reading => reading.of_none hopen⟩
    · exact absurd rfl hkind
  -- The system refuses the path, and that is never for want of something there.
  · intro kind hrefusal
    rcases hlooked.of_error (hfinds.resolve_of_refusal hzero hrefusal) with
      ⟨hkind, -, -⟩ | ⟨-, rfl, rfl⟩
    · exact absurd hkind (Finding.refusal?_ne_notFound hrefusal)
    · exact ⟨hmetadata, fun reading => reading.of_error hopen⟩
  -- A listing takes both for an absence.
  · intro hnode
    cases hrefusal : found.refusal? r.path n with
    | some kind =>
        exact FileResource.list_of_error (hfinds.resolve_of_refusal hzero hrefusal)
    | none =>
        have hr := hfinds.resolve_of_none hzero hrefusal
        cases found with
        | node i => exact absurd rfl (hnode i)
        | missing => exact FileResource.list_of_error hr
        | blocked => exact FileResource.list_of_error hr
        | overlong => exact FileResource.list_of_error hr

/-- A file, and a link to nothing. -/
def linkedNowhere : FileSystem where
  nodes := [.directory [(bytesOf "d", 1), (bytesOf "l", 2)], .file (bytesOf "x"),
    .link (bytesOf "gone")]
  workingDirectory := []

/-- A file resource at a path from the root. -/
def resourceAt (path : String) : FileResource :=
  ⟨⟨⟨"file".toList, none, path.toList, none, none⟩⟩, bytesOf path⟩

/-- Of a link to nothing the answer is that there is nothing. -/
theorem absent_unless_blocked_of_link :
    let r := resourceAt "/l"
    let m := Machine.initial linkedNowhere .default
    r.path.contains 0 = false ∧ m.files.Finds r.path 1 .missing
      ∧ Finding.refusal? r.path 1 .missing = none ∧ AnswersOf r m 1 .missing := by
  intro r m
  have hzero : r.path.contains 0 = false := by decide
  have hname : IsName (bytesOf "l") := ⟨by decide, by decide, by decide⟩
  have hgone : IsName (bytesOf "gone") := ⟨by decide, by decide, by decide⟩
  have hfinds : m.files.Finds r.path 1 .missing :=
    .path (by decide) (.along hname rfl rfl (by decide) (.missing hgone rfl))
  exact ⟨hzero, hfinds, rfl, absent_unless_blocked hzero hfinds⟩

/-- Behind a file there is nothing, and neither do the metadata say so, nor a
read that takes absence for an answer, nor one that insists. -/
theorem no_absence_behind_file :
    let r := resourceAt "/d/y"
    let m := Machine.initial linkedNowhere .default
    let e : Error := .io r.name.location (.system .notADirectory)
    m.files.Finds r.path 0 .blocked
      ∧ r.source.resource.metadata m = (.value (.error e), m)
      ∧ r.source.resource.withContentIfPresent readAll m = (.value (.error e), m)
      ∧ r.source.resource.withContent readAll m = (.value (.error e), m)
      ∧ r.source.resource.list m = (.value (.ok none), m) := by
  intro r m e
  have hname : IsName (bytesOf "d") := ⟨by decide, by decide, by decide⟩
  have hfinds : m.files.Finds r.path 0 .blocked :=
    .path (by decide) (.blocked hname rfl (fun _ => nofun) rfl (by decide))
  have hr : m.files.resolve r.path = .error (.system .notADirectory) := by cbv
  have hopen : r.source.openContent m = (.value (.error e), m) := by
    rw [FileResource.open_run, FileResource.openContent, FileResource.length?, fileLength?, hr]
    rfl
  have hmetadata : r.source.resource.metadata m = (.value (.error e), m) := by
    rw [FileResource.metadata_run, FileResource.length?, fileLength?, hr]
    rfl
  exact ⟨hfinds, hmetadata, ifPresent_of_error hopen _,
    Reading.of_error hopen (.withContent readAll), FileResource.list_of_error hr⟩

end TracedTransfer.Resource
