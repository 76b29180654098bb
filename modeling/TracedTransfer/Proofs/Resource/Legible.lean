/-
What names and failures show is legible.

A name holds a URL, and if that is legible (`Url.IsLegible`), so is
whatever is shown of the name, and so is every name that is resolved
against it. A failure shows the location of what it tells of and little
else: a status, an operation or a scheme. What caused it is not part of
its message, so it does not matter which text the cause has
(`Error.Concerns.legible`).

Of the failures of a read none tells of anything but its source, provided
that this holds of opening the content (`Reading.concerns_source`); both
transports open content so (`AnyResource.openContent_concerns`).
-/
import TracedTransfer.Proofs.Resource.Transparency
import TracedTransfer.Proofs.Resource.WebOpening
import TracedTransfer.Proofs.Url.Legible
import TracedTransfer.Resource.Connector

namespace TracedTransfer.Resource

open Text

variable {α β : Type} {n n' : Name}

-- =============================================================== names

namespace Name

/-- A name that is parsed is a legible URL, -/
theorem legible_of_parse {s : String} (h : parse s = .ok n) : n.url.IsLegible := by
  unfold parse at h
  cases hu : Url.parse s with
  | error e =>
      rw [hu] at h
      cases h
  | ok u =>
      rw [hu] at h
      cases h
      exact Url.legible_of_parse hu

/-- its directory is one, -/
theorem legible_directory (hn : n.url.IsLegible) : n.directory.IsLegible := by
  unfold directory
  split
  · exact hn
  · exact hn.setPath _

/-- and so is each name that is resolved in it. -/
theorem legible_of_resolve (hn : n.url.IsLegible) {path : String}
    (h : n.resolve path = .ok n') : n'.url.IsLegible := by
  unfold resolve at h
  cases hu : n.directory.join (String.ofList (path.toList.dropWhile (· = '/'))) with
  | error e =>
      rw [hu] at h
      cases h
  | ok u =>
      rw [hu] at h
      cases h
      exact (legible_directory hn).join hu

variable (hn : n.url.IsLegible)

include hn

/-- So its full text is legible, -/
theorem legible_location : Legible n.location.toList := hn.text

/-- the one that is shown is, -/
theorem legible_displayName : Legible n.displayName.toList := hn.withoutCredentials.text

/-- and so is the short one. -/
theorem legible_shortDisplayName : Legible n.shortDisplayName.toList := by
  unfold shortDisplayName
  split
  · next s hs =>
      rw [String.toList_ofList]
      exact hn.lastSegment hs
  · exact legible_displayName hn

end Name

-- ============================================================= failures

/-- A failure that tells of a name, whatever caused it. -/
inductive Error.Concerns (n : Name) : Error → Prop
  | notFound : Concerns n (.notFound n.location)
  | io (cause : Io.Error) : Concerns n (.io n.location cause)
  | transform (cause : Io.Chain) : Concerns n (.transform n.location cause)
  | http (status : Nat) : Concerns n (.http n.location status)
  | transport (cause : Http.Failure) : Concerns n (.transport n.location cause)
  | unsupported {operation : String} (h : Legible operation.toList) :
      Concerns n (.unsupported n.location operation)
  | unsupportedScheme : Concerns n (.schemeOf n)

/-- The message of a failure is legible if the name is that it tells of. -/
theorem Error.Concerns.legible {e : Error} (h : e.Concerns n) (hn : n.url.IsLegible) :
    Legible e.message.toList := by
  have hlocation := Name.legible_location hn
  have hbehind : ∀ before : String, Legible before.toList →
      Legible (before ++ n.location).toList := by
    intro before hbefore
    rw [String.toList_append]
    exact legible_append.2 ⟨hbefore, hlocation⟩
  cases h with
  | notFound => exact hbehind "resource not found: " (by decide)
  | io cause => exact hbehind "could not access " (by decide)
  | transform cause => exact hbehind "could not process content of " (by decide)
  | http status =>
      show Legible (n.location ++ " returned HTTP " ++ Nat.repr status).toList
      have htext : Legible " returned HTTP ".toList := by decide
      rw [String.toList_append, String.toList_append, legible_append, legible_append]
      exact ⟨⟨hlocation, htext⟩, legible_decimal status⟩
  | transport cause =>
      show Legible ("transfer of " ++ n.location ++ " failed").toList
      have htext : Legible " failed".toList := by decide
      rw [String.toList_append, legible_append]
      exact ⟨hbehind "transfer of " (by decide), htext⟩
  | @unsupported operation hoperation =>
      apply hbehind (operation ++ " is not supported for ")
      have htext : Legible " is not supported for ".toList := by decide
      rw [String.toList_append, legible_append]
      exact ⟨hoperation, htext⟩
  | unsupportedScheme =>
      let scheme := String.ofList n.url.scheme
      show Legible ("no transport for scheme \x60" ++ scheme ++ "\x60 (" ++ n.location
        ++ ")").toList
      have hscheme : Legible scheme.toList := by
        rw [String.toList_ofList]
        exact hn.scheme
      have hstart : Legible "no transport for scheme \x60".toList := by decide
      have hopen : Legible "\x60 (".toList := by decide
      have hclose : Legible ")".toList := by decide
      rw [String.toList_append, legible_append]
      refine ⟨hbehind _ ?_, hclose⟩
      rw [String.toList_append, String.toList_append, legible_append, legible_append]
      exact ⟨⟨hstart, hscheme⟩, hopen⟩

-- ====================================================== failures of steps

/-- A step that fails, if it does, with a failure of some kind. -/
def FailsOnlyAs (P : Error → Prop) (x : Run (Except Error α)) : Prop :=
  Action.Returns (fun answer => ∀ e, answer = .error e → P e) x

section

variable {P : Error → Prop}

theorem failsOnlyAs_ok (a : α) : FailsOnlyAs P (pure (.ok a)) :=
  Action.returns_pure fun e he => by cases he

theorem failsOnlyAs_error {e : Error} (h : P e) :
    FailsOnlyAs P (pure (.error e) : Run (Except Error α)) :=
  Action.returns_pure fun e' he => by
    cases he
    exact h

/-- Two actions of which the second is made if the first succeeds. -/
theorem failsOnlyAs_orFail {x : Run (Except Error α)} {f : α → Run (Except Error β)}
    (hx : FailsOnlyAs P x) (hf : ∀ a, FailsOnlyAs P (f a)) : FailsOnlyAs P (orFail x f) := by
  refine Action.returns_bind hx fun answer hanswer => ?_
  cases answer with
  | ok a => exact hf a
  | error e => exact failsOnlyAs_error (hanswer e rfl)

theorem failsOnlyAs_bind (x : Run α) {f : α → Run (Except Error β)}
    (hf : ∀ a, FailsOnlyAs P (f a)) : FailsOnlyAs P (x >>= f) :=
  Action.returns_bind (Action.returns_true x) fun a _ => hf a

/-- To insist adds the failure that nothing was found. -/
theorem failsOnlyAs_insist (h : P (.notFound n.location)) {x : IfPresent α}
    (hx : FailsOnlyAs P x) : FailsOnlyAs P (insist n x) := by
  refine failsOnlyAs_orFail hx fun found => ?_
  cases found with
  | none => exact failsOnlyAs_error h
  | some r => exact failsOnlyAs_ok _

end

-- =============================================================== reads

section

variable {s : ContentSource} (hs : FailsOnlyAs (Error.Concerns s.name) s.openContent)

include hs

/-- What is read if it is there fails as the opening or the reading does, -/
theorem ContentSource.ifPresent_concerns {f : Content → Run (Except Error (ReadResult α))}
    (hf : ∀ c, FailsOnlyAs (Error.Concerns s.name) (f c)) :
    FailsOnlyAs (Error.Concerns s.name) (s.ifPresent f) := by
  refine failsOnlyAs_orFail hs fun found => ?_
  cases found with
  | none => exact failsOnlyAs_ok _
  | some c => exact failsOnlyAs_orFail (hf c) fun r => failsOnlyAs_ok _

/-- so a download to a file fails with errors about the resource, -/
theorem ContentSource.writeToIfPresent_concerns (destination : FilePath) :
    FailsOnlyAs (Error.Concerns s.name) (s.writeToIfPresent destination) := by
  refine ifPresent_concerns hs fun c => failsOnlyAs_bind _ fun done => ?_
  obtain ⟨outcome, r⟩ := done
  cases outcome with
  | ok n => exact failsOnlyAs_ok _
  | error cause => exact failsOnlyAs_error (.io cause)

/-- a copy to a stream does, -/
theorem ContentSource.writeToStream_concerns (w : Io.Writer Machine) :
    FailsOnlyAs (Error.Concerns s.name) (s.writeToStream w) := by
  refine failsOnlyAs_insist .notFound (ifPresent_concerns hs fun c =>
    failsOnlyAs_bind _ fun done => ?_)
  obtain ⟨outcome, r⟩ := done
  cases outcome with
  | ok u => exact failsOnlyAs_ok _
  | error cause => exact failsOnlyAs_error (.io cause)

/-- and an action on the content does. -/
theorem ContentSource.withActionIfPresent_concerns (act : ContentAction α) :
    FailsOnlyAs (Error.Concerns s.name) (s.withActionIfPresent act) := by
  refine ifPresent_concerns hs fun c => failsOnlyAs_bind _ fun done => ?_
  obtain ⟨outcome, r⟩ := done
  cases outcome with
  | ok a => exact failsOnlyAs_ok _
  | error cause => exact failsOnlyAs_error (.transform cause)

/-- Every failure of a read tells of the source, if opening its content
fails so. -/
theorem Reading.concerns_source (reading : Reading α) :
    FailsOnlyAs (Error.Concerns s.name) (reading.of s.resource) := by
  have hinsist : ∀ {β : Type} {x : IfPresent β}, FailsOnlyAs (Error.Concerns s.name) x →
      FailsOnlyAs (Error.Concerns s.name) (insist s.name x) :=
    failsOnlyAs_insist .notFound
  cases reading with
  | writeTo p => exact hinsist (ContentSource.writeToIfPresent_concerns hs p)
  | writeToIfPresent p => exact ContentSource.writeToIfPresent_concerns hs p
  | writeToStream w => exact ContentSource.writeToStream_concerns hs w
  | withContent f => exact hinsist (ContentSource.withActionIfPresent_concerns hs fun _ => f)
  | withContentIfPresent f => exact ContentSource.withActionIfPresent_concerns hs fun _ => f
  | withAction act => exact hinsist (ContentSource.withActionIfPresent_concerns hs act)
  | withActionIfPresent act => exact ContentSource.withActionIfPresent_concerns hs act

end

-- ========================================================== transports

/-- A file that cannot be looked at or opened is told of by its name. -/
theorem FileResource.openContent_concerns (r : FileResource) :
    FailsOnlyAs (Error.Concerns r.name) r.source.openContent := by
  intro m answer m' h e he
  have hopen : r.openContent m.files = answer := Exit.value.inj (congrArg Prod.fst h)
  rw [he] at hopen
  unfold openContent length? at hopen
  -- What is not found is no failure, in either of the two looks at the file.
  cases hlength : m.files.fileLength? r.path with
  | error cause =>
      rw [hlength] at hopen
      dsimp only at hopen
      by_cases hkind : cause.kind = .notFound
      · rw [if_pos hkind] at hopen
        cases hopen
      · rw [if_neg hkind] at hopen
        cases hopen
        exact .io cause
  | ok found =>
      rw [hlength] at hopen
      cases found with
      | none => cases hopen
      | some n =>
          dsimp only at hopen
          split at hopen
          · cases hopen
          · next cause _ =>
              split at hopen
              · cases hopen
              · cases hopen
                exact .io cause

/-- The errors that a status makes are about the resource. -/
theorem WebResource.classify_concerns (r : WebResource) (t : Http.Transfer) (value : α)
    {e : Error} (h : r.classify t value = .error e) : e.Concerns r.name := by
  unfold classify at h
  split at h
  · cases h
  · split at h
    · cases h
    · cases h
      exact .http t.status

/-- So is a temporary file that does not keep the content, a transfer that did not come about,
and a status that means failure. -/
theorem WebResource.openContent_concerns (r : WebResource) :
    FailsOnlyAs (Error.Concerns r.name) r.source.openContent := by
  refine WebResource.openContent_returns (fun cause e he => ?_) (fun cause e he => ?_)
    fun p file t e he => ?_
  · cases he
    exact .io cause
  · cases he
    exact .transport cause
  · unfold opened at he
    split at he
    · next e' hclassify =>
        cases he
        exact r.classify_concerns t file hclassify
    · cases he
    · split at he
      · next cause _ =>
          cases he
          exact .io cause
      · cases he

/-- The errors of opening a resource are about it. -/
theorem AnyResource.openContent_concerns (a : AnyResource) :
    FailsOnlyAs (Error.Concerns a.source.name) a.source.openContent := by
  cases a with
  | file r => exact r.openContent_concerns
  | web r => exact r.openContent_concerns

end TracedTransfer.Resource
