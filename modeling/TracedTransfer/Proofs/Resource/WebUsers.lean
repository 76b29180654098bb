/-
One resource over HTTP, read for two users.

Names that differ in user name and password at most are names of the same
resource (`Name.SameButUser`). If both users can be sent, or neither,
downloads for them go alike (`Http.Anonymity`), so their content is opened
alike and every read of them ends alike (`like_web`). A failure alone tells
them apart: it is the same failure (`Error.Twins`), but it holds the
location with its user, and so do its texts (`Error.Twins.message`,
`Error.Twins.chain_text`).

If a user cannot be sent, opening fails before anything goes out
(`openContent_unsendable`), and so does every read (`Reading.of_failed`).
-/
import TracedTransfer.Proofs.Http.Anonymity
import TracedTransfer.Proofs.Resource.HeaderFields
import TracedTransfer.Proofs.Resource.Transport
import TracedTransfer.Resource.Web

namespace TracedTransfer

-- =============================================================== texts

/-- Two texts that are the same around two other ones. -/
def SameAround (l l' s s' : String) : Prop :=
  ∃ before after, s = before ++ l ++ after ∧ s' = before ++ l' ++ after

namespace SameAround

variable {l l' s s' : String}

/-- A text in front of both, -/
theorem prepend (h : SameAround l l' s s') (t : String) : SameAround l l' (t ++ s) (t ++ s') := by
  obtain ⟨before, after, rfl, rfl⟩ := h
  exact ⟨t ++ before, after, by simp only [String.append_assoc],
    by simp only [String.append_assoc]⟩

/-- or behind both, stands around the users as what is there already. -/
theorem append (h : SameAround l l' s s') (t : String) : SameAround l l' (s ++ t) (s' ++ t) := by
  obtain ⟨before, after, rfl, rfl⟩ := h
  exact ⟨before, after ++ t, by simp only [String.append_assoc],
    by simp only [String.append_assoc]⟩

end SameAround

/-- The text of a chain begins with its first text, whatever that is. -/
theorem Io.Chain.text_known (rest : Io.Chain) :
    ∃ after, ∀ s, Io.Chain.text (.known s :: rest) = s ++ after := by
  cases rest with
  | nil => exact ⟨"", fun s => (String.append_empty).symm⟩
  | cons c rest =>
      cases c with
      | system => exact ⟨"", fun s => (String.append_empty).symm⟩
      | known t => exact ⟨": " ++ Io.Chain.text (.known t :: rest),
          fun s => String.append_assoc ..⟩

namespace Resource

namespace Error.Twins

variable {l l' : String} {e e' : Error}

/-- Twins have messages that differ in the user only, -/
theorem message (h : Twins l l' e e') : SameAround l l' e.message e'.message := by
  obtain ⟨rfl, rfl⟩ := h
  cases e with
  | notFound l => exact ⟨"resource not found: ", "", (String.append_empty).symm,
      (String.append_empty).symm⟩
  | io l cause => exact ⟨"could not access ", "", (String.append_empty).symm,
      (String.append_empty).symm⟩
  | transform l cause => exact ⟨"could not process content of ", "", (String.append_empty).symm,
      (String.append_empty).symm⟩
  | http l status =>
      refine ⟨"", " returned HTTP " ++ Nat.repr status, ?_, ?_⟩
      · rw [String.empty_append, ← String.append_assoc]
        rfl
      · rw [String.empty_append, ← String.append_assoc]
        rfl
  | transport l cause => exact ⟨"transfer of ", " failed", rfl, rfl⟩
  | unsupported l operation => exact ⟨operation ++ " is not supported for ", "",
      (String.append_empty).symm, (String.append_empty).symm⟩
  | unsupportedScheme l scheme =>
      exact ⟨"no transport for scheme \x60" ++ scheme ++ "\x60 (", ")", rfl, rfl⟩

/-- and the same causes. -/
theorem causes (h : Twins l l' e e') : e'.causes = e.causes := by
  obtain ⟨rfl, rfl⟩ := h
  cases e with
  | notFound l => rfl
  | io l cause => rfl
  | transform l cause => rfl
  | http l status => rfl
  | transport l cause => rfl
  | unsupported l operation => rfl
  | unsupportedScheme l scheme => rfl

/-- The whole text of a failure shows where it happened, and is otherwise
the same elsewhere. -/
theorem chain_text (h : Twins l l' e e') :
    SameAround l l' (Io.Chain.text e.chain) (Io.Chain.text e'.chain) := by
  obtain ⟨after, hafter⟩ := Io.Chain.text_known e.causes
  unfold Error.chain
  rw [h.causes, hafter, hafter]
  exact h.message.append after

end Error.Twins

-- ============================================================ metadata

namespace Metadata

/-- Where metadata are located is not seen by header lines. -/
theorem addLine_movedTo (u : Url) (info : Metadata) (line : String) :
    (info.movedTo u).addLine line = (info.addLine line).movedTo u := by
  unfold addLine
  cases headerOf line with
  | none => rfl
  | some header =>
      obtain ⟨field, value⟩ := header
      cases field with
      | contentLength => rfl
      | lastModified => rfl
      | contentType => rfl
      | etag => rfl
      | sha1 =>
          show (if value.isEmpty then _ else _) = movedTo u (if value.isEmpty then _ else _)
          by_cases hvalue : value.isEmpty = true
          · rw [if_pos hvalue, if_pos hvalue]
          · rw [if_neg hvalue, if_neg hvalue]
            rfl

/-- Header lines tell nothing of the place. -/
theorem ofHeaders_movedTo (u v : Url) (lines : List String) :
    ofHeaders v lines = (ofHeaders u lines).movedTo v := by
  have hstep : ∀ info, lines.foldl addLine (movedTo v info)
      = (lines.foldl addLine info).movedTo v := by
    induction lines with
    | nil => exact fun info => rfl
    | cons line lines ih =>
        intro info
        rw [List.foldl_cons, List.foldl_cons, addLine_movedTo, ih]
  exact hstep (ofLocation u)

end Metadata

-- =============================================================== names

/-- Two names over HTTP that differ in user name and password at most. -/
structure Name.SameButUser (n n' : Name) : Prop where
  /-- They are names of HTTP -/
  web : n.IsWeb
  /-- that lead to the same place. -/
  place : Url.SamePlace n.url n'.url

variable {n n' : Name}

/-- A name over HTTP that is read has a server. -/
theorem Name.served {uri : String} (h : Name.parse uri = .ok n) (hweb : n.IsWeb) :
    ∃ a, n.url.authority = some a := by
  obtain ⟨a, ha, -⟩ := (Name.shape_of_parse h).special hweb.kind
  exact ⟨a, ha⟩

/-- The two users of a resource. -/
theorem Name.SameButUser.users (h : n.SameButUser n')
    (hsent : Http.Unsendable n.url ↔ Http.Unsendable n'.url) {a : Url.Authority}
    (ha : n.url.authority = some a) : ∃ f : Url, ∃ a', n.url = f.on a ∧ n'.url = f.on a'
      ∧ Http.Users f a a' := by
  obtain ⟨hscheme, hserved, hhost, hport, hpath, hquery, hfragment⟩ := h.place
  rw [ha] at hserved
  obtain ⟨a', ha'⟩ := Option.isSome_iff_exists.1 hserved.symm
  have hurl' : n'.url = n.url.on a' := by
    rw [← Url.on_self ha']
    unfold Url.on
    rw [hscheme, hpath, hquery, hfragment]
  refine ⟨n.url, a', (Url.on_self ha).symm, hurl', ?_, ?_, ?_⟩
  · rwa [Url.host?, Url.host?, ha, ha'] at hhost
  · rwa [ha, ha'] at hport
  · rw [Url.on_self ha, ← hurl']
    exact hsent

-- =============================================================== reads

namespace WebResource

open Run TracedTransfer.Action

variable {o : Http.Options}

/-- A body is kept alike for two users. -/
theorem keep_like (n n' : Name) (o : Http.Options) (p : Storage.Spool) (file : Storage.TempFile)
    (t : Http.Transfer) : AnswerLike (Error.Twins n.location n'.location) Eq
      (keep ⟨n, o⟩ p file t) (keep ⟨n', o⟩ p file t) := by
  unfold keep
  cases p.writePieces t.pieces file with
  | error e => exact .error ⟨rfl, rfl⟩
  | ok file =>
      cases t.whole with
      | error e => exact .error ⟨rfl, rfl⟩
      | ok t => exact .ok rfl

/-- And so it is handed over, with metadata of the place of each. -/
theorem opened_like (h : n.SameButUser n') (o : Http.Options) (p : Storage.Spool)
    (file : Storage.TempFile) (t : Http.Transfer) :
    AnswerLike (Error.Twins n.location n'.location) (Option.Rel Content.Like)
      (opened ⟨n, o⟩ p file t) (opened ⟨n', o⟩ p file t) := by
  unfold opened classify
  cases isAbsentStatus t.status with
  | true => exact .ok .none
  | false =>
      cases isSuccessStatus t.status with
      | false => exact .error ⟨rfl, rfl⟩
      | true =>
          simp only [Bool.false_eq_true, if_false, if_true]
          cases p.rewind file with
          | error e => exact .error ⟨rfl, rfl⟩
          | ok file =>
              refine .ok (.some ⟨⟨_, rfl, rfl⟩, ?_, ?_⟩)
              · unfold metadataOf
                rw [Metadata.ofHeaders_location, Metadata.ofHeaders_location]
                exact h.place
              · unfold metadataOf
                rw [Metadata.ofHeaders_location]
                exact Metadata.ofHeaders_movedTo ..

/-- Content over HTTP is opened alike for two users. -/
theorem like_web (h : n.SameButUser n')
    (hsent : Http.Unsendable n.url ↔ Http.Unsendable n'.url) {a : Url.Authority}
    (ha : n.url.authority = some a) :
    ContentSource.Like Machine.sight (WebResource.mk n o).source (WebResource.mk n' o).source := by
  obtain ⟨f, a', hurl, hurl', husers⟩ := h.users hsent ha
  have hdownload := Http.like_download husers o .get
  rw [← hurl, ← hurl'] at hdownload
  show Run.Like _ _ (openContent ⟨n, o⟩) (openContent ⟨n', o⟩)
  unfold openContent
  refine like_bind_eq (fun m m' hm => ⟨.value (congrArg Sight.spool hm), hm⟩) fun p => ?_
  cases p.create with
  | error e => exact like_pure (.error ⟨rfl, rfl⟩)
  | ok file =>
      refine like_bind_eq hdownload fun answer => ?_
      cases answer with
      | error e => exact like_pure (.error ⟨rfl, rfl⟩)
      | ok t =>
          -- The body is kept in both runs or in neither: that is a matter of its length alone.
          have hkeep := keep_like n n' o p file t
          dsimp only
          generalize keep ⟨n, o⟩ p file t = kept at hkeep ⊢
          generalize keep ⟨n', o⟩ p file t = kept' at hkeep ⊢
          cases hkeep with
          | error he => exact like_pure (.error he)
          | @ok kept kept' heq =>
              subst heq
              obtain ⟨t, file⟩ := kept
              dsimp only
              split
              · refine like_bind_eq (fun m m' hm => ⟨.value rfl, ?_⟩) fun _ =>
                  like_pure (opened_like h o p file t)
                show (Machine.logged ..).sight = (Machine.logged ..).sight
                rw [Machine.sight_logged, Machine.sight_logged]
                exact hm
              · exact like_pure (opened_like h o p file t)

-- ==================================================== users who are refused

/-- Why nothing is opened for a user who cannot be sent: for that, unless
there is no temporary file, or no clock for the time limits. -/
def refusal (r : WebResource) (p : Storage.Spool) : Error :=
  match p.creation with
  | some e => .io r.name.location e
  | none =>
    .transport r.name.location
      (if r.options.measurable then .badCredentials else .limitTooLong)

/-- Nothing is opened for a user who cannot be sent, and nothing is asked for. -/
theorem openContent_unsendable {r : WebResource} (h : Http.Unsendable r.name.url) (m : Machine) :
    r.openContent m = (.value (.error (r.refusal m.spool)), m) := by
  have hspool : (Action.gets Machine.spool : Run Storage.Spool) m = (.value m.spool, m) := rfl
  unfold openContent refusal
  rw [Action.bind_of_value hspool, Storage.Spool.create]
  cases m.spool.creation with
  | some e => rfl
  | none =>
      have hdownload : Http.download r.options .get r.name.url m
          = (.value (.error (if r.options.measurable then .badCredentials else .limitTooLong)),
            m) := by
        unfold Http.download
        cases r.options.measurable with
        | false => rfl
        | true =>
            rw [if_pos rfl, Http.follow.eq_def,
              Action.bind_of_value (Http.request_unsendable .get _ h m)]
            rfl
      dsimp only
      rw [Action.bind_of_value hdownload]
      rfl

end WebResource

/-- A read of what cannot be opened fails as opening does. -/
theorem Reading.of_failed {α : Type} {s : ContentSource} {e : Error} {m m' : Machine}
    (h : s.openContent m = (.value (.error e), m')) (reading : Reading α) :
    reading.of s.resource m = (.value (.error e), m') := by
  have hpresent : ∀ {β : Type} (f : Content → Run (Except Error (ReadResult β))),
      s.ifPresent f m = (.value (.error e), m') := by
    intro β f
    rw [ContentSource.ifPresent, orFail, Action.bind_of_value h]
    rfl
  have hinsist : ∀ {β : Type} (f : Content → Run (Except Error (ReadResult β))),
      insist s.name (s.ifPresent f) m = (.value (.error e), m') := by
    intro β f
    rw [insist, orFail, Action.bind_of_value (hpresent f)]
    rfl
  cases reading with
  | writeTo p => exact hinsist _
  | writeToIfPresent p => exact hpresent _
  | writeToStream w => exact hinsist _
  | withContent f => exact hinsist _
  | withContentIfPresent f => exact hpresent _
  | withAction act => exact hinsist _
  | withActionIfPresent act => exact hpresent _

end Resource

end TracedTransfer
