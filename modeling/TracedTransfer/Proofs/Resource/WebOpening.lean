/-
What opening over HTTP goes through.

A temporary file is made before anything is asked for, the body of the
last response is written to it piece by piece, and when its status means
success the file is rewound and handed over. Each of these can fail, and a
download can fail between them (`openContent_returns` lists what opening
can come to).

A body that comes whole is handed over from its first byte, unless it is
lost on the way (`WebResource.lost`): there is no room for it, or the file
cannot be rewound. `openContent_of_whole` says so. It rests on what a spool
keeps (`Storage.Spool.writePieces_eq`), so it does not matter in which
pieces the body has come.
-/
import TracedTransfer.Proofs.Effect
import TracedTransfer.Proofs.Storage.Spool
import TracedTransfer.Resource.Web

namespace TracedTransfer.Resource

open Text Http

variable {r : WebResource} {m m' : Machine}

-- ============================================================== pieces

/-- Pieces of a text are all of it, if there is room for as many as it has
bytes. -/
theorem piecesWithin_flatten {fuel : Nat} {s : Bytes} (h : s.length ≤ fuel) :
    (Transfer.piecesWithin fuel s).flatten = s := by
  induction fuel generalizing s with
  | zero =>
      obtain rfl : s = [] := List.length_eq_zero_iff.1 (Nat.le_zero.1 h)
      rfl
  | succ fuel ih =>
      rw [Transfer.piecesWithin]
      split
      · next hs => exact (List.isEmpty_iff.1 hs).symm
      · next hs =>
          have hlength : s.length ≠ 0 := by rwa [Ne, List.length_eq_zero_iff, ← List.isEmpty_iff]
          have hrest : (s.drop Transfer.bodyPiece).length ≤ fuel := by
            rw [List.length_drop, Transfer.bodyPiece]
            omega
          rw [List.flatten_cons, ih hrest, List.take_append_drop]

/-- A body is handed over whole. -/
theorem pieces_flatten (t : Transfer) : t.pieces.flatten = t.body :=
  piecesWithin_flatten (Nat.le_refl _)

namespace WebResource

-- ===================================================== temporary files

/-- Why a body that comes whole cannot be read from a temporary file, if it
cannot: there is no room for it, or the file cannot be rewound. A file that
nobody is to read is not rewound. -/
def lost (p : Storage.Spool) (status : Nat) (body : Bytes) : Option Io.Error :=
  (p.overfull? body).or (if isSuccessStatus status then p.rewinding else none)

/-- What a spool keeps is not lost. -/
theorem lost_of_keeps {p : Storage.Spool} {body : Bytes} (h : p.Keeps body) {status : Nat} :
    lost p status body = none := by
  rw [lost, h.room, h.rewinding, ite_self]
  rfl

/-- A whole body is kept if there is room for it. -/
theorem keep_eq (r : WebResource) (p : Storage.Spool) {t : Transfer} (hwhole : t.cut = none) :
    r.keep p .empty t = match p.overfull? t.body with
      | none => .ok (t, .holding t.body)
      | some e => .error (.io r.name.location e) := by
  have hpieces : p.writePieces t.pieces .empty = match p.overfull? t.body with
      | none => .ok (.holding t.body)
      | some e => .error e := by
    have h := p.writePieces_eq t.pieces p.overfull?_nil
    rwa [List.nil_append, pieces_flatten] at h
  rw [keep, hpieces, Transfer.whole, hwhole]
  cases p.overfull? t.body with
  | none => rfl
  | some e => rfl

/-- A file that can be rewound, if it is to be read, is read from its beginning. -/
theorem opened_holding (r : WebResource) {p : Storage.Spool} {t : Transfer} (s : Bytes)
    (h : isSuccessStatus t.status = true → p.rewinding = none) :
    r.opened p (.holding s) t = r.classify t ⟨.ofBytes s, r.metadataOf t⟩ := by
  unfold opened classify
  cases isAbsentStatus t.status with
  | true => rfl
  | false =>
      cases hsuccess : isSuccessStatus t.status with
      | false => rfl
      | true =>
          have hrewound : p.rewind (.holding s)
              = .ok { Storage.TempFile.holding s with position := 0 } := by
            rw [Storage.Spool.rewind, h hsuccess]
          simp only [Bool.false_eq_true, if_false, if_true, hrewound,
            Storage.TempFile.reader_holding]

/-- One that cannot is lost. -/
theorem opened_stuck (r : WebResource) {p : Storage.Spool} {e : Io.Error}
    (h : p.rewinding = some e) {t : Transfer} (hsuccess : isSuccessStatus t.status = true)
    (file : Storage.TempFile) : r.opened p file t = .error (.io r.name.location e) := by
  have hpresent : isAbsentStatus t.status = false := by
    rw [isSuccessStatus, Bool.and_eq_true, decide_eq_true_eq, decide_eq_true_eq] at hsuccess
    rw [isAbsentStatus, Bool.or_eq_false_iff, decide_eq_false_iff_not, decide_eq_false_iff_not]
    omega
  have hclassify : r.classify t file = .ok (some file) := by
    rw [classify, hpresent, hsuccess]
    rfl
  rw [opened, hclassify]
  dsimp only
  rw [Storage.Spool.rewind, h]

-- =============================================================== reads

/-- Nothing is opened without a temporary file. -/
theorem openContent_of_creation {e : Io.Error} (h : m.spool.creation = some e) :
    (r.openContent m).1 = .value (.error (.io r.name.location e)) := by
  have hspool : (Action.gets Machine.spool : Run Storage.Spool) m = (.value m.spool, m) := rfl
  rw [openContent, Action.bind_of_value hspool, Storage.Spool.create, h]
  rfl

/-- With one, the download decides. -/
theorem openContent_of_download (h : m.spool.creation = none)
    {answer : Except Failure Transfer}
    (hdownload : download r.options .get r.name.url m = (.value answer, m')) :
    (r.openContent m).1 = .value (match answer with
      | .error e => .error (r.failure e)
      | .ok t =>
        match r.keep m.spool .empty t with
        | .error e => .error e
        | .ok (t, file) => r.opened m.spool file t) := by
  have hspool : (Action.gets Machine.spool : Run Storage.Spool) m = (.value m.spool, m) := rfl
  rw [openContent, Action.bind_of_value hspool, Storage.Spool.create, h]
  dsimp only
  rw [Action.bind_of_value hdownload]
  cases answer with
  | error e => rfl
  | ok t =>
      dsimp only
      cases r.keep m.spool .empty t with
      | error e => rfl
      | ok kept =>
          dsimp only
          -- An absence is noted in the log, which does not change what is returned.
          split
          · rfl
          · rfl

/-- Metadata are decided by the download of a head: a failure, or headers
and status. -/
theorem readMetadata_of_download {answer : Except Failure Transfer}
    (h : download r.options .head r.name.url m = (.value answer, m')) :
    (r.readMetadata m).1 = .value (match answer.bind Transfer.whole with
      | .error e => .error (r.failure e)
      | .ok t => r.classify t (r.metadataOf t)) := by
  rw [readMetadata, Action.bind_of_value h]
  cases answer.bind Transfer.whole with
  | error e => rfl
  | ok t => rfl

/-- A transfer that came whole is kept and opened, or its body is lost. -/
theorem openContent_of_whole (h : m.spool.creation = none) {t : Transfer}
    (hdownload : download r.options .get r.name.url m = (.value (.ok t), m'))
    (hwhole : t.cut = none) :
    (r.openContent m).1 = .value (match lost m.spool t.status t.body with
      | none => r.classify t ⟨.ofBytes t.body, r.metadataOf t⟩
      | some e => .error (.io r.name.location e)) := by
  rw [openContent_of_download h hdownload]
  dsimp only
  rw [r.keep_eq m.spool hwhole, lost]
  cases m.spool.overfull? t.body with
  | some e => rfl
  | none =>
      dsimp only [Option.none_or]
      by_cases hsuccess : isSuccessStatus t.status = true
      · rw [if_pos hsuccess]
        cases hrewinding : m.spool.rewinding with
        | none => rw [r.opened_holding t.body fun _ => hrewinding]
        | some e => rw [r.opened_stuck hrewinding hsuccess]
      · rw [if_neg hsuccess, r.opened_holding t.body fun hsuccess' => absurd hsuccess' hsuccess]

/-- A transfer that came whole is opened, or the temporary file does not keep
its body, and opening fails. -/
theorem openContent_kept_or_lost {t : Transfer}
    (hdownload : download r.options .get r.name.url m = (.value (.ok t), m'))
    (hwhole : t.cut = none) :
    (r.openContent m).1 = .value (r.classify t ⟨.ofBytes t.body, r.metadataOf t⟩)
      ∨ ¬ m.spool.Keeps t.body
        ∧ ∃ e, (r.openContent m).1 = .value (.error (.io r.name.location e)) := by
  cases hcreation : m.spool.creation with
  | some e =>
      refine .inr ⟨fun hkeeps => ?_, e, openContent_of_creation hcreation⟩
      rw [hkeeps.creation] at hcreation
      cases hcreation
  | none =>
      have hopen := openContent_of_whole hcreation hdownload hwhole
      cases hlost : lost m.spool t.status t.body with
      | none =>
          rw [hlost] at hopen
          exact .inl hopen
      | some e =>
          rw [hlost] at hopen
          refine .inr ⟨fun hkeeps => ?_, e, hopen⟩
          rw [lost_of_keeps hkeeps] at hlost
          cases hlost

/-- What opening can come to: a failure of the temporary file, one of the
transfer, or what the status of a transfer makes of the file. -/
theorem openContent_returns {P : Except Resource.Error (Option Content) → Prop}
    (io : ∀ e, P (.error (.io r.name.location e)))
    (transport : ∀ e, P (.error (r.failure e)))
    (opened : ∀ p file t, P (r.opened p file t)) : Action.Returns P r.openContent := by
  refine Action.returns_bind (Action.returns_true _) fun p _ => ?_
  cases p.create with
  | error e => exact Action.returns_pure (io e)
  | ok file =>
      refine Action.returns_bind (Action.returns_true _) fun answer _ => ?_
      cases answer with
      | error e => exact Action.returns_pure (transport e)
      | ok t =>
          dsimp only
          unfold keep
          cases p.writePieces t.pieces file with
          | error e => exact Action.returns_pure (io e)
          | ok file =>
              cases t.whole with
              | error e => exact Action.returns_pure (transport e)
              | ok t =>
                  dsimp only
                  split
                  · exact Action.returns_bind (Action.returns_true _)
                      fun _ _ => Action.returns_pure (opened p file t)
                  · exact Action.returns_pure (opened p file t)

end WebResource

end TracedTransfer.Resource
