/-
The form in which URLs are held.

Every URL that is read has one of four forms (`Form`): it is served by a
host, names a file, or has no authority and then a path that starts with a
slash or one without structure. In each of them every part is settled, as
it would be read again. `settled_of_parse` says so of every text that is
read; that the text of a settled URL is read as the URL is the other half.
-/
import TracedTransfer.Proofs.Text.Trim
import TracedTransfer.Proofs.Url.Authority
import TracedTransfer.Proofs.Url.Path

namespace TracedTransfer.Url

open Text

variable {scheme s rest : List Char} {u : Url}

-- =================================================== query and fragment

/-- The characters that a query does not show bare. -/
def querySet (kind : SchemeKind) : EncodeSet :=
  if kind = .other then EncodeSet.query else EncodeSet.specialQuery

/-- No escape in a query is escaped again. -/
theorem spares_querySet (kind : SchemeKind) : Spares (querySet kind) := by
  unfold querySet
  split
  · exact spares_query
  · exact spares_specialQuery

/-- Query and fragment that are encoded. -/
structure IsTail (kind : SchemeKind) (query fragment : Option (List Char)) : Prop where
  /-- The query -/
  query : ∀ q, query = some q → Bare (querySet kind) q
  /-- and the fragment are escaped already. -/
  fragment : ∀ f, fragment = some f → Bare EncodeSet.fragment f

/-- What is read behind a path is settled. -/
theorem isTail_readTail (kind : SchemeKind) (s : List Char) :
    IsTail kind (readTail kind s).1 (readTail kind s).2 := by
  have hquery : ∀ q, Bare (querySet kind) (percentEncode (querySet kind) q) :=
    bare_percentEncode (spares_querySet kind)
  have hfragment : ∀ f, Bare EncodeSet.fragment (percentEncode EncodeSet.fragment f) :=
    bare_percentEncode spares_fragment
  generalize htail : readTail kind s = tail
  unfold readTail at htail
  dsimp only at htail
  split at htail
  · split at htail
    · cases htail
      exact ⟨fun q hq => Option.some.inj hq ▸ hquery _,
        fun f hf => Option.some.inj hf ▸ hfragment _⟩
    · cases htail
      exact ⟨fun q hq => Option.some.inj hq ▸ hquery _, nofun⟩
  · cases htail
    exact ⟨nofun, fun f hf => Option.some.inj hf ▸ hfragment _⟩
  · cases htail
    exact ⟨nofun, nofun⟩

theorem readTail_query (kind : SchemeKind) (s : List Char) :
    readTail kind ('?' :: s) =
      match splitOnce '#' s with
      | some (q, f) =>
        (some (percentEncode (querySet kind) q), some (percentEncode EncodeSet.fragment f))
      | none => (some (percentEncode (querySet kind) s), none) := rfl

theorem readTail_fragment (kind : SchemeKind) (s : List Char) :
    readTail kind ('#' :: s) = (none, some (percentEncode EncodeSet.fragment s)) := rfl

/-- Only nothing leaves neither query nor fragment. -/
theorem eq_nil_of_readTail {kind : SchemeKind} (h : EndsPath s)
    (hnone : readTail kind s = (none, none)) : s = [] := by
  cases s with
  | nil => rfl
  | cons c s =>
      have hc := h c rfl
      unfold endsPath at hc
      simp only [Bool.or_eq_true, decide_eq_true_eq] at hc
      rcases hc with rfl | rfl
      · rw [readTail_query] at hnone
        split at hnone
        · cases hnone
        · cases hnone
      · cases hnone

-- ================================================================ forms

/-- A path without structure, as it is read again: encoded, without the marks that end it, with no
slash in front, and with no blank at the end of the whole text. -/
structure IsPlain (u : Url) : Prop where
  /-- It is escaped already, -/
  bare : Bare EncodeSet.controls u.path
  /-- nothing in it ends a path, -/
  ends : ∀ c ∈ u.path, endsPath c = false
  /-- it does not start from the root, -/
  head : u.path.head? ≠ some '/'
  /-- and ends in no blank, unless something stands behind it. -/
  last : u.tailText = [] → u.path.getLast? ≠ some ' '

/-- The four forms of a URL. -/
inductive Form (u : Url) : Prop
  /-- It has an authority and a path, -/
  | served (a : Authority) (kind : u.kind ≠ .file) (authority : u.authority = some a)
      (server : IsServer u.scheme a)
      (path : IsSettled u.kind u.path ∨ u.kind = .other ∧ u.path = [])
  /-- is a file, on this machine or another, -/
  | file (host : Option Host) (kind : u.kind = .file)
      (authority : u.authority = some (Authority.ofHost host))
      (server : ∀ d, host = some d → IsHost .file d ∧ isLocalHost d = false)
      (path : IsSettled .file u.path)
  /-- has a path from the root -/
  | rooted (kind : u.kind = .other) (authority : u.authority = none)
      (path : IsSettled .other u.path)
  /-- or is kept as it is. -/
  | plain (kind : u.kind = .other) (authority : u.authority = none) (path : IsPlain u)

/-- A URL every part of which is as it would be read again. -/
structure Settled (u : Url) : Prop where
  /-- Its scheme is one, -/
  scheme : IsScheme u.scheme
  /-- query and fragment are escaped, -/
  tail : IsTail u.kind u.query u.fragment
  /-- and the rest has one of four forms. -/
  form : Form u

-- ============================================================ what is read

/-- A path that is read is settled, or is empty where it may be. -/
theorem isSettled_readPathStart (kind : SchemeKind) (s : List Char) :
    (IsSettled kind (readPathStart kind s).1.text
        ∨ kind = .other ∧ (readPathStart kind s).1.text = [])
      ∧ (kind ≠ .other → IsSettled kind (readPathStart kind s).1.text) := by
  have hread := fun s => (isSettled_readPath kind s).1
  -- Only a scheme that is not special leaves a path empty.
  suffices h : IsSettled kind (readPathStart kind s).1.text
      ∨ kind = .other ∧ (readPathStart kind s).1.text = [] from
    ⟨h, fun hkind => h.resolve_right fun h' => hkind h'.1⟩
  unfold readPathStart
  by_cases hkind : kind = .other
  · rw [if_neg (by simp [hkind])]
    cases s with
    | nil => exact .inr ⟨hkind, rfl⟩
    | cons c s =>
        dsimp only
        split
        · exact .inr ⟨hkind, rfl⟩
        · split
          · rename_i hslash
            rw [readPath_nil (by simp [isSeparator, hslash])]
            exact .inl (hread s)
          · exact .inl (hread (c :: s))
  · rw [if_pos (by simp [hkind])]
    refine .inl ?_
    cases s with
    | nil => exact hread []
    | cons c s =>
        dsimp only
        split
        · exact hread s
        · exact hread (c :: s)

/-- A URL with an authority is settled: its host, its path and its tail were read. -/
theorem Settled.of_afterSlashes (hscheme : IsScheme scheme) (hkind : schemeKind scheme ≠ .file)
    (h : afterSlashes scheme s = .ok u) : Settled u := by
  obtain ⟨a, left, ha, rfl⟩ := afterSlashes_ok h
  exact ⟨hscheme, isTail_readTail .., .served a hkind rfl (.of_readAuthority ha)
    (isSettled_readPathStart ..).1⟩

theorem isScheme_file : IsScheme "file".toList := (HasShape.of_file none [] []).scheme

/-- A file URL from its host and path. -/
theorem Settled.of_file {host : Option Host} {p : List Char}
    (hhost : ∀ d, host = some d → IsHost .file d ∧ isLocalHost d = false)
    (hpath : IsSettled .file p) (rest : List Char) :
    Settled (ofParts "file".toList (some (Authority.ofHost host)) p rest) :=
  ⟨isScheme_file, isTail_readTail .., .file host schemeKind_file rfl hhost hpath⟩

/-- A `file:` URL without a host is settled, -/
theorem Settled.of_fileOf (rest : List Char) : Settled (fileOf none ['/'] rest) :=
  .of_file (fun _ h => by cases h) (isSettled_readPath .file rest).1 _

/-- one with a host is, -/
theorem Settled.of_fileAfterSlashes (h : fileAfterSlashes s = .ok u) : Settled u := by
  rcases fileAfterSlashes_cases h with ⟨rest, rfl⟩ | ⟨d, hd, hlocal, rfl⟩
  · exact .of_fileOf rest
  · refine .of_file (fun d' hd' => ?_)
      ((isSettled_readPathStart .file _).2 (by exact SchemeKind.noConfusion)) _
    rw [Option.ite_none_left_eq_some] at hd'
    rw [← Option.some.inj hd'.2]
    exact ⟨.of_parse (by exact SchemeKind.noConfusion) hd, hlocal⟩

/-- and so is each that is read. -/
theorem Settled.of_readFileUrl (h : readFileUrl none s = .ok u) : Settled u := by
  rw [readFileUrl_eq] at h
  split at h
  · exact .of_fileAfterSlashes h
  · split at h
    · rename_i hone
      cases h
      -- the text starts with a slash, onto which the rest is read
      cases s with
      | nil => cases hone
      | cons c s =>
          have hslash : isSlash c = true := by
            by_contra hc
            rw [leadingSlashes_of_not hc] at hone
            cases hone
          have hone : fileOf none [] (c :: s) = fileOf none ['/'] s := by
            unfold fileOf
            rw [readPath_nil]
            unfold isSlash at hslash
            simpa [isSeparator] using hslash
          unfold fileAfterSlash
          split
          · rw [hone]
            exact .of_fileOf s
          · rw [hone]
            exact .of_fileOf s
    · cases h
      exact .of_fileOf s

/-- Without a query and a fragment there is no text of them. -/
theorem eq_none_of_tailText (h : u.tailText = []) : (u.query, u.fragment) = (none, none) := by
  unfold tailText at h
  rw [List.append_eq_nil_iff] at h
  obtain ⟨hquery, hfragment⟩ := h
  cases hq : u.query with
  | some q =>
      rw [hq] at hquery
      cases hquery
  | none =>
      cases hf : u.fragment with
      | some f =>
          rw [hf] at hfragment
          cases hfragment
      | none => rfl

/-- Escapes put no slash in front -/
theorem head?_percentEncode (h : s.head? ≠ some '/') :
    (percentEncode EncodeSet.controls s).head? ≠ some '/' := by
  cases s with
  | nil => exact nofun
  | cons c s =>
      intro hslash
      have hne : percentEncode EncodeSet.controls [c] ≠ [] := fun hnil =>
        List.cons_ne_nil _ _ (percentEncode_eq_nil.1 hnil)
      rw [show c :: s = [c] ++ s from rfl, percentEncode_append,
        List.head?_append_of_ne_nil _ hne] at hslash
      rcases mem_percentEncode (List.mem_of_head? hslash) with ⟨hmem, -⟩ | htriple
      · exact h (congrArg some (List.mem_singleton.1 hmem).symm)
      · revert htriple
        decide

/-- and no blank at the end. -/
theorem getLast?_percentEncode {c : Char} (hc : c ≠ ' ') (s : List Char) :
    (percentEncode EncodeSet.controls (s ++ [c])).getLast? ≠ some ' ' := by
  intro h
  have hne : percentEncode EncodeSet.controls [c] ≠ [] := fun hnil =>
    List.cons_ne_nil _ _ (percentEncode_eq_nil.1 hnil)
  rw [percentEncode_append, List.getLast?_append_of_ne_nil _ hne] at h
  rcases mem_percentEncode (List.mem_of_getLast? h) with ⟨hmem, -⟩ | htriple
  · exact hc (List.mem_singleton.1 hmem).symm
  · revert htriple
    decide

/-- A path that is kept as it is is settled, if no blank stands at its end: there the reader would
drop it the next time. -/
theorem Settled.of_opaquePath (hscheme : IsScheme scheme) (hkind : schemeKind scheme = .other)
    (hhead : s.head? ≠ some '/') (hlast : s.getLast? ≠ some ' ') :
    Settled (ofParts scheme none (readOpaquePath s).1 (readOpaquePath s).2) := by
  refine ⟨hscheme, isTail_readTail .., .plain hkind rfl ⟨?_, ?_, ?_, ?_⟩⟩
  · exact bare_percentEncode spares_controls _
  · intro c hc
    rcases mem_percentEncode hc with ⟨hmem, -⟩ | htriple
    · have := List.all_eq_true.1 (List.all_takeWhile (p := fun c => !endsPath c)) c hmem
      simpa using this
    · have hall : tripleChars.all (fun c => endsPath c = false) = true := by decide
      simp only [List.all_eq_true, decide_eq_true_eq] at hall
      exact hall c htriple
  · -- a slash in front would have been there before
    intro hslash
    have hfront : s.takeWhile (!endsPath ·) = [] ∨ (s.takeWhile (!endsPath ·)).head? = s.head? := by
      cases s with
      | nil => exact .inl rfl
      | cons c s =>
          rw [List.takeWhile_cons]
          split
          · exact .inr rfl
          · exact .inl rfl
    change (percentEncode EncodeSet.controls (s.takeWhile (!endsPath ·))).head? = some '/' at hslash
    rcases hfront with hnil | hsame
    · rw [hnil] at hslash
      cases hslash
    · rw [← hsame] at hhead
      exact head?_percentEncode hhead hslash
  · intro htail
    -- Without a tail the path is all of the text, so its end is that of the text.
    have hends : EndsPath (s.dropWhile (!endsPath ·)) := by
      intro c hc
      have := List.head?_dropWhile_not (!endsPath ·) s
      rw [Option.mem_def.1 hc] at this
      simpa using this
    have hnone : readTail (schemeKind scheme) (s.dropWhile (!endsPath ·)) = (none, none) :=
      eq_none_of_tailText htail
    have hrest : s.dropWhile (!endsPath ·) = [] := eq_nil_of_readTail hends hnone
    have hwhole : s.takeWhile (!endsPath ·) = s := by
      have := List.takeWhile_append_dropWhile (p := (!endsPath ·)) (l := s)
      rwa [hrest, List.append_nil] at this
    show (percentEncode EncodeSet.controls (s.takeWhile (!endsPath ·))).getLast? ≠ some ' '
    rw [hwhole]
    rcases List.eq_nil_or_concat s with rfl | ⟨front, c, heq⟩
    · exact nofun
    · rw [List.concat_eq_append] at heq
      rw [heq, List.getLast?_concat] at hlast
      rw [heq]
      exact getLast?_percentEncode (fun h => hlast (congrArg some h)) front

/-- A scheme stands before the first colon. -/
theorem eq_append_of_splitScheme? (h : splitScheme? s = some (scheme, rest)) :
    ∃ front, s = front ++ ':' :: rest := by
  unfold splitScheme? at h
  split at h
  · cases h
  · rename_i c cs
    split at h
    · split at h
      · rename_i tail heq
        cases h
        refine ⟨(c :: cs).takeWhile isSchemeChar, ?_⟩
        rw [← heq, List.takeWhile_append_dropWhile]
      · cases h
    · cases h

/-- Whatever follows the scheme, the URL is settled. -/
theorem Settled.of_readAfterScheme (hscheme : IsScheme scheme) (hlast : s.getLast? ≠ some ' ')
    (h : readAfterScheme none scheme s = .ok u) : Settled u := by
  cases readsAs_of_readAfterScheme h with
  | file _ h => exact .of_readFileUrl h
  | related hbase => cases hbase
  | served hkind h => exact .of_afterSlashes hscheme hkind h
  | rooted hkind =>
      exact ⟨hscheme, isTail_readTail .., .rooted hkind rfl (isSettled_readPath .other _).1⟩
  | plain hkind hslash => exact .of_opaquePath hscheme hkind hslash hlast

/-- The reader drops blanks at the end of its text before it reads, so what it reads is
settled. -/
theorem settled_of_read (hlast : s.getLast? ≠ some ' ') (h : read none s = .ok u) : Settled u := by
  unfold read at h
  cases hs : splitScheme? s with
  | none =>
      rw [hs] at h
      cases h
  | some p =>
      obtain ⟨scheme, rest⟩ := p
      rw [hs] at h
      refine .of_readAfterScheme (isScheme_of_split hs) (fun hblank => hlast ?_) h
      obtain ⟨front, rfl⟩ := eq_append_of_splitScheme? hs
      rw [List.getLast?_append, List.getLast?_cons, hblank]
      rfl

/-- Neither a tab nor an end of a line. -/
def isKept (c : Char) : Bool := c ≠ '\t' && c ≠ '\n' && c ≠ '\r'

/-- The reader keeps all but line ends and tabs, -/
theorem isKept_of_le {c : Char} (h : 0x20 ≤ c.toNat) : isKept c = true := by
  unfold isKept
  simp only [Bool.and_eq_true, decide_eq_true_eq]
  refine ⟨⟨?_, ?_⟩, ?_⟩
  · rintro rfl
    revert h
    decide
  · rintro rfl
    revert h
    decide
  · rintro rfl
    revert h
    decide

/-- and drops those, with the blanks at both ends. -/
theorem clean_eq (s : List Char) :
    clean s = (trimMatches (fun c => c.toNat ≤ 0x20) s).filter isKept := rfl

/-- No blank is left at the end of a text that is read. -/
theorem getLast?_clean (s : List Char) : (clean s).getLast? ≠ some ' ' := by
  have hlast : ∀ c, (trimMatches (fun c => c.toNat ≤ 0x20) s).getLast? = some c →
      0x20 < c.toNat :=
    fun c hc => Nat.lt_of_not_le (of_decide_eq_false (getLast?_trimMatches hc))
  rw [clean_eq]
  generalize trimMatches (fun c => c.toNat ≤ 0x20) s = t at hlast ⊢
  intro hblank
  rcases List.eq_nil_or_concat t with rfl | ⟨front, c, heq⟩
  · cases hblank
  · rw [List.concat_eq_append] at heq
    have hc := hlast c (by rw [heq, List.getLast?_concat])
    rw [heq, List.filter_append, List.filter_cons_of_pos (isKept_of_le (Nat.le_of_lt hc)),
      List.filter_nil, List.getLast?_concat] at hblank
    cases Option.some.inj hblank
    exact Nat.lt_irrefl _ hc

/-- Every URL that is read is settled. -/
theorem settled_of_parse {text : String} (h : parse text = .ok u) : Settled u :=
  settled_of_read (getLast?_clean _) h

end TracedTransfer.Url
