/-
Where a URL starts: its scheme, and which parts its kind makes it have.

A scheme that is read is in lower case and is read again from a text that
starts with it (`isScheme_of_split`, `splitScheme?_append`). The URL of a
special scheme has a host, and that of a file has no user, no password
and no port (`shape_of_read`).
-/
import TracedTransfer.Proofs.Text.Letter
import TracedTransfer.Url.Parser

namespace TracedTransfer.Url

open Text

variable {scheme s rest : List Char}

-- ============================================================== schemes

/-- Characters of schemes are ASCII, -/
theorem isSchemeChar_lt {c : Char} (h : isSchemeChar c = true) : c.toNat < 0x80 := by
  simp only [isSchemeChar, Bool.or_eq_true, decide_eq_true_eq] at h
  rcases h with ((h | rfl) | rfl) | rfl
  · exact isAlphanum_lt h
  · decide
  · decide
  · decide

/-- are such in lower case too, -/
theorem isSchemeChar_toLower {c : Char} (h : isSchemeChar c = true) :
    isSchemeChar c.toLower = true :=
  of_ascii (P := fun c => isSchemeChar c = true → isSchemeChar c.toLower = true) (by decide)
    (isSchemeChar_lt h) h

/-- and all letters are among them. -/
theorem isSchemeChar_of_isAlpha {c : Char} (h : c.isAlpha = true) : isSchemeChar c = true := by
  simp [isSchemeChar, Char.isAlphanum, h]

/-- A scheme in its settled form: a letter in front, all in lower case. -/
def IsScheme (scheme : List Char) : Prop :=
  (∃ c rest, scheme = c :: rest ∧ c.isAlpha = true)
    ∧ ∀ c ∈ scheme, isSchemeChar c = true ∧ c.toLower = c

/-- A settled scheme is read from any text that starts with it and a colon. -/
theorem splitScheme?_append (h : IsScheme scheme) (rest : List Char) :
    splitScheme? (scheme ++ ':' :: rest) = some (scheme, rest) := by
  obtain ⟨⟨c, cs, rfl, hc⟩, hall⟩ := h
  have hchars : ∀ d ∈ c :: cs, isSchemeChar d = true := fun d hd => (hall d hd).1
  have hlower : (c :: cs).map Char.toLower = c :: cs := by
    refine (List.map_congr_left fun d hd => (hall d hd).2).trans ?_
    exact List.map_id _
  have hcolon : isSchemeChar ':' = false := by decide
  have htake : (c :: cs ++ ':' :: rest).takeWhile isSchemeChar = c :: cs := by
    rw [List.takeWhile_append_of_pos hchars, List.takeWhile_cons_of_neg (by simp [hcolon]),
      List.append_nil]
  have hdrop : (c :: cs ++ ':' :: rest).dropWhile isSchemeChar = ':' :: rest := by
    rw [List.dropWhile_append_of_pos hchars, List.dropWhile_cons_of_neg (by simp [hcolon])]
  rw [List.cons_append] at htake hdrop ⊢
  unfold splitScheme?
  dsimp only
  rw [if_pos hc, hdrop, htake, hlower]
  rfl

/-- What stands before the colon is a scheme, in lower case. -/
theorem isScheme_of_split (h : splitScheme? s = some (scheme, rest)) : IsScheme scheme := by
  cases s with
  | nil => cases h
  | cons c cs =>
      unfold splitScheme? at h
      dsimp only at h
      by_cases hc : c.isAlpha = true
      · rw [if_pos hc] at h
        split at h
        · injection h with h
          injection h with hscheme _
          subst hscheme
          have hfirst := isSchemeChar_of_isAlpha hc
          refine ⟨⟨c.toLower, (cs.takeWhile isSchemeChar).map Char.toLower, ?_,
            isAlpha_toLower hc⟩, fun d hd => ?_⟩
          · rw [List.takeWhile_cons_of_pos hfirst, List.map_cons]
          · obtain ⟨e, he, rfl⟩ := List.mem_map.1 hd
            have := List.all_eq_true.1 (List.all_takeWhile (p := isSchemeChar)) e he
            exact ⟨isSchemeChar_toLower this, toLower_toLower e⟩
        · cases h
      · rw [if_neg hc] at h
        cases h

-- ========================================================== the outcome

/-- A URL that follows two slashes is an authority and what is read from the rest. -/
theorem afterSlashes_ok {u : Url} (h : afterSlashes scheme s = .ok u) :
    ∃ a left, readAuthority scheme (s.takeWhile (!endsAuthority (schemeKind scheme) ·))
          (s.dropWhile (!endsAuthority (schemeKind scheme) ·)).isEmpty = .ok (a, left)
      ∧ u = ofParts scheme (some a)
          (readPathStart (schemeKind scheme)
            (left ++ s.dropWhile (!endsAuthority (schemeKind scheme) ·))).1.text
          (readPathStart (schemeKind scheme)
            (left ++ s.dropWhile (!endsAuthority (schemeKind scheme) ·))).2 := by
  unfold afterSlashes at h
  dsimp only at h
  cases ha : readAuthority scheme (s.takeWhile (!endsAuthority (schemeKind scheme) ·))
      (s.dropWhile (!endsAuthority (schemeKind scheme) ·)).isEmpty with
  | error e =>
      rw [ha] at h
      cases h
  | ok p =>
      rw [ha] at h
      exact ⟨p.1, p.2, rfl, (Except.ok.inj h).symm⟩

/-- Host and port, once they have been read. -/
theorem readServer_ok {host : Option Host} {port : Option Nat}
    (h : readServer scheme s = .ok (host, port, rest)) :
    readHost (schemeKind scheme) (splitPort false s).1 = .ok host
      ∧ ((splitPort false s).2 = none ∧ port = none ∧ rest = []
        ∨ ∃ p, (splitPort false s).2 = some p ∧ host.isSome = true
            ∧ readPort scheme p = .ok (port, rest)) := by
  unfold readServer at h
  dsimp only at h
  cases hh : readHost (schemeKind scheme) (splitPort false s).1 with
  | error e =>
      rw [hh] at h
      cases h
  | ok host' =>
      rw [hh] at h
      -- A port needs a host before it.
      cases hp : (splitPort false s).2 with
      | none =>
          rw [hp] at h
          cases h
          exact ⟨rfl, .inl ⟨rfl, rfl, rfl⟩⟩
      | some p =>
          rw [hp] at h
          change (if host'.isNone = true then _ else _) = _ at h
          cases host' with
          | none => cases h
          | some d =>
              cases hport : readPort scheme p with
              | error e =>
                  rw [hport] at h
                  cases h
              | ok q =>
                  rw [hport] at h
                  cases h
                  exact ⟨rfl, .inr ⟨p, rfl, rfl, hport⟩⟩

/-- The text of user name and password, if there is an at sign, and what follows it. -/
def userInfoPart (s : List Char) : Option (List Char) × List Char :=
  match splitUserInfo s with
  | some (info, server) => (some info, server)
  | none => (none, s)

/-- An authority is read as user and password, up to the last `@`, and the server behind it. -/
theorem readAuthority_eq (scheme s : List Char) (isLast : Bool) :
    readAuthority scheme s isLast =
      if (userInfoPart s).1 = some [] && (userInfoPart s).2.isEmpty && !isLast then
        .error .emptyHost
      else
        (readServer scheme (userInfoPart s).2).bind fun p =>
          let info := readUserInfo ((userInfoPart s).1.getD [])
          let a : Authority := ⟨info.1, info.2, p.1, p.2.1⟩
          if a.host.isNone && a.hasCredentials then .error .emptyHost else .ok (a, p.2.2) := rfl

/-- An authority, once it has been read. -/
theorem readAuthority_ok {isLast : Bool} {a : Authority}
    (h : readAuthority scheme s isLast = .ok (a, rest)) :
    readServer scheme (userInfoPart s).2 = .ok (a.host, a.port, rest)
      ∧ (a.username, a.password) = readUserInfo ((userInfoPart s).1.getD [])
      ∧ (a.host.isNone = true → a.hasCredentials = false) := by
  rw [readAuthority_eq] at h
  split at h
  · cases h
  · cases hs : readServer scheme (userInfoPart s).2 with
    | error e =>
        rw [hs] at h
        cases h
    | ok p =>
        rw [hs, Except.bind] at h
        dsimp only at h
        split at h
        · cases h
        · rename_i hnone
          cases h
          refine ⟨rfl, rfl, fun hh => ?_⟩
          simpa [hh] using hnone

/-- A known scheme but that of files has a host. -/
theorem host_of_special (hkind : schemeKind scheme ≠ .other) {host : Option Host}
    (h : readHost (schemeKind scheme) s = .ok host) : host.isSome = true := by
  unfold readHost at h
  rw [if_neg hkind] at h
  split at h
  · cases h
  · cases hp : Host.parse s with
    | error e =>
        rw [hp] at h
        cases h
    | ok d =>
        rw [hp] at h
        cases h
        rfl

-- =========================================================== the shape

/-- One scheme is of the kind of files. -/
theorem scheme_of_file (h : schemeKind scheme = .file) : scheme = "file".toList := by
  unfold schemeKind at h
  split at h
  · assumption
  · split at h <;> cases h

theorem schemeKind_file : schemeKind "file".toList = .file := if_pos rfl

/-- What every URL that is read has. -/
structure HasShape (u : Url) : Prop where
  /-- Its scheme is one, -/
  scheme : IsScheme u.scheme
  /-- a special one has a host, -/
  special : u.kind = .special → ∃ a, u.authority = some a ∧ a.host.isSome = true
  /-- and that of files has a host at most. -/
  file : u.kind = .file → ∃ host, u.authority = some (Authority.ofHost host)

/-- A `file:` URL has the shape of one, -/
theorem HasShape.of_file (host : Option Host) (path rest : List Char) :
    HasShape (ofParts "file".toList (some (Authority.ofHost host)) path rest) where
  scheme := by
    have hall : "file".toList.all (fun c => isSchemeChar c = true ∧ c.toLower = c) = true := by
      decide
    simp only [List.all_eq_true, decide_eq_true_eq] at hall
    exact ⟨⟨'f', "ile".toList, rfl, rfl⟩, hall⟩
  special := fun h => by cases schemeKind_file.symm.trans h
  file := fun _ => ⟨host, rfl⟩

/-- and one with an authority too. -/
theorem HasShape.of_afterSlashes (hscheme : IsScheme scheme) (hkind : schemeKind scheme ≠ .file)
    {u : Url} (h : afterSlashes scheme s = .ok u) : HasShape u := by
  obtain ⟨a, left, ha, rfl⟩ := afterSlashes_ok h
  refine ⟨hscheme, fun hspecial => ⟨a, rfl, ?_⟩, fun hfile => absurd hfile hkind⟩
  obtain ⟨hserver, -⟩ := readAuthority_ok ha
  refine host_of_special ?_ (readServer_ok hserver).1
  show schemeKind scheme ≠ .other
  rw [show schemeKind scheme = .special from hspecial]
  exact SchemeKind.noConfusion

/-- Whether a character ends the host of a file URL. -/
def endsFileHost (c : Char) : Bool := c = '/' || c = '\\' || c = '?' || c = '#'

/-- Behind two slashes a `file:` URL has a host, unless a drive letter stands there. -/
theorem fileAfterSlashes_eq (s : List Char) :
    fileAfterSlashes s =
      let hostText := s.takeWhile (!endsFileHost ·)
      let back := s.dropWhile (!endsFileHost ·)
      if isDriveLetter hostText then .ok (fileOf none ['/'] s)
      else if hostText.isEmpty then .ok (fileOf none ['/'] back)
      else (Host.parse hostText).bind fun host =>
        if isLocalHost host then .ok (fileOf none ['/'] back)
        else .ok (ofParts "file".toList
          (some (Authority.ofHost
            (if (readPathStart .file back).1.drive then none else some host)))
          (readPathStart .file back).1.text (readPathStart .file back).2) := rfl

/-- A file URL with its authority written out: without a host, or with one that a drive letter in
the path takes away again. -/
theorem fileAfterSlashes_cases {u : Url} (h : fileAfterSlashes s = .ok u) :
    (∃ rest, u = fileOf none ['/'] rest)
    ∨ ∃ d, Host.parse (s.takeWhile (!endsFileHost ·)) = .ok d ∧ isLocalHost d = false
        ∧ u = ofParts "file".toList
            (some (Authority.ofHost
              (if (readPathStart .file (s.dropWhile (!endsFileHost ·))).1.drive then none
                else some d)))
            (readPathStart .file (s.dropWhile (!endsFileHost ·))).1.text
            (readPathStart .file (s.dropWhile (!endsFileHost ·))).2 := by
  rw [fileAfterSlashes_eq] at h
  dsimp only at h
  split at h
  · exact .inl ⟨s, (Except.ok.inj h).symm⟩
  · split at h
    · exact .inl ⟨_, (Except.ok.inj h).symm⟩
    · cases hd : Host.parse (s.takeWhile (!endsFileHost ·)) with
      | error e =>
          rw [hd] at h
          cases h
      | ok d =>
          rw [hd] at h
          change (if isLocalHost d then _ else _) = _ at h
          by_cases hlocal : isLocalHost d = true
          · rw [if_pos hlocal] at h
            exact .inl ⟨_, (Except.ok.inj h).symm⟩
          · rw [if_neg hlocal] at h
            exact .inr ⟨d, rfl, by simpa using hlocal, (Except.ok.inj h).symm⟩

/-- Whether a character is a slash of either kind. -/
def isSlash (c : Char) : Bool := c = '/' || c = '\\'

theorem leadingSlashes_eq (s : List Char) : leadingSlashes s = (s.takeWhile isSlash).length := rfl

theorem leadingSlashes_cons {c : Char} (h : isSlash c = true) (s : List Char) :
    leadingSlashes (c :: s) = leadingSlashes s + 1 := by
  rw [leadingSlashes_eq, leadingSlashes_eq, List.takeWhile_cons_of_pos h, List.length_cons]

theorem leadingSlashes_of_not {c : Char} (h : ¬ isSlash c = true) (s : List Char) :
    leadingSlashes (c :: s) = 0 := by
  rw [leadingSlashes_eq, List.takeWhile_cons_of_neg h, List.length_nil]

/-- How a file URL is read goes by how many slashes stand in front. -/
theorem readFileUrl_eq (base : Option Url) (s : List Char) :
    readFileUrl base s =
      if 2 ≤ leadingSlashes s then fileAfterSlashes (s.drop 2)
      else if 1 ≤ leadingSlashes s then .ok (fileAfterSlash base s)
      else readFileUrl.fileReference base s := by
  -- The reader looks at two characters at once; the number of slashes tells the same cases.
  cases s with
  | nil => rfl
  | cons a s =>
      cases s with
      | nil =>
          unfold readFileUrl
          change (if isSlash a = true then _ else _) = _
          by_cases ha : isSlash a = true
          · rw [leadingSlashes_cons ha, if_pos ha]
            rfl
          · rw [leadingSlashes_of_not ha, if_neg ha]
            rfl
      | cons b s =>
          unfold readFileUrl
          change (if (isSlash a && isSlash b) = true then _ else if isSlash a = true then _ else _)
            = _
          by_cases ha : isSlash a = true
          · rw [leadingSlashes_cons ha, if_pos ha]
            by_cases hb : isSlash b = true
            · rw [leadingSlashes_cons hb, if_pos (by simp [ha, hb]), if_pos (by omega)]
              rfl
            · rw [leadingSlashes_of_not hb, if_neg (by simp [hb])]
              rfl
          · rw [leadingSlashes_of_not ha, if_neg (by simp [ha]), if_neg ha]
            rfl

/-- A `file:` URL has no host, or what stands behind two slashes. -/
theorem readFileUrl_cases {u : Url} (h : readFileUrl none s = .ok u) :
    (∃ start rest, u = fileOf none start rest) ∨ ∃ rest, fileAfterSlashes rest = .ok u := by
  rw [readFileUrl_eq] at h
  split at h
  · exact .inr ⟨_, h⟩
  · refine .inl ?_
    split at h
    · cases h
      unfold fileAfterSlash
      split
      · exact ⟨_, _, rfl⟩
      · exact ⟨_, _, rfl⟩
    · exact ⟨_, _, (Except.ok.inj h).symm⟩

/-- So it has the shape of one. -/
theorem HasShape.of_readFileUrl {u : Url} (h : readFileUrl none s = .ok u) : HasShape u := by
  rcases readFileUrl_cases h with ⟨start, rest, rfl⟩ | ⟨rest, h⟩
  · exact .of_file ..
  · rcases fileAfterSlashes_cases h with ⟨rest, rfl⟩ | ⟨d, -, -, rfl⟩
    · exact .of_file ..
    · exact .of_file ..

/-- A slash that cannot be taken away is not there. -/
theorem head?_of_stripStart? (h : stripStart? ['/'] s = none) : s.head? ≠ some '/' := by
  rintro hslash
  cases s with
  | nil => cases hslash
  | cons c s =>
      cases Option.some.inj hslash
      cases h

/-- What a text behind a scheme is read as. -/
inductive ReadsAs (base : Option Url) (scheme s : List Char) : Url → Prop
  /-- It is a file, -/
  | file {u : Url} (hkind : schemeKind scheme = .file)
      (h : readFileUrl (base.filter fun b => b.scheme = scheme) s = .ok u) :
      ReadsAs base scheme s u
  /-- goes by the base, -/
  | related {b u : Url}
      (hbase : base.filter (fun b => b.scheme = scheme && leadingSlashes s < 2) = some b)
      (h : relative b s = .ok u) : ReadsAs base scheme s u
  /-- has an authority, -/
  | served {rest : List Char} {u : Url} (hkind : schemeKind scheme ≠ .file)
      (h : afterSlashes scheme rest = .ok u) : ReadsAs base scheme s u
  /-- has a path from the root -/
  | rooted {rest : List Char} (hkind : schemeKind scheme = .other) :
      ReadsAs base scheme s (ofParts scheme none (readPath .other ['/'] rest).1.text
        (readPath .other ['/'] rest).2)
  /-- or is kept as it is. -/
  | plain (hkind : schemeKind scheme = .other) (hslash : s.head? ≠ some '/') :
      ReadsAs base scheme s (ofParts scheme none (readOpaquePath s).1 (readOpaquePath s).2)

/-- The ways to read what stands behind a scheme. -/
theorem readsAs_of_readAfterScheme {base : Option Url} {u : Url}
    (h : readAfterScheme base scheme s = .ok u) : ReadsAs base scheme s u := by
  unfold readAfterScheme at h
  cases hkind : schemeKind scheme with
  | file =>
      rw [hkind] at h
      exact .file hkind h
  | special =>
      rw [hkind] at h
      dsimp only at h
      split at h
      · next b hbase => exact .related hbase h
      · exact .served (by rw [hkind]; exact SchemeKind.noConfusion) h
  | other =>
      rw [hkind] at h
      dsimp only at h
      split at h
      · exact .served (by rw [hkind]; exact SchemeKind.noConfusion) h
      · split at h
        · cases h
          exact .rooted hkind
        · next hslash =>
            cases h
            exact .plain hkind (head?_of_stripStart? hslash)

/-- Of another scheme any parts have the shape of a URL. -/
theorem hasShape_of_other (hscheme : IsScheme scheme) (hkind : schemeKind scheme = .other)
    (authority : Option Authority) (path tail : List Char) :
    HasShape (ofParts scheme authority path tail) := by
  have hspecial : schemeKind scheme ≠ .special := by
    rw [hkind]
    exact SchemeKind.noConfusion
  have hfile : schemeKind scheme ≠ .file := by
    rw [hkind]
    exact SchemeKind.noConfusion
  exact ⟨hscheme, fun h => absurd h hspecial, fun h => absurd h hfile⟩

/-- A URL that is read without a base. -/
theorem shape_of_read {u : Url} (h : read none s = .ok u) : HasShape u := by
  unfold read at h
  cases hs : splitScheme? s with
  | none =>
      rw [hs] at h
      cases h
  | some p =>
      obtain ⟨scheme, rest⟩ := p
      rw [hs] at h
      have hscheme := isScheme_of_split hs
      cases readsAs_of_readAfterScheme h with
      | file _ h => exact .of_readFileUrl h
      | related hbase => cases hbase
      | served hkind h => exact .of_afterSlashes hscheme hkind h
      | rooted hkind => exact hasShape_of_other hscheme hkind ..
      | plain hkind => exact hasShape_of_other hscheme hkind ..

end TracedTransfer.Url
