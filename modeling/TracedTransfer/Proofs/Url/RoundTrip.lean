/-
A URL is read back from its text.

The text of a settled URL without a user has nothing that cleaning takes
away (`clean_chars`), and each of the four forms is recognized by what
follows the scheme. So the URL is read again, with two exceptions
(`read_chars`). A host can have a label that is too long to be read, now
that it is written in Punycode. And a file on a host can have a path that
begins with a drive letter, behind slashes that were taken away when it
was read; now the letter stands right behind the host, which disappears
(`reread`).
-/
import TracedTransfer.Proofs.Url.Settled

namespace TracedTransfer.Url

open Text

variable {s : List Char} {u : Url}

-- =================================================== query and fragment

/-- Query and fragment are read back, -/
theorem readTail_tailText (h : IsTail u.kind u.query u.fragment) :
    readTail u.kind u.tailText = (u.query, u.fragment) := by
  unfold tailText
  cases hq : u.query with
  | none =>
      cases hf : u.fragment with
      | none => rfl
      | some f =>
          rw [show ((none.map ('?' :: ·)).getD [] : List Char) ++ ((some f).map ('#' :: ·)).getD []
            = '#' :: f from rfl, readTail_fragment, (h.fragment f hf).percentEncode_eq]
  | some q =>
      have hquery := h.query q hq
      have hhash : '#' ∉ q := hquery.not_mem (by unfold querySet; split <;> decide)
      cases hf : u.fragment with
      | none =>
          rw [show ((some q).map ('?' :: ·)).getD [] ++ ((none.map ('#' :: ·)).getD [] : List Char)
            = '?' :: (q ++ []) from rfl, List.append_nil, readTail_query, splitOnce_eq_none hhash,
            hquery.percentEncode_eq]
      | some f =>
          rw [show ((some q).map ('?' :: ·)).getD [] ++ ((some f).map ('#' :: ·)).getD []
            = '?' :: (q ++ '#' :: f) from rfl, readTail_query, splitOnce_append hhash]
          dsimp only
          rw [hquery.percentEncode_eq, (h.fragment f hf).percentEncode_eq]

/-- and they end the path before them. -/
theorem endsPath_tailText (u : Url) : EndsPath u.tailText := by
  intro c hc
  unfold tailText at hc
  cases hq : u.query with
  | none =>
      cases hf : u.fragment with
      | none =>
          rw [hq, hf] at hc
          cases hc
      | some f =>
          rw [hq, hf] at hc
          cases hc
          rfl
  | some q =>
      rw [hq] at hc
      cases hc
      rfl

/-- A URL is put together from its parts and the text of its tail. -/
theorem ofParts_tailText (h : IsTail u.kind u.query u.fragment) :
    ofParts u.scheme u.authority u.path u.tailText = u := by
  unfold ofParts
  rw [show readTail (schemeKind u.scheme) u.tailText = _ from readTail_tailText h]

-- ============================================================= whole text

/-- A text without control characters, and without blanks at its ends, is clean. -/
theorem clean_self (hall : ∀ c ∈ s, 0x20 ≤ c.toNat) (hhead : s.head? ≠ some ' ')
    (hlast : s.getLast? ≠ some ' ') : clean s = s := by
  -- Of all that is trimmed at the ends, only the blank is no control character.
  have hblank : ∀ {c : Char}, c ∈ s → c.toNat ≤ 0x20 → c = ' ' := by
    intro c hc hle
    have heq : c.toNat = 0x20 := Nat.le_antisymm hle (hall c hc)
    rw [← Char.ofNat_toNat c, heq]
  have hdrop : ∀ {t : List Char}, (∀ c ∈ t, c ∈ s) → t.head? ≠ some ' ' →
      t.dropWhile (fun c => c.toNat ≤ 0x20) = t := by
    intro t ht hne
    cases t with
    | nil => rfl
    | cons c t =>
        refine List.dropWhile_cons_of_neg fun hle => hne ?_
        rw [hblank (ht c (List.mem_cons_self ..)) (of_decide_eq_true hle)]
        rfl
  have htrim : trimMatches (fun c => c.toNat ≤ 0x20) s = s := by
    unfold trimMatches
    rw [hdrop (fun _ h => h) hhead, hdrop (fun c hc => List.mem_reverse.1 hc), List.reverse_reverse]
    rwa [List.head?_reverse]
  rw [clean_eq, htrim]
  exact List.filter_eq_self.2 fun c hc => isKept_of_le (hall c hc)

/-- A URL that has neither user name nor password. -/
def NoUser (u : Url) : Prop := ∀ a, u.authority = some a → a.hasCredentials = false

/-- An authority without a user is written behind two slashes, -/
theorem authorityText_served {a : Authority} (ha : u.authority = some a)
    (hnone : a.hasCredentials = false) : u.authorityText = '/' :: '/' :: a.serverText := by
  unfold authorityText
  rw [ha]
  dsimp only [Authority.text]
  rw [Authority.userInfoText, hnone, if_neg Bool.false_ne_true, List.nil_append]

/-- and none is written as nothing. -/
theorem authorityText_plain (ha : u.authority = none) (hhead : u.path.head? ≠ some '/') :
    u.authorityText = [] := by
  unfold authorityText
  rw [ha]
  refine if_neg fun hstrip => ?_
  obtain ⟨rest, hrest⟩ := Option.isSome_iff_exists.1 hstrip
  exact hhead (congrArg List.head? (eq_append_of_stripStart? hrest))

/-- No blank is in what is bare, if blanks are to be escaped, -/
theorem Bare.not_blank {set : EncodeSet} (h : Bare set s) (hset : set ' ' = true) :
    ∀ c ∈ s, 0x20 < c.toNat := by
  intro c hc
  obtain ⟨hlow, -, hbare⟩ := h c hc
  refine Nat.lt_of_le_of_ne hlow fun heq => ?_
  rw [← Char.ofNat_toNat c, ← heq] at hbare
  exact absurd (hset.symm.trans hbare) (by decide)

/-- so none is in a path -/
theorem IsPath.not_blank {kind : SchemeKind} {p : List Char} (h : IsPath kind p) :
    ∀ c ∈ p, 0x20 < c.toNat := by
  obtain ⟨segments, last, hall, hlast, rfl⟩ := h
  have hclosed : ∀ c ∈ segments.flatMap (· ++ ['/']), 0x20 < c.toNat := by
    intro c hc
    obtain ⟨s, hs, hmem⟩ := List.mem_flatMap.1 hc
    have hsegment := (hall s hs).bare.not_blank (by decide)
    exact List.forall_mem_append.2 ⟨hsegment, List.forall_mem_singleton.2 (by decide)⟩ c hmem
  have hlast := hlast.bare.not_blank (by decide)
  exact List.forall_mem_cons.2 ⟨by decide, List.forall_mem_append.2 ⟨hclosed, hlast⟩⟩

/-- and none behind it. -/
theorem tailText_not_blank (h : IsTail u.kind u.query u.fragment) :
    ∀ c ∈ u.tailText, 0x20 < c.toNat := by
  have hpart : ∀ (part : Option (List Char)) (mark : Char), 0x20 < mark.toNat →
      (∀ t, part = some t → ∀ c ∈ t, 0x20 < c.toNat) →
      ∀ c ∈ (part.map (mark :: ·)).getD [], 0x20 < c.toNat := by
    intro part mark hmark hall
    cases part with
    | none => exact fun c hc => (List.not_mem_nil hc).elim
    | some t => exact List.forall_mem_cons.2 ⟨hmark, hall t rfl⟩
  refine List.forall_mem_append.2 ⟨hpart u.query '?' (by decide) fun q hq => ?_,
    hpart u.fragment '#' (by decide) fun f hf => ?_⟩
  · refine (h.query q hq).not_blank ?_
    unfold querySet
    split <;> decide
  · exact (h.fragment f hf).not_blank (by decide)

theorem chars_eq (u : Url) :
    u.chars = u.scheme ++ ':' :: (u.authorityText ++ u.path ++ u.tailText) := by
  simp [chars]

/-- No blank is in a scheme. -/
theorem IsScheme.not_blank {scheme : List Char} (h : IsScheme scheme) :
    ∀ c ∈ scheme, 0x20 < c.toNat := by
  intro c hc
  have hchar := (h.2 c hc).1
  exact of_ascii (P := fun c => isSchemeChar c = true → 0x20 < c.toNat) (by decide)
    (isSchemeChar_lt hchar) hchar

/-- Blanks stand in paths without structure only. -/
theorem not_blank_or_plain (h : Settled u) (hnone : NoUser u) :
    (∀ c ∈ u.authorityText ++ u.path, 0x20 < c.toNat) ∨ u.authority = none ∧ IsPlain u := by
  obtain ⟨-, -, hform⟩ := h
  have hserved : ∀ a, u.authority = some a → (∀ c ∈ a.serverText, 0x20 < c.toNat) →
      ∀ c ∈ u.authorityText, 0x20 < c.toNat := by
    intro a ha hserver
    rw [authorityText_served ha (hnone a ha)]
    exact List.forall_mem_cons.2 ⟨by decide, List.forall_mem_cons.2 ⟨by decide, hserver⟩⟩
  -- In the first three forms the path is escaped segment by segment, and so are its blanks.
  cases hform with
  | served a hkind ha hserver hpath =>
      have hfront := hserved a ha fun c hc => (mem_serverText hserver hc).1
      refine .inl (List.forall_mem_append.2 ⟨hfront, ?_⟩)
      rcases hpath with hpath | ⟨-, hnil⟩
      · exact hpath.isPath.not_blank
      · rw [hnil]
        exact fun _ hc => (List.not_mem_nil hc).elim
  | file host hkind ha hserver hpath =>
      refine .inl (List.forall_mem_append.2 ⟨hserved _ ha fun c hc => ?_, hpath.isPath.not_blank⟩)
      cases host with
      | none => exact (List.not_mem_nil hc).elim
      | some d =>
          rw [Authority.serverText, List.mem_append] at hc
          exact hc.elim (fun hc => ((hserver d rfl).1.chars c hc).1)
            fun hc => (List.not_mem_nil hc).elim
  | rooted hkind ha hpath =>
      refine .inl (List.forall_mem_append.2 ⟨?_, hpath.isPath.not_blank⟩)
      unfold authorityText
      rw [ha]
      dsimp only
      split
      · exact List.forall_mem_cons.2 ⟨by decide, List.forall_mem_singleton.2 (by decide)⟩
      · exact fun _ hc => (List.not_mem_nil hc).elim
  | plain hkind ha hplain => exact .inr ⟨ha, hplain⟩

/-- The blanks of a path without structure are not at the end of the text. -/
theorem getLast?_plain (h : IsTail u.kind u.query u.fragment) (hplain : IsPlain u) :
    (u.scheme ++ ':' :: (u.path ++ u.tailText)).getLast? ≠ some ' ' := by
  rw [List.getLast?_append, List.getLast?_cons, List.getLast?_append]
  intro hblank
  cases htext : u.tailText.getLast? with
  | some c =>
      rw [htext] at hblank
      cases Option.some.inj hblank
      exact Nat.lt_irrefl _ (tailText_not_blank h ' ' (List.mem_of_getLast? htext))
  | none =>
      have hlast := hplain.last (List.getLast?_eq_none_iff.1 htext)
      rw [htext] at hblank
      cases hpath : u.path.getLast? with
      | some c =>
          rw [hpath] at hblank hlast
          exact hlast hblank
      | none =>
          rw [hpath] at hblank
          cases Option.some.inj hblank

/-- Nothing is cleaned away from the text of a URL. -/
theorem clean_chars (h : Settled u) (hnone : NoUser u) : clean u.chars = u.chars := by
  have hscheme := h.scheme.not_blank
  have htail := tailText_not_blank h.tail
  have hhead : u.chars.head? ≠ some ' ' := by
    obtain ⟨⟨c, rest, hc, halpha⟩, -⟩ := h.scheme
    rw [chars_eq, hc]
    rintro hblank
    cases Option.some.inj hblank
    cases halpha
  -- Either there is no blank at all, or those that there are do not stand at an end.
  rcases not_blank_or_plain h hnone with hmiddle | ⟨ha, hplain⟩
  · have hall : ∀ c ∈ u.chars, 0x20 < c.toNat := by
      have hrest := List.forall_mem_append.2 ⟨hmiddle, htail⟩
      rw [chars_eq]
      exact List.forall_mem_append.2 ⟨hscheme, List.forall_mem_cons.2 ⟨by decide, hrest⟩⟩
    refine clean_self (fun c hc => Nat.le_of_lt (hall c hc)) hhead fun hblank => ?_
    exact Nat.lt_irrefl _ (hall ' ' (List.mem_of_getLast? hblank))
  · have hchars : u.chars = u.scheme ++ ':' :: (u.path ++ u.tailText) := by
      rw [chars_eq, authorityText_plain ha hplain.head, List.nil_append]
    have hall : ∀ c ∈ u.chars, 0x20 ≤ c.toNat := by
      have hpath : ∀ c ∈ u.path, 0x20 ≤ c.toNat := fun c hc => (hplain.bare c hc).1
      have hrest := List.forall_mem_append.2 ⟨hpath, fun c hc => Nat.le_of_lt (htail c hc)⟩
      have hscheme' := fun c hc => Nat.le_of_lt (hscheme c hc)
      rw [hchars]
      exact List.forall_mem_append.2 ⟨hscheme', List.forall_mem_cons.2 ⟨by decide, hrest⟩⟩
    refine clean_self hall hhead ?_
    rw [hchars]
    exact getLast?_plain h.tail hplain

-- ============================================================ read again

/-- The file that the text of a file on a host with a drive letter is read as. -/
def drivenFile (u : Url) : Url :=
  { u with authority := some Authority.empty, path := withColon u.path }

/-- What the text of a URL without a user is read as. -/
def reread (u : Url) : Url :=
  if u.kind = .file ∧ u.host?.isSome = true ∧ startsWithDriveLetter (u.path.drop 1) = true then
    u.drivenFile
  else u

/-- A settled path is read back, up to what ends it. -/
theorem readPathStart_again {p tail : List Char} {kind : SchemeKind} (hkind : kind ≠ .file)
    (h : IsSettled kind p ∨ kind = .other ∧ p = []) (htail : EndsPath tail) :
    (readPathStart kind (p ++ tail)).1.text = p ∧ (readPathStart kind (p ++ tail)).2 = tail := by
  rcases h with h | ⟨rfl, rfl⟩
  · have hread := readPath_again h htail
    rw [if_neg fun h => hkind h.1] at hread
    -- Whatever the kind, a path that starts with a slash is read from behind it.
    have hslash : ∀ s : List Char, readPathStart kind ('/' :: s) = readPath kind ['/'] s := by
      intro s
      cases kind with
      | file => exact absurd rfl hkind
      | special => rfl
      | other =>
          have hother : readPathStart .other ('/' :: s) = readPath .other [] ('/' :: s) := rfl
          rw [hother, readPath_nil (by decide)]
    rw [h.isPath.eq_cons, List.cons_append, hslash, hread]
    exact ⟨h.isPath.eq_cons, rfl⟩
  · rw [List.nil_append]
    unfold readPathStart
    rw [if_neg (by simp)]
    cases tail with
    | nil => exact ⟨rfl, rfl⟩
    | cons c tail =>
        dsimp only
        rw [if_pos (htail c rfl)]
        exact ⟨rfl, rfl⟩

/-- What follows an authority ends it. -/
theorem endsAuthority_path {p tail : List Char} {kind : SchemeKind}
    (h : IsSettled kind p ∨ kind = .other ∧ p = []) (htail : EndsPath tail) :
    EndsAuthority kind (p ++ tail) := by
  intro c hc
  rcases h with h | ⟨-, rfl⟩
  · rw [h.isPath.eq_cons] at hc
    cases hc
    rfl
  · have := htail c hc
    unfold endsPath at this
    simp only [Bool.or_eq_true, decide_eq_true_eq] at this
    rcases this with rfl | rfl
    · simp [endsAuthority]
    · simp [endsAuthority]

theorem reread_of_not_file (h : u.kind ≠ .file) : u.reread = u := if_neg fun h' => h h'.1

/-- No server starts with a slash. -/
theorem leadingSlashes_server {scheme : List Char} {a : Authority} (h : IsServer scheme a)
    (hkind : schemeKind scheme ≠ .other) (rest : List Char) :
    leadingSlashes (a.serverText ++ rest) = 0 := by
  cases hd : a.host with
  | none => exact absurd (h.empty hd) hkind
  | some d =>
      obtain ⟨c, t, ht⟩ := List.exists_cons_of_ne_nil (h.host d hd).ne_nil
      obtain ⟨-, hslash, -, -, hback, -⟩ := (h.host d hd).chars c (ht ▸ List.mem_cons_self ..)
      have htext : a.serverText ++ rest
          = c :: (t ++ ((a.port.map fun p => ':' :: decimal p).getD []) ++ rest) := by
        rw [Authority.serverText, hd, Option.map_some, Option.getD_some, ht]
        simp
      rw [htext]
      exact leadingSlashes_of_not (by simp [isSlash, hslash, hback]) _

/-- A URL that is served by a host. -/
theorem read_served (htail : IsTail u.kind u.query u.fragment) (hnone : NoUser u)
    {a : Authority} (hkind : u.kind ≠ .file) (ha : u.authority = some a)
    (hserver : IsServer u.scheme a)
    (hpath : IsSettled u.kind u.path ∨ u.kind = .other ∧ u.path = []) :
    readAfterScheme none u.scheme (u.authorityText ++ u.path ++ u.tailText)
      = if IsReadable u.scheme u.host? then .ok u else .error .invalidDomainName := by
  have hends := endsPath_tailText u
  obtain ⟨htext, hrest⟩ := readPathStart_again hkind hpath hends
  -- The server ends where the path begins, so both are read one after the other.
  have hafter := afterSlashes_again hserver (hnone a ha) (endsAuthority_path hpath hends)
  have hwhole : u.authorityText ++ u.path ++ u.tailText
      = '/' :: '/' :: (a.serverText ++ (u.path ++ u.tailText)) := by
    rw [authorityText_served ha (hnone a ha)]
    simp
  have hhost : u.host? = a.host := by
    unfold host?
    rw [ha]
    rfl
  have hu : ofParts u.scheme (some a) u.path u.tailText = u := by
    rw [← ha]
    exact ofParts_tailText htail
  change afterSlashes u.scheme _ = if _ then .ok (ofParts u.scheme (some a)
    (readPathStart u.kind (u.path ++ u.tailText)).1.text
    (readPathStart u.kind (u.path ++ u.tailText)).2) else _ at hafter
  rw [htext, hrest, hu] at hafter
  rw [hwhole, hhost, ← hafter]
  unfold readAfterScheme
  cases hk : schemeKind u.scheme with
  | file => exact absurd hk hkind
  | special =>
      have hfirst := leadingSlashes_server hserver (by rw [hk]; exact SchemeKind.noConfusion)
        (u.path ++ u.tailText)
      dsimp only
      rw [leadingSlashes_cons (by decide), leadingSlashes_cons (by decide), hfirst]
      rfl
  | other => rfl

/-- No host is a drive letter. -/
theorem IsHost.not_driveLetter {kind : SchemeKind} {d : Host} (h : IsHost kind d) :
    isDriveLetter d.text = false := by
  refine Bool.eq_false_iff.2 fun hdrive => ?_
  have hport := h.noPort []
  have hchars := h.chars
  generalize d.text = t at hdrive hport hchars
  match t, hdrive with
  | [a, b], hdrive =>
      simp only [isDriveLetter, Bool.and_eq_true, Bool.or_eq_true, decide_eq_true_eq] at hdrive
      obtain ⟨halpha, rfl | rfl⟩ := hdrive
      · -- the colon would be in front of a port
        have hopen : a ≠ '[' := by
          rintro rfl
          cases halpha
        have hcolon : a ≠ ':' := by
          rintro rfl
          cases halpha
        rw [List.append_nil, splitPort_cons (by simp [hcolon]), if_neg hopen, ite_self] at hport
        cases congrArg Prod.snd hport
      · exact (hchars '|' (by simp)).2.2.2.2.2.2 rfl

/-- The host of a file is read back if it is readable. -/
theorem IsHost.parse_again {d : Host} (h : IsHost .file d) :
    Host.parse d.text = if d.isReadable = true then .ok d else .error .invalidDomainName := by
  have hagain := h.again
  rw [readHost, if_neg (by decide), if_neg (by simpa using h.ne_nil)] at hagain
  have hcond : (SchemeKind.file = .other ∨ d.isReadable = true) ↔ d.isReadable = true :=
    or_iff_right (by decide)
  simp only [hcond] at hagain
  cases hp : Host.parse d.text with
  | error e =>
      rw [hp] at hagain
      split at hagain
      · cases hagain
      · cases hagain
        rename_i hreadable
        rw [if_neg hreadable]
  | ok d' =>
      rw [hp] at hagain
      split at hagain
      · cases hagain
        rename_i hreadable
        rw [if_pos hreadable]
      · cases hagain

/-- What follows the host of a file ends that host. -/
theorem IsSettled.endsFileHost_head {p : List Char} (h : IsSettled .file p) (tail : List Char) :
    ∀ c ∈ (p ++ tail).head?, endsFileHost c = true := by
  intro c hc
  rw [h.isPath.eq_cons] at hc
  cases hc
  rfl

/-- A file URL from its host and what follows that. -/
theorem fileAfterSlashes_append {hostText back : List Char}
    (hhost : ∀ c ∈ hostText, endsFileHost c = false) (hdrive : isDriveLetter hostText = false)
    (hback : ∀ c ∈ back.head?, endsFileHost c = true) :
    fileAfterSlashes (hostText ++ back) =
      if hostText.isEmpty then .ok (fileOf none ['/'] back)
      else (Host.parse hostText).bind fun host =>
        if isLocalHost host then .ok (fileOf none ['/'] back)
        else .ok (ofParts "file".toList
          (some (Authority.ofHost
            (if (readPathStart .file back).1.drive then none else some host)))
          (readPathStart .file back).1.text (readPathStart .file back).2) := by
  obtain ⟨htake, hdrop⟩ := cut_append hhost hback
  rw [fileAfterSlashes_eq]
  dsimp only
  rw [htake, hdrop, hdrive, if_neg Bool.false_ne_true]

/-- A file without a host. -/
theorem fileAfterSlashes_local {p tail : List Char} (hpath : IsSettled .file p)
    (htail : EndsPath tail) :
    fileAfterSlashes (p ++ tail)
      = .ok (ofParts "file".toList (some (Authority.ofHost none)) p tail) := by
  have hback : ∀ c ∈ (p ++ tail).head?, endsFileHost c = true := hpath.endsFileHost_head tail
  rw [← List.nil_append (p ++ tail),
    fileAfterSlashes_append (fun _ h => (List.not_mem_nil h).elim) rfl hback]
  show Except.ok (fileOf none ['/'] (p ++ tail)) = _
  unfold fileOf
  rw [readPath_second hpath htail]

/-- A file on a host. A drive letter right behind it takes the host away. -/
theorem fileAfterSlashes_host {d : Host} (hd : IsHost .file d) (hlocal : isLocalHost d = false)
    {p tail : List Char} (hpath : IsSettled .file p) (htail : EndsPath tail) :
    fileAfterSlashes (d.text ++ (p ++ tail))
      = if d.isReadable = true then
          .ok (if startsWithDriveLetter (p.drop 1) = true then
              ofParts "file".toList (some Authority.empty) (withColon p) tail
            else ofParts "file".toList (some (Authority.ofHost (some d))) p tail)
        else .error .invalidDomainName := by
  have hchars : ∀ c ∈ d.text, endsFileHost c = false := by
    intro c hc
    obtain ⟨-, hslash, hmark, hhash, hslash', -⟩ := hd.chars c hc
    simp [endsFileHost, hslash, hmark, hhash, hslash']
  have hstart : readPathStart .file (p ++ tail) = readPath .file ['/'] (p.drop 1 ++ tail) := by
    rw [hpath.isPath.eq_cons]
    rfl
  rw [fileAfterSlashes_append hchars hd.not_driveLetter (hpath.endsFileHost_head tail),
    if_neg (by simpa using hd.ne_nil), hd.parse_again]
  -- A host that is too long is not read at all; of one that is read it depends on the path
  -- whether it stays.
  by_cases hshort : d.isReadable = true
  · have hagain := readPath_again hpath htail
    rw [if_pos hshort, if_pos hshort]
    show (if isLocalHost d = true then _ else _) = _
    rw [hlocal, if_neg Bool.false_ne_true, hstart]
    by_cases hdrive : startsWithDriveLetter (p.drop 1) = true
    · rw [if_pos ⟨rfl, hdrive⟩] at hagain
      rw [hagain, if_pos hdrive]
      rfl
    · rw [if_neg fun h => hdrive h.2] at hagain
      rw [hagain, if_neg hdrive]
      rfl
  · rw [if_neg hshort, if_neg hshort]
    rfl

/-- A file. -/
theorem read_file (htail : IsTail u.kind u.query u.fragment) {host : Option Host}
    (hkind : u.kind = .file) (ha : u.authority = some (Authority.ofHost host))
    (hserver : ∀ d, host = some d → IsHost .file d ∧ isLocalHost d = false)
    (hpath : IsSettled .file u.path) :
    readAfterScheme none u.scheme (u.authorityText ++ u.path ++ u.tailText)
      = if IsReadable u.scheme u.host? then .ok u.reread else .error .invalidDomainName := by
  have hends := endsPath_tailText u
  have hscheme := scheme_of_file hkind
  have hhost : u.host? = host := by
    unfold host?
    rw [ha]
    rfl
  have hu : ofParts "file".toList (some (Authority.ofHost host)) u.path u.tailText = u := by
    rw [← ha, ← hscheme]
    exact ofParts_tailText htail
  have hdriven : ofParts "file".toList (some Authority.empty) (withColon u.path) u.tailText
      = u.drivenFile := by
    rw [← hscheme]
    exact ofParts_tailText (u := u.drivenFile) htail
  have htext : u.authorityText = '/' :: '/' :: (host.map Host.text).getD [] := by
    rw [authorityText_served ha rfl, Authority.serverText]
    simp [Authority.ofHost]
  have hread : readAfterScheme none u.scheme (u.authorityText ++ u.path ++ u.tailText)
      = fileAfterSlashes ((host.map Host.text).getD [] ++ (u.path ++ u.tailText)) := by
    unfold readAfterScheme
    rw [show schemeKind u.scheme = .file from hkind, htext]
    simp only [List.cons_append, List.append_assoc]
    show readFileUrl none _ = _
    rw [readFileUrl_eq, leadingSlashes_cons (by decide), leadingSlashes_cons (by decide),
      if_pos (by omega)]
    rfl
  rw [hread, hhost]
  -- Without a host there is none that a drive letter could take away.
  cases host with
  | none =>
      have hstays : u.reread = u := by
        refine if_neg fun h => ?_
        rw [hhost] at h
        cases h.2.1
      rw [if_pos (.inr rfl), hstays]
      exact (fileAfterSlashes_local hpath hends).trans (congrArg Except.ok hu)
  | some d =>
      obtain ⟨hd, hlocal⟩ := hserver d rfl
      have hreadable : IsReadable u.scheme (some d) ↔ d.isReadable = true := by
        unfold IsReadable
        rw [show schemeKind u.scheme = .file from hkind]
        exact or_iff_right (by decide)
      have hreread : u.reread
          = if startsWithDriveLetter (u.path.drop 1) = true then u.drivenFile else u := by
        unfold reread
        simp only [hkind, hhost, Option.isSome_some, true_and]
      show fileAfterSlashes (d.text ++ (u.path ++ u.tailText)) = _
      rw [fileAfterSlashes_host hd hlocal hpath hends, hu, hdriven, hreread]
      simp only [hreadable]

/-- A path with a single slash in front is not taken for an authority, whatever follows it. -/
theorem stripStart?_of_single {p tail : List Char} (h : p = '/' :: p.drop 1)
    (hsingle : (stripStart? ['/', '/'] p).isSome = false) (htail : EndsPath tail) :
    stripStart? ['/', '/'] (p ++ tail) = none := by
  rw [h] at hsingle ⊢
  show stripStart? ['/'] (p.drop 1 ++ tail) = none
  cases hp : p.drop 1 with
  | nil =>
      cases tail with
      | nil => rfl
      | cons c t =>
          refine if_neg fun heq => ?_
          have := htail c rfl
          rw [← heq] at this
          cases this
  | cons c w =>
      rw [hp] at hsingle
      refine if_neg fun heq => ?_
      rw [← heq] at hsingle
      cases hsingle

/-- A URL without an authority whose path starts with a slash. -/
theorem read_rooted (htail : IsTail u.kind u.query u.fragment) (hkind : u.kind = .other)
    (ha : u.authority = none) (hpath : IsSettled .other u.path) :
    readAfterScheme none u.scheme (u.authorityText ++ u.path ++ u.tailText) = .ok u := by
  have hends := endsPath_tailText u
  have hread := readPath_again hpath hends
  rw [if_neg fun h => by cases h.1] at hread
  have hu : ofParts u.scheme none u.path u.tailText = u := by
    rw [← ha]
    exact ofParts_tailText htail
  have hslash := hpath.isPath.eq_cons
  have hscheme : schemeKind u.scheme = .other := hkind
  by_cases hdouble : (stripStart? ['/', '/'] u.path).isSome = true
  · -- a dot before the path keeps it from being read as an authority
    obtain ⟨w, hw⟩ := Option.isSome_iff_exists.1 hdouble
    have hpathText : u.path = '/' :: '/' :: w := eq_append_of_stripStart? hw
    have hmark : u.authorityText = ['/', '.'] := by
      unfold authorityText
      rw [ha]
      exact if_pos hdouble
    have hdot : readPath .other ['/'] ('.' :: (u.path ++ u.tailText))
        = readPath .other ['/'] (u.path.drop 1 ++ u.tailText) := by
      rw [hpathText]
      rfl
    unfold readAfterScheme
    rw [hscheme, hmark]
    show Except.ok (ofParts u.scheme none
      (readPath .other ['/'] ('.' :: (u.path ++ u.tailText))).1.text
      (readPath .other ['/'] ('.' :: (u.path ++ u.tailText))).2) = _
    rw [hdot, hread]
    exact congrArg Except.ok hu
  · have hmark : u.authorityText = [] := by
      unfold authorityText
      rw [ha]
      exact if_neg hdouble
    have hsingle := stripStart?_of_single hslash (Bool.eq_false_iff.2 hdouble) hends
    unfold readAfterScheme
    rw [hscheme, hmark, List.nil_append]
    dsimp only
    rw [hsingle, hslash, List.cons_append]
    show Except.ok (ofParts u.scheme none
      (readPath .other ['/'] (u.path.drop 1 ++ u.tailText)).1.text
      (readPath .other ['/'] (u.path.drop 1 ++ u.tailText)).2) = _
    rw [hread]
    exact congrArg Except.ok hu

/-- A URL with a path that has no structure. -/
theorem read_plain (htail : IsTail u.kind u.query u.fragment) (hkind : u.kind = .other)
    (ha : u.authority = none) (hpath : IsPlain u) :
    readAfterScheme none u.scheme (u.authorityText ++ u.path ++ u.tailText) = .ok u := by
  have hends := endsPath_tailText u
  have hscheme : schemeKind u.scheme = .other := hkind
  -- Nothing here starts with a slash, so neither an authority nor a path is looked for.
  have hhead : (u.path ++ u.tailText).head? ≠ some '/' := by
    intro hslash
    cases hp : u.path with
    | nil =>
        rw [hp, List.nil_append] at hslash
        have := hends '/' hslash
        cases this
    | cons c w =>
        rw [hp] at hslash
        exact hpath.head (by rw [hp]; exact hslash)
  have hstrip : ∀ rest, stripStart? ('/' :: rest) (u.path ++ u.tailText) = none := by
    intro rest
    cases hp : u.path ++ u.tailText with
    | nil => rfl
    | cons c w =>
        rw [hp] at hhead
        exact if_neg fun heq => hhead (congrArg some heq.symm)
  obtain ⟨htake, hdrop⟩ := cut_append hpath.ends hends
  unfold readAfterScheme
  rw [hscheme, authorityText_plain ha hpath.head, List.nil_append]
  dsimp only
  rw [hstrip, hstrip]
  show Except.ok (ofParts u.scheme none
    (percentEncode EncodeSet.controls ((u.path ++ u.tailText).takeWhile (!endsPath ·)))
    ((u.path ++ u.tailText).dropWhile (!endsPath ·))) = _
  rw [htake, hdrop, hpath.bare.percentEncode_eq, ← ha]
  exact congrArg Except.ok (ofParts_tailText htail)

/-- The text of a settled URL without a user is read as the URL, or as what becomes of a file with
a drive letter, if the host is short enough to be read. -/
theorem read_chars (h : Settled u) (hnone : NoUser u) :
    read none u.chars
      = if IsReadable u.scheme u.host? then .ok u.reread else .error .invalidDomainName := by
  have hsplit := splitScheme?_append h.scheme (u.authorityText ++ u.path ++ u.tailText)
  rw [← chars_eq] at hsplit
  have hread : read none u.chars
      = readAfterScheme none u.scheme (u.authorityText ++ u.path ++ u.tailText) := by
    unfold read
    rw [hsplit]
  rw [hread]
  have hother : u.kind = .other → IsReadable u.scheme u.host? ∧ u.reread = u := by
    intro hkind
    exact ⟨.inl hkind, reread_of_not_file (by rw [hkind]; exact SchemeKind.noConfusion)⟩
  cases h.form with
  | served a hkind ha hserver hpath =>
      rw [read_served h.tail hnone hkind ha hserver hpath, reread_of_not_file hkind]
  | file host hkind ha hserver hpath => exact read_file h.tail hkind ha hserver hpath
  | rooted hkind ha hpath =>
      obtain ⟨hreadable, hstays⟩ := hother hkind
      rw [if_pos hreadable, hstays]
      exact read_rooted h.tail hkind ha hpath
  | plain hkind ha hplain =>
      obtain ⟨hreadable, hstays⟩ := hother hkind
      rw [if_pos hreadable, hstays]
      exact read_plain h.tail hkind ha hplain

-- ========================================================== without a user

/-- Without its user a URL names none, -/
theorem hasCredentials_withoutCredentials (u : Url) : NoUser u.withoutCredentials := by
  intro a ha
  obtain ⟨b, -, rfl⟩ := Option.map_eq_some_iff.1 ha
  rfl

/-- and its host stays. -/
theorem host?_withoutCredentials (u : Url) : u.withoutCredentials.host? = u.host? := by
  obtain ⟨scheme, authority, path, query, fragment⟩ := u
  cases authority with
  | none => rfl
  | some a => rfl

/-- Taking the user away leaves everything else settled. -/
theorem Settled.withoutCredentials (h : Settled u) : Settled u.withoutCredentials := by
  refine ⟨h.scheme, h.tail, ?_⟩
  cases h.form with
  | served a hkind ha hserver hpath =>
      exact .served { a with username := [], password := [] } hkind (congrArg (Option.map _) ha)
        (hserver.of_eq rfl rfl) hpath
  | file host hkind ha hserver hpath =>
      exact .file host hkind (congrArg (Option.map _) ha) hserver hpath
  | rooted hkind ha hpath => exact .rooted hkind (congrArg (Option.map _) ha) hpath
  | plain hkind ha hplain =>
      exact .plain hkind (congrArg (Option.map _) ha)
        ⟨hplain.bare, hplain.ends, hplain.head, hplain.last⟩

/-- A URL that has been read is read again from its text without the user. -/
theorem parse_withoutCredentials {text : String} (h : parse text = .ok u) :
    parse u.withoutCredentials.text
      = if IsReadable u.scheme u.host? then .ok u.withoutCredentials.reread
        else .error .invalidDomainName := by
  have hsettled := (settled_of_parse h).withoutCredentials
  have hnone := hasCredentials_withoutCredentials u
  show read none (clean (String.ofList u.withoutCredentials.chars).toList) = _
  rw [String.toList_ofList, clean_chars hsettled hnone, read_chars hsettled hnone,
    host?_withoutCredentials]
  rfl

end TracedTransfer.Url
