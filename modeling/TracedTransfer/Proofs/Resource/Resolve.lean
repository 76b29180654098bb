/-
Where resolving leads.

A reference either names an authority itself or is given that of the
base, and which of the two it does can be read off the cleaned text: it
names one if it has another scheme than the base, or two slashes of
either kind in front (`namesAuthority`). Then the base plays no part. If
it names none, scheme and authority of the base stay, except that a file
with a host loses it to a drive letter (`losesHost`). `read_reference`
says so for one reference; each kind of base has its own lemma, which
follows the reader.

`resolve_authority` is the whole, for the paths that are no URLs by
themselves. `resolve_leaves` shows a path that leads elsewhere: slashes
are cut off before resolving, backslashes are not.
-/
import Mathlib.Data.List.Basic
import TracedTransfer.Proofs.Url.Scheme
import TracedTransfer.Resource.Name

namespace TracedTransfer

open Text

namespace Url

variable {base u : Url} {s : List Char}

-- ========================================================== vocabulary

/-- The scheme of a reference, which is that of the base if it has none, and what follows. -/
def splitReference (base : Url) (s : List Char) : List Char × List Char :=
  (splitScheme? s).getD (base.scheme, s)

/-- Whether a reference names an authority itself. -/
def namesAuthority (base : Url) (s : List Char) : Bool :=
  (splitReference base s).1 ≠ base.scheme || 2 ≤ leadingSlashes (splitReference base s).2

/-- Whether a file loses its host to a drive letter: one that the reference starts with, or one
at the beginning of the base for a reference to the root. -/
def losesHost (base : Url) (s : List Char) : Bool :=
  base.kind = .file
    && (if 1 ≤ leadingSlashes s then
          startsWithDriveLetter (s.drop 1)
            || isNormalDriveLetter (((base.segments?).bind List.head?).getD [])
        else startsWithDriveLetter s)

-- ===================================================== special schemes

/-- No authority starts with a slash. -/
theorem afterSlashes_slash {scheme : List Char} (hkind : schemeKind scheme ≠ .other) {c : Char}
    (hc : isSlash c = true) (s : List Char) : afterSlashes scheme (c :: s) = .error .emptyHost := by
  have hends : endsAuthority (schemeKind scheme) c = true := by
    unfold isSlash at hc
    simp only [Bool.or_eq_true, decide_eq_true_eq] at hc
    rcases hc with rfl | rfl
    · rfl
    · simp [endsAuthority, hkind]
  have hnone : readAuthority scheme [] (c :: s).isEmpty = .error .emptyHost := by
    have hhost : readHost (schemeKind scheme) [] = .error .emptyHost := by
      rw [readHost, if_neg hkind]
      rfl
    have hserver : readServer scheme [] = .error .emptyHost := by
      show (readHost (schemeKind scheme) []).bind _ = _
      rw [hhost]
      rfl
    rw [readAuthority_eq]
    show (readServer scheme []).bind _ = _
    rw [hserver]
    rfl
  unfold afterSlashes
  dsimp only
  rw [List.takeWhile_cons_of_neg (by simp [hends]), List.dropWhile_cons_of_neg (by simp [hends]),
    hnone]
  rfl

/-- A reference with two slashes is read as if there were no base. -/
theorem relative_foreign (hkind : base.kind = .special) (hn : 2 ≤ leadingSlashes s)
    (h : relative base s = .ok u) : readAfterScheme none base.scheme s = .ok u := by
  have hscheme : schemeKind base.scheme = .special := hkind
  rw [readAfterScheme, hscheme]
  show afterSlashes base.scheme (s.drop (leadingSlashes s)) = .ok u
  unfold relative at h
  split at h
  · cases hn
  · rw [leadingSlashes_of_not (by decide)] at hn
    cases hn
  · rw [leadingSlashes_of_not (by decide)] at hn
    cases hn
  · rename_i c rest _ _
    by_cases hc : isSlash c = true
    · rw [if_pos (by exact hc)] at h
      dsimp only at h
      rw [if_pos hn] at h
      split at h
      · rename_i after hafter
        have hs : c :: rest = '/' :: '/' :: after := eq_append_of_stripStart? hafter
        -- a third slash would have left no host
        have hzero : leadingSlashes after = 0 := by
          cases after with
          | nil => rfl
          | cons d after =>
              refine leadingSlashes_of_not (fun hd => ?_) after
              rw [afterSlashes_slash (by rw [hscheme]; exact SchemeKind.noConfusion) hd] at h
              cases h
        rw [hs, leadingSlashes_cons (by decide), leadingSlashes_cons (by decide), hzero]
        exact h
      · exact h
    · rw [leadingSlashes_of_not hc] at hn
      cases hn

/-- Any other reference stays with the authority. -/
theorem relative_own (hn : ¬ 2 ≤ leadingSlashes s) (h : relative base s = .ok u) :
    u.scheme = base.scheme ∧ u.authority = base.authority := by
  unfold relative at h
  split at h
  · cases h
    exact ⟨rfl, rfl⟩
  · cases h
    exact ⟨rfl, rfl⟩
  · cases h
    exact ⟨rfl, rfl⟩
  · split at h
    · dsimp only at h
      rw [if_neg hn] at h
      cases h
      exact ⟨rfl, rfl⟩
    · cases h
      exact ⟨rfl, rfl⟩

-- ================================================================ files

/-- What does not start with a letter starts with no drive letter. -/
theorem startsWithDriveLetter_of_not {c : Char} (hc : c.isAlpha = false) (s : List Char) :
    startsWithDriveLetter (c :: s) = false := by
  cases s with
  | nil => rfl
  | cons d s => simp [startsWithDriveLetter, isDriveLetter, hc]

/-- A reference in a `file:` URL keeps the scheme; a drive letter in front of it drops the
host. -/
theorem fileReference_own (hfile : base.kind = .file)
    (h : readFileUrl.fileReference (some base) s = .ok u) :
    u.scheme = base.scheme
      ∧ u.authority = if startsWithDriveLetter s then some Authority.empty else base.authority := by
  have hscheme := scheme_of_file hfile
  unfold readFileUrl.fileReference at h
  dsimp only at h
  split at h
  · cases h
    exact ⟨rfl, rfl⟩
  · cases h
    rw [startsWithDriveLetter_of_not (by decide)]
    exact ⟨rfl, rfl⟩
  · cases h
    rw [startsWithDriveLetter_of_not (by decide)]
    exact ⟨rfl, rfl⟩
  · split at h
    · rename_i hdrive
      cases h
      rw [if_pos hdrive]
      exact ⟨hscheme.symm, rfl⟩
    · rename_i hdrive
      cases h
      rw [if_neg hdrive]
      exact ⟨rfl, rfl⟩

/-- Behind one slash it does too, with one more way to drop the host: a base whose path starts
with a drive letter. -/
theorem fileAfterSlash_own (hshape : HasShape base) (hfile : base.kind = .file) (s : List Char) :
    (fileAfterSlash (some base) s).scheme = base.scheme
      ∧ (fileAfterSlash (some base) s).authority =
        if startsWithDriveLetter (s.drop 1)
            || isNormalDriveLetter (((base.segments?).bind List.head?).getD []) then
          some Authority.empty
        else base.authority := by
  have hscheme := scheme_of_file hfile
  obtain ⟨host, hhost⟩ := hshape.file hfile
  unfold fileAfterSlash
  by_cases hdrive : startsWithDriveLetter (s.drop 1) = true
  · rw [if_pos hdrive, hdrive, Bool.true_or, if_pos rfl]
    exact ⟨hscheme.symm, rfl⟩
  · rw [if_neg hdrive]
    dsimp only
    by_cases hfirst : isNormalDriveLetter (((base.segments?).bind List.head?).getD []) = true
    · rw [if_pos hfirst, if_pos (by simp [hfirst])]
      exact ⟨hscheme.symm, rfl⟩
    · rw [if_neg hfirst, eq_false_of_ne_true hdrive, Bool.false_or, if_neg hfirst, hhost]
      refine ⟨hscheme.symm, ?_⟩
      show some (Authority.ofHost (base.authority.bind Authority.host)) = _
      rw [hhost]
      rfl

/-- A reference to a file with fewer than two slashes in front. -/
theorem readFileUrl_own (hshape : HasShape base) (hfile : base.kind = .file)
    (hn : ¬ 2 ≤ leadingSlashes s) (h : readFileUrl (some base) s = .ok u) :
    u.scheme = base.scheme
      ∧ u.authority = if losesHost base s then some Authority.empty else base.authority := by
  rw [readFileUrl_eq, if_neg hn] at h
  unfold losesHost
  rw [decide_eq_true hfile, Bool.true_and]
  split at h
  · rename_i hone
    cases h
    rw [if_pos hone]
    exact fileAfterSlash_own hshape hfile s
  · rename_i hone
    rw [if_neg hone]
    exact fileReference_own hfile h

-- =========================================================== references

/-- What a reference without an authority of its own leaves of the base. -/
def Stays (base u : Url) (s : List Char) : Prop :=
  u.scheme = base.scheme
    ∧ u.authority = if losesHost base s then some Authority.empty else base.authority

/-- A reference, without its scheme, to a base that has the same. -/
theorem read_rest (hshape : HasShape base) (hkind : base.kind ≠ .other)
    (h : (if base.kind = .file then readFileUrl (some base) s else relative base s) = .ok u) :
    if 2 ≤ leadingSlashes s then readAfterScheme none base.scheme s = .ok u
    else Stays base u s := by
  -- The host of a file can be lost to a drive letter; that of a special scheme cannot.
  cases hk : base.kind with
  | other => exact absurd hk hkind
  | file =>
      rw [if_pos hk] at h
      split
      · rename_i hn
        rw [readFileUrl_eq, if_pos hn] at h
        have hfile : schemeKind base.scheme = .file := hk
        rw [readAfterScheme, hfile]
        dsimp only
        rw [readFileUrl_eq, if_pos hn, h]
      · rename_i hn
        exact readFileUrl_own hshape hk hn h
  | special =>
      rw [if_neg (by rw [hk]; exact SchemeKind.noConfusion)] at h
      split
      · rename_i hn
        exact relative_foreign hk hn h
      · rename_i hn
        have hkept : losesHost base s = false := by
          unfold losesHost
          rw [hk]
          rfl
        rw [Stays, hkept]
        exact relative_own hn h

/-- A base of a known scheme has a path that can be resolved in. -/
theorem isOpaque_eq_false (hshape : HasShape base) (hkind : base.kind ≠ .other) :
    base.isOpaque = false := by
  have hauthority : ∃ a, base.authority = some a := by
    cases hk : base.kind with
    | other => exact absurd hk hkind
    | special =>
        obtain ⟨a, ha, -⟩ := hshape.special hk
        exact ⟨a, ha⟩
    | file =>
        obtain ⟨host, ha⟩ := hshape.file hk
        exact ⟨_, ha⟩
  obtain ⟨a, ha⟩ := hauthority
  simp [isOpaque, ha]

/-- A reference without a scheme follows the rules of the base. -/
theorem readReference_eq (hshape : HasShape base) (hkind : base.kind ≠ .other) (s : List Char) :
    readReference (some base) s
      = if base.kind = .file then readFileUrl (some base) s else relative base s := by
  unfold readReference
  split
  · cases ‹some base = none›
  · rename_i b hb
    cases hb
    split
    · split
      · rw [readFileUrl_eq, leadingSlashes_of_not (by decide)]
        rfl
      · rfl
    · rw [isOpaque_eq_false hshape hkind, if_neg Bool.false_ne_true]

/-- A reference with the scheme of the base is read like one without. -/
theorem readAfterScheme_own (hkind : base.kind ≠ .other) (hn : ¬ 2 ≤ leadingSlashes s) :
    readAfterScheme (some base) base.scheme s
      = if base.kind = .file then readFileUrl (some base) s else relative base s := by
  unfold readAfterScheme
  cases hk : schemeKind base.scheme with
  | other => exact absurd hk hkind
  | file =>
      rw [if_pos (show base.kind = .file from hk)]
      dsimp only
      rw [Option.filter_some_pos (by simp)]
  | special =>
      rw [if_neg (by rw [kind, hk]; exact SchemeKind.noConfusion)]
      dsimp only
      rw [Option.filter_some_pos (by simpa using hn)]

/-- With two slashes the base plays no part even if it has the same scheme. -/
theorem readAfterScheme_slashes (hn : 2 ≤ leadingSlashes s) :
    readAfterScheme (some base) base.scheme s = readAfterScheme none base.scheme s := by
  unfold readAfterScheme
  split
  · rw [readFileUrl_eq, readFileUrl_eq, if_pos hn, if_pos hn]
  · dsimp only
    rw [Option.filter_some_neg (by rw [decide_eq_false (Nat.not_lt.2 hn), Bool.and_false])]
    rfl
  · rfl

/-- A base with another scheme plays no part. -/
theorem readAfterScheme_foreign {scheme : List Char} (hne : base.scheme ≠ scheme) :
    readAfterScheme (some base) scheme s = readAfterScheme none scheme s := by
  unfold readAfterScheme
  split
  · rw [Option.filter_some_neg (by simpa using hne)]
    rfl
  · dsimp only
    rw [Option.filter_some_neg (by simp [hne])]
    rfl
  · rfl

/-- A reference leads to the URL it names without the base, or stays with the base. -/
theorem read_reference (hshape : HasShape base) (hkind : base.kind ≠ .other)
    (h : read (some base) s = .ok u) :
    if namesAuthority base s then
      read none ((splitReference base s).1 ++ ':' :: (splitReference base s).2) = .ok u
    else Stays base u (splitReference base s).2 := by
  unfold namesAuthority
  cases hsplit : splitScheme? s with
  | none =>
      have hparts : splitReference base s = (base.scheme, s) := by rw [splitReference, hsplit]; rfl
      rw [read, hsplit] at h
      rw [hparts, read, splitScheme?_append hshape.scheme]
      dsimp only at h ⊢
      rw [readReference_eq hshape hkind] at h
      simpa using read_rest hshape hkind h
  | some p =>
      obtain ⟨scheme, rest⟩ := p
      have hparts : splitReference base s = (scheme, rest) := by rw [splitReference, hsplit]; rfl
      rw [read, hsplit] at h
      rw [hparts, read, splitScheme?_append (isScheme_of_split hsplit)]
      dsimp only at h ⊢
      -- A scheme of its own is no reference to the base, unless it is the same one.
      by_cases hown : base.scheme = scheme
      · subst hown
        by_cases hn : 2 ≤ leadingSlashes rest
        · rw [readAfterScheme_slashes hn] at h
          simpa [hn] using h
        · rw [readAfterScheme_own hkind hn] at h
          simpa [hn] using read_rest hshape hkind h
      · rw [readAfterScheme_foreign hown] at h
        simpa [Ne.symm hown] using h

end Url

namespace Resource.Name

variable {n r : Name}

open Url

-- =============================================================== names

/-- A path as it is resolved: without slashes at its beginning, and cleaned. -/
def pathReference (path : String) : List Char := clean (path.toList.dropWhile (· = '/'))

/-- Another path changes neither scheme nor host. -/
theorem setPath_front (u : Url) (p : List Char) :
    (u.setPath p).scheme = u.scheme ∧ (u.setPath p).authority = u.authority := by
  unfold setPath
  split
  · split <;> exact ⟨rfl, rfl⟩
  · split <;> exact ⟨rfl, rfl⟩

/-- As a directory a name keeps all but its path. -/
theorem directory_front (n : Name) :
    n.directory.scheme = n.url.scheme ∧ n.directory.authority = n.url.authority := by
  unfold directory
  split
  · exact ⟨rfl, rfl⟩
  · exact setPath_front ..

/-- The URL of a name is the one that was parsed, -/
theorem url_of_parse {uri : String} (h : parse uri = .ok n) : Url.parse uri = .ok n.url := by
  unfold parse at h
  cases hu : Url.parse uri with
  | error e =>
      rw [hu] at h
      cases h
  | ok u =>
      rw [hu] at h
      cases h
      rfl

/-- so it has the shape of what the reader gives, -/
theorem shape_of_parse {uri : String} (h : parse uri = .ok n) : HasShape n.url :=
  shape_of_read (url_of_parse h)

/-- and so has its directory. -/
theorem directory_shape {uri : String} (h : parse uri = .ok n) : HasShape n.directory := by
  have hshape := shape_of_parse h
  obtain ⟨hscheme, hauthority⟩ := directory_front n
  refine ⟨?_, ?_, ?_⟩
  · rw [hscheme]
    exact hshape.scheme
  · rw [kind, hscheme, hauthority]
    exact hshape.special
  · rw [kind, hscheme, hauthority]
    exact hshape.file

/-- A name that is resolved is the URL read in the directory. -/
theorem resolve_ok {path : String} (h : n.resolve path = .ok r) :
    Url.read (some n.directory) (pathReference path) = .ok r.url := by
  unfold resolve join at h
  rw [String.toList_ofList] at h
  cases hu : Url.read (some n.directory) (clean (path.toList.dropWhile (· = '/'))) with
  | error e =>
      rw [hu] at h
      cases h
  | ok u =>
      rw [hu] at h
      cases h
      exact hu

/-- A path that names an authority is a URL by itself, or has two slashes in front once it has been
cleaned, if no slash was cut off. -/
theorem leadingSlashes_of_foreign {path : String} (hslash : path.toList.head? ≠ some '/')
    (hforeign : namesAuthority n.url (pathReference path) = true)
    (hpath : ∃ e, parse path = .error e)
    (hread : ∃ u, Url.read none ((splitReference n.url (pathReference path)).1 ++ ':'
      :: (splitReference n.url (pathReference path)).2) = .ok u) :
    2 ≤ leadingSlashes (pathReference path) := by
  have hsame : pathReference path = clean path.toList := by
    unfold pathReference
    cases hchars : path.toList with
    | nil => rfl
    | cons c cs =>
        rw [hchars] at hslash
        rw [List.dropWhile_cons_of_neg (by simpa using hslash)]
  cases hsplit : splitScheme? (pathReference path) with
  | none =>
      have hself : splitReference n.url (pathReference path)
          = (n.url.scheme, pathReference path) := by
        rw [splitReference, hsplit]
        rfl
      rw [namesAuthority, hself] at hforeign
      simpa using hforeign
  | some p =>
      -- with a scheme it would be a URL by itself
      obtain ⟨scheme, rest⟩ := p
      have hself : splitReference n.url (pathReference path) = (scheme, rest) := by
        rw [splitReference, hsplit]
        rfl
      obtain ⟨e, he⟩ := hpath
      obtain ⟨u, hu⟩ := hread
      rw [hself, Url.read, splitScheme?_append (isScheme_of_split hsplit)] at hu
      rw [parse, Url.parse, ← hsame, Url.read, hsplit] at he
      dsimp only at hu he
      rw [hu] at he
      cases he

/-- Resolving never leaves the authority of the base — unless the path comes to name one itself
once slashes are cut off at its beginning and it is cleaned, which takes a URL behind those
slashes, or two slashes or backslashes in front of what is left; or unless a file loses its host
to a drive letter. In the first case the base plays no part in the outcome. -/
theorem resolve_authority {uri path : String} (hn : parse uri = .ok n)
    (hscheme : n.url.scheme ∈ ["http".toList, "https".toList, "file".toList])
    (hpath : ∃ e, parse path = .error e) (hr : n.resolve path = .ok r) :
    let reference := splitReference n.url (pathReference path)
    (namesAuthority n.url (pathReference path) = false →
      r.url.scheme = n.url.scheme
        ∧ r.url.authority =
          if losesHost n.directory reference.2 then some Authority.empty else n.url.authority)
    ∧ (namesAuthority n.url (pathReference path) = true →
      Url.read none (reference.1 ++ ':' :: reference.2) = .ok r.url
        ∧ (path.toList.head? = some '/' ∨ 2 ≤ leadingSlashes (pathReference path))) := by
  -- None of the three schemes has a path that is kept as it is.
  have hkind : n.directory.kind ≠ .other := by
    rw [kind, (directory_front n).1]
    revert hscheme
    generalize n.url.scheme = scheme
    intro hscheme
    simp only [List.mem_cons, List.not_mem_nil, or_false] at hscheme
    rcases hscheme with rfl | rfl | rfl <;> decide +kernel
  have hread := read_reference (directory_shape hn) hkind (resolve_ok hr)
  -- The directory of a name has its scheme and its authority, so it splits references alike.
  have hparts : splitReference n.directory (pathReference path)
      = splitReference n.url (pathReference path) := by
    rw [splitReference, splitReference, (directory_front n).1]
  have hnames : namesAuthority n.directory (pathReference path)
      = namesAuthority n.url (pathReference path) := by
    rw [namesAuthority, namesAuthority, hparts, (directory_front n).1]
  rw [hnames, hparts] at hread
  refine ⟨fun hown => ?_, fun hforeign => ?_⟩
  · rw [hown, if_neg Bool.false_ne_true, Stays, (directory_front n).1, (directory_front n).2]
      at hread
    exact hread
  · rw [hforeign, if_pos rfl] at hread
    refine ⟨hread, ?_⟩
    by_cases hslash : path.toList.head? = some '/'
    · exact .inl hslash
    · exact .inr (leadingSlashes_of_foreign hslash hforeign hpath ⟨_, hread⟩)

/-- A path that goes up further than there is a way stays with user, host and port. -/
theorem resolve_authority_of_dots :
    ∃ n r, parse "https://u:p@repo.example.com:8443/base" = .ok n
      ∧ n.resolve "/../..//x" = .ok r ∧ r.url.authority = n.url.authority := by
  let a : Authority := ⟨['u'], ['p'], some (.named "repo.example.com".toList), some 8443⟩
  have hn : parse "https://u:p@repo.example.com:8443/base"
      = .ok ⟨⟨"https".toList, some a, "/base".toList, none, none⟩⟩ := by decide +kernel
  have hr : Name.resolve ⟨⟨"https".toList, some a, "/base".toList, none, none⟩⟩ "/../..//x"
      = .ok ⟨⟨"https".toList, some a, "//x".toList, none, none⟩⟩ := by decide +kernel
  have hpath : parse "/../..//x" = .error .relativeWithoutBase := by decide +kernel
  refine ⟨_, _, hn, hr, ?_⟩
  obtain ⟨hown, -⟩ := resolve_authority hn (by decide +kernel) ⟨_, hpath⟩ hr
  exact (hown (by decide +kernel)).2.trans (if_neg (by decide +kernel))

/-- Slashes are cut off in front of a path that is resolved, backslashes are not: a path of a host
and a file behind two of them leads to that host. -/
theorem resolve_leaves :
    ∃ n r, parse "https://repo.example.com/base" = .ok n
      ∧ (∃ e, parse "\\\\evil.example/x" = .error e)
      ∧ n.resolve "\\\\evil.example/x" = .ok r ∧ r.location = "https://evil.example/x"
      ∧ r.url.host? ≠ n.url.host? := by
  refine ⟨⟨⟨"https".toList, some (Authority.ofHost (some (.named "repo.example.com".toList))),
      "/base".toList, none, none⟩⟩, ⟨⟨"https".toList,
      some (Authority.ofHost (some (.named "evil.example".toList))), "/x".toList, none, none⟩⟩,
      ?_, ⟨.relativeWithoutBase, ?_⟩, ?_, ?_, ?_⟩
  · decide +kernel
  · decide +kernel
  · decide +kernel
  · decide +kernel
  · decide +kernel

end Resource.Name

end TracedTransfer
