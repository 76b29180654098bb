/-
URLs are legible.

Whatever text a URL is read from, each of its parts is encoded or consists
of characters that were allowed, so that none of them holds a control
character or one outside ASCII (`IsLegible`). This is shown part by
part, from the path, which grows segment by segment and loses only what it
had (`PathState.legible_readSegments`), to the URL. A relative reference
takes parts from its base, so the base has to be legible too
(`legible_read`); so are then all URLs that a chain of references leads
to, and that of a file path.

What is shown of a URL are its parts and legible marks between them
(`IsLegible.text`).
-/
import TracedTransfer.Proofs.Text.Legible
import TracedTransfer.Proofs.Url.FilePath
import TracedTransfer.Proofs.Url.Settled

namespace TracedTransfer

open Text

namespace Url

variable {kind : SchemeKind} {scheme s rest : List Char} {u base : Url}

-- ============================================================= encoding

/-- What is escaped shows no control: an escape is made of a sign and two digits, and a control is
always escaped. -/
theorem legible_percentEncodeBytes (set : EncodeSet) (s : Bytes) :
    Legible (percentEncodeBytes set s) := by
  intro c hc
  obtain ⟨b, -, hb⟩ := List.mem_flatMap.1 hc
  rcases mem_encodeByte hb with ⟨-, -, hlow, hhigh, -⟩ | htriple
  · exact ⟨hlow, hhigh⟩
  · exact tripleChars_plain c htriple

@[simp] theorem legible_percentEncode (set : EncodeSet) (s : List Char) :
    Legible (percentEncode set s) := legible_percentEncodeBytes set _

theorem legible_scheme (h : IsScheme scheme) : Legible scheme := by
  intro c hc
  have hchar := (h.2 c hc).1
  exact of_ascii (P := fun c => isSchemeChar c = true → LegibleChar c) (by decide)
    (isSchemeChar_lt hchar) hchar

-- ================================================================= hosts

namespace Host

/-- An address is digits and colons. -/
theorem legible_ipv6 (a : Ipv6) : Legible (ipv6 a).text := by
  have hall : ∀ d < 16, LegibleChar d.digitChar := by decide
  have haddress : Legible a.text := by
    intro c hc
    rcases Ipv6.mem_text hc with rfl | ⟨d, hd, rfl⟩
    · decide
    · exact hall d hd
  simp [text, haddress]
  decide

/-- A name in ASCII has no forbidden character, and all control characters are forbidden. -/
theorem legible_name {t name : List Char} (h : Domain.toAscii? t = some name) :
    Legible name := by
  intro c hc
  have hascii := Domain.isAscii_iff.1 (Domain.isAscii_toAscii? h) c hc
  have hallowed := Domain.of_mem_toAscii? h hc
  simp only [Domain.isForbidden, Bool.or_eq_false_iff, decide_eq_false_iff_not] at hallowed
  constructor <;> omega

/-- A host that is read has no forbidden character, and a control is one. -/
theorem legible_parse {d : Host} (h : parse s = .ok d) : Legible d.text := by
  rcases parse_cases h with ⟨a, rfl⟩ | ⟨a, rfl⟩ | ⟨t, name, hname, rfl, -, -⟩
  · exact legible_ipv6 a
  · intro c hc
    rcases Ipv4.mem_text hc with rfl | hdigit
    · decide
    · exact legible_of_isDigit hdigit
  · exact legible_name hname

/-- Of a host that is kept as it is the controls are escaped. -/
theorem legible_parseOpaque {d : Host} (h : parseOpaque s = .ok (some d)) :
    Legible d.text := by
  rcases parseOpaque_cases h with ⟨a, rfl⟩ | ⟨c, rest, rfl, -, rfl⟩
  · exact legible_ipv6 a
  · exact legible_percentEncode _ _

end Host

/-- So every host is legible, whatever the scheme. -/
theorem legible_readHost {d : Host} (h : readHost kind s = .ok (some d)) :
    Legible d.text := by
  unfold readHost at h
  split at h
  · exact Host.legible_parseOpaque h
  · split at h
    · cases h
    · rcases hd : Host.parse s with e | d'
      · rw [hd] at h
        cases h
      · rw [hd] at h
        cases h
        exact Host.legible_parse hd

/-- An authority of legible parts. -/
structure Authority.IsLegible (a : Authority) : Prop where
  username : Legible a.username
  password : Legible a.password
  host : ∀ d, a.host = some d → Legible d.text

theorem legible_no_host : ∀ d : Host, none = some d → Legible d.text :=
  fun d hd => by cases hd

theorem legible_no_authority : ∀ a : Authority, none = some a → a.IsLegible :=
  fun a ha => by cases ha

theorem Authority.legible_ofHost {host : Option Host}
    (h : ∀ d, host = some d → Legible d.text) : (Authority.ofHost host).IsLegible where
  username := legible_nil
  password := legible_nil
  host := h

theorem legible_readUserInfo (s : List Char) :
    Legible (readUserInfo s).1 ∧ Legible (readUserInfo s).2 := by
  unfold readUserInfo
  split <;> simp

/-- An authority is legible as its parts are. -/
theorem legible_readAuthority {isLast : Bool} {a : Authority}
    (h : readAuthority scheme s isLast = .ok (a, rest)) : a.IsLegible := by
  obtain ⟨hserver, hinfo, -⟩ := readAuthority_ok h
  have hlegible := legible_readUserInfo ((userInfoPart s).1.getD [])
  rw [← hinfo] at hlegible
  refine ⟨hlegible.1, hlegible.2, fun d hd => ?_⟩
  have hhost := (readServer_ok hserver).1
  rw [hd] at hhost
  exact legible_readHost hhost

-- ================================================================= paths

/-- What is cut from a path is of that path, -/
theorem throughLastSlash_subset (p : List Char) : throughLastSlash p ⊆ p := by
  intro c hc
  exact List.mem_reverse.1 ((List.dropWhile_sublist _).subset (List.mem_reverse.1 hc))

/-- and so is what is left of it without a segment. -/
theorem popSegment_subset (kind : SchemeKind) (p : List Char) : popSegment kind p ⊆ p := by
  unfold popSegment
  split
  · exact List.Subset.refl p
  · exact throughLastSlash_subset p

/-- Going up only takes away. -/
theorem goUp_subset (kind : SchemeKind) (p : List Char) : goUp kind p ⊆ p := by
  unfold goUp
  split
  · exact List.Subset.trans (popSegment_subset kind _) (List.dropLast_subset p)
  · exact popSegment_subset kind p

namespace PathState

variable {st : PathState}

/-- A segment is added to a path, escaped already. -/
theorem legible_push (hst : Legible st.text) {seg : List Char} (hseg : Legible seg)
    (closed : Bool) : Legible (st.push kind seg closed).text := by
  have hslash : LegibleChar '/' := by decide
  have hcolon : LegibleChar ':' := by decide
  have hclosing : Legible (if closed then ['/'] else []) := by
    cases closed <;> simp [hslash]
  unfold push
  dsimp only
  generalize hp : (if (kind = .file && !seg.isEmpty && isNormalDriveLetter (st.text.drop 1)) = true
    then st.text ++ ['/'] else st.text) = p
  have hpath : Legible p := by
    rw [← hp]
    split <;> simp [hst, hslash]
  have hup : Legible (goUp kind p) := hpath.of_subset (goUp_subset kind p)
  split
  · dsimp only
    split <;> simp [hup, hslash]
  · split
    · dsimp only
      split <;> simp [hpath, hslash]
    · split
      · have htake := hseg.of_subset (List.take_subset 1 seg)
        simp [hpath, htake, hcolon, hclosing]
      · simp [hpath, hseg, hclosing]

/-- The induction is on the text; each segment is encoded before it is put onto the path. -/
theorem legible_readSegments (hst : Legible st.text) (seg s : List Char) :
    Legible (st.readSegments kind seg s).1.text := by
  induction s generalizing st seg with
  | nil => exact legible_push hst (legible_percentEncode _ _) false
  | cons c s ih =>
      rw [readSegments]
      split
      · exact legible_push hst (legible_percentEncode _ _) false
      · split
        · apply ih
          exact legible_push hst (legible_percentEncode _ _) true
        · exact ih hst _

theorem legible_close (hst : Legible st.text) : Legible (st.close kind).text := by
  unfold close
  split
  · have hdrop := hst.of_subset (List.dropWhile_subset (· = '/'))
    have hslash : LegibleChar '/' := by decide
    simp [hdrop, hslash]
  · exact hst

end PathState

theorem legible_readPath {start : List Char} (h : Legible start) (s : List Char) :
    Legible (readPath kind start s).1.text := by
  apply PathState.legible_close
  exact PathState.legible_readSegments h [] s

theorem legible_root : Legible ['/'] := by decide

/-- A path that starts with nothing starts with a slash. -/
theorem legible_readPathStart (kind : SchemeKind) (s : List Char) :
    Legible (readPathStart kind s).1.text := by
  unfold readPathStart
  split
  · split
    · split <;> exact legible_readPath legible_root _
    · exact legible_readPath legible_root _
  · split
    · exact legible_nil
    · split
      · exact legible_nil
      · split
        · exact legible_readPath legible_nil _
        · exact legible_readPath legible_root _

-- ================================================== query and fragment

theorem Bare.legible {set : EncodeSet} (h : Bare set s) : Legible s :=
  fun c hc => ⟨(h c hc).1, (h c hc).2.1⟩

/-- A URL of legible parts. -/
structure IsLegible (u : Url) : Prop where
  scheme : Legible u.scheme
  authority : ∀ a, u.authority = some a → a.IsLegible
  path : Legible u.path
  query : ∀ q, u.query = some q → Legible q
  fragment : ∀ f, u.fragment = some f → Legible f

/-- A URL is legible as its parts are; query and fragment are escaped when they are read. -/
theorem legible_ofParts {authority : Option Authority} {path : List Char}
    (hscheme : Legible scheme) (hauthority : ∀ a, authority = some a → a.IsLegible)
    (hpath : Legible path) (rest : List Char) :
    (ofParts scheme authority path rest).IsLegible where
  scheme := hscheme
  authority := hauthority
  path := hpath
  query q hq := ((isTail_readTail _ rest).query q hq).legible
  fragment f hf := ((isTail_readTail _ rest).fragment f hf).legible

/-- References change a part of a URL and keep the others: a fragment, -/
theorem IsLegible.withFragment (h : base.IsLegible) (s : List Char) :
    (base.withFragment s).IsLegible where
  scheme := h.scheme
  authority := h.authority
  path := h.path
  query := h.query
  fragment f hf := by
    cases hf
    exact legible_percentEncode _ _

theorem IsLegible.withoutFragment (h : base.IsLegible) :
    IsLegible { base with fragment := none } :=
  ⟨h.scheme, h.authority, h.path, h.query, fun f hf => by cases hf⟩

/-- a query, -/
theorem IsLegible.withTail (h : base.IsLegible) (s : List Char) :
    (base.withTail s).IsLegible :=
  legible_ofParts h.scheme h.authority h.path s

/-- a path. -/
theorem IsLegible.withPath (h : base.IsLegible) {start : List Char} (hstart : Legible start)
    (s : List Char) : (base.withPath start s).IsLegible :=
  legible_ofParts h.scheme h.authority (legible_readPath hstart s) _

theorem IsLegible.host (h : u.IsLegible) {d : Host} (hd : u.host? = some d) :
    Legible d.text := by
  obtain ⟨a, ha, had⟩ := Option.bind_eq_some_iff.1 hd
  exact (h.authority a ha).host d had

-- ============================================================== reading

/-- Behind two slashes stands an authority, and then a path. -/
theorem legible_afterSlashes (hscheme : Legible scheme) (h : afterSlashes scheme s = .ok u) :
    u.IsLegible := by
  obtain ⟨a, left, ha, rfl⟩ := afterSlashes_ok h
  apply legible_ofParts hscheme
  · intro a' ha'
    cases ha'
    exact legible_readAuthority ha
  · exact legible_readPathStart _ _

theorem legible_file : Legible "file".toList := by decide

/-- A `file:` URL is made of a host and a path. -/
theorem legible_fileOf {host : Option Host} (hhost : ∀ d, host = some d → Legible d.text)
    {start : List Char} (hstart : Legible start) (s : List Char) :
    (fileOf host start s).IsLegible := by
  apply legible_ofParts legible_file
  · intro a ha
    cases ha
    exact Authority.legible_ofHost hhost
  · exact legible_readPath hstart s

theorem legible_fileAfterSlashes (h : fileAfterSlashes s = .ok u) : u.IsLegible := by
  obtain ⟨rest, rfl⟩ | ⟨d, hd, -, rfl⟩ := fileAfterSlashes_cases h
  · exact legible_fileOf legible_no_host legible_root rest
  · apply legible_ofParts legible_file
    · intro a ha
      cases ha
      apply Authority.legible_ofHost
      intro d' hd'
      split at hd'
      · cases hd'
      · cases hd'
        exact Host.legible_parse hd
    · exact legible_readPathStart _ _

theorem legible_driveLetter (h : isNormalDriveLetter s = true) : Legible s := by
  match s, h with
  | [a, b], h =>
      simp only [isNormalDriveLetter, Bool.and_eq_true, decide_eq_true_eq] at h
      have hcolon : LegibleChar ':' := by decide
      simp [legible_of_isAlpha h.1, h.2, hcolon]

section Base

variable {base : Option Url} (hbase : ∀ b, base = some b → b.IsLegible)

include hbase

/-- Behind one slash it takes the host of the base, or its drive letter, which is one letter and a
colon. -/
theorem legible_fileAfterSlash (s : List Char) : (fileAfterSlash base s).IsLegible := by
  unfold fileAfterSlash
  split
  · exact legible_fileOf legible_no_host legible_nil s
  · split
    · exact legible_fileOf legible_no_host legible_nil s
    · next b =>
        dsimp only
        split
        · next hdrive =>
            have hslash : LegibleChar '/' := by decide
            exact legible_fileOf legible_no_host
              (legible_cons.2 ⟨hslash, legible_driveLetter hdrive⟩) s
        · exact legible_fileOf (fun d hd => (hbase b rfl).host hd) legible_nil s

theorem legible_fileReference (h : readFileUrl.fileReference base s = .ok u) :
    u.IsLegible := by
  unfold readFileUrl.fileReference at h
  split at h
  · cases h
    exact legible_fileOf legible_no_host legible_root _
  · next b =>
      have hb := hbase b rfl
      split at h
      · cases h
        exact hb.withoutFragment
      · cases h
        exact hb.withTail _
      · cases h
        exact hb.withFragment _
      · split at h
        · cases h
          exact legible_fileOf legible_no_host legible_root _
        · cases h
          exact hb.withPath (hb.path.of_subset (popSegment_subset .file b.path)) _

/-- So it is legible in all its forms. -/
theorem legible_readFileUrl (h : readFileUrl base s = .ok u) : u.IsLegible := by
  rw [readFileUrl_eq] at h
  split at h
  · exact legible_fileAfterSlashes h
  · split at h
    · cases h
      exact legible_fileAfterSlash hbase s
    · exact legible_fileReference hbase h

end Base

/-- A reference without a scheme changes a part of its base. -/
theorem IsLegible.relative (hbase : base.IsLegible) (h : relative base s = .ok u) :
    u.IsLegible := by
  unfold Url.relative at h
  split at h
  · cases h
    exact hbase.withoutFragment
  · cases h
    exact hbase.withTail _
  · cases h
    exact hbase.withFragment _
  · split at h
    · dsimp only at h
      split at h
      · split at h
        · exact legible_afterSlashes hbase.scheme h
        · exact legible_afterSlashes hbase.scheme h
      · cases h
        exact hbase.withPath legible_root _
    · cases h
      apply hbase.withPath
      split
      · exact legible_root
      · exact hbase.path.of_subset (throughLastSlash_subset base.path)

section Base

variable {base : Option Url} (hbase : ∀ b, base = some b → b.IsLegible)

include hbase

theorem legible_filter (p : Url → Bool) : ∀ b, base.filter p = some b → b.IsLegible := by
  intro b hb
  exact hbase b (Option.filter_eq_some_iff.1 hb).1

/-- One with a scheme stands for itself, unless it is that of the base. -/
theorem legible_readAfterScheme (hscheme : Legible scheme)
    (h : readAfterScheme base scheme s = .ok u) : u.IsLegible := by
  cases readsAs_of_readAfterScheme h with
  | file _ h => exact legible_readFileUrl (legible_filter hbase _) h
  | related hb h => exact (legible_filter hbase _ _ hb).relative h
  | served _ h => exact legible_afterSlashes hscheme h
  | rooted =>
      exact legible_ofParts hscheme legible_no_authority (legible_readPath legible_root _) _
  | plain =>
      exact legible_ofParts hscheme legible_no_authority (legible_percentEncode _ _) _

/-- All ways to read a URL give a legible one. -/
theorem legible_readReference (h : readReference base s = .ok u) : u.IsLegible := by
  unfold readReference at h
  split at h
  · cases h
  · next b =>
      have hb := hbase b rfl
      split at h
      · cases h
        exact hb.withFragment _
      · split at h
        · cases h
        · split at h
          · exact legible_readFileUrl hbase h
          · exact hb.relative h

/-- What is read relative to a legible URL, or to none, is legible. -/
theorem legible_read (h : read base s = .ok u) : u.IsLegible := by
  unfold read at h
  split at h
  · next scheme rest hsplit =>
      exact legible_readAfterScheme hbase (legible_scheme (isScheme_of_split hsplit)) h
  · exact legible_readReference hbase h

end Base

/-- So does reading a text of its own -/
theorem legible_of_parse {text : String} (h : parse text = .ok u) : u.IsLegible :=
  legible_read (fun b hb => by cases hb) h

/-- or one behind a base. -/
theorem IsLegible.join (hbase : base.IsLegible) {text : String}
    (h : base.join text = .ok u) : u.IsLegible := by
  refine legible_read (fun b hb => ?_) h
  cases hb
  exact hbase

/-- A path that is set is read, and escaped, anew. -/
theorem IsLegible.setPath (h : u.IsLegible) (p : List Char) : (u.setPath p).IsLegible := by
  have hwith : ∀ {q : List Char}, Legible q → IsLegible { u with path := q } :=
    fun hq => ⟨h.scheme, h.authority, hq, h.query, h.fragment⟩
  unfold Url.setPath
  split
  · split
    · apply hwith
      have hmark : Legible "%2F".toList := by decide
      simp only [legible_append]
      exact ⟨hmark, legible_percentEncode _ _⟩
    · exact hwith (legible_percentEncode _ _)
  · split
    · exact hwith (legible_readPath legible_nil p)
    · exact hwith (legible_readPathStart _ p)

/-- Components of a file path are escaped one by one. -/
theorem legible_componentsPath (cs : List Bytes) : Legible (componentsPath cs) := by
  have hslash : LegibleChar '/' := by decide
  unfold componentsPath
  dsimp only
  split
  · exact legible_root
  · intro c hc
    obtain ⟨s, hs, hc⟩ := List.mem_flatMap.1 hc
    obtain ⟨component, -, rfl⟩ := List.mem_map.1 hs
    rcases List.mem_cons.1 hc with rfl | hc
    · exact hslash
    · exact legible_percentEncodeBytes _ _ c hc

/-- The URL of a path, whose bytes may be anything, shows them encoded. -/
theorem legible_ofFilePath {p : FilePath} (h : ofFilePath p = some u) : u.IsLegible := by
  have habsolute : p.isAbsolute = true := by
    unfold ofFilePath at h
    split at h
    · assumption
    · cases h
  rw [ofFilePath_eq habsolute] at h
  cases h
  refine ⟨legible_file, ?_, legible_componentsPath _, ?_, ?_⟩
  · intro a ha
    cases ha
    exact Authority.legible_ofHost legible_no_host
  · intro q hq
    cases hq
  · intro f hf
    cases hf

-- =============================================================== showing

/-- Without its user a legible URL is legible. -/
theorem IsLegible.withoutCredentials (h : u.IsLegible) : u.withoutCredentials.IsLegible where
  scheme := h.scheme
  authority a ha := by
    obtain ⟨a', ha', rfl⟩ := Option.map_eq_some_iff.1 ha
    exact ⟨legible_nil, legible_nil, (h.authority a' ha').host⟩
  path := h.path
  query := h.query
  fragment := h.fragment

theorem Authority.IsLegible.text {a : Authority} (h : a.IsLegible) : Legible a.text := by
  have hcolon : LegibleChar ':' := by decide
  have hat : LegibleChar '@' := by decide
  have hinfo : Legible a.userInfoText := by
    unfold Authority.userInfoText
    split
    · split <;> simp [h.username, h.password, hcolon, hat]
    · exact legible_nil
  have hserver : Legible a.serverText := by
    unfold Authority.serverText
    rw [legible_append]
    constructor
    · cases hhost : a.host with
      | none => exact legible_nil
      | some d => exact h.host d hhost
    · cases a.port with
      | none => exact legible_nil
      | some p => simp [hcolon]
  exact legible_append.2 ⟨hinfo, hserver⟩

/-- The characters of a legible URL are those of its parts and of the marks between them, -/
theorem IsLegible.chars (h : u.IsLegible) : Legible u.chars := by
  have hauthority : Legible u.authorityText := by
    unfold authorityText
    split
    · next a ha =>
        have hslash : LegibleChar '/' := by decide
        simp [hslash, (h.authority a ha).text]
    · split
      · decide
      · exact legible_nil
  have htail : Legible u.tailText := by
    unfold tailText
    rw [legible_append]
    constructor
    · cases hquery : u.query with
      | none => exact legible_nil
      | some q =>
          have hmark : LegibleChar '?' := by decide
          simp [hmark, h.query q hquery]
    · cases hfragment : u.fragment with
      | none => exact legible_nil
      | some f =>
          have hmark : LegibleChar '#' := by decide
          simp [hmark, h.fragment f hfragment]
  have hcolon : LegibleChar ':' := by decide
  simp [Url.chars, h.scheme, h.path, hauthority, htail, hcolon]

/-- and its text has no others. -/
theorem IsLegible.text (h : u.IsLegible) : Legible u.text.toList := by
  rw [Url.text, String.toList_ofList]
  exact h.chars

/-- The last part of a path is cut out of it. -/
theorem IsLegible.lastSegment (h : u.IsLegible) (hs : u.lastSegment? = some s) : Legible s := by
  obtain ⟨segments, hsegments, hlast⟩ := Option.bind_eq_some_iff.1 hs
  obtain ⟨p, hp, rfl⟩ := Option.map_eq_some_iff.1 hsegments
  have hmem : s ∈ p.splitOn '/' := (List.mem_filter.1 (List.mem_of_getLast? hlast)).1
  have hpath : u.path = '/' :: p := eq_append_of_stripStart? hp
  apply h.path.of_subset
  intro c hc
  rw [hpath]
  exact List.mem_cons_of_mem _ ((of_mem_splitOn hmem).2 c hc)

end Url

end TracedTransfer
