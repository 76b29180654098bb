/-
Which header lines metadata are read from.

All header lines of a transfer come one after another, those of interim
responses and redirects first. Metadata are to be those of the last
response, so the lines are collected afresh whenever a status line comes;
but a line that is not UTF-8 is passed over before it is looked at, and a
status line may have any bytes in its reason phrase. So
(`metadata_of_last`):

- if the status line of the last response is UTF-8, metadata are what its
  own header lines and trailers give, and nothing of an earlier response
  is left;
- if it is not, the lines that counted before it go on to count.

`etag_of_earlier` is an instance of the second case: an entity tag of an
interim response becomes that of the resource.
-/
import Mathlib
import TracedTransfer.Proofs.Resource.HeaderFields
import TracedTransfer.Proofs.Resource.WebOutcome
import TracedTransfer.Proofs.Text.Ascii

namespace TracedTransfer.Resource

open Text Http

variable {r : WebResource} {m m' : Machine} {line : Bytes} {lines : List Bytes}

-- =============================================================== lines

/-- The header lines of the final response, and its trailers. -/
def ownLines (a : Answer) : List Bytes := a.head.lines.tail ++ a.body.trailers

/-- Lines as text: those that are UTF-8, without the blanks at their ends. -/
def texts (lines : List Bytes) : List String :=
  ((lines.filterMap headerText?).filter (!·.isEmpty)).map String.ofList

/-- Whether a line begins like a status line. -/
def StartsAfresh (line : Bytes) : Prop := bytesOf "HTTP/" <+: line

instance (line : Bytes) : Decidable (StartsAfresh line) :=
  inferInstanceAs (Decidable (_ <+: _))

/-- A header line is kept as text without the blanks at its end, if it is
text. -/
theorem headerText?_eq (line : Bytes) :
    headerText? line = (Utf8.decode? line).map trimRight := rfl

theorem bytesOf_status : (bytesOf "HTTP/").map (fun b => Char.ofNat b.toNat)
    = statusLineStart := by decide

theorem bytesOf_status_ascii : ∀ b ∈ bytesOf "HTTP/", 0 < b ∧ b < 0x80 := by
  have hall : (bytesOf "HTTP/").all (fun b => decide (0 < b ∧ b < 0x80)) = true := rfl
  exact fun b hb => of_decide_eq_true (List.all_eq_true.1 hall b hb)

theorem statusLineStart_eq : statusLineStart = ['H', 'T', 'T', 'P'] ++ ['/'] := rfl

/-- A line that begins like a status line, read as text. -/
theorem headerText?_of_startsAfresh (h : StartsAfresh line) {s : List Char}
    (hs : headerText? line = some s) : ∃ rest, s = statusLineStart ++ rest := by
  obtain ⟨rest, rfl⟩ := h
  rw [headerText?_eq,
    Utf8.decode?_append_ascii fun b hb => (bytesOf_status_ascii b hb).2, Option.map_map,
    Option.map_eq_some_iff] at hs
  obtain ⟨text, -, rfl⟩ := hs
  refine ⟨trimRight text, ?_⟩
  rw [Function.comp_apply, bytesOf_status, statusLineStart_eq, List.append_assoc,
    List.singleton_append, trimRight_append (by rfl)]
  rfl

/-- A line whose text begins like a status line does so itself. -/
theorem startsAfresh_of_headerText? {s : List Char} (hs : headerText? line = some s)
    {rest : List Char} (h : s = statusLineStart ++ rest) : StartsAfresh line := by
  rw [headerText?_eq, Option.map_eq_some_iff] at hs
  obtain ⟨text, htext, htrim⟩ := hs
  obtain ⟨missing, hmissing⟩ := trimRight_append_rest text
  rw [htrim, h, ← bytesOf_status, List.append_assoc] at hmissing
  rw [hmissing] at htext
  obtain ⟨after, hafter, -⟩ := Utf8.ascii_of_decode? bytesOf_status_ascii htext
  exact ⟨after, hafter.symm⟩

theorem texts_cons (line : Bytes) (lines : List Bytes) :
    texts (line :: lines) = texts [line] ++ texts lines := by
  rw [texts, texts, texts, ← List.map_append, ← List.filter_append, ← List.filterMap_append]
  rfl

/-- A line that does not begin like a status line adds its text. -/
theorem addHeaderLine_other (h : ¬ StartsAfresh line) (kept : List String) :
    addHeaderLine kept line = kept ++ texts [line] := by
  rw [addHeaderLine]
  cases hs : headerText? line with
  | none =>
      have hnone : texts [line] = [] := by
        rw [texts, List.filterMap_cons_none hs]
        rfl
      rw [hnone, List.append_nil]
  | some s =>
      have hstatus : stripStart? statusLineStart s = none := by
        rw [Option.eq_none_iff_forall_ne_some]
        exact fun rest hrest =>
          h (startsAfresh_of_headerText? hs (eq_append_of_stripStart? hrest))
      have hsome : texts [line] = if s.isEmpty then [] else [String.ofList s] := by
        rw [texts, List.filterMap_cons_some hs, List.filterMap_nil, List.filter_cons]
        cases s.isEmpty with
        | true => rfl
        | false => rfl
      rw [hsome]
      simp only [hstatus, Option.isSome_none, Bool.false_eq_true, if_false]
      split
      · exact (List.append_nil kept).symm
      · rfl

/-- Lines that do not start afresh are kept behind those before them. -/
theorem foldl_addHeaderLine (h : ∀ line ∈ lines, ¬ StartsAfresh line) (kept : List String) :
    lines.foldl addHeaderLine kept = kept ++ texts lines := by
  induction lines generalizing kept with
  | nil => exact (List.append_nil kept).symm
  | cons line lines ih =>
      rw [List.foldl_cons, addHeaderLine_other (h line (List.mem_cons_self ..)),
        ih fun l hl => h l (List.mem_cons_of_mem _ hl), texts_cons line lines, List.append_assoc]

/-- A status line that is UTF-8 stands alone. -/
theorem addHeaderLine_status (h : StartsAfresh line) {s : List Char}
    (hs : headerText? line = some s) (kept : List String) :
    addHeaderLine kept line = [String.ofList s] := by
  obtain ⟨rest, hrest⟩ := headerText?_of_startsAfresh h hs
  have hstatus : (stripStart? statusLineStart s).isSome = true := by
    rw [hrest, stripStart?_append]
    rfl
  have hempty : s.isEmpty = false := by
    rw [hrest]
    rfl
  rw [addHeaderLine, hs]
  simp only [hstatus, hempty, if_true, Bool.false_eq_true, if_false, List.nil_append]

/-- One that is not is passed over. -/
theorem addHeaderLine_broken (h : Utf8.decode? line = none) (kept : List String) :
    addHeaderLine kept line = kept := by
  rw [addHeaderLine, headerText?_eq, h]
  rfl

-- ============================================================ metadata

/-- No field has a name that begins like a status line. -/
theorem headerOf_status (rest : List Char) :
    headerOf (String.ofList (statusLineStart ++ rest)) = none :=
  headerOf_of_isIdle (isIdle_status rest)

theorem ofHeaders_status (url : Url) (rest : List Char) (lines : List String) :
    Metadata.ofHeaders url (String.ofList (statusLineStart ++ rest) :: lines)
      = Metadata.ofHeaders url lines := by
  rw [Metadata.ofHeaders, List.foldl_cons, Metadata.addLine, headerOf_status]
  rfl

/-- Whether the status line of a response is UTF-8. -/
def statusIsText (a : Answer) : Bool :=
  (a.head.lines.head?.bind Utf8.decode?).isSome

/-- The header lines that count after those that came before a response. -/
def linesThatCount (prior : List Bytes) (a : Answer) : List String :=
  (if statusIsText a then [] else headerLines prior) ++ texts (ownLines a)

theorem startsAfresh_of_status {status : Status} (h : IsStatusLine line status) :
    StartsAfresh line := by
  cases h with
  | mk => exact ⟨0x31 :: 0x2e :: _, rfl⟩

/-- Every answer starts with such a line. -/
theorem status_of_isAnswer {wantsBody : Bool} {s : Bytes} {a : Answer}
    (h : IsAnswer wantsBody s a) : ∃ line, a.head.lines = line :: a.head.lines.tail
      ∧ StartsAfresh line := by
  induction h with
  | interim _ _ _ ih => exact ih
  | final _ _ _ hhead _ =>
      cases hhead with
      | mk hstatus _ _ => exact ⟨_, rfl, startsAfresh_of_status hstatus⟩

/-- The metadata that the header lines of a chain give. -/
theorem ofHeaders_chain {wantsBody : Bool} {s : Bytes} {a : Answer}
    (h : IsAnswer wantsBody s a) (hown : ∀ line ∈ ownLines a, ¬ StartsAfresh line) (url : Url)
    (prior : List Bytes) :
    Metadata.ofHeaders url (headerLines (prior ++ (a.head.lines ++ a.body.trailers)))
      = Metadata.ofHeaders url (linesThatCount prior a) := by
  obtain ⟨line, hlines, hstart⟩ := status_of_isAnswer h
  have hfold : headerLines (prior ++ (a.head.lines ++ a.body.trailers))
      = addHeaderLine (headerLines prior) line ++ texts (ownLines a) := by
    rw [hlines, headerLines, List.foldl_append, List.cons_append, List.foldl_cons]
    exact foldl_addHeaderLine hown _
  have htext : statusIsText a = (Utf8.decode? line).isSome := by
    rw [statusIsText, hlines]
    rfl
  rw [hfold, linesThatCount, htext]
  cases hdecode : Utf8.decode? line with
  | none =>
      rw [addHeaderLine_broken hdecode]
      rfl
  | some text =>
      have hs : headerText? line = some (trimRight text) := by rw [headerText?_eq, hdecode]; rfl
      obtain ⟨rest, hrest⟩ := headerText?_of_startsAfresh hstart hs
      rw [addHeaderLine_status hstart hs, hrest, List.singleton_append, ofHeaders_status]
      rfl

-- =============================================================== reads

/-- Actions see the metadata of the content that has been opened. -/
theorem withActionIfPresent_opened {α : Type} {s : ContentSource} {c : Content}
    (h : (s.openContent m).1 = .value (.ok (some c))) (act : ContentAction α) :
    s.withActionIfPresent act m = s.withContentIfPresent (act c.metadata) m := by
  obtain ⟨m₁, hopen⟩ : ∃ m₁, s.openContent m = (.value (.ok (some c)), m₁) :=
    ⟨(s.openContent m).2, Prod.ext h rfl⟩
  have hpresent : ∀ f : Content → Run (Except Resource.Error (ReadResult α)),
      s.ifPresent f m = orFail (f c) (fun r => pure (.ok (some r))) m₁ := by
    intro f
    rw [ContentSource.ifPresent, orFail, Action.bind_of_value hopen]
  rw [ContentSource.withActionIfPresent, ContentSource.withContentIfPresent,
    ContentSource.withActionIfPresent, hpresent, hpresent]

/-- What a resource shows of the content that it opens. -/
structure Shows (s : ContentSource) (m : Machine) (shown : Metadata) : Prop where
  /-- The content is opened with them, -/
  opened : ∃ c, (s.openContent m).1 = .value (.ok (some c)) ∧ c.metadata = shown
  /-- an action gets them if there is content, -/
  ifPresent : ∀ {α : Type} (act : ContentAction α),
    s.resource.withActionIfPresent act m = s.resource.withContentIfPresent (act shown) m
  /-- and gets them if there must be. -/
  mustExist : ∀ {α : Type} (act : ContentAction α),
    s.resource.withAction act m = s.resource.withContent (act shown) m

/-- What is opened shows its metadata to reads and to listeners. -/
theorem shows_of_opened {s : ContentSource} {c : Content}
    (h : (s.openContent m).1 = .value (.ok (some c))) : Shows s m c.metadata where
  opened := ⟨c, h, rfl⟩
  ifPresent act := withActionIfPresent_opened h act
  mustExist act := by
    show insist s.name (s.withActionIfPresent act) m
      = insist s.name (s.withContentIfPresent (act c.metadata)) m
    have hpresent := withActionIfPresent_opened h act
    show Action.bind (s.withActionIfPresent act) _ m
      = Action.bind (s.withContentIfPresent (act c.metadata)) _ m
    rw [Action.bind, Action.bind, hpresent]

/-- Metadata of a resource that has been found over HTTP, asked for alone or
seen by an action: they come from the header lines and the trailers of the
last response alone if its status line is UTF-8. If it is not, the lines
before it count too. Where a temporary file does not keep the body, no action
gets to see any. -/
theorem metadata_of_last (r : WebResource) (ho : r.options.measurable = true) {n : Nat}
    (hn : n ≤ r.options.maxRedirects) {prior : List Bytes} {a : Answer}
    (hstatus : 200 ≤ a.head.status.code ∧ a.head.status.code < 300)
    (hown : ∀ line ∈ ownLines a, ¬ StartsAfresh line) :
    (∀ {m m' : Machine}, Chain .head r.name.url n r.name.url m prior a m' →
        (r.readMetadata m).1
          = .value (.ok (some (.ofHeaders r.name.url (linesThatCount prior a)))))
      ∧ (∀ {m m' : Machine}, Chain .get r.name.url n r.name.url m prior a m' →
        Shows r.source m (.ofHeaders r.name.url (linesThatCount prior a))
          ∨ ¬ m.spool.Keeps a.body.content
            ∧ ∃ e, (r.openContent m).1 = .value (.error (.io r.name.location e)))
      ∧ (statusIsText a = true → linesThatCount prior a = texts (ownLines a)) := by
  have habsent : isAbsentStatus a.head.status.code = false := by
    rw [isAbsentStatus, Bool.or_eq_false_iff, decide_eq_false_iff_not, decide_eq_false_iff_not]
    omega
  have hsuccess : isSuccessStatus a.head.status.code = true := by
    rw [isSuccessStatus, Bool.and_eq_true, decide_eq_true_eq, decide_eq_true_eq]
    exact hstatus
  have hclassify : ∀ {α : Type} (t : Transfer) (value : α), t.status = a.head.status.code →
      r.classify t value = .ok (some value) := by
    intro α t value ht
    rw [WebResource.classify, ht, habsent, hsuccess]
    rfl
  -- Which lines count is the same for both methods: it is read off the answers of the chain.
  have hlines : ∀ {method : Method} {m m' : Machine},
      Chain method r.name.url n r.name.url m prior a m' →
      Metadata.ofHeaders r.name.url (headerLines (prior ++ (a.head.lines ++ a.body.trailers)))
        = Metadata.ofHeaders r.name.url (linesThatCount prior a) := by
    rintro method m m' ⟨_, ha, -⟩
    obtain ⟨_, s, -, -, hanswer⟩ := ha.answered
    exact ofHeaders_chain hanswer hown _ _
  refine ⟨?_, ?_, ?_⟩
  · intro m m' hchain
    rw [WebResource.readMetadata_of_download (download_chain ho hchain hn)]
    dsimp only [Except.bind, Transfer.whole]
    rw [hclassify _ _ rfl, WebResource.metadataOf, hlines hchain]
  · intro m m' hchain
    refine (WebResource.openContent_kept_or_lost (download_chain ho hchain hn) rfl).imp_left
      fun hopen => ?_
    rw [hclassify _ _ rfl] at hopen
    have hshows := shows_of_opened (s := r.source) hopen
    rwa [WebResource.metadataOf, hlines hchain] at hshows
  · intro htext
    rw [linesThatCount, if_pos htext, List.nil_append]

/-- The entity tags of the responses on the way are not those of what they
lead to. -/
theorem metadata_of_last_redirected :
    Shows (redirected 1).source (served []) (.ofLocation (urlOf "/a")) := by
  let a : Answer := ⟨[], holding, ⟨bytesOf "new", []⟩⟩
  obtain ⟨-, hshows, htexts⟩ := @metadata_of_last (redirected 1) (by decide) 1 (Nat.le_refl 1)
    (hinting.lines ++ moving.lines) a (by decide) (by decide)
  have hown : texts (ownLines a) = ["Transfer-Encoding: chunked"] := by cbv
  have hfound := (hshows redirected_chain).resolve_right fun h => h.1 ⟨rfl, rfl, rfl⟩
  rw [htexts (by cbv), hown] at hfound
  exact hfound

-- ======================================================= broken status

/-- A response whose reason phrase is not UTF-8. -/
def garbled : Head :=
  ⟨⟨1, 200⟩, [bytesOf "HTTP/1.1 200 " ++ [0xff, 0x0d], bytesOf "Content-Length: 0\r"]⟩

/-- The head with a status line that is not UTF-8 is a head that can be
read. -/
theorem garbled_isHead : IsHead (headBytes garbled) garbled := by
  have hstatus : IsStatusLine (bytesOf "HTTP/1.1 200 " ++ [0xff, 0x0d]) ⟨1, 200⟩ :=
    @IsStatusLine.mk 0x31 0x32 0x30 0x30 1 2 0 0 [0x20, 0xff, 0x0d] rfl rfl rfl rfl (by decide)
      (by decide)
  refine .mk hstatus ⟨⟨⟨by decide, by decide⟩, by decide, by decide⟩, ?_⟩
    ⟨by decide, by decide⟩
  rintro _ ⟨⟩

/-- A machine whose server hints before this response, after requests. -/
def hinted (requests : List Request) : Machine :=
  { Machine.initial .empty .default with
    server := some (8080, ⟨[("HEAD /c", [.raw (headBytes hinting ++ (headBytes garbled ++ []))])],
      requests⟩) }

/-- It is the final answer behind one that hints at an `ETag`. -/
theorem garbled_chain : Chain .head (urlOf "/c") 0 (urlOf "/c") (hinted []) hinting.lines
    ⟨hinting.lines, garbled, ⟨[], []⟩⟩ (hinted [⟨"HEAD", "/c", none, none, []⟩]) := by
  have hasks : Asks .head (urlOf "/c") (urlOf "/c") (hinted [])
      ⟨hinting.lines, garbled, ⟨[], []⟩⟩ (hinted [⟨"HEAD", "/c", none, none, []⟩]) := by
    refine ⟨by decide, none, headBytes hinting ++ (headBytes garbled ++ []), rfl, rfl, ?_⟩
    refine .interim ?_ hinting_isHead (.final ?_ (by decide) ?_ garbled_isHead .noBody)
    · rfl
    · rfl
    · rfl
  exact .mk .none hasks rfl

/-- An entity tag of an interim response becomes that of the resource, which
has none. -/
theorem etag_of_earlier :
    let found : Metadata := { Metadata.ofLocation (urlOf "/c") with contentLength := some 0 }
    let a : Answer := ⟨hinting.lines, garbled, ⟨[], []⟩⟩
    Chain .head (urlOf "/c") 0 (urlOf "/c") (hinted []) hinting.lines a
        (hinted [⟨"HEAD", "/c", none, none, []⟩])
      ∧ (∀ line ∈ hinting.lines.tail ++ ownLines a, ¬ StartsAfresh line)
      ∧ Metadata.ofHeaders (urlOf "/c") (texts (ownLines a)) = found
      ∧ ((⟨⟨urlOf "/c"⟩, .default⟩ : WebResource).readMetadata (hinted [])).1
        = .value (.ok (some { found with etag := some "early" })) := by
  refine ⟨garbled_chain, by decide, ?_, ?_⟩
  · have hown : texts (ownLines ⟨hinting.lines, garbled, ⟨[], []⟩⟩) = ["Content-Length: 0"] := by
      cbv
    rw [hown]
    rfl
  · have hlines : headerLines (hinting.lines ++ (garbled.lines ++ []))
        = ["HTTP/1.1 103 Early Hints", "ETag: \"early\"", "Content-Length: 0"] := by
      decide +kernel
    have hdownload := download_chain (o := .default) (by decide) garbled_chain (Nat.zero_le _)
    rw [WebResource.readMetadata_of_download (r := ⟨⟨urlOf "/c"⟩, .default⟩) hdownload]
    dsimp only [Except.bind, Transfer.whole]
    rw [WebResource.classify, WebResource.metadataOf]
    dsimp only
    rw [hlines]
    rfl

end TracedTransfer.Resource
