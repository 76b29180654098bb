/-
What a read over HTTP comes to depends on the last response alone.

A resource is asked for along a chain of redirects (`Http.Chain`). When
the chain is short enough, the status of its last response decides
whether nothing is there, whether something is, or whether the read
failed; and what is there is the body of that response, whatever bodies
the responses before it had. When there are more redirects than the limit
allows, as in every loop, the read fails at the limit.

`LastDecides` says this for both ways of asking, `last_decides` proves it.
-/
import TracedTransfer.Proofs.Http.Chain
import TracedTransfer.Proofs.Resource.WebOpening

namespace TracedTransfer.Resource

open Text Http

variable {α : Type} {r : WebResource} {m m' : Machine}

/-- What a status decides. -/
structure Decided (location : String) (status : Nat) (good : α → Prop)
    (result : Exit (Except Resource.Error (Option α))) : Prop where
  /-- Not found and gone are an absence, -/
  absent : result = .value (.ok none) ↔ status = 404 ∨ status = 410
  /-- success is content, -/
  present : (∃ c, result = .value (.ok (some c))) ↔ 200 ≤ status ∧ status < 300
  /-- of which something is known, -/
  content : ∀ c, result = .value (.ok (some c)) → good c
  /-- and any other status is an error that names it. -/
  failed : result = .value (.error (.http location status))
    ↔ ¬ (status = 404 ∨ status = 410) ∧ ¬ (200 ≤ status ∧ status < 300)

/-- How a read that asks for a resource ends: by the last answer of a
chain that is short enough, unless its body is lost before it can be read;
at the limit; at a user who cannot be sent; or before the first request,
if no clock can measure the time limits. -/
structure LastDecides (r : WebResource) (method : Method) (m : Machine)
    (lost : Answer → Option Io.Error) (good : Answer → α → Prop)
    (result : Exit (Except Resource.Error (Option α))) : Prop where
  /-- If the redirections end within the limit, the final answer decides;
  unless what it brings is lost before it is handed over. -/
  last : r.options.measurable = true →
    ∀ {n : Nat} {prior : List Bytes} {a : Answer} {m' : Machine},
    Chain method r.name.url n r.name.url m prior a m' → n ≤ r.options.maxRedirects →
      match lost a with
      | none => Decided r.name.location a.head.status.code (good a) result
      | some e => result = .value (.error (.io r.name.location e))
  /-- If they do not, that is the failure. -/
  endless : r.options.measurable = true →
    Longer method r.name.url r.options.maxRedirects r.name.url m →
    ∃ e, result = .value (.error (.transport r.name.location e)) ∧ e.code = 47
  /-- If a URL on the way has a user who cannot be sent, nothing is asked of
  it. -/
  barred : r.options.measurable = true →
    Barred method r.name.url r.options.maxRedirects r.name.url m →
    ∃ e, result = .value (.error (.transport r.name.location e)) ∧ e.code = 3
  /-- Times that the client cannot take are refused before anything is
  asked. -/
  untimed : r.options.measurable = false →
    ∃ e, result = .value (.error (.transport r.name.location e)) ∧ e.code = 43
  /-- If servers answer well, one of the cases is met. -/
  served : WellServed method r.name.url r.name.url m →
    (∃ n prior a m', n ≤ r.options.maxRedirects
      ∧ Chain method r.name.url n r.name.url m prior a m')
    ∨ Longer method r.name.url r.options.maxRedirects r.name.url m
    ∨ Barred method r.name.url r.options.maxRedirects r.name.url m

/-- The status of the last answer decides between content, absence and an
error. -/
theorem WebResource.classify_decided (r : WebResource) (t : Transfer) {good : α → Prop}
    {value : α} (h : good value) :
    Decided r.name.location t.status good (.value (r.classify t value)) := by
  have habsent : isAbsentStatus t.status = true ↔ t.status = 404 ∨ t.status = 410 := by
    rw [isAbsentStatus, Bool.or_eq_true, decide_eq_true_eq, decide_eq_true_eq]
  have hsuccess : isSuccessStatus t.status = true ↔ 200 ≤ t.status ∧ t.status < 300 := by
    rw [isSuccessStatus, Bool.and_eq_true, decide_eq_true_eq, decide_eq_true_eq]
  rw [WebResource.classify]
  by_cases ha : isAbsentStatus t.status = true
  · have hcode := habsent.1 ha
    have hout : ¬ (200 ≤ t.status ∧ t.status < 300) := by omega
    rw [if_pos ha]
    refine ⟨iff_of_true rfl hcode, iff_of_false ?_ hout, ?_, iff_of_false ?_ fun h => h.1 hcode⟩
    · rintro ⟨c, ⟨⟩⟩
    · rintro c ⟨⟩
    · rintro ⟨⟩
  · have hcode := fun h => ha (habsent.2 h)
    rw [if_neg ha]
    by_cases hs : isSuccessStatus t.status = true
    · have hin := hsuccess.1 hs
      rw [if_pos hs]
      refine ⟨iff_of_false ?_ hcode, iff_of_true ⟨value, rfl⟩ hin, ?_,
        iff_of_false ?_ fun h => h.2 hin⟩
      · rintro ⟨⟩
      · rintro c ⟨⟩
        exact h
      · rintro ⟨⟩
    · have hout := fun h => hs (hsuccess.2 h)
      rw [if_neg hs]
      refine ⟨iff_of_false ?_ hcode, iff_of_false ?_ hout, ?_, iff_of_true rfl ⟨hcode, hout⟩⟩
      · rintro ⟨⟩
      · rintro ⟨c, ⟨⟩⟩
      · rintro c ⟨⟩

/-- Content held in memory is read from its first byte to its last. -/
theorem readToEnd_ofBytes (fs : FileSystem) (s : Bytes) :
    (Io.readToEnd fs (Io.Reader.ofBytes s)).1 = (s, none) := by
  rw [Io.Reader.ofBytes, Io.readToEnd_script]
  cases s with
  | nil => rfl
  | cons b s =>
      show Io.Event.yield [.data (b :: s)] = _
      rw [Io.Event.yield, if_neg (List.cons_ne_nil b s), Io.Event.yield, List.append_nil]

/-- Why the body of an answer cannot be read, if it cannot. -/
def lostBody (p : Storage.Spool) (a : Answer) : Option Io.Error :=
  WebResource.lost p a.head.status.code a.body.content

/-- Of a read it is enough to know what it makes of the last answer, and that
it fails when its download does: in all other cases the download fails. -/
theorem LastDecides.of_download {method : Method} {lost : Answer → Option Io.Error}
    {good : Answer → α → Prop} {result : Exit (Except Resource.Error (Option α))}
    (hlast : r.options.measurable = true →
      ∀ {n : Nat} {prior : List Bytes} {a : Answer} {m' : Machine},
      Chain method r.name.url n r.name.url m prior a m' → n ≤ r.options.maxRedirects →
        match lost a with
        | none => Decided r.name.location a.head.status.code (good a) result
        | some e => result = .value (.error (.io r.name.location e)))
    (hfailed : ∀ {e : Failure} {m' : Machine},
      download r.options method r.name.url m = (.value (.error e), m') →
        result = .value (.error (r.failure e))) :
    LastDecides r method m lost good result where
  last := hlast
  endless ho hlonger := by
    obtain ⟨m', hdownload⟩ := download_longer ho hlonger
    exact ⟨_, hfailed hdownload, rfl⟩
  barred ho hbarred := by
    obtain ⟨m', hdownload⟩ := download_barred ho hbarred
    exact ⟨_, hfailed hdownload, rfl⟩
  untimed ho := by
    have hdownload : download r.options method r.name.url m
        = (.value (.error .limitTooLong), m) := by
      rw [download, ho]
      rfl
    exact ⟨_, hfailed hdownload, rfl⟩
  served h := h.chain_longer_or_barred r.options.maxRedirects

/-- **The last response decides** what opening a resource over HTTP comes
to, and what asking for its metadata comes to. For the content, a temporary
file must be made first. -/
theorem last_decides (r : WebResource) (m : Machine) :
    (∀ e, m.spool.creation = some e →
        (r.openContent m).1 = .value (.error (.io r.name.location e)))
      ∧ (m.spool.creation = none →
        LastDecides r .get m (lostBody m.spool)
          (fun a c => ∀ fs, (Io.readToEnd fs c.reader).1 = (a.body.content, none))
          (r.openContent m).1)
      ∧ LastDecides r .head m (fun _ => none) (fun _ _ => True) (r.readMetadata m).1 := by
  refine ⟨fun e he => WebResource.openContent_of_creation he,
    fun h => .of_download (fun ho {n prior a m'} hchain hn => ?_) fun hdownload => ?_,
    .of_download (fun ho {n prior a m'} hchain hn => ?_) fun hdownload => ?_⟩
  · rw [WebResource.openContent_of_whole h (download_chain ho hchain hn) rfl]
    unfold lostBody
    dsimp only
    -- What the temporary file does not keep is lost; what it keeps is read from its first byte.
    cases WebResource.lost m.spool a.head.status.code a.body.content with
    | some e => rfl
    | none =>
        refine r.classify_decided ⟨_, _, _, _⟩ ?_
        exact fun fs => readToEnd_ofBytes fs _
  · rw [WebResource.openContent_of_download h hdownload]
  · rw [WebResource.readMetadata_of_download (download_chain ho hchain hn)]
    exact r.classify_decided ⟨_, _, _, _⟩ (by trivial)
  · rw [WebResource.readMetadata_of_download hdownload]
    rfl

-- ============================================================ a server

/-- A URL on the machine itself. -/
def urlOf (path : String) : Url :=
  ⟨"http".toList, some ⟨[], [], some loopback, some 8080⟩, path.toList, none, none⟩

/-- An interim response. -/
def hinting : Head :=
  ⟨⟨1, 103⟩, [bytesOf "HTTP/1.1 103 Early Hints\r", bytesOf "ETag: \"early\"\r"]⟩

/-- A redirect with a body. -/
def moving : Head :=
  ⟨⟨1, 302⟩, [bytesOf "HTTP/1.1 302 Found\r", bytesOf "ETag: \"moved\"\r",
    bytesOf "Location: /b\r", bytesOf "Content-Length: 3\r"]⟩

/-- A response in chunks. -/
def holding : Head :=
  ⟨⟨1, 200⟩, [bytesOf "HTTP/1.1 200 OK\r", bytesOf "Transfer-Encoding: chunked\r"]⟩

/-- A head with its closing line. -/
def headBytes (h : Head) : Bytes := written h.lines ++ written [bytesOf "\r"]

/-- What a server says at the first place: it hints, and leads on. -/
def atFirst : Bytes := headBytes hinting ++ (headBytes moving ++ (bytesOf "old" ++ []))

/-- What it says at the second place. -/
def atSecond : Bytes :=
  headBytes holding ++ (written [bytesOf "3\r"] ++ (bytesOf "new" ++ (written [bytesOf "\r"]
    ++ (written [bytesOf "0\r"] ++ (written [] ++ written [bytesOf "\r"] ++ [])))))

/-- A machine with this server after requests. -/
def served (requests : List Request) : Machine :=
  { Machine.initial .empty .default with
    server := some (8080, ⟨[("GET /a", [.raw atFirst]), ("GET /b", [.raw atSecond])],
      requests⟩) }

/-- A request for content. -/
def getting (path : String) : Request := ⟨"GET", path, none, none, []⟩

/-- An interim head, -/
theorem hinting_isHead : IsHead (headBytes hinting) hinting := by
  have hstatus : IsStatusLine (bytesOf "HTTP/1.1 103 Early Hints\r") ⟨1, 103⟩ :=
    @IsStatusLine.mk 0x31 0x31 0x30 0x33 1 1 0 3 (bytesOf " Early Hints\r") rfl rfl rfl rfl
      (by decide) (by decide)
  refine .mk hstatus ⟨⟨⟨by decide, by decide⟩, by decide, by decide⟩, ?_⟩
    ⟨by decide, by decide⟩
  rintro _ ⟨⟩

/-- a head that redirects, -/
theorem moving_isHead : IsHead (headBytes moving) moving := by
  have hstatus : IsStatusLine (bytesOf "HTTP/1.1 302 Found\r") ⟨1, 302⟩ :=
    @IsStatusLine.mk 0x31 0x33 0x30 0x32 1 3 0 2 (bytesOf " Found\r") rfl rfl rfl rfl
      (by decide) (by decide)
  refine .mk hstatus ⟨⟨⟨by decide, by decide⟩, by decide, by decide⟩, ?_⟩
    ⟨by decide, by decide⟩
  intro line hl
  rcases List.mem_cons.1 hl with rfl | hl
  · exact .inl ⟨⟨by decide, by decide⟩, by decide, by decide⟩
  · rw [List.mem_singleton.1 hl]
    exact .inl ⟨⟨by decide, by decide⟩, by decide, by decide⟩

/-- and one with content, as a server writes them. -/
theorem holding_isHead : IsHead (headBytes holding) holding := by
  have hstatus : IsStatusLine (bytesOf "HTTP/1.1 200 OK\r") ⟨1, 200⟩ :=
    @IsStatusLine.mk 0x31 0x32 0x30 0x30 1 2 0 0 (bytesOf " OK\r") rfl rfl rfl rfl (by decide)
      (by decide)
  refine .mk hstatus ⟨⟨⟨by decide, by decide⟩, by decide, by decide⟩, ?_⟩
    ⟨by decide, by decide⟩
  rintro _ ⟨⟩

/-- The first request is answered by a redirection behind an interim
head, -/
theorem asks_first : Asks .get (urlOf "/a") (urlOf "/a") (served [])
    ⟨hinting.lines, moving, ⟨bytesOf "old", []⟩⟩ (served [getting "/a"]) where
  reached := by decide
  answered := by
    refine ⟨none, atFirst, rfl, rfl, ?_⟩
    refine .interim ?_ hinting_isHead (.final ?_ (by decide) ?_ moving_isHead .length)
    · rfl
    · rfl
    · rfl

/-- the second by the content, -/
theorem atSecond_isAnswer : IsAnswer true atSecond ⟨[], holding, ⟨bytesOf "new", []⟩⟩ := by
  have hapart : ∀ b ∈ (bytesOf "\r").head?, digit? 16 b = none := by
    rintro _ ⟨⟩
    rfl
  have hthree : IsSizeLine (bytesOf "3\r") (bytesOf "new").length :=
    @IsSizeLine.mk (bytesOf "3") (bytesOf "\r") (by decide) (by decide)
      (List.all_eq_true.1 (by rfl)) (by decide) hapart
  have hzero : IsSizeLine (bytesOf "0\r") 0 :=
    @IsSizeLine.mk (bytesOf "0") (bytesOf "\r") (by decide) (by decide)
      (List.all_eq_true.1 (by rfl)) (by decide) hapart
  refine .final ?_ (by decide) ?_ holding_isHead
    (.chunked (.chunk ?_ hthree ?_ (.last hzero ?_ ?_)))
  · rfl
  · rfl
  · decide
  · exact fun b hb => List.mem_singleton.1 hb
  · rintro _ ⟨⟩
  · exact ⟨by decide, by decide⟩

/-- which the same server gives, -/
theorem asks_second : Asks .get (urlOf "/a") (urlOf "/b") (served [getting "/a"])
    ⟨[], holding, ⟨bytesOf "new", []⟩⟩ (served [getting "/a", getting "/b"]) :=
  ⟨by decide, none, atSecond, rfl, rfl, atSecond_isAnswer⟩

/-- so they make a chain of two requests. -/
theorem redirected_chain : Chain .get (urlOf "/a") 1 (urlOf "/a") (served [])
    (hinting.lines ++ moving.lines) ⟨[], holding, ⟨bytesOf "new", []⟩⟩
    (served [getting "/a", getting "/b"]) := by
  have htarget : redirectTarget (urlOf "/a") (bytesOf "/b") = .ok (urlOf "/b") := rfl
  have hredirects := Redirects.more asks_first rfl htarget .none
  exact .mk hredirects asks_second rfl

/-- A resource that the server leads on from, under a limit. -/
def redirected (limit : Nat) : WebResource :=
  ⟨⟨urlOf "/a"⟩, { Options.default with maxRedirects := limit }⟩

/-- One redirect is followed if that is allowed, and is one too many if it
is not. -/
theorem last_decides_redirected :
    (∃ c, ((redirected 1).openContent (served [])).1 = .value (.ok (some c))
        ∧ ∀ fs, (Io.readToEnd fs c.reader).1 = (bytesOf "new", none))
      ∧ ∃ e, ((redirected 0).openContent (served [])).1
        = .value (.error (.transport (redirected 0).name.location e)) ∧ e.code = 47 := by
  constructor
  · have h : Decided _ _ _ _ := ((last_decides (redirected 1) (served [])).2.1 rfl).last
      (by decide) redirected_chain (Nat.le_refl 1)
    obtain ⟨c, hc⟩ := h.present.2 (by decide)
    exact ⟨c, hc, h.content c hc⟩
  · exact ((last_decides (redirected 0) (served [])).2.1 rfl).endless (by decide)
      (.mk .none asks_first rfl)

-- ===================================================== what else decides

/-- A switch to another protocol, for which nobody has asked. -/
def switching : Head := ⟨⟨1, 101⟩, [bytesOf "HTTP/1.1 101 Switching Protocols\r"]⟩

/-- A head that switches protocols is a final one. -/
theorem switching_isHead : IsHead (headBytes switching) switching := by
  have hstatus : IsStatusLine (bytesOf "HTTP/1.1 101 Switching Protocols\r") ⟨1, 101⟩ :=
    @IsStatusLine.mk 0x31 0x31 0x30 0x31 1 1 0 1 (bytesOf " Switching Protocols\r") rfl rfl rfl
      rfl (by decide) (by decide)
  exact .mk hstatus trivial ⟨by decide, by decide⟩

/-- A machine with temporary files in a spool, and a server that switches
protocols before its answer at the second place, but not at the first. -/
def wavering (p : Storage.Spool) (requests : List Request) : Machine :=
  { Machine.initial .empty .default with
    spool := p
    server := some (8080, ⟨[("GET /a", [.raw atSecond]),
      ("GET /b", [.raw (headBytes switching ++ atSecond)])], requests⟩) }

/-- At the first place it answers with content, -/
theorem steady_chain (p : Storage.Spool) : Chain .get (urlOf "/a") 0 (urlOf "/a") (wavering p [])
    [] ⟨[], holding, ⟨bytesOf "new", []⟩⟩ (wavering p [getting "/a"]) := by
  have hasks : Asks .get (urlOf "/a") (urlOf "/a") (wavering p [])
      ⟨[], holding, ⟨bytesOf "new", []⟩⟩ (wavering p [getting "/a"]) :=
    ⟨rfl, none, atSecond, rfl, rfl, atSecond_isAnswer⟩
  exact .mk .none hasks rfl

/-- and at the second what stands behind the switch is content, though it
looks like an answer. -/
theorem wavering_chain (p : Storage.Spool) : Chain .get (urlOf "/b") 0 (urlOf "/b")
    (wavering p []) [] ⟨[], switching, ⟨atSecond, []⟩⟩ (wavering p [getting "/b"]) := by
  have hasks : Asks .get (urlOf "/b") (urlOf "/b") (wavering p [])
      ⟨[], switching, ⟨atSecond, []⟩⟩ (wavering p [getting "/b"]) := by
    refine ⟨rfl, none, headBytes switching ++ atSecond, rfl, rfl, ?_⟩
    refine .final ?_ ?_ ?_ switching_isHead .untilClose
    · rfl
    · exact fun _ => by decide
    · rfl
  exact .mk .none hasks rfl

/-- A URL on the machine itself, with the byte zero for a user. -/
def zeroUrl : Url :=
  ⟨"http".toList, some ⟨"%00".toList, [], some loopback, some 8080⟩, "/a".toList, none, none⟩

/-- Why a disk takes nothing more. -/
def diskFull : Storage.Lasting := ⟨.system .storageFull, by decide⟩

/-- Spools that let no file be made, no more than two bytes be written, and
no file be rewound. -/
def fullSpools : List Storage.Spool :=
  [⟨some diskFull, none, none⟩, ⟨none, some (2, diskFull), none⟩, ⟨none, none, some diskFull⟩]

/-- The same answer of a server, with three bytes of content and the status
of success, and reads that it does not decide. It is never asked for if the
user holds the byte zero, or if no clock measures a time limit of
`Options.clockBound` seconds. It is lost if no temporary file can be made, if
one does not hold it, or if one cannot be rewound. And it is not the last
response if it comes after a switch to another protocol: that one is, and
its status means failure. -/
theorem undecided_by_last :
    (∀ authorization, ∃ m', send ⟨"GET", "/a", authorization, none, []⟩ (wavering .sound [])
        = (.value atSecond, m'))
      ∧ IsAnswer true atSecond ⟨[], holding, ⟨bytesOf "new", []⟩⟩
      ∧ ((⟨⟨zeroUrl⟩, .default⟩ : WebResource).openContent (wavering .sound [])).1
        = .value (.error (.transport "http://%00@127.0.0.1:8080/a" .badCredentials))
      ∧ ((⟨⟨urlOf "/a"⟩, { Options.default with timeoutSecs := Options.clockBound }⟩ :
          WebResource).openContent (wavering .sound [])).1
        = .value (.error (.transport "http://127.0.0.1:8080/a" .limitTooLong))
      ∧ (∀ p ∈ fullSpools, ((⟨⟨urlOf "/a"⟩, .default⟩ : WebResource).openContent
          (wavering p [])).1 = .value (.error (.io "http://127.0.0.1:8080/a" diskFull)))
      ∧ ((⟨⟨urlOf "/b"⟩, .default⟩ : WebResource).openContent (wavering .sound [])).1
        = .value (.error (.http "http://127.0.0.1:8080/b" 101)) := by
  have hzero : Unsendable zeroUrl := ⟨"%00".toList, [], rfl, by decide +kernel⟩
  have hzeroLocation : (Name.mk zeroUrl).location = "http://%00@127.0.0.1:8080/a" := by
    decide +kernel
  have hlocation : (Name.mk (urlOf "/a")).location = "http://127.0.0.1:8080/a" := by
    decide +kernel
  have hlocation' : (Name.mk (urlOf "/b")).location = "http://127.0.0.1:8080/b" := by
    decide +kernel
  refine ⟨fun _ => ⟨_, rfl⟩, atSecond_isAnswer, ?_, ?_, ?_, ?_⟩
  · obtain ⟨m', hdownload⟩ := @download_barred .get zeroUrl (wavering .sound []) .default
      (by decide) (.mk (Nat.zero_le _) .none hzero)
    rw [WebResource.openContent_of_download (r := ⟨⟨zeroUrl⟩, .default⟩) rfl hdownload,
      ← hzeroLocation]
    rfl
  · have hdownload : download { Options.default with timeoutSecs := Options.clockBound } .get
        (urlOf "/a") (wavering .sound [])
        = (.value (.error .limitTooLong), wavering .sound []) := by
      rw [download, if_neg (by decide)]
      rfl
    rw [WebResource.openContent_of_download (r := ⟨⟨urlOf "/a"⟩, _⟩) rfl hdownload, ← hlocation]
    rfl
  · have hdownload := fun p =>
      download_chain (o := .default) (by decide) (steady_chain p) (Nat.zero_le _)
    intro p hp
    simp only [fullSpools, List.mem_cons, List.not_mem_nil, or_false] at hp
    rw [← hlocation]
    rcases hp with rfl | rfl | rfl
    · exact WebResource.openContent_of_creation rfl
    · rw [WebResource.openContent_of_whole (r := ⟨⟨urlOf "/a"⟩, .default⟩) rfl (hdownload _) rfl]
      rfl
    · rw [WebResource.openContent_of_whole (r := ⟨⟨urlOf "/a"⟩, .default⟩) rfl (hdownload _) rfl]
      rfl
  · have hdownload := download_chain (o := .default) (by decide) (wavering_chain .sound)
      (Nat.zero_le _)
    rw [WebResource.openContent_of_whole (r := ⟨⟨urlOf "/b"⟩, .default⟩) rfl hdownload rfl,
      ← hlocation']
    rfl

end TracedTransfer.Resource
