/-
Which transport takes a name.

The transport of HTTP looks at the scheme, and so does whoever chooses
between the transports. The transport of files looks at host and path
instead: it takes what names a path of this machine (`NamesPath`), under
any scheme. For a file that comes to having no host; but a name of HTTP
on this machine is taken by both transports (`taken_by_both`).

What a transport takes is read off the four forms of a URL
(`namesPath_file`, `namesPath_web`), `transports_of_parse` is the whole.
-/
import TracedTransfer.Proofs.Resource.Resolve
import TracedTransfer.Proofs.Url.Settled
import TracedTransfer.Resource.Connector

namespace TracedTransfer

open Text

namespace Url

variable {u : Url}

/-- The host that means this machine. -/
def localHost : Host := .named "localhost".toList

/-- A path of this machine: a slash in front, and no other host. -/
def NamesPath (u : Url) : Prop :=
  u.path.head? = some '/' ∧ (u.host? = none ∨ u.host? = some localHost)

/-- A path that starts with a slash is one from which a slash can be taken. -/
theorem stripStart?_slash (p : List Char) :
    (stripStart? ['/'] p).isSome = true ↔ p.head? = some '/' := by
  cases p with
  | nil => exact ⟨nofun, nofun⟩
  | cons c p =>
      by_cases hc : '/' = c
      · subst hc
        exact ⟨fun _ => rfl, fun _ => rfl⟩
      · refine ⟨fun h => ?_, fun h => absurd (Option.some.inj h).symm hc⟩
        rw [stripStart?, if_neg hc] at h
        cases h

/-- The host that is this machine is none, or `localhost`. -/
theorem all_isLocalHost (host : Option Host) :
    host.all isLocalHost = true ↔ host = none ∨ host = some localHost := by
  cases host with
  | none => exact ⟨fun _ => .inl rfl, fun _ => rfl⟩
  | some h =>
      exact ⟨fun hlocal => .inr (congrArg some (of_decide_eq_true hlocal)),
        fun hlocal => decide_eq_true (Option.some.inj (hlocal.resolve_left nofun))⟩

/-- A URL has a file path if it names a path of this machine. -/
theorem filePath?_isSome (u : Url) : u.filePath?.isSome = true ↔ NamesPath u := by
  unfold filePath? segments? NamesPath
  rw [← stripStart?_slash, ← all_isLocalHost]
  cases stripStart? ['/'] u.path with
  | none => simp
  | some rest =>
      simp only [Option.map_some, Option.isSome_some, true_and]
      split <;> simp_all

/-- A settled path has a slash in front. -/
theorem IsSettled.head {kind : SchemeKind} {p : List Char} (h : IsSettled kind p) :
    p.head? = some '/' := by
  rw [h.isPath.eq_cons]
  rfl

/-- A file names a path of this machine if it has no host. -/
theorem namesPath_file (h : Settled u) (hfile : u.kind = .file) :
    NamesPath u ↔ u.host? = none := by
  cases h.form with
  | served a hkind => exact absurd hfile hkind
  | file host _ ha hserver hpath =>
      have hhost : u.host? = host := by
        unfold host?
        rw [ha]
        rfl
      refine ⟨fun hnames => hnames.2.resolve_right fun hlocal => ?_, fun hnone =>
        ⟨hpath.head, .inl hnone⟩⟩
      -- this machine is no host of a file
      rw [hhost] at hlocal
      have hnot := (hserver _ hlocal).2
      rw [isLocalHost, localHost, decide_eq_false_iff_not] at hnot
      exact hnot rfl
  | rooted hkind =>
      rw [hfile] at hkind
      cases hkind
  | plain hkind =>
      rw [hfile] at hkind
      cases hkind

/-- A URL of a scheme with a host names a path of this machine if that is its host. -/
theorem namesPath_special (h : Settled u) (hspecial : u.kind = .special) :
    NamesPath u ↔ u.host? = some localHost := by
  cases h.form with
  | served a _ ha hserver hpath =>
      have hhost : u.host? = a.host := by
        unfold host?
        rw [ha]
        rfl
      have hsettled : IsSettled u.kind u.path := hpath.resolve_right fun hempty => by
        rw [hspecial] at hempty
        cases hempty.1
      refine ⟨fun hnames => hnames.2.resolve_left fun hnone => ?_, fun hlocal =>
        ⟨hsettled.head, .inr hlocal⟩⟩
      -- a scheme with a host does not go without one
      rw [hhost] at hnone
      have hother : u.kind = .other := hserver.empty hnone
      rw [hspecial] at hother
      cases hother
  | file host hkind =>
      rw [hspecial] at hkind
      cases hkind
  | rooted hkind =>
      rw [hspecial] at hkind
      cases hkind
  | plain hkind =>
      rw [hspecial] at hkind
      cases hkind

end Url

namespace Resource

variable {n : Name} {o : Http.Options}

/-- Whether the scheme of a name is one of the two of HTTP. -/
def Name.IsWeb (n : Name) : Prop := n.url.scheme = "http".toList ∨ n.url.scheme = "https".toList

-- ========================================================== transports

/-- A name is one over HTTP if its scheme says so. -/
theorem Name.isWeb_iff (n : Name) :
    (n.url.scheme = "http".toList || n.url.scheme = "https".toList) = true ↔ n.IsWeb := by
  rw [Bool.or_eq_true, decide_eq_true_eq, decide_eq_true_eq]
  exact Iff.rfl

/-- The transport of HTTP goes by the scheme. -/
theorem WebResource.ofName_cases (n : Name) (o : Http.Options) :
    n.IsWeb ∧ WebResource.ofName n o = .ok ⟨n, o⟩
      ∨ ¬n.IsWeb ∧ WebResource.ofName n o = .error (.schemeOf n) := by
  unfold WebResource.ofName
  by_cases h : n.IsWeb
  · exact .inl ⟨h, if_pos (n.isWeb_iff.2 h)⟩
  · exact .inr ⟨h, if_neg fun hweb => h (n.isWeb_iff.1 hweb)⟩

/-- The transport of files goes by host and path. -/
theorem FileResource.ofName_cases (n : Name) :
    Url.NamesPath n.url ∧ (∃ p, n.url.filePath? = some p ∧ FileResource.ofName n = .ok ⟨n, p⟩)
      ∨ ¬Url.NamesPath n.url ∧ FileResource.ofName n = .error (.schemeOf n) := by
  unfold FileResource.ofName
  rw [← Url.filePath?_isSome]
  cases n.url.filePath? with
  | none => exact .inr ⟨nofun, rfl⟩
  | some p => exact .inl ⟨rfl, p, rfl, rfl⟩

/-- A name over HTTP is no file, -/
theorem Name.IsWeb.not_file (h : n.IsWeb) : n.url.scheme ≠ "file".toList := by
  intro hfile
  unfold Name.IsWeb at h
  rw [hfile] at h
  revert h
  decide

/-- and its URL is of the kind that has a host. -/
theorem Name.IsWeb.kind (h : n.IsWeb) : n.url.kind = .special := by
  rcases h with h | h
  · rw [Url.kind, h]
    decide
  · rw [Url.kind, h]
    decide

/-- The choice goes by the scheme, and leaves it to the transport of files to refuse a file. -/
theorem connect_cases (n : Name) (o : Http.Options) :
    n.url.scheme = "file".toList ∧ connect o n = (FileResource.ofName n).map .file
      ∨ n.IsWeb ∧ connect o n = .ok (.web ⟨n, o⟩)
      ∨ n.url.scheme ≠ "file".toList ∧ ¬n.IsWeb ∧ connect o n = .error (.schemeOf n) := by
  unfold connect
  by_cases hfile : n.url.scheme = "file".toList
  · exact .inl ⟨hfile, if_pos hfile⟩
  · rw [if_neg hfile]
    rcases WebResource.ofName_cases n o with ⟨hweb, hok⟩ | ⟨hnot, -⟩
    · rw [if_pos (n.isWeb_iff.2 hweb), hok]
      exact .inr (.inl ⟨hweb, rfl⟩)
    · exact .inr (.inr ⟨hfile, hnot, if_neg fun hweb => hnot (n.isWeb_iff.1 hweb)⟩)

-- ================================================== the main statement

/-- Which transports take a name, and which of them is chosen. -/
structure Taken (n : Name) (o : Http.Options) : Prop where
  /-- The transport of HTTP takes the names of HTTP, -/
  web : (∃ r, WebResource.ofName n o = .ok r) ↔ n.IsWeb
  /-- and that of files takes those that name a path. -/
  file : (∃ r, FileResource.ofName n = .ok r) ↔ Url.NamesPath n.url
  /-- Of the names of files, the transport of files takes those without a host. -/
  local_ : n.url.scheme = "file".toList → (Url.NamesPath n.url ↔ n.url.host? = none)
  /-- Of the names of HTTP, the transport of files takes those whose host is this machine. -/
  both : n.IsWeb → (Url.NamesPath n.url ↔ n.url.host? = some Url.localHost)
  /-- A file is chosen if its scheme says so and its transport takes it. -/
  choosesFile : ∀ r, connect o n = .ok (.file r)
    ↔ n.url.scheme = "file".toList ∧ FileResource.ofName n = .ok r
  /-- All that the transport of HTTP takes is chosen for it. -/
  choosesWeb : ∀ r, connect o n = .ok (.web r) ↔ WebResource.ofName n o = .ok r
  /-- What is not taken is refused for its scheme. -/
  refused : ∀ e, FileResource.ofName n = .error e ∨ WebResource.ofName n o = .error e
    ∨ connect o n = .error e → e = .unsupportedScheme n.location (String.ofList n.url.scheme)

/-- A name that is refused as a file is refused for its scheme, -/
theorem FileResource.refused {e : Error} (h : FileResource.ofName n = .error e) :
    e = .schemeOf n := by
  rcases FileResource.ofName_cases n with ⟨-, p, -, hok⟩ | ⟨-, herror⟩
  · cases hok.symm.trans h
  · exact (Except.error.inj (herror.symm.trans h)).symm

/-- one that is refused as a web name is, -/
theorem WebResource.refused {e : Error} (h : WebResource.ofName n o = .error e) :
    e = .schemeOf n := by
  rcases WebResource.ofName_cases n o with ⟨-, hok⟩ | ⟨-, herror⟩
  · cases hok.symm.trans h
  · exact (Except.error.inj (herror.symm.trans h)).symm

/-- and so is one that cannot be connected. -/
theorem connect_refused {e : Error} (h : connect o n = .error e) : e = .schemeOf n := by
  rcases connect_cases n o with ⟨-, hfile⟩ | ⟨-, hweb⟩ | ⟨-, -, herror⟩
  · rw [hfile] at h
    cases hname : FileResource.ofName n with
    | ok r =>
        rw [hname] at h
        cases h
    | error e' =>
        rw [hname] at h
        cases h
        exact FileResource.refused hname
  · cases hweb.symm.trans h
  · exact (Except.error.inj (herror.symm.trans h)).symm

/-- Files connect by what the file system makes of the name, -/
theorem connect_file (n : Name) (o : Http.Options) (r : FileResource) :
    connect o n = .ok (.file r)
      ↔ n.url.scheme = "file".toList ∧ FileResource.ofName n = .ok r := by
  rcases connect_cases n o with ⟨hscheme, hfile⟩ | ⟨hweb, hok⟩ | ⟨hscheme, -, herror⟩
  · rw [hfile, and_iff_right hscheme]
    cases FileResource.ofName n with
    | ok r' =>
        refine ⟨fun h => ?_, fun h => ?_⟩
        · cases h
          rfl
        · cases h
          rfl
    | error e => exact ⟨nofun, nofun⟩
  · rw [hok]
    exact iff_of_false nofun fun h => hweb.not_file h.1
  · rw [herror]
    exact iff_of_false nofun fun h => hscheme h.1

/-- and web names by what the client makes of it. -/
theorem connect_web (n : Name) (o : Http.Options) (r : WebResource) :
    connect o n = .ok (.web r) ↔ WebResource.ofName n o = .ok r := by
  rcases connect_cases n o with ⟨hscheme, hfile⟩ | ⟨hweb, hok⟩ | ⟨-, hnot, herror⟩
  · have hnone : WebResource.ofName n o ≠ .ok r := by
      rcases WebResource.ofName_cases n o with ⟨hweb, -⟩ | ⟨-, herror⟩
      · exact absurd hscheme hweb.not_file
      · rw [herror]
        exact nofun
    refine iff_of_false (fun h => ?_) hnone
    rw [hfile] at h
    cases hname : FileResource.ofName n with
    | ok r' =>
        rw [hname] at h
        cases h
    | error e =>
        rw [hname] at h
        cases h
  · rcases WebResource.ofName_cases n o with ⟨-, hok'⟩ | ⟨hnot, -⟩
    · rw [hok, hok']
      exact ⟨fun h => by cases h; rfl, fun h => by cases h; rfl⟩
    · exact absurd hweb hnot
  · rcases WebResource.ofName_cases n o with ⟨hweb, -⟩ | ⟨-, herror'⟩
    · exact absurd hweb hnot
    · rw [herror, herror']
      exact ⟨nofun, nofun⟩

/-- The transport of HTTP takes the names of its two schemes, and the transport of files every name
of a path of this machine; a name is given to the transport of its scheme, or to none. -/
theorem transports_of_parse {uri : String} (h : Name.parse uri = .ok n) (o : Http.Options) :
    Taken n o := by
  have hsettled := Url.settled_of_parse (Name.url_of_parse h)
  refine ⟨?_, ?_, fun hfile => ?_, fun hweb => ?_, connect_file n o,
    connect_web n o, fun e he => ?_⟩
  · rcases WebResource.ofName_cases n o with ⟨hweb, hok⟩ | ⟨hnot, herror⟩
    · exact iff_of_true ⟨_, hok⟩ hweb
    · rw [herror]
      exact iff_of_false (fun ⟨_, h⟩ => nomatch h) hnot
  · rcases FileResource.ofName_cases n with ⟨hnames, p, -, hok⟩ | ⟨hnot, herror⟩
    · exact iff_of_true ⟨_, hok⟩ hnames
    · rw [herror]
      exact iff_of_false (fun ⟨_, h⟩ => nomatch h) hnot
  · refine Url.namesPath_file hsettled ?_
    rw [Url.kind, hfile]
    exact Url.schemeKind_file
  · exact Url.namesPath_special hsettled hweb.kind
  · rcases he with he | he | he
    · exact FileResource.refused he
    · exact WebResource.refused he
    · exact connect_refused he

/-- A name of a file on another machine is taken by nobody. -/
theorem transports_of_host :
    ∃ n, Name.parse "file://repo.example.com/srv/a.jar" = .ok n ∧ Taken n .default
      ∧ connect .default n
        = .error (.unsupportedScheme "file://repo.example.com/srv/a.jar" "file") := by
  have hparse : Name.parse "file://repo.example.com/srv/a.jar"
      = .ok ⟨⟨"file".toList, some (Url.Authority.ofHost (some (.named "repo.example.com".toList))),
        "/srv/a.jar".toList, none, none⟩⟩ := by decide +kernel
  exact ⟨_, hparse, transports_of_parse hparse _, by decide +kernel⟩

/-- A name of HTTP on this machine is taken by the transport of files too, which is given files
only; it is chosen for none. -/
theorem taken_by_both :
    ∃ n, Name.parse "http://localhost/a" = .ok n ∧ n.url.scheme ≠ "file".toList
      ∧ FileResource.ofName n = .ok ⟨n, bytesOf "/a"⟩
      ∧ (∃ r, WebResource.ofName n .default = .ok r)
      ∧ ∀ r, connect .default n ≠ .ok (.file r) := by
  have hparse : Name.parse "http://localhost/a"
      = .ok ⟨⟨"http".toList, some (Url.Authority.ofHost (some Url.localHost)), "/a".toList, none,
        none⟩⟩ := by decide +kernel
  refine ⟨_, hparse, by decide, by decide +kernel, ⟨_, rfl⟩, fun r hr => ?_⟩
  cases hr

end Resource

end TracedTransfer
