/-
Fetching to the file name that is made for a resource.

The name fits: it can be the name of an entry, and it is no longer than
such names may be (`IsSafe.isEntryName`). But what is written first is the
part file, whose name is five bytes longer. So a fetch into an empty
directory succeeds if the name has at most 250 bytes; if it has more, the
fetch fails before it has changed anything, although the name fits
(`fetch_by_name`).
-/
import TracedTransfer.Proofs.Command.Progress
import TracedTransfer.Proofs.Resource.Filename
import TracedTransfer.Proofs.Resource.LocalPath
import TracedTransfer.Proofs.Resource.Opening
import TracedTransfer.Proofs.Resource.ReadVariants

namespace TracedTransfer

open Text

-- ============================================================== reading

namespace Resource

open Operation Io Storage

variable {α : Type} {s : ContentSource} {d : Resource} {p : FilePath} {n : Name} {r : Runner}
  {m m₁ m' : Machine}

/-- What a read returns for what a copy came to. -/
def readBy (n : Name) (stored : Stored ContentReader) : Except Error (ReadResult Unit) :=
  match stored.outcome with
  | .ok _ => .ok ⟨stored.reader.count, ()⟩
  | .error e => .error (.io n.location e)

/-- A read into a file is a copy of what opening brings. -/
theorem writeTo_of_content {c : Content} (hopen : s.openContent m = (.value (.ok (some c)), m₁))
    (p : FilePath) : ∃ m',
      BothCome (s.resource.writeTo p) (s.resource.writeToIfPresent p) m
        (readBy s.name (copyToPath m₁.files (Counted.ofSource c.reader) p)) m'
      ∧ m'.files = (copyToPath m₁.files (Counted.ofSource c.reader) p).files := by
  obtain ⟨m', hstore, hfiles⟩ := store_run (Counted.ofSource c.reader) p m₁
  refine ⟨m', ifPresent_of_some hopen ?_, hfiles⟩
  rw [Action.bind_of_value hstore]
  unfold readBy
  dsimp only
  cases (copyToPath m₁.files (Counted.ofSource c.reader) p).outcome with
  | ok _ => rfl
  | error e => rfl

/-- A read in a scope comes to what it comes to there. -/
theorem inScope_of_value (hr : r.Calm) {bytes : α → Nat} {x : Run (Except Error α)}
    {v : Except Error α} (h : x (readEntered r n m) = (.value v, m')) :
    ∃ m₂, inScope n r bytes x m = (.value v, m₂)
      ∧ ((∀ l ∈ r, l.Leaves Machine.files) → m₂.files = m'.files) := by
  refine ⟨(inScope n r bytes x m).2, Prod.ext ?_ rfl, fun hleaves => ?_⟩
  · rw [inScope_exit hr, h]
  · rw [view_inScope hr (fun _ _ => rfl) hleaves, h]

end Resource

-- ============================================================= commands

namespace Command

open Operation Resource Io Storage FileSystem FilePath

variable {s : Session} {d : Resource} {p : FilePath} {n : Name} {r : Runner} {m m' : Machine}

/-- A download of a decorated resource, whether it insists or not, comes
to what its read into the file comes to. -/
theorem download_of_value (hr : r.Calm) {x : Except Resource.Error (ReadResult Unit)}
    (h : BothCome (d.writeTo p) (d.writeToIfPresent p) (readEntered r n m) x m')
    (ifPresent : Bool) : ∃ m₂, download (instrumented d n r) p ifPresent m
        = (.value (x.map fun read => some read.bytesRead), m₂)
      ∧ ((∀ l ∈ r, l.Leaves Machine.files) → m₂.files = m'.files) := by
  unfold download
  cases ifPresent with
  | true =>
      obtain ⟨m₂, hread, hfiles⟩ : ∃ m₂, (instrumented d n r).writeToIfPresent p m
          = (.value (x.map some), m₂) ∧ _ := inScope_of_value hr h.2
      refine ⟨m₂, ?_, hfiles⟩
      rw [if_pos rfl, Action.bind_of_value hread]
      cases x with
      | error e => rfl
      | ok read => rfl
  | false =>
      obtain ⟨m₂, hread, hfiles⟩ : ∃ m₂, (instrumented d n r).writeTo p m
          = (.value x, m₂) ∧ _ := inScope_of_value hr h.1
      refine ⟨m₂, ?_, hfiles⟩
      rw [if_neg Bool.false_ne_true, Action.bind_of_value hread]
      rfl

/-- When the scope of a read is open no file has been touched. -/
theorem Waits.entered_files (hr : Waits r) (n : Name) (m : Machine) :
    (readEntered r n m).files = m.files :=
  view_entered_of hr.calm (fun _ _ => rfl) hr.starts _ m

/-- A file is opened in the scope of its read as it is outside. -/
theorem Waits.openContent_of_file (hr : Waits r) (f : FileResource) {i : FileSystem.Id}
    {content : Bytes} (hf : m.files.resolve f.path = .ok i)
    (hi : m.files.node? i = some (.file content)) (n : Name) :
    f.source.openContent (readEntered r n m)
      = (.value (.ok (some ⟨.file ⟨i, 0⟩, f.metadataOf content.length⟩)), readEntered r n m) := by
  show (Exit.value (f.openContent (readEntered r n m).files), _) = _
  rw [hr.entered_files, f.openContent_of_file hf hi]

/-- Where a resource is saved that is fetched into a directory. -/
abbrev savedAt (dir : FilePath) (n : Name) : FilePath :=
  FilePath.relativeTo (bytesOf (Filename.ofName n)) dir

section

variable {fs : FileSystem} {dir : FilePath} {i : FileSystem.Id}

/-- The name is put behind the directory, with a slash between them if
that is wanted. -/
theorem savedAt_eq (dir : FilePath) (n : Name) :
    ∃ f, savedAt dir n = f ++ bytesOf (Filename.ofName n) ∧ FilePath.IsFront f
      ∧ f.components = dir.components ∧ (f = dir ∨ f = dir ++ [slash]) := by
  have hentry := (Filename.ofName_safe n).isEntryName
  obtain ⟨f, hf, hfront, htrim, hdir⟩ := Filename.relativeTo_eq hentry.slash dir
  refine ⟨f, hf, hfront, ?_, hdir⟩
  rw [← FilePath.components_trimEnd f, htrim, FilePath.components_trimEnd]

/-- A download is saved in the directory itself, under the name that is
derived. -/
theorem inside_savedAt (hdir : fs.resolve dir = .ok i) (hi : fs.isDirectory i = true) (n : Name) :
    fs.Inside (savedAt dir n) i (bytesOf (Filename.ofName n)) := by
  obtain ⟨f, hf, hfront, hcomponents, hplace⟩ := savedAt_eq dir n
  have hbeginning : dir <+: f := by
    rcases hplace with rfl | rfl
    · exact List.prefix_rfl
    · exact List.prefix_append ..
  rw [hf]
  exact inside_of_resolve hdir hi hfront hbeginning hcomponents
    (Filename.ofName_safe n).isEntryName

/-- A walk can take the path, with something more behind it, if it can
take a good deal more than the directory's. -/
theorem walkable_savedAt (hdir : Walkable dir) (hroom : dir.length + 256 ≤ maxPath) (n : Name)
    {t : Bytes} (ht : (0 : UInt8) ∉ t)
    (hlen : (bytesOf (Filename.ofName n)).length + t.length ≤ 255) :
    Walkable (savedAt dir n ++ t) := by
  obtain ⟨f, hf, -, -, hplace⟩ := savedAt_eq dir n
  have hzero : (0 : UInt8) ∉ dir := fun hmem => by
    have hbytes := hdir.bytes
    rw [List.contains_iff_mem.2 hmem] at hbytes
    cases hbytes
  have hfront : (0 : UInt8) ∉ f ∧ f.length ≤ dir.length + 1 ∧ f ≠ [] := by
    rcases hplace with rfl | rfl
    · exact ⟨hzero, Nat.le_succ _, hdir.nonempty⟩
    · refine ⟨?_, by simp, by simp⟩
      rw [List.mem_append, not_or]
      exact ⟨hzero, by decide⟩
  obtain ⟨hfzero, hflen, hfne⟩ := hfront
  refine ⟨?_, ?_, ?_⟩
  · have hname := (Filename.ofName_safe n).isEntryName.zero
    rw [Bool.eq_false_iff, ne_eq, List.contains_iff_mem, hf, List.mem_append, List.mem_append]
    rintro ((hmem | hmem) | hmem)
    · exact hfzero hmem
    · exact hname hmem
    · exact ht hmem
  · rw [hf]
    simp [hfne]
  · rw [hf, List.length_append, List.length_append]
    omega

end

-- ============================================================= the copy

/-- A fetch without an output saves, or fails, as its download does. -/
theorem fetchResource_of_download {d : Resource} (hname : (⟨d.url⟩ : Name) = n)
    {dir : FilePath} (hworking : m.files.workingPath? = some dir) {ifPresent : Bool}
    {x : Except Resource.Error (Option Nat)}
    (h : download d (savedAt dir n) ifPresent m = (.value x, m')) :
    ∃ m₃, fetchResource d none ifPresent m
        = (.value ((x.map fun _ => ()).mapError (.fetch d.displayName)), m₃)
      ∧ m₃.files = m'.files := by
  have hpath : (Action.gets fun m : Machine => m.files.workingPath?) m
      = (.value (some dir), m) := by
    rw [← hworking]
    rfl
  unfold fetchResource
  rw [Action.bind_of_value hpath]
  dsimp only [destination]
  rw [hname]
  unfold orElseFail
  rw [Action.bind_of_value h]
  rcases x with e | _ | k
  · exact ⟨m', rfl, rfl⟩
  · exact ⟨_, rfl, rfl⟩
  · exact ⟨_, rfl, rfl⟩

/-- An argument means content that can be read to the end, and the working
directory is empty. -/
structure Fetchable (s : Session) (argument : String) (n : Name) (content : Bytes)
    (dir : FilePath) (i : FileSystem.Id) (m : Machine) : Prop where
  /-- No listener touches the files when the fetch starts. -/
  waits : Waits s.runner
  /-- The argument means the name. -/
  means : target m.files.workingPath? argument = .ok n
  /-- The content is opened in the scope of its read. -/
  opens : ∃ a c m', connect s.options n = .ok a
    ∧ a.source.openContent (readEntered s.runner n m) = (.value (.ok (some c)), m')
    ∧ (readToEnd m.files c.reader).1 = (content, none)
  /-- The working directory is there -/
  proper : Proper m.files
  /-- under its path -/
  working : m.files.workingPath? = some dir
  /-- as a directory -/
  directory : m.files.resolve dir = .ok i
  /-- with nothing in it. -/
  vacant : m.files.node? i = some (.directory [])
  /-- The path of the directory is far shorter than paths may be. -/
  room : dir.length + 256 ≤ maxPath

variable {argument : String} {content : Bytes} {dir : FilePath} {i : FileSystem.Id}

/-- A fetch without an output copies what can be read from a reader of
something that is there. -/
theorem Fetchable.copies (h : Fetchable s argument n content dir i m)
    (settings : Config.Settings) (ifPresent : Bool) :
    ∃ r : Reader, r.There m.files ∧ (readToEnd m.files r).1 = (content, none)
      ∧ ∃ m₃, execute settings s (.fetch argument none ifPresent) m
        = (.value (((readBy n (copyToPath m.files (Counted.ofSource r)
          (savedAt dir n))).map fun _ => ()).mapError (.fetch n.displayName)), m₃)
      ∧ ((∀ l ∈ s.runner, l.Leaves Machine.files) →
        m₃.files = (copyToPath m.files (Counted.ofSource r) (savedAt dir n)).files) := by
  obtain ⟨a, c, m', hconnect, hopen, hread⟩ := h.opens
  have hentered := h.waits.entered_files n m
  obtain ⟨hfiles, hthere⟩ := AnyResource.opened_there (hentered ▸ h.proper) hopen
  rw [hentered] at hfiles hthere
  obtain ⟨m₁, hboth, hm₁⟩ := writeTo_of_content hopen (savedAt dir n)
  rw [hfiles, connect_name hconnect] at hboth
  rw [hfiles] at hm₁
  -- The listeners may write their logs between the copy and the end, but to no file that
  -- counts.
  obtain ⟨m₂, hdownload, hm₂⟩ := download_of_value h.waits.calm hboth ifPresent
  obtain ⟨m₃, hfetch, hm₃⟩ :=
    fetchResource_of_download (connect_name hconnect) h.working hdownload
  refine ⟨c.reader, hthere, hread, m₃, ?_, fun hleaves => (hm₃.trans (hm₂ hleaves)).trans hm₁⟩
  have hshown : (instrumented a.source.resource n s.runner).displayName = n.displayName :=
    congrArg Name.displayName (connect_name hconnect)
  rw [hshown] at hfetch
  refine (Session.on_connected h.means hconnect
    fun d => fetchResource d none ifPresent).trans (hfetch.trans ?_)
  cases readBy n (copyToPath m.files (Counted.ofSource c.reader) (savedAt dir n)) with
  | error e => rfl
  | ok read => rfl

theorem Fetchable.inside (h : Fetchable s argument n content dir i m) :
    m.files.Inside (savedAt dir n) i (bytesOf (Filename.ofName n)) :=
  inside_savedAt h.directory (by rw [isDirectory, h.vacant]) n

/-- A fetch saves the content if the part file can be named. -/
theorem Fetchable.saves (h : Fetchable s argument n content dir i m)
    (hshort : (bytesOf (Filename.ofName n)).length ≤ 250) (settings : Config.Settings)
    (ifPresent : Bool) : ∃ m₃, execute settings s (.fetch argument none ifPresent) m
        = (.value (.ok ()), m₃)
      ∧ ((∀ l ∈ s.runner, l.Leaves Machine.files) →
        HoldsOnly m₃.files i (bytesOf (Filename.ofName n)) content
          ∧ m₃.files.contentAt (savedAt dir n) = .ok content) := by
  obtain ⟨r, hthere, hread, m₃, hrun, hfiles⟩ := h.copies settings ifPresent
  have hpart : (bytesOf (Filename.ofName n)).length + partSuffix.length ≤ maxName := by
    rw [length_partSuffix, maxName]
    omega
  have hwalkable := walkable_savedAt (walkable_of_resolve h.directory) h.room n (by decide) hpart
  obtain ⟨houtcome, -, honly, hcontent⟩ :=
    copyToPath_vacant h.proper h.inside h.vacant hwalkable hpart hthere hread
  refine ⟨m₃, ?_, fun hleaves => ?_⟩
  · rw [hrun, readBy, houtcome]
    rfl
  · rw [hfiles hleaves]
    exact ⟨honly, hcontent⟩

/-- A fetch fails if the part file cannot be named. -/
theorem Fetchable.refuses (h : Fetchable s argument n content dir i m)
    (hlong : 250 < (bytesOf (Filename.ofName n)).length) (settings : Config.Settings)
    (ifPresent : Bool) : ∃ m₃, execute settings s (.fetch argument none ifPresent) m
        = (.value (.error (.fetch n.displayName
          (.io n.location (.system .invalidFilename)))), m₃)
      ∧ ((∀ l ∈ s.runner, l.Leaves Machine.files) → m₃.files = m.files) := by
  obtain ⟨r, -, -, m₃, hrun, hfiles⟩ := h.copies settings ifPresent
  have hshort : (bytesOf (Filename.ofName n)).length ≤ maxName := (Filename.ofName_safe n).short
  have hwalkable := walkable_savedAt (walkable_of_resolve h.directory) h.room n
    (t := []) List.not_mem_nil hshort
  rw [List.append_nil] at hwalkable
  have hpart : maxName < (bytesOf (Filename.ofName n)).length + partSuffix.length := by
    rw [length_partSuffix, maxName]
    omega
  have hstored := copyToPath_long h.proper h.inside hwalkable hshort hpart (Counted.ofSource r)
  refine ⟨m₃, ?_, fun hleaves => ?_⟩
  · rw [hrun, readBy, hstored]
    rfl
  · rw [hfiles hleaves, hstored]

-- =============================================================== a file

/-- Files with one that has a name in the root, and an empty working
directory. -/
def oneFile (name : Bytes) : FileSystem where
  nodes := [.directory [(bytesOf "w", 2), (name, 1)], .file (bytesOf "new"), .directory []]
  workingDirectory := [2]

/-- A tree with one file in it is proper. -/
theorem oneFile_proper (name : Bytes) : Proper (oneFile name) := by
  have hthere : ∀ e ∈ [(bytesOf "w", 2), (name, 1)], e.2 < (oneFile name).nodes.length := by
    simp [oneFile]
  refine proper_of_entries rfl ?_ fun dir hdir e he => ?_
  · intro j hj
    rw [List.mem_singleton.1 hj]
    rfl
  · match dir, hdir, he with
    | 0, _, he => exact hthere e he
    | 1, _, he => cases he
    | 2, _, he => cases he

/-- Its path leads to the file. -/
theorem oneFile_resolve {name : Bytes} (hname : IsEntryName name) (hshort : name.length ≤ 255)
    (hother : bytesOf "w" ≠ name) : (oneFile name).resolve (slash :: name) = .ok 1 := by
  have hinside : (oneFile name).Inside ([slash] ++ name) 0 name :=
    inside_of_resolve (resolve_slash _) rfl (.inr ⟨[], rfl⟩) List.prefix_rfl rfl hname
  have hwalkable : Walkable ([slash] ++ name) := by
    refine ⟨?_, by simp, ?_⟩
    · rw [Bool.eq_false_iff, ne_eq, List.contains_iff_mem, List.mem_append]
      rintro (hmem | hmem)
      · revert hmem
        decide
      · exact hname.zero hmem
    · rw [List.length_append, maxPath]
      have : [slash].length = 1 := rfl
      omega
  obtain ⟨stack, -, hplace⟩ := hinside.locate hwalkable hshort
  have hentries : (oneFile name).entries 0 = [(bytesOf "w", 2), (name, 1)] := rfl
  have hlookup : (oneFile name).lookup 0 name = some 1 := by
    rw [lookup, hentries, List.find?_cons_of_neg (by simpa using hother)]
    simp
  have hfile : (oneFile name).node? 1 = some (.file (bytesOf "new")) := rfl
  rw [hlookup] at hplace
  refine resolve_of_locate hplace fun target hlink => ?_
  rw [hfile] at hlink
  cases hlink

/-- The file can be fetched, unless its name looks like a drive. -/
theorem fetchable_of_file {name : List Char} (hname : IsEntryName (Utf8.encode name))
    (hshort : (Utf8.encode name).length ≤ 255) (hother : bytesOf "w" ≠ Utf8.encode name)
    (hdrive : Url.endsInDriveLetter (FilePath.spelling (slash :: Utf8.encode name)) = false) :
    Fetchable plainSession (String.ofList ('/' :: name)) (localResource (slash :: Utf8.encode name)).name
      (bytesOf "new") (bytesOf "/w") 2 (.initial (oneFile (Utf8.encode name)) .default) := by
  have hpath : bytesOf (String.ofList ('/' :: name)) = slash :: Utf8.encode name := by
    rw [bytesOf, String.toList_ofList, Utf8.encode_cons]
    rfl
  have habsolute : isAbsolute (slash :: Utf8.encode name) = true := rfl
  have hresolve := resolve_readBack habsolute hdrive (oneFile_resolve hname hshort hother)
  refine ⟨waits_listeners false none, ?_, ?_, oneFile_proper _, ?_, ?_, rfl, by decide⟩
  · rw [target_absolute _ (hpath ▸ habsolute), hpath]
  · have hfile : (oneFile (Utf8.encode name)).node? 1 = some (.file (bytesOf "new")) := rfl
    exact ⟨.file _, _, _, (connect_file _ _ _).2 ⟨rfl, ofName_localResource _⟩,
      (waits_listeners false none).openContent_of_file _ hresolve hfile _, readToEnd_file hfile⟩
  · show (oneFile (Utf8.encode name)).workingPath? = _
    cbv
  · show (oneFile (Utf8.encode name)).resolve _ = _
    cbv

-- ================================================== the main statement

/-- How a fetch of a name goes, by the length of the file name that is
made for it. -/
structure SavedByName (n : Name) (dir : FilePath) (i : FileSystem.Id) (content : Bytes)
    (r : Runner) (fs : FileSystem) (ended : Exit (Except Failure Unit) × Machine) : Prop where
  /-- The name can be one of an entry, and is no longer than such names
  may be. -/
  entry : IsEntryName (bytesOf (Filename.ofName n))
    ∧ (bytesOf (Filename.ofName n)).length ≤ 255
  /-- The part file's can be one too, but it may be longer than that. -/
  part : leaf (partPath (savedAt dir n)) = bytesOf (Filename.ofName n) ++ bytesOf ".part"
    ∧ IsEntryName (leaf (partPath (savedAt dir n)))
    ∧ ((leaf (partPath (savedAt dir n))).length ≤ 255
      ↔ (bytesOf (Filename.ofName n)).length ≤ 250)
  /-- If both fit the content is saved, and is all that the directory
  holds, -/
  saved : (bytesOf (Filename.ofName n)).length ≤ 250 → ended.1 = .value (.ok ())
    ∧ ((∀ l ∈ r, l.Leaves Machine.files) →
      HoldsOnly ended.2.files i (bytesOf (Filename.ofName n)) content
        ∧ ended.2.files.contentAt (savedAt dir n) = .ok content)
  /-- and otherwise the command fails, and no file has changed. -/
  refused : 250 < (bytesOf (Filename.ofName n)).length →
    ended.1 = .value (.error (.fetch n.displayName
        (.io n.location (.system .invalidFilename))))
      ∧ ((∀ l ∈ r, l.Leaves Machine.files) → ended.2.files = fs)

/-- Content that can be read to the end is saved in an empty working
directory under the name that is made for it, if the name has at most 250
bytes. -/
theorem fetch_by_name (h : Fetchable s argument n content dir i m)
    (settings : Config.Settings) (ifPresent : Bool) :
    SavedByName n dir i content s.runner m.files
      (execute settings s (.fetch argument none ifPresent) m) := by
  have hsafe := Filename.ofName_safe n
  have hpart : leaf (partPath (savedAt dir n)) = bytesOf (Filename.ofName n) ++ partSuffix :=
    (inside_partPath h.inside).leaf
  have hlength : (leaf (partPath (savedAt dir n))).length
      = (bytesOf (Filename.ofName n)).length + 5 := by
    rw [hpart, List.length_append, length_partSuffix]
  refine ⟨⟨hsafe.isEntryName, hsafe.short⟩, ⟨hpart, ?_, by omega⟩, fun hshort => ?_,
    fun hlong => ?_⟩
  · rw [hpart]
    exact isEntryName_part hsafe.isEntryName
  · obtain ⟨m₃, hrun, hfiles⟩ := h.saves hshort settings ifPresent
    rw [hrun]
    exact ⟨rfl, hfiles⟩
  · obtain ⟨m₃, hrun, hfiles⟩ := h.refuses hlong settings ifPresent
    rw [hrun]
    exact ⟨rfl, hfiles⟩

/-- A file whose name is one letter. -/
theorem fetch_by_name_of_file :
    let m := Machine.initial (oneFile (bytesOf "a")) .default
    let n := (localResource (bytesOf "/a")).name
    Fetchable plainSession "/a" n (bytesOf "new") (bytesOf "/w") 2 m
      ∧ SavedByName n (bytesOf "/w") 2 (bytesOf "new") plainSession.runner m.files
        (execute .default plainSession (.fetch "/a" none false) m) := by
  intro m n
  have hname : IsEntryName (Utf8.encode ['a']) := by
    constructor
    all_goals decide
  have hfetchable : Fetchable plainSession "/a" n (bytesOf "new") (bytesOf "/w") 2 m :=
    fetchable_of_file hname (by decide) (by decide) (by decide)
  exact ⟨hfetchable, fetch_by_name hfetchable .default false⟩

/-- A file whose name is 251 letters cannot be fetched by its own name,
which fits. -/
theorem fetch_refuses_long_name :
    let name := List.replicate 251 'a'
    let m := Machine.initial (oneFile (Utf8.encode name)) .default
    let n := (localResource (slash :: Utf8.encode name)).name
    Fetchable plainSession (String.ofList ('/' :: name)) n (bytesOf "new") (bytesOf "/w") 2 m
      ∧ bytesOf (Filename.ofName n) = Utf8.encode name
      ∧ (Utf8.encode name).length = 251
      ∧ ∀ settings ifPresent,
        (execute settings plainSession (.fetch (String.ofList ('/' :: name)) none ifPresent) m).1
          = .value (.error (.fetch n.displayName (.io n.location (.system .invalidFilename)))) := by
  intro name m n
  have hlength : (Utf8.encode name).length = 251 := by decide +kernel
  have hname : IsEntryName (Utf8.encode name) := by
    constructor
    all_goals decide +kernel
  have hfetchable : Fetchable plainSession (String.ofList ('/' :: name)) n (bytesOf "new")
      (bytesOf "/w") 2 m :=
    fetchable_of_file hname (by omega) (by decide +kernel) (by decide +kernel)
  have hkept : Filename.ofName n = String.ofList name :=
    Filename.ofName_kept (by decide +kernel) (by decide +kernel) (by decide +kernel)
      (by decide +kernel)
  have hderived : bytesOf (Filename.ofName n) = Utf8.encode name := by
    rw [hkept, bytesOf, String.toList_ofList]
  refine ⟨hfetchable, hderived, hlength, fun settings ifPresent => ?_⟩
  have hlong : 250 < (bytesOf (Filename.ofName n)).length := by
    rw [hderived, hlength]
    decide
  obtain ⟨m₃, hrun, -⟩ := hfetchable.refuses hlong settings ifPresent
  rw [hrun]

end Command

end TracedTransfer
