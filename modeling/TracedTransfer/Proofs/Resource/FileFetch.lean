/-
Fetching a file: a read of a file resource into a file.

The source is open before the part file is, and what it brings is its
content, as long as the part file is another file (`Fetched`). Where the
two are one, the source is made empty before anything is read: see
`fetch_goes_astray`.

Everything else is known from the endings of a copy: what the destination
reads as then, what the source and the destination read as after a
failure, and that no other file has been touched.
-/
import Mathlib
import TracedTransfer.Proofs.Resource.Footprint
import TracedTransfer.Proofs.Storage.Ending
import TracedTransfer.Resource.File

namespace TracedTransfer.Resource

open Text Io FileSystem FilePath Storage

variable {fs : FileSystem} {d : FilePath} {s : Bytes} {i : FileSystem.Id}

-- ================================================================= runs

/-- Storing content is a copy to a path. What may be logged besides leaves
the files alone. -/
theorem store_run (r : ContentReader) (d : FilePath) (m : Machine) :
    ∃ m', store r d m = (.value ((copyToPath m.files r d).outcome,
        (copyToPath m.files r d).reader), m')
      ∧ m'.files = (copyToPath m.files r d).files := by
  have hcopy : Run.onFiles (fun fs => (copyToPath fs r d, (copyToPath fs r d).files)) m
      = (.value (copyToPath m.files r d),
        { m with files := (copyToPath m.files r d).files }) := rfl
  obtain ⟨m', hlogged, hfiles⟩ := logRemoval_run (copyToPath m.files r d).removal
    { m with files := (copyToPath m.files r d).files }
  unfold store
  rw [Action.bind_of_value hcopy, Action.bind_of_value hlogged]
  exact ⟨m', rfl, hfiles⟩

/-- The content of a file is a reader at its beginning. -/
theorem FileResource.openContent_of_file (r : FileResource)
    (hs : fs.resolve r.path = .ok i) (hi : fs.node? i = some (.file s)) :
    r.openContent fs = .ok (some ⟨.file ⟨i, 0⟩, r.metadataOf s.length⟩) := by
  have hfile : fs.isFileNode i = true := by rw [isFileNode, hi]
  have hcontent : fs.content i = s := by rw [content, hi]
  simp only [openContent, length?, fileLength?, openToRead, hs, Except.map, hfile,
    hcontent, if_true]

/-- The copy that a fetch of an open file makes. -/
def copyOf (fs : FileSystem) (i : FileSystem.Id) (d : FilePath) : Stored ContentReader :=
  copyToPath fs (Counted.ofSource (Reader.file ⟨i, 0⟩)) d

/-- What a fetch returns for what a copy came to: the number of bytes that
its reader has counted. -/
def bytesRead (r : FileResource) (stored : Stored ContentReader) :
    Except Resource.Error Nat :=
  match stored.outcome with
  | .ok _ => .ok stored.reader.count
  | .error e => .error (r.failure e)

/-- A fetch of a file is a copy from its beginning. -/
theorem FileResource.writeTo_run (r : FileResource) {m : Machine}
    (hs : m.files.resolve r.path = .ok i) (hi : m.files.node? i = some (.file s))
    (d : FilePath) : ∃ m', m'.files = (copyOf m.files i d).files
      ∧ r.source.resource.writeToIfPresent d m
        = (.value ((bytesRead r (copyOf m.files i d)).map fun n => some ⟨n, ()⟩), m')
      ∧ r.source.resource.writeTo d m
        = (.value ((bytesRead r (copyOf m.files i d)).map fun n => ⟨n, ()⟩), m') := by
  obtain ⟨m', hstore, hfiles⟩ := store_run (.ofSource (.file ⟨i, 0⟩)) d m
  have hopen : r.source.openContent m
      = (.value (.ok (some ⟨.file ⟨i, 0⟩, r.metadataOf s.length⟩)), m) := by
    show (Exit.value (r.openContent m.files), m) = _
    rw [r.openContent_of_file hs hi]
  have hpresent : r.source.resource.writeToIfPresent d m
      = (.value ((bytesRead r (copyOf m.files i d)).map fun n => some ⟨n, ()⟩), m') := by
    show orFail r.source.openContent _ m = _
    unfold orFail
    rw [Action.bind_of_value hopen]
    dsimp only
    rw [bind_assoc, Action.bind_of_value hstore]
    unfold bytesRead copyOf
    rcases (copyToPath m.files (Counted.ofSource (Reader.file ⟨i, 0⟩)) d).outcome
      with e | n
    · rfl
    · rfl
  -- The form that insists is the other one, whose result is never an absence.
  refine ⟨m', hfiles, hpresent, ?_⟩
  show orFail (r.source.resource.writeToIfPresent d) _ m = _
  unfold orFail
  rw [Action.bind_of_value hpresent]
  rcases bytesRead r (copyOf m.files i d) with e | n
  · rfl
  · rfl

-- ============================================================== fetches

/-- What a fetch of a file does, which is the node `i` with a content. The
files with the directories above the destination are those that it is told
from; the part file is the one thing beside the destination that it may
change. -/
structure Fetched {ε : Type} (fs : FileSystem) (source d : FilePath) (i : FileSystem.Id)
    (content : Bytes) (outcome : Except ε Nat) (files : FileSystem) : Prop where
  /-- Missing directories above the destination have been made. -/
  parents : fs.Grown (withParents fs d) (Above · d)
  /-- None is missing where the destination can be read. -/
  settled : ∀ t, fs.contentAt d = .ok t → withParents fs d = fs
  /-- All is stored, or nothing if the source is the part file, which is
  made empty first. -/
  stored : ∀ n, outcome = .ok n → ∃ brought,
    (¬(withParents fs d).NodeAt (partPath d) i → brought = content)
    ∧ ((withParents fs d).NodeAt (partPath d) i → brought = [])
    ∧ n = brought.length ∧ StoredAt (withParents fs d) files d brought
    ∧ ((withParents fs d).Direct d → files.contentAt d = .ok brought)
  /-- After a failure the source reads as before, unless it is the part
  file, -/
  source : ∀ e, outcome = .error e → ¬(withParents fs d).NodeAt (partPath d) i →
    files.contentAt source = .ok content
  /-- and the destination does, unless it leads to a device in the part
  file's place. -/
  destination : ∀ e, outcome = .error e →
    (∀ j, (withParents fs d).resolve d = .ok j →
      (withParents fs d).NodeAt (partPath d) j →
      (withParents fs d).node? j ≠ some .full) →
    (files.contentAt d).toOption = ((withParents fs d).contentAt d).toOption
  /-- All other names lead to what they led to. -/
  names : ∀ dir name, ¬(withParents fs d).Names (partPath d) dir name →
    ¬(withParents fs d).Names d dir name ∨ (∃ e, outcome = .error e) →
    files.lookup dir name = (withParents fs d).lookup dir name
  /-- No other file has another content. -/
  contents : ∀ j n, (withParents fs d).shape? j = some n →
    ¬(withParents fs d).NodeAt (partPath d) j → files.shape? j = some n

/-- Where there is content, the directories above it are there. -/
theorem withParents_of_contentAt (hfs : Proper fs) {t : Bytes}
    (h : fs.contentAt d = .ok t) : withParents fs d = fs := by
  obtain ⟨j, hr, hj⟩ := resolve_of_contentAt h
  obtain ⟨-, stack, k, hplace, -⟩ := locate_of_resolve hfs hr hj
  exact withParents_of_locate hfs hplace

/-- Content that can be looked at is found. -/
theorem contentAt_of_toOption {p : FilePath}
    (h : (fs.contentAt p).toOption = some s) : fs.contentAt p = .ok s := by
  rcases hc : fs.contentAt p with e | t
  · rw [hc] at h
    cases h
  · rw [hc] at h
    cases h
    rfl

/-- What failed before there was a part file has touched no file. -/
theorem fetched_of_error {ε : Type} (hfs : Proper fs) {source : FilePath}
    (hs : fs.resolve source = .ok i) (hi : fs.node? i = some (.file s)) (e : ε) :
    Fetched fs source d i s (.error e) (withParents fs d) := by
  obtain ⟨-, hparents, -⟩ := withParents_spec hfs d
  have hsource := contentAt_of_resolve (hparents.resolve_file hs hi) (hparents.file hi)
  exact ⟨hparents, fun _ => withParents_of_contentAt hfs, by simp, fun _ _ _ => hsource,
    fun _ _ _ => rfl, fun _ _ _ _ => rfl, fun _ _ h _ => h⟩

section opened

variable {made fs₁ : FileSystem} {h : Handle} {stack : List FileSystem.Id}

/-- What there is to be read of a file when the part file is open. -/
theorem readToEnd_opened (ho : made.Opened fs₁ (partPath d) h stack)
    (hi : made.node? i = some (.file s)) : ∃ brought,
      (readToEnd fs₁ (Reader.file ⟨i, 0⟩)).1 = (brought, none)
      ∧ (¬made.NodeAt (partPath d) i → brought = s)
      ∧ (made.NodeAt (partPath d) i → brought = [])
      ∧ Fills fs₁ ⟨d, h⟩ (Counted.ofSource (Reader.file ⟨i, 0⟩)) := by
  have hpart := ho.nodeAt_iff (lt_of_shape (shape?_of_node hi))
  by_cases hne : i = h.node
  · -- The source is the part file, and opening has made it empty.
    have hempty : fs₁.node? i = some (.file []) := by
      subst hne
      rcases ho.node with ⟨hnode, -⟩ | ⟨hfull, rfl⟩
      · exact hnode
      · rw [hi] at hfull
        cases hfull
    have hread : (Source.read fs₁ chunkSize (Counted.ofSource (Reader.file ⟨i, 0⟩))).1
        = .ok [] := by
      rw [read_counted, Counted.ofSource, read_file hempty]
      rfl
    exact ⟨[], readToEnd_file hempty, fun hapart => absurd (hpart.2 hne) hapart,
      fun _ => rfl, fills_of_empty ⟨d, h⟩ ho.beginning hread⟩
  · have hkept : fs₁.node? i = some (.file s) := by
      have hshape := (ho.patch.shape i hne).trans (shape?_of_node hi)
      exact (node?_of_shape (by simp)).1 hshape
    exact ⟨s, readToEnd_file hkept, fun _ => rfl, fun hat => absurd (hpart.1 hat) hne,
      fills_of_blind ⟨d, h⟩ (Reader.blind h.node).counted ho.beginning hne⟩

end opened

/-- An ending of a copy, as a fetch. -/
theorem fetched_of_ended {ε : Type} {fs₁ files : FileSystem} {h : Handle}
    {stack : List FileSystem.Id} {source : FilePath} {brought : Bytes}
    {outcome : Except Io.Error Nat} (hfs : Proper fs) (hs : fs.resolve source = .ok i)
    (hi : fs.node? i = some (.file s))
    (ho : (withParents fs d).Opened fs₁ (partPath d) h stack)
    (hended : Ended (withParents fs d) d h.node stack (brought, none) outcome files)
    (hall : ¬(withParents fs d).NodeAt (partPath d) i → brought = s)
    (hnothing : (withParents fs d).NodeAt (partPath d) i → brought = [])
    (f : Io.Error → ε) : Fetched fs source d i s (outcome.mapError f) files := by
  obtain ⟨hmade, hparents, -⟩ := withParents_spec hfs d
  have hsource : (withParents fs d).resolve source = .ok i := hparents.resolve_file hs hi
  have hfile : (withParents fs d).node? i = some (.file s) := hparents.file hi
  -- Whether a node stands at the part file is known before the copy: it is the node that was
  -- opened there.
  have hpart : ∀ {j n}, (withParents fs d).shape? j = some n →
      ((withParents fs d).NodeAt (partPath d) j ↔ j = h.node) :=
    fun hj => ho.nodeAt_iff (lt_of_shape hj)
  have hfailed : ∀ {e}, outcome.mapError f = .error e → ∃ e', outcome = .error e' := by
    intro e he
    cases outcome with
    | error e' => exact ⟨e', rfl⟩
    | ok n => cases he
  refine ⟨hparents, fun _ => withParents_of_contentAt hfs, ?_, ?_, ?_, ?_, ?_⟩
  · intro n hn
    cases outcome with
    | error e => cases hn
    | ok k =>
        cases hn
        obtain ⟨-, hcount, hstored⟩ := hended.storedAt (ho.isDirectory_top hmade)
        exact ⟨brought, hall, hnothing, hcount, hstored, hstored.contentAt⟩
  · intro e he hapart
    obtain ⟨e', rfl⟩ := hfailed he
    refine contentAt_of_toOption ?_
    rw [hended.contentAt ?_, contentAt_of_resolve hsource hfile]
    · rfl
    · intro hres
      rw [hsource] at hres
      exact hapart ((hpart (shape?_of_node hfile)).2 (Except.ok.inj hres))
  -- A copy that fails leaves the destination, unless what leads there is the part file itself.
  · intro e he hdevice
    obtain ⟨e', rfl⟩ := hfailed he
    refine hended.contentAt fun hres => ?_
    have hat := (ho.nodeAt_iff (hmade.resolve_there hres)).2 rfl
    have hread := contentAt_of_plain hres ho.patch.plain
    exact hdevice _ hres hat (hended.full_of_contentAt rfl hread)
  · intro dir name hother hd
    refine hended.lookup_of_names ho hother (hd.imp_right ?_)
    rintro ⟨e, he⟩
    exact hfailed he
  · intro j n hj hother
    rw [← hj]
    refine hended.shape (.inl ?_)
    rintro rfl
    exact hother ((hpart hj).2 rfl)

/-- What a copy of one file to another has done, by what its copying came
to. -/
theorem copyOf_fetched (r : FileResource) (hfs : Proper fs)
    (hs : fs.resolve r.path = .ok i) (hi : fs.node? i = some (.file s))
    (hlink : (withParents fs d).NoLink (partPath d)) :
    Fetched fs r.path d i s (bytesRead r (copyOf fs i d)) (copyOf fs i d).files := by
  obtain ⟨hmade, hparents, -⟩ := withParents_spec hfs d
  rcases copyToPath_begins ContentReader fs d with
    ⟨e, -, hcopy⟩ | ⟨hready, ⟨e, -, hcopy⟩ | ⟨fs₁, h, hopen⟩⟩
  · rw [copyOf, hcopy]
    exact fetched_of_error hfs hs hi _
  · rw [copyOf, hcopy]
    exact fetched_of_error hfs hs hi _
  · obtain ⟨stack, ho⟩ := openToWrite_opened hmade hlink hopen
    obtain ⟨brought, hbrought, hall, hnothing, hfills⟩ :=
      readToEnd_opened ho (hparents.file hi)
    have hdata : readToEnd fs₁ (Counted.ofSource (Reader.file ⟨i, 0⟩)) = _ :=
      readToEnd_counted _
    rw [hbrought] at hdata
    have hended := copyToPath_ended hmade hready hopen ho hfills
    rw [hdata] at hended
    -- What the reader has counted is what the copy says.
    have hread : bytesRead r (copyOf fs i d)
        = (copyOf fs i d).outcome.mapError r.failure := by
      unfold bytesRead
      rcases houtcome : (copyOf fs i d).outcome with e | n
      · rfl
      · have hreader := copyToPath_reader hmade hready hopen ho hfills houtcome
        rw [hdata] at hreader
        have hcount := (houtcome ▸ hended).storedAt (ho.isDirectory_top hmade)
        show Except.ok (copyOf fs i d).reader.count = Except.ok n
        rw [show (copyOf fs i d).reader = _ from hreader, hcount.2.1]
    rw [hread]
    exact fetched_of_ended hfs hs hi ho hended hall hnothing r.failure

/-- A fetch of a file copies it, whatever becomes of the copy, as long as
no link is in the place of the part file. -/
theorem fetch_of_file (r : FileResource) (d : FilePath) (m : Machine)
    (hfs : Proper m.files) (hs : m.files.resolve r.path = .ok i)
    (hi : m.files.node? i = some (.file s))
    (hlink : (withParents m.files d).NoLink (partPath d)) :
    ∃ (outcome : Except Resource.Error Nat) (m' : Machine),
      r.source.resource.writeTo d m = (.value (outcome.map fun n => ⟨n, ()⟩), m')
      ∧ r.source.resource.writeToIfPresent d m
        = (.value (outcome.map fun n => some ⟨n, ()⟩), m')
      ∧ Fetched m.files r.path d i s outcome m'.files := by
  obtain ⟨m', hfiles, hpresent, hmust⟩ := r.writeTo_run hs hi d
  refine ⟨_, m', hmust, hpresent, ?_⟩
  rw [hfiles]
  exact copyOf_fetched r hfs hs hi hlink

-- ============================================================ examples

/-- A resource at a relative path. -/
def at_ (path : FilePath) : FileResource where
  name := ⟨⟨"file".toList, some Url.Authority.empty, "/source".toList, none, none⟩⟩
  path

/-- What a fetch returns on a machine with files, and the files then. -/
def fetch (files : FileSystem) (source d : FilePath) :
    Exit (Except Resource.Error (ReadResult Unit)) × FileSystem :=
  let (exit, m) := (at_ source).source.resource.writeTo d (.initial files .default)
  (exit, m.files)

/-- Two files. -/
def twoFiles : FileSystem where
  nodes := [.directory [(bytesOf "s", 1), (bytesOf "d", 2)],
    .file (bytesOf "new"), .file (bytesOf "old")]
  workingDirectory := []

/-- A fetch over a file that is there already, by both forms. -/
theorem fetch_over_file :
    Proper twoFiles ∧ twoFiles.resolve (bytesOf "s") = .ok 1
      ∧ (fetch twoFiles (bytesOf "s") (bytesOf "d")).1 = .value (.ok ⟨3, ()⟩)
      ∧ ∃ (outcome : Except Resource.Error Nat) (m' : Machine),
        (at_ (bytesOf "s")).source.resource.writeTo (bytesOf "d")
          (.initial twoFiles .default) = (.value (outcome.map fun n => ⟨n, ()⟩), m')
        ∧ (at_ (bytesOf "s")).source.resource.writeToIfPresent (bytesOf "d")
          (.initial twoFiles .default)
            = (.value (outcome.map fun n => some ⟨n, ()⟩), m')
        ∧ Fetched twoFiles (bytesOf "s") (bytesOf "d") 1 (bytesOf "new") outcome
          m'.files := by
  have hproper : Proper twoFiles := proper_of_entries rfl (by decide) (by decide)
  have hmade : withParents twoFiles (bytesOf "d") = twoFiles := by cbv
  have hpart : twoFiles.locate false (partPath (bytesOf "d"))
      = .ok (.named [] (bytesOf "d.part") none) := by cbv
  have hsource : twoFiles.resolve (bytesOf "s") = .ok 1 := by cbv
  refine ⟨hproper, hsource, by cbv, fetch_of_file (at_ (bytesOf "s")) (bytesOf "d")
    (.initial twoFiles .default) hproper hsource rfl ?_⟩
  show (withParents twoFiles (bytesOf "d")).NoLink _
  rw [hmade]
  intro stack name i target h
  rw [hpart] at h
  cases h

/-- A file with the name of a part file. -/
def ownPart : FileSystem where
  nodes := [.directory [(bytesOf "d.part", 1)], .file (bytesOf "new")]
  workingDirectory := []

/-- A link in the place of a part file. -/
def partLink : FileSystem where
  nodes := [.directory [(bytesOf "s", 1), (bytesOf "t", 2), (bytesOf "d.part", 3)],
    .file (bytesOf "new"), .file (bytesOf "kept"), .link (bytesOf "t")]
  workingDirectory := []

/-- A link in the place of a part file, to the destination. -/
def partLoop : FileSystem where
  nodes := [.directory [(bytesOf "s", 1), (bytesOf "d", 2), (bytesOf "d.part", 3)],
    .file (bytesOf "new"), .file (bytesOf "old"), .link (bytesOf "d")]
  workingDirectory := []

/-- A link in the place of a part file, to the source. -/
def sourceLink : FileSystem where
  nodes := [.directory [(bytesOf "s", 1), (bytesOf "d", 2), (bytesOf "d.part", 3)],
    .file (bytesOf "new"), .directory [], .link (bytesOf "s")]
  workingDirectory := []

/-- A link to a directory. -/
def directoryLink : FileSystem where
  nodes := [.directory [(bytesOf "s", 1), (bytesOf "l", 2), (bytesOf "sub", 3)],
    .file (bytesOf "new"), .link (bytesOf "sub"), .directory []]
  workingDirectory := []

/-- A directory in the place of a part file. -/
def partDirectory : FileSystem where
  nodes := [.directory [(bytesOf "s", 1), (bytesOf "a", 2)], .file (bytesOf "new"),
    .directory [(bytesOf "f", 3), (bytesOf "f.part", 4)], .file (bytesOf "old"),
    .directory []]
  workingDirectory := []

/-- A device in the place of a part file, and a link to it. -/
def partDevice : FileSystem where
  nodes := [.directory [(bytesOf "s", 1), (bytesOf "d", 2), (bytesOf "d.part", 3)],
    .file (bytesOf "new"), .link (bytesOf "d.part"), .full]
  workingDirectory := []

/-- What the conditions are for. A source that is its own part file is made
empty and lost. A link in the place of a part file is written through, is
what the destination is then, and does not come to an end if it leads
there; the source may be lost through it, also when the fetch fails. A
link on the way to a destination is replaced; a destination that nothing
is known of may be readable when directories have been made; and a device
in the place of a part file is taken away. -/
theorem fetch_goes_astray :
    ((fetch ownPart (bytesOf "d.part") (bytesOf "d")).1 = .value (.ok ⟨0, ()⟩)
        ∧ ownPart.contentAt (bytesOf "d.part") = .ok (bytesOf "new")
        ∧ (fetch ownPart (bytesOf "d.part") (bytesOf "d")).2.contentAt (bytesOf "d")
          = .ok [])
      ∧ ((fetch partLink (bytesOf "s") (bytesOf "d")).1 = .value (.ok ⟨3, ()⟩)
        ∧ partLink.contentAt (bytesOf "t") = .ok (bytesOf "kept")
        ∧ (fetch partLink (bytesOf "s") (bytesOf "d")).2.contentAt (bytesOf "t")
          = .ok (bytesOf "new"))
      ∧ ((fetch partLoop (bytesOf "s") (bytesOf "d")).1 = .value (.ok ⟨3, ()⟩)
        ∧ (fetch partLoop (bytesOf "s") (bytesOf "d")).2.contentAt (bytesOf "d")
          = .error (.system .filesystemLoop))
      ∧ ((fetch sourceLink (bytesOf "s") (bytesOf "d")).1
          = .value (.error (.io "file:///source" (.system .isADirectory)))
        ∧ (fetch sourceLink (bytesOf "s") (bytesOf "d")).2.contentAt (bytesOf "s")
          = .ok [])
      ∧ ((fetch directoryLink (bytesOf "s") (bytesOf "l/../l")).1 = .value (.ok ⟨3, ()⟩)
        ∧ (fetch directoryLink (bytesOf "s") (bytesOf "l/../l")).2.contentAt
          (bytesOf "l/../l") = .error (.system .notADirectory))
      ∧ ((fetch partDirectory (bytesOf "s") (bytesOf "a/b/../f")).1
          = .value (.error (.io "file:///source" (.system .isADirectory)))
        ∧ partDirectory.contentAt (bytesOf "a/b/../f") = .error (.system .notFound)
        ∧ (fetch partDirectory (bytesOf "s") (bytesOf "a/b/../f")).2.contentAt
          (bytesOf "a/b/../f") = .ok (bytesOf "old"))
      ∧ (fetch partDevice (bytesOf "s") (bytesOf "d")).1
          = .value (.error (.io "file:///source" (.system .storageFull)))
        ∧ partDevice.contentAt (bytesOf "d") = .ok []
        ∧ (fetch partDevice (bytesOf "s") (bytesOf "d")).2.contentAt (bytesOf "d")
          = .error (.system .notFound) := by
  refine ⟨⟨?_, ?_, ?_⟩, ⟨?_, ?_, ?_⟩, ⟨?_, ?_⟩, ⟨?_, ?_⟩, ⟨?_, ?_⟩, ⟨?_, ?_, ?_⟩,
    ?_, ?_, ?_⟩
  all_goals cbv

end TracedTransfer.Resource
