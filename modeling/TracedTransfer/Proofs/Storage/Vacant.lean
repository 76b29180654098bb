/-
Storing under a name in an empty directory.

Nothing is in the way there, so whether a copy succeeds is a matter of
lengths: the name of the part file, which is longer than that of the
destination, must be no longer than names may be. If it is, the copy
succeeds, and what has been brought is all that the directory holds then
(`copyToPath_vacant`). If it is not, the copy fails before anything is
read and nothing has changed (`copyToPath_long`).

The reader may be of any kind, as long as what it reads from is there
already, so that the part file is something else (`Reader.There`).
-/
import TracedTransfer.Proofs.FileSystem.Inside
import TracedTransfer.Proofs.Storage.Creatable

namespace TracedTransfer

open Text

-- ============================================================== readers

namespace Io

variable {fs fs' : FileSystem}

/-- A reader of something that is there. -/
def Reader.There (fs : FileSystem) : Reader → Prop
  | .script _ => True
  | .file h => h.node < fs.nodes.length

/-- An open file reads the same where its node is the same. -/
theorem readToEnd_same_node {h : FileSystem.Handle}
    (hnode : fs'.node? h.node = fs.node? h.node) :
    readToEnd fs' (Reader.file h) = readToEnd fs (Reader.file h) := by
  have hread : ∀ {r : Reader}, (∃ offset, r = .file ⟨h.node, offset⟩) → ∀ n,
      Source.read fs' n r = Source.read fs n r := by
    rintro _ ⟨offset, rfl⟩ n
    show Reader.read fs' n _ = Reader.read fs n _
    simp only [Reader.read, FileSystem.readHandle, hnode]
  have hstays : ∀ {r : Reader}, (∃ offset, r = .file ⟨h.node, offset⟩) → ∀ n,
      ∃ offset, (Source.read fs' n r).2 = .file ⟨h.node, offset⟩ := by
    rintro _ ⟨offset, rfl⟩ n
    show ∃ offset', (Reader.read fs' n _).2 = _
    simp only [Reader.read, FileSystem.readHandle]
    cases fs'.node? h.node with
    | none => exact ⟨offset, rfl⟩
    | some node =>
        cases node with
        | file s => exact ⟨_, rfl⟩
        | directory es => exact ⟨offset, rfl⟩
        | link target => exact ⟨offset, rfl⟩
        | full => exact ⟨offset, rfl⟩
  have hpending : Source.pending fs' (Reader.file h) = Source.pending fs (Reader.file h) := by
    show fs'.bytesLeft h = fs.bytesLeft h
    rw [FileSystem.bytesLeft, FileSystem.bytesLeft, FileSystem.content, FileSystem.content,
      hnode]
  rw [readToEnd_eq, readToEnd_eq, hpending]
  exact drain_congr hread hstays _ ⟨h.offset, rfl⟩

/-- A directory cannot be read. -/
theorem not_directory_of_readToEnd {h : FileSystem.Handle} {bytes : Bytes}
    (hread : (readToEnd fs (Reader.file h)).1 = (bytes, none))
    (es : List (Bytes × FileSystem.Id)) : fs.node? h.node ≠ some (.directory es) := by
  intro hnode
  have hfailed : Source.read fs chunkSize (Reader.file h)
      = (.error (.system .isADirectory), .file h) := by
    show Reader.read fs chunkSize (.file h) = _
    simp only [Reader.read, FileSystem.readHandle, hnode]
  rw [readToEnd_eq, drain_succ, hfailed] at hread
  cases hread

/-- What is there reads the same when a part file has been opened that was
not there. -/
theorem Reader.There.readToEnd {r : Reader} (hr : r.There fs) {p : FilePath}
    {h : FileSystem.Handle} {stack : List FileSystem.Id} (ho : fs.Opened fs' p h stack)
    (hnew : fs.nodes.length ≤ h.node) {bytes : Bytes}
    (hread : (Io.readToEnd fs r).1 = (bytes, none)) :
    r.Apart h.node ∧ Io.readToEnd fs' r = Io.readToEnd fs r := by
  cases r with
  | script events => exact ⟨trivial, Reader.steady.readToEnd fs' fs ⟨events, rfl⟩⟩
  | file source =>
      have hthere : source.node < fs.nodes.length := hr
      have hapart : source.node ≠ h.node := Nat.ne_of_lt (Nat.lt_of_lt_of_le hthere hnew)
      refine ⟨hapart, readToEnd_same_node ?_⟩
      have hshape := ho.patch.shape source.node hapart
      have hnode : fs.node? source.node = some fs.nodes[source.node] :=
        List.getElem?_eq_getElem hthere
      have hplain : ∀ es, fs.nodes[source.node] ≠ .directory es := by
        intro es hes
        exact not_directory_of_readToEnd hread es (by rw [hnode, hes])
      rw [hnode]
      apply (FileSystem.node?_of_shape hplain).1
      rw [hshape]
      exact (FileSystem.node?_of_shape hplain).2 hnode

end Io

-- =========================================================== new names

namespace Storage

open Io FileSystem FilePath

variable {fs : FileSystem} {d : FilePath} {i : FileSystem.Id} {name : Bytes}

theorem length_partSuffix : partSuffix.length = 5 := by decide

/-- What can be the name of an entry can be one with the suffix. -/
theorem isEntryName_part (h : IsEntryName name) : IsEntryName (name ++ partSuffix) := by
  have hlen : 5 ≤ (name ++ partSuffix).length := by
    rw [List.length_append, length_partSuffix]
    omega
  refine ⟨?_, ?_, ?_, ?_, ?_⟩
  · intro hempty
    simp [hempty] at hlen
  · intro hdot
    simp [hdot, dot] at hlen
  · intro hdots
    simp [hdots, dotDot] at hlen
  · intro hslash
    rcases List.mem_append.1 hslash with hslash | hslash
    · exact h.slash hslash
    · revert hslash
      decide
  · intro hzero
    rcases List.mem_append.1 hzero with hzero | hzero
    · exact h.zero hzero
    · revert hzero
      decide

/-- The part file of a destination inside a directory is inside it too. -/
theorem inside_partPath (h : fs.Inside d i name) :
    fs.Inside (partPath d) i (name ++ partSuffix) := by
  refine ⟨?_, by rw [leaf_partPath, partName, h.leaf], isEntryName_part h.entry⟩
  have hstart := start_above (p := d) (q := partPath d) ⟨partSuffix, rfl⟩ h.nonempty
    fs.workingDirectory
  rw [front_partPath, ← hstart]
  exact h.descends

/-- A directory that holds one file and nothing else. -/
structure HoldsOnly (fs : FileSystem) (dir : FileSystem.Id) (name content : Bytes) :
    Prop where
  /-- The file is there under its name, -/
  file : ∃ j, fs.lookup dir name = some j ∧ fs.node? j = some (.file content)
  /-- and nothing under any other one. -/
  only : ∀ other, other ≠ name → fs.lookup dir other = none

/-- In an empty directory there is nothing under any name. -/
theorem lookup_of_vacant (hi : fs.node? i = some (.directory [])) (other : Bytes) :
    fs.lookup i other = none := by
  rw [lookup, entries, hi]
  rfl

/-- What is under no name cannot be gone through. -/
theorem direct_of_vacant {stack : List FileSystem.Id} (hi : fs.node? i = some (.directory []))
    (htop : top stack = i) (h : fs.locate false d = .ok (.named stack name none)) :
    fs.Direct d := by
  have hsame : fs.removeEntry i name = fs := by
    have hentries : fs.entries i = [] := by rw [entries, hi]
    rw [removeEntry, hentries]
    exact setNode_self hi
  rw [direct_iff h, htop, hsame]
  exact h

/-- In an empty directory a file can be stored, if the part file can be
named. -/
theorem creatable_of_vacant (hfs : Proper fs) (hd : fs.Inside d i name)
    (hi : fs.node? i = some (.directory [])) (hwalk : Walkable (partPath d))
    (hshort : name.length + partSuffix.length ≤ maxName) :
    Creatable fs d ∧ withParents fs d = fs := by
  obtain ⟨stack, -, hplace⟩ := hd.locate (hwalk.above ⟨partSuffix, rfl⟩ hd.nonempty) (by omega)
  obtain ⟨stack', -, hpart⟩ := (inside_partPath hd).locate hwalk (by simpa using hshort)
  rw [lookup_of_vacant hi] at hplace hpart
  have hmade := makeParents_of_locate hfs hplace
  have hsame : withParents fs d = fs := withParents_of_locate hfs hplace
  refine ⟨⟨congrArg Prod.snd hmade, ?_, ?_⟩, hsame⟩
  · rw [hsame]
    exact ⟨stack', _, none, hpart, fun j n hj => by cases hj⟩
  · rw [hsame]
    exact ⟨stack, _, none, hplace, fun j n hj => by cases hj⟩

/-- What can be read to the end is stored in an empty directory, if the
part file can be named. -/
theorem copyToPath_vacant (hfs : Proper fs) (hd : fs.Inside d i name)
    (hi : fs.node? i = some (.directory [])) (hwalk : Walkable (partPath d))
    (hshort : name.length + partSuffix.length ≤ maxName) {r : Reader} (hr : r.There fs)
    {bytes : Bytes} (hread : (readToEnd fs r).1 = (bytes, none)) :
    (copyToPath fs (Counted.ofSource r) d).outcome = .ok bytes.length
      ∧ (copyToPath fs (Counted.ofSource r) d).reader.count = bytes.length
      ∧ HoldsOnly (copyToPath fs (Counted.ofSource r) d).files i name bytes
      ∧ (copyToPath fs (Counted.ofSource r) d).files.contentAt d = .ok bytes := by
  obtain ⟨hcreatable, hsame⟩ := creatable_of_vacant hfs hd hi hwalk hshort
  obtain ⟨fs₁, h, stack, hopen, ho, hnode⟩ := hcreatable.opens hfs
  obtain ⟨stack', htop', hpart⟩ := (inside_partPath hd).locate hwalk (by simpa using hshort)
  -- The part file is a new node: nothing had its name.
  have hplace := ho.locate
  rw [hsame, hpart] at hplace
  injection Except.ok.inj hplace with hstack
  subst hstack
  have hnew : fs.nodes.length ≤ h.node := by
    rcases ho.old with hold | ⟨-, hnew⟩
    · rw [hsame, htop', lookup_of_vacant hi] at hold
      cases hold
    · rwa [hsame] at hnew
  obtain ⟨hapart, hkept⟩ := hr.readToEnd (hsame ▸ ho) hnew hread
  have hcounted : ∀ files, readToEnd files (Counted.ofSource r) = _ :=
    fun _ => readToEnd_counted r
  have hagain : readToEnd fs₁ (Counted.ofSource r) = readToEnd fs (Counted.ofSource r) := by
    rw [hcounted, hcounted, hkept]
  have hfills : Fills fs₁ ⟨d, h⟩ (Counted.ofSource r) :=
    fills_of_blind ⟨d, h⟩ (Reader.blind h.node).counted ho.beginning hapart
  obtain ⟨houtcome, hreader, hended⟩ :=
    copyToPath_fills hfs hcreatable hopen ho hnode hfills hagain
  rw [hcounted, hread] at houtcome hended hreader
  rw [houtcome, hsame] at hended
  have hdir : fs.isDirectory (top stack') = true := by
    rw [htop', isDirectory, hi]
  obtain ⟨-, -, hstored⟩ := hended.storedAt hdir
  obtain ⟨stack, htop, hdest⟩ :=
    hd.locate (hwalk.above ⟨partSuffix, rfl⟩ hd.nonempty) (by omega)
  rw [lookup_of_vacant hi] at hdest
  refine ⟨houtcome, by rw [hreader], ?_, hstored.contentAt (direct_of_vacant hi htop hdest)⟩
  cases hended with
  | stored moved content =>
      rw [htop', hd.leaf] at moved
      refine ⟨⟨h.node, ?_, content⟩, fun other hother => ?_⟩
      · rw [moved.lookup, if_pos ⟨rfl, rfl⟩]
      · rw [moved.lookup, if_neg fun hc => hother hc.2, lookup_of_vacant hi]
        split
        · rfl
        · rfl
  | shared patch content hwhole place =>
      rw [hdest] at place
      cases place

/-- A copy fails whose part file cannot be named, and changes nothing. -/
theorem copyToPath_long {ρ : Type} [Source ρ] (hfs : Proper fs) (hd : fs.Inside d i name)
    (hwalk : Walkable d) (hshort : name.length ≤ maxName)
    (hlong : maxName < name.length + partSuffix.length) (r : ρ) :
    copyToPath fs r d = ⟨fs, r, .error (.system .invalidFilename), none⟩ := by
  obtain ⟨stack, -, hplace⟩ := hd.locate hwalk hshort
  have hmade := makeParents_of_locate hfs hplace
  have hzero : (partPath d).contains 0 = false := by
    have hbytes := hwalk.bytes
    have hsuffix : partSuffix.contains 0 = false := by decide
    rw [partPath, List.contains_append, hbytes, hsuffix]
    rfl
  have hopen := (inside_partPath hd).openToWrite_long hzero (by simpa using hlong) true
  have hcreate : PartFile.create fs d = (fs, .error (.system .invalidFilename)) := by
    simp only [PartFile.create, hmade, hopen]
  unfold copyToPath
  generalize PartFile.create fs d = created at hcreate
  subst hcreate
  rfl

end Storage

end TracedTransfer
