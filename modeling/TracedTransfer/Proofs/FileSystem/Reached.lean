/-
Files that can be reached: what operations make of an empty file system is
proper, whatever they are and in whatever order they come.

A path leads to a name in a directory (`Proper.locate_named`), so each
operation is one or two of the changes that keep a file system proper
(`Change.proper`), and a run of operations keeps it (`Reached.proper`).
-/
import TracedTransfer.Proofs.FileSystem.Path

namespace TracedTransfer.FileSystem

open Text FilePath

variable {fs fs' : FileSystem} {stack : List Id} {name : Bytes}

-- ================================================================ places

/-- A path that leads to a name leads to one in a directory. -/
theorem Proper.locate_named (hfs : Proper fs) {follow : Bool} {p : FilePath}
    {node : Option Id} (h : fs.locate follow p = .ok (.named stack name node)) :
    fs.isDirectory (top stack) = true ∧ fs.lookup (top stack) name = node := by
  cases follow with
  | false =>
      obtain ⟨-, ⟨links, hd⟩, -, -, rfl, hnode⟩ := locate_leaf.1 h
      have hdirs := descend_directories hd (start_directories hfs.working p)
      exact ⟨hfs.top_isDirectory hdirs, hnode.symm⟩
  | true =>
      obtain ⟨-, hw⟩ := locate_walk.1 h
      obtain ⟨stack', hdirs, hplace⟩ := walk_ends hw (start_directories hfs.working p)
      rcases hplace with hplace | ⟨c, hplace⟩
      · cases hplace
      · cases hplace
        exact ⟨hfs.top_isDirectory hdirs, rfl⟩

/-- A new node under a name that a path leads to. -/
theorem Proper.addEntry (hfs : Proper fs) {follow : Bool} {p : FilePath}
    {node : Option Id} (h : fs.locate follow p = .ok (.named stack name node)) {n : Node}
    (hn : ∀ es, n = .directory es → es = []) :
    Proper ((fs.addNode n).1.setEntry (top stack) name fs.nodes.length) :=
  hfs.create hn (hfs.locate_named h).1

-- ============================================================ operations

/-- What a path is opened to write comes to: a new file, a file that was
there, which is emptied if that is asked for, or something else that was
there and is no directory, as it is. -/
inductive OpensToWrite (fs : FileSystem) (truncate : Bool) (p : FilePath) :
    FileSystem → Handle → Prop
  /-- Nothing was there, and a file is made. -/
  | created {stack : List Id} {name : Bytes}
      (hplace : fs.locate true p = .ok (.named stack name none)) :
      OpensToWrite fs truncate p (fs.create (top stack) name (.file []))
        ⟨fs.nodes.length, 0⟩
  /-- A file was there, which is emptied or not. -/
  | file {stack : List Id} {name : Bytes} {i : Id} {s : Bytes}
      (hplace : fs.locate true p = .ok (.named stack name (some i)))
      (hnode : fs.node? i = some (.file s)) :
      OpensToWrite fs truncate p (if truncate then fs.setNode i (.file []) else fs) ⟨i, 0⟩
  /-- Something else was there, that is no directory. -/
  | other {stack : List Id} {name : Bytes} {i : Id}
      (hplace : fs.locate true p = .ok (.named stack name (some i)))
      (hdirectory : ∀ es, fs.node? i ≠ some (.directory es))
      (hfile : ∀ s, fs.node? i ≠ some (.file s)) : OpensToWrite fs truncate p fs ⟨i, 0⟩

/-- What it takes to open a file to be written, and what comes of it: a file
that is there, or a new one. -/
theorem openToWrite_iff {truncate : Bool} {p : FilePath} {h : Handle} :
    fs.openToWrite truncate p = .ok (fs', h) ↔ fs.OpensToWrite truncate p fs' h := by
  constructor
  · intro hopen
    unfold openToWrite at hopen
    split at hopen
    · cases hopen
    · cases hopen
    · next hplace =>
        cases hopen
        exact .created hplace
    · next hplace =>
        split at hopen
        · cases hopen
        · next hnode =>
            cases hopen
            exact .file hplace hnode
        · next hdirectory hfile =>
            cases hopen
            exact .other hplace hdirectory hfile
  -- Back, each way to open is the branch that it was read off from.
  · intro hopens
    unfold openToWrite
    cases hopens with
    | created hplace =>
        rw [hplace]
        rfl
    | file hplace hnode =>
        rw [hplace]
        simp only [hnode]
    | other hplace hdirectory hfile =>
        rw [hplace]
        dsimp only
        split
        · next hcase => exact absurd hcase (hdirectory _)
        · next hcase => exact absurd hcase (hfile _)
        · rfl

/-- Each operation on the files keeps them proper: opening, -/
theorem Proper.openToWrite (hfs : Proper fs) {truncate : Bool} {p : FilePath} {h : Handle}
    (hopen : fs.openToWrite truncate p = .ok (fs', h)) : Proper fs' := by
  cases openToWrite_iff.1 hopen with
  | created hplace => exact hfs.addEntry hplace (by simp)
  | file hplace hnode =>
      split
      · exact hfs.setNode hnode (by simp) (by simp)
      · exact hfs
  | other => exact hfs

/-- writing, -/
theorem Proper.writeHandle (hfs : Proper fs) {h h' : Handle} {data : Bytes}
    (hwrite : fs.writeHandle h data = .ok (fs', h')) : Proper fs' := by
  unfold FileSystem.writeHandle at hwrite
  split at hwrite
  · next hnode =>
      cases hwrite
      exact hfs.setNode hnode (by simp) (by simp)
  · split at hwrite
    · cases hwrite
      exact hfs
    · cases hwrite

/-- and appending. -/
theorem Proper.appendToNode (hfs : Proper fs) {i : Id} {data : Bytes}
    (happend : fs.appendToNode i data = .ok fs') : Proper fs' := by
  unfold FileSystem.appendToNode at happend
  split at happend
  · next hnode =>
      cases happend
      exact hfs.setNode hnode (by simp) (by simp)
  · split at happend
    · cases happend
      exact hfs
    · cases happend

/-- A directory is made where nothing was. -/
theorem makeDirectory_created {p : FilePath} (h : fs.makeDirectory p = .ok fs') :
    ∃ stack name, fs.locateName p = .ok (.named stack name none)
      ∧ fs' = fs.create (top stack) name (.directory []) := by
  unfold FileSystem.makeDirectory at h
  split at h
  · cases h
  · next stack name hplace =>
      cases h
      exact ⟨stack, name, hplace, rfl⟩
  · cases h

/-- So does making a directory. -/
theorem Proper.makeDirectory (hfs : Proper fs) {p : FilePath}
    (hmake : fs.makeDirectory p = .ok fs') : Proper fs' := by
  obtain ⟨stack, name, hplace, rfl⟩ := makeDirectory_created hmake
  exact hfs.addEntry hplace (by simp)

/-- Making directories keeps what making one keeps. -/
theorem makeDirectoriesWithin_keeps {P : FileSystem → Prop}
    (hP : ∀ {fs fs' : FileSystem} {p : FilePath}, P fs → fs.makeDirectory p = .ok fs' → P fs')
    (hfs : P fs) (fuel : Nat) (p : FilePath) : P (makeDirectoriesWithin fuel fs p).1 := by
  induction fuel generalizing fs p with
  | zero => exact hfs
  | succ fuel ih =>
      unfold FileSystem.makeDirectoriesWithin
      split
      · exact hfs
      · split
        · next hmake => exact hP hfs hmake
        · split
          · split
            · exact hfs
            · next up _ =>
                have hup := ih hfs up
                split
                · next hmade =>
                    rw [hmade] at hup
                    exact hup
                · next hmade =>
                    rw [hmade] at hup
                    split
                    · next hmake => exact hP hup hmake
                    · split
                      · exact hup
                      · exact hup
          · split
            · exact hfs
            · exact hfs

/-- Making several does, too, also if it fails on the way. -/
theorem Proper.makeDirectoriesWithin (hfs : Proper fs) (fuel : Nat) (p : FilePath) :
    Proper (makeDirectoriesWithin fuel fs p).1 :=
  makeDirectoriesWithin_keeps (fun hfs hmake => Proper.makeDirectory hfs hmake) hfs fuel p

/-- What making directories adds are directories. -/
theorem makeDirectoriesWithin_node? (hfs : Proper fs) (fuel : Nat) (p : FilePath) {i : Id}
    {n : Node} (hn : ∀ es, n ≠ .directory es)
    (hi : (FileSystem.makeDirectoriesWithin fuel fs p).1.node? i = some n) :
    fs.node? i = some n := by
  suffices hkeeps : Proper (FileSystem.makeDirectoriesWithin fuel fs p).1
      ∧ ((FileSystem.makeDirectoriesWithin fuel fs p).1.node? i = some n →
        fs.node? i = some n) from hkeeps.2 hi
  refine makeDirectoriesWithin_keeps (P := fun fs' => Proper fs'
    ∧ (fs'.node? i = some n → fs.node? i = some n)) ?_ ⟨hfs, id⟩ fuel p
  intro fs₁ fs₂ q h₁ hmake
  refine ⟨h₁.1.makeDirectory hmake, fun hi => h₁.2 ?_⟩
  obtain ⟨stack, name, hplace, rfl⟩ := makeDirectory_created hmake
  have hshape : (fs₁.create (top stack) name (.directory [])).shape? i = some n :=
    (node?_of_shape hn).2 hi
  rw [shape?_create (h₁.1.locate_named hplace).1] at hshape
  split at hshape
  · cases hshape
    exact absurd rfl (hn [])
  · exact (node?_of_shape hn).1 hshape

/-- What a rename makes, if it makes anything of the files. -/
theorem Proper.move (hfs : Proper fs) {source target : FilePath} {stack' : List Id}
    {name' : Bytes} {i : Id} {replaced : Option Id}
    (hs : fs.locateName source = .ok (.named stack name (some i)))
    (ht : fs.locateName target = .ok (.named stack' name' replaced)) :
    Proper ((fs.removeEntry (top stack) name).setEntry (top stack') name' i) := by
  obtain ⟨hdir, hi⟩ := hfs.locate_named hs
  obtain ⟨hdir', -⟩ := hfs.locate_named ht
  refine (hfs.removeEntry hdir name).setEntry ?_ name' ?_
  · rwa [isDirectory_congr (shape?_removeEntry hdir name _)]
  · unfold FileSystem.removeEntry
    rw [length_setNode]
    exact hfs.there hi

/-- Renaming keeps the files proper, -/
theorem Proper.rename (hfs : Proper fs) {source target : FilePath}
    (hrename : fs.rename source target = .ok fs') : Proper fs' := by
  unfold FileSystem.rename at hrename
  rcases hs : fs.locateName source with e | place
  · rw [hs] at hrename
    cases hrename
  · rcases ht : fs.locateName target with e | place'
    · rw [hs, ht] at hrename
      cases hrename
    · rw [hs, ht] at hrename
      simp only [bind, Except.bind] at hrename
      split at hrename
      · split at hrename
        · cases hrename
        · have hmove := hfs.move hs ht
          split at hrename
          · -- A directory takes the place of nothing or of an empty directory.
            split at hrename
            · cases hrename
            · split at hrename
              · exact Except.ok.inj hrename ▸ hmove
              · split at hrename
                · exact Except.ok.inj hrename ▸ hfs
                · split at hrename
                  · cases hrename
                  · split at hrename
                    · cases hrename
                    · split at hrename
                      · cases hrename
                      · exact Except.ok.inj hrename ▸ hmove
          · split at hrename
            · cases hrename
            · split at hrename
              · exact Except.ok.inj hrename ▸ hmove
              · split at hrename
                · exact Except.ok.inj hrename ▸ hfs
                · split at hrename
                  · cases hrename
                  · split at hrename
                    · cases hrename
                    · exact Except.ok.inj hrename ▸ hmove
      · cases hrename

/-- and so do removing a file -/
theorem Proper.removeFile (hfs : Proper fs) {p : FilePath}
    (hremove : fs.removeFile p = .ok fs') : Proper fs' := by
  unfold FileSystem.removeFile at hremove
  split at hremove
  · cases hremove
  · cases hremove
  · cases hremove
  · next hplace =>
      split at hremove
      · cases hremove
      · cases hremove
        exact hfs.removeEntry (hfs.locate_named hplace).1 _

/-- or a whole directory -/
theorem Proper.removeTree (hfs : Proper fs) {p : FilePath}
    (hremove : fs.removeTree p = .ok fs') : Proper fs' := by
  unfold FileSystem.removeTree at hremove
  split at hremove
  · cases hremove
  · cases hremove
  · cases hremove
  · next hplace =>
      cases hremove
      exact hfs.removeEntry (hfs.locate_named hplace).1 _

/-- and putting something into a tree by hand. -/
theorem Proper.withNode (hfs : Proper fs) (p : FilePath) {n : Node}
    (hn : ∀ es, n = .directory es → es = []) : Proper (fs.withNode p n) := by
  have hmade := hfs.makeDirectoriesWithin ((p.parent?.getD []).length + 1)
    (p.parent?.getD [])
  unfold FileSystem.withNode FileSystem.withDirectory FileSystem.makeDirectories
  dsimp only
  split
  · next hplace => exact hmade.addEntry hplace hn
  · exact hmade

/-- Programs go into a directory. -/
theorem Proper.within (hfs : Proper fs) {p : FilePath} (hp : fs.isDirectoryAt p = true) :
    Proper (fs.within p) := by
  -- The way is a way of directories, which is all that a working directory needs.
  have henter : ∀ stack, fs.Directories stack →
      Proper { fs with workingDirectory := stack } :=
    fun stack hstack => ⟨hfs.root, hstack, hfs.there⟩
  unfold FileSystem.within
  split
  · next stack hplace =>
      obtain ⟨-, hw⟩ := locate_walk.1 hplace
      obtain ⟨stack', hdirs, hends⟩ := walk_ends hw (start_directories hfs.working p)
      rcases hends with hends | ⟨c, hends⟩
      · cases hends
        exact henter stack hdirs
      · cases hends
  · next stack c i hplace =>
      obtain ⟨-, hw⟩ := locate_walk.1 hplace
      obtain ⟨stack', hdirs, hends⟩ := walk_ends hw (start_directories hfs.working p)
      have hi : fs.isDirectory i = true := by
        obtain ⟨j, hj, hdirectory⟩ := isDirectoryAt_iff_resolve.1 hp
        obtain ⟨place, hplace', hnode⟩ := resolve_ok_iff.1 hj
        rw [hplace] at hplace'
        cases hplace'
        cases hnode
        exact hdirectory
      refine henter (i :: stack) fun j hj => ?_
      rcases List.mem_cons.1 hj with rfl | hj
      · exact hi
      · rcases hends with hends | ⟨c', hends⟩
        · cases hends
        · obtain ⟨rfl, -, -⟩ := Place.named.inj hends
          exact hdirs j hj
  · exact hfs

-- ================================================================== runs

/-- One operation that changes files. What is placed from outside is no
directory with entries, and a program only goes into a directory. -/
inductive Change (fs : FileSystem) : FileSystem → Prop where
  /-- A file is opened, -/
  | openToWrite {truncate : Bool} {p : FilePath} {fs' : FileSystem} {h : Handle} :
      fs.openToWrite truncate p = .ok (fs', h) → Change fs fs'
  /-- written to -/
  | writeHandle {h h' : Handle} {data : Bytes} {fs' : FileSystem} :
      fs.writeHandle h data = .ok (fs', h') → Change fs fs'
  /-- or appended to; -/
  | appendToNode {i : Id} {data : Bytes} {fs' : FileSystem} :
      fs.appendToNode i data = .ok fs' → Change fs fs'
  /-- a directory is made, -/
  | makeDirectory {p : FilePath} {fs' : FileSystem} :
      fs.makeDirectory p = .ok fs' → Change fs fs'
  /-- or several, as far as that goes; -/
  | makeDirectories (p : FilePath) : Change fs (fs.makeDirectories p).1
  /-- something gets another name, -/
  | rename {source target : FilePath} {fs' : FileSystem} :
      fs.rename source target = .ok fs' → Change fs fs'
  /-- a file is removed -/
  | removeFile {p : FilePath} {fs' : FileSystem} :
      fs.removeFile p = .ok fs' → Change fs fs'
  /-- or a directory with all that is in it; -/
  | removeTree {p : FilePath} {fs' : FileSystem} :
      fs.removeTree p = .ok fs' → Change fs fs'
  /-- something is put into the tree by hand, -/
  | withNode (p : FilePath) {n : Node} (hn : ∀ es, n = .directory es → es = []) :
      Change fs (fs.withNode p n)
  /-- or one goes to another directory. -/
  | within {p : FilePath} (hp : fs.isDirectoryAt p = true) : Change fs (fs.within p)

/-- So does each change. -/
theorem Change.proper (h : fs.Change fs') (hfs : Proper fs) : Proper fs' := by
  cases h with
  | openToWrite hopen => exact hfs.openToWrite hopen
  | writeHandle hwrite => exact hfs.writeHandle hwrite
  | appendToNode happend => exact hfs.appendToNode happend
  | makeDirectory hmake => exact hfs.makeDirectory hmake
  | makeDirectories p => exact hfs.makeDirectoriesWithin _ p
  | rename hrename => exact hfs.rename hrename
  | removeFile hremove => exact hfs.removeFile hremove
  | removeTree hremove => exact hfs.removeTree hremove
  | withNode p hn => exact hfs.withNode p hn
  | within hp => exact hfs.within hp

/-- Files that operations make, beginning with none. -/
inductive Reached : FileSystem → Prop where
  /-- The empty tree is there to begin with, -/
  | empty : Reached empty
  /-- and any change may follow. -/
  | change {fs fs' : FileSystem} : Reached fs → fs.Change fs' → Reached fs'

/-- By induction, all that is reached from the empty tree is proper. -/
theorem Reached.proper (h : Reached fs) : Proper fs := by
  induction h with
  | empty => exact empty_proper
  | change _ hchange ih => exact hchange.proper ih

end TracedTransfer.FileSystem
