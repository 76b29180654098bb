/-
Small changes: one name and one node.

`Patch` says of two file systems that they differ in what one name leads
to and in one node, and that no path goes through either. Descents then
take the same turns, so every path leads into the same directory as
before, and only what stands under that one name there may be another
(`Patch.leads`, `locate_of_leads`). Opening, writing, renaming and
removing a file that is not a link are patches.
-/
import TracedTransfer.Proofs.FileSystem.Directories

namespace TracedTransfer.FileSystem

open Text FilePath

variable {fs fs' : FileSystem}

-- ============================================================== patches

/-- A number that no path goes through: it is that of no directory and of
no link. -/
structure Plain (fs : FileSystem) (i : Id) : Prop where
  /-- It is no directory -/
  directory : fs.isDirectory i = false
  /-- and no link. -/
  link : ∀ target, fs.node? i ≠ some (.link target)

theorem plain_of_node {i : Id} {n : Node} (h : fs.node? i = some n)
    (hd : ∀ es, n ≠ .directory es) (hl : ∀ target, n ≠ .link target) : fs.Plain i where
  directory := isDirectory_eq_false h hd
  link target ht := hl target (Option.some.inj (h.symm.trans ht))

/-- Where a node has kept its shape, what paths go through is another
one. -/
theorem Plain.ne {i j : Id} (h : fs.Plain i) (hs : fs'.shape? i = fs.shape? i)
    (hj : fs'.isDirectory j = true ∨ ∃ target, fs'.node? j = some (.link target)) :
    j ≠ i := by
  rintro rfl
  rcases hj with hd | ⟨target, hn⟩
  · rw [isDirectory_congr hs, h.directory] at hd
    cases hd
  · have hlink : ∀ es, Node.link target ≠ .directory es := by simp
    rw [← node?_of_shape hlink, hs, node?_of_shape hlink] at hn
    exact h.link target hn

/-- A change of one name, which led nowhere or to a certain node, and of
that node. -/
structure Patch (fs fs' : FileSystem) (dir : Id) (name : Bytes) (i : Id)
    (now : Option Id) : Prop where
  /-- One is in the same directory. -/
  working : fs'.workingDirectory = fs.workingDirectory
  /-- One name leads to what it now leads to, and all others to what they
  led to. -/
  lookup : ∀ dir' name', fs'.lookup dir' name'
    = if dir' = dir ∧ name' = name then now else fs.lookup dir' name'
  /-- One node may have changed. -/
  shape : ∀ j, j ≠ i → fs'.shape? j = fs.shape? j
  /-- The name led to that node or nowhere, -/
  was : fs.lookup dir name = none ∨ fs.lookup dir name = some i
  /-- which is neither a directory nor a link. -/
  plain : fs.Plain i

section Patch

variable {dir i : Id} {name : Bytes} {now : Option Id}

/-- A patch leaves all ways through directories as they were. -/
theorem Patch.leads (h : fs.Patch fs' dir name i now) : fs.Leads fs' := by
  refine leads_of_kept fun dir' name' j hl hj => ?_
  have hne := h.plain.ne rfl hj
  refine ⟨?_, h.shape j hne⟩
  rw [h.lookup, if_neg, hl]
  rintro ⟨rfl, rfl⟩
  rcases h.was with hwas | hwas
  · rw [hwas] at hl
    cases hl
  · rw [hwas] at hl
    exact hne (Option.some.inj hl).symm

/-- A path to another node leads there still. -/
theorem Patch.resolve (h : fs.Patch fs' dir name i now) {p : FilePath} {j : Id}
    (hj : j ≠ i) (hp : fs.resolve p = .ok j) : fs'.resolve p = .ok j := by
  refine resolve_mono h.leads h.working ?_ ?_ hp
  · intro dir' name' _ hl
    rw [h.lookup, if_neg, hl]
    rintro ⟨rfl, rfl⟩
    rcases h.was with hwas | hwas
    · rw [hwas] at hl
      cases hl
    · rw [hwas] at hl
      exact hj (Option.some.inj hl).symm
  · intro target hn
    have hlink : ∀ es, Node.link target ≠ .directory es := by simp
    rw [← node?_of_shape hlink] at hn ⊢
    rw [← h.shape j hj, hn]

/-- Where a name has gone, no path leads anywhere that it did not lead
to. -/
theorem Patch.resolve_back (h : fs.Patch fs' dir name i none) (hi : fs'.Plain i)
    {p : FilePath} {j : Id} (hp : fs'.resolve p = .ok j) : fs.resolve p = .ok j := by
  have hnames : ∀ dir' name' k, fs'.lookup dir' name' = some k →
      fs.lookup dir' name' = some k := by
    intro dir' name' k hl
    rw [h.lookup] at hl
    split at hl
    · cases hl
    · exact hl
  have hleads : fs'.Leads fs := leads_of_kept fun dir' name' k hl hk =>
    ⟨hnames dir' name' k hl, (h.shape k (hi.ne rfl hk)).symm⟩
  refine resolve_mono hleads h.working.symm (fun dir' name' _ => hnames dir' name' j) ?_ hp
  intro target hn
  have hlink : ∀ es, Node.link target ≠ .directory es := by simp
  have hj := h.plain.ne rfl (.inr ⟨target, hn⟩)
  rw [← node?_of_shape hlink] at hn ⊢
  rw [h.shape j hj, hn]

/-- Directories stay directories. -/
theorem Patch.isDirectory (h : fs.Patch fs' dir name i now) {j : Id}
    (hj : fs.isDirectory j = true) : fs'.isDirectory j = true := by
  have hne : j ≠ i := by
    rintro rfl
    rw [h.plain.directory] at hj
    cases hj
  rw [isDirectory_congr (h.shape j hne), hj]

/-- A patch whose node is there keeps a file system proper. -/
theorem Patch.proper (h : fs.Patch fs' dir name i now) (hfs : Proper fs)
    (hi : ∃ n, fs'.shape? i = some n) (hnow : now = none ∨ now = some i) :
    Proper fs' := by
  refine hfs.of_kept h.working (fun j hj => h.isDirectory hj) fun {dir' name' j} hl => ?_
  by_cases hji : j = i
  · obtain ⟨n, hn⟩ := hi
    rw [hji]
    exact lt_of_shape hn
  · rw [h.lookup] at hl
    split at hl
    · rcases hnow with rfl | rfl
      · cases hl
      · exact absurd (Option.some.inj hl).symm hji
    · obtain ⟨n, hn⟩ := shape?_of_lt (hfs.there hl)
      rw [← h.shape j hji] at hn
      exact lt_of_shape hn

/-- Writing to the node is part of the change. -/
theorem Patch.setNode (h : fs.Patch fs' dir name i now) {s t : Bytes}
    (hi : fs'.node? i = some (.file s)) :
    fs.Patch (fs'.setNode i (.file t)) dir name i now where
  working := h.working
  lookup dir' name' := by
    have hdir : fs'.isDirectory i = false :=
      isDirectory_eq_false hi fun es he => by cases he
    rw [lookup_setNode hdir fun es he => by cases he]
    exact h.lookup dir' name'
  shape j hj := by
    rw [shape?_setNode (lt_of_shape (shape?_of_node hi)), if_neg hj]
    exact h.shape j hj
  was := h.was
  plain := h.plain

/-- So is taking the name away. -/
theorem Patch.removeEntry (h : fs.Patch fs' dir name i now)
    (hd : fs.isDirectory dir = true) :
    fs.Patch (fs'.removeEntry dir name) dir name i none where
  working := h.working
  lookup dir' name' := by
    rw [lookup_removeEntry (h.isDirectory hd), h.lookup]
    split
    · rfl
    · rfl
  shape j hj := by
    rw [shape?_removeEntry (h.isDirectory hd)]
    exact h.shape j hj
  was := h.was
  plain := h.plain

/-- A new file under a name that led nowhere is a patch. -/
theorem patch_create (hnone : fs.lookup dir name = none)
    (hd : fs.isDirectory dir = true) (s : Bytes) :
    fs.Patch (fs.create dir name (.file s)) dir name fs.nodes.length
      (some fs.nodes.length) where
  working := rfl
  lookup := lookup_create (fun es he => by cases he) hd
  shape j hj := by rw [shape?_create hd, if_neg hj]
  was := .inl hnone
  plain := by
    have hnode : fs.node? fs.nodes.length = none :=
      List.getElem?_eq_none (Nat.le_refl _)
    constructor
    · rw [isDirectory, hnode]
    · intro target
      rw [hnode]
      intro h
      cases h

/-- Opening what a name leads to changes nothing. -/
theorem patch_self (hl : fs.lookup dir name = some i) (hi : fs.Plain i) :
    fs.Patch fs dir name i (some i) where
  working := rfl
  lookup dir' name' := by
    split
    · next h => rw [h.1, h.2, hl]
    · rfl
  shape _ _ := rfl
  was := .inr hl
  plain := hi

end Patch

-- ================================================================ moves

/-- A file that has got another name in its directory. It may have been
written before. -/
structure Moved (fs fs' : FileSystem) (dir : Id) (source target : Bytes) (i : Id) :
    Prop where
  /-- One is in the same directory. -/
  working : fs'.workingDirectory = fs.workingDirectory
  /-- One name leads to the node now, the other one nowhere, and all others
  to what they led to. -/
  lookup : ∀ dir' name', fs'.lookup dir' name'
    = if dir' = dir ∧ name' = target then some i
      else if dir' = dir ∧ name' = source then none
      else fs.lookup dir' name'
  /-- Only the node may have changed, -/
  shape : ∀ j, j ≠ i → fs'.shape? j = fs.shape? j
  /-- which is a file now. -/
  file : ∃ s, fs'.node? i = some (.file s)
  /-- The name that is gone led to it or nowhere, -/
  was : fs.lookup dir source = none ∨ fs.lookup dir source = some i
  /-- and it was neither a directory nor a link. -/
  plain : fs.Plain i

section Moved

variable {dir i : Id} {source target : Bytes}

/-- What has lost its old name gets a new one. -/
theorem Patch.moved (h : fs.Patch fs' dir source i none)
    (hd : fs.isDirectory dir = true) (hi : ∃ s, fs'.node? i = some (.file s)) :
    fs.Moved (fs'.setEntry dir target i) dir source target i where
  working := h.working
  lookup dir' name' := by
    rw [lookup_setEntry (h.isDirectory hd), h.lookup]
  shape j hj := by
    rw [shape?_setEntry (h.isDirectory hd)]
    exact h.shape j hj
  file := by
    obtain ⟨s, hs⟩ := hi
    exact ⟨s, node?_setEntry (h.isDirectory hd) target i (by simp) hs⟩
  was := h.was
  plain := h.plain

theorem Moved.plain_now (h : fs.Moved fs' dir source target i) : fs'.Plain i := by
  obtain ⟨s, hs⟩ := h.file
  exact plain_of_node hs (by simp) (by simp)

/-- Taking a name away leaves no turn that was not there. -/
theorem removeEntry_leads (hd : fs.isDirectory dir = true) (name : Bytes) :
    (fs.removeEntry dir name).Leads fs := by
  refine leads_of_kept fun dir' name' j hl _ => ?_
  rw [lookup_removeEntry hd] at hl
  split at hl
  · cases hl
  · exact ⟨hl, (shape?_removeEntry hd name j).symm⟩

/-- Paths that do not go through the new name lead where they led. -/
theorem Moved.leads (h : fs.Moved fs' dir source target i)
    (hd : fs.isDirectory dir = true) : (fs.removeEntry dir target).Leads fs' := by
  refine leads_of_kept fun dir' name' j hl hj => ?_
  have hne := h.plain.ne (shape?_removeEntry hd target i) hj
  rw [lookup_removeEntry hd] at hl
  rw [h.lookup, h.shape j hne, shape?_removeEntry hd]
  split at hl
  · cases hl
  · next hother =>
      rw [if_neg hother, if_neg]
      · exact ⟨hl, rfl⟩
      · rintro ⟨rfl, rfl⟩
        rcases h.was with hwas | hwas
        · rw [hwas] at hl
          cases hl
        · rw [hwas] at hl
          exact hne (Option.some.inj hl).symm

/-- And no path goes through the new name afterwards. -/
theorem Moved.leads_back (h : fs.Moved fs' dir source target i)
    (hd : fs.isDirectory dir = true) : fs'.Leads (fs.removeEntry dir target) := by
  refine leads_of_kept fun dir' name' j hl hj => ?_
  have hne := h.plain_now.ne rfl hj
  rw [h.lookup] at hl
  rw [lookup_removeEntry hd, shape?_removeEntry hd, h.shape j hne]
  split at hl
  · exact absurd (Option.some.inj hl).symm hne
  · next hother =>
      split at hl
      · cases hl
      · rw [if_neg hother]
        exact ⟨hl, rfl⟩

/-- A file that is there under its new name keeps a file system proper. -/
theorem Moved.proper (h : fs.Moved fs' dir source target i) (hfs : Proper fs) :
    Proper fs' := by
  have hdir : ∀ j, fs.isDirectory j = true → fs'.isDirectory j = true := by
    intro j hj
    rw [isDirectory_congr (h.shape j (h.plain.ne rfl (.inl hj))), hj]
  refine hfs.of_kept h.working hdir fun {dir' name' j} hl => ?_
  by_cases hji : j = i
  · obtain ⟨s, hs⟩ := h.file
    rw [hji]
    exact lt_of_shape (shape?_of_node hs)
  · rw [h.lookup] at hl
    split at hl
    · exact absurd (Option.some.inj hl).symm hji
    · split at hl
      · cases hl
      · obtain ⟨n, hn⟩ := shape?_of_lt (hfs.there hl)
        rw [← h.shape j hji] at hn
        exact lt_of_shape hn

end Moved

-- ============================================================== places

/-- A place shows what its name leads to. -/
theorem lookup_of_locate {p : FilePath} {stack : List Id} {name : Bytes}
    {node : Option Id} (h : fs.locate false p = .ok (.named stack name node)) :
    fs.lookup (top stack) name = node := by
  obtain ⟨-, -, -, -, rfl, hnode⟩ := locate_leaf.1 h
  exact hnode.symm

/-- Where all turns are still there, paths lead to the same places. -/
theorem locate_of_leads (h : fs.Leads fs')
    (hw : fs'.workingDirectory = fs.workingDirectory) {p : FilePath} {place : Place}
    (hp : fs.locate false p = .ok place) :
    fs'.locate false p = .ok (place.seen fs') := by
  obtain ⟨hwalk, links, stack, hd, ha⟩ := locate_iff.1 hp
  refine locate_iff.2 ⟨hwalk, links, stack, ?_, ?_⟩
  · rw [hw]
    exact descend_mono h hd
  · unfold arrive at ha ⊢
    split at ha
    · next hdot =>
        cases ha
        rw [if_pos hdot]
        rfl
    · next hdot =>
        rw [if_neg hdot]
        split at ha
        · next hdots =>
            cases ha
            rw [if_pos hdots]
            rfl
        · next hdots =>
            rw [if_neg hdots]
            split at ha
            · cases ha
            · next hlong =>
                cases ha
                rw [if_neg hlong]
                rfl

/-- A path that is no link. -/
def NoLink (fs : FileSystem) (p : FilePath) : Prop :=
  ∀ stack name i target, fs.locate false p = .ok (.named stack name (some i)) →
    fs.node? i ≠ some (.link target)

/-- At a path that is no link, a walk that follows links ends where one
that does not follow them ends. -/
theorem locate_follow {p : FilePath} (hlink : fs.NoLink p) {place : Place} :
    fs.locate true p = .ok place ↔ fs.locate false p = .ok place := by
  rw [locate_walk, locate_iff]
  refine and_congr_right fun hwalk => (walk_steps hwalk.nonempty).trans ?_
  refine exists_congr fun links => exists_congr fun stack => and_congr_right fun hd => ?_
  rw [walk_last true links]
  intro _ hdot hdots target ht
  obtain ⟨hlen, i, hl, hn⟩ := turn_along.1 ht
  refine hlink stack (lastStep (leaf p)) i target ?_ hn
  exact locate_iff.2 ⟨hwalk, links, stack, hd,
    arrive_named.2 ⟨hdot, hdots, hlen, rfl, rfl, hl.symm⟩⟩

/-- A path that leads to a node which is no link leads there also when
links are followed. -/
theorem resolve_of_locate {p : FilePath} {stack : List Id} {name : Bytes} {i : Id}
    (h : fs.locate false p = .ok (.named stack name (some i)))
    (hi : ∀ target, fs.node? i ≠ some (.link target)) : fs.resolve p = .ok i := by
  have hlink : fs.NoLink p := by
    intro stack' name' j target h' hn
    rw [h] at h'
    cases h'
    exact hi target hn
  exact resolve_ok_iff.2 ⟨_, (locate_follow hlink).2 h, rfl⟩

/-- A path that led to a free name leads to what has got it. -/
theorem Patch.resolve_named {p : FilePath} {stack : List Id} {name : Bytes} {i : Id}
    (h : fs.Patch fs' (top stack) name i (some i)) (hi : fs'.Plain i)
    (hp : fs.locate true p = .ok (.named stack name none)) : fs'.resolve p = .ok i := by
  obtain ⟨hwalk, hwalked⟩ := locate_walk.1 hp
  have hname : fs'.lookup (top stack) name = some i := by rw [h.lookup, if_pos ⟨rfl, rfl⟩]
  have hseen := walk_seen h.leads hwalked <| by
    rintro _ _ _ ⟨⟩ target hturn
    obtain ⟨-, j, hj, hn⟩ := turn_along.1 hturn
    rw [hname] at hj
    cases hj
    exact hi.link target hn
  rw [← h.working, Place.seen, hname] at hseen
  exact resolve_ok_iff.2 ⟨_, locate_walk.2 ⟨hwalk, hseen⟩, rfl⟩

/-- Reading is a matter of the node that a path leads to. -/
theorem contentAt_of_plain {p : FilePath} {i : Id} (h : fs.resolve p = .ok i)
    (hi : fs.Plain i) : fs.contentAt p = .ok (fs.content i) := by
  rw [contentAt, h]
  simp only [hi.directory, Bool.false_eq_true, if_false]

/-- The content at a path is that of what it resolves to. -/
theorem contentAt_of_resolve {p : FilePath} {i : Id} {s : Bytes}
    (h : fs.resolve p = .ok i) (hi : fs.node? i = some (.file s)) :
    fs.contentAt p = .ok s := by
  rw [contentAt_of_plain h (plain_of_node hi (by simp) (by simp)), content, hi]

/-- What can be read is a file or a device. -/
theorem resolve_of_contentAt {p : FilePath} (h : fs.contentAt p = .ok s) :
    ∃ j, fs.resolve p = .ok j ∧ fs.isDirectory j = false := by
  unfold contentAt at h
  rcases hr : fs.resolve p with e | j
  · rw [hr] at h
    cases h
  · rw [hr] at h
    dsimp only at h
    split at h
    · cases h
    · next hd => exact ⟨j, rfl, Bool.eq_false_iff.2 hd⟩

/-- It is the same where that has the same shape, -/
theorem contentAt_congr {p : FilePath} {i : Id} (h : fs.resolve p = .ok i)
    (h' : fs'.resolve p = .ok i) (hs : fs'.shape? i = fs.shape? i) :
    fs'.contentAt p = fs.contentAt p := by
  rw [contentAt, contentAt, h, h']
  simp only [isDirectory_congr hs, content_eq, hs]

/-- and that of what is located there if no link is followed. -/
theorem contentAt_of_locate {p : FilePath} {stack : List Id} {name : Bytes} {i : Id}
    {s : Bytes} (h : fs.locate false p = .ok (.named stack name (some i)))
    (hi : fs.node? i = some (.file s)) : fs.contentAt p = .ok s := by
  refine contentAt_of_resolve (resolve_of_locate h fun target hn => ?_) hi
  rw [hi] at hn
  cases hn

-- ========================================================= what is kept

/-- A name that leads where it led: to the same node, with the same
content. A directory may have other entries. -/
structure Kept (fs fs' : FileSystem) (dir : Id) (name : Bytes) : Prop where
  /-- The name leads to what it led to, -/
  lookup : fs'.lookup dir name = fs.lookup dir name
  /-- and that is as it was. -/
  shape : ∀ i, fs.lookup dir name = some i → fs'.shape? i = fs.shape? i

theorem Kept.refl (fs : FileSystem) (dir : Id) (name : Bytes) : fs.Kept fs dir name :=
  ⟨rfl, fun _ _ => rfl⟩

/-- The entry that a path names. -/
def Names (fs : FileSystem) (p : FilePath) (dir : Id) (name : Bytes) : Prop :=
  ∃ stack node, fs.locate false p = .ok (.named stack name node) ∧ dir = top stack

/-- The node that stands at a path, which may be a link. -/
def NodeAt (fs : FileSystem) (p : FilePath) (i : Id) : Prop :=
  ∃ stack name, fs.locate false p = .ok (.named stack name (some i))

/-- Nothing is at a path. -/
def Absent (fs : FileSystem) (p : FilePath) : Prop :=
  ∀ place i, fs.locate false p = .ok place → place.node ≠ .ok i

/-- Where no turn is there that was not there, nothing is at a path whose
name has gone. -/
theorem absent_of_leads (h : fs'.Leads fs)
    (hw : fs'.workingDirectory = fs.workingDirectory) {p : FilePath}
    {stack : List Id} {name : Bytes} {old : Option Id}
    (hp : fs.locate false p = .ok (.named stack name old))
    (hnone : fs'.lookup (top stack) name = none) : fs'.Absent p := by
  intro place i hplace
  have hseen := locate_of_leads h hw.symm hplace
  rw [hp] at hseen
  cases place with
  | unnamed stack' => cases hseen
  | named stack' name' node =>
      cases hseen
      rw [← lookup_of_locate hplace, hnone]
      simp [Place.node]

/-- A path to a name that is reached without going through that name. -/
def Direct (fs : FileSystem) (p : FilePath) : Prop :=
  ∀ stack name node, fs.locate false p = .ok (.named stack name node) →
    (fs.removeEntry (top stack) name).locate false p = .ok (.named stack name none)

/-- A path goes directly to its place if it does so without what stands
there. -/
theorem direct_iff {p : FilePath} {stack : List Id} {name : Bytes} {node : Option Id}
    (h : fs.locate false p = .ok (.named stack name node)) : fs.Direct p
      ↔ (fs.removeEntry (top stack) name).locate false p
        = .ok (.named stack name none) := by
  constructor
  · intro hp
    exact hp stack name node h
  · intro hgone stack' name' node' h'
    rw [h] at h'
    cases h'
    exact hgone

/-- Only links and directories can be gone through. -/
theorem direct_of_plain {p : FilePath} {stack : List Id} {name : Bytes} {i : Id}
    (h : fs.locate false p = .ok (.named stack name (some i))) (hi : fs.Plain i) :
    fs.Direct p := by
  have hl := lookup_of_locate h
  have hd := isDirectory_of_lookup hl
  have hpatch := (patch_self hl hi).removeEntry hd
  have hplace := locate_of_leads hpatch.leads hpatch.working h
  rw [Place.seen, hpatch.lookup, if_pos ⟨rfl, rfl⟩] at hplace
  exact (direct_iff h).2 hplace

/-- A path that is no file with a second name. -/
def NotShared (fs : FileSystem) (p : FilePath) : Prop :=
  ∀ stack name i s, fs.locate false p = .ok (.named stack name (some i)) →
    fs.node? i = some (.file s) →
    ∀ dir name', fs.lookup dir name' = some i → dir = top stack ∧ name' = name

-- ============================================================== opening

/-- An open file that a path which is no link leads to: the path's front
descends to a directory, and opening was a change of the leaf there. -/
structure Opened (fs fs' : FileSystem) (p : FilePath) (h : Handle)
    (stack : List Id) : Prop where
  /-- The path can be walked, -/
  walkable : Walkable p
  /-- it leads to the directory, -/
  descends : ∃ links, fs.descend maxLinks (start fs.workingDirectory p)
    (dirs (front p)) = .ok (links, stack)
  /-- and its leaf is a name -/
  named : leaf p ≠ [] ∧ leaf p ≠ dot ∧ leaf p ≠ dotDot
  /-- that is short enough for an entry. -/
  short : (leaf p).length ≤ maxName
  /-- Writing starts in front. -/
  beginning : h.offset = 0
  /-- Nothing else is changed than the file and its name. -/
  patch : fs.Patch fs' (top stack) (leaf p) h.node (some h.node)
  /-- The file is empty now, or is a device that is full. -/
  node : fs'.node? h.node = some (.file [])
      ∧ (∀ n, fs.node? h.node = some n → ∃ s, n = .file s)
    ∨ fs'.node? h.node = some .full ∧ fs' = fs
  /-- It was there under that name, or it is new. -/
  old : fs.lookup (top stack) (leaf p) = some h.node
    ∨ fs.lookup (top stack) (leaf p) = none ∧ fs.nodes.length ≤ h.node

/-- A file that is opened without following a link is opened where its path
is located; -/
theorem openToWrite_opened (hfs : Proper fs) {p : FilePath} {h : Handle}
    (hlink : fs.NoLink p) (hopen : fs.openToWrite true p = .ok (fs', h)) :
    ∃ stack, fs.Opened fs' p h stack := by
  cases openToWrite_iff.1 hopen with
  | created hplace =>
      obtain ⟨hdir, hnone⟩ := hfs.locate_named hplace
      obtain ⟨hwalk, hd, hleaf, hshort, rfl, -⟩ :=
        locate_leaf.1 ((locate_follow hlink).1 hplace)
      have hold : ∀ n, fs.node? fs.nodes.length = some n → ∃ s, n = .file s := by
        intro n hn
        exact absurd (lt_of_shape (shape?_of_node hn)) (Nat.lt_irrefl _)
      exact ⟨_, hwalk, hd, hleaf, hshort, rfl, patch_create hnone hdir [],
        .inl ⟨node?_create hdir _ _, hold⟩, .inr ⟨hnone, Nat.le_refl _⟩⟩
  | file hplace hnode =>
      obtain ⟨-, hlookup⟩ := hfs.locate_named hplace
      obtain ⟨hwalk, hd, hleaf, hshort, rfl, -⟩ :=
        locate_leaf.1 ((locate_follow hlink).1 hplace)
      have hpatch := patch_self hlookup (plain_of_node hnode (by simp) (by simp))
      have hnew := node?_setNode (n := .file []) (lt_of_shape (shape?_of_node hnode))
      exact ⟨_, hwalk, hd, hleaf, hshort, rfl, hpatch.setNode hnode,
        .inl ⟨(hnew _).trans (if_pos rfl),
          fun n hn => ⟨_, Option.some.inj (hn.symm.trans hnode)⟩⟩, .inl hlookup⟩
  | @other stack name i hplace hdirectory hfile =>
      obtain ⟨-, hlookup⟩ := hfs.locate_named hplace
      have hthere := (locate_follow hlink).1 hplace
      obtain ⟨hwalk, hd, hleaf, hshort, rfl, -⟩ := locate_leaf.1 hthere
      -- What is neither a file nor a directory nor a link is a device.
      have hfull : fs.node? i = some .full := by
        rcases hn : fs.node? i with _ | n
        · exact absurd (hfs.there hlookup) (Nat.not_lt.2 (List.getElem?_eq_none_iff.1 hn))
        · cases n with
          | file s => exact absurd hn (hfile s)
          | directory es => exact absurd hn (hdirectory es)
          | link target => exact absurd hn (hlink _ _ i target hthere)
          | full => rfl
      exact ⟨_, hwalk, hd, hleaf, hshort, rfl,
        patch_self hlookup (plain_of_node hfull (by simp) (by simp)), .inr ⟨hfull, rfl⟩,
        .inl hlookup⟩

section Opened

variable {fs₁ fs₂ : FileSystem} {p : FilePath} {h : Handle} {stack : List Id}

/-- so it is located there, -/
theorem Opened.locate (ho : fs.Opened fs₁ p h stack) : fs.locate false p
    = .ok (.named stack (leaf p) (fs.lookup (top stack) (leaf p))) := by
  exact locate_leaf.2 ⟨ho.walkable, ho.descends, ho.named, ho.short, rfl, rfl⟩

/-- in a directory. -/
theorem Opened.isDirectory_top (hfs : Proper fs) (ho : fs.Opened fs₁ p h stack) :
    fs.isDirectory (top stack) = true := (hfs.locate_named ho.locate).1

/-- Of what was there before, the file that is open is what stands at the
path. -/
theorem Opened.nodeAt_iff (ho : fs.Opened fs₁ p h stack) {i : Id}
    (hi : i < fs.nodes.length) : fs.NodeAt p i ↔ i = h.node := by
  have hplace := ho.locate
  constructor
  · rintro ⟨stack', name, hthere⟩
    rw [hplace] at hthere
    rcases ho.old with hold | ⟨hnone, -⟩
    · rw [hold] at hthere
      cases hthere
      rfl
    · rw [hnone] at hthere
      cases hthere
  · rintro rfl
    rcases ho.old with hold | ⟨-, hnew⟩
    · rw [hold] at hplace
      exact ⟨stack, leaf p, hplace⟩
    · exact absurd hi (Nat.not_lt.2 hnew)

/-- While the name leads to the open file, so does the path. -/
theorem Opened.locate_patch (ho : fs.Opened fs₁ p h stack) {now : Option Id}
    (hp : fs.Patch fs₂ (top stack) (leaf p) h.node now) :
    fs₂.locate false p = .ok (.named stack (leaf p) now) := by
  rw [locate_of_leads hp.leads hp.working ho.locate, Place.seen, hp.lookup,
    if_pos ⟨rfl, rfl⟩]

/-- The file can be removed again as long as it is an entry of that
directory. -/
theorem Opened.removeFile (ho : fs.Opened fs₁ p h stack)
    (hp : fs.Patch fs₂ (top stack) (leaf p) h.node (some h.node))
    (hnode : fs₂.isDirectory h.node = false) :
    fs₂.removeFile p = .ok (fs₂.removeEntry (top stack) (leaf p)) := by
  unfold FileSystem.removeFile
  rw [ho.locate_patch hp]
  simp only [hnode, Bool.false_eq_true, if_false]

end Opened

-- ============================================================ renaming

/-- What a rename of something that is no directory does if it succeeds. -/
theorem rename_ok {source target : FilePath} {stack : List Id} {name : Bytes}
    {i : Id} (hs : fs.locateName source = .ok (.named stack name (some i)))
    (hi : fs.isDirectory i = false) (h : fs.rename source target = .ok fs') :
    asksForDirectory target = false ∧ ∃ stack' name' old,
      fs.locateName target = .ok (.named stack' name' old)
      ∧ (old = some i ∧ fs' = fs
        ∨ old ≠ some i ∧ (∀ j, old = some j → fs.isDirectory j = false)
          ∧ fs' = (fs.removeEntry (top stack) name).setEntry (top stack') name' i) := by
  unfold rename at h
  rw [hs] at h
  rcases ht : fs.locateName target with e | place
  · rw [ht] at h
    cases h
  · rw [ht] at h
    cases place with
    | unnamed stack' => cases h
    | named stack' name' old =>
        simp only [bind, Except.bind, hi, Bool.false_eq_true, if_false] at h
        split at h
        · cases h
        · next hask =>
            rw [Bool.or_eq_true, not_or] at hask
            refine ⟨Bool.eq_false_iff.2 hask.2, stack', name', old, rfl, ?_⟩
            -- What has the name may be the node itself, and then nothing happens; otherwise it
            -- must not be a directory.
            cases old with
            | none =>
                cases h
                exact .inr ⟨by simp, by simp, rfl⟩
            | some j =>
                dsimp only at h
                split at h
                · next hij =>
                    cases h
                    exact .inl ⟨congrArg some hij.symm, rfl⟩
                · next hij =>
                    split at h
                    · cases h
                    · split at h
                      · cases h
                      · next hdir =>
                          cases h
                          refine .inr ⟨fun he => hij (Option.some.inj he).symm, ?_, rfl⟩
                          intro k hk
                          rw [← Option.some.inj hk]
                          exact Bool.eq_false_iff.2 hdir

/-- Only a directory keeps a file from getting a name. -/
theorem rename_error {source target : FilePath} {stack stack' : List Id}
    {name name' : Bytes} {i : Id} {old : Option Id} {e : Io.Error}
    (hs : fs.locateName source = .ok (.named stack name (some i)))
    (hi : fs.isDirectory i = false) (hsource : asksForDirectory source = false)
    (ht : fs.locateName target = .ok (.named stack' name' old))
    (htarget : asksForDirectory target = false) (h : fs.rename source target = .error e) :
    ∃ j, old = some j ∧ (j ∈ stack ∨ fs.isDirectory j = true) := by
  unfold rename at h
  rw [hs, ht] at h
  simp only [bind, Except.bind, hi, hsource, htarget, Bool.or_self, Bool.false_eq_true,
    if_false] at h
  cases old with
  | none => cases h
  | some j =>
      refine ⟨j, rfl, ?_⟩
      dsimp only at h
      split at h
      · cases h
      · split at h
        · next hcontains => exact .inl (List.contains_iff_mem.1 hcontains)
        · split at h
          · next hdir => exact .inr hdir
          · cases h

end TracedTransfer.FileSystem
