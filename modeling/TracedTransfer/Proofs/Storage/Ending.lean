/-
How a copy to a path ends.

Once the part file is open a copy ends in one of three ways (`Ended`): the
part file has been taken away, it has got the destination's name, or it
had that name before, as a file with two names does. Which one it is, and
what is in the file, depends on what the reader brings and on nothing else
about it (`copyToPath_congr`). The rest of this module says of all endings
what they leave of names and nodes, and where the destination leads then.
-/
import TracedTransfer.Proofs.Storage.PartFile

namespace TracedTransfer.Storage

open Text Io FileSystem FilePath

variable {fs : FileSystem}

-- ============================================================= endings

section copyToPath

variable {ρ : Type} [Source ρ] {made fs₁ : FileSystem} {d : FilePath}
  {h : Handle} {stack : List FileSystem.Id} {r : ρ}

/-- How a copy ends whose part file was open: what it answers, and what it
leaves of the files, told from those with the directories above the
destination. `data` is what the reader brings. -/
inductive Ended (made : FileSystem) (d : FilePath) (node : FileSystem.Id)
    (stack : List FileSystem.Id) (data : Bytes × Option Error) :
    Except Error Nat → FileSystem → Prop where
  /-- The part file has been taken away again. A device is not written
  to. If all was brought, it was in the way, or the destination is nothing
  that could be read. -/
  | failed {e : Error} {files : FileSystem}
      (gone : made.Patch files (top stack) (partName d) node none)
      (there : node < files.nodes.length) (plain : files.Plain node)
      (device : made.node? node = some .full → files.shape? node = made.shape? node)
      (reason : data.2 = none → made.node? node = some .full
        ∨ ∀ t, made.contentAt d ≠ .ok t) :
      Ended made d node stack data (.error e) files
  /-- The part file has the destination's name. -/
  | stored {files : FileSystem}
      (moved : made.Moved files (top stack) (partName d) (leaf d) node)
      (content : files.node? node = some (.file data.1)) (whole : data.2 = none)
      (place : made.locate false d
        = .ok (.named stack (leaf d) (made.lookup (top stack) (leaf d))))
      (old : ∀ j, made.lookup (top stack) (leaf d) = some j →
        made.isDirectory j = false)
      (device : made.node? node ≠ some .full) :
      Ended made d node stack data (.ok data.1.length) files
  /-- The part file had the destination's name all along, as another
  one. -/
  | shared {files : FileSystem}
      (patch : made.Patch files (top stack) (partName d) node (some node))
      (content : files.node? node = some (.file data.1)) (whole : data.2 = none)
      (place : made.locate false d = .ok (.named stack (leaf d) (some node)))
      (device : made.node? node ≠ some .full) :
      Ended made d node stack data (.ok data.1.length) files

/-- A part file that is taken away is an end. -/
theorem ended_removed {node : FileSystem.Id} {data : Bytes × Option Error} {e : Error}
    {fs₂ : FileSystem} {n : Node} (hdir : made.isDirectory (top stack) = true)
    (hp : made.Patch fs₂ (top stack) (partName d) node (some node))
    (hn : fs₂.node? node = some n) (hnd : ∀ es, n ≠ .directory es)
    (hnl : ∀ target, n ≠ .link target)
    (hdevice : made.node? node = some .full → fs₂ = made)
    (hreason : data.2 = none → made.node? node = some .full
      ∨ ∀ t, made.contentAt d ≠ .ok t) :
    Ended made d node stack data (.error e)
      (fs₂.removeEntry (top stack) (partName d)) := by
  have hdir₂ := hp.isDirectory hdir
  have hn₂ := node?_removeEntry hdir₂ (partName d) hnd hn
  refine .failed (hp.removeEntry hdir) (lt_of_shape (shape?_of_node hn₂))
    (plain_of_node hn₂ hnd hnl) (fun hfull => ?_) hreason
  rw [shape?_removeEntry hdir₂, hdevice hfull]

-- ========================================================= what is left

section Ended

variable {node : FileSystem.Id} {data : Bytes × Option Error}
  {outcome : Except Error Nat} {files : FileSystem}

/-- However a copy has ended, the files are proper. -/
theorem Ended.proper (h : Ended made d node stack data outcome files)
    (hmade : Proper made) : Proper files := by
  cases h with
  | failed gone there => exact gone.proper hmade (shape?_of_lt there) (.inl rfl)
  | stored moved => exact moved.proper hmade
  | shared patch content =>
      exact patch.proper hmade ⟨_, shape?_of_node content⟩ (.inr rfl)

/-- Names other than those of the two files lead where they led. That of
the destination does so after a failure. -/
theorem Ended.lookup (h : Ended made d node stack data outcome files)
    {dir : FileSystem.Id} {name : Bytes} (hpart : ¬(dir = top stack ∧ name = partName d))
    (hd : ¬(dir = top stack ∧ name = leaf d) ∨ ∃ e, outcome = .error e) :
    files.lookup dir name = made.lookup dir name := by
  cases h with
  | failed gone => rw [gone.lookup, if_neg hpart]
  | stored moved =>
      rcases hd with hd | ⟨e, he⟩
      · rw [moved.lookup, if_neg hd, if_neg hpart]
      · cases he
  | shared patch => rw [patch.lookup, if_neg hpart]

/-- No other node than that of the part file has changed, and a device has
not either. -/
theorem Ended.shape (h : Ended made d node stack data outcome files)
    {j : FileSystem.Id} (hj : j ≠ node ∨ made.node? j = some .full) :
    files.shape? j = made.shape? j := by
  by_cases hne : j = node
  · have hfull := hj.resolve_left (· hne)
    subst hne
    cases h with
    | failed _ _ _ device _ => exact device hfull
    | stored _ _ _ _ _ device => exact absurd hfull device
    | shared _ _ _ _ device => exact absurd hfull device
  · cases h with
    | failed gone => exact gone.shape j hne
    | stored moved => exact moved.shape j hne
    | shared patch => exact patch.shape j hne

/-- The entry that a destination names is a file with a content, in the
place of what was no directory. The destination leads there, unless its
own directory was only reached through what was there. -/
def StoredAt (made files : FileSystem) (d : FilePath) (content : Bytes) : Prop :=
  ∃ stack name old i, made.locate false d = .ok (.named stack name old)
    ∧ (∀ j, old = some j → made.isDirectory j = false)
    ∧ files.lookup (top stack) name = some i ∧ files.node? i = some (.file content)
    ∧ (made.Direct d ↔ files.locate false d = .ok (.named stack name (some i)))

/-- A destination that leads to what is stored there can be read. -/
theorem StoredAt.contentAt {content : Bytes} (h : StoredAt made files d content)
    (hd : made.Direct d) : files.contentAt d = .ok content := by
  obtain ⟨stack, name, old, i, -, -, -, hnode, hplace⟩ := h
  exact contentAt_of_locate (hplace.1 hd) hnode

/-- A copy that succeeds has stored all that was brought. -/
theorem Ended.storedAt {n : Nat} (h : Ended made d node stack data (.ok n) files)
    (hdir : made.isDirectory (top stack) = true) :
    data.2 = none ∧ n = data.1.length ∧ StoredAt made files d data.1 := by
  cases h with
  | stored moved content whole place old =>
      refine ⟨whole, rfl, stack, leaf d, _, node, place, old, ?_, content, ?_⟩
      · rw [moved.lookup, if_pos ⟨rfl, rfl⟩]
      · rw [direct_iff place]
        constructor
        · intro hgone
          have hplace := locate_of_leads (moved.leads hdir) moved.working hgone
          rwa [Place.seen, moved.lookup, if_pos ⟨rfl, rfl⟩] at hplace
        · intro hplace
          have hgone := locate_of_leads (moved.leads_back hdir) moved.working.symm hplace
          rwa [Place.seen, lookup_removeEntry hdir, if_pos ⟨rfl, rfl⟩] at hgone
  | shared patch content whole place =>
      have hother : ¬(top stack = top stack ∧ leaf d = partName d) :=
        fun hc => leaf_ne_partName d hc.2
      have hl := lookup_of_locate place
      refine ⟨whole, rfl, stack, leaf d, _, node, place, ?_, ?_, content, ?_⟩
      · rintro j hj
        cases hj
        exact patch.plain.directory
      · rw [patch.lookup, if_neg hother, hl]
      · have hplace := locate_of_leads patch.leads patch.working place
        rw [Place.seen, patch.lookup, if_neg hother, hl] at hplace
        exact iff_of_true (direct_of_plain place patch.plain) hplace

/-- The place of a destination is beside that of its part file. -/
theorem place_of_destination {handle : Handle}
    (ho : made.Opened fs₁ (partPath d) handle stack) {stack' : List FileSystem.Id}
    {name : Bytes} {old : Option FileSystem.Id}
    (h : made.locate false d = .ok (.named stack' name old)) :
    stack' = stack ∧ name = leaf d := by
  have hd := (locate_iff.1 h).1.nonempty
  rw [locate_destination ho (.refl made) rfl hd] at h
  obtain ⟨-, -, hstack, hname, -⟩ := arrive_leaf.1 h
  exact ⟨hstack, hname⟩

/-- A copy that does not fail had a name to give. -/
theorem Ended.names (h : Ended made d node stack data outcome files) :
    made.Names d (top stack) (leaf d) ∨ ∃ e, outcome = .error e := by
  cases h with
  | failed => exact .inr ⟨_, rfl⟩
  | stored _ _ _ place => exact .inl ⟨stack, _, place, rfl⟩
  | shared _ _ _ place => exact .inl ⟨stack, _, place, rfl⟩

/-- The names that other paths have are kept. -/
theorem Ended.lookup_of_names (h : Ended made d node stack data outcome files)
    {handle : Handle} (ho : made.Opened fs₁ (partPath d) handle stack)
    {dir : FileSystem.Id} {name : Bytes} (hpart : ¬made.Names (partPath d) dir name)
    (hd : ¬made.Names d dir name ∨ ∃ e, outcome = .error e) :
    files.lookup dir name = made.lookup dir name := by
  have hplace := ho.locate
  rw [leaf_partPath] at hplace
  refine h.lookup ?_ ?_
  · rintro ⟨rfl, rfl⟩
    exact hpart ⟨stack, _, hplace, rfl⟩
  · rcases h.names with hnames | hfailed
    · refine hd.imp_left fun hd => ?_
      rintro ⟨rfl, rfl⟩
      exact hd hnames
    · exact .inr hfailed

/-- After a failure a destination leads where it led. -/
theorem Ended.locate {e : Error} (h : Ended made d node stack data (.error e) files)
    {handle : Handle} (ho : made.Opened fs₁ (partPath d) handle stack) (place : Place) :
    files.locate false d = .ok place ↔ made.locate false d = .ok place := by
  cases h with
  | failed gone =>
      by_cases hd : d = []
      · subst hd
        constructor
        · intro hplace
          exact absurd rfl (locate_iff.1 hplace).1.nonempty
        · intro hplace
          exact absurd rfl (locate_iff.1 hplace).1.nonempty
      · have hother : lastStep (leaf d) ≠ partName d := by
          unfold lastStep
          split
          · exact Ne.symm (partName_named d).2.1
          · exact leaf_ne_partName d
        have hlookup : files.lookup (top stack) (lastStep (leaf d))
            = made.lookup (top stack) (lastStep (leaf d)) := by
          rw [gone.lookup, if_neg fun hc => hother hc.2]
        have harrive : files.arrive stack (lastStep (leaf d))
            = made.arrive stack (lastStep (leaf d)) := by
          unfold arrive
          rw [hlookup]
        rw [locate_destination ho gone.leads gone.working hd, harrive,
          locate_destination ho (.refl made) rfl hd]

/-- After a failure a path reads as it read, unless it leads to the part
file. -/
theorem Ended.contentAt {e : Error} (h : Ended made d node stack data (.error e) files)
    {p : FilePath} (hp : made.resolve p ≠ .ok node) :
    (files.contentAt p).toOption = (made.contentAt p).toOption := by
  cases h with
  | failed gone _ plain =>
      rcases hmade : made.resolve p with k | j
      · rcases hfiles : files.resolve p with k' | j
        · rw [FileSystem.contentAt, FileSystem.contentAt, hmade, hfiles]
          rfl
        · rw [gone.resolve_back plain hfiles] at hmade
          cases hmade
      · have hj : j ≠ node := by
          rintro rfl
          exact hp hmade
        rw [contentAt_congr hmade (gone.resolve hj hmade) (gone.shape j hj)]

/-- A file that could be read is only not replaced by all that was brought
if a device is in the place of its part file. -/
theorem Ended.full_of_contentAt {e : Error}
    (h : Ended made d node stack data (.error e) files) (hdata : data.2 = none)
    {t : Bytes} (ht : made.contentAt d = .ok t) : made.node? node = some .full := by
  cases h with
  | failed _ _ _ _ reason => exact (reason hdata).resolve_right fun h => h t ht

/-- A copy to a device does not succeed. -/
theorem Ended.device {n : Nat} (h : Ended made d node stack data (.ok n) files) :
    made.node? node ≠ some .full := by
  cases h with
  | stored _ _ _ _ _ device => exact device
  | shared _ _ _ _ device => exact device

/-- The part file is gone, unless it is the destination under another
name. -/
theorem Ended.absent (h : Ended made d node stack data outcome files)
    (hdir : made.isDirectory (top stack) = true) {handle : Handle}
    (ho : made.Opened fs₁ (partPath d) handle stack)
    (hother : made.lookup (top stack) (leaf d) = some node →
      made.node? node = some .full) :
    files.Absent (partPath d) := by
  have hplace := ho.locate
  rw [leaf_partPath] at hplace
  cases h with
  | failed gone =>
      have hnone := locate_of_leads gone.leads gone.working hplace
      rw [Place.seen, gone.lookup, if_pos ⟨rfl, rfl⟩] at hnone
      intro place i hp
      rw [hnone] at hp
      cases hp
      simp [Place.node]
  | stored moved =>
      refine absent_of_leads ((moved.leads_back hdir).trans (removeEntry_leads hdir _))
        moved.working hplace ?_
      rw [moved.lookup, if_neg fun hc => leaf_ne_partName d hc.2.symm, if_pos ⟨rfl, rfl⟩]
  | shared _ _ _ place device => exact absurd (hother (lookup_of_locate place)) device

end Ended

-- ============================================================= the copy

/-- Whatever is to be copied, a copy fails for want of a directory or of a
part file, or the part file is open. -/
theorem copyToPath_begins (ρ : Type) [Source ρ] (fs : FileSystem) (d : FilePath) :
    (∃ e, (PartFile.makeParents fs d).2 = some e
      ∧ ∀ r : ρ, copyToPath fs r d = ⟨withParents fs d, r, .error e, none⟩)
    ∨ PartFile.makeParents fs d = (withParents fs d, none)
      ∧ ((∃ e, (withParents fs d).openToWrite true (partPath d) = .error e
          ∧ ∀ r : ρ, copyToPath fs r d = ⟨withParents fs d, r, .error e, none⟩)
        ∨ ∃ fs₁ h, (withParents fs d).openToWrite true (partPath d)
          = .ok (fs₁, h)) := by
  unfold withParents copyToPath PartFile.create
  rcases PartFile.makeParents fs d with ⟨made, _ | e⟩
  · right
    refine ⟨rfl, ?_⟩
    rcases hopen : made.openToWrite true (partPath d) with e | ⟨fs₁, h⟩
    · left
      refine ⟨e, rfl, fun r => ?_⟩
      simp only [hopen]
    · right
      exact ⟨fs₁, h, rfl⟩
  · left
    exact ⟨e, rfl, fun r => rfl⟩

/-- A copy with a part file goes on with what it has open. -/
theorem copyToPath_eq (hparents : PartFile.makeParents fs d = (made, none))
    (hopen : made.openToWrite true (partPath d) = .ok (fs₁, h)) :
    copyToPath fs r d =
      let copied := copy Prod.fst PartFile.writer r (fs₁, ⟨d, h⟩)
      match copied.outcome with
      | .ok n =>
        let closed := copied.state.2.commit copied.state.1
        ⟨closed.files, copied.reader, closed.outcome.map fun _ => n, closed.removal⟩
      | .error e =>
        let removed := copied.state.2.remove copied.state.1
        ⟨removed.1, copied.reader, .error e, removed.2⟩ := by
  have hcreate : PartFile.create fs d = (fs₁, .ok ⟨d, h⟩) := by
    simp only [PartFile.create, hparents, hopen]
  unfold copyToPath
  -- The outcome of `create` is read through a pair: let it be known first.
  generalize PartFile.create fs d = created at hcreate
  subst hcreate
  rfl

/-- The end of a copy all of which is in the part file. -/
theorem ended_commit {part : PartFile} {fs₂ : FileSystem} {data : Bytes × Option Error}
    (hmade : Proper made) (ho : made.Opened fs₁ (partPath d) h stack)
    (hpart : part.destination = d) (hhandle : part.handle.node = h.node)
    (hp : made.Patch fs₂ (top stack) (partName d) h.node (some h.node))
    (hcontent : fs₂.node? h.node = some (.file data.1)) (hwhole : data.2 = none)
    (hdevice : made.node? h.node ≠ some .full) :
    Ended made d h.node stack data ((part.commit fs₂).outcome.map fun _ => data.1.length)
      (part.commit fs₂).files := by
  have hdir := ho.isDirectory_top hmade
  rcases commit_spec part hmade ho hpart hhandle hp hcontent
    with ⟨e, hcommit, hunreadable⟩ | ⟨hplace, fs₃, hcommit, hcases⟩
  · rw [hcommit]
    exact ended_removed hdir hp hcontent (by simp) (by simp)
      (fun hfull => absurd hfull hdevice) fun _ => .inr hunreadable
  · rw [hcommit]
    rcases hcases with ⟨hsame, rfl⟩ | ⟨hfile, rfl⟩
    · rw [hsame] at hplace
      exact .shared hp hcontent hwhole hplace hdevice
    · -- The part file loses one name and gets the other, and keeps its content.
      have hgone := hp.removeEntry hdir
      have hremoved := node?_removeEntry (hp.isDirectory hdir) (partName d)
        (by simp) hcontent
      have hstored := node?_setEntry (hgone.isDirectory hdir) (leaf d) h.node
        (by simp) hremoved
      exact .stored (hgone.moved hdir ⟨_, hremoved⟩) hstored hwhole hplace hfile hdevice

/-- A device is taken away, for it cannot be stored. -/
theorem commit_full (ho : made.Opened made (partPath d) h stack)
    (hnode : made.node? h.node = some .full) :
    PartFile.commit made ⟨d, h⟩
      = ⟨made.removeEntry (top stack) (partName d), .error (.system .invalidInput),
        none⟩ := by
  have hpatch := ho.patch
  rw [leaf_partPath] at hpatch
  have hremove := remove_eq ⟨d, h⟩ ho rfl hpatch (isDirectory_eq_false hnode (by simp))
  unfold PartFile.commit
  rw [syncHandle, hnode]
  simp only [Except.bind, hremove]

/-- Once the part file is open, a copy ends in one of these ways. -/
theorem copyToPath_ended (hmade : Proper made)
    (hparents : PartFile.makeParents fs d = (made, none))
    (hopen : made.openToWrite true (partPath d) = .ok (fs₁, h))
    (ho : made.Opened fs₁ (partPath d) h stack) (hr : Fills fs₁ ⟨d, h⟩ r) :
    Ended made d h.node stack (readToEnd fs₁ r).1
      (copyToPath fs r d).outcome (copyToPath fs r d).files := by
  have hpatch := ho.patch
  rw [leaf_partPath] at hpatch
  have hdir := ho.isDirectory_top hmade
  rw [copyToPath_eq hparents hopen]
  rcases ho.node with ⟨hnode, hold⟩ | ⟨hnode, rfl⟩
  · -- A file: everything that the reader brings is in it.
    have hcontent : (fs₁.setNode h.node (.file (readToEnd fs₁ r).1.1)).node? h.node
        = some (.file (readToEnd fs₁ r).1.1) := by
      rw [node?_setNode (lt_of_shape (shape?_of_node hnode)), if_pos rfl]
    have hpatch₂ := hpatch.setNode (t := (readToEnd fs₁ r).1.1) hnode
    have hdevice : made.node? h.node ≠ some .full := by
      intro hfull
      obtain ⟨s, hs⟩ := hold _ hfull
      cases hs
    rw [hr hnode]
    dsimp only
    rcases hfailure : (readToEnd fs₁ r).1.2 with _ | e
    · exact ended_commit hmade ho rfl rfl hpatch₂ hcontent hfailure hdevice
    · dsimp only
      rw [remove_eq _ ho rfl hpatch₂ (isDirectory_eq_false hcontent (by simp))]
      refine ended_removed hdir hpatch₂ hcontent (by simp) (by simp)
        (fun hfull => absurd hfull hdevice) fun hwhole => ?_
      rw [hwhole] at hfailure
      cases hfailure
  · -- A device: whatever was copied, it cannot be stored.
    obtain ⟨hstate, -⟩ := copy_full ⟨d, h⟩ hnode r
    dsimp only
    rw [hstate]
    split
    · rw [commit_full ho hnode]
      exact ended_removed hdir hpatch hnode (by simp) (by simp) (fun _ => rfl)
        fun _ => .inl hnode
    · rw [remove_eq ⟨d, h⟩ ho rfl hpatch (isDirectory_eq_false hnode (by simp))]
      exact ended_removed hdir hpatch hnode (by simp) (by simp) (fun _ => rfl)
        fun _ => .inl hnode

/-- A copy that succeeds leaves the reader at its end. -/
theorem copyToPath_reader (hmade : Proper made)
    (hparents : PartFile.makeParents fs d = (made, none))
    (hopen : made.openToWrite true (partPath d) = .ok (fs₁, h))
    (ho : made.Opened fs₁ (partPath d) h stack) (hr : Fills fs₁ ⟨d, h⟩ r) {n : Nat}
    (hn : (copyToPath fs r d).outcome = .ok n) :
    (copyToPath fs r d).reader = (readToEnd fs₁ r).2 := by
  have hended := copyToPath_ended hmade hparents hopen ho hr
  rw [hn] at hended
  rcases ho.node with ⟨hnode, -⟩ | ⟨hfull, rfl⟩
  · rw [copyToPath_eq hparents hopen, hr hnode]
    dsimp only
    split
    · rfl
    · rfl
  · exact absurd hfull hended.device

/-- What is brought decides how a copy goes. -/
theorem copy_congr (ho : fs.Opened fs₁ (partPath d) h stack) {r' : ρ}
    (hr : Fills fs₁ ⟨d, h⟩ r) (hr' : Fills fs₁ ⟨d, h⟩ r')
    (hdata : (readToEnd fs₁ r).1 = (readToEnd fs₁ r').1) :
    (copy Prod.fst PartFile.writer r (fs₁, ⟨d, h⟩)).outcome
        = (copy Prod.fst PartFile.writer r' (fs₁, ⟨d, h⟩)).outcome
      ∧ (copy Prod.fst PartFile.writer r (fs₁, ⟨d, h⟩)).state
        = (copy Prod.fst PartFile.writer r' (fs₁, ⟨d, h⟩)).state := by
  rcases ho.node with ⟨hnode, -⟩ | ⟨hnode, -⟩
  · rw [hr hnode, hr' hnode, hdata]
    exact ⟨rfl, rfl⟩
  · obtain ⟨hstate, houtcome⟩ := copy_full ⟨d, h⟩ hnode r
    obtain ⟨hstate', houtcome'⟩ := copy_full ⟨d, h⟩ hnode r'
    rw [hstate, hstate', houtcome, houtcome', hdata]
    exact ⟨rfl, rfl⟩

/-- What a copy comes to depends only on what the reader brings, so two
readers that bring the same make the same of the files. -/
theorem copyToPath_congr (hparents : PartFile.makeParents fs d = (made, none))
    (hopen : made.openToWrite true (partPath d) = .ok (fs₁, h))
    (ho : made.Opened fs₁ (partPath d) h stack) {r' : ρ}
    (hr : Fills fs₁ ⟨d, h⟩ r) (hr' : Fills fs₁ ⟨d, h⟩ r')
    (hdata : (readToEnd fs₁ r).1 = (readToEnd fs₁ r').1) :
    (copyToPath fs r d).outcome = (copyToPath fs r' d).outcome
      ∧ (copyToPath fs r d).files = (copyToPath fs r' d).files := by
  obtain ⟨houtcome, hstate⟩ := copy_congr ho hr hr' hdata
  rw [copyToPath_eq hparents hopen, copyToPath_eq hparents hopen]
  dsimp only
  rw [houtcome, hstate]
  split
  · exact ⟨rfl, rfl⟩
  · exact ⟨rfl, rfl⟩

end copyToPath

end TracedTransfer.Storage
