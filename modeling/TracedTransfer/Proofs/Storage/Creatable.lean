/-
Destinations at which a file can be stored.

Whether something can be stored at a destination is decided before
anything is read (`Creatable`): the directories above it are there or can
be made, and then there is room for the part file and room for its other
name. A copy of whatever does not depend on the files, as a script, comes
to what reading to the end comes to then (`copyToPath_creatable`).

Among the destinations whose part file is no link these are the ones at
which an empty file can be stored (`creatable_iff`).
-/
import TracedTransfer.Proofs.Storage.Ending

namespace TracedTransfer.Storage

open Text Io FileSystem FilePath

variable {fs : FileSystem} {d : FilePath}

/-- A path is that of a name in a directory, at which nothing stands but
what is fit to make room. -/
def Room (fs : FileSystem) (p : FilePath) (fit : FileSystem.Node → Prop) : Prop :=
  ∃ stack name old, fs.locate false p = .ok (.named stack name old)
    ∧ ∀ i n, old = some i → fs.node? i = some n → fit n

/-- A file can be stored at a destination. An old part file is written
over, and anything but a directory is replaced. -/
structure Creatable (fs : FileSystem) (d : FilePath) : Prop where
  /-- The directories above are there or can be made, -/
  parents : (PartFile.makeParents fs d).2 = none
  /-- and then there is room for the part file, which may be there
  already, -/
  part : Room (withParents fs d) (partPath d) fun n => ∃ s, n = .file s
  /-- and for its other name, under which anything but a directory may be
  there. -/
  destination : Room (withParents fs d) d fun n => ∀ es, n ≠ .directory es

theorem Creatable.makeParents (hd : Creatable fs d) :
    PartFile.makeParents fs d = (withParents fs d, none) := Prod.ext rfl hd.parents

/-- The part file of such a destination can be opened, and is a file. -/
theorem Creatable.opens (hfs : Proper fs) (hd : Creatable fs d) : ∃ fs₁ h stack,
    (withParents fs d).openToWrite true (partPath d) = .ok (fs₁, h)
      ∧ (withParents fs d).Opened fs₁ (partPath d) h stack
      ∧ fs₁.node? h.node = some (.file []) := by
  obtain ⟨hmade, -, -⟩ := withParents_spec hfs d
  obtain ⟨stack, name, old, hplace, hfit⟩ := hd.part
  -- What stands at the name of the part file, if anything does, is a file.
  have hlink : (withParents fs d).NoLink (partPath d) := by
    intro stack' name' i target hthere hn
    rw [hplace] at hthere
    cases hthere
    obtain ⟨s, hs⟩ := hfit i _ rfl hn
    cases hs
  have hopen : ∃ fs₁ h, (withParents fs d).openToWrite true (partPath d)
      = .ok (fs₁, h) := by
    have hfollow := (locate_follow hlink).2 hplace
    cases old with
    | none => exact ⟨_, _, openToWrite_iff.2 (.created hfollow)⟩
    | some i =>
        have hthere := hmade.there (lookup_of_locate hplace)
        have hn : (withParents fs d).node? i = some (withParents fs d).nodes[i] :=
          List.getElem?_eq_getElem hthere
        obtain ⟨s, hs⟩ := hfit i _ rfl hn
        exact ⟨_, _, openToWrite_iff.2 (.file hfollow (hn.trans (congrArg some hs)))⟩
  obtain ⟨fs₁, h, hopen⟩ := hopen
  obtain ⟨stack', ho⟩ := openToWrite_opened hmade hlink hopen
  refine ⟨fs₁, h, stack', hopen, ho, ?_⟩
  rcases ho.node with ⟨hnode, -⟩ | ⟨hfull, rfl⟩
  · exact hnode
  · -- A device would have been there before.
    exfalso
    rcases ho.old with hold | ⟨-, hnew⟩
    · have hthere := ho.locate
      rw [hold, hplace] at hthere
      cases hthere
      obtain ⟨s, hs⟩ := hfit _ _ rfl hfull
      cases hs
    · exact absurd (lt_of_shape (shape?_of_node hfull)) (Nat.not_lt.2 hnew)

section commit

variable {fs₁ fs₂ : FileSystem} {h : Handle} {stack : List FileSystem.Id}

/-- Where there is room for it, a part file gets the destination's name. -/
theorem commit_of_room (part : PartFile) (hfs : Proper fs)
    (ho : fs.Opened fs₁ (partPath d) h stack) (hpart : part.destination = d)
    (hhandle : part.handle.node = h.node)
    (hp : fs.Patch fs₂ (top stack) (partName d) h.node (some h.node)) {s : Bytes}
    (hnode : fs₂.node? h.node = some (.file s))
    (hroom : Room fs d fun n => ∀ es, n ≠ .directory es) :
    (part.commit fs₂).outcome = .ok () := by
  have hdir : fs₂.isDirectory h.node = false :=
    isDirectory_eq_false hnode fun es he => by cases he
  rw [commit_of_file part hpart (hhandle ▸ hnode)]
  rcases hr : fs₂.rename (partPath d) d with e | fs₃
  · obtain ⟨stack', name, old, hplace, hfit⟩ := hroom
    obtain ⟨j, hj, hdirectory⟩ := isDirectory_of_rename_error hfs ho hp hdir hr hplace
    obtain ⟨es, hes⟩ := isDirectory_iff.1 hdirectory
    exact absurd rfl (hfit j _ hj hes es)
  · rfl

end commit

/-- A copy with a part file that takes what the reader brings comes to
what reading to the end comes to. -/
theorem copyToPath_fills {ρ : Type} [Source ρ] {r : ρ} {fs₁ : FileSystem} {h : Handle}
    {stack : List FileSystem.Id} (hfs : Proper fs) (hd : Creatable fs d)
    (hopen : (withParents fs d).openToWrite true (partPath d) = .ok (fs₁, h))
    (ho : (withParents fs d).Opened fs₁ (partPath d) h stack)
    (hnode : fs₁.node? h.node = some (.file [])) (hfills : Fills fs₁ ⟨d, h⟩ r)
    (hsame : readToEnd fs₁ r = readToEnd fs r) :
    (copyToPath fs r d).outcome = (whole (readToEnd fs r).1).map List.length
      ∧ (copyToPath fs r d).reader = (readToEnd fs r).2
      ∧ Ended (withParents fs d) d h.node stack (readToEnd fs r).1
        (copyToPath fs r d).outcome (copyToPath fs r d).files := by
  obtain ⟨hmade, -, -⟩ := withParents_spec hfs d
  have hpatch := ho.patch
  rw [leaf_partPath] at hpatch
  have hended := copyToPath_ended hmade hd.makeParents hopen ho hfills
  rw [hsame] at hended
  have hcopy : (copyToPath fs r d).outcome = (whole (readToEnd fs r).1).map List.length
      ∧ (copyToPath fs r d).reader = (readToEnd fs r).2 := by
    rw [copyToPath_eq hd.makeParents hopen, hfills hnode, hsame]
    rcases (readToEnd fs r).1 with ⟨bytes, _ | e⟩
    · have hcontent : (fs₁.setNode h.node (.file bytes)).node? h.node
          = some (.file bytes) := by
        rw [node?_setNode (lt_of_shape (shape?_of_node hnode)), if_pos rfl]
      -- What has been read as a whole is committed, as there is room for the name.
      have hcommit := commit_of_room ⟨d, h.node, bytes.length⟩ hmade ho rfl rfl
        (hpatch.setNode hnode) hcontent hd.destination
      dsimp only
      rw [hcommit]
      exact ⟨rfl, rfl⟩
    · exact ⟨rfl, rfl⟩
  exact ⟨hcopy.1, hcopy.2, hended⟩

/-- A copy to such a destination comes to what reading to the end comes
to, and has stored what is brought as a whole. -/
theorem copyToPath_creatable {ρ : Type} [Source ρ] {kind : ρ → Prop} (hfs : Proper fs)
    (hd : Creatable fs d) (hk : Steady kind) {r : ρ} (hr : kind r) :
    (copyToPath fs r d).outcome = (whole (readToEnd fs r).1).map List.length
      ∧ (copyToPath fs r d).reader = (readToEnd fs r).2
      ∧ ∀ bytes, whole (readToEnd fs r).1 = .ok bytes →
        StoredAt (withParents fs d) (copyToPath fs r d).files d bytes := by
  obtain ⟨hmade, -, -⟩ := withParents_spec hfs d
  obtain ⟨fs₁, h, stack, hopen, ho, hnode⟩ := hd.opens hfs
  have hfills : Fills fs₁ ⟨d, h⟩ r :=
    fills_of_blind ⟨d, h⟩ (hk.blind h.node) ho.beginning hr
  obtain ⟨houtcome, hreader, hended⟩ :=
    copyToPath_fills hfs hd hopen ho hnode hfills (hk.readToEnd fs₁ fs hr)
  refine ⟨houtcome, hreader, fun bytes hbytes => ?_⟩
  rw [houtcome, hbytes] at hended
  obtain ⟨-, -, hstored⟩ := hended.storedAt (ho.isDirectory_top hmade)
  rwa [whole_ok hbytes] at hstored

/-- A file can be stored where an empty one can be, unless the part file
is a link. -/
theorem creatable_iff (hfs : Proper fs)
    (hlink : (withParents fs d).NoLink (partPath d)) :
    Creatable fs d ↔ (copyToPath fs (Reader.script []) d).outcome = .ok 0 := by
  constructor
  · intro hd
    obtain ⟨houtcome, -, -⟩ := copyToPath_creatable hfs hd Reader.steady ⟨[], rfl⟩
    rw [houtcome, readToEnd_script]
    rfl
  · intro hstored
    obtain ⟨hmade, -, -⟩ := withParents_spec hfs d
    -- A copy that gets as far as opening its part file has found room for
    -- both names.
    rcases copyToPath_begins Reader fs d with
      ⟨e, -, hcopy⟩ | ⟨hready, ⟨e, -, hcopy⟩ | ⟨fs₁, h, hopen⟩⟩
    · rw [hcopy] at hstored
      cases hstored
    · rw [hcopy] at hstored
      cases hstored
    · obtain ⟨stack, ho⟩ := openToWrite_opened hmade hlink hopen
      have hfills : Fills fs₁ ⟨d, h⟩ (Reader.script []) :=
        fills_of_blind ⟨d, h⟩ (Reader.blind h.node) ho.beginning trivial
      have hended := copyToPath_ended hmade hready hopen ho hfills
      rw [hstored] at hended
      have hdevice := hended.device
      obtain ⟨-, -, stack', name, old, i, hplace, hold, -⟩ :=
        hended.storedAt (ho.isDirectory_top hmade)
      refine ⟨congrArg Prod.snd hready, ⟨stack, _, _, ho.locate, ?_⟩,
        ⟨stack', name, old, hplace, ?_⟩⟩
      · intro j n hj hn
        rcases ho.old with hthere | ⟨hnone, -⟩
        · rw [hthere] at hj
          cases hj
          rcases ho.node with ⟨-, hfile⟩ | ⟨hfull, rfl⟩
          · exact hfile n hn
          · exact absurd hfull hdevice
        · rw [hnone] at hj
          cases hj
      · rintro j n hj hn es rfl
        have hdir := hold j hj
        rw [isDirectory_iff.2 ⟨es, hn⟩] at hdir
        cases hdir

end TracedTransfer.Storage
