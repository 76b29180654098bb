/-
Files that are only appended to.

A path `Holds` a content if it leads to a file with that content. Opening
the path to append changes nothing then (`Holds.openToWrite`), and what is
appended stands behind what was there, under the same path
(`Holds.append`).

Where a path leads to a name that nothing has, along whatever links, a new
file of that name is what the path leads to (`resolve_create`). So a path
that was opened to append holds the content it had, or none
(`openToWrite_holds`).
-/
import TracedTransfer.Proofs.FileSystem.Patch

namespace TracedTransfer.FileSystem

open Text FilePath

variable {fs fs' : FileSystem} {p : FilePath} {i : Id} {s : Bytes}

-- ============================================================ new names

/-- A new file is what a path leads to that led to its name. -/
theorem resolve_create (hfs : Proper fs) {st : List Id} {name : Bytes}
    (h : fs.locate true p = .ok (.named st name none)) (s : Bytes) :
    (fs.create (top st) name (.file s)).resolve p = .ok fs.nodes.length := by
  obtain ⟨hd, hnone⟩ := hfs.locate_named h
  have hplain := plain_of_node (node?_create hd name s) (by simp) (by simp)
  exact (patch_create hnone hd s).resolve_named hplain h

-- ============================================================== holding

/-- A path that leads to a file with a content. -/
structure Holds (fs : FileSystem) (p : FilePath) (i : Id) (s : Bytes) : Prop where
  /-- The files are proper, -/
  proper : Proper fs
  /-- the path leads to the node, -/
  leads : fs.resolve p = .ok i
  /-- and that is a file with the content. -/
  file : fs.node? i = some (.file s)

theorem Holds.contentAt (h : Holds fs p i s) : fs.contentAt p = .ok s :=
  contentAt_of_resolve h.leads h.file

/-- What is appended stands behind what was there. -/
theorem Holds.append (h : Holds fs p i s) (data : Bytes) :
    ∃ fs', fs.appendToNode i data = .ok fs' ∧ Holds fs' p i (s ++ data) := by
  have hlt : i < fs.nodes.length := lt_of_shape (shape?_of_node h.file)
  have hnot : fs.isDirectory i = false := isDirectory_eq_false h.file (by simp)
  have hnode : (fs.setNode i (.file (s ++ data))).node? i = some (.file (s ++ data)) := by
    rw [node?_setNode hlt, if_pos rfl]
  have hleads : fs.Leads (fs.setNode i (.file (s ++ data))) := by
    refine leads_of_kept fun dir name j hl hj => ⟨?_, ?_⟩
    · rw [lookup_setNode hnot (by simp), hl]
    · have hne : j ≠ i := by
        rintro rfl
        rcases hj with hj | ⟨target, hj⟩
        · rw [hnot] at hj
          cases hj
        · rw [h.file] at hj
          cases hj
      rw [shape?_setNode hlt, if_neg hne]
  refine ⟨fs.setNode i (.file (s ++ data)), ?_,
    h.proper.setNode h.file (by simp) (by simp), ?_, hnode⟩
  · unfold appendToNode
    rw [h.file]
  · refine resolve_mono hleads rfl (fun dir name _ hl => ?_) (fun target hn => ?_) h.leads
    · rw [lookup_setNode hnot (by simp), hl]
    · rw [hnode] at hn
      cases hn

/-- Opened to append, it is as it was. -/
theorem Holds.openToWrite (h : Holds fs p i s) : fs.openToWrite false p = .ok (fs, ⟨i, 0⟩) := by
  obtain ⟨place, hl, hnode⟩ := resolve_ok_iff.1 h.leads
  obtain ⟨stack, hdirs, rfl | ⟨c, rfl⟩⟩ := walk_ends (locate_walk.1 hl).2
    (start_directories h.proper.working p)
  · cases hnode
    have hd := h.proper.top_isDirectory hdirs
    rw [isDirectory_eq_false h.file (by simp)] at hd
    cases hd
  · rw [Place.node_named.1 hnode] at hl
    exact openToWrite_iff.2 (.file hl h.file)

-- ============================================================== opening

/-- What has a length is a file. -/
theorem file_of_length {n : Nat} (h : fs.fileLength? p = .ok (some n))
    (hr : fs.resolve p = .ok i) : ∃ s, fs.node? i = some (.file s) := by
  unfold fileLength? at h
  rw [hr, Except.map] at h
  unfold isFileNode at h
  rcases hn : fs.node? i with _ | node
  · rw [hn] at h
    cases h
  · rw [hn] at h
    cases node with
    | file s => exact ⟨s, rfl⟩
    | directory es => cases h
    | link target => cases h
    | full => cases h

/-- To append, what is there is opened as it is, and what is not there is
created. -/
theorem openToWrite_cases {h : Handle} (hopen : fs.openToWrite false p = .ok (fs', h)) :
    fs' = fs ∧ fs.resolve p = .ok h.node
    ∨ ∃ st name, fs.locate true p = .ok (.named st name none)
      ∧ fs' = fs.create (top st) name (.file []) ∧ h.node = fs.nodes.length := by
  cases openToWrite_iff.1 hopen with
  | created hplace => exact .inr ⟨_, _, hplace, rfl, rfl⟩
  | file hplace => exact .inl ⟨rfl, resolve_ok_iff.2 ⟨_, hplace, rfl⟩⟩
  | other hplace => exact .inl ⟨rfl, resolve_ok_iff.2 ⟨_, hplace, rfl⟩⟩

/-- A path that was opened to append, if what is open is a file, holds the
content that it had, or none if it had none. -/
theorem openToWrite_holds (hfs : Proper fs) {h : Handle}
    (hopen : fs.openToWrite false p = .ok (fs', h)) {n : Nat}
    (hfile : fs'.fileLength? p = .ok (some n)) :
    ∃ s, Holds fs' p h.node s ∧ (fs.contentAt p = .ok s ∨
      (∀ c, fs.contentAt p ≠ .ok c) ∧ s = []) := by
  have hproper := hfs.openToWrite hopen
  rcases openToWrite_cases hopen with ⟨rfl, hr⟩ | ⟨st, name, hl, rfl, hnode⟩
  · obtain ⟨s, hs⟩ := file_of_length hfile hr
    exact ⟨s, ⟨hfs, hr, hs⟩, .inl (contentAt_of_resolve hr hs)⟩
  · rw [hnode]
    refine ⟨[], ⟨hproper, resolve_create hfs hl [], node?_create (hfs.locate_named hl).1 _ _⟩,
      .inr ⟨fun c hc => ?_, rfl⟩⟩
    obtain ⟨j, hj, -⟩ := resolve_of_contentAt hc
    obtain ⟨place, hplace, hnode⟩ := resolve_ok_iff.1 hj
    rw [hl] at hplace
    cases hplace
    cases hnode

end TracedTransfer.FileSystem
