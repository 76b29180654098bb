/-
Names in a directory that is there.

A path whose front descends to a directory stands inside it (`Inside`).
What such a path leads to is decided by its last name alone: if that is no
longer than names may be, it is what the directory has under it
(`Inside.locate`), and otherwise nothing can be reached or opened there,
whatever the directory holds (`Inside.openToWrite_long`).
-/
import TracedTransfer.Proofs.FileSystem.Patch

namespace TracedTransfer

open Text

namespace FilePath

/-- A front with the components of a directory's path descends as that
path does. -/
theorem descend_front {fs : FileSystem} {f p : FilePath}
    (h : f.components = p.components) (links : Nat) (stack : List FileSystem.Id) :
    fs.descend links stack (dirs f) = fs.descend links stack (FileSystem.steps p) := by
  rw [← FileSystem.descend_dots, dirs_filter, h, components_eq, FileSystem.descend_dots]

end FilePath

namespace FileSystem

open FilePath

variable {fs : FileSystem} {p : FilePath} {i : Id} {name : Bytes}

/-- What can be the name of an entry, but for its length. -/
structure IsEntryName (name : Bytes) : Prop where
  /-- It is not empty -/
  nonempty : name ≠ []
  /-- and does not stand for the directory -/
  not_dot : name ≠ dot
  /-- or the one above. -/
  not_dots : name ≠ dotDot
  /-- No slash is in it, -/
  slash : slash ∉ name
  /-- and no zero byte. -/
  zero : (0 : UInt8) ∉ name

/-- A path to a name in a directory. -/
structure Inside (fs : FileSystem) (p : FilePath) (i : Id) (name : Bytes) : Prop where
  /-- The path up to its leaf leads to the directory, -/
  descends : ∃ links stack, fs.descend maxLinks (start fs.workingDirectory p)
    (dirs (front p)) = .ok (links, stack) ∧ top stack = i
  /-- its leaf is the name, -/
  leaf : leaf p = name
  /-- and that is one that an entry can have. -/
  entry : IsEntryName name

/-- A slash leads to the root, from wherever it is taken. -/
theorem resolve_slash (fs : FileSystem) : fs.resolve [slash] = .ok root := by
  have hsteps : steps [slash] = [dot] := by decide
  have hwalk : fs.walk true maxLinks (start fs.workingDirectory [slash]) (steps [slash])
      = .ok (.unnamed []) := by
    rw [hsteps, walk, if_pos rfl, walk]
    rfl
  exact resolve_ok_iff.2 ⟨_, locate_walk.2 ⟨⟨rfl, List.cons_ne_nil _ _, by decide⟩, hwalk⟩, rfl⟩

/-- A path that leads somewhere can be taken. -/
theorem walkable_of_resolve {p : FilePath} (h : fs.resolve p = .ok i) : Walkable p := by
  obtain ⟨place, hl, -⟩ := resolve_ok_iff.1 h
  exact (locate_walk.1 hl).1

/-- A path to a directory descends to it. -/
theorem descend_of_resolve {dir : FilePath} (h : fs.resolve dir = .ok i)
    (hi : fs.isDirectory i = true) : ∃ links stack, fs.descend maxLinks
      (start fs.workingDirectory dir) (steps dir) = .ok (links, stack)
      ∧ top stack = i := by
  obtain ⟨place, hl, hnode⟩ := resolve_ok_iff.1 h
  have hw := (locate_walk.1 hl).2
  obtain ⟨⟨links, stack⟩, hd⟩ := descend_of_walk hw hnode hi
  obtain ⟨q, hq, htop⟩ := walk_of_descend hd
  rw [hw] at hq
  cases hq
  exact ⟨links, stack, hd, Except.ok.inj (htop.symm.trans hnode)⟩

/-- A name put behind the path of a directory stands inside it. -/
theorem inside_of_resolve {dir f : FilePath} (h : fs.resolve dir = .ok i)
    (hi : fs.isDirectory i = true) (hf : IsFront f) (hdir : dir <+: f)
    (hcomponents : f.components = dir.components) (hname : IsEntryName name) :
    fs.Inside (f ++ name) i name := by
  have hne : dir ≠ [] := by
    intro hempty
    subst hempty
    simp [resolve, FileSystem.locate, Except.bind] at h
  obtain ⟨links, stack, hd, htop⟩ := descend_of_resolve h hi
  refine ⟨⟨links, stack, ?_, htop⟩, leaf_append hf hname.slash, hname⟩
  rw [front_append hf hname.slash, descend_front hcomponents,
    ← start_above (hdir.trans (List.prefix_append f name)) hne]
  exact hd

/-- The last step of a path in a directory is the name in it, -/
theorem Inside.leaf_lastStep (h : fs.Inside p i name) :
    lastStep (FilePath.leaf p) = name := by
  rw [h.leaf, lastStep, if_neg h.entry.nonempty]

/-- so there is one. -/
theorem Inside.nonempty (h : fs.Inside p i name) : p ≠ [] := by
  intro hempty
  apply h.entry.nonempty
  rw [← h.leaf, hempty]
  rfl

/-- Such a path leads to what the directory has under the name. -/
theorem Inside.locate (h : fs.Inside p i name) (hwalk : Walkable p)
    (hshort : name.length ≤ maxName) : ∃ stack, top stack = i
      ∧ fs.locate false p = .ok (.named stack name (fs.lookup i name)) := by
  obtain ⟨links, stack, hd, rfl⟩ := h.descends
  refine ⟨stack, rfl, locate_iff.2 ⟨hwalk, links, stack, hd, ?_⟩⟩
  rw [h.leaf_lastStep, arrive_named]
  exact ⟨h.entry.not_dot, h.entry.not_dots, hshort, rfl, rfl, rfl⟩

/-- A name that is too long leads nowhere. -/
theorem Inside.locate_long (h : fs.Inside p i name) (hzero : p.contains 0 = false)
    (hlong : maxName < name.length) :
    fs.locate true p = .error (.system .invalidFilename) := by
  obtain ⟨links, stack, hd, -⟩ := h.descends
  have hturn : ∀ target, fs.turn (top stack) name ≠ .ok (.along target) := by
    intro target ht
    obtain ⟨hlen, -⟩ := turn_along.1 ht
    omega
  have hlast : fs.walk true links stack [name] = .error .invalidFilename := by
    rw [walk_last true links fun _ _ _ => hturn]
    unfold arrive
    rw [if_neg h.entry.not_dot, if_neg h.entry.not_dots, if_pos hlong]
  have hwalk : fs.walk true maxLinks (start fs.workingDirectory p) (steps p)
      = .error .invalidFilename := by
    rw [steps_eq h.nonempty, walk_append _ _ _ _ (List.cons_ne_nil _ _), hd,
      h.leaf_lastStep]
    exact hlast
  unfold FileSystem.locate
  rw [hzero, if_neg Bool.false_ne_true, if_neg (by simpa using h.nonempty)]
  split
  · rfl
  · rw [hwalk]

theorem Inside.openToWrite_long (h : fs.Inside p i name) (hzero : p.contains 0 = false)
    (hlong : maxName < name.length) (truncate : Bool) :
    fs.openToWrite truncate p = .error (.system .invalidFilename) := by
  unfold openToWrite
  rw [h.locate_long hzero hlong]

end FileSystem

end TracedTransfer
