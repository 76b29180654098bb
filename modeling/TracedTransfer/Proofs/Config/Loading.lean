/-
Loading the settings again.

Loading has four ends (`Loads`): the directory cannot be made, the file is
found, none can be made, or one has been made. Only the last two go beyond
making directories, which changes no file (`Ready`), and the file that is
made is a patch of a name that led nowhere. So what was there is as it was
(`Loads.node`, `Loads.resolve`), and settings that come out are those of a
file that was there or of the one that has been made (`Loads.origin`).

From the files that it leaves, loading comes to an end of the same kind,
with nothing left to do: the directory is there or is refused once more,
and the file that has been made is found (`Loads.again`).

Where the way to the directory goes up, through a directory that is
missing at first, the second refusal may be another one than the first,
and a file may come in sight that was there all the time. Where it only
goes down (`OnlyDown`) neither happens.
-/
import Mathlib
import TracedTransfer.Config.Store
import TracedTransfer.Proofs.Effect
import TracedTransfer.Proofs.FileSystem.Remaking
import TracedTransfer.Proofs.Operation.Notice
import TracedTransfer.Proofs.Resource.Filename
import TracedTransfer.Proofs.Text.Encoding

namespace TracedTransfer.Config

open Text FileSystem FilePath

variable {p : Places} {fs fs' : FileSystem} {m : Machine}

-- =============================================================== places

theorem isEntryName_directory : IsEntryName (bytesOf "resfetch") := by
  constructor <;> decide

theorem isEntryName_file : IsEntryName (bytesOf "config.toml") := by
  constructor <;> decide

namespace Places

theorem directory_standsIn (p : Places) :
    Resource.Filename.StandsIn p.configDirectory p.configHome (bytesOf "resfetch") :=
  Resource.Filename.standsIn_of_entryName isEntryName_directory p.configHome

theorem file_standsIn (p : Places) :
    Resource.Filename.StandsIn p.configFile p.configDirectory (bytesOf "config.toml") :=
  Resource.Filename.standsIn_of_entryName isEntryName_file p.configDirectory

/-- The name of the directory is the end of its path, -/
theorem directory_leaf (p : Places) : leaf p.configDirectory = bytesOf "resfetch" :=
  p.directory_standsIn.leaf

/-- which is not empty -/
theorem directory_ne_nil (p : Places) : p.configDirectory ≠ [] := by
  intro hnil
  have hleaf := p.directory_leaf
  rw [hnil] at hleaf
  exact absurd hleaf (by decide)

/-- and ends in no slash. -/
theorem directory_trimmed (p : Places) : Trimmed p.configDirectory :=
  .inr (.inr (by rw [p.directory_leaf]; decide))

/-- A configuration home whose path never goes up. -/
def OnlyDown (p : Places) : Prop := dotDot ∉ p.configHome.components

/-- Places without `..` in them lead down to the directory, -/
theorem OnlyDown.directory (h : p.OnlyDown) : Descending p.configDirectory where
  trimmed := trimEnd_eq (by rw [p.directory_leaf]; decide) (by rw [p.directory_leaf]; decide)
  down := by
    rw [p.directory_standsIn.components]
    exact fun hmem => (List.mem_append.1 hmem).elim h (by decide)

/-- and on to the file. -/
theorem OnlyDown.file (h : p.OnlyDown) : Descending p.configFile where
  trimmed := trimEnd_eq (by rw [p.file_standsIn.leaf]; decide) (by rw [p.file_standsIn.leaf]; decide)
  down := by
    rw [p.file_standsIn.components]
    exact fun hmem => (List.mem_append.1 hmem).elim h.directory.down (by decide)

end Places

-- ============================================================== writing

/-- A file that was empty holds after a write what has been written. -/
theorem writeHandle_empty {i : Id} (h : fs.node? i = some (.file [])) (s : Bytes) :
    fs.writeHandle ⟨i, 0⟩ s = .ok (fs.setNode i (.file s), ⟨i, 0 + s.length⟩) := by
  unfold writeHandle
  rw [h]
  rfl

/-- Where nothing is at a path, the default settings are refused, or they are in a new file there. -/
theorem writeDefault_cases (hfs : Proper fs) {path : FilePath}
    (hnone : ∀ i, fs.resolve path ≠ .ok i) :
    (∃ e, writeDefault path fs = (fs, some e))
      ∨ ∃ fs' dir name i, writeDefault path fs = (fs', none) ∧ fs.node? i = none
        ∧ fs.Patch fs' dir name i (some i) ∧ fs'.resolve path = .ok i
        ∧ fs'.node? i = some (.file (bytesOf Settings.default.text)) := by
  rcases hl : fs.locate true path with e | (stack | ⟨stack, name, _ | i⟩)
  · refine .inl ⟨e, ?_⟩
    unfold writeDefault openToWrite
    rw [hl]
  · exact absurd (resolve_ok_iff.2 ⟨_, hl, rfl⟩) (hnone (top stack))
  · obtain ⟨hd, hlookup⟩ := hfs.locate_named hl
    have hempty := node?_create hd name []
    have hpatch := (patch_create hlookup hd []).setNode (t := bytesOf Settings.default.text) hempty
    have hnode : ((fs.create (top stack) name (.file [])).setNode fs.nodes.length
        (.file (bytesOf Settings.default.text))).node? fs.nodes.length
          = some (.file (bytesOf Settings.default.text)) := by
      rw [node?_setNode (lt_of_shape (shape?_of_node hempty)), if_pos rfl]
    refine .inr ⟨_, top stack, name, fs.nodes.length, ?_, List.getElem?_eq_none le_rfl, hpatch,
      hpatch.resolve_named (plain_of_node hnode (by simp) (by simp)) hl, hnode⟩
    unfold writeDefault
    rw [openToWrite_iff.2 (.created hl)]
    dsimp only
    rw [writeHandle_empty hempty]
  · exact absurd (resolve_ok_iff.2 ⟨_, hl, rfl⟩) (hnone i)

-- ============================================================== loading

/-- What loading comes to, with the files that it leaves. -/
inductive Loads (p : Places) (fs : FileSystem) : Except LoadError Settings → FileSystem → Prop where
  /-- The directory cannot be made. -/
  | blocked {fs' : FileSystem} {e : Io.Error}
      (h : fs.makeDirectories p.configDirectory = (fs', some e)) : Loads p fs (.error (.io e)) fs'
  /-- There is a file, which settings are read from. -/
  | found {fs' : FileSystem} {i : Id} (h : fs.makeDirectories p.configDirectory = (fs', none))
      (hi : fs'.resolve p.configFile = .ok i) : Loads p fs (readFrom p.configFile fs') fs'
  /-- There is no file, and none can be made. -/
  | refused {fs' : FileSystem} {e : Io.Error}
      (h : fs.makeDirectories p.configDirectory = (fs', none))
      (hnone : ∀ i, fs'.resolve p.configFile ≠ .ok i)
      (hwrite : writeDefault p.configFile fs' = (fs', some e)) : Loads p fs (.error (.io e)) fs'
  /-- There was no file, and one has been made. -/
  | made {fs' fs'' : FileSystem} {dir i : Id} {name : Bytes}
      (h : fs.makeDirectories p.configDirectory = (fs', none))
      (hnone : ∀ i, fs'.resolve p.configFile ≠ .ok i) (hnew : fs'.node? i = none)
      (hpatch : fs'.Patch fs'' dir name i (some i)) (hi : fs''.resolve p.configFile = .ok i)
      (hfile : fs''.node? i = some (.file (bytesOf Settings.default.text))) :
      Loads p fs (.ok .default) fs''

/-- An attempt changes the files as far as it gets. -/
theorem attempt_run (f : FileSystem → FileSystem × Option Io.Error) (m : Machine) :
    attempt f m = (.value (match (f m.files).2 with
      | none => .ok ()
      | some e => .error (.io e)), { m with files := (f m.files).1 }) := by
  unfold attempt Run.onFiles
  dsimp only
  rcases hf : f m.files with ⟨fs, _ | e⟩
  · rfl
  · rfl

/-- Loading fails if the directory cannot be made. -/
theorem load_blocked {e : Io.Error}
    (h : m.files.makeDirectories p.configDirectory = (fs', some e)) :
    load p m = (.value (.error (.io e)), { m with files := fs' }) := by
  unfold load
  rw [Action.bind_of_value (attempt_run _ _), h]
  rfl

/-- A file that is there is read, -/
theorem load_found {i : Id} (h : m.files.makeDirectories p.configDirectory = (fs', none))
    (hi : fs'.resolve p.configFile = .ok i) :
    load p m = (.value (readFrom p.configFile fs'), { m with files := fs' }) := by
  unfold load
  rw [Action.bind_of_value (attempt_run _ _), h]
  dsimp only
  rw [Action.bind_of_value (Action.run_gets _ _)]
  dsimp only
  rw [hi]
  rfl

/-- and where there is none the default settings are written first. -/
theorem load_free (h : m.files.makeDirectories p.configDirectory = (fs', none))
    (hnone : ∀ i, fs'.resolve p.configFile ≠ .ok i) :
    load p m = match writeDefault p.configFile fs' with
      | (fs'', some e) => (.value (.error (.io e)), { m with files := fs'' })
      | (fs'', none) => (.value (.ok .default), ({ m with files := fs'' }).logged .info
        "resfetch_core::config" ("created default config at "
          ++ FilePath.shown p.configFile) []) := by
  have hfree : (fs'.resolve p.configFile).isOk = false := by
    cases hi : fs'.resolve p.configFile with
    | ok i => exact absurd hi (hnone i)
    | error e => rfl
  unfold load
  rw [Action.bind_of_value (attempt_run _ _), h]
  dsimp only
  rw [Action.bind_of_value (Action.run_gets _ _)]
  dsimp only
  rw [hfree, if_neg Bool.false_ne_true, Action.bind_of_value (attempt_run _ _)]
  dsimp only
  rcases writeDefault p.configFile fs' with ⟨fs'', _ | e⟩
  · rfl
  · rfl

/-- Whatever the files are, loading comes to one of its ends. -/
theorem load_loads (hfs : Proper m.files) (p : Places) :
    ∃ r m₁, load p m = (.value r, m₁) ∧ Loads p m.files r m₁.files := by
  have hproper := hfs.makeDirectoriesWithin (p.configDirectory.length + 1) p.configDirectory
  rcases h : m.files.makeDirectories p.configDirectory with ⟨fs', _ | e⟩
  · rw [← makeDirectories, h] at hproper
    by_cases hfound : ∃ i, fs'.resolve p.configFile = .ok i
    · obtain ⟨i, hi⟩ := hfound
      exact ⟨_, _, load_found h hi, .found h hi⟩
    · have hnone := not_exists.1 hfound
      obtain ⟨e, hwrite⟩ | ⟨fs'', dir, name, i, hwrite, hnew, hpatch, hi, hfile⟩ :=
        writeDefault_cases hproper hnone
      · refine ⟨.error (.io e), { m with files := fs' }, ?_, .refused h hnone hwrite⟩
        rw [load_free h hnone, hwrite]
      · have hload := load_free h hnone
        rw [hwrite] at hload
        refine ⟨_, _, hload, ?_⟩
        rw [Operation.logged_files]
        exact .made h hnone hnew hpatch hi hfile
  · exact ⟨_, _, load_blocked h, .blocked h⟩

-- ======================================================= what is left

variable {r : Except LoadError Settings}

/-- What loading makes of the files when it gets as far as to the directory. -/
structure Ready (p : Places) (fs fs' : FileSystem) : Prop where
  /-- The tree is proper, -/
  proper : Proper fs'
  /-- with new directories on the way to that of the settings, -/
  grown : fs.Grown fs' (AtOrAbove p.configDirectory)
  /-- which is there. -/
  directory : fs'.isDirectoryAt p.configDirectory = true
  /-- Only directories are new. -/
  node : ∀ i n, (∀ es, n ≠ .directory es) → fs'.node? i = some n → fs.node? i = some n

/-- Once the directory has been made the place is ready. -/
theorem ready_of_makeDirectories (hfs : Proper fs)
    (h : fs.makeDirectories p.configDirectory = (fs', none)) : Ready p fs fs' := by
  have hproper := hfs.makeDirectoriesWithin (p.configDirectory.length + 1) p.configDirectory
  have hmade := makeDirectories_made hfs p.directory_trimmed
  have hnode := fun i n hn => makeDirectoriesWithin_node? hfs (p.configDirectory.length + 1)
    p.configDirectory (i := i) (n := n) hn
  rw [← makeDirectories, h] at hproper hnode
  rw [h] at hmade
  exact ⟨hproper, hmade.grown,
    makeDirectoriesWithin_isDirectoryAt hfs p.directory_trimmed p.directory_ne_nil h, hnode⟩

theorem Ready.again (h : Ready p fs fs') :
    fs'.makeDirectories p.configDirectory = (fs', none) :=
  makeDirectories_of_isDirectoryAt h.proper p.directory_trimmed h.directory

/-- If the way to the directory only goes down, no directory is missing where the file is found. -/
theorem unchanged_of_found (hfs : Proper fs) (hdown : p.OnlyDown)
    (h : fs.makeDirectories p.configDirectory = (fs', none)) {i : Id}
    (hi : fs'.resolve p.configFile = .ok i) : fs' = fs := by
  have htraced := makeDirectoriesWithin_traced hfs hdown.directory
    (Nat.lt_succ_self p.configDirectory.length)
  rw [← makeDirectories, h] at htraced
  refine (htraced.success rfl).resolve_right fun hbarren => ?_
  have hparent := p.file_standsIn.parent
  rw [hdown.directory.trimmed] at hparent
  refine hbarren.resolve_below hdown.file ?_ hparent p.directory_ne_nil i hi
  rw [p.file_standsIn.components]
  simp

/-- Files and links are as they were. -/
theorem Loads.node (hfs : Proper fs) (h : Loads p fs r fs') {i : Id} {n : Node}
    (hi : fs.node? i = some n) (hn : ∀ es, n ≠ .directory es) : fs'.node? i = some n := by
  have hkept : ∀ {dirs : FileSystem}, fs.Grown dirs (AtOrAbove p.configDirectory) →
      dirs.node? i = some n :=
    fun hgrown => (node?_of_shape hn).1 (hgrown.shapes i n ((node?_of_shape hn).2 hi))
  cases h with
  | blocked h =>
      have hmade := makeDirectories_made hfs p.directory_trimmed
      rw [h] at hmade
      exact hkept hmade.grown
  | found h _ => exact hkept (ready_of_makeDirectories hfs h).grown
  | refused h _ _ => exact hkept (ready_of_makeDirectories hfs h).grown
  | made h _ hnew hpatch _ _ =>
      have hold := hkept (ready_of_makeDirectories hfs h).grown
      have hne : i ≠ _ := fun heq => by
        rw [heq, hnew] at hold
        cases hold
      rw [← node?_of_shape hn, hpatch.shape i hne]
      exact (node?_of_shape hn).2 hold

/-- Paths lead where they did. -/
theorem Loads.resolve (hfs : Proper fs) (h : Loads p fs r fs') {q : FilePath} {i : Id}
    (hq : fs.resolve q = .ok i) : fs'.resolve q = .ok i := by
  cases h with
  | blocked h =>
      have hmade := makeDirectories_made hfs p.directory_trimmed
      rw [h] at hmade
      exact hmade.grown.resolve hfs hq
  | found h _ => exact (ready_of_makeDirectories hfs h).grown.resolve hfs hq
  | refused h _ _ => exact (ready_of_makeDirectories hfs h).grown.resolve hfs hq
  | made h _ hnew hpatch _ _ =>
      have hready := ready_of_makeDirectories hfs h
      have hq' := hready.grown.resolve hfs hq
      refine hpatch.resolve ?_ hq'
      rintro rfl
      exact absurd (hready.proper.resolve_there hq')
        (Nat.not_lt.2 (List.getElem?_eq_none_iff.1 hnew))

/-- Settings that have been read are those of a text that a file holds. -/
theorem readFrom_ok {path : FilePath} {c : Settings} (h : readFrom path fs = .ok c) :
    ∃ i t, fs.resolve path = .ok i ∧ fs.isDirectory i = false
      ∧ Utf8.decode? (fs.content i) = some t ∧ read (String.ofList t) = .ok c := by
  unfold readFrom at h
  rcases hs : fs.contentAt path with e | s
  · rw [hs] at h
    cases h
  · rw [hs] at h
    dsimp only at h
    obtain ⟨i, hi, hdir⟩ := resolve_of_contentAt hs
    rw [contentAt, hi] at hs
    simp only [hdir, Bool.false_eq_true, if_false] at hs
    cases hs
    rcases ht : Utf8.decode? (fs.content i) with _ | t
    · rw [ht] at h
      cases h
    · rw [ht] at h
      dsimp only at h
      rcases hread : read (String.ofList t) with e | c'
      · rw [hread] at h
        cases h
      · rw [hread] at h
        cases h
        exact ⟨i, t, hi, hdir, ht, hread⟩

/-- The text of the default settings is read as the default settings. -/
theorem read_default : read Settings.default.text = .ok .default := by
  have h : (read Settings.default.text).toOption = some Settings.default := by decide +kernel
  rcases hread : read Settings.default.text with e | c
  · rw [hread] at h
    cases h
  · rw [hread] at h
    exact congrArg _ (Option.some.inj h)

/-- Where the settings are from that loading has come to: from a file that was there before, or
from one that it has made. -/
inductive Origin (p : Places) (fs : FileSystem) (c : Settings) (fs' : FileSystem) : Prop where
  /-- The file is as it was. It was found under its path before, unless the way there goes up. -/
  | kept {i : Id} {t : List Char} (hi : fs'.resolve p.configFile = .ok i)
      (hold : fs.node? i = fs'.node? i) (hthere : fs.node? i ≠ none)
      (hdown : p.OnlyDown → fs' = fs)
      (htext : Utf8.decode? (fs'.content i) = some t) (hread : read (String.ofList t) = .ok c)
  /-- The file is new, and holds the default settings. -/
  | created {i : Id} (hfree : ∀ j, fs.resolve p.configFile ≠ .ok j) (hnew : fs.node? i = none)
      (hi : fs'.resolve p.configFile = .ok i) (hdefault : c = .default)
      (hfile : fs'.node? i = some (.file (bytesOf Settings.default.text)))
      (hread : read Settings.default.text = .ok c)

/-- Settings that are loaded are those of a file that was there, or the default ones, which then
stand in the file. -/
theorem Loads.origin (hfs : Proper fs) {c : Settings} (h : Loads p fs (.ok c) fs') :
    Origin p fs c fs' := by
  generalize hr : Except.ok c = r at h
  cases h with
  | blocked => cases hr
  | refused => cases hr
  | found h hi =>
      have hready := ready_of_makeDirectories hfs h
      obtain ⟨i, t, hi, hdir, htext, hread⟩ := readFrom_ok hr.symm
      obtain ⟨n, hnode, hn⟩ := node?_of_lt (hready.proper.resolve_there hi) hdir
      have hold := hready.node i n hn hnode
      exact .kept hi (hold.trans hnode.symm) (by rw [hold]; nofun)
        (fun hdown => unchanged_of_found hfs hdown h hi) htext hread
  | made h hnone hnew hpatch hi hfile =>
      cases hr
      have hready := ready_of_makeDirectories hfs h
      refine .created (fun j hj => hnone j (hready.grown.resolve hfs hj)) ?_ hi rfl hfile
        read_default
      rcases hn : fs.node? _ with _ | n
      · rfl
      · have hshape := hready.grown.shapes _ _ (shape?_of_node hn)
        rw [shape?, hnew] at hshape
        cases hshape

/-- The directory stays where it is when the file is made. -/
theorem Ready.made (hready : Ready p fs fs') {fs'' : FileSystem} {dir i : Id} {name : Bytes}
    {n : Node} (hnew : fs'.node? i = none) (hpatch : fs'.Patch fs'' dir name i (some i))
    (hfile : fs''.node? i = some n) :
    fs''.makeDirectories p.configDirectory = (fs'', none) := by
  have hproper := hpatch.proper hready.proper ⟨_, shape?_of_node hfile⟩ (.inr rfl)
  refine makeDirectories_of_isDirectoryAt hproper p.directory_trimmed ?_
  have hdir := hready.directory
  unfold isDirectoryAt at hdir ⊢
  rcases hj : fs'.resolve p.configDirectory with e | j
  · rw [hj] at hdir
    cases hdir
  · rw [hj] at hdir
    have hne : j ≠ i := by
      rintro rfl
      exact absurd (hready.proper.resolve_there hj)
        (Nat.not_lt.2 (List.getElem?_eq_none_iff.1 hnew))
    rw [hpatch.resolve hne hj]
    exact hpatch.isDirectory hdir

/-- Settings are read back from a file that holds a text of them. -/
theorem readFrom_of_read {path : FilePath} {i : Id} {t : String} {c : Settings}
    (hi : fs.resolve path = .ok i) (hfile : fs.node? i = some (.file (bytesOf t)))
    (hread : read t = .ok c) : readFrom path fs = .ok c := by
  unfold readFrom
  rw [contentAt_of_resolve hi hfile]
  dsimp only
  rw [bytesOf, Utf8.decode?_encode]
  dsimp only
  rw [String.ofList_toList, hread]

/-- Loading again, from the files that it has left, leaves them as they are. It ends as it did,
unless the directory cannot be made and the way there goes up. -/
theorem Loads.again (hfs : Proper fs) (h : Loads p fs r fs') (hm : m.files = fs') :
    load p m = (.value r, m) ∨ ¬ p.OnlyDown ∧ ∃ e e', r = .error (.io e)
      ∧ fs.makeDirectories p.configDirectory = (fs', some e)
      ∧ fs'.makeDirectories p.configDirectory = (fs', some e')
      ∧ load p m = (.value (.error (.io e')), m) := by
  subst hm
  cases h with
  | @blocked _ e h =>
      by_cases hdown : p.OnlyDown
      · exact .inl (load_blocked (makeDirectories_again hfs hdown.directory h))
      · obtain ⟨e', hagain⟩ :=
          makeDirectoriesWithin_stuck hfs p.directory_trimmed (Nat.lt_succ_self _) h
        exact .inr ⟨hdown, e, e', rfl, h, hagain, load_blocked hagain⟩
  | found h hi => exact .inl (load_found (ready_of_makeDirectories hfs h).again hi)
  | refused h hnone hwrite =>
      refine .inl ?_
      rw [load_free (ready_of_makeDirectories hfs h).again hnone, hwrite]
  | made h hnone hnew hpatch hi hfile =>
      refine .inl ?_
      rw [load_found ((ready_of_makeDirectories hfs h).made hnew hpatch hfile) hi,
        readFrom_of_read hi hfile read_default]

-- =========================================================== the theorem

/-- What a load that has ended with `r` says of the files before and after it, and of the next. -/
structure Stable (p : Places) (fs : FileSystem) (r : Except LoadError Settings)
    (fs' : FileSystem) : Prop where
  /-- Files, links and devices are as they were. -/
  nodes : ∀ i n, fs.node? i = some n → (∀ es, n ≠ .directory es) → fs'.node? i = some n
  /-- Every path that led anywhere leads there. -/
  paths : ∀ q i, fs.resolve q = .ok i → fs'.resolve q = .ok i
  /-- Settings are those of the file that is there now, and are loaded once more. -/
  success : ∀ c, r = .ok c → Origin p fs c fs' ∧ ∀ m, m.files = fs' → load p m = (.value r, m)
  /-- A failure fails once more, and for the same reason. Only where the directory cannot be made
  and the way there goes up, another of its refusals may come first. -/
  failure : ∀ e, r = .error e → ∀ m, m.files = fs' → load p m = (.value r, m)
    ∨ ¬ p.OnlyDown ∧ ∃ e₁ e₂, e = .io e₁
      ∧ fs.makeDirectories p.configDirectory = (fs', some e₁)
      ∧ fs'.makeDirectories p.configDirectory = (fs', some e₂)
      ∧ load p m = (.value (.error (.io e₂)), m)

/-- Loading is stable, from whatever files it starts: what was there is not changed, and a second
load leaves everything as the first has left it and comes to the same. The induction on the path
of the directory is that of `makeDirectoriesWithin_stuck` and `makeDirectoriesWithin_traced`. -/
theorem load_stable (p : Places) {m : Machine} (hfs : Proper m.files) :
    ∃ r m₁, load p m = (.value r, m₁) ∧ Stable p m.files r m₁.files := by
  obtain ⟨r, m₁, hload, hloads⟩ := load_loads hfs p
  refine ⟨r, m₁, hload, ⟨fun i n hi hn => hloads.node hfs hi hn,
    fun q i hq => hloads.resolve hfs hq, ?_, ?_⟩⟩
  · rintro c rfl
    refine ⟨hloads.origin hfs, fun m' hm' => ?_⟩
    obtain hagain | ⟨-, e, e', hr, -⟩ := hloads.again hfs hm'
    · exact hagain
    · cases hr
  · rintro e rfl m' hm'
    refine (hloads.again hfs hm').imp_right ?_
    rintro ⟨hup, e₁, e₂, he, hfirst, hsecond, hagain⟩
    exact ⟨hup, e₁, e₂, Except.error.inj he, hfirst, hsecond, hagain⟩

/-- On a machine without files the default settings come out, and are there the next time. -/
theorem load_stable_empty :
    let p : Places := ⟨bytesOf "/home", bytesOf "/home"⟩
    let m := Machine.initial .empty .default
    Proper m.files ∧ ∃ m₁, load p m = (.value (.ok .default), m₁)
      ∧ Stable p m.files (.ok .default) m₁.files := by
  intro p m
  obtain ⟨r, m₁, hload, hstable⟩ := load_stable p (m := m) empty_proper
  have hok : (load p m).1 = .value (.ok .default) := by cbv
  rw [hload] at hok
  cases hok
  exact ⟨empty_proper, m₁, hload, hstable⟩

end TracedTransfer.Config
