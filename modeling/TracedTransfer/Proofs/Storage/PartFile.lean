/-
Part files: what becomes of one from its opening to its end.

The part file of a destination stands beside it (`front_partPath`), in a
directory that is made if it is missing (`withParents_spec`). What is
copied into it is what the reader brings when it is read to the end, as
long as the reader does not read the part file itself (`copy_file`); a
device in its place takes nothing (`copy_full`). In the end the part file
has the destination's name, or it is gone (`commit_spec`).
-/
import TracedTransfer.Proofs.FileSystem.Patch
import TracedTransfer.Proofs.Io.Copy
import TracedTransfer.Storage.PartFile

namespace TracedTransfer.Storage

open Text Io FileSystem FilePath

variable {fs : FileSystem}

-- =============================================================== paths

/-- The name of a part file. -/
def partName (d : FilePath) : Bytes := leaf d ++ partSuffix

/-- The name of a part file has no slash in it. -/
theorem slash_not_mem_partName (d : FilePath) : slash ∉ partName d := by
  unfold partName
  rw [List.mem_append, not_or]
  exact ⟨slash_not_mem_leaf d, by decide⟩

/-- The part file is the front of its destination and that name. -/
theorem partPath_eq (d : FilePath) : partPath d = front d ++ partName d := by
  unfold partPath partName
  rw [← List.append_assoc, front_append_leaf]

/-- A part file stands beside the destination. -/
theorem front_partPath (d : FilePath) : front (partPath d) = front d := by
  rw [partPath_eq, front_append (isFront_front d) (slash_not_mem_partName d)]

/-- The leaf of a part file is its name. -/
theorem leaf_partPath (d : FilePath) : leaf (partPath d) = partName d := by
  rw [partPath_eq, leaf_append (isFront_front d) (slash_not_mem_partName d)]

/-- And it has another name. -/
theorem leaf_ne_partName (d : FilePath) : leaf d ≠ partName d := by
  intro h
  have hlen := congrArg List.length h
  rw [partName, List.length_append] at hlen
  have hpos : 0 < partSuffix.length := by decide
  omega

/-- The name of a part file is that of an entry. -/
theorem partName_named (d : FilePath) :
    partName d ≠ [] ∧ partName d ≠ dot ∧ partName d ≠ dotDot := by
  have hlen : 5 ≤ (partName d).length := by
    rw [partName, List.length_append]
    have hsuffix : partSuffix.length = 5 := by decide
    omega
  refine ⟨?_, ?_, ?_⟩
  · intro h
    rw [h] at hlen
    exact absurd hlen (by decide)
  · intro h
    rw [h] at hlen
    exact absurd hlen (by decide)
  · intro h
    rw [h] at hlen
    exact absurd hlen (by decide)

-- ============================================================== parents

/-- Where a part file's path leads anywhere, the path above is that of a
directory. -/
theorem isDirectoryAt_of_partPath (hfs : Proper fs) {d up : FilePath}
    (hup : d.parent? = some up) (hne : up ≠ []) {place : Place}
    (h : fs.locate false (partPath d) = .ok place) : fs.isDirectoryAt up = true := by
  obtain ⟨hwalk, links, stack, hd, -⟩ := locate_iff.1 h
  have hprefix : d <+: partPath d := ⟨partSuffix, rfl⟩
  have hd₀ : d ≠ [] := by
    rintro rfl
    exact absurd (parent?_length hup) (Nat.not_lt_zero _)
  rw [front_partPath, ← descend_dots, dirs_filter,
    ← start_above hprefix hd₀] at hd
  exact isDirectoryAt_above hfs hup hne (hwalk.above hprefix hd₀) hd

/-- The files with the directories above a destination. -/
def withParents (fs : FileSystem) (d : FilePath) : FileSystem :=
  (PartFile.makeParents fs d).1

/-- Making what is missing above a destination only adds directories
above it. If that fails, the part file's path leads nowhere. -/
theorem withParents_spec (hfs : Proper fs) (d : FilePath) :
    Proper (withParents fs d) ∧ fs.Grown (withParents fs d) (Above · d)
      ∧ ((PartFile.makeParents fs d).2 ≠ none → ∀ place,
        (withParents fs d).locate false (partPath d) ≠ .ok place) := by
  unfold withParents PartFile.makeParents
  split
  · next up hup =>
      split
      · exact ⟨hfs, .refl fs _, fun h => absurd rfl h⟩
      · next hne =>
          rw [List.isEmpty_iff] at hne
          have hproper : Proper (fs.makeDirectories up).1 := hfs.makeDirectoriesWithin _ up
          have hmade := makeDirectories_made hfs (trimmed_parent? hup)
          refine ⟨hproper, hmade.grown.weaken fun q hq => ?_, ?_⟩
          · rcases hq with rfl | hq
            · exact .parent hup
            · exact .further hup hq
          · intro hfailed place hplace
            have hdir := isDirectoryAt_of_partPath hproper hup hne hplace
            rw [hmade.failed hfailed] at hdir
            cases hdir
  · exact ⟨hfs, .refl fs _, fun h => absurd rfl h⟩

/-- Above a path that leads somewhere nothing is missing. -/
theorem makeParents_of_locate (hfs : Proper fs) {d : FilePath} {place : Place}
    (h : fs.locate false d = .ok place) : PartFile.makeParents fs d = (fs, none) := by
  unfold PartFile.makeParents
  split
  · next up hup =>
      split
      · rfl
      · next hne =>
          rw [List.isEmpty_iff] at hne
          rw [makeDirectories_above hfs hup hne h]
  · rfl

theorem withParents_of_locate (hfs : Proper fs) {d : FilePath} {place : Place}
    (h : fs.locate false d = .ok place) : withParents fs d = fs := by
  rw [withParents, makeParents_of_locate hfs h]

-- ============================================================== copying

section copy

variable {ρ : Type} [Source ρ] {w : Bytes}

/-- A part file takes all bytes at its end. -/
theorem writeAll_file {part : PartFile}
    (hnode : fs.node? part.handle.node = some (.file w))
    (hoffset : part.handle.offset = w.length) (data : Bytes) (hdata : data ≠ []) :
    PartFile.writer.writeAll data (fs, part)
      = (.ok (), fs.setNode part.handle.node (.file (w ++ data)),
        { part with handle := ⟨part.handle.node, w.length + data.length⟩ }) := by
  have hwrite : PartFile.writer.write data (fs, part)
      = (.ok data.length, fs.setNode part.handle.node (.file (w ++ data)),
        { part with handle := ⟨part.handle.node, w.length + data.length⟩ }) := by
    show PartFile.write data (fs, part) = _
    simp only [PartFile.write, writeHandle, hnode, overwrite, hoffset, if_true]
  have hlen : data.length ≠ 0 := fun h => hdata (List.length_eq_zero_iff.1 h)
  obtain ⟨fuel, hall⟩ := writeAll_eq PartFile.writer hdata (fs, part)
  rw [hall, writeAllWithin_succ, hwrite]
  simp only [List.isEmpty_iff, if_neg hdata, if_neg hlen, List.drop_length]
  exact writeAllWithin_nil ..

theorem setNode_setNode (fs : FileSystem) (i : FileSystem.Id) (m n : Node) :
    (fs.setNode i m).setNode i n = fs.setNode i n := by
  unfold setNode
  rw [List.set_set]

theorem setNode_self {i : FileSystem.Id} {n : Node} (h : fs.node? i = some n) :
    fs.setNode i n = fs := by
  obtain ⟨hlt, hn⟩ := List.getElem?_eq_some_iff.1 h
  unfold setNode
  rw [← hn, List.set_getElem_self]

/-- What a reader brings goes to the end of the part file, if the reader
does not read that. -/
theorem copyWithin_file (part : PartFile) {kind : ρ → Prop} (hb : Blind part.handle.node kind)
    (hnode : fs.node? part.handle.node = some (.file w))
    (hoffset : part.handle.offset = w.length) (fuel count : Nat) {r : ρ}
    (hr : kind r) : copyWithin Prod.fst PartFile.writer fuel count r (fs, part) =
      { outcome := match (drain fs fuel r).1.2 with
          | none => .ok (count + (drain fs fuel r).1.1.length)
          | some e => .error e
        reader := (drain fs fuel r).2
        state := (fs.setNode part.handle.node (.file (w ++ (drain fs fuel r).1.1)),
          { part with handle := ⟨part.handle.node,
            w.length + (drain fs fuel r).1.1.length⟩ }) } := by
  induction fuel generalizing fs w count r part with
  | zero =>
      rw [drain_zero]
      simp only [List.append_nil, setNode_self hnode, List.length_nil, Nat.add_zero,
        ← hoffset]
      rfl
  | succ fuel ih =>
      have hstays := hb.stays hr fs chunkSize
      unfold copyWithin
      rw [drain_succ]
      rcases hread : Source.read fs chunkSize r with ⟨answer, r'⟩
      rw [hread] at hstays
      cases answer with
      | ok data =>
          dsimp only
          by_cases hdata : data = []
          · simp only [hdata, List.isEmpty_nil, if_true, List.append_nil,
              setNode_self hnode, List.length_nil, Nat.add_zero, ← hoffset]
          -- What was written is no part of what the reader still brings, since the reader does
          -- not see the file.
          · have hlt := lt_of_shape (shape?_of_node hnode)
            have hwritten : (fs.setNode part.handle.node (.file (w ++ data))).node?
                part.handle.node = some (.file (w ++ data)) := by
              rw [node?_setNode hlt, if_pos rfl]
            have hnext := ih { part with
                handle := ⟨part.handle.node, w.length + data.length⟩ } hb hwritten
              (List.length_append).symm (count + data.length) hstays
            rw [hb.drain (.file (w ++ data)) fuel hstays] at hnext
            simp only [List.isEmpty_iff, if_neg hdata,
              writeAll_file hnode hoffset data hdata]
            rw [hnext]
            simp only [setNode_setNode, List.append_assoc, List.length_append,
              Nat.add_assoc]
      | error e =>
          dsimp only
          by_cases he : e.kind = .interrupted
          · simp only [if_pos he]
            exact ih part hb hnode hoffset count hstays
          · simp only [if_neg he, List.append_nil, setNode_self hnode, List.length_nil,
              Nat.add_zero, ← hoffset]

/-- A part file that is a file, and empty as yet, takes everything that a
reader brings. -/
def Fills (fs : FileSystem) (part : PartFile) (r : ρ) : Prop :=
  fs.node? part.handle.node = some (.file []) →
    copy Prod.fst PartFile.writer r (fs, part) =
      { outcome := match (readToEnd fs r).1.2 with
          | none => .ok (readToEnd fs r).1.1.length
          | some e => .error e
        reader := (readToEnd fs r).2
        state := (fs.setNode part.handle.node (.file (readToEnd fs r).1.1),
          { part with handle := ⟨part.handle.node,
            (readToEnd fs r).1.1.length⟩ }) }

/-- A reader that cannot see the part file fills it with all that it
brings. -/
theorem fills_of_blind (part : PartFile) {kind : ρ → Prop}
    (hb : Blind part.handle.node kind) (hoffset : part.handle.offset = 0) {r : ρ}
    (hr : kind r) : Fills fs part r := by
  intro hnode
  have h := copyWithin_file part hb hnode hoffset (Source.pending fs r + 1) 0 hr
  rw [← readToEnd_eq] at h
  simpa only [copy, Nat.zero_add, List.nil_append, List.length_nil] using h

/-- So it does if there is nothing to be brought, be it from the part file
itself. -/
theorem fills_of_empty (part : PartFile) (hoffset : part.handle.offset = 0) {r : ρ}
    (hr : (Source.read fs chunkSize r).1 = .ok []) : Fills fs part r := by
  intro hnode
  unfold copy copyWithin
  rw [readToEnd_eq, drain_succ]
  rcases hread : Source.read fs chunkSize r with ⟨answer, r'⟩
  rw [hread] at hr
  obtain rfl : answer = .ok [] := hr
  simp only [List.isEmpty_nil, if_true, setNode_self hnode, List.length_nil, ← hoffset]

/-- A device takes no byte. -/
theorem copyWithin_full (part : PartFile)
    (hnode : fs.node? part.handle.node = some .full)
    (fuel count : Nat) (r : ρ) :
    (copyWithin Prod.fst PartFile.writer fuel count r (fs, part)).state = (fs, part)
      ∧ (copyWithin Prod.fst PartFile.writer fuel count r (fs, part)).outcome
        = if (drain fs fuel r).1.1 = [] then
            match (drain fs fuel r).1.2 with
            | none => .ok count
            | some e => .error e
          else .error (.system .storageFull) := by
  induction fuel generalizing count r with
  | zero => exact ⟨rfl, rfl⟩
  | succ fuel ih =>
      unfold copyWithin
      rw [drain_succ]
      rcases Source.read fs chunkSize r with ⟨answer, r'⟩
      cases answer with
      | ok data =>
          dsimp only
          by_cases hdata : data = []
          · simp only [hdata, List.isEmpty_nil, if_true]
            exact ⟨trivial, trivial⟩
          · have hwrite : PartFile.writer.write data (fs, part)
                = (.error (.system .storageFull), fs, part) := by
              show PartFile.write data (fs, part) = _
              simp only [PartFile.write, writeHandle, hnode, List.isEmpty_iff,
                if_neg hdata]
            have hall : PartFile.writer.writeAll data (fs, part)
                = (.error (.system .storageFull), fs, part) := by
              obtain ⟨fuel, hall⟩ := writeAll_eq PartFile.writer hdata (fs, part)
              rw [hall, writeAllWithin_succ, hwrite]
              simp only [List.isEmpty_iff, if_neg hdata]
              rfl
            -- Whatever comes later, something has come that could not be
            -- written.
            have happend : data ++ (drain fs fuel r').1.1 ≠ [] := fun h =>
              hdata (List.append_eq_nil_iff.1 h).1
            simp only [List.isEmpty_iff, if_neg hdata, hall, if_neg happend]
            exact ⟨trivial, trivial⟩
      | error e =>
          dsimp only
          by_cases he : e.kind = .interrupted
          · simp only [if_pos he]
            exact ih count r'
          · simp only [if_neg he, if_true]
            exact ⟨trivial, trivial⟩

/-- A device that is full takes no byte, so the copy fails unless there is
nothing to copy. -/
theorem copy_full (part : PartFile)
    (hnode : fs.node? part.handle.node = some .full) (r : ρ) :
    (copy Prod.fst PartFile.writer r (fs, part)).state = (fs, part)
      ∧ (copy Prod.fst PartFile.writer r (fs, part)).outcome
        = if (readToEnd fs r).1.1 = [] then
            match (readToEnd fs r).1.2 with
            | none => .ok 0
            | some e => .error e
          else .error (.system .storageFull) := by
  rw [readToEnd_eq]
  exact copyWithin_full part hnode _ 0 r

end copy

-- ============================================================ the end

section commit

variable {fs₁ fs₂ : FileSystem} {d : FilePath} {h : Handle}
  {stack : List FileSystem.Id}

/-- A part file is taken away by its name. -/
theorem remove_eq (part : PartFile) (ho : fs.Opened fs₁ (partPath d) h stack)
    (hpart : part.destination = d)
    (hp : fs.Patch fs₂ (top stack) (partName d) h.node (some h.node))
    (hnode : fs₂.isDirectory h.node = false) :
    part.remove fs₂ = (fs₂.removeEntry (top stack) (partName d), none) := by
  rw [← leaf_partPath] at hp
  unfold PartFile.remove PartFile.path
  rw [hpart, ho.removeFile hp hnode, leaf_partPath]

/-- A path that asks for no directory has no slash at its end. -/
theorem trimmed_of_not_asks (h : asksForDirectory d = false) : Trimmed d := by
  by_cases hempty : d = []
  · exact .inl hempty
  · refine .inr (.inr fun hleaf => ?_)
    have hfront := front_append_leaf d
    rw [hleaf, List.append_nil] at hfront
    rcases isFront_front d with hf | ⟨g, hg⟩
    · exact hempty (hfront.symm.trans hf)
    · rw [asksForDirectory, ← hfront, hg, List.getLast?_concat] at h
      simp at h

/-- The front of a destination descends to where its part file stands, so
it is there that the destination's leaf is looked for. -/
theorem locate_destination (ho : fs.Opened fs₁ (partPath d) h stack)
    (hleads : fs.Leads fs₂) (hwork : fs₂.workingDirectory = fs.workingDirectory)
    (hd : d ≠ []) (place : Place) : fs₂.locate false d = .ok place
      ↔ fs₂.arrive stack (lastStep (leaf d)) = .ok place := by
  have hprefix : d <+: partPath d := ⟨partSuffix, rfl⟩
  obtain ⟨links, hdesc⟩ := ho.descends
  rw [front_partPath, ← start_above hprefix hd] at hdesc
  have hdesc₂ := descend_mono hleads hdesc
  rw [← hwork] at hdesc₂
  rw [locate_iff]
  constructor
  · rintro ⟨-, links', stack', hdesc', ha⟩
    rw [hdesc₂] at hdesc'
    cases hdesc'
    exact ha
  · intro ha
    exact ⟨ho.walkable.above hprefix hd, links, stack, hdesc₂, ha⟩

/-- A path with a name at its end asks for no directory. -/
theorem asks_of_leaf (hd : leaf d ≠ []) : asksForDirectory d = false := by
  have h := getLast?_ne_slash (f := front d) (slash_not_mem_leaf d) hd
  rw [front_append_leaf] at h
  rw [asksForDirectory, decide_eq_false h]

/-- When the copy has ended, the part file is found where it was opened. -/
theorem locateName_part (ho : fs.Opened fs₁ (partPath d) h stack)
    (hp : fs.Patch fs₂ (top stack) (partName d) h.node (some h.node)) :
    fs₂.locateName (partPath d) = .ok (.named stack (partName d) (some h.node)) := by
  have hleaf : leaf (partPath d) ≠ [] := by
    rw [leaf_partPath]
    exact (partName_named d).1
  rw [← leaf_partPath] at hp
  rw [locateName_of_trimmed fs₂ (.inr (.inr hleaf)), ho.locate_patch hp,
    leaf_partPath]

/-- The name of a destination is beside that of its part file, and is found
there when the part file has been written. -/
theorem locateName_destination (ho : fs.Opened fs₁ (partPath d) h stack)
    (hp : fs.Patch fs₂ (top stack) (partName d) h.node (some h.node))
    {stack' : List FileSystem.Id} {name : Bytes} {old : Option FileSystem.Id}
    (hplace : fs.locate false d = .ok (.named stack' name old)) : leaf d ≠ []
      ∧ fs₂.locateName d = .ok (.named stack (leaf d) old) := by
  have hne := (locate_iff.1 hplace).1.nonempty
  rw [locate_destination ho (.refl fs) rfl hne] at hplace
  obtain ⟨hleaf, hlen, rfl, -, hold⟩ := arrive_leaf.1 hplace
  refine ⟨hleaf.1, ?_⟩
  rw [locateName_of_trimmed fs₂ (.inr (.inr hleaf.1)),
    locate_destination ho hp.leads hp.working hne]
  refine arrive_leaf.2 ⟨hleaf, hlen, rfl, rfl, ?_⟩
  rw [hp.lookup, if_neg fun hc => leaf_ne_partName d hc.2, ← hold]

/-- A part file gets the name of what is no directory. -/
theorem isDirectory_of_rename_error (hfs : Proper fs)
    (ho : fs.Opened fs₁ (partPath d) h stack)
    (hp : fs.Patch fs₂ (top stack) (partName d) h.node (some h.node))
    (hdir : fs₂.isDirectory h.node = false) {e : Error}
    (hr : fs₂.rename (partPath d) d = .error e) {stack' : List FileSystem.Id}
    {name : Bytes} {old : Option FileSystem.Id}
    (hplace : fs.locate false d = .ok (.named stack' name old)) :
    ∃ j, old = some j ∧ fs.isDirectory j = true := by
  obtain ⟨hleaf, htarget⟩ := locateName_destination ho hp hplace
  have hpart : asksForDirectory (partPath d) = false := by
    refine asks_of_leaf ?_
    rw [leaf_partPath]
    exact (partName_named d).1
  obtain ⟨j, hj, hmem | hj₂⟩ :=
    rename_error (locateName_part ho hp) hdir hpart htarget (asks_of_leaf hleaf) hr
  · obtain ⟨links, hdesc⟩ := ho.descends
    exact ⟨j, hj, descend_directories hdesc (start_directories hfs.working _) j hmem⟩
  · have hne : j ≠ h.node := by
      rintro rfl
      rw [hdir] at hj₂
      cases hj₂
    exact ⟨j, hj, (isDirectory_congr (hp.shape j hne)).symm.trans hj₂⟩

/-- So it gets the name of what could be read. -/
theorem contentAt_of_rename_error (hfs : Proper fs)
    (ho : fs.Opened fs₁ (partPath d) h stack)
    (hp : fs.Patch fs₂ (top stack) (partName d) h.node (some h.node))
    (hdir : fs₂.isDirectory h.node = false) {e : Error}
    (hr : fs₂.rename (partPath d) d = .error e) (t : Bytes) :
    fs.contentAt d ≠ .ok t := by
  intro ht
  obtain ⟨j, hres, hj⟩ := resolve_of_contentAt ht
  obtain ⟨-, stack', k, hplace, hk⟩ := locate_of_resolve hfs hres hj
  obtain ⟨k', hold, hdirectory⟩ := isDirectory_of_rename_error hfs ho hp hdir hr hplace
  cases hold
  rw [hk] at hdirectory
  cases hdirectory

/-- A part file that is a file can be stored, so its end is that of the
rename. -/
theorem commit_of_file (part : PartFile) (hpart : part.destination = d) {s : Bytes}
    (hnode : fs₂.node? part.handle.node = some (.file s)) :
    part.commit fs₂ = match fs₂.rename (partPath d) d with
      | .ok fs₃ => ⟨fs₃, .ok (), none⟩
      | .error e => ⟨(part.remove fs₂).1, .error e, (part.remove fs₂).2⟩ := by
  have hsync : fs₂.syncHandle part.handle = .ok () := by rw [syncHandle, hnode]
  unfold PartFile.commit
  rw [hsync, PartFile.path, hpart]
  rfl

/-- A part file that is complete takes the destination's name, or is taken
away, which it is not if the destination could be read. -/
theorem commit_spec (part : PartFile) (hfs : Proper fs)
    (ho : fs.Opened fs₁ (partPath d) h stack) (hpart : part.destination = d)
    (hhandle : part.handle.node = h.node)
    (hp : fs.Patch fs₂ (top stack) (partName d) h.node (some h.node))
    {s : Bytes} (hnode : fs₂.node? h.node = some (.file s)) :
    (∃ e, part.commit fs₂
        = ⟨fs₂.removeEntry (top stack) (partName d), .error e, none⟩
      ∧ ∀ t, fs.contentAt d ≠ .ok t)
    ∨ fs.locate false d
        = .ok (.named stack (leaf d) (fs.lookup (top stack) (leaf d)))
      ∧ ∃ fs₃, part.commit fs₂ = ⟨fs₃, .ok (), none⟩
        ∧ (fs.lookup (top stack) (leaf d) = some h.node ∧ fs₃ = fs₂
          ∨ (∀ j, fs.lookup (top stack) (leaf d) = some j →
              fs.isDirectory j = false)
            ∧ fs₃ = (fs₂.removeEntry (top stack) (partName d)).setEntry
              (top stack) (leaf d) h.node) := by
  have hdir : fs₂.isDirectory h.node = false :=
    isDirectory_eq_false hnode fun es he => by cases he
  rw [commit_of_file part hpart (hhandle ▸ hnode)]
  rcases hr : fs₂.rename (partPath d) d with e | fs₃
  · left
    refine ⟨e, ?_, contentAt_of_rename_error hfs ho hp hdir hr⟩
    simp only [remove_eq part ho hpart hp hdir]
  · right
    -- The rename goes to the name under which the destination was located before.
    obtain ⟨hask, st, name, old, htarget, hcases⟩ := rename_ok (locateName_part ho hp) hdir hr
    rw [locateName_of_trimmed fs₂ (trimmed_of_not_asks hask)] at htarget
    have hne := (locate_iff.1 htarget).1.nonempty
    rw [locate_destination ho hp.leads hp.working hne] at htarget
    obtain ⟨hleaf, hlen, rfl, rfl, hold⟩ := arrive_leaf.1 htarget
    rw [hp.lookup, if_neg fun hc => leaf_ne_partName d hc.2] at hold
    subst hold
    refine ⟨?_, fs₃, rfl, ?_⟩
    · rw [locate_destination ho (.refl fs) rfl hne]
      exact arrive_leaf.2 ⟨hleaf, hlen, rfl, rfl, rfl⟩
    · refine hcases.imp_right fun hnew => ⟨fun j hj => ?_, hnew.2.2⟩
      rw [Bool.eq_false_iff]
      intro hj'
      have hdir' := hnew.2.1 j hj
      rw [hp.isDirectory hj'] at hdir'
      cases hdir'

end commit

end TracedTransfer.Storage
