/-
Making directories.

What is made on the way to a directory only adds to a file system:
`Grown` says that all names and nodes are still there, and that every
name there is more leads to a new directory at one of the paths that were
asked for. The directories made before a failure stay, so this holds of
failures too; and after a failure the path does not lead to a directory
(`makeDirectories_made`).
-/
import TracedTransfer.Proofs.FileSystem.Reached

namespace TracedTransfer

open Text

namespace FilePath

/-- A path that is reached by going up from another one. -/
inductive Above : FilePath → FilePath → Prop where
  /-- The path without its last component is above it, -/
  | parent {p up : FilePath} : p.parent? = some up → Above up p
  /-- and so is all that is above that. -/
  | further {p up q : FilePath} : p.parent? = some up → Above q up → Above q p

/-- A path that does not end in a slash, or is the root, or is empty. -/
def Trimmed (p : FilePath) : Prop := p = [] ∨ p = [slash] ∨ leaf p ≠ []

/-- What is above a path is trimmed. -/
theorem trimmed_parent? {p up : FilePath} (h : p.parent? = some up) : Trimmed up := by
  obtain ⟨-, -, rfl⟩ := parent?_eq h
  unfold Trimmed
  by_cases hempty : trimEnd (front (trimEnd p)) = []
  · exact .inl hempty
  · by_cases hroot : trimEnd (front (trimEnd p)) = [slash]
    · exact .inr (.inl hroot)
    · exact .inr (.inr (leaf_trimEnd hempty hroot))

end FilePath

namespace FileSystem

open FilePath

variable {fs fs' fs'' : FileSystem}

-- ============================================================== growing

/-- A file system with further directories, each at a path of a kind. -/
structure Grown (fs fs' : FileSystem) (here : FilePath → Prop) : Prop where
  /-- One is in the same directory. -/
  working : fs'.workingDirectory = fs.workingDirectory
  /-- What was there has the same shape, -/
  shapes : ∀ i n, fs.shape? i = some n → fs'.shape? i = some n
  /-- and each name leads to what it led to. -/
  names : ∀ dir name i, fs.lookup dir name = some i → fs'.lookup dir name = some i
  /-- What is new is a directory at one of the paths. -/
  fresh : ∀ dir name i, fs'.lookup dir name = some i →
    fs.lookup dir name = some i ∨ (fs.shape? i = none ∧ fs'.isDirectory i = true
      ∧ ∃ p, here p ∧ fs'.resolve p = .ok i)

/-- A tree grows by nothing. -/
theorem Grown.refl (fs : FileSystem) (here : FilePath → Prop) : fs.Grown fs here where
  working := rfl
  shapes _ _ h := h
  names _ _ _ h := h
  fresh _ _ _ h := .inl h

/-- Where names and shapes are still there, so are all turns. -/
theorem leads_of_names (hshapes : ∀ i n, fs.shape? i = some n → fs'.shape? i = some n)
    (hnames : ∀ dir name i, fs.lookup dir name = some i →
      fs'.lookup dir name = some i) : fs.Leads fs' := by
  refine leads_of_kept fun dir name i hl hi => ⟨hnames dir name i hl, ?_⟩
  rcases hi with hd | ⟨target, hn⟩
  · have hs := isDirectory_iff_shape.1 hd
    rw [hs, hshapes i _ hs]
  · have hs := shape?_of_node hn
    rw [hs, hshapes i _ hs]

/-- A tree that has grown still leads wherever it led. -/
theorem Grown.leads {here : FilePath → Prop} (h : fs.Grown fs' here) :
    fs.Leads fs' := leads_of_names h.shapes h.names

/-- A path still leads to a node when all turns and the names of the node
are still there. -/
theorem resolve_mono (h : fs.Leads fs')
    (hw : fs'.workingDirectory = fs.workingDirectory) {p : FilePath} {i : Id}
    (hnames : ∀ dir name, name.length ≤ maxName → fs.lookup dir name = some i →
      fs'.lookup dir name = some i)
    (hlink : ∀ target, fs'.node? i = some (.link target) →
      fs.node? i = some (.link target))
    (hp : fs.resolve p = .ok i) : fs'.resolve p = .ok i := by
  obtain ⟨place, hl, hnode⟩ := resolve_ok_iff.1 hp
  obtain ⟨hwalk, hwalked⟩ := locate_walk.1 hl
  obtain ⟨place', hwalked', hn⟩ := walk_mono h hnames hlink hwalked hnode
  rw [← hw] at hwalked'
  exact resolve_ok_iff.2 ⟨place', locate_walk.2 ⟨hwalk, hwalked'⟩, hn⟩

/-- The names of directories are turns. -/
theorem resolve_directory_mono (h : fs.Leads fs')
    (hw : fs'.workingDirectory = fs.workingDirectory) {p : FilePath} {i : Id}
    (hp : fs.resolve p = .ok i) (hi : fs.isDirectory i = true)
    (hi' : fs'.isDirectory i = true) : fs'.resolve p = .ok i := by
  refine resolve_mono h hw ?_ ?_ hp
  · intro dir name hlen hl
    exact (turn_into.1 (h _ _ _ (turn_into.2 ⟨hlen, hl, hi⟩))).2.1
  · intro target hn
    rw [isDirectory_eq_false hn (by simp)] at hi'
    cases hi'

/-- Files are still there. -/
theorem Grown.file {here : FilePath → Prop} (h : fs.Grown fs' here) {i : Id} {s : Bytes}
    (hi : fs.node? i = some (.file s)) : fs'.node? i = some (.file s) := by
  have hshape := h.shapes i _ (shape?_of_node hi)
  exact (node?_of_shape (by simp)).1 hshape

/-- Paths lead where they did. -/
theorem Grown.resolve {here : FilePath → Prop} (h : fs.Grown fs' here) (hfs : Proper fs)
    {p : FilePath} {i : Id} (hp : fs.resolve p = .ok i) : fs'.resolve p = .ok i := by
  refine resolve_mono h.leads h.working (fun dir name _ => h.names dir name i) ?_ hp
  intro target hn
  obtain ⟨n, hn'⟩ := shape?_of_lt (hfs.resolve_there hp)
  have hsame := (h.shapes i n hn').symm.trans (shape?_of_node hn)
  rw [Option.some.inj hsame] at hn'
  exact (node?_of_shape (by simp)).1 hn'

/-- Paths to files lead there. -/
theorem Grown.resolve_file {here : FilePath → Prop} (h : fs.Grown fs' here)
    {p : FilePath} {i : Id} {s : Bytes} (hp : fs.resolve p = .ok i)
    (hi : fs.node? i = some (.file s)) : fs'.resolve p = .ok i := by
  refine resolve_mono h.leads h.working (fun dir name _ => h.names dir name i) ?_ hp
  intro target hn
  rw [h.file hi] at hn
  cases hn

/-- What has grown may grow on, -/
theorem Grown.trans {here : FilePath → Prop} (h : fs.Grown fs' here)
    (h' : fs'.Grown fs'' here) : fs.Grown fs'' here where
  working := h'.working.trans h.working
  shapes i n hs := h'.shapes i n (h.shapes i n hs)
  names dir name i hl := h'.names dir name i (h.names dir name i hl)
  fresh dir name i hl := by
    rcases h'.fresh dir name i hl with hl' | ⟨hnone, hd, p, hp, hr⟩
    · rcases h.fresh dir name i hl' with hl'' | ⟨hnone, hd, p, hp, hr⟩
      · exact .inl hl''
      · have hshape := h'.shapes i _ (isDirectory_iff_shape.1 hd)
        have hd' := isDirectory_iff_shape.2 hshape
        exact .inr ⟨hnone, hd', p, hp,
          resolve_directory_mono h'.leads h'.working hr hd hd'⟩
    · refine .inr ⟨?_, hd, p, hp, hr⟩
      rcases hs : fs.shape? i with _ | n
      · rfl
      · rw [h.shapes i n hs] at hnone
        cases hnone

/-- and it may be said to have grown at more places. -/
theorem Grown.weaken {here here' : FilePath → Prop} (h : fs.Grown fs' here)
    (hh : ∀ p, here p → here' p) : fs.Grown fs' here' where
  working := h.working
  shapes := h.shapes
  names := h.names
  fresh := by
    intro dir name i hl
    obtain hold | ⟨hnone, hd, p, hp, hr⟩ := h.fresh dir name i hl
    · exact .inl hold
    · exact .inr ⟨hnone, hd, p, hh p hp, hr⟩

-- ======================================================== one directory

/-- A path without slashes at its end is asked for as it stands. -/
theorem locateName_of_trimmed (fs : FileSystem) {p : FilePath} (hp : Trimmed p) :
    fs.locateName p = fs.locate false p := by
  rcases hp with rfl | rfl | hleaf
  · rfl
  · rfl
  · have hfirst : p.reverse.dropWhile (· = slash) = p.reverse := by
      unfold leaf at hleaf
      rcases hr : p.reverse with _ | ⟨b, r⟩
      · rfl
      · refine List.dropWhile_cons_of_neg fun hb => hleaf ?_
        rw [hr, List.takeWhile_cons_of_neg (by simpa using hb)]
        rfl
    unfold locateName
    rw [hfirst, List.reverse_reverse]
    dsimp only
    split
    · rfl
    · rfl

/-- A directory is made as a new node, where there was none. -/
theorem makeDirectory_eq {p : FilePath} (hp : Trimmed p)
    (h : fs.makeDirectory p = .ok fs') : ∃ links stack,
      Walkable p ∧ leaf p ≠ [] ∧ leaf p ≠ dot ∧ leaf p ≠ dotDot
      ∧ (leaf p).length ≤ maxName
      ∧ fs.descend maxLinks (start fs.workingDirectory p) (dirs (front p))
        = .ok (links, stack)
      ∧ fs.lookup (top stack) (leaf p) = none
      ∧ fs' = fs.create (top stack) (leaf p) (.directory []) := by
  obtain ⟨stack, name, hl, hmade⟩ := makeDirectory_created h
  rw [locateName_of_trimmed fs hp] at hl
  obtain ⟨hwalk, ⟨links, hd⟩, ⟨hleaf, hdot, hdots⟩, hlen, rfl, hnone⟩ := locate_leaf.1 hl
  exact ⟨links, stack, hwalk, hleaf, hdot, hdots, hlen, hd, hnone.symm, hmade⟩

/-- A descent that goes on through the leaf of a path. -/
theorem descend_leaf {p : FilePath} (hp : p ≠ []) (hleaf : leaf p ≠ []) (hdot : leaf p ≠ dot)
    (hdots : leaf p ≠ dotDot) {stack₀ : List Id} {links : Nat} {stack : List Id} {i : Id}
    (hd : fs.descend maxLinks stack₀ (dirs (front p)) = .ok (links, stack))
    (ht : fs.turn (top stack) (leaf p) = .ok (.into i)) :
    fs.descend maxLinks stack₀ (steps p) = .ok (links, i :: stack) := by
  rw [steps_eq hp, descend_append, hd, lastStep, if_neg hleaf]
  simp only [Except.bind]
  rw [descend_cons]
  simp only [advance, if_neg hdot, if_neg hdots, ht]
  exact descend_nil ..

/-- A new directory can be gone into. -/
theorem turn_create {dir : Id} {name : Bytes} (hd : fs.isDirectory dir = true)
    (hlen : name.length ≤ maxName) :
    (fs.create dir name (.directory [])).turn dir name = .ok (.into fs.nodes.length) := by
  refine turn_into.2 ⟨hlen, ?_, isDirectory_create hd name⟩
  rw [lookup_create (by simp) hd, if_pos ⟨rfl, rfl⟩]

/-- To make a directory lets the tree grow at its path. -/
theorem makeDirectory_grown (hfs : Proper fs) {p : FilePath} (hp : Trimmed p)
    (h : fs.makeDirectory p = .ok fs') : fs.Grown fs' (· = p) := by
  obtain ⟨links, stack, hwalk, hleaf, hdot, hdots, hlen, hdesc, hnone, rfl⟩ :=
    makeDirectory_eq hp h
  have hd := hfs.top_isDirectory (descend_directories hdesc (start_directories hfs.working p))
  have hempty : ∀ es, Node.directory [] = .directory es → es = [] :=
    fun es he => (Node.directory.inj he).symm
  -- The new node has a number that none had.
  have hshapes : ∀ i n, fs.shape? i = some n →
      (fs.create (top stack) (leaf p) (.directory [])).shape? i = some n := by
    intro i n hs
    rw [shape?_create hd, if_neg (Nat.ne_of_lt (lt_of_shape hs)), hs]
  have hnames : ∀ dir name i, fs.lookup dir name = some i →
      (fs.create (top stack) (leaf p) (.directory [])).lookup dir name = some i := by
    intro dir name i hl
    rw [lookup_create hempty hd, if_neg, hl]
    rintro ⟨rfl, rfl⟩
    rw [hnone] at hl
    cases hl
  refine ⟨rfl, hshapes, hnames, ?_⟩
  intro dir name i hl
  rw [lookup_create hempty hd] at hl
  split at hl
  · cases hl
    refine .inr ⟨?_, isDirectory_create hd (leaf p), p, rfl, ?_⟩
    · rcases hs : fs.shape? fs.nodes.length with _ | n
      · rfl
      · exact absurd (lt_of_shape hs) (Nat.lt_irrefl _)
    · -- The path descends as it did, and then into the new directory.
      have hdescend := descend_leaf hwalk.nonempty hleaf hdot hdots
        (descend_mono (leads_of_names hshapes hnames) hdesc) (turn_create hd hlen)
      obtain ⟨q, hq, hn⟩ := walk_of_descend hdescend
      exact resolve_ok_iff.2 ⟨q, locate_walk.2 ⟨hwalk, hq⟩, hn⟩
  · exact .inl hl

/-- Where there is a directory, none is made. -/
theorem makeDirectory_of_isDirectoryAt (hfs : Proper fs) {p : FilePath}
    (hp : Trimmed p) (h : fs.isDirectoryAt p = true) :
    fs.makeDirectory p = .error (.system .alreadyExists) := by
  obtain ⟨hwalk, place, hd⟩ := (isDirectoryAt_iff hfs).1 h
  rw [components_eq, descend_dots, steps_eq hwalk.nonempty, descend_append] at hd
  rcases hfront : fs.descend maxLinks (start fs.workingDirectory p)
    (dirs (front p)) with k | ⟨links, stack⟩
  · rw [hfront] at hd
    cases hd
  · rw [hfront] at hd
    simp only [Except.bind] at hd
    rw [descend_cons] at hd
    have hlocate : ∀ place, fs.arrive stack (lastStep (leaf p)) = .ok place →
        fs.locate false p = .ok place := fun place ha =>
      locate_iff.2 ⟨hwalk, links, stack, hfront, ha⟩
    rw [makeDirectory, locateName_of_trimmed fs hp]
    by_cases hdot : lastStep (leaf p) = dot
    · rw [hlocate (.unnamed stack) (by rw [arrive, if_pos hdot])]
    · by_cases hdots : lastStep (leaf p) = dotDot
      · rw [hlocate (.unnamed stack.tail) (by rw [arrive, if_neg hdot, if_pos hdots])]
      · -- The descent goes on through the leaf, so it names something.
        have hturn : ∃ t, fs.turn (top stack) (lastStep (leaf p)) = .ok t := by
          rcases ht : fs.turn (top stack) (lastStep (leaf p)) with k | t
          · simp only [advance, if_neg hdot, if_neg hdots, ht] at hd
            cases hd
          · exact ⟨t, rfl⟩
        obtain ⟨t, ht⟩ := hturn
        have hnamed : (lastStep (leaf p)).length ≤ maxName
            ∧ ∃ i, fs.lookup (top stack) (lastStep (leaf p)) = some i := by
          cases t with
          | into i =>
              obtain ⟨hlen, hl, -⟩ := turn_into.1 ht
              exact ⟨hlen, i, hl⟩
          | along target =>
              obtain ⟨hlen, i, hl, -⟩ := turn_along.1 ht
              exact ⟨hlen, i, hl⟩
        obtain ⟨hlen, i, hl⟩ := hnamed
        rw [hlocate (.named stack (lastStep (leaf p)) (some i))
          (arrive_named.2 ⟨hdot, hdots, hlen, rfl, rfl, hl.symm⟩)]

-- ====================================================== all directories

/-- The path itself, or one above it. -/
def AtOrAbove (p q : FilePath) : Prop := q = p ∨ Above q p

theorem makeDirectoriesWithin_nil (fs : FileSystem) {fuel : Nat} (h : 0 < fuel) :
    makeDirectoriesWithin fuel fs [] = (fs, none) := by
  cases fuel with
  | zero => omega
  | succ fuel => rfl

/-- What making the directories on the way to a path leaves: it only adds
some of them, and if it fails, the path does not lead to a directory. -/
structure Made (fs : FileSystem) (p : FilePath) (made : FileSystem × Option Io.Error) :
    Prop where
  /-- Directories are new, at the path or above it, -/
  grown : fs.Grown made.1 (AtOrAbove p)
  /-- and if that failed there is none at the path. -/
  failed : made.2 ≠ none → made.1.isDirectoryAt p = false

/-- Nothing is made where something fails at once, or is there already. -/
theorem Made.unchanged (p : FilePath) {failure : Option Io.Error}
    (h : failure ≠ none → fs.isDirectoryAt p = false) : fs.Made p (fs, failure) :=
  ⟨.refl fs _, h⟩

/-- One directory is made where those above it are there. -/
theorem made_of_makeDirectory (hfs : Proper fs) {p : FilePath} (hp : Trimmed p)
    (h : fs.makeDirectory p = .ok fs') : fs.Made p (fs', none) where
  grown := (makeDirectory_grown hfs hp h).weaken fun _ hq => .inl hq
  failed h := absurd rfl h

/-- What has been made for the path above has been made for the path. -/
theorem Made.grown_above {p up : FilePath} {made : FileSystem × Option Io.Error}
    (h : fs.Made up made) (hup : p.parent? = some up) : fs.Grown made.1 (AtOrAbove p) := by
  refine h.grown.weaken fun q hq => ?_
  rcases hq with rfl | hq
  · exact .inr (.parent hup)
  · exact .inr (.further hup hq)

/-- Without the path above there is no directory at the path. -/
theorem Made.stuck {p up : FilePath} {e : Io.Error} (hfs' : Proper fs')
    (h : fs.Made up (fs', some e)) (hup : p.parent? = some up) (hne : up ≠ []) :
    fs.Made p (fs', some e) := by
  refine ⟨h.grown_above hup, fun _ => ?_⟩
  rw [Bool.eq_false_iff]
  intro hdir
  have hup' := isDirectoryAt_parent hfs' hup hne hdir
  rw [h.failed (by simp)] at hup'
  cases hup'

/-- With the path above, what is left to make is the path itself. -/
theorem Made.last {p up : FilePath} (hfs' : Proper fs') (hp : Trimmed p)
    (h : fs.Made up (fs', none)) (hup : p.parent? = some up) :
    fs.Made p (match fs'.makeDirectory p with
      | .ok fs => (fs, none)
      | .error e => if fs'.isDirectoryAt p then (fs', none) else (fs', some e)) := by
  have hgrown := h.grown_above hup
  split
  · next fs₂ hm =>
      have hlast := made_of_makeDirectory hfs' hp hm
      exact ⟨hgrown.trans hlast.grown, hlast.failed⟩
  · split
    · exact ⟨hgrown, fun h => absurd rfl h⟩
    · next hdir => exact ⟨hgrown, fun _ => Bool.eq_false_iff.2 hdir⟩

/-- Otherwise it is one more than for the path above: the induction is on
the rounds, of which a path needs no more than it has bytes, -/
theorem makeDirectoriesWithin_made (hfs : Proper fs) {p : FilePath}
    (hp : Trimmed p) {fuel : Nat} (hfuel : p.length < fuel) :
    fs.Made p (makeDirectoriesWithin fuel fs p) := by
  induction fuel generalizing fs p with
  | zero => omega
  | succ fuel ih =>
      unfold makeDirectoriesWithin
      split
      · exact .unchanged p fun h => absurd rfl h
      · split
        · next fs' hm => exact made_of_makeDirectory hfs hp hm
        · next e hm =>
            split
            · next hkind =>
                split
                · -- What failed for want of a directory is not there.
                  refine .unchanged p fun _ => ?_
                  rw [Bool.eq_false_iff]
                  intro hdir
                  rw [makeDirectory_of_isDirectoryAt hfs hp hdir] at hm
                  cases hm
                  cases hkind
                · next up hup =>
                    -- The path above is shorter, so the fuel that is left
                    -- is enough for it.
                    have hlen := parent?_length hup
                    have hproper := hfs.makeDirectoriesWithin fuel up
                    have hmade := ih hfs (trimmed_parent? hup) (p := up) (by omega)
                    split
                    · next fs₁ e₁ hmk =>
                        rw [hmk] at hproper hmade
                        refine hmade.stuck hproper hup ?_
                        rintro rfl
                        rw [makeDirectoriesWithin_nil fs (by omega)] at hmk
                        cases hmk
                    · next fs₁ hmk =>
                        rw [hmk] at hproper hmade
                        exact hmade.last hproper hp hup
            · split
              · exact .unchanged p fun h => absurd rfl h
              · next hdir => exact .unchanged p fun _ => Bool.eq_false_iff.2 hdir

/-- so there are enough of them. -/
theorem makeDirectories_made (hfs : Proper fs) {p : FilePath} (hp : Trimmed p) :
    fs.Made p (fs.makeDirectories p) :=
  makeDirectoriesWithin_made hfs hp (Nat.lt_succ_self _)

/-- Where there is a directory, nothing is made. -/
theorem makeDirectoriesWithin_of_isDirectoryAt (hfs : Proper fs) {p : FilePath}
    (hp : Trimmed p) (h : fs.isDirectoryAt p = true) {fuel : Nat} (hfuel : 0 < fuel) :
    makeDirectoriesWithin fuel fs p = (fs, none) := by
  obtain ⟨fuel, rfl⟩ := Nat.exists_eq_succ_of_ne_zero (Nat.ne_of_gt hfuel)
  have hne : p.isEmpty = false := by
    cases p with
    | nil => exact absurd rfl ((isDirectoryAt_iff hfs).1 h).1.nonempty
    | cons b p => rfl
  unfold makeDirectoriesWithin
  rw [makeDirectory_of_isDirectoryAt hfs hp h, h, hne]
  rfl

theorem makeDirectories_of_isDirectoryAt (hfs : Proper fs) {p : FilePath}
    (hp : Trimmed p) (h : fs.isDirectoryAt p = true) :
    fs.makeDirectories p = (fs, none) :=
  makeDirectoriesWithin_of_isDirectoryAt hfs hp h (Nat.succ_pos _)

/-- Above a path that leads to a place nothing is made. -/
theorem makeDirectories_above (hfs : Proper fs) {p up : FilePath} (hup : p.parent? = some up)
    (hne : up ≠ []) {place : Place} (h : fs.locate false p = .ok place) :
    fs.makeDirectories up = (fs, none) := by
  obtain ⟨hwalk, links, stack, hd, -⟩ := locate_iff.1 h
  rw [← descend_dots, dirs_filter] at hd
  exact makeDirectories_of_isDirectoryAt hfs (trimmed_parent? hup)
    (isDirectoryAt_above hfs hup hne hwalk hd)

end FileSystem

end TracedTransfer
