/-
Making directories once more.

Once it has succeeded there is a directory (`makeDirectories_isDirectoryAt`),
so nothing is left to do. Once it has failed it fails again, and leaves the
files as they are (`makeDirectories_stuck`). `Attempt` says once what making
directories can come to; the inductions are on the fuel, and go from a path
to the one above it.

A path that never goes up fails again for the same reason. What is new on
its way is empty, so that only a name that is too long can stand in the way
behind it (`Traced`): either nothing has been made, or the end of what has
been made is barren, or it is such a name.
-/
import TracedTransfer.Proofs.FileSystem.Directories

namespace TracedTransfer

open Text

namespace FilePath

-- ================================================ paths that only go down

/-- To trim a path twice is to trim it once. -/
theorem trimEnd_go_go (r : List UInt8) : trimEnd.go (trimEnd.go r) = trimEnd.go r := by
  induction r using trimEnd.go.induct with
  | case1 => rfl
  | case2 b => rfl
  | case3 c rest ih => rwa [trimEnd.go, if_pos rfl]
  | case4 b c rest hb hdot ih => rwa [trimEnd.go, if_neg hb, if_pos hdot]
  | case5 b c rest hb hdot =>
      have hkept : trimEnd.go (b :: c :: rest) = b :: c :: rest := by
        rw [trimEnd.go, if_neg hb, if_neg hdot]
      rw [hkept, hkept]

/-- A path that nothing is to be trimmed of, and that never goes up. -/
structure Descending (p : FilePath) : Prop where
  /-- It has no slash or dot at its end, -/
  trimmed : trimEnd p = p
  /-- and never goes up. -/
  down : FileSystem.dotDot ∉ p.components

/-- A path that descends is trimmed, -/
theorem Descending.trimmed' {p : FilePath} (h : Descending p) : Trimmed p := by
  unfold Trimmed
  by_cases hempty : p = []
  · exact .inl hempty
  · by_cases hroot : p = [slash]
    · exact .inr (.inl hroot)
    · have hleaf := leaf_trimEnd (p := p) (by rwa [h.trimmed]) (by rwa [h.trimmed])
      rw [h.trimmed] at hleaf
      exact .inr (.inr hleaf)

/-- and what is above it descends. -/
theorem Descending.parent {p up : FilePath} (h : Descending p) (hup : p.parent? = some up) :
    Descending up where
  trimmed := by
    obtain ⟨-, -, rfl⟩ := parent?_eq hup
    unfold trimEnd
    rw [List.reverse_reverse, trimEnd_go_go]
  down := by
    have hbeginning := (parent?_components hup).trans (front_components p)
    exact fun hmem => h.down (hbeginning.subset hmem)

/-- A trimmed path ends in a dot only if it is one. -/
theorem eq_dot_of_leaf {p : FilePath} (h : trimEnd p = p) (hleaf : leaf p = [0x2e]) :
    p = [0x2e] := by
  have hgo : trimEnd.go p.reverse = p.reverse := by
    rw [← List.reverse_eq_iff, ← trimEnd, h]
  have hlast : p.reverse.takeWhile (· ≠ slash) = [0x2e] := by
    rw [← List.reverse_reverse (p.reverse.takeWhile _), ← leaf, hleaf]
    rfl
  rcases hr : p.reverse with _ | ⟨b, _ | ⟨c, rest⟩⟩
  · rw [hr] at hlast
    cases hlast
  · rw [hr] at hlast
    rw [← List.reverse_reverse p, hr]
    by_cases hb : b = slash
    · rw [hb] at hlast
      cases hlast
    · rw [List.takeWhile_cons_of_pos (by simpa using hb)] at hlast
      exact hlast
  · rw [hr] at hlast hgo
    by_cases hb : b = slash
    · rw [hb, List.takeWhile_cons_of_neg (by simp)] at hlast
      cases hlast
    · rw [List.takeWhile_cons_of_pos (by simpa using hb)] at hlast
      obtain ⟨rfl, hrest⟩ := List.cons.inj hlast
      have hc : c = slash := by
        refine Decidable.byContradiction fun hc => ?_
        rw [List.takeWhile_cons_of_pos (by simpa using hc)] at hrest
        cases hrest
      -- A dot behind a slash is trimmed.
      rw [trimEnd.go, if_neg hb, if_pos (by rw [hc]; rfl)] at hgo
      have hlen := (trimEnd_go_suffix (c :: rest)).length_le
      rw [hgo, List.length_cons, List.length_cons] at hlen
      omega

/-- Unless it has no components at all, such a path has those of its front and its leaf. -/
theorem Descending.components_eq {p : FilePath} (h : Descending p) (hp : p.components ≠ []) :
    p.components = (front p).components ++ [leaf p]
      ∧ leaf p ≠ [] ∧ leaf p ≠ FileSystem.dot ∧ leaf p ≠ FileSystem.dotDot := by
  have hempty : p ≠ [] := by
    rintro rfl
    exact hp rfl
  have hroot : p ≠ [slash] := by
    rintro rfl
    exact hp rfl
  have hleaf := leaf_trimEnd (p := p) (by rwa [h.trimmed]) (by rwa [h.trimmed])
  rw [h.trimmed] at hleaf
  have hdot : leaf p ≠ [0x2e] := by
    intro hdot
    rw [eq_dot_of_leaf h.trimmed hdot] at hp
    exact hp rfl
  have hall : p.components = (front p).components ++ [leaf p] := by
    have hsplit := components_append (isFront_front p) (slash_not_mem_leaf p)
    rw [front_append_leaf, List.filter_cons_of_pos (by simp [hleaf, hdot]),
      List.filter_nil] at hsplit
    exact hsplit
  refine ⟨hall, hleaf, hdot, fun hdots => h.down ?_⟩
  rw [hall, hdots]
  simp

/-- The front of a path has the components of what is above it. -/
theorem Descending.front_eq {p up : FilePath} (h : Descending p) (hup : p.parent? = some up) :
    (front p).components = up.components := by
  obtain ⟨-, -, heq⟩ := parent?_eq hup
  rw [heq, components_trimEnd, h.trimmed]

end FilePath

namespace FileSystem

open FilePath

variable {fs fs' : FileSystem} {p up : FilePath}

-- ============================================================= attempts

/-- What making the directories on the way to a path can come to. -/
inductive Attempt (fs : FileSystem) (p : FilePath) (fuel : Nat) :
    FileSystem × Option Io.Error → Prop where
  /-- The directory has been made at once. -/
  | made {fs' : FileSystem} (h : fs.makeDirectory p = .ok fs') : Attempt fs p fuel (fs', none)
  /-- There is a directory already. -/
  | there (h : fs.isDirectoryAt p = true) : Attempt fs p fuel (fs, none)
  /-- Nothing has been made, for want of a path above or for another reason. -/
  | refused {e : Io.Error} : Attempt fs p fuel (fs, some e)
  /-- The directories above cannot be made. -/
  | stuck {e e₁ : Io.Error} {up : FilePath} {fs₁ : FileSystem} (h : fs.makeDirectory p = .error e)
      (hkind : e.kind = .notFound) (hup : p.parent? = some up)
      (hmk : makeDirectoriesWithin fuel fs up = (fs₁, some e₁)) : Attempt fs p fuel (fs₁, some e₁)
  /-- The directories above have been made, and then the last one. -/
  | last {e : Io.Error} {up : FilePath} {fs₁ fs₂ : FileSystem} (h : fs.makeDirectory p = .error e)
      (hkind : e.kind = .notFound) (hup : p.parent? = some up)
      (hmk : makeDirectoriesWithin fuel fs up = (fs₁, none))
      (hlast : fs₁.makeDirectory p = .ok fs₂) : Attempt fs p fuel (fs₂, none)
  /-- The directories above have been made, and so has the last one. -/
  | lastThere {e : Io.Error} {up : FilePath} {fs₁ : FileSystem} (h : fs.makeDirectory p = .error e)
      (hkind : e.kind = .notFound) (hup : p.parent? = some up)
      (hmk : makeDirectoriesWithin fuel fs up = (fs₁, none))
      (hlast : fs₁.isDirectoryAt p = true) : Attempt fs p fuel (fs₁, none)
  /-- The directories above have been made, and the last one cannot. -/
  | lastRefused {e e₁ : Io.Error} {up : FilePath} {fs₁ : FileSystem}
      (h : fs.makeDirectory p = .error e) (hkind : e.kind = .notFound) (hup : p.parent? = some up)
      (hmk : makeDirectoriesWithin fuel fs up = (fs₁, none))
      (hlast : fs₁.makeDirectory p = .error e₁) (hdir : fs₁.isDirectoryAt p = false) :
      Attempt fs p fuel (fs₁, some e₁)

/-- One round of making directories: there already, made, or after those above. -/
theorem makeDirectoriesWithin_attempt (fs : FileSystem) (hne : p ≠ []) (fuel : Nat) :
    Attempt fs p fuel (makeDirectoriesWithin (fuel + 1) fs p) := by
  unfold makeDirectoriesWithin
  rw [if_neg (by simpa using hne)]
  split
  · next h => exact .made h
  · next e h =>
      split
      · next hkind =>
          split
          · exact .refused
          · next up hup =>
              split
              · next hmk => exact .stuck h hkind hup hmk
              · next fs₁ hmk =>
                  split
                  · next hlast => exact .last h hkind hup hmk hlast
                  · next hlast =>
                      split
                      · next hdir => exact .lastThere h hkind hup hmk hdir
                      · next hdir =>
                          exact .lastRefused h hkind hup hmk hlast (Bool.eq_false_iff.2 hdir)
      · split
        · next hdir => exact .there hdir
        · exact .refused

-- ============================================================== success

/-- A path that leads to a directory without entries. -/
def Barren (fs : FileSystem) (p : FilePath) : Prop :=
  ∃ links i stack, fs.descend maxLinks (start fs.workingDirectory p) p.components
    = .ok (links, i :: stack) ∧ ∀ name, fs.lookup i name = none

/-- A directory that has been made is there, and empty. -/
theorem makeDirectory_barren (hfs : Proper fs) (hp : Trimmed p)
    (h : fs.makeDirectory p = .ok fs') : Walkable p ∧ fs'.Barren p := by
  have hleads := (makeDirectory_grown hfs hp h).leads
  obtain ⟨links, stack, hwalk, hleaf, hdot, hdots, hlen, hdesc, -, rfl⟩ := makeDirectory_eq hp h
  have hd := hfs.top_isDirectory (descend_directories hdesc (start_directories hfs.working p))
  have hempty : ∀ es, Node.directory [] = .directory es → es = [] :=
    fun es he => (Node.directory.inj he).symm
  refine ⟨hwalk, links, fs.nodes.length, stack, ?_, fun name => ?_⟩
  · rw [components_eq, descend_dots]
    exact descend_leaf hwalk.nonempty hleaf hdot hdots (descend_mono hleads hdesc)
      (turn_create hd hlen)
  · -- The new number is that of no directory before.
    have hne : fs.nodes.length ≠ top stack := (Nat.ne_of_lt (lt_of_isDirectory hd)).symm
    have hnot : fs.isDirectory fs.nodes.length = false := by
      rw [Bool.eq_false_iff]
      exact fun hdir => Nat.lt_irrefl _ (lt_of_isDirectory hdir)
    rw [lookup_create hempty hd, if_neg fun heq => hne heq.1, lookup_of_not_directory hnot]

theorem Barren.isDirectoryAt (hfs : Proper fs) (hwalk : Walkable p) (h : fs.Barren p) :
    fs.isDirectoryAt p = true := by
  obtain ⟨links, i, stack, hdesc, -⟩ := h
  exact (isDirectoryAt_iff hfs).2 ⟨hwalk, _, hdesc⟩

theorem makeDirectory_isDirectoryAt (hfs : Proper fs) (hp : Trimmed p)
    (h : fs.makeDirectory p = .ok fs') : fs'.isDirectoryAt p = true := by
  obtain ⟨hwalk, hbarren⟩ := makeDirectory_barren hfs hp h
  exact hbarren.isDirectoryAt (hfs.makeDirectory h) hwalk

/-- Once directories have been made, there is one. -/
theorem makeDirectoriesWithin_isDirectoryAt (hfs : Proper fs) (hp : Trimmed p) (hne : p ≠ [])
    {fuel : Nat} (h : makeDirectoriesWithin fuel fs p = (fs', none)) :
    fs'.isDirectoryAt p = true := by
  cases fuel with
  | zero => cases h
  | succ fuel =>
      have hattempt := makeDirectoriesWithin_attempt fs hne fuel
      rw [h] at hattempt
      cases hattempt with
      | made hmake => exact makeDirectory_isDirectoryAt hfs hp hmake
      | there hdir => exact hdir
      | @last _ up _ _ _ _ _ hmk hlast =>
          have hproper := hfs.makeDirectoriesWithin fuel up
          rw [hmk] at hproper
          exact makeDirectory_isDirectoryAt hproper hp hlast
      | lastThere _ _ _ _ hdir => exact hdir

-- ============================================================== failure

/-- A directory is made right below a directory. -/
theorem makeDirectory_parent (hfs : Proper fs) (hp : Trimmed p)
    (h : fs.makeDirectory p = .ok fs') (hup : p.parent? = some up) (hne : up ≠ []) :
    fs.isDirectoryAt up = true := by
  obtain ⟨links, stack, hwalk, -, -, -, -, hdesc, -⟩ := makeDirectory_eq hp h
  rw [← descend_dots, dirs_filter] at hdesc
  exact isDirectoryAt_above hfs hup hne hwalk hdesc

/-- A directory that cannot be made, though those above can, is refused once more. -/
theorem makeDirectoriesWithin_refused (hfs : Proper fs) (hne : p ≠ []) {fuel : Nat}
    (hfuel : p.length ≤ fuel) {e : Io.Error} (hmake : fs.makeDirectory p = .error e)
    (hnot : fs.isDirectoryAt p = false) (hup : p.parent? = some up)
    (hdir : up = [] ∨ fs.isDirectoryAt up = true) :
    makeDirectoriesWithin (fuel + 1) fs p = (fs, some e) := by
  have hlen := parent?_length hup
  have habove : makeDirectoriesWithin fuel fs up = (fs, none) := by
    rcases hdir with rfl | hdir
    · exact makeDirectoriesWithin_nil fs (by omega)
    · exact makeDirectoriesWithin_of_isDirectoryAt hfs (trimmed_parent? hup) hdir (by omega)
  unfold makeDirectoriesWithin
  rw [if_neg (by simpa using hne), hmake]
  dsimp only
  rw [hup, hnot]
  dsimp only
  rw [habove]
  dsimp only
  rw [hmake]
  dsimp only
  rw [hnot]
  split
  · rfl
  · rfl

/-- Below a path that is refused and no directory there are no directories to make. -/
theorem makeDirectoriesWithin_below_stuck (hfs : Proper fs) (hp : Trimmed p) (hne : p ≠ [])
    (hup : p.parent? = some up) (hup_ne : up ≠ []) (hnot : fs.isDirectoryAt p = false)
    (habove : fs.isDirectoryAt up = false) {fuel : Nat} {e : Io.Error}
    (hstuck : makeDirectoriesWithin fuel fs up = (fs, some e)) :
    ∃ e', makeDirectoriesWithin (fuel + 1) fs p = (fs, some e') := by
  unfold makeDirectoriesWithin
  rw [if_neg (by simpa using hne)]
  cases hmake : fs.makeDirectory p with
  | ok fs₂ =>
      rw [makeDirectory_parent hfs hp hmake hup hup_ne] at habove
      cases habove
  | error e₂ =>
      dsimp only
      split
      · rw [hup]
        dsimp only
        rw [hstuck]
        exact ⟨e, rfl⟩
      · rw [hnot]
        exact ⟨e₂, rfl⟩

/-- What has failed fails again, with the files that it has left. -/
theorem makeDirectoriesWithin_stuck (hfs : Proper fs) (hp : Trimmed p) {fuel : Nat}
    (hfuel : p.length < fuel) {e : Io.Error}
    (h : makeDirectoriesWithin fuel fs p = (fs', some e)) :
    ∃ e', makeDirectoriesWithin fuel fs' p = (fs', some e') := by
  induction fuel generalizing fs p fs' e with
  | zero => omega
  | succ fuel ih =>
      have hne : p ≠ [] := by
        rintro rfl
        rw [makeDirectoriesWithin_nil fs (Nat.succ_pos fuel)] at h
        cases h
      have hproper := hfs.makeDirectoriesWithin (fuel + 1) p
      have hmade := makeDirectoriesWithin_made hfs hp hfuel
      have hattempt := makeDirectoriesWithin_attempt fs hne fuel
      rw [h] at hattempt hproper hmade
      have hnot : fs'.isDirectoryAt p = false := hmade.failed (by simp)
      -- An attempt that fails was refused, or got stuck above, or made all but the last
      -- directory.
      cases hattempt with
      | refused => exact ⟨e, h⟩
      | @stuck _ _ up _ _ _ hup hmk =>
          have hlen := parent?_length hup
          have hup_ne : up ≠ [] := by
            rintro rfl
            rw [makeDirectoriesWithin_nil fs (by omega)] at hmk
            cases hmk
          obtain ⟨e', hagain⟩ := ih hfs (trimmed_parent? hup) (by omega) hmk
          have habove : fs'.isDirectoryAt up = false := by
            have hup_made : fs.Made up (makeDirectoriesWithin fuel fs up) :=
              makeDirectoriesWithin_made hfs (trimmed_parent? hup) (by omega)
            rw [hmk] at hup_made
            exact hup_made.failed (by simp)
          exact makeDirectoriesWithin_below_stuck hproper hp hne hup hup_ne hnot habove hagain
      | @lastRefused _ _ up _ _ _ hup hmk hlast _ =>
          refine ⟨e, makeDirectoriesWithin_refused hproper hne (by omega) hlast hnot hup ?_⟩
          refine Classical.or_iff_not_imp_left.2 fun hup_ne => ?_
          exact makeDirectoriesWithin_isDirectoryAt hfs (trimmed_parent? hup) hup_ne hmk

/-- A path on which a name is too long: those before it lead to a directory. -/
def Overlong (fs : FileSystem) (p : FilePath) : Prop :=
  Walkable p ∧ ∃ before name after links stack, p.components = before ++ name :: after
    ∧ fs.descend maxLinks (start fs.workingDirectory p) before = .ok (links, stack)
    ∧ maxName < name.length

/-- A descent fails at a name that is longer than names can be, -/
theorem descend_overlong {stack : List Id} {links : Nat} {name : Bytes} {rest : List Bytes}
    (h : maxName < name.length) :
    fs.descend links stack (name :: rest) = .error .invalidFilename := by
  have hdot : name ≠ dot := by
    rintro rfl
    exact absurd h (by decide)
  have hdots : name ≠ dotDot := by
    rintro rfl
    exact absurd h (by decide)
  rw [descend_cons]
  simp only [advance, if_neg hdot, if_neg hdots, turn, if_pos h]

/-- so it fails on the whole path, -/
theorem Overlong.descend (h : fs.Overlong p) :
    fs.descend maxLinks (start fs.workingDirectory p) p.components = .error .invalidFilename := by
  obtain ⟨-, before, name, after, links, stack, hall, hdesc, hlong⟩ := h
  rw [hall, descend_append, hdesc]
  exact descend_overlong hlong

/-- there is no directory at its end, -/
theorem Overlong.not_isDirectoryAt (hfs : Proper fs) (h : fs.Overlong p) :
    fs.isDirectoryAt p = false := by
  rw [Bool.eq_false_iff]
  intro hdir
  obtain ⟨-, place, hdesc⟩ := (isDirectoryAt_iff hfs).1 hdir
  rw [h.descend] at hdesc
  cases hdesc

/-- it has no place there, -/
theorem locate_of_walk_error {follow : Bool} {k : Io.ErrorKind} (hwalk : Walkable p)
    (h : fs.walk follow maxLinks (start fs.workingDirectory p) (steps p) = .error k) :
    fs.locate follow p = .error (.system k) := by
  unfold locate
  rw [if_neg (by rw [hwalk.bytes]; exact Bool.false_ne_true),
    if_neg (by simpa using hwalk.nonempty), if_neg (Nat.not_lt.2 hwalk.short), h]

/-- and none can be made. -/
theorem Overlong.makeDirectory (hp : Descending p) (h : fs.Overlong p) :
    fs.makeDirectory p = .error (.system .invalidFilename) := by
  obtain ⟨hwalk, before, name, after, links, stack, hall, hdesc, hlong⟩ := h
  obtain ⟨hsplit, hleaf, hdot, hdots⟩ := hp.components_eq (by rw [hall]; simp)
  have hdirs : fs.descend maxLinks (start fs.workingDirectory p) (dirs (front p))
      = fs.descend maxLinks (start fs.workingDirectory p) (front p).components := by
    rw [← descend_dots, dirs_filter]
  rw [FileSystem.makeDirectory, locateName_of_trimmed fs hp.trimmed',
    locate_of_walk_error (k := .invalidFilename) hwalk]
  rw [steps_eq hwalk.nonempty, walk_append _ _ _ _ (List.cons_ne_nil _ _), hdirs]
  rw [hsplit] at hall
  rcases List.eq_nil_or_concat after with rfl | ⟨after', last, rfl⟩
  · -- The leaf is too long.
    obtain ⟨hfront, hlast⟩ := List.append_inj' hall rfl
    cases hlast
    rw [hfront, hdesc, lastStep, if_neg hleaf]
    have hwalked : fs.walk false links stack [leaf p] = fs.arrive stack (leaf p) :=
      walk_last false links fun h => absurd h Bool.false_ne_true
    show fs.walk false links stack [leaf p] = _
    rw [hwalked, arrive, if_neg hdot, if_neg hdots, if_pos hlong]
  · rw [List.concat_eq_append, ← List.cons_append, ← List.append_assoc] at hall
    obtain ⟨hfront, -⟩ := List.append_inj' hall rfl
    rw [hfront, descend_append, hdesc]
    show ((fs.descend links stack (name :: after')).bind _) = _
    rw [descend_overlong hlong]
    rfl

/-- Right below a barren directory a name is too long, or a directory is made. -/
theorem Barren.below (hp : Descending p) (hwalk : Walkable p) (hcomponents : p.components ≠ [])
    (hup : p.parent? = some up) (hne : up ≠ []) (h : fs.Barren up) :
    fs.Overlong p ∨ ∃ fs', fs.makeDirectory p = .ok fs' := by
  obtain ⟨links, i, stack, hdesc, hnone⟩ := h
  obtain ⟨hsplit, hleaf, hdot, hdots⟩ := hp.components_eq hcomponents
  rw [start_above (parent?_beginning hup) hne, ← hp.front_eq hup] at hdesc
  by_cases hlong : maxName < (leaf p).length
  · exact .inl ⟨hwalk, _, _, [], links, _, hsplit, hdesc, hlong⟩
  · have hlocate : fs.locate false p = .ok (.named (i :: stack) (leaf p) none) := by
      refine locate_leaf.2 ⟨hwalk, ⟨links, ?_⟩, ⟨hleaf, hdot, hdots⟩,
        Nat.le_of_not_lt hlong, rfl, (hnone _).symm⟩
      rw [← descend_dots, dirs_filter, hdesc]
    rw [FileSystem.makeDirectory, locateName_of_trimmed fs hp.trimmed', hlocate]
    exact .inr ⟨_, rfl⟩

/-- What a directory is missing for is above it. -/
theorem walkable_of_notFound (hfs : Proper fs) (hp : Trimmed p) (hne : p ≠ []) {e : Io.Error}
    (h : fs.makeDirectory p = .error e) (hkind : e.kind = .notFound) :
    Walkable p ∧ p.components ≠ [] := by
  have hwalk : Walkable p := by
    rw [FileSystem.makeDirectory, locateName_of_trimmed fs hp] at h
    unfold locate at h
    by_cases hzero : p.contains 0 = true
    · rw [if_pos hzero] at h
      cases h
      cases hkind
    · rw [if_neg hzero, if_neg (by simpa using hne)] at h
      by_cases hlong : maxPath < p.length
      · rw [if_pos hlong] at h
        cases h
        cases hkind
      · exact ⟨Bool.eq_false_iff.2 hzero, hne, Nat.le_of_not_lt hlong⟩
  refine ⟨hwalk, fun hnone => ?_⟩
  have hdir : fs.isDirectoryAt p = true :=
    (isDirectoryAt_iff hfs).2 ⟨hwalk, _, by rw [hnone]; exact descend_nil ..⟩
  rw [makeDirectory_of_isDirectoryAt hfs hp hdir] at h
  cases h
  cases hkind

/-- What making directories leaves on the way to a path that only goes down: what was there
before, or a barren directory at its end, or a name that is too long. -/
structure Traced (fs : FileSystem) (p : FilePath) (made : FileSystem × Option Io.Error) : Prop where
  /-- If they could be made, nothing was to be done, or they are new and empty. -/
  success : made.2 = none → made.1 = fs ∨ made.1.Barren p
  /-- If not, nothing was done, or a name is too long. -/
  failure : ∀ e, made.2 = some e →
    made.1 = fs ∨ e = .system .invalidFilename ∧ made.1.Overlong p

theorem Traced.unchanged (p : FilePath) (failure : Option Io.Error) :
    fs.Traced p (fs, failure) :=
  ⟨fun _ => .inl rfl, fun _ _ => .inl rfl⟩

theorem Traced.made (h : fs'.Barren p) : fs.Traced p (fs', none) :=
  ⟨fun _ => .inr h, nofun⟩

theorem Traced.overlong (h : fs'.Overlong p) :
    fs.Traced p (fs', some (.system .invalidFilename)) :=
  ⟨nofun, fun _ he => .inr ⟨(Option.some.inj he).symm, h⟩⟩

/-- What is below such a name is stopped too. -/
theorem Overlong.below (hp : Descending p) (hwalk : Walkable p) (hcomponents : p.components ≠ [])
    (hup : p.parent? = some up) (h : fs.Overlong up) : fs.Overlong p := by
  obtain ⟨hwalk', before, name, after, links, stack, hall, hdesc, hlong⟩ := h
  obtain ⟨hsplit, -⟩ := hp.components_eq hcomponents
  refine ⟨hwalk, before, name, after ++ [leaf p], links, stack, ?_, ?_, hlong⟩
  · rw [hsplit, hp.front_eq hup, hall, List.append_assoc, List.cons_append]
  · rw [← hdesc, start_above (parent?_beginning hup) hwalk'.nonempty]

/-- When the directories above a path have been made, then either nothing was missing, or a
name is too long, or the path is right below a barren directory. -/
theorem Traced.above (hp : Descending p) (hwalk : Walkable p) (hcomponents : p.components ≠ [])
    (hup : p.parent? = some up) (hroot : up = [] → fs' = fs) (h : fs.Traced up (fs', none)) :
    fs' = fs ∨ fs'.Overlong p ∨ ∃ fs₂, fs'.makeDirectory p = .ok fs₂ := by
  by_cases hup_ne : up = []
  · exact .inl (hroot hup_ne)
  · exact (h.success rfl).imp_right fun hbarren =>
      hbarren.below hp hwalk hcomponents hup hup_ne

/-- There are no others: the induction is on the rounds, that is on the paths above. -/
theorem makeDirectoriesWithin_traced (hfs : Proper fs) (hp : Descending p) {fuel : Nat}
    (hfuel : p.length < fuel) : fs.Traced p (makeDirectoriesWithin fuel fs p) := by
  induction fuel generalizing fs p with
  | zero => omega
  | succ fuel ih =>
      by_cases hne : p = []
      · subst hne
        rw [makeDirectoriesWithin_nil fs (Nat.succ_pos fuel)]
        exact .unchanged _ _
      · have hattempt := makeDirectoriesWithin_attempt fs hne fuel
        -- What is known of the path above, when the directories above have been made.
        have habove : ∀ {e up fs₁}, fs.makeDirectory p = .error e → e.kind = .notFound →
            p.parent? = some up → makeDirectoriesWithin fuel fs up = (fs₁, none) →
            Proper fs₁ ∧ (fs₁ = fs ∨ fs₁.Overlong p ∨ ∃ fs₂, fs₁.makeDirectory p = .ok fs₂) := by
          intro e up fs₁ hmake hkind hup hmk
          have hlen := parent?_length hup
          have hproper := hfs.makeDirectoriesWithin fuel up
          have htraced := ih hfs (hp.parent hup) (by omega)
          rw [hmk] at hproper htraced
          obtain ⟨hwalk, hcomponents⟩ := walkable_of_notFound hfs hp.trimmed' hne hmake hkind
          refine ⟨hproper, htraced.above hp hwalk hcomponents hup fun hroot => ?_⟩
          rw [hroot, makeDirectoriesWithin_nil fs (by omega)] at hmk
          exact (congrArg Prod.fst hmk).symm
        generalize makeDirectoriesWithin (fuel + 1) fs p = result at hattempt
        cases hattempt with
        | made hmake => exact .made (makeDirectory_barren hfs hp.trimmed' hmake).2
        | there => exact .unchanged _ _
        | refused => exact .unchanged _ _
        | @stuck _ _ up _ hmake hkind hup hmk =>
            obtain ⟨hwalk, hcomponents⟩ := walkable_of_notFound hfs hp.trimmed' hne hmake hkind
            have hlen := parent?_length hup
            have htraced := ih hfs (hp.parent hup) (by omega)
            rw [hmk] at htraced
            rcases htraced.failure _ rfl with rfl | ⟨rfl, hlong⟩
            · exact .unchanged _ _
            · exact .overlong (hlong.below hp hwalk hcomponents hup)
        | last hmake hkind hup hmk hlast =>
            exact .made (makeDirectory_barren (habove hmake hkind hup hmk).1 hp.trimmed' hlast).2
        | lastThere hmake hkind hup hmk hdir =>
            obtain ⟨hproper, rfl | hlong | ⟨fs₂, hmade⟩⟩ := habove hmake hkind hup hmk
            · exact .unchanged _ _
            · rw [hlong.not_isDirectoryAt hproper] at hdir
              cases hdir
            · rw [makeDirectory_of_isDirectoryAt hproper hp.trimmed' hdir] at hmade
              cases hmade
        | lastRefused hmake hkind hup hmk hlast _ =>
            obtain ⟨hproper, rfl | hlong | ⟨fs₂, hmade⟩⟩ := habove hmake hkind hup hmk
            · exact .unchanged _ _
            · rw [hlong.makeDirectory hp] at hlast
              cases hlast
              exact .overlong hlong
            · rw [hmade] at hlast
              cases hlast

/-- On a path that only goes down, what has failed fails again for the same reason. -/
theorem makeDirectories_again (hfs : Proper fs) (hp : Descending p) {e : Io.Error}
    (h : fs.makeDirectories p = (fs', some e)) : fs'.makeDirectories p = (fs', some e) := by
  have hproper := hfs.makeDirectoriesWithin (p.length + 1) p
  have htraced := makeDirectoriesWithin_traced hfs hp (Nat.lt_succ_self p.length)
  rw [← makeDirectories, h] at hproper htraced
  rcases htraced.failure e rfl with rfl | ⟨rfl, hlong⟩
  · exact h
  · unfold makeDirectories makeDirectoriesWithin
    rw [if_neg (by simpa using hlong.1.nonempty), hlong.makeDirectory hp]
    dsimp only
    rw [hlong.not_isDirectoryAt hproper]
    rfl

/-- Right below a barren directory a path leads nowhere. -/
theorem Barren.resolve_below (hp : Descending p) (hcomponents : p.components ≠ [])
    (hup : p.parent? = some up) (hne : up ≠ []) (h : fs.Barren up) (i : Id) :
    fs.resolve p ≠ .ok i := by
  intro hresolve
  obtain ⟨links, dir, stack, hdesc, hnone⟩ := h
  obtain ⟨-, hleaf, hdot, hdots⟩ := hp.components_eq hcomponents
  rw [start_above (parent?_beginning hup) hne, ← hp.front_eq hup] at hdesc
  obtain ⟨place, hl, hnode⟩ := resolve_ok_iff.1 hresolve
  obtain ⟨hwalk, hwalked⟩ := locate_walk.1 hl
  obtain ⟨links', stack', hd, hlast⟩ := (walk_steps hwalk.nonempty).1 hwalked
  rw [← descend_dots, dirs_filter, hdesc] at hd
  cases hd
  rw [lastStep, if_neg hleaf] at hlast
  obtain ⟨-, k, hk, -⟩ := lookup_of_walk hdot hdots hlast hnode
  rw [top, List.headD_cons, hnone] at hk
  cases hk

end FileSystem

end TracedTransfer
