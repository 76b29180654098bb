/-
Paths in parts, and what paths lead to.

A path is what stands up to its last slash, its front, and a leaf after
that. The steps of a path are those of its front and one more
(`steps_eq`), so where a path leads is settled by the descent along its
front and by its leaf (`locate_iff`); and paths with the same front, like
that of a destination and that of its part file, lead into the same
directory.

The path above another one has components that the front of the other
begins with (`parent?_components`). So where a front descends, all paths
above it lead to directories.
-/
import TracedTransfer.Proofs.FileSystem.Descent

namespace TracedTransfer

open Text

namespace FilePath

-- ================================================================ parts

/-- A path up to its last slash. -/
def front (p : FilePath) : FilePath := (p.reverse.dropWhile (· ≠ slash)).reverse

/-- What stands after the last slash of a path. -/
def leaf (p : FilePath) : Bytes := (p.reverse.takeWhile (· ≠ slash)).reverse

theorem front_append_leaf (p : FilePath) : front p ++ leaf p = p := by
  unfold front leaf
  rw [← List.reverse_append, List.takeWhile_append_dropWhile, List.reverse_reverse]

/-- No slash is in the leaf. -/
theorem slash_not_mem_leaf (p : FilePath) : slash ∉ leaf p := by
  intro h
  have hall : (p.reverse.takeWhile (· ≠ slash)).all (· ≠ slash) = true :=
    List.all_takeWhile
  have hslash := List.all_eq_true.1 hall slash (List.mem_reverse.1 h)
  simp at hslash

/-- What can stand in front of a leaf. -/
def IsFront (f : FilePath) : Prop := f = [] ∨ ∃ g, f = g ++ [slash]

/-- The front ends in a slash or is empty. -/
theorem isFront_front (p : FilePath) : IsFront (front p) := by
  unfold front IsFront
  rcases h : p.reverse.dropWhile (· ≠ slash) with _ | ⟨b, r⟩
  · exact .inl rfl
  · refine .inr ⟨r.reverse, ?_⟩
    have hb : b = slash := by
      have hne : p.reverse.dropWhile (· ≠ slash) ≠ [] := by
        rw [h]
        exact List.cons_ne_nil b r
      have hhead := List.head_dropWhile_not (· ≠ slash) hne
      simp only [h, List.head_cons] at hhead
      simpa using hhead
    rw [List.reverse_cons, hb]

/-- Those two are known by that, -/
theorem front_append {f s : FilePath} (hf : IsFront f) (hs : slash ∉ s) :
    front (f ++ s) = f := by
  have hall : ∀ b ∈ s.reverse, (decide (b ≠ slash)) = true := by
    intro b hb
    rw [decide_eq_true_eq]
    exact fun h => hs (h ▸ List.mem_reverse.1 hb)
  unfold front
  rw [List.reverse_append, List.dropWhile_append_of_pos hall]
  rcases hf with rfl | ⟨g, rfl⟩
  · rfl
  · rw [List.reverse_append, List.reverse_singleton, List.singleton_append,
      List.dropWhile_cons_of_neg (by simp), List.reverse_cons, List.reverse_reverse]

/-- each from the other. -/
theorem leaf_append {f s : FilePath} (hf : IsFront f) (hs : slash ∉ s) :
    leaf (f ++ s) = s := by
  have h := front_append_leaf (f ++ s)
  rw [front_append hf hs] at h
  exact List.append_cancel_left h

/-- Pieces of a path, of which empty ones do not count. -/
theorem pieces_append {f s : FilePath} (hf : IsFront f) (hs : slash ∉ s)
    (counts : Bytes → Bool) (hempty : counts [] = false) :
    ((f ++ s).splitOn slash).filter counts
      = (f.splitOn slash).filter counts ++ [s].filter counts := by
  rcases hf with rfl | ⟨g, rfl⟩
  · rw [List.nil_append, List.splitOn_eq_singleton hs, List.splitOn_nil,
      List.filter_cons_of_neg (a := []) (by rw [hempty]; exact Bool.false_ne_true),
      List.filter_nil, List.nil_append]
  · rw [List.append_assoc, List.singleton_append, List.splitOn_append_cons_self,
      List.splitOn_append_cons_self, List.splitOn_eq_singleton hs, List.splitOn_nil,
      List.filter_append, List.filter_append,
      List.filter_cons_of_neg (a := []) (by rw [hempty]; exact Bool.false_ne_true),
      List.filter_nil, List.append_nil]

/-- The steps of a front. -/
def dirs (f : FilePath) : List Bytes := (f.splitOn slash).filter (!·.isEmpty)

/-- The step of a leaf. A slash at the end asks for a directory. -/
def lastStep (s : Bytes) : Bytes := if s = [] then FileSystem.dot else s

/-- A path with a leaf does not end in a slash. -/
theorem getLast?_ne_slash {f s : FilePath} (hs : slash ∉ s) (hne : s ≠ []) :
    (f ++ s).getLast? ≠ some slash := by
  rw [List.getLast?_append, List.getLast?_eq_some_getLast hne, Option.some_or]
  intro h
  exact hs (Option.some.inj h ▸ List.getLast_mem hne)

/-- Steps of a path lead through its front, and the last is that of its
leaf. -/
theorem steps_eq {p : FilePath} (hp : p ≠ []) :
    FileSystem.steps p = dirs (front p) ++ [lastStep (leaf p)] := by
  have hsplit := pieces_append (isFront_front p) (slash_not_mem_leaf p)
    (!·.isEmpty) rfl
  rw [front_append_leaf] at hsplit
  unfold FileSystem.steps lastStep
  dsimp only
  rw [hsplit]
  by_cases hleaf : leaf p = []
  · have hlast : p.getLast? = some slash := by
      have h := front_append_leaf p
      rw [hleaf, List.append_nil] at h
      rcases isFront_front p with hf | ⟨g, hg⟩
      · exact absurd (h.symm.trans hf) hp
      · rw [← h, hg, List.getLast?_concat]
    rw [if_pos hlast, if_pos hleaf, hleaf, List.filter_cons_of_neg (by simp),
      List.filter_nil, List.append_nil]
    rfl
  · have hlast : p.getLast? ≠ some slash := by
      have h := getLast?_ne_slash (f := front p) (slash_not_mem_leaf p) hleaf
      rwa [front_append_leaf] at h
    rw [if_neg hlast, if_neg hleaf, List.filter_cons_of_pos (by simpa using hleaf),
      List.filter_nil]
    rfl

/-- The components of a path are its steps without those that stay. -/
theorem components_eq (p : FilePath) :
    p.components = (FileSystem.steps p).filter (· ≠ FileSystem.dot) := by
  have hpieces : ((p.splitOn slash).filter (!·.isEmpty)).filter
      (· ≠ FileSystem.dot) = p.components := by
    unfold components FileSystem.dot
    rw [List.filter_filter]
    refine List.filter_congr fun c _ => ?_
    rw [Bool.and_comm]
  unfold FileSystem.steps
  dsimp only
  split
  · rw [List.filter_append, hpieces, List.filter_cons_of_neg (by simp),
      List.filter_nil, List.append_nil]
  · rw [hpieces]

/-- Without dots the steps of a front are its components, -/
theorem dirs_filter (f : FilePath) :
    (dirs f).filter (· ≠ FileSystem.dot) = f.components := by
  unfold dirs components FileSystem.dot
  rw [List.filter_filter]
  refine List.filter_congr fun c _ => ?_
  rw [Bool.and_comm]

/-- so those of a path are these and its leaf. -/
theorem components_append {f s : FilePath} (hf : IsFront f) (hs : slash ∉ s) :
    (f ++ s).components
      = f.components ++ [s].filter fun c => !c.isEmpty && c ≠ [0x2e] :=
  pieces_append hf hs _ rfl

/-- A slash at the end does not count. -/
theorem components_append_slash (p : FilePath) : components (p ++ [slash]) = p.components := by
  unfold components
  rw [List.splitOn_append_cons_self, List.filter_append, List.splitOn_nil]
  exact List.append_nil _

-- ========================================================= the path above

/-- To trim a path drops something at its end, -/
theorem trimEnd_go_suffix (r : List UInt8) : trimEnd.go r <:+ r := by
  induction r using trimEnd.go.induct with
  | case1 => exact List.suffix_refl _
  | case2 b => exact List.suffix_refl _
  | case3 c rest ih =>
      rw [trimEnd.go, if_pos rfl]
      exact ih.trans (List.suffix_cons _ _)
  | case4 b c rest hb hdot ih =>
      rw [trimEnd.go, if_neg hb, if_pos hdot]
      exact ih.trans (List.suffix_cons _ _)
  | case5 b c rest hb hdot =>
      have hkept : trimEnd.go (b :: c :: rest) = b :: c :: rest := by
        rw [trimEnd.go, if_neg hb, if_neg hdot]
      exact ⟨[], by rw [List.nil_append, hkept]⟩

/-- so what is left is its beginning, -/
theorem trimEnd_beginning (p : FilePath) : trimEnd p <+: p := by
  have h := List.reverse_prefix.2 (trimEnd_go_suffix p.reverse)
  rwa [List.reverse_reverse] at h

/-- with the same components: -/
theorem components_go (r : List UInt8) :
    components (trimEnd.go r).reverse = components r.reverse := by
  induction r using trimEnd.go.induct with
  | case1 => rfl
  | case2 b => rfl
  | case3 c rest ih =>
      rw [trimEnd.go, if_pos rfl, ih, List.reverse_cons (a := slash),
        components_append_slash]
  | case4 b c rest hb hdot ih =>
      rw [Bool.and_eq_true, decide_eq_true_eq, decide_eq_true_eq] at hdot
      obtain ⟨rfl, rfl⟩ := hdot
      rw [trimEnd.go, if_neg hb, if_pos (by rfl), ih, List.reverse_cons (a := 0x2e),
        components_append (.inr ⟨rest.reverse, List.reverse_cons⟩) (by decide)]
      exact (List.append_nil _).symm
  | case5 b c rest hb hdot => rw [trimEnd.go, if_neg hb, if_neg hdot]

/-- only slashes and dots are dropped. -/
theorem components_trimEnd (p : FilePath) : (trimEnd p).components = p.components := by
  have h := components_go p.reverse
  rwa [List.reverse_reverse] at h

/-- A path that counts up to its last byte is not trimmed. -/
theorem trimEnd_eq {p : FilePath} (hempty : leaf p ≠ []) (hdot : leaf p ≠ [0x2e]) :
    trimEnd p = p := by
  have hgo : ∀ s u : List UInt8, slash ∉ s → s ≠ [] → s ≠ [0x2e] →
      trimEnd.go (s ++ u) = s ++ u := by
    intro s u hs hne hd
    rcases s with _ | ⟨b, s⟩
    · exact absurd rfl hne
    · have hb : b ≠ slash := fun h => hs (h ▸ List.mem_cons_self ..)
      rw [List.cons_append]
      rcases hsu : s ++ u with _ | ⟨c, rest⟩
      · rw [trimEnd.go]
      · have hbc : ¬ (decide (b = 0x2e) && decide (c = slash)) = true := by
          rw [Bool.and_eq_true, decide_eq_true_eq, decide_eq_true_eq]
          rintro ⟨rfl, rfl⟩
          rcases s with _ | ⟨d, s⟩
          · exact hd rfl
          · rw [List.cons_append] at hsu
            rw [(List.cons.inj hsu).1] at hs
            exact hs (List.mem_cons_of_mem _ (List.mem_cons_self ..))
        rw [trimEnd.go, if_neg hb, if_neg hbc]
  have h := hgo (leaf p).reverse (front p).reverse
    (fun h => slash_not_mem_leaf p (List.mem_reverse.1 h))
    (fun h => hempty (List.reverse_eq_nil_iff.1 h))
    (fun h => hdot (by rw [← List.reverse_reverse (leaf p), h]; rfl))
  rw [← List.reverse_append, front_append_leaf] at h
  rw [trimEnd, h, List.reverse_reverse]

/-- A trimmed path ends in a leaf, unless it is empty or the root. -/
theorem leaf_trimEnd {p : FilePath} (hempty : trimEnd p ≠ [])
    (hroot : trimEnd p ≠ [slash]) : leaf (trimEnd p) ≠ [] := by
  -- Read from its end, a trimmed path begins with a slash only if it is
  -- nothing else.
  have hgo : ∀ r : List UInt8, ∀ t, trimEnd.go r = slash :: t → t = [] := by
    intro r
    induction r using trimEnd.go.induct with
    | case1 => intro t h; cases h
    | case2 b =>
        intro t h
        rw [trimEnd.go] at h
        exact (List.cons.inj h).2.symm
    | case3 c rest ih => rwa [trimEnd.go, if_pos rfl]
    | case4 b c rest hb hdot ih => rwa [trimEnd.go, if_neg hb, if_pos hdot]
    | case5 b c rest hb hdot =>
        intro t h
        rw [trimEnd.go, if_neg hb, if_neg hdot] at h
        exact absurd (List.cons.inj h).1 hb
  intro h
  unfold leaf trimEnd at h
  rw [List.reverse_reverse] at h
  rcases hg : trimEnd.go p.reverse with _ | ⟨b, t⟩
  · rw [trimEnd, hg] at hempty
    exact hempty rfl
  · rw [hg, List.reverse_eq_nil_iff] at h
    have hb : b = slash := by
      refine Decidable.byContradiction fun hb => ?_
      rw [List.takeWhile_cons_of_pos (by simpa using hb)] at h
      cases h
    subst hb
    rw [trimEnd, hg, hgo _ t hg] at hroot
    exact hroot rfl

/-- The path above another one is a front of it, trimmed. -/
theorem parent?_eq {p up : FilePath} (h : p.parent? = some up) :
    trimEnd p ≠ [] ∧ trimEnd p ≠ [slash] ∧ up = trimEnd (front (trimEnd p)) := by
  unfold parent? at h
  dsimp only at h
  split at h
  · cases h
  · next hne =>
      rw [Bool.or_eq_true, List.isEmpty_iff, decide_eq_true_eq, not_or] at hne
      exact ⟨hne.1, hne.2, (Option.some.inj h).symm⟩

/-- A front is the beginning of its path, -/
theorem front_beginning (p : FilePath) : front p <+: p :=
  ⟨leaf p, front_append_leaf p⟩

/-- and so is what is above it, -/
theorem parent?_beginning {p up : FilePath} (h : p.parent? = some up) : up <+: p := by
  obtain ⟨-, -, rfl⟩ := parent?_eq h
  exact ((trimEnd_beginning _).trans (front_beginning _)).trans (trimEnd_beginning p)

/-- which is shorter. -/
theorem parent?_length {p up : FilePath} (h : p.parent? = some up) :
    up.length < p.length := by
  obtain ⟨hempty, hroot, rfl⟩ := parent?_eq h
  have hleaf := List.length_pos_iff.2 (leaf_trimEnd hempty hroot)
  have hsum := congrArg List.length (front_append_leaf (trimEnd p))
  rw [List.length_append] at hsum
  have hup := (trimEnd_beginning (front (trimEnd p))).length_le
  have hp := (trimEnd_beginning p).length_le
  omega

/-- The front of a path begins with the components of the path above. -/
theorem parent?_components {p up : FilePath} (h : p.parent? = some up) :
    up.components <+: (front p).components := by
  obtain ⟨-, -, rfl⟩ := parent?_eq h
  rw [components_trimEnd]
  have hp := components_append (isFront_front p) (slash_not_mem_leaf p)
  rw [front_append_leaf] at hp
  by_cases hleaf : leaf p = [] ∨ leaf p = [0x2e]
  · -- The leaf does not count, so the components are those of the front.
    have hsame : p.components = (front p).components := by
      rw [hp]
      rcases hleaf with hleaf | hleaf
      · rw [hleaf]
        exact List.append_nil _
      · rw [hleaf]
        exact List.append_nil _
    rw [← hsame, ← components_trimEnd p]
    have hq := components_append (isFront_front (trimEnd p))
      (slash_not_mem_leaf (trimEnd p))
    rw [front_append_leaf] at hq
    exact ⟨_, hq.symm⟩
  · rw [not_or] at hleaf
    have hkept : trimEnd p = p := trimEnd_eq hleaf.1 hleaf.2
    exact ⟨[], by rw [List.append_nil, hkept]⟩

/-- A path has at least the components of its front. -/
theorem front_components (p : FilePath) :
    (front p).components <+: p.components := by
  have hp := components_append (isFront_front p) (slash_not_mem_leaf p)
  rw [front_append_leaf] at hp
  exact ⟨_, hp.symm⟩

end FilePath

namespace FileSystem

open FilePath

variable {fs fs' : FileSystem}

-- ==================================================== where paths lead

/-- A path that a walk can take at all. -/
structure Walkable (p : FilePath) : Prop where
  /-- No zero byte is in it, -/
  bytes : p.contains 0 = false
  /-- it is not empty -/
  nonempty : p ≠ []
  /-- and short enough. -/
  short : p.length ≤ maxPath

/-- Beginnings of paths that a walk can take are such paths. -/
theorem Walkable.above {p q : FilePath} (h : Walkable q) (hp : p <+: q)
    (hne : p ≠ []) : Walkable p where
  bytes := by
    have hq := h.bytes
    rw [Bool.eq_false_iff, ne_eq, List.contains_iff_mem] at hq ⊢
    exact fun hmem => hq (hp.subset hmem)
  nonempty := hne
  short := Nat.le_trans hp.length_le h.short

/-- So both start at the same place. -/
theorem start_above {p q : FilePath} (hp : p <+: q) (hne : p ≠ [])
    (stack : List Id) : start stack p = start stack q := by
  obtain ⟨r, rfl⟩ := hp
  cases p with
  | nil => exact absurd rfl hne
  | cons b p => rfl

/-- To locate a path is to walk it, if it is one that can be walked. -/
theorem locate_walk {follow : Bool} {p : FilePath} {place : Place} :
    fs.locate follow p = .ok place ↔ Walkable p
      ∧ fs.walk follow maxLinks (start fs.workingDirectory p) (steps p)
        = .ok place := by
  unfold locate
  constructor
  · intro h
    split at h
    · cases h
    · next hzero =>
        split at h
        · cases h
        · next hempty =>
            split at h
            · cases h
            · next hlong =>
                refine ⟨⟨by simpa using hzero, by simpa using hempty,
                  Nat.le_of_not_lt hlong⟩, ?_⟩
                split at h
                · next hw =>
                    cases h
                    exact hw
                · cases h
  · rintro ⟨hp, hw⟩
    rw [if_neg (by rw [hp.bytes]; exact Bool.false_ne_true),
      if_neg (by simpa using hp.nonempty), if_neg (Nat.not_lt.2 hp.short), hw]

/-- A walk along a path descends along its front and takes one more
step. -/
theorem walk_steps {follow : Bool} {links₀ : Nat} {stack₀ : List Id} {p : FilePath}
    {place : Place} (hp : p ≠ []) :
    fs.walk follow links₀ stack₀ (steps p) = .ok place ↔ ∃ links stack,
      fs.descend links₀ stack₀ (dirs (front p)) = .ok (links, stack)
      ∧ fs.walk follow links stack [lastStep (leaf p)] = .ok place := by
  rw [steps_eq hp, walk_append _ _ _ _ (List.cons_ne_nil _ _)]
  constructor
  · intro h
    rcases hd : fs.descend links₀ stack₀ (dirs (front p)) with k | ⟨links, stack⟩
    · rw [hd] at h
      cases h
    · rw [hd] at h
      exact ⟨links, stack, rfl, h⟩
  · rintro ⟨links, stack, hd, hw⟩
    rw [hd]
    exact hw

/-- A path leads to its leaf in the directory that its front descends
to. -/
theorem locate_iff {p : FilePath} {place : Place} :
    fs.locate false p = .ok place ↔ Walkable p ∧ ∃ links stack,
      fs.descend maxLinks (start fs.workingDirectory p) (dirs (front p))
        = .ok (links, stack)
      ∧ fs.arrive stack (lastStep (leaf p)) = .ok place := by
  rw [locate_walk]
  refine and_congr_right fun hp => (walk_steps hp.nonempty).trans ?_
  refine exists_congr fun links => exists_congr fun stack => and_congr_right fun _ => ?_
  rw [walk_last false links (by simp)]

/-- The step of a leaf arrives at a name if the leaf is one. -/
theorem arrive_leaf {p : FilePath} {stack st : List Id} {name : Bytes} {node : Option Id} :
    fs.arrive stack (lastStep (leaf p)) = .ok (.named st name node) ↔
      (leaf p ≠ [] ∧ leaf p ≠ dot ∧ leaf p ≠ dotDot) ∧ (leaf p).length ≤ maxName
      ∧ st = stack ∧ name = leaf p ∧ node = fs.lookup (top stack) (leaf p) := by
  rw [arrive_named, lastStep]
  split
  · next hempty =>
      constructor
      · rintro ⟨hdot, -⟩
        exact absurd rfl hdot
      · rintro ⟨⟨hleaf, -⟩, -⟩
        exact absurd hempty hleaf
  · next hleaf =>
      constructor
      · rintro ⟨hdot, hdots, h⟩
        exact ⟨⟨hleaf, hdot, hdots⟩, h⟩
      · rintro ⟨⟨-, hdot, hdots⟩, h⟩
        exact ⟨hdot, hdots, h⟩

/-- A path leads to a name if its leaf is one. -/
theorem locate_leaf {p : FilePath} {stack : List Id} {name : Bytes} {node : Option Id} :
    fs.locate false p = .ok (.named stack name node) ↔ Walkable p
      ∧ (∃ links, fs.descend maxLinks (start fs.workingDirectory p) (dirs (front p))
        = .ok (links, stack))
      ∧ (leaf p ≠ [] ∧ leaf p ≠ dot ∧ leaf p ≠ dotDot) ∧ (leaf p).length ≤ maxName
      ∧ name = leaf p ∧ node = fs.lookup (top stack) (leaf p) := by
  rw [locate_iff]
  constructor
  · rintro ⟨hwalk, links, stack', hd, ha⟩
    obtain ⟨hleaf, hshort, rfl, hname, hnode⟩ := arrive_leaf.1 ha
    exact ⟨hwalk, ⟨links, hd⟩, hleaf, hshort, hname, hnode⟩
  · rintro ⟨hwalk, ⟨links, hd⟩, hleaf, hshort, hname, hnode⟩
    exact ⟨hwalk, links, stack, hd, arrive_leaf.2 ⟨hleaf, hshort, rfl, hname, hnode⟩⟩

/-- A path leads to what stands at the place that it comes to. -/
theorem resolve_ok_iff {p : FilePath} {i : Id} : fs.resolve p = .ok i ↔
    ∃ place, fs.locate true p = .ok place ∧ place.node = .ok i := by
  unfold resolve
  constructor
  · intro h
    rcases hl : fs.locate true p with e | place
    · rw [hl] at h
      cases h
    · rw [hl] at h
      exact ⟨place, rfl, h⟩
  · rintro ⟨place, hl, hn⟩
    rw [hl]
    exact hn

/-- A directory is what the path resolves to. -/
theorem isDirectoryAt_iff_resolve {p : FilePath} : fs.isDirectoryAt p = true ↔
    ∃ i, fs.resolve p = .ok i ∧ fs.isDirectory i = true := by
  unfold isDirectoryAt
  rcases fs.resolve p with e | i
  · constructor
    · intro h
      cases h
    · rintro ⟨i, hi, -⟩
      cases hi
  · constructor
    · intro h
      exact ⟨i, rfl, h⟩
    · rintro ⟨j, hj, h⟩
      cases hj
      exact h

/-- Where a longer path descends, so do its beginnings. -/
theorem descend_of_beginning {links : Nat} {stack : List Id}
    {path path' : List Bytes} {place : Nat × List Id} (hp : path <+: path')
    (hd : fs.descend links stack path' = .ok place) :
    ∃ place, fs.descend links stack path = .ok place := by
  obtain ⟨rest, rfl⟩ := hp
  rw [descend_append] at hd
  rcases h : fs.descend links stack path with k | place'
  · rw [h] at hd
    cases hd
  · exact ⟨place', rfl⟩

/-- Paths to directories are those whose components descend. -/
theorem isDirectoryAt_iff (hfs : Proper fs) {p : FilePath} :
    fs.isDirectoryAt p = true ↔ Walkable p ∧ ∃ place, fs.descend maxLinks
      (start fs.workingDirectory p) p.components = .ok place := by
  rw [components_eq, isDirectoryAt_iff_resolve]
  simp only [descend_dots]
  constructor
  · rintro ⟨i, hresolve, hi⟩
    obtain ⟨place, hl, hn⟩ := resolve_ok_iff.1 hresolve
    obtain ⟨hp, hw⟩ := locate_walk.1 hl
    exact ⟨hp, descend_of_walk hw hn hi⟩
  · rintro ⟨hp, place, hd⟩
    obtain ⟨q, hw, hn⟩ := walk_of_descend hd
    exact ⟨_, resolve_ok_iff.2 ⟨q, locate_walk.2 ⟨hp, hw⟩, hn⟩,
      hfs.top_isDirectory (descend_directories hd (start_directories hfs.working p))⟩

/-- Where the front of a path descends, the path above leads to a
directory. -/
theorem isDirectoryAt_above (hfs : Proper fs) {p up : FilePath}
    (h : p.parent? = some up) (hup : up ≠ []) (hp : Walkable p)
    {place : Nat × List Id} (hd : fs.descend maxLinks
      (start fs.workingDirectory p) (front p).components = .ok place) :
    fs.isDirectoryAt up = true := by
  have hprefix := parent?_beginning h
  rw [isDirectoryAt_iff hfs, start_above hprefix hup]
  exact ⟨hp.above hprefix hup, descend_of_beginning (parent?_components h) hd⟩

theorem isDirectoryAt_parent (hfs : Proper fs) {p up : FilePath}
    (h : p.parent? = some up) (hup : up ≠ []) (hd : fs.isDirectoryAt p = true) :
    fs.isDirectoryAt up = true := by
  obtain ⟨hp, place, hplace⟩ := (isDirectoryAt_iff hfs).1 hd
  obtain ⟨place', hfront⟩ := descend_of_beginning (front_components p) hplace
  exact isDirectoryAt_above hfs h hup hp hfront

/-- A path to something that is no directory has a leaf, and what has that
name is no directory either. -/
theorem locate_of_resolve (hfs : Proper fs) {p : FilePath} {i : Id}
    (h : fs.resolve p = .ok i) (hi : fs.isDirectory i = false) :
    leaf p ≠ [] ∧ ∃ stack k, fs.locate false p = .ok (.named stack (leaf p) (some k))
      ∧ fs.isDirectory k = false := by
  obtain ⟨place, hl, hnode⟩ := resolve_ok_iff.1 h
  obtain ⟨hwalk, hw⟩ := locate_walk.1 hl
  obtain ⟨links, stack, hd, hlast⟩ := (walk_steps hwalk.nonempty).1 hw
  have hstack := descend_directories hd (start_directories hfs.working p)
  -- Dots lead to a directory, and the node is none.
  have hunnamed : ∀ stack', fs.Directories stack' → place ≠ .unnamed stack' := by
    rintro stack' hstack' rfl
    cases hnode
    rw [hfs.top_isDirectory hstack'] at hi
    cases hi
  have hdot : ¬lastStep (leaf p) = dot := by
    intro hdot
    rw [walk_follow_cons, if_pos hdot, walk.eq_def] at hlast
    cases hlast
    exact hunnamed stack hstack rfl
  have hdots : ¬lastStep (leaf p) = dotDot := by
    intro hdots
    rw [walk_follow_cons, if_neg hdot, if_pos hdots, walk.eq_def] at hlast
    cases hlast
    exact hunnamed _ (fun j hj => hstack j (List.mem_of_mem_tail hj)) rfl
  obtain ⟨hlen, k, hc, hk⟩ := lookup_of_walk hdot hdots hlast hnode
  have harrive : fs.arrive stack (lastStep (leaf p))
      = .ok (.named stack (lastStep (leaf p)) (some k)) := by
    rw [arrive_iff hdot hdots, hc]
    exact ⟨hlen, rfl⟩
  obtain ⟨hleaf, hshort, -, -, hlookup⟩ := arrive_leaf.1 harrive
  refine ⟨hleaf.1, stack, k, locate_iff.2 ⟨hwalk, links, stack, hd,
    arrive_leaf.2 ⟨hleaf, hshort, rfl, rfl, hlookup⟩⟩, ?_⟩
  rcases hk with rfl | ⟨target, hn⟩
  · exact hi
  · exact isDirectory_eq_false hn (by simp)

/-- Paths lead to nodes that are there. -/
theorem Proper.resolve_there (hfs : Proper fs) {p : FilePath} {i : Id}
    (h : fs.resolve p = .ok i) : i < fs.nodes.length := by
  obtain ⟨place, hl, hnode⟩ := resolve_ok_iff.1 h
  obtain ⟨stack, hstack, rfl | ⟨c, rfl⟩⟩ := walk_ends (locate_walk.1 hl).2
    (start_directories hfs.working p)
  · cases hnode
    exact lt_of_isDirectory (hfs.top_isDirectory hstack)
  · exact hfs.there (Place.node_named.1 hnode)

end FileSystem

end TracedTransfer
