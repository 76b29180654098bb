/-
Copies to clean paths in trees.

In a tree the part file has no other name than its own, so a copy has two
endings only: the part file is taken away, or it has the destination's
name (`Ended.in_tree`). Both touch no more than these two names, which are
no directories' (`Ended.touched`), and leave a tree (`Ended.tree`). So all
that shows of a copy is the destination, if it succeeds (`Replaced`).
-/
import TracedTransfer.Proofs.FileSystem.Tree
import TracedTransfer.Proofs.Storage.Ending

namespace TracedTransfer.Storage

open Text Io FileSystem FilePath

variable {fs : FileSystem} {d q : FilePath}

-- =============================================================== paths

/-- A part file has the components of its destination, but for the last. -/
theorem components_partPath (hd : Clean d) :
    (partPath d).components = dirs (front d) ++ [partName d] := by
  obtain ⟨hempty, hdot, -⟩ := partName_named d
  have hfront : (dirs (front d)).filter (· ≠ dot) = dirs (front d) := by
    rw [List.filter_eq_self]
    intro c hc
    simpa using (hd.dirs_names hc).1
  have hcounts : [partName d].filter (fun c => !c.isEmpty && c ≠ [0x2e]) = [partName d] := by
    refine List.filter_cons_of_pos ?_
    rw [Bool.and_eq_true, decide_eq_true_eq]
    exact ⟨by simpa using hempty, hdot⟩
  rw [partPath_eq, components_append (isFront_front d) (slash_not_mem_partName d), hcounts,
    ← dirs_filter, hfront]

theorem eq_partPath (hd : Clean d) (hq : Clean q)
    (h : q.components = dirs (front d) ++ [partName d]) : q = partPath d :=
  (hd.eq_beside hq h).trans (partPath_eq d).symm

theorem eq_destination (hd : Clean d) (hq : Clean q)
    (h : q.components = dirs (front d) ++ [leaf d]) : q = d :=
  (hd.eq_beside hq h).trans (front_append_leaf d)

-- ============================================================= endings

/-- Directories that are made on the way leave a tree a tree. -/
theorem tree_withParents (h : Tree fs) (d : FilePath) : Tree (withParents fs d) := by
  unfold withParents PartFile.makeParents
  split
  · split
    · exact h
    · exact h.makeDirectoriesWithin _ _
  · exact h

section Ended

variable {made fs₁ files : FileSystem} {handle : Handle} {stack : List FileSystem.Id}
  {data : Bytes × Option Error} {outcome : Except Error Nat}

/-- The part file stands at the end of a route. -/
theorem route_of_opened (hmade : Tree made) (hd : Clean d)
    (ho : made.Opened fs₁ (partPath d) handle stack) :
    made.Route FileSystem.root (dirs (front d)) (top stack) := by
  obtain ⟨links, hdesc⟩ := ho.descends
  have hprefix : d <+: partPath d := ⟨partSuffix, rfl⟩
  have hne : d ≠ [] := by
    rintro rfl
    have hspelled := hd.spelled
    cases hspelled
  rw [front_partPath, ← start_above hprefix hne, hd.start_eq] at hdesc
  exact hmade.route_of_descend (fun c hc => hd.dirs_names hc) hdesc

/-- No other name leads to the part file. -/
theorem only_part (hmade : Tree made) (ho : made.Opened fs₁ (partPath d) handle stack)
    {dir : FileSystem.Id} {name : Bytes} (hl : made.lookup dir name = some handle.node) :
    dir = top stack ∧ name = partName d := by
  rcases ho.old with hold | ⟨-, hnew⟩
  · rw [leaf_partPath] at hold
    exact hmade.single hl hold
  · exact absurd (hmade.there hl) (Nat.not_lt.2 hnew)

/-- What a copy has come to in a tree: it has failed and its part file is gone, or that is now the
destination, with all that was read. -/
theorem Ended.in_tree (hmade : Tree made) (ho : made.Opened fs₁ (partPath d) handle stack)
    (h : Ended made d handle.node stack data outcome files) :
    (∃ e, outcome = .error e ∧ made.Patch files (top stack) (partName d) handle.node none
      ∧ files.Plain handle.node)
    ∨ outcome = .ok data.1.length ∧ data.2 = none
      ∧ made.Moved files (top stack) (partName d) (leaf d) handle.node
      ∧ files.node? handle.node = some (.file data.1)
      ∧ made.locate false d
        = .ok (.named stack (leaf d) (made.lookup (top stack) (leaf d)))
      ∧ ∀ j, made.lookup (top stack) (leaf d) = some j → made.isDirectory j = false := by
  cases h with
  | failed gone _ plain => exact .inl ⟨_, rfl, gone, plain⟩
  | stored moved content whole place old =>
      exact .inr ⟨rfl, whole, moved, content, place, old⟩
  | shared _ _ _ place =>
      exact absurd (only_part hmade ho (lookup_of_locate place)).2 (leaf_ne_partName d)

/-- In both cases the files are a tree again. -/
theorem Ended.tree (hmade : Tree made) (ho : made.Opened fs₁ (partPath d) handle stack)
    (h : Ended made d handle.node stack data outcome files) : Tree files := by
  have hproper := h.proper hmade.toProper
  have hroot : handle.node ≠ FileSystem.root := by
    intro hroot
    have hdir := ho.patch.plain.directory
    rw [hroot, hmade.root] at hdir
    cases hdir
  have hlinks : files.Plain handle.node → ∀ i target, files.node? i ≠ some (.link target) := by
    intro hplain i target hi
    by_cases hne : i = handle.node
    · rw [hne] at hi
      exact hplain.link target hi
    · have hshape := h.shape (.inl hne)
      rw [shape?_of_node hi] at hshape
      exact hmade.noLink i target ((node?_of_shape (by simp)).1 hshape.symm)
  rcases h.in_tree hmade ho with ⟨e, -, gone, plain⟩ | ⟨-, -, moved, content, -, -⟩
  · have hnames : ∀ {dir name i}, files.lookup dir name = some i →
        made.lookup dir name = some i := by
      intro dir name i hl
      rw [gone.lookup] at hl
      split at hl
      · cases hl
      · exact hl
    exact ⟨hproper, hlinks plain, fun hl hl' => hmade.single (hnames hl) (hnames hl'),
      fun dir name hl => hmade.rootUnnamed dir name (hnames hl)⟩
  · -- A name is that of the destination, or leads to another node as before.
    have hnames : ∀ {dir name i}, files.lookup dir name = some i →
        (dir = top stack ∧ name = leaf d) ∧ i = handle.node
          ∨ i ≠ handle.node ∧ made.lookup dir name = some i := by
      intro dir name i hl
      rw [moved.lookup] at hl
      split at hl
      · next hdest => exact .inl ⟨hdest, (Option.some.inj hl).symm⟩
      · split at hl
        · cases hl
        · next hpart =>
            refine .inr ⟨?_, hl⟩
            rintro rfl
            exact hpart (only_part hmade ho hl)
    refine ⟨hproper, hlinks moved.plain_now, ?_, ?_⟩
    · intro dir dir' i name name' hl hl'
      rcases hnames hl with ⟨hdest, hi⟩ | ⟨hi, hold⟩
      · rcases hnames hl' with ⟨hdest', -⟩ | ⟨hi', -⟩
        · exact ⟨hdest.1.trans hdest'.1.symm, hdest.2.trans hdest'.2.symm⟩
        · exact absurd hi hi'
      · rcases hnames hl' with ⟨-, hi'⟩ | ⟨-, hold'⟩
        · exact absurd hi' hi
        · exact hmade.single hold hold'
    · intro dir name hl
      rcases hnames hl with ⟨-, hi⟩ | ⟨-, hold⟩
      · exact hroot hi.symm
      · exact hmade.rootUnnamed dir name hold

/-- What a copy has stored of what was brought. -/
def storedOf (data : Bytes × Option Error) (outcome : Except Error Nat) : Option Bytes :=
  outcome.toOption.map fun _ => data.1

/-- The names that a copy touches: that of the part file, and that of the destination if
something is stored. -/
def TouchedBy (d : FilePath) (stored : Option Bytes) (name : Bytes) : Prop :=
  name = partName d ∨ name = leaf d ∧ stored ≠ none

/-- Nothing else of the tree is touched than the two names. -/
theorem Ended.touched (hmade : Tree made) (ho : made.Opened fs₁ (partPath d) handle stack)
    (h : Ended made d handle.node stack data outcome files) :
    made.Touched files (top stack) (TouchedBy d (storedOf data outcome)) := by
  have hpart : ∀ i, made.lookup (top stack) (partName d) = some i →
      made.isDirectory i = false := by
    intro i hl
    rcases ho.old with hold | ⟨hnone, -⟩
    · rw [leaf_partPath, hl] at hold
      cases hold
      exact ho.patch.plain.directory
    · rw [leaf_partPath, hl] at hnone
      cases hnone
  have hkept : ∀ dir name, ¬(dir = top stack ∧ TouchedBy d (storedOf data outcome) name) →
      made.Kept files dir name := by
    intro dir name hother
    have hother' : ¬(dir = top stack ∧ name = partName d) := fun hc =>
      hother ⟨hc.1, .inl hc.2⟩
    refine ⟨h.lookup hother' ?_, fun i hl => h.shape (.inl ?_)⟩
    · cases outcome with
      | error e => exact .inr ⟨e, rfl⟩
      | ok n => exact .inl fun hc => hother ⟨hc.1, .inr ⟨hc.2, Option.some_ne_none _⟩⟩
    · rintro rfl
      exact hother' (only_part hmade ho hl)
  -- A copy that failed has taken its part file away; one that succeeded has given it the other
  -- name.
  rcases h.in_tree hmade ho with ⟨e, rfl, gone, -⟩ | ⟨rfl, -, moved, content, -, old⟩
  · have hname : ∀ {name}, TouchedBy d (storedOf data (.error e)) name →
        name = partName d := fun ht => ht.resolve_right fun hc => hc.2 rfl
    refine ⟨hkept, fun name i ht => hname ht ▸ hpart i, fun name i ht hl => ?_⟩
    rw [hname ht, gone.lookup, if_pos ⟨rfl, rfl⟩] at hl
    cases hl
  · refine ⟨hkept, ?_, ?_⟩
    · rintro name i (rfl | ⟨rfl, -⟩) hl
      · exact hpart i hl
      · exact old i hl
    · rintro name i (rfl | ⟨rfl, -⟩) hl
      · rw [moved.lookup, if_neg fun hc => leaf_ne_partName d hc.2.symm,
          if_pos ⟨rfl, rfl⟩] at hl
        cases hl
      · rw [moved.lookup, if_pos ⟨rfl, rfl⟩] at hl
        cases hl
        exact moved.plain_now.directory

/-- A copy that succeeds shows what was brought. -/
theorem Ended.look (hmade : Tree made) (hd : Clean d)
    (ho : made.Opened fs₁ (partPath d) handle stack) {n : Nat}
    (h : Ended made d handle.node stack data (.ok n) files) :
    data.2 = none ∧ files.look d = .ok (some data.1) := by
  have hfiles := h.tree hmade ho
  have hroute := (route_of_opened hmade hd ho).mono ((h.touched hmade ho).leads hmade)
  rcases h.in_tree hmade ho with ⟨e, he, -⟩ | ⟨-, hwhole, moved, content, hplace, -⟩
  · cases he
  · refine ⟨hwhole, ?_⟩
    obtain ⟨hwalk, -, ⟨hleaf, -, -⟩, hshort, -⟩ := locate_leaf.1 hplace
    have hcs : d.components = dirs (front d) ++ [leaf d] := by
      rcases hd.components_eq with rfl | ⟨hcs, -⟩
      · exact absurd rfl hleaf
      · exact hcs
    have hnode : files.lookup (top stack) (leaf d) = some handle.node := by
      rw [moved.lookup, if_pos ⟨rfl, rfl⟩]
    have hcontent : files.file? handle.node = some data.1 := by rw [file?, content]
    rw [hfiles.look_eq hd hwalk, hcs, hroute.seek, seek, if_neg (Nat.not_lt.2 hshort), hnode]
    simp only [moved.plain_now.directory, Bool.false_eq_true, if_false, if_true, hcontent]

end Ended

-- ================================================================ copies

/-- What happens to a tree when something is stored at a clean path, or nothing is. -/
structure Replaced (fs files : FileSystem) (d : FilePath) (stored : Option Bytes) : Prop where
  /-- The files are a tree still. -/
  tree : Tree files
  /-- What has been stored shows at the destination. -/
  shown : ∀ bytes, stored = some bytes → files.look d = .ok (some bytes)
  /-- All other content is still there, and none has come. -/
  content : ∀ q, Clean q → q ≠ partPath d → (q = d → stored = none) →
    ∀ bytes, files.look q = .ok (some bytes) ↔ fs.look q = .ok (some bytes)
  /-- What has no content shows the same, unless it would stand below a file that has come or
  gone, or has a name that no directory can give. -/
  same : ∀ q, Clean q → q ≠ partPath d → (q = d → stored = none) →
    (∀ c ∈ q.components, c.length ≤ maxName) → ¬Within (partPath d) q →
    (Within d q → stored = none) → files.look q = fs.look q

theorem Replaced.refl (h : Tree fs) (d : FilePath) : Replaced fs fs d none :=
  ⟨h, by simp, fun _ _ _ _ _ => Iff.rfl, fun _ _ _ _ _ _ _ => rfl⟩

/-- Directories that have been made above a destination do not show, unless a name is looked for
that is too long. -/
theorem look_withParents (h : Tree fs) (d : FilePath) (hq : Clean q) :
    (withParents fs d).look q = fs.look q
      ∨ (∃ c ∈ q.components, maxName < c.length)
        ∧ ∀ bytes, (withParents fs d).look q ≠ .ok (some bytes)
          ∧ fs.look q ≠ .ok (some bytes) := by
  obtain ⟨-, hgrown, -⟩ := withParents_spec h.toProper d
  refine (hgrown.look h (tree_withParents h d) hq).imp_right ?_
  rintro ⟨hnone, herror, hlong⟩
  rw [hnone, herror]
  exact ⟨hlong, by simp⟩

/-- A replacement may be told from the tree before its parents were made. -/
theorem Replaced.of_withParents (h : Tree fs) {files : FileSystem} {stored : Option Bytes}
    (hmade : Replaced (withParents fs d) files d stored) : Replaced fs files d stored := by
  refine ⟨hmade.tree, hmade.shown, ?_, ?_⟩
  · intro q hq hpart hdest bytes
    rw [hmade.content q hq hpart hdest bytes]
    rcases look_withParents h d hq with hsame | ⟨-, hnone⟩
    · rw [hsame]
    · exact iff_of_false (hnone bytes).1 (hnone bytes).2
  · intro q hq hpart hdest hshort hwithin hwithin'
    rw [hmade.same q hq hpart hdest hshort hwithin hwithin']
    rcases look_withParents h d hq with hsame | ⟨⟨c, hc, hlong⟩, -⟩
    · exact hsame
    · exact absurd (hshort c hc) (Nat.not_le.2 hlong)

/-- Who goes through a name that a copy touches looks for the part file, for the destination, or
for something within one of them. -/
theorem within_of_touched (hd : Clean d) (hq : Clean q) {stored : Option Bytes} {name : Bytes}
    {rest : List Bytes} (hname : TouchedBy d stored name)
    (hcs : q.components = dirs (front d) ++ name :: rest) (hpart : q ≠ partPath d)
    (hdest : q = d → stored = none) :
    rest ≠ [] ∧ (Within (partPath d) q ∨ Within d q ∧ stored ≠ none) := by
  have hwithin : ∀ {p : FilePath}, p.components = dirs (front d) ++ [name] → rest ≠ [] →
      Within p q := by
    intro p hp hrest
    obtain ⟨next, rest', rfl⟩ := List.exists_cons_of_ne_nil hrest
    exact ⟨next, rest', by rw [hcs, hp, List.append_assoc, List.singleton_append]⟩
  rcases hname with rfl | ⟨rfl, hstored⟩
  · have hrest : rest ≠ [] := by
      rintro rfl
      exact hpart (eq_partPath hd hq hcs)
    exact ⟨hrest, .inl (hwithin (components_partPath hd) hrest)⟩
  · have hrest : rest ≠ [] := by
      rintro rfl
      exact hstored (hdest (eq_destination hd hq hcs))
    refine ⟨hrest, .inr ⟨?_, hstored⟩⟩
    rcases hd.components_eq with rfl | ⟨hcs', -⟩
    · -- The root has no name that could be looked for.
      have hmem : leaf [slash] ∈ q.components := by
        rw [hcs]
        exact List.mem_append_right _ List.mem_cons_self
      exact absurd rfl (mem_components hmem).1
    · exact hwithin hcs' hrest

/-- The ending of a copy whose part file was open. -/
theorem replaced_of_ended {made fs₁ files : FileSystem} {handle : Handle}
    {stack : List FileSystem.Id} {data : Bytes × Option Error} {outcome : Except Error Nat}
    (hmade : Tree made) (hd : Clean d) (ho : made.Opened fs₁ (partPath d) handle stack)
    (h : Ended made d handle.node stack data outcome files) :
    Replaced made files d (storedOf data outcome) := by
  have hfiles := h.tree hmade ho
  have htouched := fun {q} => (h.touched hmade ho).look hmade hfiles
    (route_of_opened hmade hd ho) (p := q)
  refine ⟨hfiles, ?_, ?_, ?_⟩
  · intro bytes hbytes
    cases outcome with
    | error e => cases hbytes
    | ok n =>
        cases hbytes
        exact (h.look hmade hd ho).2
  · intro q hq hpart hdest bytes
    rcases htouched hq with hsame | ⟨name, rest, hname, hcs, hnone⟩
    · rw [hsame]
    · obtain ⟨hrest, -⟩ := within_of_touched hd hq hname hcs hpart hdest
      exact iff_of_false (hnone hrest bytes).2 (hnone hrest bytes).1
  · intro q hq hpart hdest _ hwithin hwithin'
    rcases htouched hq with hsame | ⟨name, rest, hname, hcs, -⟩
    · exact hsame
    · rcases (within_of_touched hd hq hname hcs hpart hdest).2 with hw | ⟨hw, hstored⟩
      · exact absurd hw hwithin
      · exact absurd (hwithin' hw) hstored

/-- A copy of a script to a clean path in a tree stores all that is brought, or nothing; and its
part file is gone if it could be created. -/
theorem copyToPath_replaced (h : Tree fs) (hd : Clean d) (events : List Event) :
    Replaced fs (copyToPath fs (Reader.script events) d).files d
        (storedOf (Event.yield events) (copyToPath fs (Reader.script events) d).outcome)
      ∧ (∀ n, (copyToPath fs (Reader.script events) d).outcome = .ok n →
        (Event.yield events).2 = none)
      ∧ (∀ part, (PartFile.create fs d).2 = .ok part →
        (copyToPath fs (Reader.script events) d).files.Absent (partPath d)) := by
  have hmade := tree_withParents h d
  rcases copyToPath_begins Reader fs d with
    ⟨e, hfailed, hcopy⟩ | ⟨hready, ⟨e, hopen, hcopy⟩ | ⟨fs₁, handle, hopen⟩⟩
  · rw [hcopy]
    have hparents : PartFile.makeParents fs d = ((PartFile.makeParents fs d).1, some e) :=
      Prod.ext rfl hfailed
    refine ⟨.of_withParents h (.refl hmade d), by simp, fun part hpart => ?_⟩
    rw [PartFile.create, hparents] at hpart
    cases hpart
  · rw [hcopy]
    refine ⟨.of_withParents h (.refl hmade d), by simp, fun part hpart => ?_⟩
    simp only [PartFile.create, hready, hopen] at hpart
    cases hpart
  · obtain ⟨stack, ho⟩ := openToWrite_opened hmade.toProper (hmade.noLink_at _) hopen
    have hfills : Fills fs₁ ⟨d, handle⟩ (Reader.script events) :=
      fills_of_blind ⟨d, handle⟩ (Reader.blind handle.node) ho.beginning trivial
    have hended := copyToPath_ended hmade.toProper hready hopen ho hfills
    rw [readToEnd_script] at hended
    refine ⟨.of_withParents h (replaced_of_ended hmade hd ho hended), fun n hn => ?_,
      fun _ _ => ?_⟩
    · rw [hn] at hended
      exact (hended.look hmade hd ho).1
    · refine hended.absent (ho.isDirectory_top hmade.toProper) ho fun hl => ?_
      exact absurd (only_part hmade ho hl).2 (leaf_ne_partName d)

end TracedTransfer.Storage
