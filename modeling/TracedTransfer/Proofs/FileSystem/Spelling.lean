/-
The spelling of a path by its components.

An absolute path may have slashes, `.` components and a slash at its end
that do not count. Its spelling is what is left without them
(`components_spelling`), no longer than the path (`spelling_sublist`). A
path asks for a directory by a slash or a `.` at its end, and its spelling
does not; so where the path leads the spelling leads too
(`resolve_spelling`), though not the other way around.
-/
import Mathlib.Data.List.Flatten
import TracedTransfer.Proofs.FileSystem.Clean

namespace TracedTransfer

open Text

namespace FilePath

variable {p : FilePath}

/-- A slash before each component. -/
def spelling (p : FilePath) : FilePath := ofComponents p.components

/-- The spelling of a path takes its components as steps, -/
theorem steps_spelling (p : FilePath) : FileSystem.steps p.spelling
    = if p.components = [] then [FileSystem.dot] else p.components :=
  steps_ofComponents fun _ hc => ⟨(mem_components hc).1, (mem_components hc).2.2⟩

/-- and starts at the root. -/
theorem isAbsolute_spelling (p : FilePath) : p.spelling.isAbsolute = true :=
  isAbsolute_ofComponents _

/-- The spelling has the components of the path. -/
theorem components_spelling (p : FilePath) : p.spelling.components = p.components := by
  rw [components_eq, steps_spelling]
  split
  · next hnil =>
      rw [hnil]
      rfl
  · refine List.filter_eq_self.2 fun c hc => ?_
    rw [decide_eq_true_eq]
    exact (mem_components hc).2.1

/-- The spelling is the path with some of its bytes left out. -/
theorem spelling_sublist (h : p.isAbsolute = true) : p.spelling.Sublist p := by
  obtain ⟨rest, rfl⟩ : ∃ rest, p = slash :: rest := by
    cases p with
    | nil => cases h
    | cons b rest =>
        cases Option.some.inj (of_decide_eq_true h)
        exact ⟨rest, rfl⟩
  unfold spelling ofComponents
  split
  · exact (List.nil_sublist rest).cons_cons slash
  · have hpieces : (components (slash :: rest)).Sublist (rest.splitOn slash) := by
      unfold components
      rw [← List.nil_append (slash :: rest), List.splitOn_append_cons_self, List.splitOn_nil,
        List.singleton_append, List.filter_cons_of_neg (by simp)]
      exact List.filter_sublist
    have hspelled := hpieces.flatMap (slash :: ·)
    rwa [flatMap_splitOn] at hspelled

end FilePath

namespace FileSystem

open FilePath

variable {fs : FileSystem} {p : FilePath}

/-- It can be walked if the path can. -/
theorem walkable_spelling (habsolute : p.isAbsolute = true) (h : Walkable p) :
    Walkable p.spelling where
  bytes := by
    have hp := h.bytes
    rw [Bool.eq_false_iff, ne_eq, List.contains_iff_mem] at hp ⊢
    exact fun hmem => hp ((spelling_sublist habsolute).subset hmem)
  nonempty := by
    intro hnil
    have hhead := isAbsolute_spelling p
    rw [hnil] at hhead
    cases hhead
  short := Nat.le_trans (spelling_sublist habsolute).length_le h.short

/-- What a path leads to, its spelling leads to. -/
theorem resolve_spelling {i : Id} (habsolute : p.isAbsolute = true)
    (h : fs.resolve p = .ok i) : fs.resolve p.spelling = .ok i := by
  have hstart : ∀ q : FilePath, q.isAbsolute = true → start fs.workingDirectory q = [] :=
    fun q hq => if_pos hq
  obtain ⟨place, hl, hnode⟩ := resolve_ok_iff.1 h
  obtain ⟨hwalk, hw⟩ := locate_walk.1 hl
  rw [hstart p habsolute] at hw
  -- It is enough that the walk along the spelling ends at the same node.
  suffices hsteps : ∃ q, fs.walk true maxLinks [] (steps p.spelling) = .ok q
      ∧ q.node = .ok i by
    obtain ⟨q, hq, hn⟩ := hsteps
    rw [← hstart p.spelling (isAbsolute_spelling p)] at hq
    exact resolve_ok_iff.2 ⟨q, locate_walk.2 ⟨walkable_spelling habsolute hwalk, hq⟩, hn⟩
  obtain ⟨links, stack, hd, hlast⟩ := (walk_steps hwalk.nonempty).1 hw
  have hcomponents : p.components
      = (dirs (front p)).filter (· ≠ dot)
        ++ [lastStep (leaf p)].filter (· ≠ dot) := by
    rw [components_eq, steps_eq hwalk.nonempty, List.filter_append]
  have hdots : fs.descend maxLinks [] ((dirs (front p)).filter (· ≠ dot))
      = .ok (links, stack) := (descend_dots ..).trans hd
  rw [steps_spelling]
  by_cases hdot : lastStep (leaf p) = dot
  · -- A path that asks for a directory leads to where its front descends.
    rw [hdot, walk_follow_cons, if_pos rfl, walk.eq_def] at hlast
    cases hlast
    rw [hdot, List.filter_cons_of_neg (by simp), List.filter_nil, List.append_nil]
      at hcomponents
    rw [hcomponents]
    split
    · next hnil =>
        rw [hnil, descend_nil] at hdots
        cases hdots
        refine ⟨.unnamed [], ?_, hnode⟩
        rw [walk_follow_cons, if_pos rfl, walk.eq_def]
    · obtain ⟨q, hq, hn⟩ := walk_of_descend hdots
      exact ⟨q, hq, hn.trans hnode⟩
  · rw [List.filter_cons_of_pos (by simpa using hdot), List.filter_nil] at hcomponents
    rw [hcomponents, if_neg (by simp), walk_append _ _ _ _ (List.cons_ne_nil _ _), hdots]
    exact ⟨place, hlast, hnode⟩

end FileSystem

end TracedTransfer
