/-
Clean paths: absolute, and spelled by their components.

Such a path has no empty, `.` or `..` component, so it starts at the root
and takes one step for each component (`Clean.steps_eq`). Its components
are those of its front and its leaf (`Clean.components_eq`), and they
spell it, so what stands beside it, with the same front, is known from
that leaf (`Clean.eq_beside`).
-/
import TracedTransfer.Proofs.FileSystem.Path
import TracedTransfer.Proofs.Text.Separator

namespace TracedTransfer.FilePath

open Text

/-- An absolute path without empty, `.` and `..` components. -/
structure Clean (p : FilePath) : Prop where
  /-- Nothing else than the components stands in the path. -/
  spelled : ofComponents p.components = p
  /-- It never goes up. -/
  down : FileSystem.dotDot ∉ p.components

/-- A path to something in the directory that another path leads to, or below that. -/
def Within (p q : FilePath) : Prop :=
  ∃ name rest, q.components = p.components ++ name :: rest

variable {p q : FilePath}

-- ========================================================== components

/-- A component is not empty, no dot, and has no slash in it. -/
theorem mem_components {c : Bytes} (h : c ∈ p.components) :
    c ≠ [] ∧ c ≠ FileSystem.dot ∧ slash ∉ c := by
  unfold components at h
  obtain ⟨hmem, hcounts⟩ := List.mem_filter.1 h
  rw [Bool.and_eq_true, decide_eq_true_eq] at hcounts
  refine ⟨?_, hcounts.2, (of_mem_splitOn hmem).1⟩
  rintro rfl
  simp at hcounts

/-- A path spelled by names takes one step for each of them; the root stays where it is. -/
theorem steps_ofComponents {cs : List Bytes} (hcs : ∀ c ∈ cs, c ≠ [] ∧ slash ∉ c) :
    FileSystem.steps (ofComponents cs) = if cs = [] then [FileSystem.dot] else cs := by
  unfold ofComponents
  split
  · next hnil =>
      rw [if_pos (List.isEmpty_iff.1 hnil)]
      rfl
  · next hcons =>
      have hne : cs ≠ [] := fun h => hcons (List.isEmpty_iff.2 h)
      have hcounts : ([] :: cs).filter (!·.isEmpty) = cs := by
        rw [List.filter_cons_of_neg (by simp), List.filter_eq_self]
        intro c hc
        simpa using (hcs c hc).1
      -- The last byte is one of the last name.
      have hlast : (cs.flatMap (slash :: ·)).getLast? ≠ some slash := by
        obtain ⟨hempty, hslash⟩ := hcs _ (List.getLast_mem hne)
        rw [← List.dropLast_concat_getLast hne, List.flatMap_append, List.flatMap_singleton,
          List.append_cons]
        exact getLast?_ne_slash hslash hempty
      unfold FileSystem.steps
      dsimp only
      rw [if_neg hne, if_neg hlast, splitOn_flatMap fun c hc => (hcs c hc).2, hcounts]

/-- What is spelled by components starts at the root. -/
theorem isAbsolute_ofComponents (cs : List Bytes) : (ofComponents cs).isAbsolute = true := by
  cases cs with
  | nil => rfl
  | cons c cs => rfl

/-- A clean path starts at the root, wherever one is, -/
theorem Clean.start_eq (hp : Clean p) (stack : List FileSystem.Id) :
    FileSystem.start stack p = [] := by
  rw [← hp.spelled]
  exact if_pos (isAbsolute_ofComponents _)

/-- and takes one step for each component. -/
theorem Clean.steps_eq (hp : Clean p) : FileSystem.steps p
    = if p.components = [] then [FileSystem.dot] else p.components := by
  rw [← steps_ofComponents fun c hc =>
    ⟨(mem_components (p := p) hc).1, (mem_components hc).2.2⟩, hp.spelled]

-- ================================================================ parts

/-- The components of a clean path are those of its front and its leaf. The root has none. -/
theorem Clean.components_eq (hp : Clean p) : p = [slash]
    ∨ p.components = dirs (front p) ++ [leaf p] ∧ leaf p ≠ [] := by
  by_cases hnil : p.components = []
  · left
    rw [← hp.spelled, hnil]
    rfl
  · right
    have hne : p ≠ [] := by
      rintro rfl
      exact hnil rfl
    have hsteps := FilePath.steps_eq hne
    rw [hp.steps_eq, if_neg hnil] at hsteps
    have hleaf : leaf p ≠ [] := by
      intro hempty
      have hmem : lastStep (leaf p) ∈ p.components := by
        rw [hsteps]
        exact List.mem_append_right _ (List.mem_singleton_self _)
      rw [lastStep, if_pos hempty] at hmem
      exact (mem_components hmem).2.1 rfl
    rw [lastStep, if_neg hleaf] at hsteps
    exact ⟨hsteps, hleaf⟩

/-- The front of a clean path goes down. -/
theorem Clean.dirs_names (hp : Clean p) {c : Bytes} (hc : c ∈ dirs (front p)) :
    c ≠ FileSystem.dot ∧ c ≠ FileSystem.dotDot := by
  rcases hp.components_eq with rfl | ⟨hcs, -⟩
  · cases hc
  · have hmem : c ∈ p.components := by
      rw [hcs]
      exact List.mem_append_left _ hc
    refine ⟨(mem_components hmem).2.1, ?_⟩
    rintro rfl
    exact hp.down hmem

/-- The front of a clean path is spelled by the components before the last. -/
theorem Clean.front_eq (hp : Clean p) :
    front p = (dirs (front p)).flatMap (slash :: ·) ++ [slash] := by
  rcases hp.components_eq with rfl | ⟨hcs, -⟩
  · rfl
  · have hspelled := hp.spelled
    rw [hcs] at hspelled
    unfold ofComponents at hspelled
    rw [if_neg (by simp), List.flatMap_append, List.flatMap_singleton, List.append_cons] at hspelled
    have hsame := (front_append_leaf p).trans hspelled.symm
    exact List.append_cancel_right hsame

/-- A clean path with the components of a front and one more is that front and that name. -/
theorem Clean.eq_beside (hp : Clean p) (hq : Clean q) {name : Bytes}
    (h : q.components = dirs (front p) ++ [name]) : q = front p ++ name := by
  have hspelled := hq.spelled
  rw [h] at hspelled
  unfold ofComponents at hspelled
  rw [if_neg (by simp), List.flatMap_append, List.flatMap_singleton, List.append_cons] at hspelled
  rw [hp.front_eq, ← hspelled]

end TracedTransfer.FilePath
