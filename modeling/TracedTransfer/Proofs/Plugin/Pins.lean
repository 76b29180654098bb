/-
Pins are a map in which the last pin of a plugin wins.

They are kept in the order of plugins, each plugin once (`Sorted`). In pins
of that form one more pin has the entry of its own plugin changed and no
other (`Sorted.mem_pin_iff`). A log of pins is then a fold, and the
induction is on the log: an entry is either the last of its plugin in the
log or stood there before and was not pinned again
(`Sorted.mem_foldl_iff`). `Tells` says the same of pins that come from a
log alone, with the order told by bytes.
-/
import Mathlib.Data.String.Basic
import TracedTransfer.Plugin.Management
import TracedTransfer.Proofs.Text.Order

namespace TracedTransfer.Plugin.Pins

-- ================================================== in the order of plugins

/-- Pins in the order of plugins, each plugin once. -/
def Sorted (ps : Pins) : Prop := (ps.map Prod.fst).Pairwise (· < ·)

variable {ps : Pins}

/-- A pin adds no other plugin than its own. -/
theorem mem_pin {plugin version k : String} (h : k ∈ (pin plugin version ps).map Prod.fst) :
    k = plugin ∨ k ∈ ps.map Prod.fst := by
  induction ps with
  | nil => simpa [pin] using h
  | cons p ps ih =>
      rw [pin] at h
      split at h
      · rename_i heq
        rcases List.mem_cons.1 h with h | h
        · exact .inl h
        · exact .inr (List.mem_cons_of_mem _ h)
      · split at h
        · simpa using h
        · rcases List.mem_cons.1 h with h | h
          · exact .inr (h ▸ List.mem_cons_self ..)
          · rcases ih h with h | h
            · exact .inl h
            · exact .inr (List.mem_cons_of_mem _ h)

/-- A pin goes to its place in the order of plugins, or replaces the one
that is there. -/
theorem Sorted.pin (h : Sorted ps) (plugin version : String) : Sorted (ps.pin plugin version) := by
  induction ps with
  | nil => exact List.pairwise_singleton _ _
  | cons p ps ih =>
      unfold Sorted at h ih ⊢
      rw [List.map_cons, List.pairwise_cons] at h
      rw [Pins.pin]
      split
      · rename_i heq
        rw [List.map_cons, List.pairwise_cons, heq]
        exact h
      · rename_i hne
        split
        · rename_i hlt
          rw [List.map_cons, List.pairwise_cons, List.map_cons, List.pairwise_cons]
          refine ⟨fun k hk => ?_, h⟩
          rcases List.mem_cons.1 hk with rfl | hk
          · exact hlt
          · exact lt_trans hlt (h.1 k hk)
        · rename_i hlt
          rw [List.map_cons, List.pairwise_cons]
          refine ⟨fun k hk => ?_, ih h.2⟩
          rcases mem_pin hk with rfl | hk
          · exact lt_of_le_of_ne (not_lt.1 hlt) (Ne.symm hne)
          · exact h.1 k hk

/-- However pins come, they are kept in order. -/
theorem sorted_ofList (ps : List (String × String)) : Sorted (ofList ps) := by
  have hrun : ∀ acc : Pins, Sorted acc →
      Sorted (ps.foldl (fun pins p => pin p.1 p.2 pins) acc) := by
    induction ps with
    | nil => exact fun _ h => h
    | cons p ps ih => exact fun acc h => ih _ (h.pin p.1 p.2)
  exact hrun [] List.Pairwise.nil

/-- A plugin behind all others is put at the end. -/
theorem pin_last {plugin : String} (version : String) (h : ∀ k ∈ ps.map Prod.fst, k < plugin) :
    pin plugin version ps = ps ++ [(plugin, version)] := by
  induction ps with
  | nil => rfl
  | cons p ps ih =>
      have hlt : p.1 < plugin := h p.1 (List.mem_cons_self ..)
      rw [pin, if_neg (ne_of_gt hlt), if_neg (not_lt_of_gt hlt),
        ih fun k hk => h k (List.mem_cons_of_mem _ hk)]
      rfl

/-- Pins that are in order are kept as they are. -/
theorem Sorted.ofList_eq (h : Sorted ps) : ofList ps = ps := by
  have hrun : ∀ acc : Pins, Sorted (acc ++ ps) →
      ps.foldl (fun pins p => Pins.pin p.1 p.2 pins) acc = acc ++ ps := by
    clear h
    induction ps with
    | nil => exact fun acc _ => (List.append_nil acc).symm
    | cons p ps ih =>
        intro acc h
        have hlast : ∀ k ∈ acc.map Prod.fst, k < p.1 := by
          intro k hk
          unfold Sorted at h
          rw [List.map_append, List.pairwise_append] at h
          exact h.2.2 k hk p.1 (List.mem_cons_self ..)
        rw [List.foldl_cons, pin_last p.2 hlast, ih _ (by simpa using h)]
        simp
  exact hrun [] h

theorem Sorted.nodup (h : Sorted ps) : (ps.map Prod.fst).Nodup :=
  h.imp fun hlt => ne_of_lt hlt

-- ====================================================== the last pin wins

theorem Sorted.head_lt {p : String × String} (h : Sorted (p :: ps)) {q : String × String}
    (hq : q ∈ ps) : p.1 < q.1 :=
  (List.pairwise_cons.1 h).1 q.1 (List.mem_map_of_mem hq)

theorem Sorted.tail {p : String × String} (h : Sorted (p :: ps)) : Sorted ps :=
  (List.pairwise_cons.1 h).2

/-- A pin changes the entry of its plugin, and no other. -/
theorem Sorted.mem_pin_iff (h : Sorted ps) (plugin version k v : String) :
    (k, v) ∈ ps.pin plugin version ↔ k = plugin ∧ v = version ∨ k ≠ plugin ∧ (k, v) ∈ ps := by
  induction ps with
  | nil => simp [Pins.pin]
  | cons p ps ih =>
      have hne : ∀ {w}, (k, w) ∈ ps → k ≠ p.1 := fun hk => ne_of_gt (h.head_lt hk)
      rw [Pins.pin]
      split
      · rename_i heq
        subst heq
        constructor
        · intro hmem
          rcases List.mem_cons.1 hmem with hnew | hmem
          · exact .inl (Prod.mk.inj hnew)
          · exact .inr ⟨hne hmem, List.mem_cons_of_mem _ hmem⟩
        · rintro (⟨rfl, rfl⟩ | ⟨hk, hmem⟩)
          · exact List.mem_cons_self ..
          · rcases List.mem_cons.1 hmem with rfl | hmem
            · exact absurd rfl hk
            · exact List.mem_cons_of_mem _ hmem
      · rename_i hplugin
        split
        · rename_i hlt
          -- All that stand behind have later plugins.
          have hlater : (k, v) ∈ p :: ps → k ≠ plugin := by
            intro hmem
            rcases List.mem_cons.1 hmem with rfl | hmem
            · exact ne_of_gt hlt
            · exact ne_of_gt (lt_trans hlt (h.head_lt hmem))
          rw [List.mem_cons, Prod.mk.injEq]
          exact or_congr_right ⟨fun hmem => ⟨hlater hmem, hmem⟩, And.right⟩
        · rw [List.mem_cons, ih h.tail, List.mem_cons]
          constructor
          · rintro (hold | hnew | ⟨hk, hmem⟩)
            · cases hold
              exact .inr ⟨fun heq => hplugin heq.symm, .inl rfl⟩
            · exact .inl hnew
            · exact .inr ⟨hk, .inr hmem⟩
          · rintro (hnew | ⟨hk, rfl | hmem⟩)
            · exact .inr (.inl hnew)
            · exact .inl rfl
            · exact .inr (.inr ⟨hk, hmem⟩)

/-- The last entry of a log for a plugin. -/
def IsLast (log : List (String × String)) (plugin version : String) : Prop :=
  ∃ before after, log = before ++ (plugin, version) :: after ∧ ∀ p ∈ after, p.1 ≠ plugin

/-- The last version of a plugin is that of the log behind its first entry,
or this entry if the plugin is not named again. -/
theorem isLast_cons (p : String × String) (log : List (String × String)) (k v : String) :
    IsLast (p :: log) k v ↔ IsLast log k v ∨ p = (k, v) ∧ ∀ q ∈ log, q.1 ≠ k := by
  constructor
  · rintro ⟨_ | ⟨q, before⟩, after, heq, hafter⟩
    · obtain ⟨rfl, rfl⟩ := List.cons.inj heq
      exact .inr ⟨rfl, hafter⟩
    · exact .inl ⟨before, after, (List.cons.inj heq).2, hafter⟩
  · rintro (⟨before, after, rfl, hafter⟩ | ⟨rfl, hlog⟩)
    · exact ⟨p :: before, after, rfl, hafter⟩
    · exact ⟨[], log, rfl, hlog⟩

/-- A plugin that is pinned at all is pinned a last time. -/
theorem exists_isLast {log : List (String × String)} {k : String} (h : k ∈ log.map Prod.fst) :
    ∃ v, IsLast log k v := by
  induction log with
  | nil => cases h
  | cons p log ih =>
      by_cases hlog : k ∈ log.map Prod.fst
      · obtain ⟨v, hv⟩ := ih hlog
        exact ⟨v, (isLast_cons p log k v).2 (.inl hv)⟩
      · obtain rfl | hk := List.mem_cons.1 h
        · exact ⟨p.2, (isLast_cons p log p.1 p.2).2
            (.inr ⟨rfl, fun q hq heq => hlog (heq ▸ List.mem_map_of_mem hq)⟩)⟩
        · exact absurd hk hlog

theorem IsLast.mem {log : List (String × String)} {k v : String} (h : IsLast log k v) :
    k ∈ log.map Prod.fst := by
  obtain ⟨before, after, rfl, -⟩ := h
  simp

/-- What a log comes to behind pins that were there. -/
theorem Sorted.mem_foldl_iff (h : Sorted ps) (log : List (String × String)) (k v : String) :
    (k, v) ∈ log.foldl (fun pins p => Pins.pin p.1 p.2 pins) ps
      ↔ IsLast log k v ∨ (k, v) ∈ ps ∧ ∀ p ∈ log, p.1 ≠ k := by
  induction log generalizing ps with
  | nil => simp [IsLast]
  | cons p log ih =>
      rw [List.foldl_cons, ih (h.pin p.1 p.2), h.mem_pin_iff, isLast_cons, List.forall_mem_cons]
      constructor
      · rintro (hlast | ⟨⟨rfl, rfl⟩ | ⟨hk, hmem⟩, hlog⟩)
        · exact .inl (.inl hlast)
        · exact .inl (.inr ⟨rfl, hlog⟩)
        · exact .inr ⟨hmem, hk.symm, hlog⟩
      · rintro ((hlast | ⟨rfl, hlog⟩) | ⟨hmem, hk, hlog⟩)
        · exact .inl hlast
        · exact .inr ⟨.inl ⟨rfl, rfl⟩, hlog⟩
        · exact .inr ⟨.inr ⟨hk.symm, hmem⟩, hlog⟩

/-- Pins that tell of each plugin in a log the version that it was pinned to
last, in the order of the bytes of plugins, and nothing else. -/
structure Tells (pins : Pins) (log : List (String × String)) : Prop where
  /-- Each plugin comes before those that are later by their bytes, -/
  order : pins.Pairwise fun p q => Text.bytesOf p.1 < Text.bytesOf q.1
  /-- the plugins are those of the log, -/
  plugins : ∀ k, k ∈ pins.map Prod.fst ↔ k ∈ log.map Prod.fst
  /-- and each has its last version in it. -/
  last : ∀ k v, (k, v) ∈ pins ↔ IsLast log k v

/-- The pins that are made of a log are sorted, name the plugins of the log,
and tell the last version of each. -/
theorem tells_ofList (log : List (String × String)) : Tells (ofList log) log := by
  have hlast : ∀ k v, (k, v) ∈ ofList log ↔ IsLast log k v := by
    intro k v
    have hnil : Sorted [] := List.Pairwise.nil
    rw [ofList, hnil.mem_foldl_iff]
    simp
  refine ⟨?_, fun k => ?_, hlast⟩
  · exact (List.pairwise_map.1 (sorted_ofList log)).imp (Text.bytesOf_lt _ _).2
  · constructor
    · intro hk
      obtain ⟨⟨k, v⟩, hmem, rfl⟩ := List.mem_map.1 hk
      exact ((hlast k v).1 hmem).mem
    · intro hk
      obtain ⟨v, hv⟩ := exists_isLast hk
      exact List.mem_map_of_mem (f := Prod.fst) ((hlast k v).2 hv)

end TracedTransfer.Plugin.Pins
