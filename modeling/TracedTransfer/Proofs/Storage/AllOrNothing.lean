/-
All or nothing: a copy to a path stores everything that is brought, or
leaves the destination alone.

What is promised is told from the files with the directories above the
destination (`withParents`), which a copy makes first and which stay
(`AllOrNothing.parents`). Two conditions are on the part file, which the
copy takes for its own: it is no link, and no other name leads to it.

That the destination leads to what was stored is not always so. A link
can stand at the destination and on the way to it, and is replaced: see
`stored_out_of_reach`.
-/
import Mathlib
import TracedTransfer.Proofs.Storage.Ending

namespace TracedTransfer.Storage

open Text Io FileSystem FilePath

variable {fs : FileSystem} {d : FilePath}

/-- What is at a destination, if anything, is what was there. -/
structure Untouched (made files : FileSystem) (d : FilePath) : Prop where
  /-- The destination leads where it led, -/
  place : ∀ place, files.locate false d = .ok place ↔ made.locate false d = .ok place
  /-- and what it led to is as it was. -/
  shape : ∀ stack name i, made.locate false d = .ok (.named stack name (some i)) →
    files.shape? i = made.shape? i

/-- What a copy of a script does. -/
structure AllOrNothing (fs : FileSystem) (d : FilePath) (events : List Event)
    (s : Stored Reader) : Prop where
  proper : Proper s.files
  /-- Missing directories above the destination have been made. -/
  parents : fs.Grown (withParents fs d) (Above · d)
  /-- None is missing where the destination leads anywhere. -/
  settled : ∀ place, fs.locate false d = .ok place → withParents fs d = fs
  /-- A copy that succeeds has stored all that was brought, under the name
  of the destination, and its part file is gone. -/
  stored : ∀ n, s.outcome = .ok n → (Event.yield events).2 = none
    ∧ n = (Event.yield events).1.length
    ∧ StoredAt (withParents fs d) s.files d (Event.yield events).1
    ∧ s.files.Absent (partPath d)
  /-- One that fails has left the destination as it was. Its part file is
  gone, or could not be opened at all. -/
  failed : ∀ e, s.outcome = .error e → Untouched (withParents fs d) s.files d
    ∧ (s.files.Absent (partPath d)
      ∨ s.files = withParents fs d
        ∧ ∃ e', (withParents fs d).openToWrite true (partPath d) = .error e')
  /-- All other names lead to what they led to. -/
  others : ∀ dir name, ¬(withParents fs d).Names (partPath d) dir name →
    ¬(withParents fs d).Names d dir name ∨ (∃ e, s.outcome = .error e) →
    (withParents fs d).Kept s.files dir name
  /-- Interruptions make no difference. -/
  interrupted : s.outcome
      = (copyToPath fs (Reader.script (events.filter (!·.isInterruption))) d).outcome
    ∧ s.files
      = (copyToPath fs (Reader.script (events.filter (!·.isInterruption))) d).files

/-- No other name leads to a part file than its own, unless it is a
device. -/
theorem full_of_lookup {fs₁ : FileSystem} {p : FilePath} {h : Handle}
    {stack : List FileSystem.Id} (hfs : Proper fs) (hshared : fs.NotShared p)
    (ho : fs.Opened fs₁ p h stack) {dir : FileSystem.Id} {name : Bytes}
    (hl : fs.lookup dir name = some h.node)
    (hne : ¬(dir = top stack ∧ name = leaf p)) : fs.node? h.node = some .full := by
  have hthere := hfs.there hl
  rcases ho.old with hold | ⟨-, hnew⟩
  · have hnode : fs.node? h.node = some fs.nodes[h.node] := List.getElem?_eq_getElem hthere
    rcases ho.node with ⟨-, hfile⟩ | ⟨hfull, rfl⟩
    · obtain ⟨s, hs⟩ := hfile _ hnode
      have hplace := ho.locate
      rw [hold] at hplace
      rw [hs] at hnode
      exact absurd (hshared _ _ _ s hplace hnode dir name hl) hne
    · exact hfull
  · exact absurd hthere (Nat.not_lt.2 hnew)

theorem Untouched.refl (made : FileSystem) (d : FilePath) : Untouched made made d :=
  ⟨fun _ => Iff.rfl, fun _ _ _ _ => rfl⟩

/-- What failed before there was a part file has copied nothing. -/
theorem allOrNothing_of_error {events : List Event} {e : Error}
    (hmade : Proper (withParents fs d)) (hparents : fs.Grown (withParents fs d) (Above · d))
    (hsettled : ∀ place, fs.locate false d = .ok place → withParents fs d = fs)
    (hcopy : ∀ r : Reader, copyToPath fs r d = ⟨withParents fs d, r, .error e, none⟩)
    (hpart : (withParents fs d).Absent (partPath d)
      ∨ ∃ e', (withParents fs d).openToWrite true (partPath d) = .error e') :
    AllOrNothing fs d events (copyToPath fs (Reader.script events) d) := by
  rw [hcopy]
  refine ⟨hmade, hparents, hsettled, by simp, fun _ _ => ⟨.refl _ d, ?_⟩,
    fun dir name _ _ => .refl _ dir name, ?_⟩
  · exact hpart.imp_right fun hopen => ⟨rfl, hopen⟩
  · rw [hcopy]
    exact ⟨rfl, rfl⟩

/-- A copy to a path stores all that is brought, or leaves the destination
alone, wherever it fails. -/
theorem copyToPath_allOrNothing (hfs : Proper fs)
    (hlink : (withParents fs d).NoLink (partPath d))
    (hshared : (withParents fs d).NotShared (partPath d)) (events : List Event) :
    AllOrNothing fs d events (copyToPath fs (Reader.script events) d) := by
  obtain ⟨hmade, hparents, hunreached⟩ := withParents_spec hfs d
  have hsettled : ∀ place, fs.locate false d = .ok place → withParents fs d = fs :=
    fun _ => withParents_of_locate hfs
  rcases copyToPath_begins Reader fs d with
    ⟨e, hfailed, hcopy⟩ | ⟨hready, ⟨e, hopen, hcopy⟩ | ⟨fs₁, h, hopen⟩⟩
  · -- A directory could not be made, so the part file's path leads nowhere.
    refine allOrNothing_of_error hmade hparents hsettled hcopy (.inl ?_)
    intro place i hplace
    exact absurd hplace (hunreached (by simp [hfailed]) place)
  · exact allOrNothing_of_error hmade hparents hsettled hcopy (.inr ⟨e, hopen⟩)
  · obtain ⟨stack, ho⟩ := openToWrite_opened hmade hlink hopen
    have hdir := ho.isDirectory_top hmade
    have hfills : ∀ events, Fills fs₁ ⟨d, h⟩ (Reader.script events) := fun events =>
      fills_of_blind ⟨d, h⟩ (Reader.blind h.node) ho.beginning trivial
    have hended := copyToPath_ended hmade hready hopen ho (hfills events)
    rw [readToEnd_script] at hended
    -- Names beside its own can only lead to the part file if it is a device.
    have hfull : ∀ {dir name}, (withParents fs d).lookup dir name = some h.node →
        ¬(dir = top stack ∧ name = partName d) →
        (withParents fs d).node? h.node = some .full := by
      intro dir name hl hne
      rw [← leaf_partPath] at hne
      exact full_of_lookup hmade hshared ho hl hne
    have hshape : ∀ {dir name i}, (withParents fs d).lookup dir name = some i →
        ¬(dir = top stack ∧ name = partName d) →
        (copyToPath fs (Reader.script events) d).files.shape? i
          = (withParents fs d).shape? i := by
      intro dir name i hl hne
      by_cases hi : i = h.node
      · subst hi
        exact hended.shape (.inr (hfull hl hne))
      · exact hended.shape (.inl hi)
    have habsent := hended.absent hdir ho fun hl =>
      hfull hl fun hc => leaf_ne_partName d hc.2
    refine ⟨hended.proper hmade, hparents, hsettled, ?_, ?_, ?_, ?_⟩
    · intro n hn
      rw [hn] at hended
      obtain ⟨hwhole, hcount, hstored⟩ := hended.storedAt hdir
      exact ⟨hwhole, hcount, hstored, habsent⟩
    · intro e he
      rw [he] at hended
      refine ⟨⟨hended.locate ho, ?_⟩, .inl habsent⟩
      intro stack' name i hplace
      obtain ⟨rfl, rfl⟩ := place_of_destination ho hplace
      exact hshape (lookup_of_locate hplace) fun hc => leaf_ne_partName d hc.2
    · intro dir name hpart hd
      refine ⟨hended.lookup_of_names ho hpart hd, fun i hl => hshape hl ?_⟩
      rintro ⟨rfl, rfl⟩
      have hplace := ho.locate
      rw [leaf_partPath] at hplace
      exact hpart ⟨stack, _, hplace, rfl⟩
    · exact copyToPath_congr hready hopen ho (hfills _) (hfills _)
        (by rw [readToEnd_script, readToEnd_script, Event.yield_filter])

/-- A destination with a stale part file beside it. -/
def stale : FileSystem where
  nodes := [.directory [(bytesOf "d", 1), (bytesOf "d.part", 2)],
    .file (bytesOf "old"), .file (bytesOf "stale")]
  workingDirectory := []

/-- A word in two pieces. -/
def twoPieces : List Event :=
  [.data (bytesOf "ne"), .fail (.system .interrupted), .data (bytesOf "w")]

theorem stale_proper : Proper stale := proper_of_entries rfl (by decide) (by decide)

/-- A copy over a stale part file, which is used up by it. -/
theorem copyToPath_over_stale :
    Proper stale
      ∧ (copyToPath stale (Reader.script twoPieces) (bytesOf "d")).outcome = .ok 3
      ∧ AllOrNothing stale (bytesOf "d") twoPieces
        (copyToPath stale (Reader.script twoPieces) (bytesOf "d")) := by
  have hmade : withParents stale (bytesOf "d") = stale := by cbv
  have hplace : stale.locate false (partPath (bytesOf "d"))
      = .ok (.named [] (bytesOf "d.part") (some 2)) := by cbv
  refine ⟨stale_proper, by cbv, copyToPath_allOrNothing stale_proper ?_ ?_ twoPieces⟩
  · rw [hmade]
    intro stack name i target h
    rw [hplace] at h
    cases h
    simp [node?, stale]
  · rw [hmade]
    intro stack name i s h hnode dir name' hl
    rw [hplace] at h
    cases h
    have hentries : ∀ dir < stale.nodes.length, ∀ e ∈ stale.entries dir,
        e.2 = 2 → dir = top [] ∧ e.1 = bytesOf "d.part" := by decide
    exact hentries dir (lt_of_isDirectory (isDirectory_of_lookup hl)) _
      (mem_entries_of_lookup hl) rfl

/-- A link to a directory. -/
def linked : FileSystem where
  nodes := [.directory [(bytesOf "l", 1), (bytesOf "sub", 2)],
    .link (bytesOf "sub"), .directory []]
  workingDirectory := []

/-- A link in the place of a part file. -/
def linkedPart : FileSystem where
  nodes := [.directory [(bytesOf "a", 1), (bytesOf "t", 2)],
    .directory [(bytesOf "f.part", 3)], .file (bytesOf "kept"), .link (bytesOf "../t")]
  workingDirectory := []

/-- Without the directories above the destination it is not known what is
at the part file's path, and what is stored may be out of the
destination's reach. Of the destination `l/../l` nothing is left to go
through; and when `a/b` has been made, the part file of `a/b/../f` is a
link. -/
theorem stored_out_of_reach :
    (linked.Absent (partPath (bytesOf "l/../l"))
        ∧ (copyToPath linked (Reader.script twoPieces) (bytesOf "l/../l")).outcome
          = .ok 3
        ∧ (copyToPath linked (Reader.script twoPieces) (bytesOf "l/../l")).files.contentAt
          (bytesOf "l/../l") = .error (.system .notADirectory))
      ∧ linkedPart.Absent (partPath (bytesOf "a/b/../f"))
        ∧ (copyToPath linkedPart (Reader.script twoPieces) (bytesOf "a/b/../f")).outcome
          = .ok 3
        ∧ linkedPart.contentAt (bytesOf "t") = .ok (bytesOf "kept")
        ∧ (copyToPath linkedPart (Reader.script twoPieces)
          (bytesOf "a/b/../f")).files.contentAt (bytesOf "t") = .ok (bytesOf "new") := by
  have hlinked : linked.locate false (partPath (bytesOf "l/../l"))
      = .ok (.named [] (bytesOf "l.part") none) := by cbv
  have hbehind : linkedPart.locate false (partPath (bytesOf "a/b/../f"))
      = .error (.system .notFound) := by cbv
  refine ⟨⟨?_, by cbv, by cbv⟩, ?_, by cbv, by cbv, by cbv⟩
  · intro place i h
    rw [hlinked] at h
    cases h
    simp [Place.node]
  · intro place i h
    rw [hbehind] at h
    cases h

end TracedTransfer.Storage
