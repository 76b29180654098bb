/-
Puts and gets of file resources.

A run of puts is told by going through it from the front: the last put to
a path that returned `Ok` is what the path shows, and the others leave it
alone (`putAll_settled`, by induction on the puts, with `Settled.cons` for
the first of them).

A path that shows no content may show that in another way after a put: it
may be absent or lead through a file. That comes of files that come or go
above it, and of names that no directory can give (`Exposed`); see
`absent_differently`.
-/
import Mathlib
import TracedTransfer.Proofs.Resource.FilePut

namespace TracedTransfer.Resource

open Text Io FileSystem FilePath Storage

-- ================================================================ runs

/-- Puts one after another, each with what it returns. -/
def putAll : List Put → Run (List (Put × Except Resource.Error Unit))
  | [] => pure []
  | p :: ps => do
    let answer ← p.run
    let rest ← putAll ps
    return (p, answer) :: rest

/-- The last put to a path that returned `Ok`. -/
def lastStored (path : FilePath) : List (Put × Except Resource.Error Unit) → Option Put
  | [] => none
  | (_, .error _) :: rest => lastStored path rest
  | (p, .ok ()) :: rest =>
    (lastStored path rest).or (if p.resource.path = path then some p else none)

/-- Paths that may show the lack of content in another way after puts: they have a name that no
directory can give, or lead through a part file or through what was stored. -/
def Exposed (path : FilePath) (tried : List (Put × Except Resource.Error Unit)) : Prop :=
  (∃ c ∈ path.components, maxName < c.length)
    ∨ ∃ t ∈ tried, Within (partPath t.1.resource.path) path
      ∨ Within t.1.resource.path path ∧ t.2 = .ok ()

/-- What a path shows after puts. -/
structure Settled (path : FilePath) (fs files : FileSystem)
    (tried : List (Put × Except Resource.Error Unit)) : Prop where
  /-- If some put has stored something there, the last one that did shows. -/
  last : ∀ p, lastStored path tried = some p →
    ∃ bytes, p.supply.brought = .ok bytes ∧ files.look path = .ok (some bytes)
  /-- If none has, the same content shows as before, or none as before, -/
  content : lastStored path tried = none →
    ∀ bytes, files.look path = .ok (some bytes) ↔ fs.look path = .ok (some bytes)
  /-- and also the same error or absence, if nothing beside the path could change that. -/
  same : lastStored path tried = none → ¬Exposed path tried → files.look path = fs.look path

section

variable {p : Put} {fs fs₁ files : FileSystem} {path : FilePath}
  {answer : Except Resource.Error Unit} {tried : List (Put × Except Resource.Error Unit)}

/-- What was not exposed by several puts was not by the first, and is not by the others. -/
theorem not_exposed_cons (h : ¬Exposed path ((p, answer) :: tried)) :
    (∀ c ∈ path.components, c.length ≤ maxName) ∧ ¬Within (partPath p.resource.path) path
      ∧ (answer = .ok () → ¬Within p.resource.path path) ∧ ¬Exposed path tried := by
  refine ⟨?_, ?_, ?_, ?_⟩
  · intro c hc
    exact Nat.le_of_not_lt fun hlong => h (.inl ⟨c, hc, hlong⟩)
  · intro hw
    exact h (.inr ⟨_, List.mem_cons_self, .inl hw⟩)
  · intro hok hw
    exact h (.inr ⟨_, List.mem_cons_self, .inr ⟨hw, hok⟩⟩)
  · rintro (hlong | ⟨t, ht, hw⟩)
    · exact h (.inl hlong)
    · exact h (.inr ⟨t, List.mem_cons_of_mem _ ht, hw⟩)

/-- A put in front that stores the content, when no other one does. -/
theorem Settled.cons_here {bytes : Bytes} (hbrought : p.supply.brought = .ok bytes)
    (hshown : fs₁.look p.resource.path = .ok (some bytes))
    (hlast : lastStored p.resource.path tried = none)
    (h : Settled p.resource.path fs₁ files tried) :
    Settled p.resource.path fs files ((p, .ok ()) :: tried) := by
  have hcons : lastStored p.resource.path ((p, .ok ()) :: tried) = some p := by
    rw [lastStored, hlast, if_pos rfl]
    rfl
  constructor
  · intro p' hp'
    rw [hcons] at hp'
    cases hp'
    exact ⟨bytes, hbrought, (h.content hlast bytes).2 hshown⟩
  · intro hnone
    rw [hcons] at hnone
    cases hnone
  · intro hnone
    rw [hcons] at hnone
    cases hnone

/-- A put in front that is not the last one to store the content: it fails, or stores that of
another path, or is put over by one behind it. -/
theorem Settled.cons_other {stored : Option Bytes}
    (hreplaced : Replaced fs fs₁ p.resource.path stored) (hok : stored ≠ none → answer = .ok ())
    (hpath : Clean path) (hpart : path ≠ partPath p.resource.path)
    (hlast : lastStored path ((p, answer) :: tried) = lastStored path tried)
    (hother : lastStored path tried = none → path = p.resource.path → stored = none)
    (h : Settled path fs₁ files tried) : Settled path fs files ((p, answer) :: tried) := by
  constructor
  · intro p' hp'
    exact h.last p' (hlast ▸ hp')
  · intro hnone bytes
    rw [hlast] at hnone
    rw [h.content hnone, hreplaced.content path hpath hpart (hother hnone)]
  · intro hnone hexposed
    rw [hlast] at hnone
    obtain ⟨hshort, hwithin, hthrough, hrest⟩ := not_exposed_cons hexposed
    have hnot : Within p.resource.path path → stored = none := fun hw =>
      Classical.byContradiction fun hstored => hthrough (hok hstored) hw
    rw [h.same hnone hrest,
      hreplaced.same path hpath hpart (hother hnone) hshort hwithin hnot]

/-- A put in front: the others decide, unless none of them has stored anything. -/
theorem Settled.cons (hdone : p.Done fs fs₁ answer) (hpath : Clean path)
    (hpart : path ≠ partPath p.resource.path) (h : Settled path fs₁ files tried) :
    Settled path fs files ((p, answer) :: tried) := by
  rcases hdone.replaced with ⟨rfl, bytes, hbrought, hreplaced⟩ | ⟨⟨e, rfl⟩, hreplaced⟩
  · by_cases hlast : lastStored path tried = none
    · by_cases hp : p.resource.path = path
      · subst hp
        exact h.cons_here hbrought (hreplaced.shown bytes rfl) hlast
      · refine h.cons_other hreplaced (fun _ => rfl) hpath hpart ?_ fun _ he => absurd he.symm hp
        rw [lastStored, hlast, if_neg hp]
        rfl
    · refine h.cons_other hreplaced (fun _ => rfl) hpath hpart ?_ fun hnone => absurd hnone hlast
      obtain ⟨p', hp'⟩ := Option.ne_none_iff_exists'.1 hlast
      rw [lastStored, hp']
      rfl
  · exact h.cons_other hreplaced (fun hstored => absurd rfl hstored) hpath hpart rfl
      fun _ _ => rfl

end

variable {resources : FileResource → Prop}

/-- Paths of resources: clean, and none of them is that of another one's part file. -/
structure Apart (resources : FileResource → Prop) : Prop where
  /-- Their paths are clean, -/
  clean : ∀ r, resources r → Clean r.path
  /-- and none is where the part file of another is put. -/
  parts : ∀ r r', resources r → resources r' → r'.path ≠ partPath r.path

/-- After puts in a row, what is at each path is settled by the last put that got there. The
induction is on the puts. -/
theorem putAll_settled (hapart : Apart resources) {puts : List Put}
    (hputs : ∀ p ∈ puts, resources p.resource) {m : Machine} (hm : Tree m.files) :
    ∃ tried m', putAll puts m = (.value tried, m') ∧ tried.map Prod.fst = puts
      ∧ Tree m'.files ∧ ∀ r, resources r → Settled r.path m.files m'.files tried := by
  induction puts generalizing m with
  | nil =>
      refine ⟨[], m, rfl, rfl, hm, fun r _ => ⟨?_, fun _ _ => Iff.rfl, fun _ _ => rfl⟩⟩
      intro p hp
      cases hp
  | cons p puts ih =>
      have hp := hputs p List.mem_cons_self
      obtain ⟨answer, m₁, hrun, hdone⟩ := p.run_done hm (hapart.clean _ hp)
      obtain ⟨tried, m', hall, hmap, htree, hsettled⟩ :=
        ih (fun p' hp' => hputs p' (List.mem_cons_of_mem _ hp')) hdone.tree
      refine ⟨(p, answer) :: tried, m', ?_, congrArg (p :: ·) hmap, htree, fun r hr =>
        (hsettled r hr).cons hdone (hapart.clean r hr) (hapart.parts _ r hp hr)⟩
      unfold putAll
      rw [Action.bind_of_value hrun, Action.bind_of_value hall]
      rfl

/-- What resources show after puts, beside what they showed before. -/
structure Shown (resources : FileResource → Prop) (m m' : Machine)
    (tried : List (Put × Except Resource.Error Unit)) : Prop where
  /-- Where a put has returned `Ok` there is what the last one of these brought. -/
  last : ∀ r p, resources r → lastStored r.path tried = some p →
    ∃ bytes, p.supply.brought = .ok bytes ∧ r.Shows m' bytes
  /-- Elsewhere there is the content that was there, if any. -/
  content : ∀ r, resources r → lastStored r.path tried = none →
    ∀ bytes, r.Shows m' bytes ↔ r.Shows m bytes
  /-- Where none was, that shows as it did. -/
  same : ∀ r, resources r → lastStored r.path tried = none → ¬Exposed r.path tried →
    (r.get m').1 = (r.get m).1
      ∧ (r.source.resource.metadata m').1 = (r.source.resource.metadata m).1

/-- What one more put does. -/
structure Step (resources : FileResource → Prop) (p : Put) (m m' : Machine)
    (answer : Except Resource.Error Unit) : Prop where
  /-- If it fails, all content is what it was. -/
  failed : ∀ e, answer = .error e → ∀ r, resources r →
    ∀ bytes, r.Shows m' bytes ↔ r.Shows m bytes
  /-- No part file is left behind that could be created. -/
  part : ∀ events part, p.supply.events = .ok events →
    (PartFile.create m.files p.resource.path).2 = .ok part →
    m'.files.Absent (partPath p.resource.path)

/-- What puts one after another do to resources. -/
structure PutGet (resources : FileResource → Prop) (puts : List Put) (m : Machine) : Prop where
  /-- What is shown after each of them. -/
  shown : ∀ before, before <+: puts → ∃ tried m', putAll before m = (.value tried, m')
    ∧ tried.map Prod.fst = before ∧ Shown resources m m' tried
  /-- What each of them does. -/
  step : ∀ before p, before ++ [p] <+: puts → ∃ tried m₁ answer m₂,
    putAll before m = (.value tried, m₁) ∧ p.run m₁ = (.value answer, m₂)
      ∧ Step resources p m₁ m₂ answer

/-- After every put of a run, each resource has the content of the last put to it that returned
`Ok`, or the content that it had; and a put that fails changes no content and leaves no part file
behind. -/
theorem put_get (hapart : Apart resources) {puts : List Put}
    (hputs : ∀ p ∈ puts, resources p.resource) {m : Machine} (hm : Tree m.files) :
    PutGet resources puts m := by
  have hbefore : ∀ before, before <+: puts → ∀ p ∈ before, resources p.resource :=
    fun before hb p hp => hputs p (hb.subset hp)
  -- What is at each path at any time, and then what one more put does at that time.
  constructor
  · intro before hb
    obtain ⟨tried, m', hall, hmap, -, hsettled⟩ := putAll_settled hapart (hbefore before hb) hm
    refine ⟨tried, m', hall, hmap, ?_, ?_, ?_⟩
    · intro r p hr hlast
      obtain ⟨bytes, hbrought, hlook⟩ := (hsettled r hr).last p hlast
      exact ⟨bytes, hbrought, r.shows_iff.2 hlook⟩
    · intro r hr hlast bytes
      rw [r.shows_iff, r.shows_iff]
      exact (hsettled r hr).content hlast bytes
    · intro r hr hlast hexposed
      rw [r.get_eq, r.get_eq, r.metadata_eq, r.metadata_eq,
        (hsettled r hr).same hlast hexposed]
      exact ⟨rfl, rfl⟩
  · intro before p hb
    have hp := hbefore _ hb p (List.mem_append_right _ (List.mem_singleton_self p))
    obtain ⟨tried, m₁, hall, -, htree, -⟩ :=
      putAll_settled hapart (hbefore before ((List.prefix_append before [p]).trans hb)) hm
    obtain ⟨answer, m₂, hrun, hdone⟩ := p.run_done htree (hapart.clean _ hp)
    refine ⟨tried, m₁, answer, m₂, hall, hrun, ?_, hdone.part⟩
    rintro e rfl r hr bytes
    rw [r.shows_iff, r.shows_iff]
    rcases hdone.replaced with ⟨hok, -⟩ | ⟨-, hreplaced⟩
    · cases hok
    · exact hreplaced.content r.path (hapart.clean r hr) (hapart.parts _ r hp hr)
        (fun _ => rfl) bytes

-- ============================================================ examples

/-- A resource at a path. -/
def fileAt (path : FilePath) : FileResource where
  name := ⟨⟨"file".toList, some Url.Authority.empty, "/resource".toList, none, none⟩⟩
  path

/-- A resource, and one in the directory that it would have to be. -/
def Nested (r : FileResource) : Prop := r = fileAt (bytesOf "/d") ∨ r = fileAt (bytesOf "/d/y")

/-- Resources in one directory and below it may be apart. -/
theorem nested_apart : Apart Nested where
  clean := by
    rintro r (rfl | rfl)
    · exact ⟨by decide, by decide⟩
    · exact ⟨by decide, by decide⟩
  parts := by
    rintro r r' (rfl | rfl) (rfl | rfl)
    all_goals decide

/-- A file with a stale part file beside it. -/
def staleFiles : FileSystem where
  nodes := [.directory [(bytesOf "d", 1), (bytesOf "d.part", 2)],
    .file (bytesOf "old"), .file (bytesOf "stale")]
  workingDirectory := []

theorem staleFiles_tree : Tree staleFiles :=
  tree_of_entries (proper_of_entries rfl (by decide) (by decide)) (by simp [staleFiles])
    (by decide) (by decide)

/-- A put of a word, one that fails while it is read, and one that has no place. -/
def threePuts : List Put :=
  [⟨fileAt (bytesOf "/d"), .memory "s" (bytesOf "new")⟩,
    ⟨fileAt (bytesOf "/d"),
      .script "s" [.data (bytesOf "ne"), .fail (.system .connectionReset)] none⟩,
    ⟨fileAt (bytesOf "/d/y"), .memory "s" (bytesOf "new")⟩]

/-- Three puts, one of them over a stale part file. -/
theorem put_get_over_stale :
    Apart Nested ∧ Tree staleFiles ∧ (∀ p ∈ threePuts, Nested p.resource)
      ∧ (fileAt (bytesOf "/d")).Shows (putAll threePuts (.initial staleFiles .default)).2
        (bytesOf "new")
      ∧ PutGet Nested threePuts (.initial staleFiles .default) := by
  have hputs : ∀ p ∈ threePuts, Nested p.resource := by
    intro p hp
    simp only [threePuts, List.mem_cons, List.not_mem_nil, or_false] at hp
    rcases hp with rfl | rfl | rfl
    · exact .inl rfl
    · exact .inl rfl
    · exact .inr rfl
  refine ⟨nested_apart, staleFiles_tree, hputs, ⟨by cbv, ?_⟩,
    put_get nested_apart hputs staleFiles_tree⟩
  exact ⟨(fileAt (bytesOf "/d")).metadataOf 3, by cbv, by cbv⟩

/-- A put of a word to a resource. -/
def putTo (files : FileSystem) (path : FilePath) : Exit (Except Resource.Error Unit) × Machine :=
  Put.run ⟨fileAt path, .memory "s" (bytesOf "new")⟩ (.initial files .default)

/-- What a get returns of a resource. -/
def got (path : FilePath) (m : Machine) :
    Exit (Except Resource.Error (Option (ReadResult Bytes))) :=
  ((fileAt path).get m).1

/-- A path with a name that no directory can give. -/
def longPath : FilePath := bytesOf "/a/" ++ List.replicate 256 0x78

theorem empty_tree : Tree FileSystem.empty :=
  tree_of_entries empty_proper (by simp [FileSystem.empty]) (by decide) (by decide)

set_option maxRecDepth 8000 in
/-- A put to another place may change what a get without content returns. A name that is too long
is absent as long as its directory is missing, and a failure once that is there: a put that fails
at the name leaves the directories that it made on the way, as puts are meant to.

The other two come of reads that take "not a directory" for a failure, where it says that nothing
is there: what leads through a file is absent until a put makes the file, and what leads through
a stale part file is a failure until a put has renamed it. -/
theorem absent_differently :
    ((putTo .empty longPath).1
        = .value (.error ((fileAt longPath).failure (.system .invalidFilename)))
      ∧ got longPath (.initial .empty .default) = .value (.ok none)
      ∧ got longPath (putTo .empty longPath).2
        = .value (.error ((fileAt longPath).failure (.system .invalidFilename))))
    ∧ (Apart Nested ∧ Tree FileSystem.empty
      ∧ (putTo .empty (bytesOf "/d")).1 = .value (.ok ())
      ∧ got (bytesOf "/d/y") (.initial .empty .default) = .value (.ok none)
      ∧ got (bytesOf "/d/y") (putTo .empty (bytesOf "/d")).2
        = .value (.error ((fileAt (bytesOf "/d/y")).failure (.system .notADirectory))))
    ∧ (putTo staleFiles (bytesOf "/d")).1 = .value (.ok ())
      ∧ got (bytesOf "/d.part/y") (.initial staleFiles .default)
        = .value (.error ((fileAt (bytesOf "/d.part/y")).failure (.system .notADirectory)))
      ∧ got (bytesOf "/d.part/y") (putTo staleFiles (bytesOf "/d")).2 = .value (.ok none) := by
  refine ⟨⟨?_, ?_, ?_⟩, ⟨nested_apart, empty_tree, ?_, ?_, ?_⟩, ?_, ?_, ?_⟩
  all_goals cbv

end TracedTransfer.Resource
