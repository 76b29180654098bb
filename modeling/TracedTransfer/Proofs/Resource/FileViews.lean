/-
What a file resource shows of a path.

Metadata, listing and the reads look at the path one by one, and each has
its own way to say that there is nothing. What they all depend on is where
the path leads (`FileResource.Looked`): to a file, to something else,
nowhere, or into a failure. So in every state of the files, links that
dangle or loop included, they say the same (`views_agree`).
-/
import Mathlib
import TracedTransfer.Proofs.Resource.ReadVariants
import TracedTransfer.Proofs.Text.Order

namespace TracedTransfer.Resource

open Text Io FileSystem

variable {α : Type} {s : ContentSource} {m m₁ m' : Machine}

-- ============================================================== finding

/-- An answer that is no failure to find something. -/
def NotMissed (x : Except Error α) : Prop := ∀ l, x ≠ .error (.notFound l)

/-- Nor is it that there is nothing. -/
def Found (x : Except Error (Option α)) : Prop := NotMissed x ∧ x ≠ .ok none

/-- An answer of a read that does not say that there is nothing, in the way
in which that read would say it. -/
def Reading.Finds : Reading α → Except Error α → Prop
  | writeTo _, x => NotMissed x
  | writeToIfPresent _, x => Found x
  | writeToStream _, x => NotMissed x
  | withContent _, x => NotMissed x
  | withContentIfPresent _, x => Found x
  | withAction _, x => NotMissed x
  | withActionIfPresent _, x => Found x

/-- Insisting on what has been found returns it, or the error that it is. -/
theorem Found.insisted {x : Except Error (Option α)} (h : Found x) (n : Name) :
    NotMissed (insisted n x) := by
  intro l hl
  rcases x with e | _ | a
  · cases hl
    exact h.1 l rfl
  · exact h.2 rfl
  · cases hl

/-- The same of an action that is insisted on. -/
theorem Found.insist {x : IfPresent α} {n : Name}
    (hx : ∀ y m', x m = (.value y, m') → Found y) {y : Except Error (ReadResult α)}
    (h : insist n x m = (.value y, m')) : NotMissed y := by
  rw [insist_eq] at h
  rcases hrun : x m with ⟨z | _ | _, m₂⟩
  · rw [hrun] at h
    cases h
    exact (hx z m' hrun).insisted n
  · rw [hrun] at h
    cases h
  · rw [hrun] at h
    cases h

section

variable {content : Content}
  (hopen : s.openContent m = (.value (.ok (some content)), m₁))
include hopen

/-- Where content is opened, something is found, unless what is done with it
fails for want of something. -/
theorem found_of_some {f : Content → Run (Except Error (ReadResult α))}
    (hf : Action.Returns NotMissed (f content)) {x : Except Error (Option (ReadResult α))}
    (h : s.ifPresent f m = (.value x, m')) : Found x := by
  have hrest : Action.Returns Found
      (orFail (f content) fun r => pure (.ok (some r) : Except Error (Option (ReadResult α)))) := by
    refine Action.returns_bind hf fun y hy => ?_
    cases y with
    | ok a => exact Action.returns_pure ⟨fun _ => nofun, nofun⟩
    | error e =>
        exact Action.returns_pure ⟨fun l he => hy l (congrArg _ (Except.error.inj he)), nofun⟩
  unfold ContentSource.ifPresent orFail at h
  rw [Action.bind_of_value hopen] at h
  exact hrest m₁ x m' h

/-- A download to a file finds what the reading of the content finds. -/
theorem found_writeTo (d : FilePath) {x : Except Error (Option (ReadResult Unit))}
    (h : s.writeToIfPresent d m = (.value x, m')) : Found x := by
  refine found_of_some hopen ?_ h
  refine Action.returns_bind (Action.returns_true _) fun ⟨outcome, r⟩ _ => ?_
  cases outcome with
  | ok n => exact Action.returns_pure fun _ => nofun
  | error e => exact Action.returns_pure fun _ => nofun

/-- So does an action on the content. -/
theorem found_withAction (act : ContentAction α) {x : Except Error (Option (ReadResult α))}
    (h : s.withActionIfPresent act m = (.value x, m')) : Found x := by
  refine found_of_some hopen ?_ h
  refine Action.returns_bind (Action.returns_true _) fun ⟨outcome, r⟩ _ => ?_
  cases outcome with
  | ok a => exact Action.returns_pure fun _ => nofun
  | error c => exact Action.returns_pure fun _ => nofun

/-- A copy to a stream insists on the content, so it does not miss what is
there. -/
theorem notMissed_writeToStream (w : Writer Machine) {x : Except Error (ReadResult Unit)}
    (h : s.writeToStream w m = (.value x, m')) : NotMissed x := by
  refine Found.insist (fun y m' hy => found_of_some hopen ?_ hy) h
  refine Action.returns_bind (Action.returns_true _) fun ⟨outcome, r⟩ _ => ?_
  cases outcome with
  | ok _ => exact Action.returns_pure fun _ => nofun
  | error e => exact Action.returns_pure fun _ => nofun

/-- Where content is opened, no read says that there is nothing. -/
theorem Reading.finds_of_some (reading : Reading α) {x : Except Error α}
    (h : reading.of s.resource m = (.value x, m')) : reading.Finds x := by
  cases reading with
  | writeTo d => exact Found.insist (fun _ _ => found_writeTo hopen d) h
  | writeToIfPresent d => exact found_writeTo hopen d h
  | writeToStream w => exact notMissed_writeToStream hopen w h
  | withContent f => exact Found.insist (fun _ _ => found_withAction hopen fun _ => f) h
  | withContentIfPresent f => exact found_withAction hopen (fun _ => f) h
  | withAction act => exact Found.insist (fun _ _ => found_withAction hopen act) h
  | withActionIfPresent act => exact found_withAction hopen act h

end

/-- Nor does it where opening fails for another reason. -/
theorem Reading.finds_error (reading : Reading α) {e : Error} (he : ∀ l, e ≠ .notFound l) :
    reading.Finds (.error e) := by
  have hnot {β : Type} : NotMissed (.error e : Except Error β) :=
    fun l h => he l (Except.error.inj h)
  cases reading with
  | writeTo d => exact hnot
  | writeToIfPresent d => exact ⟨hnot, nofun⟩
  | writeToStream w => exact hnot
  | withContent f => exact hnot
  | withContentIfPresent f => exact ⟨hnot, nofun⟩
  | withAction act => exact hnot
  | withActionIfPresent act => exact ⟨hnot, nofun⟩

-- ============================================================== looking

/-- The metadata that go with a length. -/
def FileResource.shown (r : FileResource) (length : Except Error (Option Nat)) :
    Except Error (Option Metadata) := length.map fun n => n.map r.metadataOf

/-- What the metadata of a file come to, on a machine that stays as it is:
they are made of the length of what the path leads to. -/
theorem FileResource.metadata_run (r : FileResource) (m : Machine) :
    r.source.resource.metadata m = (.value (r.shown (r.length? m.files)), m) := rfl

theorem FileResource.open_run (r : FileResource) (m : Machine) :
    r.source.openContent m = (.value (r.openContent m.files), m) := rfl

theorem FileResource.list_run (r : FileResource) (m : Machine) :
    r.source.resource.list m = (.value (r.listEntries m.files), m) := rfl

/-- What the length and the content of a file resource come to, by where its
path leads. -/
inductive FileResource.Looked (r : FileResource) (fs : FileSystem) :
    Except Error (Option Nat) → Except Error (Option Content) → Prop where
  /-- A file, which can be opened. -/
  | file {i : FileSystem.Id} {s : Bytes} (hr : fs.resolve r.path = .ok i)
      (hi : fs.node? i = some (.file s)) :
      Looked r fs (.ok (some s.length)) (.ok (some ⟨.file ⟨i, 0⟩, r.metadataOf s.length⟩))
  /-- Something that is no file. -/
  | other {i : FileSystem.Id} (hr : fs.resolve r.path = .ok i)
      (hi : ∀ s, fs.node? i ≠ some (.file s)) : Looked r fs (.ok none) (.ok none)
  /-- Nothing. -/
  | missing {e : Io.Error} (hr : fs.resolve r.path = .error e) (he : e.kind = .notFound) :
      Looked r fs (.ok none) (.ok none)
  /-- It is not known, as the path cannot be followed. -/
  | failed {e : Io.Error} (hr : fs.resolve r.path = .error e) (he : e.kind ≠ .notFound) :
      Looked r fs (.error (r.failure e)) (.error (r.failure e))

/-- Both looks at the path, that of the metadata and that of the content,
resolve it alike. -/
theorem FileResource.looked (r : FileResource) (fs : FileSystem) :
    r.Looked fs (r.length? fs) (r.openContent fs) := by
  rcases hr : fs.resolve r.path with e | i
  · have hlength : r.length? fs
        = if e.kind = .notFound then .ok none else .error (r.failure e) := by
      rw [length?, fileLength?, hr]
      rfl
    rw [openContent, hlength]
    by_cases he : e.kind = .notFound
    · rw [if_pos he]
      exact .missing hr he
    · rw [if_neg he]
      exact .failed hr he
  · by_cases hi : ∃ s, fs.node? i = some (.file s)
    · obtain ⟨s, hi⟩ := hi
      have hlength : r.length? fs = .ok (some s.length) := by
        simp only [length?, fileLength?, hr, Except.map, isFileNode, content, hi, if_true]
      rw [hlength, r.openContent_of_file hr hi]
      exact .file hr hi
    · have hfile : fs.isFileNode i = false := by
        unfold isFileNode
        split
        · next s hs => exact absurd ⟨s, hs⟩ hi
        · rfl
      have hlength : r.length? fs = .ok none := by
        simp only [length?, fileLength?, hr, Except.map, hfile, Bool.false_eq_true, if_false]
      rw [openContent, hlength]
      exact .other hr (not_exists.1 hi)

/-- Names are listed as people read them, in the order of their bytes. -/
def Lists (names : List String) (es : List (Bytes × FileSystem.Id)) : Prop :=
  names.Perm (es.map fun e => FilePath.shown e.1)
    ∧ names.Pairwise fun a b => bytesOf a ≤ bytesOf b

/-- What a list of entries comes to, by where the path leads. -/
inductive FileResource.Listed (r : FileResource) (fs : FileSystem) :
    Except Error (Option (List String)) → Prop where
  /-- The entries of a directory are listed, -/
  | directory {i : FileSystem.Id} {es : List (Bytes × FileSystem.Id)} {names : List String}
      (hr : fs.resolve r.path = .ok i) (hi : fs.node? i = some (.directory es))
      (hnames : Lists names es) : Listed r fs (.ok (some names))
  /-- and anything else is not, and is no failure. -/
  | none (h : ∀ i es, fs.resolve r.path = .ok i → fs.node? i ≠ some (.directory es)) :
      Listed r fs (.ok none)

/-- Sorting names by their text loses none and adds none. -/
theorem lists_mergeSort (es : List (Bytes × FileSystem.Id)) :
    Lists (((es.map Prod.fst).map FilePath.shown).mergeSort fun a b => !(b < a)) es := by
  have hle : (fun a b : String => !decide (b < a)) = fun a b => decide (a ≤ b) := by
    funext a b
    rw [← decide_not, decide_eq_decide, not_lt]
  constructor
  · exact (List.mergeSort_perm _ _).trans (.of_eq (List.map_map ..))
  · rw [hle]
    exact (List.pairwise_mergeSort' _ _).imp fun h => (bytesOf_le _ _).2 h

/-- A listing is what the one directory that the path leads to gives. -/
theorem FileResource.listed (r : FileResource) (fs : FileSystem) :
    r.Listed fs (r.listEntries fs) := by
  unfold listEntries FileSystem.isDirectoryAt FileSystem.list
  rcases hr : fs.resolve r.path with e | i
  · refine .none fun i es hi => ?_
    rw [hr] at hi
    cases hi
  · by_cases hi : ∃ es, fs.node? i = some (.directory es)
    · obtain ⟨es, hi⟩ := hi
      have hdirectory : fs.isDirectory i = true := isDirectory_iff.2 ⟨es, hi⟩
      have hentries : fs.entries i = es := by rw [entries, hi]
      simp only [hdirectory, hentries, if_true]
      exact .directory hr hi (lists_mergeSort es)
    · have hdirectory : fs.isDirectory i = false := by
        rw [Bool.eq_false_iff, ne_eq, isDirectory_iff]
        exact hi
      simp only [hdirectory, Bool.false_eq_true, if_false]
      refine .none fun j es hj hes => hi ⟨es, ?_⟩
      rw [hr] at hj
      cases hj
      exact hes

-- ================================================== the main statement

/-- A body that succeeds with the content that it is given, if there is any
to give. -/
def Succeeds (s : ContentSource) (act : ContentAction α) (m : Machine) : Prop :=
  ∀ content m₁, s.openContent m = (.value (.ok (some content)), m₁) →
    ∃ a left m', act content.metadata (.ofSource content.reader) m₁ = (.value (.ok a, left), m')

/-- Whether there is something, or why that is not known. -/
def standing (x : Except Error (Option α)) : Except Error (Option Unit) :=
  x.map (Option.map fun _ => ())

/-- What a file resource shows on a machine: the metadata, the list of
entries, and what its reads come to. -/
structure Views (r : FileResource) (m : Machine) (metadata : Except Error (Option Metadata))
    (list : Except Error (Option (List String))) : Prop where
  /-- Metadata fail if the path cannot be followed; that it leads nowhere is
  no failure. -/
  failure : ∀ e, metadata = .error e → ∃ cause, m.files.resolve r.path = .error cause
    ∧ cause.kind ≠ .notFound ∧ e = .io r.name.location cause
  /-- A read with a body that succeeds finds what the metadata say, or fails
  as they do. -/
  content : ∀ {α : Type} (f : Transform α), Succeeds r.source (fun _ => f) m →
    ∃ x m', r.source.resource.withContentIfPresent f m = (.value x, m')
      ∧ standing x = standing metadata
  /-- The same of an action. -/
  action : ∀ {α : Type} (act : ContentAction α), Succeeds r.source act m →
    ∃ x m', r.source.resource.withActionIfPresent act m = (.value x, m')
      ∧ standing x = standing metadata
  /-- If there are no metadata, each of the reads says that there is nothing,
  which for one that insists is a failure, -/
  absent : metadata = .ok none → ∀ {α : Type} (reading : Reading α),
    reading.of r.source.resource m = (.value (reading.ofNothing r.name), m)
  /-- and else none does, whatever it does with the content. -/
  found : metadata ≠ .ok none → ∀ {α : Type} (reading : Reading α) (x : Except Error α)
    (m' : Machine), reading.of r.source.resource m = (.value x, m') → reading.Finds x
  /-- The length is that of what is read, which is the content at the path. -/
  length : ∀ info, metadata = .ok (some info) → ∃ bytes, info.contentLength = some bytes.length
    ∧ m.files.contentAt r.path = .ok bytes
    ∧ BothCome (r.source.resource.withContent readAll)
      (r.source.resource.withContentIfPresent readAll) m (.ok ⟨bytes.length, bytes⟩) m
  /-- A directory is listed and nothing else is. -/
  listed : (∃ names, list = .ok (some names))
    ↔ ∃ i, m.files.resolve r.path = .ok i ∧ m.files.isDirectory i = true
  /-- Where it is not listed it says that there is nothing to list. -/
  unlisted : (∀ names, list ≠ .ok (some names)) → list = .ok none
  /-- What is listed has no metadata, hence no content, and a name for each of
  its entries. -/
  names : ∀ names, list = .ok (some names) → metadata = .ok none
    ∧ ∃ i es, m.files.resolve r.path = .ok i ∧ m.files.node? i = some (.directory es)
      ∧ Lists names es

/-- An action that succeeds on any content keeps what the opening has said:
content, nothing or an error. -/
theorem withAction_standing {opened : Except Error (Option Content)}
    (hopen : s.openContent m = (.value opened, m₁)) (act : ContentAction α)
    (hact : Succeeds s act m) :
    ∃ x m', s.resource.withActionIfPresent act m = (.value x, m')
      ∧ standing x = standing opened := by
  rcases opened with e | _ | content
  · exact ⟨_, _, ifPresent_of_error hopen _, rfl⟩
  · exact ⟨_, _, ifPresent_of_none hopen _, rfl⟩
  · obtain ⟨a, left, m', hrun⟩ := hact content m₁ hopen
    refine ⟨.ok (some ⟨left.count, a⟩), m', (ifPresent_of_some (x := .ok _) hopen ?_).2, rfl⟩
    rw [Action.bind_of_value hrun]
    rfl

/-- Content of a file is read to its end, from its first byte, by the form
that must find it and by the one that may not. -/
theorem withContent_readAll {i : FileSystem.Id} {bytes : Bytes} {info : Metadata}
    (hi : m₁.files.node? i = some (.file bytes))
    (hopen : s.openContent m = (.value (.ok (some ⟨.file ⟨i, 0⟩, info⟩)), m₁)) :
    BothCome (s.resource.withContent readAll) (s.resource.withContentIfPresent readAll) m
      (.ok ⟨bytes.length, bytes⟩) m₁ := by
  obtain ⟨left, hread⟩ : ∃ left, readAll (Counted.ofSource (Reader.file ⟨i, 0⟩)) m₁
      = (.value (.ok bytes, ⟨left, bytes.length⟩), m₁) := by
    refine ⟨(readToEnd m₁.files (Reader.file ⟨i, 0⟩)).2, ?_⟩
    unfold readAll
    rw [Action.run_gets, readToEnd_counted, readToEnd_file hi]
    rfl
  refine ifPresent_of_some hopen ?_
  rw [Action.bind_of_value hread]
  rfl

section

variable {r : FileResource} {length : Except Error (Option Nat)}
  {opened : Except Error (Option Content)} {list : Except Error (Option (List String))}

/-- Metadata and opened content say the same of a path: something, nothing
or an error. -/
theorem FileResource.Looked.standing_eq (h : r.Looked m.files length opened) :
    standing opened = standing (r.shown length) := by
  cases h with
  | file hr hi => rfl
  | other hr hi => rfl
  | missing hr he => rfl
  | failed hr he => rfl

/-- Metadata are an error only where the path cannot be resolved, for
another reason than that nothing is there. -/
theorem FileResource.Looked.of_shown_error (h : r.Looked m.files length opened) {e : Error}
    (he : r.shown length = .error e) : ∃ cause, m.files.resolve r.path = .error cause
      ∧ cause.kind ≠ .notFound ∧ e = .io r.name.location cause := by
  cases h with
  | file hr hi => cases he
  | other hr hi => cases he
  | missing hr hkind => cases he
  | failed hr hkind =>
      cases he
      exact ⟨_, hr, hkind, rfl⟩

/-- Where metadata show nothing, each kind of reading takes the content for
absent, and leaves the machine as it is. -/
theorem FileResource.Looked.reads_nothing (h : r.Looked m.files length opened)
    (hopen : r.source.openContent m = (.value opened, m)) (hnone : r.shown length = .ok none)
    (reading : Reading α) :
    reading.of r.source.resource m = (.value (reading.ofNothing r.name), m) := by
  cases h with
  | file hr hi => cases hnone
  | other hr hi => exact reading.of_none hopen
  | missing hr he => exact reading.of_none hopen
  | failed hr he => cases hnone

/-- Where they show something, or an error, none of them does. -/
theorem FileResource.Looked.reads_find (h : r.Looked m.files length opened)
    (hopen : r.source.openContent m = (.value opened, m)) (hsome : r.shown length ≠ .ok none)
    (reading : Reading α) {x : Except Error α}
    (hx : reading.of r.source.resource m = (.value x, m')) : reading.Finds x := by
  cases h with
  | file hr hi => exact reading.finds_of_some hopen hx
  | other hr hi => exact absurd rfl hsome
  | missing hr he => exact absurd rfl hsome
  | failed hr he =>
      rw [reading.of_error hopen] at hx
      cases hx
      exact reading.finds_error fun _ => nofun

/-- The length that metadata show is the number of bytes that reading the
content brings. -/
theorem FileResource.Looked.reads_length (h : r.Looked m.files length opened)
    (hopen : r.source.openContent m = (.value opened, m)) {info : Metadata}
    (hinfo : r.shown length = .ok (some info)) :
    ∃ bytes, info.contentLength = some bytes.length ∧ m.files.contentAt r.path = .ok bytes
      ∧ BothCome (r.source.resource.withContent readAll)
        (r.source.resource.withContentIfPresent readAll) m (.ok ⟨bytes.length, bytes⟩) m := by
  cases h with
  | file hr hi =>
      cases hinfo
      exact ⟨_, rfl, contentAt_of_resolve hr hi, withContent_readAll hi hopen⟩
  | other hr hi => cases hinfo
  | missing hr he => cases hinfo
  | failed hr he => cases hinfo

/-- A directory has no metadata. -/
theorem FileResource.Looked.of_directory (h : r.Looked m.files length opened)
    {i : FileSystem.Id} {es : List (Bytes × FileSystem.Id)} (hr : m.files.resolve r.path = .ok i)
    (hi : m.files.node? i = some (.directory es)) : r.shown length = .ok none := by
  cases h with
  | file hr' hi' =>
      rw [hr] at hr'
      cases hr'
      rw [hi] at hi'
      cases hi'
  | other hr' hi' => rfl
  | missing hr' he => rfl
  | failed hr' he =>
      rw [hr] at hr'
      cases hr'

/-- There are names exactly where the path leads to a directory, -/
theorem FileResource.Listed.some_iff (h : r.Listed m.files list) :
    (∃ names, list = .ok (some names))
      ↔ ∃ i, m.files.resolve r.path = .ok i ∧ m.files.isDirectory i = true := by
  cases h with
  | directory hr hi hnames => exact iff_of_true ⟨_, rfl⟩ ⟨_, hr, isDirectory_iff.2 ⟨_, hi⟩⟩
  | none hnot =>
      refine iff_of_false nofun ?_
      rintro ⟨i, hr, hi⟩
      obtain ⟨es, hes⟩ := isDirectory_iff.1 hi
      exact hnot i es hr hes

/-- and nothing, never an error, where it does not. -/
theorem FileResource.Listed.none_of_not_some (h : r.Listed m.files list)
    (hnot : ∀ names, list ≠ .ok (some names)) : list = .ok .none := by
  cases h with
  | directory hr hi hnames => exact absurd rfl (hnot _)
  | none h => rfl

/-- The names are those of the entries of that directory. -/
theorem FileResource.Listed.lists (h : r.Listed m.files list) {names : List String}
    (hnames : list = .ok (some names)) : ∃ i es, m.files.resolve r.path = .ok i
      ∧ m.files.node? i = some (.directory es) ∧ Lists names es := by
  cases h with
  | none hnot => cases hnames
  | directory hr hi hlists =>
      cases hnames
      exact ⟨_, _, hr, hi, hlists⟩

end

/-- **What a file resource shows is consistent**, in every state of the
files. -/
theorem views_agree (r : FileResource) (m : Machine) : ∃ metadata list,
    r.source.resource.metadata m = (.value metadata, m)
      ∧ r.source.resource.list m = (.value list, m) ∧ Views r m metadata list := by
  have hlooked := r.looked m.files
  have hlist := r.listed m.files
  have hopen := r.open_run m
  have haction {α : Type} (act : ContentAction α) (hact : Succeeds r.source act m) :
      ∃ x m', r.source.resource.withActionIfPresent act m = (.value x, m')
        ∧ standing x = standing (r.shown (r.length? m.files)) := by
    rw [← hlooked.standing_eq]
    exact withAction_standing hopen act hact
  refine ⟨_, _, r.metadata_run m, r.list_run m, ?_⟩
  constructor
  · exact fun e => hlooked.of_shown_error
  · exact fun f => haction fun _ => f
  · exact haction
  · exact fun hnone => hlooked.reads_nothing hopen hnone
  · exact fun hsome _ reading x m' => hlooked.reads_find hopen hsome reading
  · exact fun info => hlooked.reads_length hopen
  · exact hlist.some_iff
  · exact hlist.none_of_not_some
  · intro names hnames
    obtain ⟨i, es, hr, hi, hlists⟩ := hlist.lists hnames
    exact ⟨hlooked.of_directory hr hi, i, es, hr, hi, hlists⟩

end TracedTransfer.Resource
