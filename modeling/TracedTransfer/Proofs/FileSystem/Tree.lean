/-
Trees: file systems without links, in which a node has one name.

What a clean path shows (`look`) is found in a tree by going down name by
name (`seek`, `look_eq`). A way down through directories is a `Route`, and
there is one route to a directory (`Tree.route_unique`). So a change of a
few names that are no directories' shows to nobody but those who look at
these names or behind them, where there was no content and is none
(`Touched.look`); and new directories show to nobody who looks for names
that an entry can have (`Grown.look`).
-/
import Mathlib.Data.List.Basic
import Mathlib.Data.List.Induction
import TracedTransfer.Proofs.FileSystem.Clean
import TracedTransfer.Proofs.FileSystem.Patch

namespace TracedTransfer.FileSystem

open Text FilePath

variable {fs fs' : FileSystem}

-- ================================================================ trees

/-- A file system without symbolic and hard links. -/
structure Tree (fs : FileSystem) : Prop extends Proper fs where
  /-- No node is a link, -/
  noLink : ∀ i target, fs.node? i ≠ some (.link target)
  /-- and none has two names. -/
  single : ∀ {dir dir' i : Id} {name name' : Bytes}, fs.lookup dir name = some i →
    fs.lookup dir' name' = some i → dir = dir' ∧ name = name'
  /-- The root has no name. -/
  rootUnnamed : ∀ dir name, fs.lookup dir name ≠ some FileSystem.root

theorem Tree.noLink_at (h : Tree fs) (p : FilePath) : fs.NoLink p :=
  fun _ _ i target _ => h.noLink i target

/-- It can be checked entry by entry. -/
theorem tree_of_entries (h : Proper fs)
    (hlinks : ∀ node ∈ fs.nodes, ∀ target, node ≠ .link target)
    (hroot : ∀ i < fs.nodes.length, ∀ e ∈ fs.entries i, e.2 ≠ FileSystem.root)
    (hsingle : ∀ i < fs.nodes.length, ∀ j < fs.nodes.length, ∀ e ∈ fs.entries i,
      ∀ e' ∈ fs.entries j, e.2 = e'.2 → i = j ∧ e.1 = e'.1) : Tree fs where
  toProper := h
  noLink i target hi := by
    unfold node? at hi
    exact hlinks _ (List.mem_of_getElem? hi) target rfl
  single {dir dir' _ _ _} hl hl' :=
    hsingle dir (lt_of_isDirectory (isDirectory_of_lookup hl)) dir'
      (lt_of_isDirectory (isDirectory_of_lookup hl')) _ (mem_entries_of_lookup hl) _
      (mem_entries_of_lookup hl') rfl
  rootUnnamed dir name hl :=
    hroot dir (lt_of_isDirectory (isDirectory_of_lookup hl)) _ (mem_entries_of_lookup hl) rfl

/-- A new node under a name that nothing has. -/
theorem Tree.create (h : Tree fs) {dir : Id} {name : Bytes} {n : Node}
    (hn : ∀ es, n = .directory es → es = []) (hlink : ∀ target, n ≠ .link target)
    (hd : fs.isDirectory dir = true) : Tree (fs.create dir name n) := by
  -- No entry leads to the number that the new node gets.
  have hnew : ∀ {d name'}, fs.lookup d name' ≠ some fs.nodes.length := fun hl =>
    absurd (h.there hl) (Nat.lt_irrefl _)
  refine ⟨h.toProper.create hn hd, ?_, ?_, ?_⟩
  · intro i target hi
    have hshape : (fs.create dir name n).shape? i = some (.link target) := shape?_of_node hi
    rw [shape?_create hd] at hshape
    split at hshape
    · cases n with
      | link target => exact hlink target rfl
      | file s => cases hshape
      | directory es => cases hshape
      | full => cases hshape
    · exact h.noLink i target ((node?_of_shape (by simp)).1 hshape)
  · intro d d' i m m' hl hl'
    rw [lookup_create hn hd] at hl hl'
    split at hl
    · next hm =>
        cases hl
        split at hl'
        · next hm' => exact ⟨hm.1.trans hm'.1.symm, hm.2.trans hm'.2.symm⟩
        · exact absurd hl' hnew
    · split at hl'
      · cases hl'
        exact absurd hl hnew
      · exact h.single hl hl'
  · intro d m hl
    rw [lookup_create hn hd] at hl
    split at hl
    · have hlt := lt_of_isDirectory h.root
      rw [← Option.some.inj hl] at hlt
      exact Nat.lt_irrefl _ hlt
    · exact h.rootUnnamed d m hl

theorem Tree.makeDirectory (h : Tree fs) {p : FilePath} (hmake : fs.makeDirectory p = .ok fs') :
    Tree fs' := by
  obtain ⟨stack, name, hplace, rfl⟩ := makeDirectory_created hmake
  exact h.create (by simp) (by simp) (h.toProper.locate_named hplace).1

theorem Tree.makeDirectoriesWithin (h : Tree fs) (fuel : Nat) (p : FilePath) :
    Tree (makeDirectoriesWithin fuel fs p).1 :=
  makeDirectoriesWithin_keeps (fun h hmake => Tree.makeDirectory h hmake) h fuel p

-- =============================================================== routes

/-- Names lead from a directory to another one. -/
def Route (fs : FileSystem) (dir : Id) : List Bytes → Id → Prop
  | [], d => dir = d
  | name :: rest, d => ∃ i, fs.turn dir name = .ok (.into i) ∧ Route fs i rest d

/-- A route by some names and then others goes through what is between. -/
theorem route_append {dir d : Id} {names rest : List Bytes} :
    fs.Route dir (names ++ rest) d ↔ ∃ i, fs.Route dir names i ∧ fs.Route i rest d := by
  induction names generalizing dir with
  | nil => exact ⟨fun h => ⟨dir, rfl, h⟩, fun ⟨_, hi, h⟩ => hi ▸ h⟩
  | cons name names ih =>
      constructor
      · rintro ⟨j, hj, h⟩
        obtain ⟨i, hi, h⟩ := ih.1 h
        exact ⟨i, ⟨j, hj, hi⟩, h⟩
      · rintro ⟨i, ⟨j, hj, hi⟩, h⟩
        exact ⟨j, hj, ih.2 ⟨i, hi, h⟩⟩

/-- Where more can be found, the same route leads to the same place. -/
theorem Route.mono (h : fs.Leads fs') {dir d : Id} {names : List Bytes}
    (hr : fs.Route dir names d) : fs'.Route dir names d := by
  induction names generalizing dir with
  | nil => exact hr
  | cons name names ih =>
      obtain ⟨i, hi, hr⟩ := hr
      exact ⟨i, h _ _ _ hi, ih hr⟩

/-- A directory in a tree has one route from the root. -/
theorem Tree.route_unique (h : Tree fs) {names names' : List Bytes} {d : Id}
    (hr : fs.Route FileSystem.root names d) (hr' : fs.Route FileSystem.root names' d) :
    names = names' := by
  -- The last step into a directory is known from it, and there is none into the root.
  induction names using List.reverseRecOn generalizing names' d with
  | nil =>
      cases hr
      rcases names'.eq_nil_or_concat' with rfl | ⟨front, name, rfl⟩
      · rfl
      · obtain ⟨i, -, j, hj, rfl⟩ := route_append.1 hr'
        exact absurd (turn_into.1 hj).2.1 (h.rootUnnamed i name)
  | append_singleton names name ih =>
      obtain ⟨i, hi, j, hj, rfl⟩ := route_append.1 hr
      rcases names'.eq_nil_or_concat' with rfl | ⟨front, name', rfl⟩
      · cases hr'
        exact absurd (turn_into.1 hj).2.1 (h.rootUnnamed i name)
      · obtain ⟨i', hi', j', hj', rfl⟩ := route_append.1 hr'
        obtain ⟨rfl, rfl⟩ := h.single (turn_into.1 hj).2.1 (turn_into.1 hj').2.1
        rw [ih hi hi']

/-- Where there are no links, a descent is a route. -/
theorem Tree.route_of_descend (h : Tree fs) {links : Nat} {stack : List Id}
    {names : List Bytes} (hnames : ∀ c ∈ names, c ≠ dot ∧ c ≠ dotDot)
    {place : Nat × List Id} (hd : fs.descend links stack names = .ok place) :
    fs.Route (top stack) names (top place.2) := by
  induction names generalizing stack with
  | nil =>
      rw [descend_nil] at hd
      cases hd
      rfl
  | cons name names ih =>
      obtain ⟨hdot, hdots⟩ := hnames name List.mem_cons_self
      rw [descend_cons] at hd
      rcases hturn : fs.turn (top stack) name with k | t
      · simp only [advance, if_neg hdot, if_neg hdots, hturn] at hd
        cases hd
      · cases t with
        | into i =>
            simp only [advance, if_neg hdot, if_neg hdots, hturn] at hd
            exact ⟨i, hturn, ih (fun c hc => hnames c (List.mem_cons_of_mem _ hc)) hd⟩
        | along target =>
            obtain ⟨-, i, -, hi⟩ := turn_along.1 hturn
            exact absurd hi (h.noLink i target)

-- ============================================================== looking

/-- The content of a file. -/
def file? (fs : FileSystem) (i : Id) : Option Bytes :=
  match fs.node? i with
  | some (.file s) => some s
  | _ => none

/-- The content that a path shows, if there is a file. -/
def look (fs : FileSystem) (p : FilePath) : Except Io.Error (Option Bytes) :=
  match fs.resolve p with
  | .ok i => .ok (fs.file? i)
  | .error e => if e.kind = .notFound then .ok none else .error e

/-- The content that names lead to from a directory, if there is a file. -/
def seek (fs : FileSystem) (dir : Id) : List Bytes → Except Io.Error (Option Bytes)
  | [] => .ok none
  | name :: rest =>
    if maxName < name.length then .error (.system .invalidFilename)
    else
      match fs.lookup dir name with
      | none => .ok none
      | some i =>
        if fs.isDirectory i then fs.seek i rest
        else if rest = [] then .ok (fs.file? i)
        else .error (.system .notADirectory)

/-- A directory is no file, -/
theorem file?_of_directory {i : Id} (h : fs.isDirectory i = true) : fs.file? i = none := by
  obtain ⟨es, hn⟩ := isDirectory_iff.1 h
  rw [file?, hn]

/-- and whether a node is one is to be seen from its shape. -/
theorem file?_congr {i : Id} (h : fs'.shape? i = fs.shape? i) : fs'.file? i = fs.file? i := by
  have hshape : ∀ fs : FileSystem, fs.file? i = match fs.shape? i with
      | some (.file s) => some s
      | _ => none := by
    intro fs
    unfold file? shape?
    rcases fs.node? i with _ | n
    · rfl
    · cases n with
      | file s => rfl
      | directory es => rfl
      | link target => rfl
      | full => rfl
  rw [hshape fs', hshape fs, h]

/-- The content that the end of a walk shows. -/
def shown (fs : FileSystem) : Except Io.ErrorKind Place → Except Io.Error (Option Bytes)
  | .error k => if k = .notFound then .ok none else .error (.system k)
  | .ok (.unnamed stack) => .ok (fs.file? (top stack))
  | .ok (.named _ _ none) => .ok none
  | .ok (.named _ _ (some i)) => .ok (fs.file? i)

/-- To look at a path is to walk it and see what is there. -/
theorem look_of_walkable {p : FilePath} (h : Walkable p) : fs.look p
    = fs.shown (fs.walk true maxLinks (start fs.workingDirectory p) (steps p)) := by
  unfold look resolve locate
  rw [if_neg (by rw [h.bytes]; exact Bool.false_ne_true), if_neg (by simpa using h.nonempty),
    if_neg (Nat.not_lt.2 h.short)]
  rcases fs.walk true maxLinks (start fs.workingDirectory p) (steps p) with k | place
  · rfl
  · rcases place with stack | ⟨stack, name, _ | i⟩
    · rfl
    · rfl
    · rfl

/-- What a path that no walk can take shows does not depend on the files. -/
theorem look_of_not_walkable {p : FilePath} (h : ¬Walkable p) : fs'.look p = fs.look p := by
  have hlocate : fs'.locate true p = fs.locate true p := by
    unfold locate
    split
    · rfl
    · next hzero =>
        split
        · rfl
        · next hempty =>
            split
            · rfl
            · next hlong =>
                exact absurd ⟨by simpa using hzero, by simpa using hempty,
                  Nat.le_of_not_lt hlong⟩ h
  have hnone : ∀ i, fs.resolve p ≠ .ok i := by
    intro i hi
    obtain ⟨place, hl, -⟩ := resolve_ok_iff.1 hi
    exact h (locate_walk.1 hl).1
  unfold look
  rw [show fs'.resolve p = fs.resolve p by rw [resolve, resolve, hlocate]]
  rcases hr : fs.resolve p with e | i
  · rfl
  · exact absurd hr (hnone i)

/-- A walk along names in a tree shows what is found by going down. -/
theorem Tree.shown_walk (h : Tree fs) {links : Nat} {stack : List Id} {names : List Bytes}
    (hnames : ∀ c ∈ names, c ≠ dot ∧ c ≠ dotDot)
    (hd : fs.isDirectory (top stack) = true) :
    fs.shown (fs.walk true links stack names) = fs.seek (top stack) names := by
  induction names generalizing stack with
  | nil =>
      rw [walk.eq_def]
      show Except.ok (fs.file? (top stack)) = _
      rw [file?_of_directory hd]
      rfl
  | cons name rest ih =>
      obtain ⟨hdot, hdots⟩ := hnames name List.mem_cons_self
      have hrest : rest.isEmpty = decide (rest = []) := by cases rest <;> rfl
      rw [walk.eq_def, seek]
      simp only [if_neg hdot, if_neg hdots]
      split
      · rfl
      -- A name that is missing shows nothing if it is the last, and is an error before others;
      -- both go the same way down.
      · rcases fs.lookup (top stack) name with _ | i
        · dsimp only
          split
          · rfl
          · rfl
        · dsimp only
          rcases hn : fs.node? i with _ | n
          · simp only [isDirectory, hn, Bool.false_eq_true, if_false, hrest, decide_eq_true_eq]
            split
            · rfl
            · rfl
          · cases n with
            | link target => exact absurd hn (h.noLink i target)
            | directory es =>
                have hi : fs.isDirectory i = true := isDirectory_iff.2 ⟨es, hn⟩
                simp only [hi, if_true, hrest, decide_eq_true_eq]
                split
                · next hnil =>
                    show Except.ok (fs.file? i) = _
                    rw [hnil, file?_of_directory hi]
                    rfl
                · exact ih (fun c hc => hnames c (List.mem_cons_of_mem _ hc)) hi
            | file s =>
                simp only [isDirectory, hn, Bool.false_eq_true, if_false, hrest,
                  decide_eq_true_eq]
                split
                · rfl
                · rfl
            | full =>
                simp only [isDirectory, hn, Bool.false_eq_true, if_false, hrest,
                  decide_eq_true_eq]
                split
                · rfl
                · rfl

/-- What a clean path shows is found by going down from the root. -/
theorem Tree.look_eq (h : Tree fs) {p : FilePath} (hp : Clean p) (hwalk : Walkable p) :
    fs.look p = fs.seek FileSystem.root p.components := by
  rw [look_of_walkable hwalk, hp.start_eq, hp.steps_eq]
  split
  · next hnil =>
      rw [walk_follow_cons, if_pos rfl, hnil]
      exact h.shown_walk (by simp) h.root
  · refine h.shown_walk (fun c hc => ⟨(mem_components hc).2.1, ?_⟩) h.root
    rintro rfl
    exact hp.down hc

-- ============================================================== changes

/-- Behind a route there is what is found from its end. -/
theorem Route.seek {dir d : Id} {names : List Bytes} (h : fs.Route dir names d)
    (rest : List Bytes) : fs.seek dir (names ++ rest) = fs.seek d rest := by
  induction names generalizing dir with
  | nil =>
      cases h
      rfl
  | cons name names ih =>
      obtain ⟨i, hi, h⟩ := h
      obtain ⟨hlen, hl, hdir⟩ := turn_into.1 hi
      rw [List.cons_append, FileSystem.seek, if_neg (Nat.not_lt.2 hlen), hl]
      simp only [hdir, if_true]
      exact ih h

/-- Nothing is found behind a name that is no directory's. -/
theorem seek_behind {dir : Id} {name : Bytes} {rest : List Bytes}
    (h : ∀ i, fs.lookup dir name = some i → fs.isDirectory i = false) (hrest : rest ≠ [])
    (s : Bytes) : fs.seek dir (name :: rest) ≠ .ok (some s) := by
  rw [seek]
  split
  · simp
  · split
    · simp
    · next i hl =>
        rw [h i hl]
        simp

/-- Where every name that is gone through is kept, the same is found. -/
theorem seek_congr {dir : Id} {names : List Bytes}
    (h : ∀ before name after, names = before ++ name :: after → ∀ d, fs.Route dir before d →
      fs.Kept fs' d name) : fs'.seek dir names = fs.seek dir names := by
  induction names generalizing dir with
  | nil => rfl
  | cons name rest ih =>
      have hkept := h [] name rest rfl dir rfl
      rw [seek, seek, hkept.lookup]
      split
      · rfl
      · next hlen =>
          rcases hl : fs.lookup dir name with _ | i
          · rfl
          · have hshape := hkept.shape i hl
            dsimp only
            rw [isDirectory_congr hshape, file?_congr hshape]
            split
            · next hdir =>
                refine ih fun before name' after heq d hd => ?_
                refine h (name :: before) name' after (congrArg (name :: ·) heq) d ⟨i, ?_, hd⟩
                exact turn_into.2 ⟨Nat.le_of_not_lt hlen, hl, hdir⟩
            · rfl

/-- A change that touches some names in one directory, which are no directories' before and
after. -/
structure Touched (fs fs' : FileSystem) (dir : Id) (touched : Bytes → Prop) : Prop where
  /-- All other names are kept. -/
  kept : ∀ d name, ¬(d = dir ∧ touched name) → fs.Kept fs' d name
  /-- What was touched was no directory, -/
  before : ∀ name i, touched name → fs.lookup dir name = some i → fs.isDirectory i = false
  /-- and is none now. -/
  after : ∀ name i, touched name → fs'.lookup dir name = some i → fs'.isDirectory i = false

section Touched

variable {dir : Id} {touched : Bytes → Prop} {route : List Bytes}

/-- What is touched in one directory leaves all ways as they were. -/
theorem Touched.leads (h : fs.Touched fs' dir touched) (hfs : Tree fs) : fs.Leads fs' := by
  refine leads_of_kept fun d name i hl hi => ?_
  have hother : ¬(d = dir ∧ touched name) := by
    rintro ⟨rfl, hname⟩
    rcases hi with hi | ⟨target, hi⟩
    · rw [h.before name i hname hl] at hi
      cases hi
    · exact hfs.noLink i target hi
  have hkept := h.kept d name hother
  exact ⟨hkept.lookup.trans hl, hkept.shape i hl⟩

/-- Such a change does not show, but at the names that are touched and behind them; and behind
them there is no content, before and after. -/
theorem Touched.look (h : fs.Touched fs' dir touched) (hfs : Tree fs) (hfs' : Tree fs')
    (hroute : fs.Route FileSystem.root route dir) {p : FilePath} (hp : Clean p) :
    fs'.look p = fs.look p
      ∨ ∃ name rest, touched name ∧ p.components = route ++ name :: rest
        ∧ (rest ≠ [] → ∀ s, fs.look p ≠ .ok (some s) ∧ fs'.look p ≠ .ok (some s)) := by
  by_cases hwalk : Walkable p
  · rw [hfs.look_eq hp hwalk, hfs'.look_eq hp hwalk]
    by_cases hthrough : ∃ name rest, touched name ∧ p.components = route ++ name :: rest
    · right
      obtain ⟨name, rest, hname, heq⟩ := hthrough
      refine ⟨name, rest, hname, heq, fun hrest s => ?_⟩
      rw [heq, hroute.seek, (hroute.mono (h.leads hfs)).seek]
      exact ⟨seek_behind (fun i => h.before name i hname) hrest s,
        seek_behind (fun i => h.after name i hname) hrest s⟩
    · left
      refine seek_congr fun before name after heq d hd => h.kept d name ?_
      rintro ⟨rfl, hname⟩
      rw [hfs.route_unique hd hroute] at heq
      exact hthrough ⟨name, after, hname, heq⟩
  · exact .inl (look_of_not_walkable hwalk)

end Touched

section Grown

variable {here : FilePath → Prop}

/-- In a new directory there is nothing but new directories. -/
theorem Grown.seek_fresh (h : fs.Grown fs' here) {dir : Id} (hdir : fs.shape? dir = none)
    (names : List Bytes) : fs'.seek dir names = .ok none
      ∨ fs'.seek dir names = .error (.system .invalidFilename)
        ∧ ∃ name ∈ names, maxName < name.length := by
  induction names generalizing dir with
  | nil => exact .inl rfl
  | cons name rest ih =>
      rw [seek]
      split
      · next hlong => exact .inr ⟨rfl, name, List.mem_cons_self, hlong⟩
      · split
        · exact .inl rfl
        · next i hl =>
            rcases h.fresh dir name i hl with hold | ⟨hnew, hi, -⟩
            · have hthere := isDirectory_iff_shape.1 (isDirectory_of_lookup hold)
              rw [hdir] at hthere
              cases hthere
            · simp only [hi, if_true]
              refine (ih hnew).imp_right ?_
              rintro ⟨herror, name', hmem, hlong⟩
              exact ⟨herror, name', List.mem_cons_of_mem _ hmem, hlong⟩

/-- New directories do not show, unless a name is looked for that is too long. -/
theorem Grown.seek (h : fs.Grown fs' here) (hfs : Proper fs) (dir : Id) (names : List Bytes) :
    fs'.seek dir names = fs.seek dir names
      ∨ fs.seek dir names = .ok none ∧ fs'.seek dir names = .error (.system .invalidFilename)
        ∧ ∃ name ∈ names, maxName < name.length := by
  induction names generalizing dir with
  | nil => exact .inl rfl
  | cons name rest ih =>
      have hmore : ∀ {P : Prop}, (P ∧ ∃ c ∈ rest, maxName < c.length) →
          P ∧ ∃ c ∈ name :: rest, maxName < c.length := by
        rintro P ⟨hP, c, hc, hlong⟩
        exact ⟨hP, c, List.mem_cons_of_mem _ hc, hlong⟩
      rw [FileSystem.seek, FileSystem.seek]
      split
      · exact .inl rfl
      -- A name that was missing may lead to a new directory now; in that nothing is found.
      · rcases hl : fs.lookup dir name with _ | i
        · rcases hl' : fs'.lookup dir name with _ | j
          · exact .inl rfl
          · rcases h.fresh dir name j hl' with hold | ⟨hnew, hj, -⟩
            · rw [hl] at hold
              cases hold
            · simp only [hj, if_true]
              exact (h.seek_fresh hnew rest).imp_right fun hlong => ⟨trivial, hmore hlong⟩
        · obtain ⟨n, hn⟩ := shape?_of_lt (hfs.there hl)
          have hshape : fs'.shape? i = fs.shape? i := (h.shapes i n hn).trans hn.symm
          rw [h.names dir name i hl]
          dsimp only
          rw [isDirectory_congr hshape, file?_congr hshape]
          split
          · exact (ih i).imp_right fun ⟨hnone, hlong⟩ => ⟨hnone, hmore hlong⟩
          · exact .inl rfl

/-- Where directories have grown, a look finds what it found; but a name that is too long shows
where its directory was missing before. -/
theorem Grown.look (h : fs.Grown fs' here) (hfs : Tree fs) (hfs' : Tree fs') {p : FilePath}
    (hp : Clean p) : fs'.look p = fs.look p
      ∨ fs.look p = .ok none ∧ fs'.look p = .error (.system .invalidFilename)
        ∧ ∃ name ∈ p.components, maxName < name.length := by
  by_cases hwalk : Walkable p
  · rw [hfs.look_eq hp hwalk, hfs'.look_eq hp hwalk]
    exact h.seek hfs.toProper FileSystem.root p.components
  · exact .inl (look_of_not_walkable hwalk)

end Grown

end TracedTransfer.FileSystem
