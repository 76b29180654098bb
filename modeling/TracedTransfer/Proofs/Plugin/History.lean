/-
Management over a run of steps: a log of repositories that only grows, and
pins of which the last wins.

`Declares` says what a step declares and how it ends, apart from the code:
of a block every entry (`Describes`), or the entries before the first that
is no repository. `apply_declares` ties a block to it, by induction on the
entries; `perform_eq` says once what a step does to the whole state, and
everything about runs comes from it (`run_eq`), by induction on the steps.
The two halves of the state do not meet in either.

Settings come to the management that the same pins and the same block give
when they are performed one by one on nothing (`builds`).
-/
import TracedTransfer.Config.Settings
import TracedTransfer.Proofs.Plugin.Pins

namespace TracedTransfer.Plugin

-- ======================================================== declarations

/-- A repository as it is written, and what it is. -/
inductive Describes : Declaration → Repository → Prop
  /-- The portal has no further description. -/
  | portal : Describes .portal .portal
  /-- A Maven repository is at the URL that its text says. -/
  | maven {name url : String} {u : Url} (h : Url.parse url = .ok u) :
      Describes (.maven name url) (.maven name u)

/-- The URL of a declaration, if it has one, is a URL. -/
def Declaration.IsSound : Declaration → Prop
  | .portal => True
  | .maven _ url => ∃ u, Url.parse url = .ok u

/-- A declaration that gives a repository describes it. -/
theorem Declaration.describes_of_ok {d : Declaration} {r : Repository}
    (h : d.repository = .ok r) : Describes d r := by
  unfold Declaration.repository at h
  split at h
  · cases h
    exact .portal
  · split at h
    · rename_i hparse
      cases h
      exact .maven hparse
    · cases h

/-- The one way to fail is a Maven repository whose URL cannot be read. -/
theorem Declaration.maven_of_error {d : Declaration} {e : DeclarationError}
    (h : d.repository = .error e) :
    ∃ url, d = .maven e.name url ∧ Url.parse url = .error e.cause := by
  unfold Declaration.repository at h
  split at h
  · cases h
  · split at h
    · cases h
    · rename_i hparse
      cases h
      exact ⟨_, rfl, hparse⟩

/-- What describes a repository is sound, -/
theorem Describes.isSound {d : Declaration} {r : Repository} (h : Describes d r) : d.IsSound := by
  cases h with
  | portal => trivial
  | maven hparse => exact ⟨_, hparse⟩

/-- and a block of such declarations is sound throughout. -/
theorem isSound_of_forall₂ {entries : List Declaration} {rs : List Repository}
    (h : List.Forall₂ Describes entries rs) : ∀ d ∈ entries, d.IsSound := by
  induction h with
  | nil => exact fun d hd => by cases hd
  | cons hd _ ih => exact List.forall_mem_cons.2 ⟨hd.isSound, ih⟩

-- =============================================================== steps

/-- A step: a block, a single repository, or a pin. -/
inductive Step where
  | block (entries : List Declaration)
  | declare (r : Repository)
  | pin (plugin version : String)
deriving DecidableEq, Repr

/-- How a step ends. -/
abbrev Answer := Except DeclarationError Unit

/-- What a step adds to the log of pins. -/
def Step.pins : Step → List (String × String)
  | .block _ | .declare _ => []
  | .pin plugin version => [(plugin, version)]

/-- What a step declares, and how it ends. -/
inductive Declares : Step → List Repository × Answer → Prop
  /-- A block declares what its entries are. -/
  | whole {entries rs} (h : List.Forall₂ Describes entries rs) :
      Declares (.block entries) (rs, .ok ())
  /-- A block with an entry that is no repository declares the entries before the first of
  them, and names that one. -/
  | upTo {before rs name url after e} (h : List.Forall₂ Describes before rs)
      (he : Url.parse url = .error e) :
      Declares (.block (before ++ .maven name url :: after)) (rs, .error ⟨name, e⟩)
  /-- One repository declares itself. -/
  | one (r) : Declares (.declare r) ([r], .ok ())
  /-- A pin declares none. -/
  | none (plugin version) : Declares (.pin plugin version) ([], .ok ())

/-- A sound declaration in front of a block adds its repository in front. -/
theorem Declares.cons {d : Declaration} {r : Repository} {entries : List Declaration}
    {rs : List Repository} {a : Answer} (hd : Describes d r)
    (h : Declares (.block entries) (rs, a)) : Declares (.block (d :: entries)) (r :: rs, a) := by
  cases h with
  | whole h => exact .whole (.cons hd h)
  | @upTo before _ _ _ after _ h he =>
      show Declares (.block ((d :: before) ++ .maven _ _ :: after)) _
      exact .upTo (.cons hd h) he

/-- A block succeeds if all its URLs are URLs, and only then. -/
theorem Declares.ok_iff {entries : List Declaration} {rs : List Repository} {a : Answer}
    (h : Declares (.block entries) (rs, a)) : a = .ok () ↔ ∀ d ∈ entries, d.IsSound := by
  generalize hstep : Step.block entries = s, hout : (rs, a) = out at h
  cases h with
  | whole h =>
      cases hstep
      cases hout
      exact iff_of_true rfl (isSound_of_forall₂ h)
  | @upTo before _ name url after e h he =>
      cases hstep
      cases hout
      refine iff_of_false (by simp) fun hsound => ?_
      obtain ⟨u, hu⟩ := hsound (.maven name url) (by simp)
      rw [hu] at he
      cases he
  | one | none => cases hstep

namespace Management

/-- A step of a management, with how it ends. -/
def perform (m : Management) : Step → Management × Answer
  | .block entries => m.apply entries
  | .declare r => (m.declare r, .ok ())
  | .pin plugin version => (m.pin plugin version, .ok ())

/-- Steps one after the other, whatever the ones before have come to. -/
def run (m : Management) : List Step → Management × List Answer
  | [] => (m, [])
  | s :: steps =>
    let first := m.perform s
    let rest := first.1.run steps
    (rest.1, first.2 :: rest.2)

variable (m : Management)

/-- A block adds what it declares to the repositories, and nothing else. -/
theorem apply_declares (entries : List Declaration) :
    ∃ rs, Declares (.block entries) (rs, (m.apply entries).2)
      ∧ (m.apply entries).1 = { m with repositories := m.repositories ++ rs } := by
  induction entries generalizing m with
  | nil => exact ⟨[], .whole .nil, by rw [apply, List.append_nil]⟩
  | cons d entries ih =>
      rw [apply]
      cases hd : d.repository with
      | ok r =>
          obtain ⟨rs, hrs, hm⟩ := ih (m.declare r)
          refine ⟨r :: rs, hrs.cons (Declaration.describes_of_ok hd), ?_⟩
          dsimp only
          rw [hm]
          simp [declare]
      | error e =>
          obtain ⟨url, rfl, hparse⟩ := Declaration.maven_of_error hd
          refine ⟨[], ?_, by rw [List.append_nil]⟩
          show Declares (.block ([] ++ .maven _ url :: entries)) _
          exact .upTo .nil hparse

/-- What a step does: it adds what it declares to the repositories, and its pins to the pins. -/
theorem perform_eq (s : Step) :
    ∃ rs, Declares s (rs, (m.perform s).2)
      ∧ (m.perform s).1 = ⟨m.repositories ++ rs,
        s.pins.foldl (fun pins p => pins.pin p.1 p.2) m.pins⟩ := by
  cases s with
  | block entries => exact m.apply_declares entries
  | declare r => exact ⟨[r], .one r, rfl⟩
  | pin plugin version =>
      refine ⟨[], .none plugin version, ?_⟩
      rw [List.append_nil]
      rfl

/-- What a run of steps comes to. -/
theorem run_eq (steps : List Step) :
    ∃ outcomes, List.Forall₂ Declares steps outcomes
      ∧ (m.run steps).2 = outcomes.map Prod.snd
      ∧ (m.run steps).1 = ⟨m.repositories ++ outcomes.flatMap Prod.fst,
        (steps.flatMap Step.pins).foldl (fun pins p => pins.pin p.1 p.2) m.pins⟩ := by
  induction steps generalizing m with
  | nil => exact ⟨[], .nil, rfl, by simp [run]⟩
  | cons s steps ih =>
      obtain ⟨rs, hrs, hm⟩ := m.perform_eq s
      obtain ⟨outcomes, hall, hanswers, hrun⟩ := ih (m.perform s).1
      refine ⟨(rs, (m.perform s).2) :: outcomes, .cons hrs hall, ?_, ?_⟩
      · rw [run, List.map_cons, ← hanswers]
      · rw [run]
        dsimp only
        rw [hrun, hm, List.flatMap_cons, List.flatMap_cons, List.foldl_append, List.append_assoc]

/-- Single declarations, one after the other. -/
theorem run_declare (rs : List Repository) :
    m.run (rs.map .declare)
      = ({ m with repositories := m.repositories ++ rs }, rs.map fun _ => .ok ()) := by
  induction rs generalizing m with
  | nil => simp [run]
  | cons r rs ih =>
      rw [List.map_cons, run, perform, ih]
      simp [declare]

/-- A block that goes on behind one that succeeds. -/
theorem apply_append {xs : List Declaration} (h : (m.apply xs).2 = .ok ()) (ys : List Declaration) :
    m.apply (xs ++ ys) = (m.apply xs).1.apply ys := by
  induction xs generalizing m with
  | nil => rfl
  | cons d xs ih =>
      rw [apply] at h
      rw [List.cons_append, apply, apply]
      cases hd : d.repository with
      | ok r =>
          rw [hd] at h
          exact ih (m.declare r) h
      | error e =>
          rw [hd] at h
          cases h

theorem run_append (xs ys : List Step) :
    (m.run (xs ++ ys)).1 = ((m.run xs).1.run ys).1 := by
  induction xs generalizing m with
  | nil => rfl
  | cons s xs ih => exact ih (m.perform s).1

/-- Single pins, one after the other. -/
theorem run_pin (ps : List (String × String)) :
    (m.run (ps.map fun p => .pin p.1 p.2)).1
      = { m with pins := ps.foldl (fun pins p => pins.pin p.1 p.2) m.pins } := by
  induction ps generalizing m with
  | nil => rfl
  | cons p ps ih => exact ih (m.pin p.1 p.2)

theorem apply_ok_iff (entries : List Declaration) :
    (m.apply entries).2 = .ok () ↔ ∀ d ∈ entries, d.IsSound := by
  obtain ⟨rs, hrs, -⟩ := m.apply_declares entries
  exact hrs.ok_iff

end Management

-- ============================================================= history

/-- What a run of steps has come to, from the repositories `rs` and the pins `ps`. -/
structure IsHistory (rs : List Repository) (ps : List (String × String)) (steps : List Step)
    (result : Management × List Answer) : Prop where
  /-- The repositories are what each step declared, in order. -/
  repositories : ∃ outcomes, List.Forall₂ Declares steps outcomes
    ∧ result.2 = outcomes.map Prod.snd ∧ result.1.repositories = rs ++ outcomes.flatMap Prod.fst
  /-- Of each plugin there is the version that it was pinned to last. -/
  pins : result.1.pins.Tells (ps ++ steps.flatMap Step.pins)

/-- What blocks, single repositories and pins have to do with one another, from a management. -/
structure IsBlockwise (m : Management) : Prop where
  /-- A block that succeeds is its entries as single repositories. -/
  whole : ∀ entries, (m.apply entries).2 = .ok () → ∃ rs, List.Forall₂ Describes entries rs
    ∧ (m.run [.block entries]).1 = (m.run (rs.map .declare)).1
  /-- A block that fails is the entries before the first that is no repository, whose name the
  failure tells. -/
  upTo : ∀ entries e, (m.apply entries).2 = .error e → ∃ before url after rs,
    entries = before ++ .maven e.name url :: after ∧ List.Forall₂ Describes before rs
      ∧ Url.parse url = .error e.cause
      ∧ e.chain = [.known ("invalid URL for repository " ++ e.name), .known e.cause.message]
      ∧ (m.run [.block entries]).1 = (m.run (rs.map .declare)).1
  /-- Two blocks in one. -/
  append : ∀ xs ys, (∀ d ∈ xs ++ ys, d.IsSound) →
    (m.run [.block (xs ++ ys)]).1 = (m.run [.block xs, .block ys]).1
      ∧ (m.run [.block (xs ++ ys)]).2 = [.ok ()]
      ∧ (m.run [.block xs, .block ys]).2 = [.ok (), .ok ()]
  /-- Repositories leave the pins as they are, however they end. -/
  pins_kept : ∀ s : Step, s.pins = [] → (m.perform s).1.pins = m.pins
  /-- Pins leave the repositories as they are. -/
  repositories_kept : ∀ plugin version,
    (m.perform (.pin plugin version)).1.repositories = m.repositories

/-- Every run from given repositories and pins is a history of them. -/
theorem isHistory_run (rs : List Repository) (ps : List (String × String)) (steps : List Step) :
    IsHistory rs ps steps (Management.run ⟨rs, .ofList ps⟩ steps) := by
  obtain ⟨outcomes, hall, hanswers, hrun⟩ := Management.run_eq ⟨rs, .ofList ps⟩ steps
  refine ⟨⟨outcomes, hall, hanswers, by rw [hrun]⟩, ?_⟩
  have hpins : (Management.run ⟨rs, .ofList ps⟩ steps).1.pins
      = .ofList (ps ++ steps.flatMap Step.pins) := by
    rw [hrun, Pins.ofList, Pins.ofList, List.foldl_append]
  rw [hpins]
  exact Pins.tells_ofList _

/-- To run a block is to run its declarations up to the first that is not sound. -/
theorem isBlockwise (m : Management) : IsBlockwise m := by
  -- A block declares single repositories, and what these are decides how it ends.
  have hblock : ∀ entries, ∃ rs, Declares (.block entries) (rs, (m.apply entries).2)
      ∧ (m.run [.block entries]).1 = (m.run (rs.map .declare)).1 := by
    intro entries
    obtain ⟨rs, hrs, hm⟩ := m.apply_declares entries
    exact ⟨rs, hrs, by rw [m.run_declare]; exact hm⟩
  constructor
  case whole =>
    intro entries hok
    obtain ⟨rs, hrs, hrun⟩ := hblock entries
    rw [hok] at hrs
    cases hrs with
    | whole h => exact ⟨rs, h, hrun⟩
  case upTo =>
    intro entries e herror
    obtain ⟨rs, hrs, hrun⟩ := hblock entries
    rw [herror] at hrs
    cases hrs with
    | upTo h he => exact ⟨_, _, _, rs, rfl, h, he, rfl, hrun⟩
  case append =>
    intro xs ys hsound
    have hxs := (m.apply_ok_iff xs).2 fun d hd => hsound d (List.mem_append_left _ hd)
    have hys := ((m.apply xs).1.apply_ok_iff ys).2 fun d hd => hsound d (List.mem_append_right _ hd)
    have happend := m.apply_append hxs ys
    refine ⟨?_, ?_, ?_⟩
    · show (m.apply (xs ++ ys)).1 = ((m.apply xs).1.apply ys).1
      rw [happend]
    · show [(m.apply (xs ++ ys)).2] = _
      rw [happend, hys]
    · show [(m.apply xs).2, ((m.apply xs).1.apply ys).2] = _
      rw [hxs, hys]
  case pins_kept =>
    intro s hs
    obtain ⟨rs, -, hm⟩ := m.perform_eq s
    rw [hm, hs]
    rfl
  case repositories_kept => exact fun _ _ => rfl

end TracedTransfer.Plugin

namespace TracedTransfer

open Plugin

/-- What settings for plugins come to. -/
structure Config.PluginSettings.IsBuilt (s : PluginSettings) : Prop where
  /-- They can be managed if all their declarations are sound. -/
  succeeds : (∃ m, s.management = .ok m) ↔ ∀ d ∈ s.repositories, d.IsSound
  /-- The entries in order, the resolution as pins: as when all are performed on nothing. -/
  management : ∀ m, s.management = .ok m → List.Forall₂ Describes s.repositories m.repositories
    ∧ m.pins = s.resolution
    ∧ m = (Management.empty.run
      (s.resolution.map (fun p => Step.pin p.1 p.2) ++ [.block s.repositories])).1
  /-- Otherwise the first declaration that is not is named, with the reason. -/
  failure : ∀ chain, s.management = .error chain → ∃ before name url e after,
    s.repositories = before ++ .maven name url :: after ∧ (∀ d ∈ before, d.IsSound)
      ∧ Url.parse url = .error e
      ∧ chain = [.known "plugin_management.repositories",
        .known ("invalid URL for repository " ++ name), .known e.message]

/-- Settings come to what a run makes that pins their resolution and then declares their
repositories in one block. -/
theorem Config.PluginSettings.isBuilt (entries : List Declaration) {resolution : Pins}
    (h : resolution.Sorted) : PluginSettings.IsBuilt ⟨entries, resolution⟩ := by
  have hstart : (Management.empty.run (resolution.map fun p => Step.pin p.1 p.2)).1
      = ⟨[], resolution⟩ := by
    rw [Management.run_pin]
    exact congrArg (Management.mk []) h.ofList_eq
  obtain ⟨rs, hrs, hm⟩ := Management.apply_declares ⟨[], resolution⟩ entries
  have hok := hrs.ok_iff
  -- The block at the end is what the settings come to.
  have hblock : (Management.empty.run
      (resolution.map (fun p => Step.pin p.1 p.2) ++ [.block entries])).1
        = ⟨rs, resolution⟩ := by
    rw [Management.run_append, hstart]
    exact hm
  have hmanagement : PluginSettings.management ⟨entries, resolution⟩
      = match (Management.apply ⟨[], resolution⟩ entries).2 with
      | .ok () => .ok ⟨rs, resolution⟩
      | .error e => .error (.known "plugin_management.repositories" :: e.chain) := by
    rw [management]
    generalize Management.apply ⟨[], resolution⟩ entries = result at hm
    obtain ⟨m, _ | _⟩ := result
    · rfl
    · exact congrArg Except.ok hm
  generalize (Management.apply ⟨[], resolution⟩ entries).2 = answer at hrs hok hmanagement
  constructor
  case succeeds =>
    rw [← hok, hmanagement]
    cases answer with
    | ok => exact iff_of_true ⟨_, rfl⟩ rfl
    | error e => exact iff_of_false (by rintro ⟨m, hm⟩; cases hm) (by simp)
  case management =>
    intro m hm
    rw [hmanagement] at hm
    cases hrs with
    | whole hrs =>
        cases hm
        exact ⟨hrs, rfl, hblock.symm⟩
    | upTo => cases hm
  case failure =>
    intro chain hchain
    rw [hmanagement] at hchain
    cases hrs with
    | whole => cases hchain
    | @upTo before _ name url after e hbefore hparse =>
        cases hchain
        exact ⟨before, name, url, e, after, rfl, isSound_of_forall₂ hbefore, hparse, rfl⟩

/-- Management is a log of repositories, which every step only adds to, and a map of pins, of
which the last wins; settings come to the management that they spell. -/
theorem Plugin.log_and_last_pins (rs : List Repository) (ps : List (String × String)) :
    (∀ steps, IsHistory rs ps steps (Management.run ⟨rs, .ofList ps⟩ steps))
      ∧ (∀ m, IsBlockwise m)
      ∧ ∀ entries, Config.PluginSettings.IsBuilt ⟨entries, .ofList ps⟩ :=
  ⟨isHistory_run rs ps, isBlockwise,
    fun entries => Config.PluginSettings.isBuilt entries (Pins.sorted_ofList ps)⟩

/-- A block that fails between a repository and another, and a plugin that is pinned three
times. -/
theorem Plugin.log_and_last_pins_mixed :
    let steps : List Step := [.block [.portal, .maven "broken" "not a url", .portal],
      .pin "b" "2", .declare .portal, .pin "a" "3", .pin "b" "4"]
    Management.run ⟨[], .ofList [("b", "1")]⟩ steps
        = (⟨[.portal, .portal], [("a", "3"), ("b", "4")]⟩,
          [.error ⟨"broken", .relativeWithoutBase⟩, .ok (), .ok (), .ok (), .ok ()])
      ∧ IsHistory [] [("b", "1")] steps (Management.run ⟨[], .ofList [("b", "1")]⟩ steps) :=
  ⟨by decide +kernel, (log_and_last_pins [] [("b", "1")]).1 _⟩

end TracedTransfer
