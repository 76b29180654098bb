/-
One line of progress for each read.

A line shows the short name of a resource and how its read ended, and
whatever that was it is a line indeed (`Progress.IsLine`): nothing in it is
a control character, so nothing in it breaks it in two.

- Names come from reading a URL, from resolving paths against names and
  from arguments (`Obtained`). All of them are legible.
- A failure is told of by its message, which shows a name and not the
  text of what caused it (`Resource.Error.Concerns`).
- The listeners print the line of a read when it ends, after what was
  printed during it (`Progress.printed_read`).

So reads print as many lines as they are, one after the other and one
within the other (`Reads`). The induction is on how the reads follow one
another; what carries it is that the numbers of open scopes stay taken,
without which the record of a read could be that of another.
-/
import Mathlib
import TracedTransfer.Proofs.Command.Progress
import TracedTransfer.Proofs.Resource.Legible
import TracedTransfer.Proofs.Resource.Opening
import TracedTransfer.Proofs.Resource.ReadVariants

namespace TracedTransfer.Command

open Text Operation Resource

variable {α : Type} {n n' : Name} {r : Runner} {m m' : Machine} {k : Nat}

-- =============================================================== names

/-- The names that come from reading a URL, from resolving paths and from
arguments. -/
inductive Obtained : Name → Prop
  /-- A name may be parsed, -/
  | parse {s : String} {n : Name} (h : Name.parse s = .ok n) : Obtained n
  /-- resolved in another one, -/
  | resolve {n n' : Name} {path : String} (hn : Obtained n)
      (h : n.resolve path = .ok n') : Obtained n'
  /-- or be what an argument of a command means. -/
  | target {working : Option FilePath} {argument : String} {n : Name}
      (h : Command.target working argument = .ok n) : Obtained n

/-- What an argument names is a URL without control characters. -/
theorem legible_of_target {working : Option FilePath} {argument : String}
    (h : target working argument = .ok n) : n.url.IsLegible := by
  unfold target targetUrl? at h
  split at h
  · next u hu =>
      cases h
      split at hu
      · next u' hparse =>
          split at hu
          · cases hu
            exact Url.legible_of_parse hparse
          · cases hu
      · cases hu
  · split at h
    · cases h
    · split at h
      · next u hu =>
          cases h
          exact Url.legible_ofFilePath hu
      · cases h

/-- The induction is on the chain of paths that were resolved. -/
theorem Obtained.legible (h : Obtained n) : n.url.IsLegible := by
  induction h with
  | parse h => exact Name.legible_of_parse h
  | resolve _ h ih => exact Name.legible_of_resolve ih h
  | target h => exact legible_of_target h

-- =============================================================== lines

namespace Progress

/-- A line of progress: it tells of a download, and it holds no control
character, so no line break either. -/
structure IsLine (s : String) : Prop where
  /-- It says what it is about, -/
  start : "Download ".toList <+: s.toList
  /-- and has no control character in it, so no end of a line. -/
  plain : ∀ c ∈ s.toList, isControl c = false

/-- A legible text behind the fixed beginning of a line is still one
line. -/
theorem isLine_append {s : String} (h : Legible s.toList) : IsLine ("Download " ++ s) := by
  have hstart : Legible "Download ".toList := by decide
  constructor
  · rw [String.toList_append]
    exact List.prefix_append _ _
  · intro c hc
    rw [String.toList_append] at hc
    exact (legible_append.2 ⟨hstart, h⟩ c hc).not_control

/-- A record makes a line if its name and its failure are legible; a number is. -/
theorem isLine_line {record : Record} (hname : Legible (name record.descriptor).toList)
    (hfailure : ∀ text, record.failure = some text → Legible text.toList) :
    IsLine (line record) := by
  have hcolon : Legible ": ".toList := by decide
  unfold line
  rw [String.append_assoc, String.append_assoc]
  apply isLine_append
  rw [String.toList_append, String.toList_append, legible_append, legible_append]
  refine ⟨hname, hcolon, ?_⟩
  cases h : record.failure with
  | some text =>
      have hopen : Legible "failed (".toList := by decide
      have hclose : Legible ")".toList := by decide
      dsimp only
      rw [String.toList_append, String.toList_append, legible_append, legible_append]
      exact ⟨⟨hopen, hfailure text h⟩, hclose⟩
  | none =>
      have hbytes : Legible " bytes".toList := by decide
      dsimp only
      rw [String.toList_append, legible_append]
      exact ⟨legible_decimal _, hbytes⟩

/-- The record of a read makes a line, however the read ended, if its
failure tells of a name that was obtained. -/
theorem isLine_of_accounts {bytes : α → Nat} {exit : Exit (Except Error α)} {record : Record}
    (hn : Obtained n) (hn' : Obtained n')
    (hexit : ∀ e, exit = .value (.error e) → e.Concerns n') (hne : exit ≠ .abort)
    (h : Accounts n bytes m exit record) : IsLine (line record) := by
  apply isLine_line
  · rw [h.descriptor]
    exact Name.legible_shortDisplayName hn.legible
  · intro text htext
    match exit with
    | .value (.ok a) =>
        rw [(h.success a rfl).1] at htext
        cases htext
    | .value (.error e) =>
        rw [(h.failure e rfl).1] at htext
        cases htext
        exact (hexit e rfl).legible hn'.legible
    | .unwind =>
        rw [(h.panic rfl).1] at htext
        cases htext
        decide
    | .abort => exact absurd rfl hne

/-- The line of a read that failed. -/
theorem line_of_failure {bytes : α → Nat} {e : Error} {record : Record}
    (h : Accounts n bytes m (.value (.error e)) record) :
    line record
      = "Download " ++ n.shortDisplayName ++ ": " ++ ("failed (" ++ e.message ++ ")") := by
  rw [line_failed (h.failure e rfl).1, h.descriptor]
  rfl

-- ============================================================ printing

/-- Some lines of progress have been printed, and nothing else. -/
def Prints (k : Nat) (before after : List String) : Prop :=
  ∃ lines : List String, lines.length = k ∧ (∀ l ∈ lines, IsLine l)
    ∧ after = before ++ lines.map (· ++ "\n")

theorem Prints.refl (texts : List String) : Prints 0 texts texts :=
  ⟨[], rfl, fun _ hl => absurd hl List.not_mem_nil, (List.append_nil texts).symm⟩

/-- Lines that are printed in two runs add up. -/
theorem Prints.trans {j : Nat} {before between after : List String}
    (h : Prints k before between) (h' : Prints j between after) :
    Prints (k + j) before after := by
  obtain ⟨lines, rfl, hlines, rfl⟩ := h
  obtain ⟨lines', rfl, hlines', rfl⟩ := h'
  refine ⟨lines ++ lines', List.length_append, ?_, ?_⟩
  · intro l hl
    exact (List.mem_append.1 hl).elim (hlines l) (hlines' l)
  · rw [List.map_append, List.append_assoc]

/-- A text with an end of line behind it is one more line. -/
theorem Prints.line {l : String} (h : IsLine l) (texts : List String) :
    Prints 1 texts (texts ++ [l ++ "\n"]) := by
  refine ⟨[l], rfl, ?_, rfl⟩
  intro l' hl'
  rw [List.mem_singleton.1 hl']
  exact h

/-- What has been printed has as many line breaks as lines. -/
theorem Prints.breaks {before after : List String} (h : Prints k before after) :
    ∃ printed, after = before ++ printed
      ∧ (printed.flatMap String.toList).count '\n' = k := by
  obtain ⟨lines, rfl, hlines, rfl⟩ := h
  refine ⟨_, rfl, ?_⟩
  clear before
  induction lines with
  | nil => rfl
  | cons l lines ih =>
      have hline : '\n' ∉ l.toList := by
        intro hbreak
        have hcontrol := (hlines l (List.mem_cons_self ..)).plain '\n' hbreak
        exact absurd hcontrol (by decide)
      have hone : (l ++ "\n").toList.count '\n' = 1 := by
        rw [String.toList_append, List.count_append, List.count_eq_zero_of_not_mem hline]
        rfl
      rw [List.map_cons, List.flatMap_cons, List.count_append, hone,
        ih fun l' hl' => hlines l' (List.mem_cons_of_mem _ hl'), List.length_cons, Nat.add_comm]

/-- What the console shows is changed by neither files nor requests. -/
theorem distant_texts : Distant fun m => m.console.texts where
  server _ _ := rfl
  files _ _ := rfl
  logged := private_texts.logged

end Progress

-- =============================================================== reads

/-- A source of a name that was obtained, of which every failure to open
its content tells. -/
structure Accountable (s : ContentSource) : Prop where
  /-- Its name has been obtained in one of the ways in which names are. -/
  name : Obtained s.name
  /-- Opening fails with errors about the resource only, -/
  failures : FailsOnlyAs (Error.Concerns s.name) s.openContent
  /-- and leaves the scopes as they are. -/
  scopes : Run.KeepsScopes s.openContent

/-- Every transport is accountable for the names that were obtained. -/
theorem accountable_transport {a : AnyResource} (h : Obtained a.source.name) :
    Accountable a.source where
  name := h
  failures := a.openContent_concerns
  scopes := a.keepsScopes_openContent

open Progress

section

variable (hr : r.Calm) (hserves : r.Serves memory) {s : ContentSource} {reading : Resource.Reading α}

include hr hserves

/-- That a read begins is not printed. -/
theorem Progress.texts_entered (n : Name) (m : Machine) :
    (readEntered r n m).console.texts = m.console.texts :=
  recall_entered hr hserves (readDescriptor n) m

/-- When a read ends, its line is printed. -/
theorem Progress.printed_read (hn : Obtained n) (hs : Accountable s)
    (hkeeps : reading.KeepsScopes) (hm : m.scopes.Numbered)
    (hend : (reading.of s.resource (readEntered r n m)).1 ≠ .abort) :
    ∃ record, Accounts n reading.bytes m (reading.of s.resource (readEntered r n m)).1 record
      ∧ IsLine (line record)
      ∧ (reading.of (instrumented s.resource n r) m).2.console.texts
        = (reading.of s.resource (readEntered r n m)).2.console.texts
          ++ [line record ++ "\n"] := by
  obtain ⟨record, haccounts, hfinished⟩ := Resource.Reading.finished_instrumented hr
    (Resource.Reading.keepsScopes_source hs.scopes hkeeps) n hm hend
  refine ⟨record, haccounts, ?_, hfinished memory hserves⟩
  refine isLine_of_accounts hn hs.name (fun e he => ?_) hend haccounts
  exact Resource.Reading.concerns_source hs.failures reading (readEntered r n m) _ _
    (Prod.ext he rfl) e rfl

end

/-- Reads that follow one another, with others inside them, and what else
is done meanwhile, which prints nothing. All of them are counted. -/
inductive Reads (r : Runner) : Nat → Machine → Machine → Prop
  /-- Nothing is read. -/
  | none (m : Machine) : Reads r 0 m m
  /-- Something else happens that shows no text and leaves the frames
  numbered. -/
  | other {k : Nat} {m m₁ m₂ : Machine} (before : Reads r k m m₁)
      (htexts : m₂.console.texts = m₁.console.texts)
      (hscopes : m₁.scopes.Numbered → m₂.scopes.Numbered) : Reads r k m m₂
  /-- A resource is read, and other reads may happen inside. -/
  | read {α : Type} {k j : Nat} {m m₁ : Machine} {n : Name} {s : ContentSource}
      {reading : Resource.Reading α} (before : Reads r k m m₁) (hn : Obtained n) (hs : Accountable s)
      (hkeeps : reading.KeepsScopes)
      (hend : (reading.of s.resource (readEntered r n m₁)).1 ≠ .abort)
      (inside : Reads r j (readEntered r n m₁) (reading.of s.resource (readEntered r n m₁)).2) :
      Reads r (k + (j + 1)) m (reading.of (instrumented s.resource n r) m₁).2

/-- Reads print as many lines as they are. The induction is on how they
follow one another and on what happens inside them. -/
theorem Reads.prints (hr : r.Calm) (hserves : r.Serves memory) (h : Reads r k m m')
    (hm : m.scopes.Numbered) :
    m'.scopes.Numbered ∧ Prints k m.console.texts m'.console.texts := by
  induction h with
  | none m => exact ⟨hm, .refl _⟩
  | other _ htexts hscopes ih =>
      obtain ⟨hnumbered, hprints⟩ := ih hm
      rw [htexts]
      exact ⟨hscopes hnumbered, hprints⟩
  | @read α k j m m₁ n s reading _ hn hs hkeeps hend _ ihbefore ihinside =>
      obtain ⟨hnumbered, hbefore⟩ := ihbefore hm
      obtain ⟨-, hinside⟩ := ihinside (readEntered_numbered hr n hnumbered)
      rw [texts_entered hr hserves] at hinside
      have hscopes := Resource.Reading.scopes_instrumented hr
        (Resource.Reading.keepsScopes_source hs.scopes hkeeps) n hnumbered hend
      obtain ⟨record, -, hline, hprinted⟩ :=
        printed_read hr hserves hn hs hkeeps hnumbered hend
      refine ⟨hscopes.numbered hnumbered, hbefore.trans ?_⟩
      rw [hprinted]
      exact hinside.trans (.line hline _)

/-- One read of a transport, whose arguments print nothing, after others. -/
theorem Reads.transport {a : AnyResource} {reading : Resource.Reading α} {m₁ : Machine}
    (before : Reads r k m m₁) (hn : Obtained n) (ha : Obtained a.source.name)
    (hkeeps : reading.KeepsScopes) (hquiet : reading.Leaves fun m => m.console.texts)
    (hend : (reading.of a.source.resource (readEntered r n m₁)).1 ≠ .abort) :
    Reads r (k + 1) m (reading.of (instrumented a.source.resource n r) m₁).2 := by
  have hs := accountable_transport ha
  have hleaves := Resource.Reading.leaves_source distant_texts
    (a.leaves_openContent distant_texts.toOffline) hquiet
  refine .read (j := 0) before hn hs hkeeps hend (.other (.none _) (hleaves _) fun hm => ?_)
  exact (Resource.Reading.keepsScopes_source hs.scopes hkeeps _ hm hend).numbered hm

-- ================================================== the main statement

/-- Progress is one line for each read. -/
structure OneLinePerRead (r : Runner) : Prop where
  /-- The record of a read of a name that was obtained makes one line,
  however the read ended. -/
  line : ∀ {α : Type} {n n' : Name} {bytes : α → Nat} {m : Machine}
    {exit : Exit (Except Error α)} {record : Record}, Obtained n → Obtained n' →
    (∀ e, exit = .value (.error e) → e.Concerns n') → exit ≠ .abort →
    Accounts n bytes m exit record → IsLine (line record)
  /-- The reads of all transports have such records, and the line is what
  is printed when they end. -/
  transport : ∀ {α : Type} {n : Name} {a : AnyResource} {reading : Resource.Reading α} {m : Machine},
    Obtained n → Obtained a.source.name → reading.KeepsScopes → m.scopes.Numbered →
    (reading.of a.source.resource (readEntered r n m)).1 ≠ .abort →
    ∃ record,
      Accounts n reading.bytes m (reading.of a.source.resource (readEntered r n m)).1 record
      ∧ IsLine (Progress.line record)
      ∧ (reading.of (instrumented a.source.resource n r) m).2.console.texts
        = (reading.of a.source.resource (readEntered r n m)).2.console.texts
          ++ [Progress.line record ++ "\n"]
  /-- Any number of reads prints that number of lines, with as many line
  breaks. -/
  reads : ∀ {k : Nat} {m m' : Machine}, Reads r k m m' → m.scopes.Numbered →
    Prints k m.console.texts m'.console.texts
      ∧ ∃ printed, m'.console.texts = m.console.texts ++ printed
        ∧ (printed.flatMap String.toList).count '\n' = k
  /-- Reads of transports are such reads, unless what is done with the
  content prints too. -/
  quiet : ∀ {α : Type} {k : Nat} {n : Name} {a : AnyResource} {reading : Resource.Reading α}
    {m m₁ : Machine}, Reads r k m m₁ → Obtained n → Obtained a.source.name →
    reading.KeepsScopes → reading.Leaves (fun m => m.console.texts) →
    (reading.of a.source.resource (readEntered r n m₁)).1 ≠ .abort →
    Reads r (k + 1) m (reading.of (instrumented a.source.resource n r) m₁).2

/-- Listeners that print progress print one line for each read. -/
theorem one_line_per_read (hr : r.Calm) (hserves : r.Serves memory) : OneLinePerRead r where
  line := isLine_of_accounts
  transport hn ha hkeeps hm hend :=
    printed_read hr hserves hn (accountable_transport ha) hkeeps hm hend
  reads h hm := by
    have hprints := (h.prints hr hserves hm).2
    exact ⟨hprints, hprints.breaks⟩
  quiet := Reads.transport

/-- The resource at `/gone`. -/
def goneFile : FileResource :=
  ⟨⟨⟨"file".toList, some (.ofHost none), "/gone".toList, none, none⟩⟩, bytesOf "/gone"⟩

/-- A session that reads a file which is not there prints one line. -/
theorem one_line_per_read_gone :
    let r := Session.listeners false none
    let n := goneFile.name
    let d := (AnyResource.file goneFile).source.resource
    let m := Machine.initial .empty .default
    let m' := ((Resource.Reading.writeTo [0x61]).of (instrumented d n r) m).2
    r.Calm ∧ r.Serves memory ∧ OneLinePerRead r ∧ Reads r 1 m m'
      ∧ m'.console.texts
        = ["Download gone: failed (resource not found: file:///gone)\n"] := by
  intro r n d m m'
  have hreports := reports_listeners none
  have hlines : OneLinePerRead r := one_line_per_read hreports.calm hreports.progress
  have htarget : target none "/gone" = .ok goneFile.name := by cbv
  have hn : Obtained n := .target htarget
  -- The listeners have touched no file when the delegate is read.
  have hfiles : Machine.files (readEntered r n m) = Machine.files m :=
    view_entered_of hreports.calm (fun _ _ => rfl) (waits_listeners false none).starts
      (readDescriptor n) m
  have hnothing : goneFile.openContent .empty = .ok none := by cbv
  have hopen : (AnyResource.file goneFile).source.openContent (readEntered r n m)
      = (.value (.ok none), readEntered r n m) := by
    show (Exit.value (goneFile.openContent (readEntered r n m).files), _) = _
    rw [hfiles]
    exact congrArg (fun x => (Exit.value x, readEntered r n m)) hnothing
  have hread : (Resource.Reading.writeTo [0x61]).of d (readEntered r n m)
      = (.value (.error (.notFound n.location)), readEntered r n m) :=
    Resource.Reading.of_none hopen (.writeTo [0x61])
  have hend : ((Resource.Reading.writeTo [0x61]).of d (readEntered r n m)).1 ≠ .abort := by
    rw [hread]
    intro h
    cases h
  have hm : m.scopes.Numbered := fun f hf => absurd hf List.not_mem_nil
  have hkeeps : (Resource.Reading.writeTo [0x61]).KeepsScopes := trivial
  obtain ⟨record, haccounts, -, htexts⟩ :=
    hlines.transport (a := .file goneFile) hn hn hkeeps hm hend
  refine ⟨hreports.calm, hreports.progress, hlines, ?_, htexts.trans ?_⟩
  · exact hlines.quiet (a := .file goneFile) (.none m) hn hn hkeeps trivial hend
  · have hshort : n.shortDisplayName = "gone" := by cbv
    have hlocation : n.location = "file:///gone" := by cbv
    have hbefore : (readEntered r n m).console.texts = [] :=
      texts_entered hreports.calm hreports.progress n m
    rw [hread] at haccounts
    rw [hread, hbefore, line_of_failure haccounts, hshort]
    show ["Download gone: " ++ ("failed (" ++ ("resource not found: " ++ n.location) ++ ")")
      ++ "\n"] = _
    rw [hlocation]
    rfl

end TracedTransfer.Command
