/-
The table that the statements of settings build.

Entries with new keys are appended to the open table (`add_entries`). The
repositories are elements of an array, and each one takes the element
before it into the array when it is opened (`add_declaration`); so after
the last of them the array holds all in order once the open table is
closed (`repositories_close`). `ofStatements_statements` is the whole: the
statements of settings build `Settings.table`.
-/
import TracedTransfer.Config.Document
import TracedTransfer.Toml.Printer

namespace TracedTransfer

namespace Toml

variable {es : Entries} {key : String}

-- ============================================================== entries

/-- Entries of a document that holds nothing but values. -/
def rows (es : List (String × Toml)) : Entries := es.map fun e => (e.1, .value e.2)

/-- Rows are read in order, -/
theorem entriesOf_append (es fs : Entries) :
    entriesOf (es ++ fs) = entriesOf es ++ entriesOf fs := by
  induction es with
  | nil => rfl
  | cons e es ih => simp [entriesOf, ih]

/-- and give back what they are made of. -/
theorem entriesOf_rows (es : List (String × Toml)) : entriesOf (rows es) = es := by
  induction es with
  | nil => rfl
  | cons e es ih =>
      have hrest : entriesOf (rows (e :: es)) = (e.1, e.2) :: entriesOf (rows es) := by
        simp [rows, entriesOf, Node.toValue]
      rw [hrest, ih]

/-- A key that no row has is not found. -/
theorem find?_eq_none (h : key ∉ es.map Prod.fst) : Entries.find? es key = none := by
  unfold Entries.find?
  rw [List.find?_eq_none.2 fun e he => ?_]
  · rfl
  · intro heq
    exact h (List.mem_map.2 ⟨e, he, by simpa using heq⟩)

/-- A key that is new is found in the row that is added, -/
theorem find?_last (h : key ∉ es.map Prod.fst) (n : Node) :
    Entries.find? (es ++ [(key, n)]) key = some n := by
  have hnone : List.find? (·.1 = key) es = none := by
    simpa [Entries.find?] using find?_eq_none h
  simp [Entries.find?, List.find?_append, hnone]

/-- and what stands there can be replaced. -/
theorem replace_last (h : key ∉ es.map Prod.fst) (n m : Node) :
    Entries.replace (es ++ [(key, n)]) key m = es ++ [(key, m)] := by
  have hsame : ∀ e ∈ es, (if e.1 = key then (key, m) else e) = e := fun e he =>
    if_neg fun heq => h (List.mem_map.2 ⟨e, he, heq⟩)
  unfold Entries.replace
  rw [List.map_append, List.map_congr_left hsame, List.map_id']
  simp

/-- What is done to the table that stands last is done to its entries. -/
theorem updateAt_last {α : Type} (f : Bool → Entries → Option (α × Entries))
    (h : key ∉ es.map Prod.fst) (isImplicit dotted : Bool) (below : Entries) :
    Entries.updateAt false f [key] false (es ++ [(key, .table isImplicit dotted below)])
      = (f dotted below).map fun r => (r.1, es ++ [(key, .table isImplicit dotted r.2)]) := by
  rw [Entries.updateAt, find?_last h]
  show ((f dotted below).bind fun r => some (r.1, Entries.replace _ key _)) = _
  cases f dotted below with
  | none => rfl
  | some r =>
      rw [Option.bind_some, replace_last h]
      rfl

/-- A value under a new key is appended. -/
theorem put_new (h : key ∉ es.map Prod.fst) (v : Toml) :
    Entries.put [] key v es = some (es ++ [(key, .value v)]) := by
  unfold Entries.put Entries.updateAt
  rw [find?_eq_none h]
  rfl

/-- Entries with new keys are appended to the open table. -/
theorem add_entries (new : List (String × Toml)) (d : Draft)
    (h : (d.current.map Prod.fst ++ new.map Prod.fst).Nodup) :
    (new.map fun e => Statement.entry [] e.1 e.2).foldlM Draft.add d
      = some { d with current := d.current ++ rows new } := by
  induction new generalizing d with
  | nil => simp [rows]
  | cons e new ih =>
      have hkey : e.1 ∉ d.current.map Prod.fst := by
        intro hmem
        rw [List.map_cons, List.nodup_append] at h
        exact h.2.2 _ hmem _ (List.mem_cons_self ..) rfl
      rw [List.map_cons, List.foldlM_cons, Draft.add, put_new hkey]
      show (new.map fun e => Statement.entry [] e.1 e.2).foldlM Draft.add
        { d with current := d.current ++ [(e.1, .value e.2)] } = _
      rw [ih _ (by simpa [List.append_assoc] using h)]
      simp [rows]

end Toml

namespace Config

open Toml Plugin

-- =============================================================== tables

/-- The table of a repository. -/
def Declaration.table : Declaration → List (String × Toml)
  | .portal => [("type", .string "plugin_portal")]
  | .maven name url => [("type", .string "maven"), ("name", .string name), ("url", .string url)]

/-- The table of pins. -/
def pinsTable (ps : Pins) : List (String × Toml) := ps.map fun p => (p.1, .string p.2)

/-- The table of the settings for plugins. -/
def PluginSettings.table (s : PluginSettings) : List (String × Toml) :=
  [("repositories", .array (s.repositories.map fun d => .table (Declaration.table d))),
    ("resolution", .table (pinsTable s.resolution))]

/-- The values of settings that stand outside tables. -/
def Settings.values (s : Settings) : List (String × Toml) :=
  [("connect_timeout_secs", .integer s.connectTimeoutSecs),
    ("timeout_secs", .integer s.timeoutSecs),
    ("low_speed_limit_bytes", .integer s.lowSpeedLimitBytes),
    ("low_speed_time_secs", .integer s.lowSpeedTimeSecs),
    ("max_redirects", .integer s.maxRedirects)]
    ++ s.traceFile.toList.map fun f => ("trace_file", .string f)

/-- The table of settings. -/
def Settings.table (s : Settings) : List (String × Toml) :=
  s.values ++ s.plugins.toList.map fun p => ("plugin_management", .table (PluginSettings.table p))

-- ========================================================= repositories

/-- The key of the settings for plugins. -/
abbrev pluginsKey : String := "plugin_management"

variable {top : Entries}

/-- A document whose array of repositories is open at an element. -/
def atElement (top : Entries) (ts : List Entries) (current : Entries) : Draft :=
  ⟨top ++ [(pluginsKey, .table true false [("repositories", .elements ts)])],
    some ([pluginsKey], "repositories"), true, current⟩

/-- The open element joins the array when its table is closed. -/
theorem atElement_close (htop : pluginsKey ∉ top.map Prod.fst) (ts : List Entries)
    (current : Entries) : (atElement top ts current).close
      = some (top ++ [(pluginsKey, .table true false
          [("repositories", .elements (ts ++ [current]))])]) := by
  unfold Draft.close atElement
  dsimp only
  rw [updateAt_last _ htop]
  rfl

/-- The first repository makes the array. -/
theorem openElement_first (htop : pluginsKey ∉ top.map Prod.fst) :
    Draft.openElement ⟨[], none, false, top⟩ [pluginsKey] "repositories"
      = some (atElement top [] []) := by
  unfold Draft.openElement Draft.close
  show (Entries.updateAt false _ [pluginsKey] false top).bind _ = _
  rw [Entries.updateAt, find?_eq_none htop]
  rfl

/-- Any other one goes behind those that are there. -/
theorem openElement_next (htop : pluginsKey ∉ top.map Prod.fst) (ts : List Entries)
    (current : Entries) :
    Draft.openElement (atElement top ts current) [pluginsKey] "repositories"
      = some (atElement top (ts ++ [current]) []) := by
  unfold Draft.openElement
  rw [atElement_close htop]
  show (Entries.updateAt false _ [pluginsKey] false _).bind _ = _
  rw [updateAt_last _ htop]
  rfl

/-- The fields of a repository go into the element that has been opened for it. -/
theorem add_declaration {d d' : Draft} (decl : Declaration)
    (hopen : d.openElement [pluginsKey] "repositories" = some d') (hempty : d'.current = []) :
    (declarationStatements decl).foldlM Draft.add d
      = some { d' with current := rows (Declaration.table decl) } := by
  have hstatements : declarationStatements decl = .element [pluginsKey] "repositories"
      :: (Declaration.table decl).map fun e => Statement.entry [] e.1 e.2 := by
    cases decl <;> rfl
  have hkeys : ((Declaration.table decl).map Prod.fst).Nodup := by
    cases decl <;> simp [Declaration.table]
  rw [hstatements, List.foldlM_cons, Draft.add, hopen]
  show ((Declaration.table decl).map fun e => Statement.entry [] e.1 e.2).foldlM Draft.add d' = _
  rw [add_entries _ _ (by rw [hempty]; exact hkeys), hempty]
  rfl

/-- Further repositories go into the array one behind the other. -/
theorem add_declarations (htop : pluginsKey ∉ top.map Prod.fst) (decls : List Declaration)
    (ts : List Entries) (current : Entries) :
    ∃ ts' current', (decls.flatMap declarationStatements).foldlM Draft.add
        (atElement top ts current) = some (atElement top ts' current')
      ∧ ts' ++ [current'] = ts ++ current :: decls.map fun d => rows (Declaration.table d) := by
  induction decls generalizing ts current with
  | nil => exact ⟨ts, current, rfl, by simp⟩
  | cons decl decls ih =>
      obtain ⟨ts', current', hfold, heq⟩ := ih (ts ++ [current]) (rows (Declaration.table decl))
      refine ⟨ts', current', ?_, by simpa using heq⟩
      rw [List.flatMap_cons, List.foldlM_append,
        add_declaration decl (openElement_next htop ts current) rfl]
      exact hfold

/-- Repositories that are declared are read as the tables that they were. -/
theorem tablesOf_rows (decls : List Declaration) :
    tablesOf (decls.map fun d => rows (Declaration.table d))
      = decls.map fun d => Toml.table (Declaration.table d) := by
  induction decls with
  | nil => rfl
  | cons d decls ih => simp [tablesOf, entriesOf_rows, ih]

/-- Once all repositories have been written and the open table is closed, they stand in order. -/
theorem repositories_close (htop : pluginsKey ∉ top.map Prod.fst) (decls : List Declaration) :
    ∃ d isImplicit node,
      (if decls.isEmpty then [.table [] pluginsKey, .entry [] "repositories" (.array [])]
        else decls.flatMap declarationStatements).foldlM Draft.add ⟨[], none, false, top⟩ = some d
      ∧ d.close = some (top ++ [(pluginsKey, .table isImplicit false [("repositories", node)])])
      ∧ node.toValue = .array (decls.map fun d => .table (Declaration.table d)) := by
  -- Without declarations the key holds an empty array; with some it becomes an array of tables.
  cases decls with
  | nil =>
      have hopen : Draft.openTable ⟨[], none, false, top⟩ [] pluginsKey
          = some ⟨top, some ([], pluginsKey), false, []⟩ := by
        unfold Draft.openTable Draft.close
        show (Entries.updateAt false _ [] false top).bind _ = _
        rw [Entries.updateAt, find?_eq_none htop]
        rfl
      refine ⟨⟨top, some ([], pluginsKey), false, rows [("repositories", .array [])]⟩, false,
        .value (.array []), ?_, ?_, rfl⟩
      · rw [List.isEmpty_nil, if_pos rfl, List.foldlM_cons, Draft.add, hopen]
        exact add_entries [("repositories", .array [])] ⟨top, some ([], pluginsKey), false, []⟩
          (by simp)
      · unfold Draft.close
        dsimp only
        rw [Entries.updateAt, find?_eq_none htop]
        rfl
  | cons decl decls =>
      obtain ⟨ts, current, hfold, heq⟩ :=
        add_declarations htop decls [] (rows (Declaration.table decl))
      refine ⟨atElement top ts current, true, .elements (ts ++ [current]), ?_,
        atElement_close htop ts current, ?_⟩
      · rw [if_neg (by simp), List.flatMap_cons, List.foldlM_append,
          add_declaration decl (openElement_first htop) rfl]
        exact hfold
      · rw [heq, List.nil_append, Node.toValue]
        exact congrArg Toml.array (tablesOf_rows (decl :: decls))

-- ============================================================= the whole

/-- No setting has two rows, and none of them has the key of the plugins. -/
theorem values_keys (s : Settings) : (s.values.map Prod.fst).Nodup
    ∧ pluginsKey ∉ s.values.map Prod.fst := by
  unfold Settings.values
  cases s.traceFile with
  | none => simp [pluginsKey]
  | some f => simp [pluginsKey]

/-- The statements of the settings for plugins add their table to what stands before. -/
theorem add_plugins {top : List (String × Toml)} (htop : pluginsKey ∉ top.map Prod.fst)
    (p : PluginSettings) (hpins : (p.resolution.map Prod.fst).Nodup) :
    ∃ d closed, (PluginSettings.statements p).foldlM Draft.add ⟨[], none, false, rows top⟩ = some d
      ∧ d.close = some closed
      ∧ entriesOf closed = top ++ [(pluginsKey, .table (PluginSettings.table p))] := by
  have htop' : pluginsKey ∉ (rows top).map Prod.fst := by simpa [rows] using htop
  obtain ⟨d, isImplicit, node, hfold, hclose, hnode⟩ := repositories_close htop' p.repositories
  have hopen : d.openTable [pluginsKey] "resolution"
      = some ⟨rows top ++ [(pluginsKey, .table isImplicit false [("repositories", node)])],
        some ([pluginsKey], "resolution"), false, []⟩ := by
    unfold Draft.openTable
    rw [hclose]
    show (Entries.updateAt false _ [pluginsKey] false _).bind _ = _
    rw [updateAt_last _ htop']
    rfl
  -- The table of the resolution is open while its pins are read, and is closed with the whole.
  have hpinned := add_entries (pinsTable p.resolution)
    ⟨rows top ++ [(pluginsKey, .table isImplicit false [("repositories", node)])],
      some ([pluginsKey], "resolution"), false, []⟩
    (by simpa [pinsTable, Function.comp_def] using hpins)
  refine ⟨⟨rows top ++ [(pluginsKey, .table isImplicit false [("repositories", node)])],
      some ([pluginsKey], "resolution"), false, rows (pinsTable p.resolution)⟩,
    rows top ++ [(pluginsKey, .table isImplicit false [("repositories", node),
      ("resolution", .table false false (rows (pinsTable p.resolution)))])],
    ?_, ?_, ?_⟩
  · rw [PluginSettings.statements, List.foldlM_append, hfold]
    show (Draft.openTable d [pluginsKey] "resolution").bind _ = _
    rw [hopen]
    show ((p.resolution.map fun q => textEntry q.1 q.2).foldlM Draft.add _) = _
    rw [show (p.resolution.map fun q => textEntry q.1 q.2)
      = (pinsTable p.resolution).map fun e => Statement.entry [] e.1 e.2 by
        simp [pinsTable, textEntry], hpinned]
    rfl
  · unfold Draft.close
    dsimp only
    rw [updateAt_last _ htop']
    rfl
  · rw [entriesOf_append, entriesOf_rows]
    simp [entriesOf, Node.toValue, hnode, entriesOf_rows, PluginSettings.table]

/-- The statements of settings build the table of settings. -/
theorem ofStatements_statements (s : Settings)
    (hpins : ∀ p ∈ s.plugins, (p.resolution.map Prod.fst).Nodup) :
    ofStatements s.statements = some (Settings.table s) := by
  obtain ⟨hkeys, hplugins⟩ := values_keys s
  have hshape : s.statements = (s.values.map fun e => Statement.entry [] e.1 e.2)
      ++ s.plugins.toList.flatMap PluginSettings.statements := by
    unfold Settings.statements Settings.values
    cases s.traceFile <;> rfl
  have hvalues := add_entries s.values Draft.empty hkeys
  rw [ofStatements, hshape, List.foldlM_append, hvalues]
  cases hp : s.plugins with
  | none =>
      show some (entriesOf (rows s.values)) = _
      rw [entriesOf_rows]
      simp [Settings.table, hp]
  | some p =>
      obtain ⟨d, closed, hfold, hclose, hentries⟩ := add_plugins hplugins p (hpins p hp)
      show ((([p] : List PluginSettings).flatMap PluginSettings.statements).foldlM Draft.add
        ⟨[], none, false, rows s.values⟩).bind (fun d => d.close.bind fun es => some (entriesOf es))
          = _
      rw [List.flatMap_singleton, hfold, Option.bind_some, hclose, Option.bind_some, hentries]
      simp [Settings.table, hp]

end Config

end TracedTransfer
