/-
Settings survive being written.

Settings that were read can be written, since their numbers come from
numbers of TOML, and their pins stand in the order of plugins, each plugin
once (`IsRead`, from `isRead_of_read`). What is written is read back step
by step: the statements from their text, the table of settings from the
statements, and the settings from their table (`settings_table`).

`read_print` is the whole.
-/
import TracedTransfer.Proofs.Config.Document
import TracedTransfer.Proofs.Plugin.Pins
import TracedTransfer.Proofs.Toml.Printer
import TracedTransfer.Proofs.Toml.Whole

namespace TracedTransfer.Config

open Plugin Text

-- =========================================================== what is read

/-- Settings as they are read. -/
structure IsRead (s : Settings) : Prop where
  /-- Times are whole numbers of TOML, -/
  connectTimeout : Toml.isWhole s.connectTimeoutSecs = true
  /-- all three of them, -/
  timeout : Toml.isWhole s.timeoutSecs = true
  /-- limits have 32 bits, -/
  lowSpeedLimit : s.lowSpeedLimitBytes < 4294967296
  lowSpeedTime : Toml.isWhole s.lowSpeedTimeSecs = true
  /-- and so has the number of redirects. -/
  maxRedirects : s.maxRedirects < 4294967296
  /-- Pins are sorted. -/
  pins : ∀ p ∈ s.plugins, Pins.Sorted p.resolution

/-- Fields as they are read. -/
structure Fields.IsRead (f : Fields) : Prop where
  connectTimeout : ∀ n ∈ f.connectTimeoutSecs, Toml.isWhole n = true
  timeout : ∀ n ∈ f.timeoutSecs, Toml.isWhole n = true
  lowSpeedLimit : ∀ n ∈ f.lowSpeedLimitBytes, n < 4294967296
  lowSpeedTime : ∀ n ∈ f.lowSpeedTimeSecs, Toml.isWhole n = true
  maxRedirects : ∀ n ∈ f.maxRedirects, n < 4294967296
  pins : ∀ p ∈ f.plugins, Pins.Sorted p.resolution

/-- A number that is read is a whole one below the bound. -/
theorem unsignedNumber_ok {bound : Nat} {name : String} {j : Json} {n : Nat}
    (h : unsignedNumber bound name j = .ok n) : j = .int n ∧ n < bound := by
  cases j with
  | int i =>
      rw [unsignedNumber] at h
      split at h
      · rename_i hin
        simp only [Bool.and_eq_true, decide_eq_true_eq] at hin
        cases h
        refine ⟨?_, by omega⟩
        rw [Int.toNat_of_nonneg hin.1]
      · cases h
  | null | bool | float | str | arr | obj => cases h

/-- A shape is read through a map if it is read. -/
theorem map_ok {α β : Type} {x : Shaped α} {g : α → β} {b : β} (h : x.map g = .ok b) :
    ∃ a, x = .ok a ∧ b = g a := by
  cases x with
  | error e => cases h
  | ok a => exact ⟨a, rfl, (Except.ok.inj h).symm⟩

theorem bind_ok {α β : Type} {x : Shaped α} {g : α → Shaped β} {b : β} (h : x >>= g = .ok b) :
    ∃ a, x = .ok a ∧ g a = .ok b := by
  cases x with
  | error e => cases h
  | ok a => exact ⟨a, rfl, h⟩

/-- What every member keeps, a whole list of members keeps. -/
theorem foldlM_ok {α β : Type} {P : α → Prop} {f : α → β → Shaped α} {bs : List β}
    (hstep : ∀ a b a', b ∈ bs → P a → f a b = .ok a' → P a') {a a' : α} (ha : P a)
    (h : bs.foldlM f a = .ok a') : P a' := by
  induction bs generalizing a with
  | nil =>
      cases h
      exact ha
  | cons b bs ih =>
      rw [List.foldlM_cons] at h
      obtain ⟨a₁, hfirst, hrest⟩ := bind_ok h
      exact ih (fun a b a' hb => hstep a b a' (List.mem_cons_of_mem _ hb))
        (hstep a b a₁ (List.mem_cons_self ..) ha hfirst) hrest

/-- Pins that are read are sorted, as each is put in its place. -/
theorem pins_sorted {j : Json} {ps : Pins} (h : pins j = .ok ps) : Pins.Sorted ps := by
  cases j with
  | obj ms =>
      obtain ⟨qs, -, hqs⟩ := bind_ok h
      cases hqs
      exact Pins.sorted_ofList qs
  | null | bool | int | float | str | arr => cases h

/-- A member of the settings of plugins leaves them sorted, -/
theorem PluginSettings.add_sorted {p p' : PluginSettings} (hp : Pins.Sorted p.resolution)
    {m : String × Json} (h : PluginSettings.add p m = .ok p') : Pins.Sorted p'.resolution := by
  unfold PluginSettings.add at h
  split at h
  · obtain ⟨rs, -, rfl⟩ := map_ok h
    exact hp
  · obtain ⟨ps, hps, rfl⟩ := map_ok h
    exact pins_sorted hps
  · cases h
    exact hp

/-- so all of them do. -/
theorem pluginSettings_sorted {j : Json} {p : PluginSettings} (h : pluginSettings j = .ok p) :
    Pins.Sorted p.resolution := by
  have hrun : ∀ ms : List (String × Json), ms.foldlM PluginSettings.add .empty = .ok p →
      Pins.Sorted p.resolution := fun ms hms =>
    foldlM_ok (P := fun p => Pins.Sorted p.resolution)
      (fun _ _ _ _ hp hstep => PluginSettings.add_sorted hp hstep)
      (show Pins.Sorted PluginSettings.empty.resolution from List.Pairwise.nil) hms
  cases j with
  | obj ms => exact hrun _ h
  | arr items => exact hrun _ h
  | null | bool | int | float | str => cases h

/-- One more member, whose number has sixty-four bits if it is one. -/
theorem Fields.IsRead.add {f f' : Fields} (hf : f.IsRead) {m : String × Json}
    (hm : ∀ n, m.2 = .int n → Toml.isWhole n = true) (h : f.add m = .ok f') : f'.IsRead := by
  unfold Fields.add at h
  -- One case for each key that is known, the last for those that are not.
  split at h
  · obtain ⟨n, hn, rfl⟩ := map_ok h
    refine { hf with connectTimeout := ?_ }
    rintro _ ⟨⟩
    exact hm _ (unsignedNumber_ok hn).1
  · obtain ⟨n, hn, rfl⟩ := map_ok h
    refine { hf with timeout := ?_ }
    rintro _ ⟨⟩
    exact hm _ (unsignedNumber_ok hn).1
  · obtain ⟨n, hn, rfl⟩ := map_ok h
    refine { hf with lowSpeedLimit := ?_ }
    rintro _ ⟨⟩
    exact (unsignedNumber_ok hn).2
  · obtain ⟨n, hn, rfl⟩ := map_ok h
    refine { hf with lowSpeedTime := ?_ }
    rintro _ ⟨⟩
    exact hm _ (unsignedNumber_ok hn).1
  · obtain ⟨n, hn, rfl⟩ := map_ok h
    refine { hf with maxRedirects := ?_ }
    rintro _ ⟨⟩
    exact (unsignedNumber_ok hn).2
  · obtain ⟨f, -, rfl⟩ := map_ok h
    exact { hf with }
  · obtain ⟨p, hp, rfl⟩ := map_ok h
    refine { hf with pins := ?_ }
    rintro _ ⟨⟩
    exact pluginSettings_sorted hp
  · cases h
    exact hf

theorem required_ok {α : Type} {name : String} {x : Option α} {a : α}
    (h : required name x = .ok a) : x = some a := by
  cases x with
  | none => cases h
  | some b => exact congrArg some (Except.ok.inj h)

/-- Settings that are made of fields that were read are settings that can be read. -/
theorem Fields.IsRead.settings {f : Fields} (hf : f.IsRead) {s : Settings}
    (h : f.settings = .ok s) : Config.IsRead s := by
  unfold Fields.settings at h
  obtain ⟨a, ha, h⟩ := bind_ok h
  obtain ⟨b, hb, h⟩ := bind_ok h
  obtain ⟨c, hc, h⟩ := bind_ok h
  obtain ⟨d, hd, h⟩ := bind_ok h
  obtain ⟨e, he, h⟩ := bind_ok h
  cases h
  exact ⟨hf.connectTimeout _ (required_ok ha), hf.timeout _ (required_ok hb),
    hf.lowSpeedLimit _ (required_ok hc), hf.lowSpeedTime _ (required_ok hd),
    hf.maxRedirects _ (required_ok he), hf.pins⟩

/-- A member of a shape comes from an entry of the table. -/
theorem mem_membersOf {table : List (String × Toml)} {m : String × Json}
    (h : m ∈ membersOf table) : ∃ v, (m.1, v) ∈ table ∧ m.2 = shapeOf v := by
  induction table with
  | nil => cases h
  | cons e table ih =>
      rw [membersOf] at h
      rcases List.mem_cons.1 h with rfl | h
      · exact ⟨e.2, List.mem_cons_self .., rfl⟩
      · obtain ⟨v, hv, hm⟩ := ih h
        exact ⟨v, List.mem_cons_of_mem _ hv, hm⟩

/-- Settings that were read have numbers of TOML and pins in order. -/
theorem isRead_of_read {t : String} {s : Settings} (h : read t = .ok s) : IsRead s := by
  unfold read at h
  split at h
  · cases h
  · rename_i table hparse
    split at h
    · rename_i s' hsettings
      cases h
      obtain ⟨f, hfold, hdone⟩ := bind_ok hsettings
      have hempty : Fields.empty.IsRead := by
        constructor <;> exact fun _ h => by cases h
      have hread : f.IsRead := by
        refine foldlM_ok (fun f m f' hm hf hadd => ?_) hempty hfold
        refine hf.add (fun n hn => ?_) hadd
        obtain ⟨v, hv, hshape⟩ := mem_membersOf hm
        rw [hn] at hshape
        cases v with
        | integer k =>
            cases hshape
            exact Toml.parse_whole hparse hv
        | string | float | boolean | datetime | array | table => simp [shapeOf] at hshape
      exact hread.settings hdone
    · cases h

-- ======================================================= what is written

theorem membersOf_eq (table : List (String × Toml)) :
    membersOf table = table.map fun e => (e.1, shapeOf e.2) := by
  induction table with
  | nil => rfl
  | cons e table ih => rw [membersOf, ih, List.map_cons]

/-- The shape of a table is made of those of its entries, -/
theorem shapeOf_table (table : List (String × Toml)) :
    shapeOf (.table table) = .obj (table.map fun e => (e.1, shapeOf e.2)) := by
  rw [shapeOf, membersOf_eq]

/-- and that of an array of those of its values. -/
theorem shapesOf_eq (vs : List Toml) : shapesOf vs = vs.map shapeOf := by
  induction vs with
  | nil => rfl
  | cons v vs ih => rw [shapesOf, ih, List.map_cons]

/-- A number below the bound is read. -/
theorem unsignedNumber_int {bound n : Nat} (h : n < bound) (name : String) :
    unsignedNumber bound name (.int n) = .ok n := by
  have hin : (decide (0 ≤ (n : Int)) && decide ((n : Int) < bound)) = true := by
    simp only [Bool.and_eq_true, decide_eq_true_eq]
    omega
  rw [unsignedNumber, if_pos hin, Int.toNat_natCast]

/-- A repository is read back from its table. -/
theorem declaration_table (d : Declaration) :
    declaration (shapeOf (.table (Declaration.table d))) = .ok d := by
  cases d with
  | portal => rfl
  | maven name url => rfl

/-- A list is read if each of its values is. -/
theorem mapM_ok {α β : Type} {f : α → Shaped β} {g : β → α} (h : ∀ b, f (g b) = .ok b)
    (bs : List β) : (bs.map g).mapM f = .ok bs := by
  induction bs with
  | nil => rfl
  | cons b bs ih =>
      rw [List.map_cons, List.mapM_cons, h b, ih]
      rfl

/-- The settings for plugins are read back from their table. -/
theorem pluginSettings_table {p : PluginSettings} (h : Pins.Sorted p.resolution) :
    pluginSettings (shapeOf (.table (PluginSettings.table p))) = .ok p := by
  have hdecls : declarations
      (shapeOf (.array (p.repositories.map fun d => .table (Declaration.table d))))
        = .ok p.repositories := by
    rw [shapeOf, shapesOf_eq, List.map_map]
    exact mapM_ok declaration_table p.repositories
  have hpins : pins (shapeOf (.table (pinsTable p.resolution))) = .ok p.resolution := by
    have hmembers : (pinsTable p.resolution).map (fun e => (e.1, shapeOf e.2))
        = p.resolution.map fun q => (q.1, Json.str q.2) := by
      simp [pinsTable, shapeOf]
    have hread : (p.resolution.map fun q => (q.1, Json.str q.2)).mapM
        (fun m : String × Json => (plainText m.2).map fun s => (m.1, s)) = .ok p.resolution :=
      mapM_ok (f := fun m : String × Json => (plainText m.2).map fun s => (m.1, s))
        (g := fun q => (q.1, Json.str q.2)) (fun _ => rfl) p.resolution
    rw [shapeOf, membersOf_eq, hmembers, pins, hread]
    exact congrArg Except.ok h.ofList_eq
  have hmembers : shapeOf (.table (PluginSettings.table p))
      = .obj [("repositories",
          shapeOf (.array (p.repositories.map fun d => .table (Declaration.table d)))),
        ("resolution", shapeOf (.table (pinsTable p.resolution)))] := by
    rw [shapeOf_table]
    rfl
  rw [hmembers, pluginSettings]
  show ((declarations _).map _).bind _ = _
  rw [hdecls]
  show ((pins _).map _).bind _ = _
  rw [hpins]
  rfl

theorem foldlM_step {f f' : Fields} {m : String × Json} (h : f.add m = .ok f')
    (ms : List (String × Json)) : (m :: ms).foldlM Fields.add f = ms.foldlM Fields.add f' := by
  rw [List.foldlM_cons, h]
  rfl

/-- A whole number of TOML is read as one of 64 bits; -/
theorem u64_whole {n : Nat} (h : Toml.isWhole n = true) : u64 (.int n) = .ok n := by
  refine unsignedNumber_int ?_ _
  rw [Toml.isWhole_iff] at h
  have hbound : u64Bound = 18446744073709551616 := rfl
  omega

/-- below the bound it is read as one of 32 bits. -/
theorem u32_lt {n : Nat} (h : n < 4294967296) : u32 (.int n) = .ok n := unsignedNumber_int h _

/-- The values that stand outside tables are read back. -/
theorem fold_values {s : Settings} (h : IsRead s) :
    (s.values.map fun e => (e.1, shapeOf e.2)).foldlM Fields.add .empty
      = .ok ⟨some s.connectTimeoutSecs, some s.timeoutSecs, some s.lowSpeedLimitBytes,
        some s.lowSpeedTimeSecs, some s.maxRedirects, s.traceFile, none⟩ := by
  have hmembers : s.values.map (fun e => (e.1, shapeOf e.2))
      = ("connect_timeout_secs", .int s.connectTimeoutSecs)
        :: ("timeout_secs", .int s.timeoutSecs)
        :: ("low_speed_limit_bytes", .int s.lowSpeedLimitBytes)
        :: ("low_speed_time_secs", .int s.lowSpeedTimeSecs)
        :: ("max_redirects", .int s.maxRedirects)
        :: s.traceFile.toList.map fun f => ("trace_file", .str f) := by
    simp [Settings.values, shapeOf, Function.comp_def]
  -- What each member does to the fields is its own equation, so that the fold goes by one
  -- rewrite for each.
  have hconnect : ∀ (f : Fields) (j : Json), f.add ("connect_timeout_secs", j)
      = (u64 j).map fun n => { f with connectTimeoutSecs := some n } := fun _ _ => rfl
  have htimeout : ∀ (f : Fields) (j : Json), f.add ("timeout_secs", j)
      = (u64 j).map fun n => { f with timeoutSecs := some n } := fun _ _ => rfl
  have hlimit : ∀ (f : Fields) (j : Json), f.add ("low_speed_limit_bytes", j)
      = (u32 j).map fun n => { f with lowSpeedLimitBytes := some n } := fun _ _ => rfl
  have htime : ∀ (f : Fields) (j : Json), f.add ("low_speed_time_secs", j)
      = (u64 j).map fun n => { f with lowSpeedTimeSecs := some n } := fun _ _ => rfl
  have hredirects : ∀ (f : Fields) (j : Json), f.add ("max_redirects", j)
      = (u32 j).map fun n => { f with maxRedirects := some n } := fun _ _ => rfl
  rw [hmembers,
    foldlM_step ((hconnect _ _).trans (by rw [u64_whole h.connectTimeout]; rfl)),
    foldlM_step ((htimeout _ _).trans (by rw [u64_whole h.timeout]; rfl)),
    foldlM_step ((hlimit _ _).trans (by rw [u32_lt h.lowSpeedLimit]; rfl)),
    foldlM_step ((htime _ _).trans (by rw [u64_whole h.lowSpeedTime]; rfl)),
    foldlM_step ((hredirects _ _).trans (by rw [u32_lt h.maxRedirects]; rfl))]
  cases s.traceFile with
  | none => rfl
  | some f => rfl

/-- Settings are read back from their table. -/
theorem settings_table {s : Settings} (h : IsRead s) :
    settings (membersOf (Settings.table s)) = .ok s := by
  have hfold : (membersOf (Settings.table s)).foldlM Fields.add .empty
      = .ok ⟨some s.connectTimeoutSecs, some s.timeoutSecs, some s.lowSpeedLimitBytes,
        some s.lowSpeedTimeSecs, some s.maxRedirects, s.traceFile, s.plugins⟩ := by
    rw [membersOf_eq, Settings.table, List.map_append, List.foldlM_append, fold_values h]
    cases hp : s.plugins with
    | none => rfl
    | some p =>
        show (((pluginSettings (shapeOf (.table (PluginSettings.table p)))).map _).bind _) = _
        rw [pluginSettings_table (h.pins p hp)]
        rfl
  rw [settings, hfold]
  rfl

/-- A number of 32 bits is a whole number of TOML. -/
theorem whole_of_lt {n : Nat} (h : n < 4294967296) : Toml.isWhole n = true := by
  rw [Toml.isWhole_iff]
  omega

theorem numberEntry_plain (key : String) {n : Nat} (h : Toml.isWhole n = true) :
    (numberEntry key n).IsPlain :=
  ⟨by decide, Int.natCast_nonneg n, h⟩

theorem textEntry_plain (key value : String) : (textEntry key value).IsPlain := ⟨by decide, trivial⟩

/-- A repository is declared in such lines, -/
theorem declarationStatements_plain (d : Declaration) :
    ∀ st ∈ declarationStatements d, st.IsPlain := by
  have hheader : (Toml.Statement.element ["plugin_management"] "repositories").IsPlain := by
    show 1 + 1 < Toml.maxDepth
    decide
  cases d with
  | portal => simp [declarationStatements, hheader, textEntry_plain]
  | maven name url => simp [declarationStatements, hheader, textEntry_plain]

/-- and so are the settings of plugins. -/
theorem PluginSettings.statements_plain (p : PluginSettings) :
    ∀ st ∈ p.statements, st.IsPlain := by
  have hrepositories : ∀ st ∈ (if p.repositories.isEmpty then
      [.table [] "plugin_management", .entry [] "repositories" (.array [])]
      else p.repositories.flatMap declarationStatements : List Toml.Statement), st.IsPlain := by
    split
    · have hdepth : 0 + 1 < Toml.maxDepth := by decide
      exact List.forall_mem_cons.2 ⟨hdepth, List.forall_mem_singleton.2 ⟨by decide, rfl⟩⟩
    · intro st hst
      obtain ⟨d, -, hst⟩ := List.mem_flatMap.1 hst
      exact declarationStatements_plain d st hst
  have hpins : ∀ st ∈ p.resolution.map fun q => textEntry q.1 q.2, st.IsPlain := by
    intro st hst
    obtain ⟨q, -, rfl⟩ := List.mem_map.1 hst
    exact textEntry_plain _ _
  have hdepth : 1 + 1 < Toml.maxDepth := by decide
  exact List.forall_mem_append.2 ⟨hrepositories, List.forall_mem_cons.2 ⟨hdepth, hpins⟩⟩

/-- The statements of settings can be read back from their text. -/
theorem statements_plain {s : Settings} (h : IsRead s) : ∀ st ∈ s.statements, st.IsPlain := by
  intro st hst
  unfold Settings.statements at hst
  rcases List.mem_append.1 hst with hst | hst
  · rcases List.mem_append.1 hst with hst | hst
    · simp only [List.mem_cons, List.not_mem_nil, or_false] at hst
      rcases hst with rfl | rfl | rfl | rfl | rfl
      · exact numberEntry_plain _ h.connectTimeout
      · exact numberEntry_plain _ h.timeout
      · exact numberEntry_plain _ (whole_of_lt h.lowSpeedLimit)
      · exact numberEntry_plain _ h.lowSpeedTime
      · exact numberEntry_plain _ (whole_of_lt h.maxRedirects)
    · obtain ⟨f, -, rfl⟩ := List.mem_map.1 hst
      exact textEntry_plain _ _
  · obtain ⟨p, -, hst⟩ := List.mem_flatMap.1 hst
    exact p.statements_plain st hst

theorem isWritable_of_read {s : Settings} (h : IsRead s) : s.isWritable = true := by
  simp [Settings.isWritable, h.connectTimeout, h.timeout, whole_of_lt h.lowSpeedLimit,
    h.lowSpeedTime, whole_of_lt h.maxRedirects]

theorem read_of_table {t : String} {table : List (String × Toml)} {s : Settings}
    (hparse : Toml.parse t = some table) (h : settings (membersOf table) = .ok s) :
    read t = .ok s := by
  rw [read, hparse]
  dsimp only
  rw [h]

/-- Settings that were read from a text can be written, and they are read back from what is
written. -/
theorem read_print {t : String} {s : Settings} (h : read t = .ok s) :
    ∃ t', s.print? = some t' ∧ read t' = .ok s := by
  have hread := isRead_of_read h
  have hprint : s.print? = some s.text := by
    rw [Settings.print?, if_pos (isWritable_of_read hread)]
  have hparse : Toml.parse s.text = some (Settings.table s) := by
    rw [Toml.parse, Settings.text, String.toList_ofList,
      Toml.statements?_print (statements_plain hread), Option.bind_some]
    exact ofStatements_statements s fun p hp => (hread.pins p hp).nodup
  exact ⟨s.text, hprint, read_of_table hparse (settings_table hread)⟩

/-- Settings whose strings need escapes, and whose key needs quotes. -/
theorem read_print_escaped :
    ∃ t s, read ("connect_timeout_secs=1\ntimeout_secs=2\nlow_speed_limit_bytes=3\n"
        ++ "low_speed_time_secs=4\nmax_redirects=5\ntrace_file=\"'\\u0001\\\\\"\n"
        ++ "plugin_management.resolution.\"a.b\"=''") = .ok s
      ∧ s.traceFile = some "'\x01\\" ∧ s.plugins = some ⟨[], [("a.b", "")]⟩
      ∧ s.print? = some t ∧ read t = .ok s := by
  have hread : (read ("connect_timeout_secs=1\ntimeout_secs=2\nlow_speed_limit_bytes=3\n"
      ++ "low_speed_time_secs=4\nmax_redirects=5\ntrace_file=\"'\\u0001\\\\\"\n"
      ++ "plugin_management.resolution.\"a.b\"=''")).toOption
        = some ⟨1, 2, 3, 4, 5, some "'\x01\\", some ⟨[], [("a.b", "")]⟩⟩ := by decide +kernel
  have hok : ∀ {x : Except ReadError Settings} {s}, x.toOption = some s → x = .ok s := by
    intro x s h
    cases x with
    | error e => cases h
    | ok a => exact congrArg Except.ok (Option.some.inj h)
  obtain ⟨t, hprint, hback⟩ := read_print (hok hread)
  exact ⟨t, _, hok hread, rfl, rfl, hprint, hback⟩

end TracedTransfer.Config
