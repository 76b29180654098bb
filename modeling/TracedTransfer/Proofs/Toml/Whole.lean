/-
The whole numbers of a document have sixty-four bits.

A whole number is read only if it has (`readInteger_whole`), and a value
gets to the top of a document by a statement alone: what is done at the
end of a longer path leaves the values above it as they are
(`updateAt_value`), and closing or opening a table puts tables there, not
values. So along the statements the numbers at the top of the draft have
sixty-four bits (`Draft.IsWhole.add`), and at the end those of the document
(`parse_whole`).
-/
import TracedTransfer.Toml.Reader

namespace TracedTransfer.Toml

open Text

variable {s rest : List Char} {n : Int}

theorem isWhole_iff : isWhole n = true ↔ -9223372036854775808 ≤ n ∧ n < 9223372036854775808 := by
  simp [isWhole]

-- ============================================================== reading

/-- The reader checks each integer before it gives it, -/
theorem whole_of_checked {m : Int} {r : List Char}
    (h : (if isWhole m then some (m, r) else none) = some (n, rest)) : isWhole n = true := by
  by_cases hm : isWhole m = true
  · rw [if_pos hm] at h
    cases h
    exact hm
  · rw [if_neg hm] at h
    cases h

/-- be it written in another base -/
theorem readBased_whole {base : Nat} (h : readBased base s = some (n, rest)) :
    isWhole n = true := by
  unfold readBased at h
  simp only [Option.bind_eq_bind, Option.bind_eq_some_iff] at h
  obtain ⟨⟨ds, r⟩, -, k, -, h⟩ := h
  exact whole_of_checked h

/-- or in decimals; -/
theorem readInteger_whole (h : readInteger s = some (n, rest)) : isWhole n = true := by
  unfold readInteger at h
  split at h
  · exact readBased_whole h
  · exact readBased_whole h
  · exact readBased_whole h
  · simp only [Option.bind_eq_bind, Option.bind_eq_some_iff] at h
    obtain ⟨⟨ds, r⟩, -, k, -, h⟩ := h
    exact whole_of_checked h

/-- so a number that is an integer is one of those, -/
theorem readNumber_whole (h : readNumber s = some (.integer n, rest)) : isWhole n = true := by
  unfold readNumber at h
  split at h
  · cases h
  · split at h
    · cases h
    · obtain ⟨⟨k, r⟩, hread, heq⟩ := Option.map_eq_some_iff.1 h
      cases heq
      exact readInteger_whole hread

/-- and so is any other value that is one. -/
theorem readScalar_whole (h : readScalar s = some (.integer n, rest)) : isWhole n = true := by
  unfold readScalar at h
  split at h
  · cases h
  · split at h
    · obtain ⟨p, -, heq⟩ := Option.map_eq_some_iff.1 h
      cases heq
    · split at h
      · obtain ⟨p, -, heq⟩ := Option.map_eq_some_iff.1 h
        cases heq
      · split at h
        · obtain ⟨p, -, heq⟩ := Option.map_eq_some_iff.1 h
          cases heq
        · exact readNumber_whole h

/-- Lists and tables are no numbers, and any other value is read by itself. -/
theorem readValue_whole {fuel depth : Nat} (h : readValue fuel depth s = some (.integer n, rest)) :
    isWhole n = true := by
  cases fuel with
  | zero => cases h
  | succ fuel =>
      unfold readValue at h
      split at h
      · split at h
        · cases h
        · obtain ⟨p, -, heq⟩ := Option.map_eq_some_iff.1 h
          cases heq
      · split at h
        · cases h
        · split at h
          · cases h
          · simp only [Option.bind_eq_bind, Option.bind_eq_some_iff] at h
            obtain ⟨⟨es, r⟩, -, v, hv, heq⟩ := h
            obtain ⟨fs, -, rfl⟩ := Option.map_eq_some_iff.1 hv
            cases heq
      · exact readScalar_whole h

/-- The number of a statement, if it has one, has sixty-four bits. -/
def Statement.IsWhole : Statement → Prop
  | .entry _ _ (.integer n) => Toml.isWhole n = true
  | _ => True

/-- A statement that is read has no other integers. -/
theorem readStatement_whole {st : Statement} (h : readStatement s = some (st, rest)) :
    st.IsWhole := by
  cases st with
  | table => trivial
  | element => trivial
  | entry path key v =>
      cases v with
      | string | float | boolean | datetime | array | table => trivial
      | integer n =>
          unfold readStatement at h
          split at h
          · simp only [Option.bind_eq_bind, Option.bind_eq_some_iff] at h
            obtain ⟨p, -, q, -, r, -, heq⟩ := h
            cases heq
          · simp only [Option.bind_eq_bind, Option.bind_eq_some_iff] at h
            obtain ⟨p, -, q, -, r, -, heq⟩ := h
            cases heq
          · simp only [Option.bind_eq_bind, Option.bind_eq_some_iff] at h
            obtain ⟨p, -, q, -, ⟨v, r⟩, hread, u, -, heq⟩ := h
            cases heq
            exact readValue_whole hread

/-- The induction over a text: statements are put in front of those that
were read. -/
theorem readStatements_whole (fuel : Nat) (acc : List Statement)
    (hacc : ∀ st ∈ acc, st.IsWhole) {ss : List Statement}
    (h : readStatements fuel acc s = some ss) : ∀ st ∈ ss, st.IsWhole := by
  induction fuel generalizing acc s with
  | zero => cases h
  | succ fuel ih =>
      rw [readStatements] at h
      split at h
      · cases h
        exact fun st hst => hacc st (List.mem_reverse.1 hst)
      · split at h
        · exact ih acc hacc h
        · split at h
          · rename_i st rest hread
            refine ih (st :: acc) (fun st' hst' => ?_) h
            rcases List.mem_cons.1 hst' with rfl | hst'
            · exact readStatement_whole hread
            · exact hacc st' hst'
          · cases h

-- ============================================================== drafts

/-- The numbers among entries have sixty-four bits; tables do not count. -/
def Entries.IsWhole (es : Entries) : Prop :=
  ∀ k n, (k, Node.value (.integer n)) ∈ es → Toml.isWhole n = true

variable {es es' : Entries} {key : String}

/-- What replaces a table is no integer, so integers of the others are there
as before. -/
theorem mem_replace {m : Node} (hm : ∀ v, m ≠ .value v) {k : String} {v : Toml}
    (h : (k, .value v) ∈ Entries.replace es key m) : (k, .value v) ∈ es := by
  obtain ⟨e, he, heq⟩ := List.mem_map.1 h
  split at heq
  · cases heq
    exact absurd rfl (hm v)
  · rw [← heq]
    exact he

/-- At the end of a longer path nothing is done to the values that stand above it. -/
theorem updateAt_value {α : Type} {isDotted d : Bool} {f : Bool → Entries → Option (α × Entries)}
    {path : List String} {a : α} (h : Entries.updateAt isDotted f path d es = some (a, es'))
    {k : String} {v : Toml} (hmem : (k, .value v) ∈ es') :
    (k, .value v) ∈ es ∨ path = [] ∧ f d es = some (a, es') := by
  cases path with
  | nil => exact .inr ⟨rfl, by simpa [Entries.updateAt] using h⟩
  | cons p path =>
      refine .inl ?_
      rw [Entries.updateAt] at h
      split at h
      · simp only [Option.bind_eq_bind, Option.bind_eq_some_iff] at h
        obtain ⟨q, -, heq⟩ := h
        cases heq
        simpa using hmem
      · cases h
      · split at h
        · cases h
        · simp only [Option.bind_eq_bind, Option.bind_eq_some_iff] at h
          obtain ⟨q, -, heq⟩ := h
          cases heq
          exact mem_replace (fun _ => Node.noConfusion) hmem
      · split at h
        · cases h
        · simp only [Option.bind_eq_bind, Option.bind_eq_some_iff] at h
          obtain ⟨q, -, heq⟩ := h
          cases heq
          exact mem_replace (fun _ => Node.noConfusion) hmem

/-- What puts no values at the end of a path puts none above it. -/
theorem Entries.IsWhole.updateAt {α : Type} {isDotted d : Bool}
    {f : Bool → Entries → Option (α × Entries)} {path : List String} {a : α} (hes : es.IsWhole)
    (hf : ∀ d fs a fs', f d fs = some (a, fs') → ∀ k v, (k, .value v) ∈ fs' → (k, .value v) ∈ fs)
    (h : Entries.updateAt isDotted f path d es = some (a, es')) : es'.IsWhole := by
  intro k n hmem
  rcases updateAt_value h hmem with hold | ⟨-, hnew⟩
  · exact hes k n hold
  · exact hes k n (hf _ _ _ _ hnew _ _ hmem)

/-- To put a whole value among whole entries keeps them whole. -/
theorem Entries.IsWhole.put {path : List String} {v : Toml} (hes : es.IsWhole)
    (hv : (Statement.entry path key v).IsWhole) (h : Entries.put path key v es = some es') :
    es'.IsWhole := by
  obtain ⟨⟨u, fs⟩, hupdate, rfl⟩ := Option.map_eq_some_iff.1 h
  intro k n hmem
  rcases updateAt_value hupdate hmem with hold | ⟨-, hnew⟩
  · exact hes k n hold
  · split at hnew
    · cases hnew
    · cases hnew
      rcases List.mem_append.1 hmem with hold | hlast
      · exact hes k n hold
      · rw [List.mem_singleton] at hlast
        cases hlast
        exact hv

/-- The numbers at the top of a draft have sixty-four bits. -/
def Draft.IsWhole (d : Draft) : Prop :=
  d.closed.IsWhole ∧ (d.place = none → d.current.IsWhole)

/-- To close a table keeps a draft whole, -/
theorem Draft.IsWhole.close {d : Draft} (hd : d.IsWhole) (h : d.close = some es) :
    es.IsWhole := by
  unfold Draft.close at h
  split at h
  · rename_i hplace
    cases h
    exact hd.2 hplace
  · obtain ⟨⟨u, fs⟩, hupdate, rfl⟩ := Option.map_eq_some_iff.1 h
    refine hd.1.updateAt (fun _ gs _ gs' hf k v hmem => ?_) hupdate
    dsimp only at hf
    split at hf
    · cases hf
      rcases List.mem_append.1 hmem with hmem | hmem
      · exact hmem
      · rw [List.mem_singleton] at hmem
        split at hmem <;> cases hmem
    · split at hf
      · cases hf
        exact mem_replace (fun _ => Node.noConfusion) hmem
      · cases hf
    · cases hf

/-- so to take a statement in does, -/
theorem Draft.IsWhole.add {d d' : Draft} (hd : d.IsWhole) {st : Statement} (hst : st.IsWhole)
    (h : d.add st = some d') : d'.IsWhole := by
  cases st with
  | entry path key v =>
      obtain ⟨fs, hput, rfl⟩ := Option.map_eq_some_iff.1 h
      exact ⟨hd.1, fun hplace => (hd.2 hplace).put hst hput⟩
  | table path key =>
      simp only [Draft.add, Draft.openTable, Option.bind_eq_bind, Option.bind_eq_some_iff] at h
      obtain ⟨closed, hclose, ⟨current, closed'⟩, hupdate, heq⟩ := h
      cases heq
      -- The place that a header opens loses its entries to the draft or keeps them; it gets no
      -- new one.
      refine ⟨(hd.close hclose).updateAt (fun _ gs _ gs' hf k v hmem => ?_) hupdate,
        fun hplace => by cases hplace⟩
      split at hf
      · cases hf
        exact hmem
      · cases hf
        exact (List.mem_filter.1 hmem).1
      · cases hf
  | element path key =>
      simp only [Draft.add, Draft.openElement, Option.bind_eq_bind, Option.bind_eq_some_iff] at h
      obtain ⟨closed, hclose, ⟨u, closed'⟩, hupdate, heq⟩ := h
      cases heq
      refine ⟨(hd.close hclose).updateAt (fun _ gs _ gs' hf k v hmem => ?_) hupdate,
        fun hplace => by cases hplace⟩
      split at hf
      · cases hf
        rcases List.mem_append.1 hmem with hmem | hmem
        · exact hmem
        · rw [List.mem_singleton] at hmem
          cases hmem
      · cases hf
        exact hmem
      · cases hf

/-- and all of them one after another. -/
theorem Draft.IsWhole.run {d d' : Draft} (hd : d.IsWhole) {ss : List Statement}
    (hss : ∀ st ∈ ss, st.IsWhole) (h : ss.foldlM Draft.add d = some d') : d'.IsWhole := by
  induction ss generalizing d with
  | nil =>
      cases h
      exact hd
  | cons st ss ih =>
      rw [List.foldlM_cons] at h
      obtain ⟨d₁, hadd, hrest⟩ := Option.bind_eq_some_iff.1 h
      exact ih (hd.add (hss st (List.mem_cons_self ..)) hadd)
        (fun st' hst' => hss st' (List.mem_cons_of_mem _ hst')) hrest

-- ============================================================ documents

/-- The integers of a table are those of its entries. -/
theorem mem_entriesOf {k : String} (h : (k, Toml.integer n) ∈ entriesOf es) :
    (k, Node.value (.integer n)) ∈ es := by
  induction es with
  | nil => cases h
  | cons e es ih =>
      obtain ⟨k', m⟩ := e
      rw [entriesOf] at h
      rcases List.mem_cons.1 h with heq | h
      · cases m with
        | value v =>
            rw [Node.toValue] at heq
            cases heq
            exact List.mem_cons_self ..
        | table => simp [Node.toValue] at heq
        | elements => simp [Node.toValue] at heq
      · exact List.mem_cons_of_mem _ (ih h)

/-- The whole numbers at the top of a document have sixty-four bits. -/
theorem parse_whole {t : String} {table : List (String × Toml)} (h : parse t = some table)
    {k : String} (hmem : (k, .integer n) ∈ table) : isWhole n = true := by
  obtain ⟨ss, hread, hbuild⟩ := Option.bind_eq_some_iff.1 h
  simp only [ofStatements, Option.bind_eq_bind, Option.bind_eq_some_iff] at hbuild
  obtain ⟨d, hrun, es, hclose, heq⟩ := hbuild
  cases heq
  have hempty : Draft.empty.IsWhole :=
    ⟨fun _ _ hmem => (List.not_mem_nil hmem).elim, fun _ _ _ hmem => (List.not_mem_nil hmem).elim⟩
  have hss := readStatements_whole _ [] (fun _ hst => (List.not_mem_nil hst).elim) hread
  exact (hempty.run hss hrun).close hclose _ _ (mem_entriesOf hmem)

end TracedTransfer.Toml
