/-
What header lines say of a resource, field by field.

A line bears a field if its text before the first colon is the field's
name (`Bears`). `splitHeader_eq` and `ofName?_eq_some_iff` tie the reader
of lines to that. From there on a field sees the values of its own lines
only (`values`), and the fold over the lines comes to the last of them:
`field?_foldl` is the one induction, with `field?_set` as its step. That
other lines do not count, that lines of different names may change places,
and what two lists one behind the other come to are then facts about
`values`.
-/
import TracedTransfer.Proofs.Text.Trim
import TracedTransfer.Proofs.Text.Unsigned
import TracedTransfer.Resource.Metadata

namespace TracedTransfer.Resource

open Text

-- =============================================================== lines

/-- The name of a line in lower case: what stands before its first colon, without the blanks
around it. -/
def nameOf? (line : String) : Option (List Char) :=
  (splitOnce ':' line.toList).map fun q => (trim q.1).map Char.toLower

/-- A line bears a field with a value. -/
def Bears (f : HeaderField) (line : String) (v : List Char) : Prop :=
  ∃ before after, line.toList = before ++ ':' :: after ∧ ':' ∉ before
    ∧ equalIgnoringCase (trim before) f.name = true ∧ v = trim after

/-- A line decides a field: it bears it, and not with an empty checksum. -/
def Decides (f : HeaderField) (line : String) (v : List Char) : Prop :=
  Bears f line v ∧ (f = .sha1 → v ≠ [])

/-- A line bears no field: it has no colon, or another name. -/
def IsIdle (line : String) : Prop :=
  ':' ∉ line.toList ∨ ∃ before after, line.toList = before ++ ':' :: after ∧ ':' ∉ before
    ∧ ∀ f : HeaderField, equalIgnoringCase (trim before) f.name = false

theorem splitHeader_eq (line : List Char) :
    splitHeader line = (splitOnce ':' line).map fun q => (trim q.1, trim q.2) :=
  splitOnce_trim (by decide) line

theorem HeaderField.name_injective {f g : HeaderField}
    (h : f.name.map Char.toLower = g.name.map Char.toLower) : f = g := by
  cases f <;> cases g <;> first | rfl | exact absurd h (by decide)

/-- No two fields have one name. -/
theorem HeaderField.ofName?_eq_some_iff {s : List Char} {f : HeaderField} :
    ofName? s = some f ↔ equalIgnoringCase s f.name = true := by
  constructor
  · intro h
    exact List.find?_some (p := fun g : HeaderField => equalIgnoringCase s g.name) h
  · intro h
    have hmem : f ∈ all := by cases f <;> decide
    have hfound : (all.find? fun g => equalIgnoringCase s g.name).isSome = true :=
      List.find?_isSome.2 ⟨f, hmem, h⟩
    obtain ⟨g, hg⟩ := Option.isSome_iff_exists.1 hfound
    have hname : equalIgnoringCase s g.name = true :=
      List.find?_some (p := fun g : HeaderField => equalIgnoringCase s g.name) hg
    have hsame : f = g := name_injective ((beq_iff_eq.1 h).symm.trans (beq_iff_eq.1 hname))
    rw [ofName?, hg, hsame]

/-- A line is read as a field and its value exactly if it bears them. -/
theorem headerOf_eq_some_iff {line : String} {f : HeaderField} {v : List Char} :
    headerOf line = some (f, v) ↔ Bears f line v := by
  rw [headerOf, splitHeader_eq]
  by_cases hcolon : ':' ∈ line.toList
  · obtain ⟨before, after, hline, hbefore⟩ := List.eq_append_cons_of_mem hcolon
    rw [hline, splitOnce_append hbefore]
    show ((HeaderField.ofName? (trim before)).map fun g => (g, trim after)) = _ ↔ _
    simp only [Option.map_eq_some_iff, Prod.mk.injEq]
    constructor
    · rintro ⟨g, hg, rfl, rfl⟩
      exact ⟨before, after, hline, hbefore, HeaderField.ofName?_eq_some_iff.1 hg, rfl⟩
    · rintro ⟨before', after', hline', hbefore', hname, rfl⟩
      -- There is but one first colon.
      have hsplit := splitOnce_append hbefore' after'
      rw [← hline', hline, splitOnce_append hbefore] at hsplit
      cases hsplit
      exact ⟨f, HeaderField.ofName?_eq_some_iff.2 hname, rfl, rfl⟩
  · rw [splitOnce_eq_none hcolon]
    refine iff_of_false (by simp) ?_
    rintro ⟨before, after, hline, -⟩
    exact hcolon (by simp [hline])

/-- A line that bears no field is read as none. -/
theorem headerOf_of_isIdle {line : String} (h : IsIdle line) : headerOf line = none := by
  rw [Option.eq_none_iff_forall_ne_some]
  rintro ⟨f, v⟩ hf
  obtain ⟨before, after, hline, hbefore, hname, -⟩ := headerOf_eq_some_iff.1 hf
  rcases h with hcolon | ⟨before', after', hline', hbefore', hother⟩
  · exact hcolon (by simp [hline])
  · have hsplit := splitOnce_append hbefore' after'
    rw [← hline', hline, splitOnce_append hbefore] at hsplit
    cases hsplit
    rw [hother f] at hname
    cases hname

/-- Status lines bear no field, whatever they say. -/
theorem isIdle_status (rest : List Char) :
    IsIdle (String.ofList ("HTTP/".toList ++ rest)) := by
  rw [IsIdle, String.toList_ofList]
  by_cases hcolon : ':' ∈ rest
  · obtain ⟨before, after, rfl, hbefore⟩ := List.eq_append_cons_of_mem hcolon
    refine .inr ⟨"HTTP/".toList ++ before, after, (List.append_assoc ..).symm, ?_, fun f => ?_⟩
    · exact fun hmem => (List.mem_append.1 hmem).elim (by decide) hbefore
    · obtain ⟨name, hname⟩ : ∃ name, trim ("HTTP/".toList ++ before) = 'H' :: name :=
        ⟨_, trim_cons (by rfl) _⟩
      rw [hname]
      cases f <;> rfl
  · exact .inl fun hmem => (List.mem_append.1 hmem).elim (by decide) hcolon

-- ============================================================== values

/-- What a line decides a field with. -/
def valueIn? (f : HeaderField) (line : String) : Option (List Char) :=
  (headerOf line).bind fun (g, v) => if g = f ∧ ¬ (f = .sha1 ∧ v = []) then some v else none

/-- The value of a field in one line is the one that the line decides. -/
theorem valueIn?_eq_some_iff {f : HeaderField} {line : String} {v : List Char} :
    valueIn? f line = some v ↔ Decides f line v := by
  rw [valueIn?, Option.bind_eq_some_iff, Decides, ← headerOf_eq_some_iff]
  constructor
  · rintro ⟨⟨g, w⟩, hline, hv⟩
    dsimp only at hv
    split at hv
    · rename_i hdecides
      obtain ⟨rfl, hempty⟩ := hdecides
      cases hv
      exact ⟨hline, fun hsha hv => hempty ⟨hsha, hv⟩⟩
    · cases hv
  · rintro ⟨hline, hempty⟩
    exact ⟨(f, v), hline, if_pos ⟨rfl, fun h => hempty h.1 h.2⟩⟩

/-- The values that lines decide a field with, in order. -/
def values (f : HeaderField) (lines : List String) : List (List Char) :=
  lines.filterMap (valueIn? f)

/-- The last line that decides a field does so with a value. -/
def IsLast (f : HeaderField) (lines : List String) (v : List Char) : Prop :=
  ∃ before line after, lines = before ++ line :: after ∧ Decides f line v
    ∧ ∀ l ∈ after, ∀ w, ¬ Decides f l w

/-- A line that decides no value has none. -/
theorem valueIn?_eq_none_iff {f : HeaderField} {line : String} :
    valueIn? f line = none ↔ ∀ v, ¬ Decides f line v := by
  rw [Option.eq_none_iff_forall_ne_some]
  exact forall_congr' fun v => not_congr valueIn?_eq_some_iff

theorem values_eq_nil_iff {f : HeaderField} {lines : List String} :
    values f lines = [] ↔ ∀ line ∈ lines, ∀ v, ¬ Decides f line v := by
  rw [values, List.filterMap_eq_nil_iff]
  exact forall₂_congr fun line _ => valueIn?_eq_none_iff

theorem values_append (f : HeaderField) (xs ys : List String) :
    values f (xs ++ ys) = values f xs ++ values f ys := List.filterMap_append

theorem values_concat (f : HeaderField) (lines : List String) (line : String) :
    values f (lines ++ [line]) = values f lines ++ (valueIn? f line).toList := by
  rw [values_append, values, values, List.filterMap_cons]
  cases valueIn? f line <;> rfl

/-- The last value is that of the last line that decides the field. -/
theorem getLast?_values_iff {f : HeaderField} {lines : List String} {v : List Char} :
    (values f lines).getLast? = some v ↔ IsLast f lines v := by
  constructor
  · -- From the end: the last line decides the field, or it does not count.
    intro h
    induction lines using List.reverseRecOn with
    | nil => cases h
    | append_singleton lines line ih =>
        rw [values_concat] at h
        cases hline : valueIn? f line with
        | some w =>
            rw [hline, Option.toList_some, List.getLast?_concat] at h
            cases h
            exact ⟨lines, line, [], rfl, valueIn?_eq_some_iff.1 hline, fun l hl => nomatch hl⟩
        | none =>
            rw [hline, Option.toList_none, List.append_nil] at h
            obtain ⟨before, l, after, rfl, hl, hafter⟩ := ih h
            refine ⟨before, l, after ++ [line], by simp, hl, ?_⟩
            refine List.forall_mem_append.2 ⟨hafter, List.forall_mem_singleton.2 ?_⟩
            exact valueIn?_eq_none_iff.1 hline
  · rintro ⟨before, line, after, rfl, hline, hafter⟩
    rw [List.append_cons, values_append, values_eq_nil_iff.2 hafter, List.append_nil, values_concat,
      valueIn?_eq_some_iff.2 hline, Option.toList_some, List.getLast?_concat]

-- ============================================================== fields

/-- A field of metadata: a length or a text. -/
inductive FieldValue where
  | length (n : Nat)
  | text (s : String)
deriving DecidableEq, Repr

namespace Metadata

/-- What metadata say of a field. -/
def field? (m : Metadata) : HeaderField → Option FieldValue
  | .contentLength => m.contentLength.map .length
  | .lastModified => m.lastModified.map .text
  | .contentType => m.contentType.map .text
  | .etag => m.etag.map .text
  | .sha1 => m.sha1.map .text

/-- Metadata are known from their location and fields. -/
theorem ext_field? {m m' : Metadata} (hlocation : m.location = m'.location)
    (h : ∀ f, m.field? f = m'.field? f) : m = m' := by
  have hlength : Function.Injective FieldValue.length := fun _ _ => FieldValue.length.inj
  have htext : Function.Injective FieldValue.text := fun _ _ => FieldValue.text.inj
  have h₁ := Option.map_injective hlength (h .contentLength)
  have h₂ := Option.map_injective htext (h .lastModified)
  have h₃ := Option.map_injective htext (h .contentType)
  have h₄ := Option.map_injective htext (h .etag)
  have h₅ := Option.map_injective htext (h .sha1)
  cases m
  cases m'
  simp_all

end Metadata

/-- What a value says of a field. -/
def HeaderField.reading : HeaderField → List Char → Option FieldValue
  | .contentLength, v => (unsigned? u64Bound v).map .length
  | .lastModified, v | .contentType, v => some (.text (String.ofList v))
  | .etag, v => some (.text (String.ofList (bareTag v)))
  | .sha1, v => some (.text (String.ofList (v.map Char.toLower)))

namespace Metadata

/-- A value that is set is read in its own field, unless it is an empty digest; the other fields
stay. -/
theorem field?_set (m : Metadata) (f g : HeaderField) (v : List Char) :
    (m.set g v).field? f
      = if g = f ∧ ¬ (f = .sha1 ∧ v = []) then f.reading v else m.field? f := by
  cases g with
  | sha1 =>
      rw [set]
      by_cases hv : v = []
      · subst hv
        cases f <;> rfl
      · rw [if_neg (by simpa using hv)]
        cases f <;> simp [field?, HeaderField.reading, hv]
  | contentLength | lastModified | contentType | etag => cases f <;> rfl

/-- What one line does to a field: what it decides it with, or nothing. -/
theorem field?_addLine (m : Metadata) (f : HeaderField) (line : String) :
    (m.addLine line).field? f = match valueIn? f line with
      | some v => f.reading v
      | none => m.field? f := by
  rw [addLine, valueIn?]
  cases headerOf line with
  | none => rfl
  | some header =>
      obtain ⟨g, v⟩ := header
      rw [field?_set, Option.bind_some]
      dsimp only
      by_cases hdecides : g = f ∧ ¬ (f = .sha1 ∧ v = [])
      · rw [if_pos hdecides, if_pos hdecides]
      · rw [if_neg hdecides, if_neg hdecides]

/-- After some lines a field has the reading of its last value, or what it had before. The
induction is on the lines from their end. -/
theorem field?_foldl (m : Metadata) (f : HeaderField) (lines : List String) :
    (lines.foldl addLine m).field? f = match (values f lines).getLast? with
      | some v => f.reading v
      | none => m.field? f := by
  induction lines using List.reverseRecOn with
  | nil => rfl
  | append_singleton lines line ih =>
      rw [List.foldl_append, List.foldl_cons, List.foldl_nil, field?_addLine, values_concat]
      cases valueIn? f line with
      | some v =>
          rw [Option.toList_some, List.getLast?_concat]
      | none =>
          rw [Option.toList_none, List.append_nil]
          exact ih

/-- Metadata of headers start with no fields, so only lines count. -/
theorem field?_ofHeaders (u : Url) (lines : List String) (f : HeaderField) :
    (ofHeaders u lines).field? f = ((values f lines).getLast?).bind f.reading := by
  rw [ofHeaders, field?_foldl]
  cases (values f lines).getLast? with
  | some v => rfl
  | none => cases f <;> rfl

/-- A field reads as something exactly if the last line that decides it does. -/
theorem field?_ofHeaders_iff {u : Url} {lines : List String} {f : HeaderField} {x : FieldValue} :
    (ofHeaders u lines).field? f = some x ↔ ∃ v, IsLast f lines v ∧ f.reading v = some x := by
  rw [field?_ofHeaders, Option.bind_eq_some_iff]
  exact exists_congr fun v => and_congr_left' getLast?_values_iff

/-- No line moves the location, -/
theorem addLine_location (m : Metadata) (line : String) :
    (m.addLine line).location = m.location := by
  rw [addLine]
  cases headerOf line with
  | none => rfl
  | some header =>
      obtain ⟨f, v⟩ := header
      cases f with
      | sha1 =>
          show (if v.isEmpty then m else _).location = m.location
          split <;> rfl
      | contentLength | lastModified | contentType | etag => rfl

/-- so it is the one that was asked. -/
theorem ofHeaders_location (u : Url) (lines : List String) :
    (ofHeaders u lines).location = u := by
  rw [ofHeaders]
  induction lines using List.reverseRecOn with
  | nil => rfl
  | append_singleton lines line ih =>
      rw [List.foldl_append, List.foldl_cons, List.foldl_nil, addLine_location, ih]

/-- Lines with the same values for every field give the same metadata. -/
theorem ofHeaders_eq_of_values (u : Url) {xs ys : List String}
    (h : ∀ f, values f xs = values f ys) : ofHeaders u xs = ofHeaders u ys := by
  refine ext_field? ?_ fun f => ?_
  · rw [ofHeaders_location, ofHeaders_location]
  · rw [field?_ofHeaders, field?_ofHeaders, h f]

end Metadata

theorem values_idle {line : String} (h : IsIdle line) (f : HeaderField) (xs ys : List String) :
    values f (xs ++ line :: ys) = values f (xs ++ ys) := by
  have hnone : valueIn? f line = none := by rw [valueIn?, headerOf_of_isIdle h, Option.bind_none]
  rw [List.append_cons, values_append, values_concat, hnone, Option.toList_none, List.append_nil,
    values_append]

theorem nameOf?_of_bears {f : HeaderField} {line : String} {v : List Char} (h : Bears f line v) :
    nameOf? line = some f.name := by
  obtain ⟨before, after, hline, hbefore, hname, -⟩ := h
  have hlower : f.name.map Char.toLower = f.name := by cases f <;> rfl
  rw [nameOf?, hline, splitOnce_append hbefore, Option.map_some, beq_iff_eq.1 hname, hlower]

/-- Of the lines only those with the name of a field count for it. -/
theorem values_filter (f : HeaderField) (lines : List String) :
    values f (lines.filter fun line => nameOf? line = some f.name) = values f lines := by
  rw [values, List.filterMap_filter, values]
  congr 1
  funext line
  split
  · rfl
  · rename_i hname
    refine (valueIn?_eq_none_iff.2 fun v hv => hname ?_).symm
    exact decide_eq_true (nameOf?_of_bears hv.1)

-- ======================================================== what is decided

/-- A tag is what an entity tag has between its quotes, behind a mark of weakness or none. -/
def IsTag (v t : List Char) : Prop :=
  ∃ w, (v = 'W' :: '/' :: w ∨ w = v ∧ ¬ ['W', '/'] <+: v) ∧ IsTrimmed (· = '"') w t

/-- A tag is bare without the quotes around it and the mark of a weak one. -/
theorem isTag_bareTag (v t : List Char) : bareTag v = t ↔ IsTag v t := by
  rw [bareTag, trimMatches_eq_iff, IsTag]
  cases hstrip : stripStart? ['W', '/'] v with
  | some w =>
      obtain rfl : v = 'W' :: '/' :: w := eq_append_of_stripStart? hstrip
      rw [Option.getD_some]
      refine ⟨fun h => ⟨w, .inl rfl, h⟩, ?_⟩
      rintro ⟨w', heq | ⟨-, hnot⟩, h⟩
      · cases heq
        exact h
      · exact absurd ⟨w, rfl⟩ hnot
  | none =>
      have hnot : ¬ ['W', '/'] <+: v := by
        rintro ⟨w, rfl⟩
        rw [stripStart?_append] at hstrip
        cases hstrip
      rw [Option.getD_none]
      refine ⟨fun h => ⟨v, .inr ⟨rfl, hnot⟩, h⟩, ?_⟩
      rintro ⟨w, rfl | ⟨rfl, -⟩, h⟩
      · exact absurd ⟨w, rfl⟩ hnot
      · exact h

/-- Each field is what the last line says that decides it; without one there is none. -/
structure Metadata.IsDecidedBy (m : Metadata) (lines : List String) : Prop where
  /-- The length is known if the last line for it has a number of 64 bits. -/
  contentLength : ∀ n, m.contentLength = some n
    ↔ ∃ v, IsLast .contentLength lines v ∧ Denotes v n ∧ n < 2 ^ 64
  /-- The date is the text of the last line for it, whatever it says, -/
  lastModified : ∀ t, m.lastModified = some t ↔ IsLast .lastModified lines t.toList
  /-- and so is the type. -/
  contentType : ∀ t, m.contentType = some t ↔ IsLast .contentType lines t.toList
  /-- A tag is bare: without quotes, and without the mark of a weak one. -/
  etag : ∀ t, m.etag = some t ↔ ∃ v, IsLast .etag lines v ∧ IsTag v t.toList
  /-- A checksum is in lower case. -/
  sha1 : ∀ t, m.sha1 = some t ↔ ∃ v, IsLast .sha1 lines v ∧ t.toList = v.map Char.toLower

/-- Headers decide each field by the last line that bears it. -/
theorem isDecidedBy_ofHeaders (u : Url) (lines : List String) :
    (Metadata.ofHeaders u lines).IsDecidedBy lines := by
  have hfield {f : HeaderField} {x : FieldValue} : (Metadata.ofHeaders u lines).field? f = some x
      ↔ ∃ v, IsLast f lines v ∧ f.reading v = some x := Metadata.field?_ofHeaders_iff
  -- A text is one if its characters are.
  have htext : ∀ {s : List Char} {t : String}, some (FieldValue.text (String.ofList s))
      = some (.text t) ↔ s = t.toList := by
    intro s t
    rw [Option.some.injEq, FieldValue.text.injEq]
    exact ⟨fun h => by rw [← h, String.toList_ofList], fun h => by rw [h, String.ofList_toList]⟩
  constructor
  case contentLength =>
    intro n
    have hlength : ∀ v, (HeaderField.contentLength.reading v = some (.length n))
        ↔ Denotes v n ∧ n < 2 ^ 64 := by
      intro v
      rw [← unsigned?_eq_some_iff]
      show (unsigned? (2 ^ 64) v).map FieldValue.length = some (.length n) ↔ _
      simp
    simpa [Metadata.field?, hlength] using hfield (f := .contentLength) (x := .length n)
  case lastModified =>
    intro t
    simpa [Metadata.field?, HeaderField.reading, htext] using
      hfield (f := .lastModified) (x := .text t)
  case contentType =>
    intro t
    simpa [Metadata.field?, HeaderField.reading, htext] using
      hfield (f := .contentType) (x := .text t)
  case etag =>
    intro t
    simpa [Metadata.field?, HeaderField.reading, htext, isTag_bareTag] using
      hfield (f := .etag) (x := .text t)
  case sha1 =>
    intro t
    simpa [Metadata.field?, HeaderField.reading, htext, eq_comm] using
      hfield (f := .sha1) (x := .text t)

/-- Two lists of lines with the same lines of every name in the same order: what one has between
the lines of a name, and what it has without a name, does not count. -/
def SameByName (xs ys : List String) : Prop :=
  ∀ n, (xs.filter fun line => nameOf? line = some n) = ys.filter fun line => nameOf? line = some n

/-- Header fields do not meet, and of each the last line wins. -/
theorem ofHeaders_last_wins (u : Url) :
    (∀ lines, (Metadata.ofHeaders u lines).IsDecidedBy lines)
      ∧ (∀ xs line ys, IsIdle line →
        Metadata.ofHeaders u (xs ++ line :: ys) = Metadata.ofHeaders u (xs ++ ys))
      ∧ (∀ rest, IsIdle (String.ofList ("HTTP/".toList ++ rest)))
      ∧ (∀ xs ys, SameByName xs ys → Metadata.ofHeaders u xs = Metadata.ofHeaders u ys)
      ∧ ∀ xs ys f,
        ((∃ line ∈ ys, ∃ v, Decides f line v) →
          (Metadata.ofHeaders u (xs ++ ys)).field? f = (Metadata.ofHeaders u ys).field? f)
        ∧ ((¬ ∃ line ∈ ys, ∃ v, Decides f line v) →
          (Metadata.ofHeaders u (xs ++ ys)).field? f = (Metadata.ofHeaders u xs).field? f) := by
  refine ⟨isDecidedBy_ofHeaders u, ?_, isIdle_status, ?_, ?_⟩
  · exact fun xs line ys hidle =>
      Metadata.ofHeaders_eq_of_values u fun f => values_idle hidle f xs ys
  · intro xs ys hsame
    refine Metadata.ofHeaders_eq_of_values u fun f => ?_
    rw [← values_filter f xs, hsame f.name, values_filter]
  · intro xs ys f
    rw [Metadata.field?_ofHeaders, Metadata.field?_ofHeaders, Metadata.field?_ofHeaders,
      values_append, List.getLast?_append]
    constructor
    · rintro ⟨line, hline, v, hv⟩
      have hne : values f ys ≠ [] := fun hnil => values_eq_nil_iff.1 hnil line hline v hv
      rw [List.getLast?_eq_some_getLast hne, Option.some_or]
    · intro hnone
      have hnil : values f ys = [] :=
        values_eq_nil_iff.2 fun line hline v hv => hnone ⟨line, hline, v, hv⟩
      rw [hnil, List.getLast?_nil, Option.none_or]

/-- A length that cannot be read, behind one that can; a status line with a field in its reason
phrase; and an empty checksum, which does not count. -/
theorem ofHeaders_last_wins_malformed :
    let u : Url := ⟨"file".toList, some .empty, "/a".toList, none, none⟩
    let front := [" Content-Length : 12", "ETag:\"a\""]
    let status := String.ofList ("HTTP/".toList ++ "1.1 200 ETag: c".toList)
    let back := ["CONTENT-LENGTH: +x", "X-Checksum-Sha1: 0A", "etag: W/\"\"b\"",
      "x-checksum-sha1:"]
    Metadata.ofHeaders u (front ++ status :: back) = ⟨u, none, none, none, some "b", some "0a"⟩
      ∧ Metadata.ofHeaders u (front ++ status :: back) = Metadata.ofHeaders u (front ++ back)
      ∧ (Metadata.ofHeaders u (front ++ back)).IsDecidedBy (front ++ back) := by
  intro u front status back
  have hwins := ofHeaders_last_wins u
  exact ⟨by decide +kernel, hwins.2.1 front status back (hwins.2.2.1 _), hwins.1 _⟩

end TracedTransfer.Resource
