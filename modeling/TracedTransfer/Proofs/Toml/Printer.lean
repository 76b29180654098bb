/-
Statements of TOML are read back from the lines they are printed on.

Keys are read part by part (`readKeyParts_text`), and a value ends where
its line does. A statement is plain if its key is not too long and its
value is one that settings have: a string, a whole number or an array of
nothing. `statements?_print` is the whole: what is printed of plain
statements is read as these statements, by induction on them.
-/
import TracedTransfer.Proofs.Text.Letter
import TracedTransfer.Proofs.Toml.Quoted

namespace TracedTransfer.Toml

open Text

variable {c : Char} {s rest : List Char}

-- ================================================================ keys

/-- A character of ASCII that starts a word of a line. -/
def StartsWord (c : Char) : Prop :=
  isSeparator c = false ∧ c ≠ '#' ∧ c ≠ '\n' ∧ c ≠ '\r' ∧ c.toNat < 0x80

/-- Characters of bare keys are ASCII. -/
theorem isBare_lt (h : isBare c = true) : c.toNat < 0x80 := by
  simp only [isBare, Bool.or_eq_true, decide_eq_true_eq] at h
  rcases h with (h | rfl) | rfl
  · exact isAlphanum_lt h
  · decide
  · decide

/-- A word starts with each of them. -/
theorem StartsWord.of_bare (h : isBare c = true) : StartsWord c := by
  refine ⟨?_, ?_, ?_, ?_, isBare_lt h⟩
  · by_cases hc : c = ' ' ∨ c = '\t'
    · rcases hc with rfl | rfl <;> cases h
    · simpa [isSeparator] using hc
  · intro hc
    subst hc
    cases h
  · intro hc
    subst hc
    cases h
  · intro hc
    subst hc
    cases h

/-- A part of a key starts with one or with a quote, -/
theorem keyPartText_head (k : String) : ∃ c t, keyPartText k = c :: t
    ∧ (isBare c = true ∨ c = '"' ∨ c = '\'') := by
  unfold keyPartText
  split
  · rename_i hbare
    simp only [Bool.and_eq_true, List.all_eq_true] at hbare
    cases hk : k.toList with
    | nil => simp [← String.toList_eq_nil_iff, hk] at hbare
    | cons c t =>
        rw [hk] at hbare
        exact ⟨c, t, rfl, .inl (hbare.2 c (List.mem_cons_self ..))⟩
  · unfold Style.ofKey
    dsimp only
    split
    · exact ⟨'"', _, rfl, .inr (.inl rfl)⟩
    · split
      · exact ⟨'\'', _, rfl, .inr (.inr rfl)⟩
      · exact ⟨'"', _, rfl, .inr (.inl rfl)⟩

/-- so no separator is skipped there. -/
theorem skipSeparators_cons (h : isSeparator c = false) (s : List Char) :
    skipSeparators (c :: s) = c :: s := by
  rw [skipSeparators, List.dropWhile_cons_of_neg (by simp [h])]

/-- A key starts a word that is no bracket. -/
theorem keyText_head (path : List String) (key : String) : ∃ c t, keyText path key = c :: t
    ∧ StartsWord c ∧ c ≠ '[' := by
  have hpart : ∀ k, ∃ c t, keyPartText k = c :: t ∧ StartsWord c ∧ c ≠ '[' := by
    intro k
    obtain ⟨c, t, hk, hc⟩ := keyPartText_head k
    refine ⟨c, t, hk, ?_⟩
    rcases hc with hc | rfl | rfl
    · refine ⟨.of_bare hc, fun heq => ?_⟩
      subst heq
      cases hc
    · exact ⟨⟨rfl, by decide, by decide, by decide, by decide⟩, by decide⟩
    · exact ⟨⟨rfl, by decide, by decide, by decide, by decide⟩, by decide⟩
  cases path with
  | nil => exact hpart key
  | cons k path =>
      obtain ⟨c, t, hk, hc⟩ := hpart k
      exact ⟨c, _, by rw [keyText, List.flatMap_cons, hk]; rfl, hc⟩

/-- Keys are read from their first character. -/
theorem skipSeparators_keyText (path : List String) (key : String) (rest : List Char) :
    skipSeparators (keyText path key ++ rest) = keyText path key ++ rest := by
  obtain ⟨c, t, hk, hc, -⟩ := keyText_head path key
  rw [hk, List.cons_append, skipSeparators_cons hc.1]

theorem keyText_cons (k : String) (path : List String) (key : String) :
    keyText (k :: path) key = keyPartText k ++ '.' :: keyText path key := by
  simp [keyText]

/-- What may follow a key. -/
def EndsKey (rest : List Char) : Prop := NotBare rest ∧ ∀ r, skipSeparators rest ≠ '.' :: r

/-- A key is read back part by part, up to where it ends. -/
theorem readKeyParts_text (path : List String) (key : String) (h : EndsKey rest) (fuel : Nat)
    (hfuel : path.length < fuel) :
    readKeyParts fuel (keyText path key ++ rest) = some (path ++ [key], skipSeparators rest) := by
  induction path generalizing fuel with
  | nil =>
      cases fuel with
      | zero => cases hfuel
      | succ fuel =>
          rw [readKeyParts, skipSeparators_keyText,
            show keyText [] key = keyPartText key from rfl, readKeyPart_text key h.1]
          simp only [Option.bind_eq_bind, Option.bind_some]
          split
          · rename_i r hdot
            exact absurd hdot (h.2 r)
          · rfl
  | cons k path ih =>
      cases fuel with
      | zero => cases hfuel
      | succ fuel =>
          have hdot : NotBare ('.' :: (keyText path key ++ rest)) := by
            intro c hc
            cases hc
            rfl
          rw [readKeyParts, skipSeparators_keyText, keyText_cons, List.append_assoc,
            List.cons_append, readKeyPart_text k hdot]
          simp only [Option.bind_eq_bind, Option.bind_some, skipSeparators_cons (c := '.') rfl]
          rw [ih fuel (by simpa using hfuel)]
          rfl

/-- A key is read back, without the separators that follow. -/
theorem readKey_text (path : List String) (hpath : path.length + 1 < maxDepth) (key : String)
    (h : EndsKey rest) :
    readKey (keyText path key ++ rest) = some ((path, key), skipSeparators rest) := by
  have hlen : path.length ≤ (keyText path key).length := by
    induction path with
    | nil => exact Nat.zero_le _
    | cons k path ih =>
        have := ih (by rw [List.length_cons] at hpath; omega)
        rw [keyText_cons]
        simp
        omega
  rw [readKey, readKeyParts_text path key h _ (by simp; omega)]
  simp only [Option.bind_eq_bind, Option.bind_some]
  rw [if_neg (by simp; omega)]
  simp

-- ============================================================== values

/-- A value that settings have. -/
def IsPlain : Toml → Prop
  | .string _ => True
  | .integer n => 0 ≤ n ∧ isWhole n = true
  | .array items => items = []
  | _ => False

/-- Digits up to the end of a line. -/
def DigitLine (rest s : List Char) : Prop :=
  ∃ ds : List Char, (∀ c ∈ ds, c.isDigit = true) ∧ s = ds ++ '\n' :: rest

theorem DigitLine.decimal (n : Nat) (rest : List Char) :
    DigitLine rest (decimal n ++ '\n' :: rest) :=
  ⟨_, fun _ hc => Json.isDigit_of_mem_decimal hc, rfl⟩

/-- Of the digits of a line only digits can be read. -/
theorem DigitLine.readDigits {count : Nat} {ds r : List Char} (h : DigitLine rest s)
    (hr : readDigits count s = some (ds, r)) : DigitLine rest r := by
  obtain ⟨es, hes, rfl⟩ := h
  unfold Toml.readDigits at hr
  dsimp only at hr
  split at hr
  · rename_i hfront
    injection hr with hr
    injection hr with _ hr
    subst hr
    simp only [Bool.and_eq_true, decide_eq_true_eq, List.all_eq_true] at hfront
    have hcount : count ≤ es.length := by
      refine Nat.le_of_not_lt fun hlt => ?_
      obtain ⟨k, hk⟩ : ∃ k, count - es.length = k + 1 := ⟨count - es.length - 1, by omega⟩
      have hmem : '\n' ∈ (es ++ '\n' :: rest).take count := by
        rw [List.take_append, hk, List.take_succ_cons]
        simp
      cases hfront.2 _ hmem
    rw [List.drop_append_of_le_length hcount]
    exact ⟨es.drop count, fun c hc => hes c (List.mem_of_mem_drop hc), rfl⟩
  · cases hr

/-- Nothing but digits and the end of a line starts a line of digits. -/
theorem DigitLine.stripStart? {p : Char} (h : DigitLine rest s) (hp : p.isDigit = false)
    (hn : p ≠ '\n') (ps : List Char) : stripStart? (p :: ps) s = none := by
  obtain ⟨es, hes, rfl⟩ := h
  cases es with
  | nil => simp [Text.stripStart?, hn]
  | cons c es =>
      have hc := hes c (List.mem_cons_self ..)
      have hne : p ≠ c := fun heq => by rw [heq, hc] at hp; cases hp
      simp [Text.stripStart?, hne]

/-- Two figures that are read from a line of figures leave one behind, so a date or a time, which
has another mark there, is not found. -/
theorem DigitLine.readPair {least greatest : Nat} {ds r : List Char} (h : DigitLine rest s)
    (hr : readPair least greatest s = some (ds, r)) : DigitLine rest r := by
  unfold Toml.readPair at hr
  cases hd : Toml.readDigits 2 s with
  | none => simp [hd] at hr
  | some p =>
      simp only [hd, Option.bind_eq_bind, Option.bind_some] at hr
      split at hr
      · cases hr
        exact h.readDigits hd
      · cases hr

/-- A line of digits is no date and no time. -/
theorem DigitLine.readDatetime (h : DigitLine rest s) : readDatetime s = none := by
  have hdate : readDate s = none := by
    unfold readDate
    cases hd : Toml.readDigits 4 s with
    | none => rfl
    | some p => simp [(h.readDigits hd).stripStart? (p := '-') (by decide) (by decide)]
  have htime : readTime s = none := by
    unfold readTime
    cases hd : Toml.readPair 0 23 s with
    | none => rfl
    | some p => simp [(h.readPair hd).stripStart? (p := ':') (by decide) (by decide)]
  rw [Toml.readDatetime, hdate, htime]
  rfl

/-- Figures go on to the end of the line. -/
theorem moreDigits_digits {ds : List Char} (h : ∀ c ∈ ds, c.isDigit = true) (rest : List Char) :
    moreDigits 10 (ds ++ '\n' :: rest) = (ds, '\n' :: rest) := by
  induction ds with
  | nil => rfl
  | cons c ds ih =>
      have hc := h c (List.mem_cons_self ..)
      have hdigit : isDigitOf 10 c = true := digitValue?_isSome hc
      have hscore : c ≠ '_' := fun heq => by
        rw [heq] at hc
        cases hc
      rw [List.cons_append, moreDigits, if_pos hdigit,
        ih fun d hd => h d (List.mem_cons_of_mem _ hd)]
      exact fun _ _ heq _ => hscore heq

/-- The decimal digits of a number: a zero alone, or digits that start with another. -/
theorem decimal_cases (n : Nat) : n = 0 ∧ decimal n = ['0']
    ∨ ∃ c ds, decimal n = c :: ds ∧ c ≠ '0' ∧ c.isDigit = true ∧ ∀ d ∈ ds, d.isDigit = true := by
  by_cases hn : n = 0
  · subst hn
    exact .inl ⟨rfl, rfl⟩
  · refine .inr ?_
    obtain ⟨c, ds, hds⟩ := List.exists_cons_of_ne_nil (Json.decimal_ne_nil n)
    have hall : ∀ d ∈ decimal n, d.isDigit = true := fun d hd => Json.isDigit_of_mem_decimal hd
    rw [hds] at hall
    refine ⟨c, ds, hds, fun hc => hn (Json.head?_decimal (by rw [hds, hc]; rfl)),
      hall c (List.mem_cons_self ..), fun d hd => hall d (List.mem_cons_of_mem _ hd)⟩

/-- A number starts with a figure. -/
theorem decimal_head (n : Nat) : ∃ c ds, decimal n = c :: ds ∧ c.isDigit = true := by
  obtain ⟨c, ds, hds⟩ := List.exists_cons_of_ne_nil (Json.decimal_ne_nil n)
  exact ⟨c, ds, hds, Json.isDigit_of_mem_decimal (by rw [hds]; exact List.mem_cons_self ..)⟩

/-- The digits of a number are read up to the end of the line. -/
theorem readWhole_decimal (n : Nat) (rest : List Char) :
    readWhole (decimal n ++ '\n' :: rest) = some (decimal n, '\n' :: rest) := by
  rcases decimal_cases n with ⟨-, h⟩ | ⟨c, ds, h, hzero, hc, hds⟩
  · rw [h]
    rfl
  · have hdigit : isDigitOf 10 c = true := digitValue?_isSome hc
    rw [h, List.cons_append]
    unfold readWhole
    split
    · rename_i heq
      exact absurd (List.cons.inj heq).1 hzero
    · rw [digitRun, if_pos hdigit, moreDigits_digits hds]

/-- A number without a sign has none to read. -/
theorem readSign_decimal (n : Nat) (rest : List Char) :
    readSign (decimal n ++ '\n' :: rest) = (false, decimal n ++ '\n' :: rest) := by
  have hline := DigitLine.decimal n rest
  unfold readSign
  split
  · rename_i heq
    have := hline.stripStart? (p := '+') (by decide) (by decide) []
    rw [heq] at this
    cases this
  · rename_i heq
    have := hline.stripStart? (p := '-') (by decide) (by decide) []
    rw [heq] at this
    cases this
  · rfl

/-- A line of digits has no point and no exponent. -/
theorem readFloat_decimal (n : Nat) (rest : List Char) :
    readFloat (decimal n ++ '\n' :: rest) = none := by
  have hline := DigitLine.decimal n rest
  have hinf : stripStart? "inf".toList (decimal n ++ '\n' :: rest) = none :=
    hline.stripStart? (by decide) (by decide) _
  have hnan : stripStart? "nan".toList (decimal n ++ '\n' :: rest) = none :=
    hline.stripStart? (by decide) (by decide) _
  unfold readFloat
  rw [readSign_decimal]
  dsimp only
  rw [hinf]
  dsimp only
  rw [hnan]
  dsimp only
  rw [readWhole_decimal]
  rfl

/-- What follows a leading zero is the end of the line, so that no mark of a base can. -/
theorem decimal_zero {n : Nat} {d : Char} {r : List Char}
    (h : decimal n ++ '\n' :: rest = '0' :: d :: r) : d = '\n' := by
  rcases decimal_cases n with ⟨-, hn⟩ | ⟨c, ds, hn, hzero, -⟩
  · rw [hn] at h
    exact ((List.cons.inj (List.cons.inj h).2).1).symm
  · rw [hn] at h
    exact absurd (List.cons.inj h).1 hzero

/-- It is read back as an integer, -/
theorem readInteger_decimal {n : Nat} (hn : isWhole n = true) (rest : List Char) :
    readInteger (decimal n ++ '\n' :: rest) = some ((n : Int), '\n' :: rest) := by
  unfold readInteger
  split
  · rename_i heq
    cases decimal_zero heq
  · rename_i heq
    cases decimal_zero heq
  · rename_i heq
    cases decimal_zero heq
  · rw [readSign_decimal]
    dsimp only
    rw [readWhole_decimal]
    dsimp only [Option.bind_eq_bind, Option.bind_some]
    rw [Json.ofDigits?_decimal, Option.bind_some]
    have hsign : (if false = true then -(n : Int) else n) = n := if_neg Bool.false_ne_true
    rw [hsign, if_pos hn]

/-- since it is no date and no float. -/
theorem readNumber_decimal {n : Nat} (hn : isWhole n = true) (rest : List Char) :
    readNumber (decimal n ++ '\n' :: rest) = some (.integer n, '\n' :: rest) := by
  rw [readNumber, (DigitLine.decimal n rest).readDatetime, readFloat_decimal,
    readInteger_decimal hn]
  rfl

/-- What stands in quotes starts with a quote. -/
theorem quoted_head (t : String) : ∃ c r, quoted t = c :: r ∧ (c = '"' ∨ c = '\'') := by
  have hwrite : ∀ style : Style, ∃ c r, style.write t.toList = c :: r ∧ (c = '"' ∨ c = '\'') := by
    intro style
    cases style with
    | basic => exact ⟨'"', _, rfl, .inl rfl⟩
    | literal => exact ⟨'\'', _, rfl, .inr rfl⟩
    | basicLines => exact ⟨'"', _, rfl, .inl rfl⟩
    | literalLines => exact ⟨'\'', _, rfl, .inr rfl⟩
  exact hwrite _

/-- A value that starts with neither a bracket nor a brace is no list and no table. -/
theorem readValue_scalar {depth : Nat} (hbracket : c ≠ '[') (hbrace : c ≠ '\x7b') (fuel : Nat)
    (s : List Char) : readValue (fuel + 1) depth (c :: s) = readScalar (c :: s) := by
  rw [readValue]
  · exact fun _ heq => hbracket (List.cons.inj heq).1
  · exact fun _ heq => hbrace (List.cons.inj heq).1

/-- A text in quotes is read back as that text, -/
theorem readScalar_string (t : String) (rest : List Char) :
    readScalar (quoted t ++ '\n' :: rest) = some (.string t, '\n' :: rest) := by
  have hread : readQuoted (quoted t ++ '\n' :: rest) = some (t, '\n' :: rest) := by
    refine readQuoted_quoted t ?_ ?_
    · intro c hc
      cases hc
      decide
    · intro c hc
      cases hc
      decide
  obtain ⟨c, r, hq, hc⟩ := quoted_head t
  rw [hq, List.cons_append] at hread ⊢
  unfold readScalar
  dsimp only
  rw [if_pos (by simpa using hc), hread]
  rfl

/-- and a number as a number. -/
theorem readScalar_decimal {n : Nat} (hn : isWhole n = true) (rest : List Char) :
    readScalar (decimal n ++ '\n' :: rest) = some (.integer n, '\n' :: rest) := by
  have hread := readNumber_decimal hn rest
  obtain ⟨c, ds, hds, hc⟩ := decimal_head n
  have hne : ∀ d : Char, d.isDigit = false → c ≠ d := fun d hd heq => by
    rw [heq, hd] at hc
    cases hc
  rw [hds, List.cons_append] at hread ⊢
  unfold readScalar
  dsimp only
  rw [if_neg (by simp [hne '"' rfl, hne '\'' rfl]), if_neg (hne 't' rfl), if_neg (hne 'f' rfl)]
  exact hread

/-- A plain value starts a word. -/
theorem valueText_head {v : Toml} (hv : v.IsPlain) : ∃ c t, valueText v = c :: t
    ∧ isSeparator c = false := by
  cases v with
  | string t =>
      obtain ⟨c, r, hq, hc⟩ := quoted_head t
      refine ⟨c, r, hq, ?_⟩
      rcases hc with rfl | rfl <;> rfl
  | integer n =>
      obtain ⟨k, rfl⟩ := Int.eq_ofNat_of_zero_le hv.1
      obtain ⟨c, ds, hds, hc⟩ := decimal_head k
      refine ⟨c, ds, hds, ?_⟩
      exact of_ascii (P := fun c => c.isDigit = true → isSeparator c = false) (by decide)
        (isDigit_lt hc) hc
  | array items =>
      cases hv
      exact ⟨'[', [']'], rfl, rfl⟩
  | float | boolean | datetime | table => cases hv

/-- A plain value is read back up to the end of its line. -/
theorem readValue_text {v : Toml} (hv : v.IsPlain) (fuel : Nat) (rest : List Char) :
    readValue (fuel + 2) 0 (valueText v ++ '\n' :: rest) = some (v, '\n' :: rest) := by
  cases v with
  | string t =>
      have hread := readScalar_string t rest
      obtain ⟨c, r, hq, hc⟩ := quoted_head t
      show readValue (fuel + 2) 0 (quoted t ++ '\n' :: rest) = _
      rw [hq, List.cons_append] at hread ⊢
      rw [readValue_scalar, hread]
      · rcases hc with rfl | rfl <;> decide
      · rcases hc with rfl | rfl <;> decide
  | integer n =>
      obtain ⟨k, rfl⟩ := Int.eq_ofNat_of_zero_le hv.1
      have hread := readScalar_decimal hv.2 rest
      obtain ⟨c, ds, hds, hc⟩ := decimal_head k
      show readValue (fuel + 2) 0 (decimal k ++ '\n' :: rest) = _
      rw [hds, List.cons_append] at hread ⊢
      rw [readValue_scalar, hread]
      · intro heq
        subst heq
        cases hc
      · intro heq
        subst heq
        cases hc
  | array items =>
      cases hv
      rfl
  | float | boolean | datetime | table => cases hv

-- ========================================================== statements

/-- A statement of settings. -/
def Statement.IsPlain : Statement → Prop
  | .entry path _ v => path.length + 1 < maxDepth ∧ v.IsPlain
  | .table path _ => path.length + 1 < maxDepth
  | .element path _ => path.length + 1 < maxDepth

/-- The text of a statement without the blank line before it. -/
def Statement.line : Statement → List Char
  | .entry path key v => keyText path key ++ ' ' :: '=' :: ' ' :: valueText v ++ ['\n']
  | .table path key => '[' :: keyText path key ++ [']', '\n']
  | .element path key => '[' :: '[' :: keyText path key ++ [']', ']', '\n']

/-- A statement starts a word. -/
theorem line_head (st : Statement) : ∃ c t, st.line = c :: t ∧ StartsWord c := by
  have hbracket : StartsWord '[' := ⟨rfl, by decide, by decide, by decide, by decide⟩
  cases st with
  | entry path key v =>
      obtain ⟨c, t, hk, hc, -⟩ := keyText_head path key
      exact ⟨c, _, by rw [Statement.line, hk]; rfl, hc⟩
  | table path key => exact ⟨'[', _, rfl, hbracket⟩
  | element path key => exact ⟨'[', _, rfl, hbracket⟩

/-- A key ends before the sign of its value -/
theorem endsKey_equals (rest : List Char) : EndsKey (' ' :: '=' :: rest) := by
  refine ⟨fun c hc => ?_, fun r heq => ?_⟩
  · cases hc
    rfl
  · cases (List.cons.inj heq).1

/-- or the bracket of its table. -/
theorem endsKey_bracket (rest : List Char) : EndsKey (']' :: rest) := by
  refine ⟨fun c hc => ?_, fun r heq => ?_⟩
  · cases hc
    rfl
  · cases (List.cons.inj heq).1

/-- A line that starts with no bracket is an entry. -/
theorem readStatement_entry (hc : c ≠ '[') (t : List Char) :
    readStatement (c :: t) = (do
      let ((path, key), rest) ← readKey (c :: t)
      let (v, rest) ←
        readValue ((c :: t).length + 1) 0 (skipSeparators (← stripStart? ['='] rest))
      return (.entry path key v, ← endLine rest)) := by
  rw [readStatement]
  · exact fun _ heq => hc (List.cons.inj heq).1
  · exact fun _ heq => hc (List.cons.inj heq).1

theorem readStatement_table (hc : c ≠ '[') (t : List Char) :
    readStatement ('[' :: c :: t) = (do
      let ((path, key), rest) ← readKey (c :: t)
      return (.table path key, ← endLine (← stripStart? [']'] rest))) := by
  rw [readStatement]
  exact fun _ heq => hc (List.cons.inj heq).1

/-- A statement is read back from its line. -/
theorem readStatement_line {st : Statement} (h : st.IsPlain) (rest : List Char) :
    readStatement (st.line ++ rest) = some (st, rest) := by
  -- Each kind of line is told from the others by its first characters.
  cases st with
  | entry path key v =>
      obtain ⟨hpath, hv⟩ := h
      obtain ⟨c, t, hk, -, hc⟩ := keyText_head path key
      obtain ⟨d, u, hvt, hd⟩ := valueText_head hv
      have hshape : (Statement.entry path key v).line ++ rest
          = keyText path key ++ ' ' :: '=' :: ' ' :: (valueText v ++ '\n' :: rest) := by
        simp [Statement.line]
      have hkey := readKey_text path hpath key
        (endsKey_equals (' ' :: (valueText v ++ '\n' :: rest)))
      have hskip : skipSeparators (' ' :: (valueText v ++ '\n' :: rest))
          = valueText v ++ '\n' :: rest := by
        rw [hvt]
        exact skipSeparators_cons hd _
      rw [hshape]
      rw [hk, List.cons_append] at hkey ⊢
      rw [readStatement_entry hc, hkey]
      show ((readValue _ 0 (skipSeparators (' ' :: (valueText v ++ '\n' :: rest)))).bind _) = _
      rw [hskip, List.length_cons, readValue_text hv]
      rfl
  | table path key =>
      obtain ⟨c, t, hk, -, hc⟩ := keyText_head path key
      have hshape : (Statement.table path key).line ++ rest
          = '[' :: (keyText path key ++ ']' :: '\n' :: rest) := by
        simp [Statement.line]
      have hkey := readKey_text path h key (endsKey_bracket ('\n' :: rest))
      rw [hshape]
      rw [hk, List.cons_append] at hkey ⊢
      rw [readStatement_table hc, hkey]
      rfl
  | element path key =>
      have hshape : (Statement.element path key).line ++ rest
          = '[' :: '[' :: (keyText path key ++ ']' :: ']' :: '\n' :: rest) := by
        simp [Statement.line]
      have hkey := readKey_text path h key (endsKey_bracket (']' :: '\n' :: rest))
      rw [hshape, readStatement, hkey]
      rfl

/-- A line with a statement takes one step of the reader. -/
theorem readStatements_line {st : Statement} (h : st.IsPlain) (fuel : Nat) (acc : List Statement)
    (rest : List Char) :
    readStatements (fuel + 1) acc (st.line ++ rest) = readStatements fuel (st :: acc) rest := by
  have hread := readStatement_line h rest
  obtain ⟨c, t, hline, hblank, hhash, hn, hr, -⟩ := line_head st
  rw [hline, List.cons_append] at hread ⊢
  have hend : endLine (c :: (t ++ rest)) = none := by
    unfold endLine
    rw [skipSeparators_cons hblank]
    dsimp only
    split
    · rename_i heq
      exact absurd (List.cons.inj heq).1 hhash
    · rw [if_neg (by simp), afterNewline_of_ne hn hr]
  rw [readStatements, skipSeparators_cons hblank, if_neg (by simp), hend]
  dsimp only
  rw [hread]

/-- A statement is a line, with an empty one before it if it is a table. -/
theorem text_eq (st : Statement) : st.text = st.line ∨ st.text = '\n' :: st.line := by
  cases st with
  | entry => exact .inl rfl
  | table => exact .inr rfl
  | element => exact .inr rfl

/-- What is printed of plain statements is read as these. -/
theorem readStatements_print {ss : List Statement} (h : ∀ st ∈ ss, st.IsPlain) (fuel : Nat)
    (acc : List Statement) (hfuel : (printStatements ss).length < fuel) :
    readStatements fuel acc (printStatements ss) = some (acc.reverse ++ ss) := by
  induction ss generalizing fuel acc with
  | nil =>
      obtain ⟨fuel, rfl⟩ := Nat.exists_eq_succ_of_ne_zero (Nat.ne_of_gt hfuel)
      simp [printStatements, readStatements, skipSeparators]
  | cons st ss ih =>
      have hst := h st (List.mem_cons_self ..)
      have hrest : ∀ st' ∈ ss, st'.IsPlain := fun st' hmem => h st' (List.mem_cons_of_mem _ hmem)
      obtain ⟨c, t, hline, -⟩ := line_head st
      have hpos : 0 < st.line.length := by
        rw [hline]
        exact Nat.succ_pos _
      unfold printStatements at hfuel ih ⊢
      rw [List.flatMap_cons] at hfuel ⊢
      rw [List.length_append] at hfuel
      -- A header is printed behind an empty line, which takes one round of the reader more.
      rcases text_eq st with htext | htext
      · rw [htext] at hfuel ⊢
        obtain ⟨fuel, rfl⟩ := Nat.exists_eq_succ_of_ne_zero (n := fuel) (by omega)
        rw [readStatements_line hst, ih hrest _ _ (by omega)]
        simp
      · rw [htext] at hfuel ⊢
        rw [List.length_cons] at hfuel
        obtain ⟨fuel, rfl⟩ := Nat.exists_eq_add_of_le (show 2 ≤ fuel by omega)
        rw [Nat.add_comm 2 fuel]
        have hblank : readStatements (fuel + 2) acc ('\n' :: (st.line ++ ss.flatMap Statement.text))
            = readStatements (fuel + 1) acc (st.line ++ ss.flatMap Statement.text) := rfl
        rw [List.cons_append, hblank, readStatements_line hst, ih hrest _ _ (by omega)]
        simp

/-- Plain statements are read back from their text. -/
theorem statements?_print {ss : List Statement} (h : ∀ st ∈ ss, st.IsPlain) :
    statements? (printStatements ss) = some ss := by
  have hmark : stripStart? [byteOrderMark] (printStatements ss) = none := by
    have hne : ∀ d : Char, d.toNat < 0x80 → byteOrderMark ≠ d := fun d hd heq => by
      rw [← heq] at hd
      exact absurd hd (by decide)
    cases ss with
    | nil => rfl
    | cons st ss =>
        obtain ⟨c, t, hline, -, -, -, -, hc⟩ := line_head st
        unfold printStatements
        rw [List.flatMap_cons]
        rcases text_eq st with htext | htext
        · rw [htext, hline]
          exact if_neg (hne c hc)
        · rw [htext]
          exact if_neg (hne '\n' (by decide))
  rw [statements?, hmark, Option.getD_none, readStatements_print h _ _ (Nat.lt_succ_self _)]
  rfl

end TracedTransfer.Toml
