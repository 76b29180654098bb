/-
Strings of TOML are read back from every style they are written in.

On one line a string is read character by character: one that stands bare
takes one step, and so does an escape (`escape?_escapeOf`), so that
`readBasic_escaped` is an induction on the characters. Over several lines
quotes are read a run at a time while they are written one at a time;
`Shows` tells a written text with the quotes that are still pending, both
for the basic and for the literal style, and `readLines_shows` reads what
it tells by induction on it.

`readQuoted_quoted` is the whole for values and `readKeyPart_text` the
whole for keys.
-/
import TracedTransfer.Proofs.Json.Scalar
import TracedTransfer.Toml.Printer

namespace TracedTransfer.Toml

open Text

variable {c quote : Char} {s rest : List Char}

-- ============================================================= escapes

/-- What the hexadecimal digits of an ASCII character denote. -/
theorem codePoint?_ascii (hc : c.toNat < 0x80) (rest : List Char) :
    codePoint? 4
        ('0' :: '0' :: hexDigitUpper (c.toNat / 16) :: hexDigitUpper (c.toNat % 16) :: rest)
      = some (c, rest) := by
  have hdigits : ∀ n < 0x80,
      ofDigits? 16 ['0', '0', hexDigitUpper (n / 16), hexDigitUpper (n % 16)] = some n := by decide
  have hvalid : c.toNat.isValidChar := c.valid
  show ((ofDigits? 16 ['0', '0', hexDigitUpper (c.toNat / 16), hexDigitUpper (c.toNat % 16)]).bind
    charOf?).map (fun d => (d, rest)) = some (c, rest)
  rw [hdigits _ hc, Option.bind_some, charOf?, dif_pos hvalid]
  rfl

/-- An escape denotes its character. What stands behind its backslash is no blank and no end of
line. -/
theorem escapeOf_spec (hc : c.toNat < 0x80) :
    ∃ d tail, escapeOf c = '\\' :: d :: tail ∧ isSeparator d = false ∧ d ≠ '\n' ∧ d ≠ '\r'
      ∧ ∀ rest, escape? (d :: tail ++ rest) = some (c, rest) := by
  unfold escapeOf
  by_cases hb : c = '\x08'
  · subst hb
    exact ⟨'b', [], rfl, rfl, by decide, by decide, fun _ => rfl⟩
  by_cases ht : c = '\t'
  · subst ht
    exact ⟨'t', [], rfl, rfl, by decide, by decide, fun _ => rfl⟩
  by_cases hn : c = '\n'
  · subst hn
    exact ⟨'n', [], rfl, rfl, by decide, by decide, fun _ => rfl⟩
  by_cases hf : c = '\x0c'
  · subst hf
    exact ⟨'f', [], rfl, rfl, by decide, by decide, fun _ => rfl⟩
  by_cases hr : c = '\r'
  · subst hr
    exact ⟨'r', [], rfl, rfl, by decide, by decide, fun _ => rfl⟩
  by_cases hq : c = '"'
  · subst hq
    exact ⟨'"', [], rfl, rfl, by decide, by decide, fun _ => rfl⟩
  by_cases hs : c = '\\'
  · subst hs
    exact ⟨'\\', [], rfl, rfl, by decide, by decide, fun _ => rfl⟩
  rw [if_neg hb, if_neg ht, if_neg hn, if_neg hf, if_neg hr, if_neg hq, if_neg hs]
  exact ⟨'u', _, rfl, rfl, by decide, by decide, codePoint?_ascii hc⟩

/-- A character that is written as an escape is an ASCII character. -/
theorem ascii_of_not_bare (lines : Bool) (h : staysBare lines c = false) : c.toNat < 0x80 := by
  by_cases hc : c.toNat < 0x80
  · exact hc
  · have htab : c ≠ '\t' := fun heq => hc (by rw [heq]; decide)
    have hslash : c ≠ '\\' := fun heq => hc (by rw [heq]; decide)
    have htext : isText c = true := by
      simp only [isText, Bool.or_eq_true, Bool.and_eq_true, decide_eq_true_eq]
      right
      omega
    simp [staysBare, htext, htab, hslash] at h

/-- What is printed as it is may stand in quotes as it is. -/
theorem isText_of_staysBare (h : staysBare false c = true) : isText c = true ∧ c ≠ '\\' := by
  simp only [staysBare, Bool.false_and, Bool.or_false, Bool.and_eq_true, ne_eq,
    decide_not, Bool.not_eq_true'] at h
  exact ⟨h.1.1, by simpa using h.2⟩

-- ============================================================ one line

/-- An escape is one step of the reader of a line. -/
theorem readBasic_escape (hc : c.toNat < 0x80) (fuel : Nat) (acc rest : List Char) :
    readBasic (fuel + 1) acc (escapeOf c ++ rest) = readBasic fuel (c :: acc) rest := by
  obtain ⟨d, tail, hesc, -, -, -, hread⟩ := escapeOf_spec hc
  rw [hesc, List.cons_append, readBasic, hread rest]

theorem readBasic_bare (htext : isText c = true) (hquote : c ≠ '"') (hslash : c ≠ '\\')
    (fuel : Nat) (acc rest : List Char) :
    readBasic (fuel + 1) acc (c :: rest) = readBasic fuel (c :: acc) rest := by
  rw [readBasic, if_pos htext]
  · exact hquote
  · exact hslash

/-- An escape is no empty text, so reading gets on. -/
theorem length_escapeOf (c : Char) : 1 ≤ (escapeOf c).length := by
  unfold escapeOf
  repeat' split
  all_goals simp

/-- The characters of a basic string up to the closing quote. -/
theorem readBasic_escaped (s : List Char) (fuel : Nat) (acc rest : List Char)
    (hfuel : (escaped s).length < fuel) :
    readBasic fuel acc (escaped s ++ '"' :: rest)
      = some (String.ofList (acc.reverse ++ s), rest) := by
  induction s generalizing fuel acc with
  | nil =>
      cases fuel with
      | zero => cases hfuel
      | succ fuel => simp [escaped, readBasic]
  | cons c s ih =>
      cases fuel with
      | zero => cases hfuel
      | succ fuel =>
          unfold escaped at hfuel ih ⊢
          rw [List.flatMap_cons] at hfuel ⊢
          rw [List.length_append] at hfuel
          rw [List.append_assoc]
          -- A character stands for itself or is escaped; an escape is longer, which the fuel
          -- has to allow for.
          by_cases hbare : staysBare false c = true ∧ c ≠ '"'
          · obtain ⟨htext, hslash⟩ := isText_of_staysBare hbare.1
            rw [if_pos (by simpa using hbare)] at hfuel ⊢
            rw [List.length_singleton] at hfuel
            rw [List.singleton_append, readBasic_bare htext hbare.2 hslash, ih _ _ (by omega)]
            simp
          · have hascii : c.toNat < 0x80 := by
              by_cases hquote : c = '"'
              · rw [hquote]
                decide
              · exact ascii_of_not_bare false (by simpa [hquote] using hbare)
            have hlen := length_escapeOf c
            rw [if_neg (by simpa using hbare)] at hfuel ⊢
            rw [readBasic_escape hascii, ih _ _ (by omega)]
            simp

/-- The characters of a literal string up to the closing quote. -/
theorem readLiteral_of_all (h : ∀ c ∈ s, isLiteral c = true) (rest : List Char) :
    readLiteral (s ++ '\'' :: rest) = some (String.ofList s, rest) := by
  have hquote : ∀ c ∈ ('\'' :: rest).head?, isLiteral c = false := by
    intro c hc
    cases hc
    rfl
  unfold readLiteral
  rw [dropWhile_append_of_all h hquote, takeWhile_append_of_all h hquote]
  rfl

-- ========================================================= several lines

/-- What a written text over several lines tells: it starts behind `pending` bare quotes, of which
there are never three in a row. -/
inductive Shows (quote : Char) (escapes : Bool) : Nat → List Char → List Char → Prop
  /-- Nothing is shown by nothing. -/
  | nil (pending : Nat) : Shows quote escapes pending [] []
  /-- A quote stands for itself unless three would stand in a row. -/
  | quote {pending : Nat} {w s : List Char} (h : pending < 2)
      (tail : Shows quote escapes (pending + 1) w s) :
      Shows quote escapes pending (quote :: w) (quote :: s)
  /-- Any other character that may stand there stands for itself, -/
  | bare {pending : Nat} {c : Char} {w s : List Char} (hquote : c ≠ quote)
      (hslash : escapes = true → c ≠ '\\') (hc : isText c = true ∨ c = '\n')
      (tail : Shows quote escapes 0 w s) : Shows quote escapes pending (c :: w) (c :: s)
  /-- and one that may not is escaped. -/
  | escape {pending : Nat} {c : Char} {w s : List Char} (hescapes : escapes = true)
      (hquote : quote ≠ '\\') (hc : c.toNat < 0x80) (tail : Shows quote escapes 0 w s) :
      Shows quote escapes pending (escapeOf c ++ w) (c :: s)

/-- A text that does not start with a quote. -/
def NoQuote (quote : Char) (t : List Char) : Prop := ∀ c ∈ t.head?, c ≠ quote

/-- Quotes are counted up to the first other character. -/
theorem takeWhile_quotes {t : List Char} (n : Nat) (h : NoQuote quote t) :
    (List.replicate n quote ++ t).takeWhile (· = quote) = List.replicate n quote := by
  refine takeWhile_append_of_all (fun c hc => ?_) (fun c hc => ?_)
  · simpa using (List.eq_of_mem_replicate hc)
  · simpa using h c hc

/-- Fewer than three quotes in a row stand for themselves. -/
theorem readLines_quotes (escapes : Bool) {n : Nat} (hn : n < 3) {t : List Char}
    (h : NoQuote quote t) (fuel : Nat) (acc : List Char) (hfuel : n < fuel) :
    ∃ fuel', fuel ≤ fuel' + n ∧ 0 < fuel'
      ∧ readLines quote escapes fuel acc (List.replicate n quote ++ t)
        = readLines quote escapes fuel' (List.replicate n quote ++ acc) t := by
  cases n with
  | zero => exact ⟨fuel, by omega, hfuel, rfl⟩
  | succ n =>
      cases fuel with
      | zero => cases hfuel
      | succ fuel =>
          refine ⟨fuel, by omega, by omega, ?_⟩
          have hlen :
              ((List.replicate (n + 1) quote ++ t).takeWhile (· = quote)).length = n + 1 := by
            rw [takeWhile_quotes _ h, List.length_replicate]
          have hdrop : (List.replicate (n + 1) quote ++ t).drop (n + 1) = t :=
            List.drop_left' List.length_replicate
          rw [List.replicate_succ, List.cons_append] at hlen hdrop ⊢
          rw [readLines]
          dsimp only
          rw [if_pos rfl, hlen, if_pos hn, hdrop]
          rfl

/-- Three quotes in a row end the string, behind up to two that belong to it. -/
theorem readLines_fence {escapes : Bool} {n : Nat} (hn : n < 3) (h : NoQuote quote rest)
    (fuel : Nat) (acc : List Char) :
    readLines quote escapes (fuel + 1) acc (List.replicate n quote ++ (fence quote ++ rest))
      = some (String.ofList (List.replicate n quote ++ acc).reverse, rest) := by
  have hrun : List.replicate n quote ++ (fence quote ++ rest)
      = List.replicate (n + 3) quote ++ rest := by
    rw [List.replicate_add, List.append_assoc]
    rfl
  have hlen : ((List.replicate (n + 3) quote ++ rest).takeWhile (· = quote)).length = n + 3 := by
    rw [takeWhile_quotes _ h, List.length_replicate]
  have hdrop : (List.replicate (n + 3) quote ++ rest).drop (n + 3) = rest :=
    List.drop_left' List.length_replicate
  rw [hrun]
  rw [List.replicate_succ, List.cons_append] at hlen hdrop ⊢
  rw [readLines]
  dsimp only
  rw [if_pos rfl, hlen, if_neg (by omega), if_pos (by omega), hdrop, Nat.add_sub_cancel]

/-- Only an end of line is one. -/
theorem afterNewline_of_ne (hn : c ≠ '\n') (hr : c ≠ '\r') (rest : List Char) :
    afterNewline (c :: rest) = none := by
  unfold afterNewline
  split
  · rename_i heq
    exact absurd (List.cons.inj heq).1 hn
  · rename_i heq
    exact absurd (List.cons.inj heq).1 hr
  · rfl

/-- In a text of several lines, too, a character is read as itself, -/
theorem readLines_bare {escapes : Bool} (hquote : c ≠ quote) (hslash : escapes = true → c ≠ '\\')
    (hc : isText c = true ∨ c = '\n') (fuel : Nat) (acc rest : List Char) :
    readLines quote escapes (fuel + 1) acc (c :: rest)
      = readLines quote escapes fuel (c :: acc) rest := by
  have hescape : ¬ (c = '\\' && escapes) = true := by
    cases escapes with
    | false => simp
    | true => simpa using hslash rfl
  rw [readLines]
  dsimp only
  rw [if_neg hquote, if_neg hescape]
  rcases hc with hc | rfl
  · rw [afterNewline_of_ne (fun heq => by rw [heq] at hc; cases hc)
      (fun heq => by rw [heq] at hc; cases hc)]
    exact if_pos hc
  · rfl

/-- and an escape as what it escapes. -/
theorem readLines_escape (hquote : quote ≠ '\\') (hc : c.toNat < 0x80) (fuel : Nat)
    (acc rest : List Char) :
    readLines quote true (fuel + 1) acc (escapeOf c ++ rest)
      = readLines quote true fuel (c :: acc) rest := by
  obtain ⟨d, tail, hesc, hblank, hn, hr, hread⟩ := escapeOf_spec hc
  have hline : afterNewline (skipSeparators (d :: (tail ++ rest))) = none := by
    rw [skipSeparators, List.dropWhile_cons_of_neg (by simp [hblank]), afterNewline_of_ne hn hr]
  have hescape : escape? (d :: (tail ++ rest)) = some (c, rest) := hread rest
  rw [hesc]
  show readLines quote true (fuel + 1) acc ('\\' :: d :: (tail ++ rest)) = _
  rw [readLines]
  dsimp only
  rw [if_neg (Ne.symm hquote), if_pos (by decide), hline]
  dsimp only
  rw [hescape]

/-- What a written text tells is what is read from it. -/
theorem readLines_shows {escapes : Bool} {pending : Nat} {w : List Char}
    (h : Shows quote escapes pending w s) (hpending : pending < 3) (hrest : NoQuote quote rest)
    (fuel : Nat) (acc : List Char) (hfuel : pending + w.length < fuel) :
    readLines quote escapes fuel acc (List.replicate pending quote ++ (w ++ (fence quote ++ rest)))
      = some (String.ofList (acc.reverse ++ (List.replicate pending quote ++ s)), rest) := by
  induction h generalizing fuel acc with
  | nil pending =>
      cases fuel with
      | zero => cases hfuel
      | succ fuel =>
          rw [List.nil_append, readLines_fence hpending hrest]
          simp
  | @quote pending w s hlt tail ih =>
      -- the quote joins those that are pending
      have hjoin : ∀ t : List Char, List.replicate pending quote ++ (quote :: t)
          = List.replicate (pending + 1) quote ++ t := by
        intro t
        rw [List.replicate_succ', List.append_assoc]
        rfl
      rw [List.cons_append, hjoin, hjoin]
      rw [List.length_cons] at hfuel
      exact ih (by omega) fuel acc (by omega)
  | @bare pending c w s hquote hslash hc tail ih =>
      have hno : NoQuote quote (c :: w ++ (fence quote ++ rest)) := by
        intro d hd
        cases hd
        exact hquote
      rw [List.length_cons] at hfuel
      obtain ⟨fuel', hle, hpos, hread⟩ :=
        readLines_quotes escapes hpending hno fuel acc (by omega)
      obtain ⟨fuel', rfl⟩ := Nat.exists_eq_succ_of_ne_zero (Nat.ne_of_gt hpos)
      have hrest' := ih (by decide) fuel' (c :: (List.replicate pending quote ++ acc)) (by omega)
      rw [hread, List.cons_append, Nat.succ_eq_add_one, readLines_bare hquote hslash hc]
      refine hrest'.trans ?_
      simp
  | @escape pending c w s hescapes hquote hc tail ih =>
      subst hescapes
      have hno : NoQuote quote (escapeOf c ++ w ++ (fence quote ++ rest)) := by
        obtain ⟨d, t, hesc, -⟩ := escapeOf_spec hc
        intro e he
        rw [hesc] at he
        cases he
        exact Ne.symm hquote
      have hlen := length_escapeOf c
      rw [List.length_append] at hfuel
      obtain ⟨fuel', hle, hpos, hread⟩ :=
        readLines_quotes true hpending hno fuel acc (by omega)
      obtain ⟨fuel', rfl⟩ := Nat.exists_eq_succ_of_ne_zero (Nat.ne_of_gt hpos)
      have hrest' := ih (by decide) fuel' (c :: (List.replicate pending quote ++ acc)) (by omega)
      rw [hread, List.append_assoc, Nat.succ_eq_add_one, readLines_escape hquote hc]
      refine hrest'.trans ?_
      simp

-- ============================================================== styles

/-- What is written over several lines with escapes tells the string. -/
theorem shows_escapedLines (s : List Char) {pending : Nat} (h : pending < 3) :
    Shows '"' true pending (escapedLines pending s) s := by
  induction s generalizing pending with
  | nil => exact .nil pending
  | cons c s ih =>
      unfold escapedLines
      by_cases hquote : c = '"'
      · rw [if_pos hquote, hquote]
        split
        · rename_i hlt
          exact .quote hlt (ih (by omega))
        · exact .escape rfl (by decide) (by decide) (ih (by decide))
      · rw [if_neg hquote]
        by_cases hbare : staysBare true c = true
        · rw [if_pos hbare]
          refine .bare hquote ?_ ?_ (ih (by decide))
          · intro _ hslash
            rw [hslash] at hbare
            cases hbare
          · simp only [staysBare, Bool.true_and, Bool.or_eq_true, Bool.and_eq_true,
              decide_eq_true_eq] at hbare
            rcases hbare with hbare | hbare
            · exact .inl hbare.1.1
            · exact .inr hbare
        · rw [if_neg hbare]
          exact .escape rfl (by decide)
            (ascii_of_not_bare true (by simpa using hbare)) (ih (by decide))

/-- A run of quotes is there whatever stands in front, -/
theorem hasRun_append {n : Nat} (h : hasRun quote n s = true) (t : List Char) :
    hasRun quote n (t ++ s) = true := by
  induction t with
  | nil => exact h
  | cons c t ih => simp [hasRun, ih]

/-- and in front it is one. -/
theorem hasRun_replicate {n : Nat} (hn : 0 < n) (s : List Char) :
    hasRun quote n (List.replicate n quote ++ s) = true := by
  obtain ⟨n, rfl⟩ := Nat.exists_eq_succ_of_ne_zero (Nat.ne_of_gt hn)
  have hstrip := stripStart?_append (List.replicate (n + 1) quote) s
  rw [List.replicate_succ, List.cons_append] at hstrip ⊢
  rw [hasRun, List.replicate_succ, hstrip]
  rfl

/-- A string without codes and without three quotes in a row tells itself over several lines. -/
theorem shows_self {escapes : Bool} (s : List Char) {pending : Nat}
    (hcodes : s.any isCode = false) (hslash : escapes = true → '\\' ∉ s)
    (hrun : hasRun quote 3 (List.replicate pending quote ++ s) = false) (h : pending < 3) :
    Shows quote escapes pending s s := by
  induction s generalizing pending with
  | nil => exact .nil pending
  | cons c s ih =>
      rw [List.any_cons, Bool.or_eq_false_iff] at hcodes
      have hslash' : escapes = true → '\\' ∉ s := fun he hmem =>
        hslash he (List.mem_cons_of_mem _ hmem)
      -- Three quotes in a row would close the string, so the quotes that are pending are
      -- counted.
      by_cases hquote : c = quote
      · subst hquote
        have hjoin : List.replicate pending c ++ c :: s = List.replicate (pending + 1) c ++ s := by
          rw [List.replicate_succ', List.append_assoc]
          rfl
        rw [hjoin] at hrun
        have hlt : pending < 2 := by
          refine Nat.lt_of_not_le fun hge => ?_
          have htwo : pending = 2 := by omega
          subst htwo
          rw [hasRun_replicate (by decide)] at hrun
          cases hrun
        exact .quote hlt (ih hcodes.2 hslash' hrun (by omega))
      · refine .bare hquote ?_ ?_ (ih hcodes.2 hslash' ?_ (by decide))
        · intro he hc
          exact hslash he (hc ▸ List.mem_cons_self ..)
        · simpa [isCode, or_iff_not_imp_left] using hcodes.1
        · refine eq_false_of_ne_true fun htrue => ?_
          have hbehind : hasRun quote 3 s = true := htrue
          rw [← List.singleton_append, ← List.append_assoc, hasRun_append hbehind] at hrun
          cases hrun

/-- A string without an end of line does not start with one when it is written. -/
theorem Shows.afterNewline {escapes : Bool} {pending : Nat} {w : List Char}
    (h : Shows quote escapes pending w s) (hs : '\n' ∉ s) (hn : quote ≠ '\n') (hr : quote ≠ '\r')
    (rest : List Char) : Toml.afterNewline (w ++ (fence quote ++ rest)) = none := by
  cases h with
  | nil => exact afterNewline_of_ne hn hr _
  | quote => exact afterNewline_of_ne hn hr _
  | bare _ _ hc _ =>
      rcases hc with hc | rfl
      · refine afterNewline_of_ne (fun heq => ?_) (fun heq => ?_) _
        · rw [heq] at hc
          cases hc
        · rw [heq] at hc
          cases hc
      · exact absurd (List.mem_cons_self ..) hs
  | escape _ _ hc _ =>
      obtain ⟨d, t, hesc, -⟩ := escapeOf_spec hc
      rw [hesc]
      exact afterNewline_of_ne (by decide) (by decide) _

/-- What is written over several lines is read back, from behind the opening quotes. -/
theorem readLines_opening {escapes : Bool} {w : List Char} (h : Shows quote escapes 0 w s)
    (hn : quote ≠ '\n') (hr : quote ≠ '\r') (hrest : NoQuote quote rest) (fuel : Nat)
    (hfuel : w.length < fuel) :
    readLines quote escapes fuel [] (afterOpening (opening s ++ (w ++ (fence quote ++ rest))))
      = some (String.ofList s, rest) := by
  have hstripped : afterOpening (opening s ++ (w ++ (fence quote ++ rest)))
      = w ++ (fence quote ++ rest) := by
    unfold opening
    split
    · rfl
    · rename_i hline
      rw [List.nil_append, afterOpening, h.afterNewline (by simpa using hline) hn hr]
      rfl
  rw [hstripped]
  exact readLines_shows h (by decide) hrest fuel [] (by omega)

/-- A single quote that two more do not follow opens a string on one line. -/
theorem readQuoted_basic {t : List Char} (h : ∀ r, t ≠ '"' :: '"' :: r) :
    readQuoted ('"' :: t) = readBasic (t.length + 1) [] t := by
  unfold readQuoted
  split
  · rename_i r heq
    exact absurd (List.cons.inj heq).2 (h r)
  · rename_i heq
    cases (List.cons.inj heq).1
  · rename_i heq
    rw [(List.cons.inj heq).2]
  · rename_i heq
    cases (List.cons.inj heq).1
  · rename_i hno _
    exact absurd rfl (hno t)

/-- A single quote that is not tripled starts a literal. -/
theorem readQuoted_literal {t : List Char} (h : ∀ r, t ≠ '\'' :: '\'' :: r) :
    readQuoted ('\'' :: t) = readLiteral t := by
  unfold readQuoted
  split
  · rename_i heq
    cases (List.cons.inj heq).1
  · rename_i r heq
    exact absurd (List.cons.inj heq).2 (h r)
  · rename_i heq
    cases (List.cons.inj heq).1
  · rename_i heq
    rw [(List.cons.inj heq).2]
  · rename_i hno
    exact absurd rfl (hno t)

/-- What is escaped does not start with a quote, so no quote is taken for one of three. -/
theorem escaped_head (s : List Char) : NoQuote '"' (escaped s) := by
  intro d hd
  cases s with
  | nil => cases hd
  | cons c s =>
      unfold escaped at hd
      rw [List.flatMap_cons] at hd
      split at hd
      · rename_i hbare
        cases hd
        simpa using (Bool.and_eq_true_iff.1 hbare).2
      · rename_i hbare
        have hascii : c.toNat < 0x80 := by
          by_cases hquote : c = '"'
          · rw [hquote]
            decide
          · exact ascii_of_not_bare false (by simpa [hquote] using hbare)
        obtain ⟨e, t, hesc, -⟩ := escapeOf_spec hascii
        rw [hesc] at hd
        cases hd
        decide

/-- A text without a quote in front, closed by one that none follows, does not start with two. -/
theorem NoQuote.close {w : List Char} (hw : NoQuote quote w) (hrest : NoQuote quote rest)
    (r : List Char) : w ++ quote :: rest ≠ quote :: quote :: r := by
  intro heq
  cases w with
  | nil =>
      rw [List.nil_append] at heq
      have htail := (List.cons.inj heq).2
      exact hrest quote (by rw [htail]; rfl) rfl
  | cons c w => exact hw c rfl (List.cons.inj heq).1

/-- A literal string is read back. -/
theorem readQuoted_of_literal {t : String} (h : ∀ c ∈ t.toList, isLiteral c = true)
    (hrest : NoQuote '\'' rest) :
    readQuoted (Style.literal.write t.toList ++ rest) = some (t, rest) := by
  have hhead : NoQuote '\'' t.toList := by
    intro c hc heq
    have := h c (List.mem_of_mem_head? hc)
    rw [heq] at this
    cases this
  have hshape : Style.literal.write t.toList ++ rest = '\'' :: (t.toList ++ '\'' :: rest) := by
    simp [Style.write]
  rw [hshape, readQuoted_literal (hhead.close hrest), readLiteral_of_all h, String.ofList_toList]

/-- A string is read back from any style that its characters allow. -/
theorem readQuoted_quoted (t : String) (hdouble : NoQuote '"' rest) (hsingle : NoQuote '\'' rest) :
    readQuoted (quoted t ++ rest) = some (t, rest) := by
  have hbasic : readQuoted (Style.basic.write t.toList ++ rest) = some (t, rest) := by
    have hshape :
        Style.basic.write t.toList ++ rest = '"' :: (escaped t.toList ++ '"' :: rest) := by
      simp [Style.write]
    rw [hshape, readQuoted_basic ((escaped_head _).close hdouble),
      readBasic_escaped _ _ _ _ (by simp only [List.length_append, List.length_cons]; omega),
      List.reverse_nil, List.nil_append,
      String.ofList_toList]
  -- Both styles of several lines are read by the same loop, with its own quote and with or
  -- without escapes.
  have hlines : ∀ q escapes w, (q = '"' ∨ q = '\'') → Shows q escapes 0 w t.toList →
      readLines q escapes ((opening t.toList ++ (w ++ (fence q ++ rest))).length + 1) []
        (afterOpening (opening t.toList ++ (w ++ (fence q ++ rest)))) = some (t, rest) := by
    intro q escapes w hq hshows
    have hread := readLines_opening hshows (by rcases hq with rfl | rfl <;> decide)
      (by rcases hq with rfl | rfl <;> decide)
      (by rcases hq with rfl | rfl; exact hdouble; exact hsingle)
      ((opening t.toList ++ (w ++ (fence q ++ rest))).length + 1) (by simp; omega)
    rwa [String.ofList_toList] at hread
  have hbasicLines : readQuoted (Style.basicLines.write t.toList ++ rest) = some (t, rest) := by
    have hread := hlines '"' true _ (.inl rfl) (shows_escapedLines t.toList (by decide))
    simpa [Style.write, fence, readQuoted] using hread
  -- The cases are those of the style that the text is given, in the order in which they are
  -- tried.
  unfold quoted Style.of
  dsimp only
  split
  · exact hbasic
  · split
    · rename_i hplain
      simp only [Bool.and_eq_true, Bool.not_eq_true'] at hplain
      have hnoQuote : '\'' ∉ t.toList := by simpa using hplain.1.2
      have hnoLine : '\n' ∉ t.toList := by simpa using hplain.2
      refine readQuoted_of_literal (fun c hc => ?_) hsingle
      have hcode : isCode c = false := List.any_eq_false.1 hplain.1.1 c hc |> eq_false_of_ne_true
      have hquote : c ≠ '\'' := fun heq => hnoQuote (heq ▸ hc)
      have hline : c ≠ '\n' := fun heq => hnoLine (heq ▸ hc)
      simpa [isCode, isLiteral, hquote, hline] using hcode
    · split
      · exact hbasicLines
      · split
        · rename_i hplain
          simp only [Bool.and_eq_true, Bool.not_eq_true'] at hplain
          have hread := hlines '\'' false _ (.inr rfl)
            (shows_self t.toList hplain.1 (fun h => by cases h) hplain.2 (by decide))
          simpa [Style.write, fence, readQuoted] using hread
        · split
          · exact hbasicLines
          · exact hbasic

-- ================================================================ keys

/-- What may follow a part of a key: nothing that goes on a bare one. -/
def NotBare (rest : List Char) : Prop := ∀ c ∈ rest.head?, isBare c = false

/-- A bare part of a key is read up to the first other character. -/
theorem readKeyPart_bare (hne : s ≠ []) (hs : ∀ c ∈ s, isBare c = true) (hrest : NotBare rest) :
    readKeyPart (s ++ rest) = some (String.ofList s, rest) := by
  have hfirst : ∀ d ∈ (s ++ rest).head?, isBare d = true := by
    intro d hd
    rw [List.head?_append_of_ne_nil _ hne] at hd
    exact hs d (List.mem_of_mem_head? hd)
  unfold readKeyPart
  split
  · rename_i heq
    cases hfirst '"' (by rw [heq]; rfl)
  · rename_i heq
    cases hfirst '\'' (by rw [heq]; rfl)
  · rw [takeWhile_append_of_all hs hrest, dropWhile_append_of_all hs hrest]
    simp [hne]

/-- A part of a key is read back. -/
theorem readKeyPart_text (k : String) (hrest : NotBare rest) :
    readKeyPart (keyPartText k ++ rest) = some (k, rest) := by
  have hbasic : readKeyPart (Style.basic.write k.toList ++ rest) = some (k, rest) := by
    have hread := readBasic_escaped k.toList ((escaped k.toList ++ '"' :: rest).length + 1) [] rest
      (by simp only [List.length_append, List.length_cons]; omega)
    rw [List.reverse_nil, List.nil_append, String.ofList_toList] at hread
    simpa [Style.write, readKeyPart] using hread
  unfold keyPartText
  split
  · rename_i hbare
    simp only [Bool.and_eq_true, List.all_eq_true] at hbare
    have hread := readKeyPart_bare (s := k.toList) (by simpa using hbare.1) hbare.2 hrest
    rwa [String.ofList_toList] at hread
  · unfold Style.ofKey
    dsimp only
    split
    · exact hbasic
    · split
      · rename_i hplain
        simp only [Bool.and_eq_true, Bool.not_eq_true', List.all_eq_true] at hplain
        have hnoQuote : '\'' ∉ k.toList := by simpa using hplain.2
        have hread := readLiteral_of_all (s := k.toList) (fun c hc => by
          have hquote : c ≠ '\'' := fun heq => hnoQuote (heq ▸ hc)
          simp [isLiteral, hplain.1 c hc, hquote]) rest
        rw [String.ofList_toList] at hread
        simpa [Style.write, readKeyPart] using hread
      · exact hbasic

end TracedTransfer.Toml
