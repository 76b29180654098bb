/-
A value is read back from its text (`parseChars_text`), floating-point
numbers and whole numbers beyond sixty-four bits aside (`isExact`).

The reader's fuel is the length of the text. A value hands on all but one
step of it to its items or members, and each of those all but one to the
value within, so every value still has more fuel than characters
(`readValue_text`, by induction on the value, with its lists of items and
members beside it). What follows a value never runs on into it: a comma
or a bracket does, or nothing at all (`Ends`).

No text has a line break in it, whatever the value is (`printable_text`).
-/
import TracedTransfer.Proofs.Json.Scalar

namespace TracedTransfer.Json

open Text

-- ======================================================== exact values

mutual

/-- Whether a value has no floating-point number and no whole number beyond sixty-four bits. -/
def isExact : Json → Bool
  | .float _ => false
  | .int n => fits n
  | .arr items => areExact items
  | .obj ms => membersExact ms
  | _ => true

/-- Whether all items of a list are exact. -/
def areExact : List Json → Bool
  | [] => true
  | j :: rest => isExact j && areExact rest

/-- Whether all values of a list of members are exact. -/
def membersExact : List (String × Json) → Bool
  | [] => true
  | (_, v) :: rest => isExact v && membersExact rest

end

/-- What has 64 bits fits. -/
theorem fits_natCast {n : Nat} (h : n < u64Bound) : fits (n : Int) = true := by
  unfold fits
  rw [Bool.and_eq_true, decide_eq_true_eq, decide_eq_true_eq]
  unfold u64Bound at h
  omega

-- ============================================================== blanks

/-- Nothing is skipped in front of what is no space, -/
theorem skipSpace_cons {c : Char} (hc : isSpace c = false) (s : List Char) :
    skipSpace (c :: s) = c :: s := by
  unfold skipSpace
  rw [List.dropWhile_cons_of_neg (by rw [hc]; exact Bool.false_ne_true)]

/-- and a figure is none. -/
theorem isSpace_of_isDigit {c : Char} (hc : c.isDigit = true) : isSpace c = false := by
  have hne : ∀ d : Char, d.isDigit = false → c ≠ d := by
    rintro d hd rfl
    rw [hd] at hc
    exact Bool.false_ne_true hc
  unfold isSpace
  rw [decide_eq_false (hne ' ' rfl), decide_eq_false (hne '\t' rfl),
    decide_eq_false (hne '\n' rfl), decide_eq_false (hne '\r' rfl)]
  rfl

/-- A whole number begins with a digit or a minus sign. -/
theorem intText_head (n : Int) :
    ∃ c s, intText n = c :: s ∧ (c.isDigit = true ∨ c = '-') := by
  cases n with
  | ofNat k =>
      rcases hd : decimal k with _ | ⟨c, ds⟩
      · exact absurd hd (decimal_ne_nil k)
      · exact ⟨c, ds, hd, .inl (isDigit_of_mem_decimal (hd ▸ List.mem_cons_self ..))⟩
  | negSucc k => exact ⟨'-', _, rfl, .inr rfl⟩

/-- A character that begins a number begins no other value. -/
theorem readValue_of_numeral {c : Char} (hc : c.isDigit = true ∨ c = '-') (fuel : Nat)
    (rest : List Char) : readValue (fuel + 1) (c :: rest) = readNumber (c :: rest) := by
  have hspace : isSpace c = false := by
    rcases hc with hc | rfl
    · exact isSpace_of_isDigit hc
    · rfl
  have hne : ∀ d : Char, d.isDigit = false → d ≠ '-' → c ≠ d := by
    rintro d hd hminus rfl
    rcases hc with hc | hc
    · rw [hd] at hc
      exact Bool.false_ne_true hc
    · exact hminus hc
  -- No word and no bracket begins like a numeral.
  have hword : ∀ (w : Char) (ws : List Char), w.isDigit = false → w ≠ '-' →
      stripStart? (w :: ws) (c :: rest) = none := by
    intro w ws hw hminus
    rw [stripStart?, if_neg (hne w hw hminus).symm]
  rw [readValue, skipSpace_cons hspace]
  split
  · next heq => cases heq
  · next heq =>
      cases heq
      exact absurd rfl (hne '"' rfl (by decide))
  · next heq =>
      cases heq
      exact absurd rfl (hne '[' rfl (by decide))
  · next heq =>
      cases heq
      exact absurd rfl (hne '\x7b' rfl (by decide))
  · next heq =>
      cases heq
      have hnull : stripStart? "null".toList (c :: rest) = none := hword 'n' _ rfl (by decide)
      have htrue : stripStart? "true".toList (c :: rest) = none := hword 't' _ rfl (by decide)
      have hfalse : stripStart? "false".toList (c :: rest) = none := hword 'f' _ rfl (by decide)
      simp only [hnull, htrue, hfalse]

/-- The text of an exact value begins with neither a blank nor the bracket that closes a list. -/
theorem text_begins {j : Json} (hj : isExact j = true) :
    ∃ c s, text j = c :: s ∧ isSpace c = false ∧ c ≠ ']' := by
  cases j with
  | null => exact ⟨_, _, rfl, rfl, by decide⟩
  | bool b =>
      cases b with
      | false => exact ⟨_, _, rfl, rfl, by decide⟩
      | true => exact ⟨_, _, rfl, rfl, by decide⟩
  | int n =>
      obtain ⟨c, s, htext, hc⟩ := intText_head n
      refine ⟨c, s, htext, ?_, ?_⟩
      · rcases hc with hc | rfl
        · exact isSpace_of_isDigit hc
        · rfl
      · rcases hc with hc | rfl
        · rintro rfl
          cases hc
        · decide
  | float x => cases hj
  | str s => exact ⟨_, _, rfl, rfl, by decide⟩
  | arr items => exact ⟨_, _, rfl, rfl, by decide⟩
  | obj ms => exact ⟨_, _, rfl, rfl, by decide⟩

-- ================================================== items and members

theorem itemsText_cons (j k : Json) (js : List Json) :
    itemsText (j :: k :: js) = text j ++ ',' :: itemsText (k :: js) := by
  rw [itemsText]
  exact List.cons_ne_nil k js

theorem membersText_cons (n : String) (v : Json) (m : String × Json) (ms : List (String × Json)) :
    membersText ((n, v) :: m :: ms)
      = quoted n ++ ':' :: (text v ++ ',' :: membersText (m :: ms)) := by
  rw [membersText]
  exact List.cons_ne_nil m ms

/-- A list of items begins as its first item does. -/
theorem itemsText_begins {j : Json} (hj : isExact j = true) (js : List Json) :
    ∃ c s, itemsText (j :: js) = c :: s ∧ isSpace c = false ∧ c ≠ ']' := by
  obtain ⟨c, s, htext, hsolid, hbracket⟩ := text_begins hj
  cases js with
  | nil => exact ⟨c, s, htext, hsolid, hbracket⟩
  | cons k js =>
      refine ⟨c, s ++ ',' :: itemsText (k :: js), ?_, hsolid, hbracket⟩
      rw [itemsText_cons, htext, List.cons_append]

/-- A list of members begins with the quote of the first name. -/
theorem membersText_begins (m : String × Json) (ms : List (String × Json)) :
    ∃ s, membersText (m :: ms) = '"' :: s := by
  cases ms with
  | nil => exact ⟨_, rfl⟩
  | cons m' ms => exact ⟨_, membersText_cons m.1 m.2 m' ms⟩

/-- What the reader does after a member: at a comma it takes another one, and
at the closing brace it is done. -/
def afterMember (fuel : Nat) (acc : List (String × Json)) (rest : List Char) :
    Option (List (String × Json) × List Char) :=
  match skipSpace rest with
  | ',' :: r => readMembers fuel acc r
  | '\x7d' :: r => some (acc.reverse, r)
  | _ => none

/-- The reader takes a member, and goes on after its value. -/
theorem readMembers_member (n : String) {v : Json} {fuel : Nat} {rest : List Char}
    (hv : readValue fuel (text v ++ rest) = some (v, rest)) (acc : List (String × Json)) :
    readMembers (fuel + 1) acc (quoted n ++ ':' :: (text v ++ rest))
      = afterMember fuel ((n, v) :: acc) rest := by
  have hname := readString_quoted n (':' :: (text v ++ rest))
  have hquoted : quoted n ++ ':' :: (text v ++ rest)
      = '"' :: (n.toList.flatMap escapeChar ++ '"' :: ':' :: (text v ++ rest)) := by
    unfold quoted
    rw [List.append_assoc, List.cons_append]
    rfl
  have hcolon : skipSpace (':' :: (text v ++ rest)) = ':' :: (text v ++ rest) :=
    skipSpace_cons rfl _
  rw [hquoted, readMembers, skipSpace_cons rfl]
  simp only [hname, hcolon, hv]
  rfl

-- ============================================================== values

mutual

/-- A value is read back if there is more fuel than text. -/
theorem readValue_text : ∀ (j : Json), isExact j = true → ∀ {fuel : Nat},
    (text j).length < fuel → ∀ {rest : List Char}, Ends rest →
      readValue fuel (text j ++ rest) = some (j, rest)
  | j, hj, 0, hfuel, _, _ => absurd hfuel (Nat.not_lt_zero _)
  | .null, _, fuel + 1, _, rest, _ => rfl
  | .bool true, _, fuel + 1, _, rest, _ => rfl
  | .bool false, _, fuel + 1, _, rest, _ => rfl
  | .int n, hj, fuel + 1, _, rest, hrest => by
      obtain ⟨c, s, htext, hc⟩ := intText_head n
      have hread := readNumber_intText hj hrest
      show readValue (fuel + 1) (intText n ++ rest) = _
      rw [htext, List.cons_append] at hread ⊢
      rw [readValue_of_numeral hc, hread]
  | .float x, hj, _, _, _, _ => by cases hj
  | .str t, _, fuel + 1, _, rest, _ => by
      have hread := readString_quoted t rest
      show readValue (fuel + 1) (('"' :: t.toList.flatMap escapeChar ++ ['"']) ++ rest) = _
      rw [List.append_assoc, List.cons_append, List.singleton_append, readValue,
        skipSpace_cons rfl]
      show (readString _ [] _).map _ = _
      rw [hread]
      rfl
  | .arr [], _, fuel + 1, _, rest, _ => rfl
  | .arr (j :: js), hj, fuel + 1, hfuel, rest, hrest => by
      have hlen : (itemsText (j :: js)).length + 1 < fuel := by
        have : (text (.arr (j :: js))).length = (itemsText (j :: js)).length + 2 := by
          show (('[' :: itemsText (j :: js)) ++ [']']).length = _
          rw [List.length_append, List.length_cons]
          rfl
        omega
      -- The items are shorter than the array by its brackets, so the fuel that is left is
      -- enough.
      have hread := readItems_text j js hj hlen [] rest
      obtain ⟨c, s, hbegins, hsolid, hbracket⟩ := itemsText_begins (Bool.and_eq_true _ _ ▸ hj).1 js
      show readValue (fuel + 1) (('[' :: itemsText (j :: js) ++ [']']) ++ rest) = _
      rw [List.append_assoc, List.cons_append, List.singleton_append, readValue,
        skipSpace_cons rfl]
      rw [hbegins, List.cons_append] at hread ⊢
      simp only [skipSpace_cons hsolid]
      split
      · next heq =>
          cases heq
          exact absurd rfl hbracket
      · rw [hread]
        rfl
  | .obj [], _, fuel + 1, _, rest, _ => rfl
  | .obj ((n, v) :: ms), hj, fuel + 1, hfuel, rest, hrest => by
      have hlen : (membersText ((n, v) :: ms)).length + 1 < fuel := by
        have : (text (.obj ((n, v) :: ms))).length
            = (membersText ((n, v) :: ms)).length + 2 := by
          show (('\x7b' :: membersText ((n, v) :: ms)) ++ ['\x7d']).length = _
          rw [List.length_append, List.length_cons]
          rfl
        omega
      have hread := readMembers_text n v ms hj hlen [] rest
      obtain ⟨s, hbegins⟩ := membersText_begins (n, v) ms
      show readValue (fuel + 1) (('\x7b' :: membersText ((n, v) :: ms) ++ ['\x7d']) ++ rest) = _
      rw [List.append_assoc, List.cons_append, List.singleton_append, readValue,
        skipSpace_cons rfl]
      rw [hbegins, List.cons_append] at hread ⊢
      have hsolid : skipSpace ('"' :: (s ++ '\x7d' :: rest)) = '"' :: (s ++ '\x7d' :: rest) :=
        skipSpace_cons rfl _
      simp only [hsolid]
      rw [hread]
      rfl

/-- Items are read back up to the bracket that closes them. -/
theorem readItems_text : ∀ (j : Json) (js : List Json), areExact (j :: js) = true →
    ∀ {fuel : Nat}, (itemsText (j :: js)).length + 1 < fuel →
      ∀ (acc : List Json) (rest : List Char),
        readItems fuel acc (itemsText (j :: js) ++ ']' :: rest)
          = some (acc.reverse ++ j :: js, rest)
  | j, js, _, 0, hfuel, _, _ => absurd hfuel (Nat.not_lt_zero _)
  | j, [], hj, fuel + 1, hfuel, acc, rest => by
      have hexact : isExact j = true := (Bool.and_eq_true _ _ ▸ hj).1
      have hlen : (text j).length < fuel := by
        rw [itemsText] at hfuel
        omega
      have hread := readValue_text j hexact hlen (.of_head (.inr (.inl rfl)) rest)
      rw [itemsText, readItems, hread]
      show some ((j :: acc).reverse, rest) = _
      rw [List.reverse_cons]
  | j, k :: js, hj, fuel + 1, hfuel, acc, rest => by
      have hexact : isExact j = true ∧ areExact (k :: js) = true := Bool.and_eq_true _ _ ▸ hj
      have hlen : (itemsText (j :: k :: js)).length
          = (text j).length + 1 + (itemsText (k :: js)).length := by
        rw [itemsText_cons, List.length_append, List.length_cons]
        omega
      have hfirst : (text j).length < fuel := by omega
      have hothers : (itemsText (k :: js)).length + 1 < fuel := by omega
      have hread := readValue_text j hexact.1 hfirst
        (.of_head (.inl rfl) (itemsText (k :: js) ++ ']' :: rest))
      have hrest := readItems_text k js hexact.2 hothers (j :: acc) rest
      rw [itemsText_cons, List.append_assoc, List.cons_append, readItems, hread]
      show readItems fuel (j :: acc) (itemsText (k :: js) ++ ']' :: rest) = _
      rw [hrest, List.reverse_cons, List.append_assoc]
      rfl

/-- Members are read back up to the brace that closes them. -/
theorem readMembers_text : ∀ (n : String) (v : Json) (ms : List (String × Json)),
    membersExact ((n, v) :: ms) = true →
    ∀ {fuel : Nat}, (membersText ((n, v) :: ms)).length + 1 < fuel →
      ∀ (acc : List (String × Json)) (rest : List Char),
        readMembers fuel acc (membersText ((n, v) :: ms) ++ '\x7d' :: rest)
          = some (acc.reverse ++ (n, v) :: ms, rest)
  | n, v, ms, _, 0, hfuel, _, _ => absurd hfuel (Nat.not_lt_zero _)
  | n, v, [], hj, fuel + 1, hfuel, acc, rest => by
      have hexact : isExact v = true := (Bool.and_eq_true _ _ ▸ hj).1
      have hlen : (membersText [(n, v)]).length = (quoted n).length + 1 + (text v).length := by
        rw [membersText, List.length_append, List.length_cons]
        omega
      have hfirst : (text v).length < fuel := by omega
      have hread := readValue_text v hexact hfirst (.of_head (.inr (.inr rfl)) rest)
      rw [membersText, List.append_assoc, List.cons_append, readMembers_member n hread]
      show some (((n, v) :: acc).reverse, rest) = _
      rw [List.reverse_cons]
  | n, v, (k, w) :: ms, hj, fuel + 1, hfuel, acc, rest => by
      have hexact : isExact v = true ∧ membersExact ((k, w) :: ms) = true :=
        Bool.and_eq_true _ _ ▸ hj
      have hlen : (membersText ((n, v) :: (k, w) :: ms)).length = (quoted n).length + 1
          + (text v).length + 1 + (membersText ((k, w) :: ms)).length := by
        rw [membersText_cons, List.length_append, List.length_cons, List.length_append,
          List.length_cons]
        omega
      have hfirst : (text v).length < fuel := by omega
      -- The rest is shorter by a name, a colon, a value and a comma.
      have hothers : (membersText ((k, w) :: ms)).length + 1 < fuel := by omega
      have hread := readValue_text v hexact.1 hfirst
        (.of_head (.inl rfl) (membersText ((k, w) :: ms) ++ '\x7d' :: rest))
      have hrest := readMembers_text k w ms hexact.2 hothers ((n, v) :: acc) rest
      rw [membersText_cons, List.append_assoc, List.cons_append, List.append_assoc,
        List.cons_append, readMembers_member n hread]
      show readMembers fuel ((n, v) :: acc) (membersText ((k, w) :: ms) ++ '\x7d' :: rest) = _
      rw [hrest, List.reverse_cons, List.append_assoc]
      rfl

end

/-- A value is read back from its text, and nothing is left over. -/
theorem parseChars_text {j : Json} (hj : isExact j = true) : parseChars (text j) = some j := by
  have hread := readValue_text j hj (Nat.lt_succ_self _) ends_nil
  rw [List.append_nil] at hread
  unfold parseChars
  rw [hread]
  rfl

-- ========================================================== line breaks

/-- The figures, the point and the exponent of a float can be printed, -/
theorem printable_layOut (d : Binary64.Decimal) : Printable (layOut d) := by
  have hdigits := printable_decimal d.digits
  have hzeros : ∀ n, Printable (List.replicate n '0') := by
    intro n c hc
    rw [List.eq_of_mem_replicate hc]
    decide
  have hpoint : Printable ['.', '0'] := .cons (by decide) (.cons (by decide) printable_nil)
  have htake : ∀ n, Printable ((decimal d.digits).take n) := fun n =>
    hdigits.subset fun c hc => List.mem_of_mem_take hc
  have hdrop : ∀ n, Printable ((decimal d.digits).drop n) := fun n =>
    hdigits.subset fun c hc => List.mem_of_mem_drop hc
  unfold layOut
  simp only
  split
  · exact .append (.append hdigits (hzeros _)) hpoint
  · split
    · exact .append (htake _) (.cons (by decide) (hdrop _))
    · split
      · exact .append (.append (.cons (by decide) (.cons (by decide) printable_nil)) (hzeros _))
          hdigits
      · refine .append (.append (htake 1) ?_) (.cons (by decide) (printable_intText _))
        split
        · exact printable_nil
        · exact .cons (by decide) (hdrop 1)

/-- so a float can. -/
theorem printable_floatText (x : Binary64) : Printable (floatText x) := by
  have hnull : Printable "null".toList := printable_of_all (by decide)
  cases x with
  | finite negative m q =>
      unfold floatText
      refine .append ?_ ?_
      · split
        · exact .cons (by decide) printable_nil
        · exact printable_nil
      · split
        · exact .cons (by decide) (.cons (by decide) (.cons (by decide) printable_nil))
        · exact printable_layOut _
  | infinite negative => exact hnull
  | nan => exact hnull

mutual

/-- The text of a value has no control character in it. -/
theorem printable_text : ∀ j : Json, Printable (text j)
  | .null => printable_of_all (s := "null".toList) (by decide)
  | .bool true => printable_of_all (s := "true".toList) (by decide)
  | .bool false => printable_of_all (s := "false".toList) (by decide)
  | .int n => printable_intText n
  | .float x => printable_floatText x
  | .str s => printable_quoted s
  | .arr items =>
      .append (.cons (by decide) (printable_itemsText items)) (.cons (by decide) printable_nil)
  | .obj ms =>
      .append (.cons (by decide) (printable_membersText ms)) (.cons (by decide) printable_nil)

/-- Nor has a list of items. -/
theorem printable_itemsText : ∀ js : List Json, Printable (itemsText js)
  | [] => printable_nil
  | [j] => printable_text j
  | j :: k :: js => by
      rw [itemsText_cons]
      exact .append (printable_text j) (.cons (by decide) (printable_itemsText (k :: js)))

/-- Nor has a list of members. -/
theorem printable_membersText : ∀ ms : List (String × Json), Printable (membersText ms)
  | [] => printable_nil
  | [(n, v)] => .append (printable_quoted n) (.cons (by decide) (printable_text v))
  | (n, v) :: m :: ms => by
      rw [membersText_cons]
      exact .append (printable_quoted n) (.cons (by decide) (.append (printable_text v)
        (.cons (by decide) (printable_membersText (m :: ms)))))

end

/-- A text stands on one line. -/
theorem newline_not_mem_text (j : Json) : '\n' ∉ text j := by
  intro h
  exact absurd (printable_text j '\n' h) (by decide)

end TracedTransfer.Json
