/-
Numbers and strings of JSON are read back from their text.

What follows a value in a text is nothing, a comma or a closing bracket
(`Ends`), so it cannot be taken for more digits. A whole number reads back
if it fits sixty-four bits, with or without a sign (`readNumber_intText`).
A string reads back whatever it holds: what is escaped takes one step of
the reader, as any other character does (`readString_escaped`).

Beside that, no text has a control character in it, so that a value never
takes more than a line.
-/
import TracedTransfer.Json.Reader
import TracedTransfer.Proofs.Text.Ascii

namespace TracedTransfer.Json

open Text

-- ============================================================= endings

/-- What may follow a value. -/
def Ends (rest : List Char) : Prop :=
  ∀ c ∈ rest.head?, c = ',' ∨ c = ']' ∨ c = '\x7d'

theorem ends_nil : Ends [] := fun _ h => by cases h

theorem Ends.of_head {c : Char} (h : c = ',' ∨ c = ']' ∨ c = '\x7d') (rest : List Char) :
    Ends (c :: rest) := by
  intro d hd
  cases hd
  exact h

/-- Nothing of a number follows. -/
theorem Ends.not_digit {rest : List Char} (h : Ends rest) :
    ∀ c ∈ rest.head?, c.isDigit = false := by
  intro c hc
  rcases h c hc with rfl | rfl | rfl
  · rfl
  · rfl
  · rfl

-- ============================================================ decimals

/-- A number is written as its last figure behind the others. -/
theorem decimal_eq (n : Nat) : decimal n =
    if n < 10 then [n.digitChar] else decimal (n / 10) ++ [(n % 10).digitChar] := by
  unfold decimal
  rw [Nat.repr_eq_ofList_toDigits, Nat.repr_eq_ofList_toDigits, String.toList_ofList,
    String.toList_ofList]
  exact Nat.toDigits_eq_if (by decide)

/-- It is written in figures, -/
theorem isDigit_of_mem_decimal {n : Nat} {c : Char} (h : c ∈ decimal n) :
    c.isDigit = true := by
  unfold decimal at h
  rw [Nat.repr_eq_ofList_toDigits, String.toList_ofList] at h
  exact Nat.isDigit_of_mem_toDigits (by decide) (by decide) h

/-- and in one at least. -/
theorem decimal_ne_nil (n : Nat) : decimal n ≠ [] := by
  rw [decimal_eq]
  split
  · exact List.cons_ne_nil _ _
  · exact List.append_ne_nil_of_right_ne_nil _ (List.cons_ne_nil _ _)

theorem digitValue?_digitChar {d : Nat} (h : d < 10) : digitValue? 10 d.digitChar = some d := by
  have hall : ∀ d < 10, digitValue? 10 d.digitChar = some d := by decide
  exact hall d h

/-- The digits of a number denote it. -/
theorem ofDigits?_decimal (n : Nat) : ofDigits? 10 (decimal n) = some n := by
  induction n using Nat.strongRecOn with
  | ind n ih =>
      rw [decimal_eq]
      split
      · next hlt =>
          show (some 0).bind (fun k => (digitValue? 10 n.digitChar).map (k * 10 + ·)) = some n
          rw [digitValue?_digitChar hlt]
          simp
      · next hlt =>
          have hrest := ih (n / 10) (by omega)
          unfold ofDigits? at hrest ⊢
          rw [List.foldl_append, hrest, List.foldl_cons, List.foldl_nil, Option.bind_some,
            digitValue?_digitChar (Nat.mod_lt n (by decide)), Option.map_some]
          exact congrArg some (by omega)

/-- No number but zero begins with a zero. -/
theorem head?_decimal {n : Nat} (h : (decimal n).head? = some '0') : n = 0 := by
  induction n using Nat.strongRecOn with
  | ind n ih =>
      rw [decimal_eq] at h
      split at h
      · next hlt =>
          have hall : ∀ d < 10, d.digitChar = '0' → d = 0 := by decide
          exact hall n hlt (Option.some.inj h)
      · next hlt =>
          rw [List.head?_append_of_ne_nil _ (decimal_ne_nil _)] at h
          have hzero := ih (n / 10) (by omega) h
          omega

-- ============================================================= numbers

/-- Figures are read up to where they end. -/
theorem digits1?_decimal (n : Nat) {rest : List Char} (h : Ends rest) :
    digits1? (decimal n ++ rest) = some (decimal n, rest) := by
  have hall : ∀ c ∈ decimal n, c.isDigit = true := fun c hc => isDigit_of_mem_decimal hc
  unfold digits1?
  simp only [takeWhile_append_of_all hall h.not_digit, dropWhile_append_of_all hall h.not_digit,
    List.isEmpty_eq_false_iff.2 (decimal_ne_nil n), Bool.false_eq_true, if_false]

/-- There is no fraction there, -/
theorem fraction?_of_ends {rest : List Char} (h : Ends rest) :
    fraction? rest = some ([], rest) := by
  cases rest with
  | nil => rfl
  | cons c rest =>
      rcases h c rfl with rfl | rfl | rfl
      · rfl
      · rfl
      · rfl

/-- and no exponent. -/
theorem exponent?_of_ends {rest : List Char} (h : Ends rest) :
    exponent? rest = some (none, rest) := by
  cases rest with
  | nil => rfl
  | cons c rest =>
      rcases h c rfl with rfl | rfl | rfl
      · rfl
      · rfl
      · rfl

/-- Whether a whole number fits sixty-four bits, with or without a sign. -/
def fits (n : Int) : Bool := -9223372036854775808 ≤ n && n < 18446744073709551616

/-- The rest of a number after its sign. -/
def readMagnitude (negative : Bool) (s : List Char) : Option (Json × List Char) := do
  let (whole, rest) ← digits1? s
  if whole.head? = some '0' && 1 < whole.length then none
  else
    let (fraction, rest) ← fraction? rest
    let (e, rest) ← exponent? rest
    return (ofNumberParts negative whole fraction e, rest)

/-- No zero stands in front of other figures. -/
theorem whole_of_decimal (n : Nat) :
    ¬ ((decimal n).head? = some '0' && decide (1 < (decimal n).length)) = true := by
  rw [Bool.and_eq_true, decide_eq_true_eq]
  rintro ⟨hzero, hlen⟩
  have hn := head?_decimal (by simpa using hzero)
  subst hn
  exact absurd hlen (by decide)

/-- The sign of a number that begins with a digit. -/
theorem readNumber_of_digit {c : Char} (hc : c.isDigit = true) (rest : List Char) :
    readNumber (c :: rest) = readMagnitude false (c :: rest) := by
  have hne : c ≠ '-' := by rintro rfl; cases hc
  unfold readNumber
  split
  next heq =>
    split at heq
    · next hs =>
        cases hs
        exact absurd rfl hne
    · cases heq
      rfl

/-- A whole number is read back. -/
theorem readNumber_intText {n : Int} (hn : fits n = true) {rest : List Char} (h : Ends rest) :
    readNumber (intText n ++ rest) = some (.int n, rest) := by
  unfold fits at hn
  rw [Bool.and_eq_true, decide_eq_true_eq, decide_eq_true_eq] at hn
  -- Behind the digits stands nothing that a fraction or an exponent could begin with.
  have hmagnitude : ∀ negative k, readMagnitude negative (decimal k ++ rest)
      = some (ofNumberParts negative (decimal k) [] none, rest) := by
    intro negative k
    unfold readMagnitude
    simp only [digits1?_decimal k h, bind, Option.bind, if_neg (whole_of_decimal k),
      fraction?_of_ends h, exponent?_of_ends h]
    rfl
  cases n with
  | ofNat k =>
      have hlt : k < u64Bound := by
        have hup := hn.2
        rw [Int.ofNat_eq_natCast] at hup
        unfold u64Bound
        omega
      have hparts : ofNumberParts false (decimal k) [] none = .int (k : Int) := by
        unfold ofNumberParts
        simp only [List.isEmpty_nil, Option.isNone_none, Bool.and_self, if_true,
          ofDigits?_decimal, Option.getD_some, Bool.false_eq_true, if_false, if_pos hlt]
      have hread : readNumber (decimal k ++ rest) = readMagnitude false (decimal k ++ rest) := by
        rcases hd : decimal k with _ | ⟨c, ds⟩
        · exact absurd hd (decimal_ne_nil k)
        · exact readNumber_of_digit (isDigit_of_mem_decimal (hd ▸ List.mem_cons_self ..)) _
      show readNumber (decimal k ++ rest) = _
      rw [hread, hmagnitude, hparts]
      rfl
  | negSucc k =>
      have hbig : ¬ (decide (k + 1 = 0) || decide (9223372036854775808 < k + 1)) = true := by
        rw [Bool.or_eq_true, decide_eq_true_eq, decide_eq_true_eq]
        omega
      have hparts : ofNumberParts true (decimal (k + 1)) [] none = .int (.negSucc k) := by
        unfold ofNumberParts
        simp only [List.isEmpty_nil, Option.isNone_none, Bool.and_self, if_true,
          ofDigits?_decimal, Option.getD_some, if_neg hbig]
        rfl
      show readMagnitude true (decimal (k + 1) ++ rest) = _
      rw [hmagnitude, hparts]

-- ============================================================= strings

/-- An escape by number, as control characters have. -/
theorem escape?_control {n : Nat} (hn : n < 0x20) (rest : List Char) :
    escape? ('u' :: '0' :: '0' :: hexDigit (n / 16) :: hexDigit (n % 16) :: rest)
      = some (Char.ofNat n, rest) := by
  have hdigits : ∀ n < 0x20,
      ofDigits? 16 ['0', '0', hexDigit (n / 16), hexDigit (n % 16)] = some n := by decide
  show unicodeEscape? ('0' :: '0' :: hexDigit (n / 16) :: hexDigit (n % 16) :: rest) = _
  unfold unicodeEscape? hex4?
  simp only [hdigits n hn, Option.map_some, bind, Option.bind]
  rw [if_neg (by simp; omega), if_neg (by simp; omega)]
  rfl

/-- One character of a string takes one step of the reader. -/
theorem readString_escapeChar (fuel : Nat) (acc : List Char) (c : Char) (rest : List Char) :
    readString (fuel + 1) acc (escapeChar c ++ rest) = readString fuel (c :: acc) rest := by
  unfold escapeChar
  split
  · next h => subst h; rfl
  · next hquote =>
      split
      · next h => subst h; rfl
      · next hslash =>
          split
          · next h => subst h; rfl
          · split
            · next h => subst h; rfl
            · split
              · next h => subst h; rfl
              · split
                · next h => subst h; rfl
                · split
                  · next h => subst h; rfl
                  · split
                    · next hlow =>
                        show readString (fuel + 1) acc ('\\' :: 'u' :: '0' :: '0'
                            :: hexDigit (c.toNat / 16) :: hexDigit (c.toNat % 16) :: rest) = _
                        rw [readString, if_neg (by decide), if_pos rfl, escape?_control hlow,
                          Char.ofNat_toNat]
                    · next hlow =>
                        rw [List.singleton_append, readString, if_neg hquote, if_neg hslash,
                          if_neg hlow]

/-- A string is read back up to its closing quote, whatever it holds. -/
theorem readString_escaped (s acc : List Char) (rest : List Char) {fuel : Nat}
    (hfuel : s.length < fuel) :
    readString fuel acc (s.flatMap escapeChar ++ '"' :: rest)
      = some (String.ofList (acc.reverse ++ s), rest) := by
  induction s generalizing acc fuel with
  | nil =>
      obtain ⟨fuel, rfl⟩ : ∃ k, fuel = k + 1 := ⟨fuel - 1, by rw [List.length_nil] at hfuel; omega⟩
      rw [List.append_nil]
      rfl
  | cons c s ih =>
      obtain ⟨fuel, rfl⟩ : ∃ k, fuel = k + 1 := ⟨fuel - 1, by omega⟩
      rw [List.flatMap_cons, List.append_assoc, readString_escapeChar,
        ih (c :: acc) (by rw [List.length_cons] at hfuel; omega), List.reverse_cons,
        List.append_assoc]
      rfl

/-- Escapes make a text longer. -/
theorem length_le_escaped (s : List Char) : s.length ≤ (s.flatMap escapeChar).length := by
  induction s with
  | nil => exact Nat.le_refl _
  | cons c s ih =>
      have hc : 1 ≤ (escapeChar c).length := by
        unfold escapeChar
        repeat' split
        all_goals simp
      rw [List.flatMap_cons, List.length_append, List.length_cons]
      omega

/-- A string is read back by the fuel that a value gives. -/
theorem readString_quoted (s : String) (rest : List Char) :
    readString ((s.toList.flatMap escapeChar ++ '"' :: rest).length + 1) []
      (s.toList.flatMap escapeChar ++ '"' :: rest) = some (s, rest) := by
  have hlen := length_le_escaped s.toList
  rw [readString_escaped s.toList [] rest (by rw [List.length_append]; omega),
    List.reverse_nil, List.nil_append, String.ofList_toList]

-- =================================================== control characters

/-- No character of a text is a control character of C0. -/
def Printable (s : List Char) : Prop := ∀ c ∈ s, 0x20 ≤ c.toNat

/-- Two texts without controls make one without, -/
theorem Printable.append {s t : List Char} (hs : Printable s) (ht : Printable t) :
    Printable (s ++ t) := by
  intro c hc
  rcases List.mem_append.1 hc with hc | hc
  · exact hs c hc
  · exact ht c hc

/-- character by character, -/
theorem Printable.cons {c : Char} {s : List Char} (hc : 0x20 ≤ c.toNat) (hs : Printable s) :
    Printable (c :: s) := by
  intro d hd
  rcases List.mem_cons.1 hd with rfl | hd
  · exact hc
  · exact hs d hd

/-- and nothing is one without. -/
theorem printable_nil : Printable [] := fun _ h => (List.not_mem_nil h).elim

/-- It can be checked letter by letter. -/
theorem printable_of_all {s : List Char} (h : s.all (0x20 ≤ ·.toNat) = true) : Printable s :=
  fun c hc => of_decide_eq_true (List.all_eq_true.1 h c hc)

/-- What is made of characters without controls has none. -/
theorem Printable.subset {s t : List Char} (hs : Printable s) (h : ∀ c ∈ t, c ∈ s) :
    Printable t := fun c hc => hs c (h c hc)

/-- Figures can be printed, -/
theorem printable_decimal (n : Nat) : Printable (decimal n) := by
  intro c hc
  have hdigit := isDigit_of_mem_decimal hc
  unfold Char.isDigit at hdigit
  rw [Bool.and_eq_true, decide_eq_true_eq] at hdigit
  have hlow : (48 : Nat) ≤ c.toNat := hdigit.1
  omega

/-- a sign too, -/
theorem printable_intText (n : Int) : Printable (intText n) := by
  cases n with
  | ofNat k => exact printable_decimal k
  | negSucc k => exact .cons (by decide) (printable_decimal (k + 1))

/-- and the digits of an escape. -/
theorem hexDigit_printable {n : Nat} (hn : n < 16) : 0x20 ≤ (hexDigit n).toNat := by
  have hall : ∀ n < 16, 0x20 ≤ (hexDigit n).toNat := by decide
  exact hall n hn

/-- So an escape can be printed, which a control becomes, -/
theorem printable_escapeChar (c : Char) : Printable (escapeChar c) := by
  have hpair : ∀ d : Char, 0x20 ≤ d.toNat → Printable ['\\', d] := fun d hd =>
    .cons (by decide) (.cons hd printable_nil)
  unfold escapeChar
  split
  · exact hpair _ (by decide)
  · split
    · exact hpair _ (by decide)
    · split
      · exact hpair _ (by decide)
      · split
        · exact hpair _ (by decide)
        · split
          · exact hpair _ (by decide)
          · split
            · exact hpair _ (by decide)
            · split
              · exact hpair _ (by decide)
              · split
                · next hlow =>
                    exact .cons (by decide) (.cons (by decide) (.cons (by decide)
                      (.cons (by decide) (.cons (hexDigit_printable (by omega))
                        (.cons (hexDigit_printable (by omega)) printable_nil)))))
                · next hlow => exact .cons (Nat.le_of_not_lt hlow) printable_nil

/-- and all that stands in quotes. -/
theorem printable_quoted (s : String) : Printable (quoted s) := by
  refine .append (.cons (by decide) ?_) (.cons (by decide) printable_nil)
  intro c hc
  obtain ⟨d, -, hd⟩ := List.mem_flatMap.1 hc
  exact printable_escapeChar d c hd

end TracedTransfer.Json
