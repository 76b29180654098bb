/-
A name in ASCII is its own ASCII form.

What a name is mapped to is in lower case (`lower_mapName`), so the ASCII
form is not changed by mapping it again. A label that was written in
Punycode is read back as the wide label it stands for, if it is not too
long for that; every other label is what it was (`label?_again`). Labels
are put together and cut apart at dots, which none of them has. So the
whole form is read as itself, unless a label is too long to be read at all
(`toAscii?_again`).
-/
import TracedTransfer.Proofs.Unicode.Lower
import TracedTransfer.Proofs.Url.Address
import TracedTransfer.Proofs.Url.Punycode
import TracedTransfer.Url.Domain

namespace TracedTransfer.Url.Domain

open Text Unicode

variable {s t : List Char}

-- ============================================================== mapping

theorem isAscii_iff : isAscii s = true ↔ ∀ c ∈ s, c.toNat < 0x80 := by
  unfold isAscii
  rw [List.all_eq_true]
  exact ⟨fun h c hc => of_decide_eq_true (h c hc), fun h c hc => decide_eq_true (h c hc)⟩

theorem isAscii_append : isAscii (s ++ t) = (isAscii s && isAscii t) := List.all_append

/-- The mapping gives small letters. -/
theorem lower_mapChar {c : Char} (h : mapChar c = some t) : Lower t := by
  unfold mapChar at h
  split at h
  · cases h
    exact lower_cons.2 ⟨toLower_toLower c, lower_nil⟩
  · rename_i hwide
    split at h
    · cases h
      exact lower_cons.2 ⟨toLower_wide (Nat.le_of_not_lt hwide), lower_nil⟩
    · cases h
      exact lower_nil
    · rename_i hbecomes
      cases h
      exact lower_of_appearance hbecomes
    · cases h

/-- Mapped names are in lower case. -/
theorem lower_mapName (h : mapName s = some t) : Lower t := by
  induction s generalizing t with
  | nil =>
      cases h
      exact lower_nil
  | cons c s ih =>
      rw [mapName] at h
      cases hc : mapChar c with
      | none =>
          rw [hc] at h
          cases h
      | some here =>
          cases hs : mapName s with
          | none =>
              rw [hc, hs] at h
              cases h
          | some tail =>
              rw [hc, hs] at h
              cases h
              exact lower_append.2 ⟨lower_mapChar hc, ih hs⟩

/-- A name of lower case in ASCII is mapped to itself. -/
theorem mapName_self (hascii : isAscii s = true) (hlower : Lower s) : mapName s = some s := by
  induction s with
  | nil => rfl
  | cons c s ih =>
      rw [isAscii_iff, List.forall_mem_cons] at hascii
      obtain ⟨hc, hs⟩ := lower_cons.1 hlower
      have hmap : mapChar c = some [c] := by rw [mapChar, if_pos hascii.1, hc]
      rw [mapName, hmap, ih (isAscii_iff.2 hascii.2) hs]
      rfl

-- =============================================================== labels

/-- Whether a label in ASCII is short enough to be read. -/
def isShort (label : List Char) : Bool :=
  (stripStart? wideMark label).all (·.length ≤ maxRead)

/-- A wide label has a character outside ASCII. -/
theorem exists_wide (h : isWideLabel s = true) : ∃ c ∈ s, 0x80 ≤ c.toNat := by
  have hascii : isAscii s = false := by
    simp only [isWideLabel, Bool.and_eq_true, Bool.not_eq_true'] at h
    exact h.1.1.1.1
  unfold isAscii at hascii
  rw [List.all_eq_false] at hascii
  obtain ⟨c, hc, hwide⟩ := hascii
  exact ⟨c, hc, Nat.le_of_not_lt fun hlt => hwide (decide_eq_true hlt)⟩

/-- The two ways in which a label comes to its ASCII form: it is in ASCII, or a wide label is
written. -/
theorem label?_cases {l : Label} (h : label? s = some l) :
    (l.ascii = s ∧ isAscii s = true ∧ isShort s = true)
      ∨ (l = ⟨wideMark ++ Punycode.encode s, s⟩ ∧ isWideLabel s = true) := by
  -- A label behind the mark of a wide one is decoded, and counts as written
  -- if that succeeds.
  unfold label? at h
  split at h
  · rename_i written hstrip
    split at h
    · rename_i hwritten
      simp only [Bool.and_eq_true, decide_eq_true_eq] at hwritten
      cases hd : Punycode.decode? written with
      | none =>
          rw [hd] at h
          cases h
      | some wide =>
          rw [hd] at h
          change (if isWideLabel wide = true then _ else _) = _ at h
          split at h
          · cases h
            refine .inl ⟨rfl, ?_, ?_⟩
            · rw [eq_append_of_stripStart? hstrip, isAscii_append, hwritten.1.1]
              rfl
            · rw [isShort, hstrip]
              exact decide_eq_true hwritten.2
          · cases h
    · cases h
  · rename_i hstrip
    split at h
    · rename_i hascii
      cases h
      exact .inl ⟨rfl, hascii, by rw [isShort, hstrip]; rfl⟩
    · split at h
      · rename_i hwide
        cases h
        rw [Bool.and_eq_true] at hwide
        exact .inr ⟨rfl, hwide.1⟩
      · cases h

/-- What the characters of an ASCII form have, if those of the label have it and so have digits and
the hyphen. -/
theorem ascii_of_label? {P : Char → Prop} (hhyphen : P '-')
    (hdigit : ∀ v < 36, P (Punycode.digit v)) (hs : ∀ c ∈ s, P c)
    {l : Label} (h : label? s = some l) : ∀ c ∈ l.ascii, P c := by
  rcases label?_cases h with ⟨heq, -, -⟩ | ⟨rfl, -⟩
  · rw [heq]
    exact hs
  · intro c hc
    rcases List.mem_append.1 hc with hc | hc
    · have hmark : ∀ c ∈ wideMark, c = '-' ∨ ∃ v < 36, c = Punycode.digit v := by
        have hspelled : wideMark = [Punycode.digit 23, Punycode.digit 13, '-', '-'] := rfl
        intro c hc
        rw [hspelled] at hc
        simp only [List.mem_cons, List.not_mem_nil, or_false] at hc
        rcases hc with rfl | rfl | rfl | rfl
        · exact .inr ⟨23, by decide, rfl⟩
        · exact .inr ⟨13, by decide, rfl⟩
        · exact .inl rfl
        · exact .inl rfl
      rcases hmark c hc with rfl | ⟨v, hv, rfl⟩
      · exact hhyphen
      · exact hdigit v hv
    · rcases Punycode.mem_encode hc with ⟨hmem, -⟩ | rfl | ⟨v, hv, rfl⟩
      · exact hs c hmem
      · exact hhyphen
      · exact hdigit v hv

/-- A label is ASCII when it has been encoded. -/
theorem isAscii_label {l : Label} (h : label? s = some l) : isAscii l.ascii = true := by
  rcases label?_cases h with ⟨heq, hascii, -⟩ | ⟨rfl, -⟩
  · rw [heq, hascii]
  · rw [isAscii_append]
    have hencode : isAscii (Punycode.encode s) = true := by
      rw [isAscii_iff]
      intro c hc
      rcases Punycode.mem_encode hc with ⟨-, hlow⟩ | rfl | ⟨v, hv, rfl⟩
      · exact hlow
      · decide
      · exact (Punycode.digit_plain hv).2.2.1
    rw [hencode]
    rfl

/-- An ASCII form is its own, with the same wide label, if it is not too long. -/
theorem label?_again {l : Label} (h : label? s = some l) :
    label? l.ascii = if isShort l.ascii then some l else none := by
  rcases label?_cases h with ⟨heq, -, hshort⟩ | ⟨rfl, hwide⟩
  · rw [heq, if_pos hshort, h]
  · obtain ⟨c, hc, hcwide⟩ := exists_wide hwide
    have hencode := isAscii_label h
    rw [isAscii_append, Bool.and_eq_true] at hencode
    -- What is written of a wide label does not end in a hyphen, which the
    -- reader would refuse.
    have hlast := Punycode.getLast?_encode hc hcwide
    dsimp only
    unfold label? isShort
    rw [stripStart?_append]
    dsimp only
    rw [Option.all_some, Punycode.decode?_encode]
    simp only [Option.bind_eq_bind, Option.bind_some]
    rw [if_pos hwide]
    by_cases hlen : (Punycode.encode s).length ≤ maxRead
    · rw [if_pos (by simp [hencode.2, hlast, hlen]), if_pos (decide_eq_true hlen)]
    · rw [if_neg (by simp [hlen]), if_neg (by simp [hlen])]

-- =============================================================== names

/-- Whether every label of a name in ASCII is short enough to be read. -/
def isReadable (s : List Char) : Bool := (s.splitOn '.').all isShort

/-- The labels that pieces have, one for each. -/
theorem of_mapM_label? {pieces : List (List Char)} {labels : List Label}
    (h : pieces.mapM label? = some labels) :
    labels.length = pieces.length ∧ ∀ l ∈ labels, ∃ p ∈ pieces, label? p = some l := by
  induction pieces generalizing labels with
  | nil =>
      cases h
      exact ⟨rfl, fun _ hl => (List.not_mem_nil hl).elim⟩
  | cons p pieces ih =>
      rw [List.mapM_cons] at h
      cases hp : label? p with
      | none =>
          rw [hp] at h
          cases h
      | some l =>
          cases hs : pieces.mapM label? with
          | none =>
              rw [hp, hs] at h
              cases h
          | some ls =>
              rw [hp, hs] at h
              cases h
              obtain ⟨hlen, hall⟩ := ih hs
              refine ⟨congrArg (· + 1) hlen, fun l' hl' => ?_⟩
              rcases List.mem_cons.1 hl' with rfl | hl'
              · exact ⟨p, List.mem_cons_self .., hp⟩
              · obtain ⟨q, hq, hql⟩ := hall l' hl'
                exact ⟨q, List.mem_cons_of_mem _ hq, hql⟩

/-- The labels of the ASCII forms of labels. -/
theorem mapM_again {pieces : List (List Char)} {labels : List Label}
    (h : pieces.mapM label? = some labels) :
    (labels.map Label.ascii).mapM label?
      = if labels.all (isShort ·.ascii) then some labels else none := by
  obtain ⟨-, hall⟩ := of_mapM_label? h
  clear h
  induction labels with
  | nil => rfl
  | cons l labels ih =>
      obtain ⟨p, -, hp⟩ := hall l (List.mem_cons_self ..)
      rw [List.map_cons, List.mapM_cons, label?_again hp,
        ih fun l' hl' => hall l' (List.mem_cons_of_mem _ hl'), List.all_cons]
      cases isShort l.ascii with
      | false => rfl
      | true =>
          cases labels.all (isShort ·.ascii) with
          | false => rfl
          | true => rfl

/-- What makes a text an ASCII form. -/
theorem toAscii?_cases (h : toAscii? t = some s) :
    ∃ mapped labels, Lower mapped ∧ (mapped.splitOn '.').mapM label? = some labels
      ∧ s = ['.'].intercalate (labels.map Label.ascii)
      ∧ s.any isForbidden = false
      ∧ (!(labels.map Label.wide).all isAscii && (labels.map Label.wide).any hasRightToLeft
          && !(labels.map Label.wide).all runsOneWay) = false := by
  unfold toAscii? at h
  cases hm : mapName t with
  | none =>
      rw [hm] at h
      cases h
  | some mapped =>
      rw [hm] at h
      simp only [Option.bind_eq_bind, Option.bind_some] at h
      have hlower : Lower (if isAscii mapped then mapped else canonical mapped) := by
        split
        · exact lower_mapName hm
        · exact lower_canonical (lower_mapName hm)
      -- From here on it makes no difference whether the name had to be brought into canonical
      -- form.
      generalize (if isAscii mapped then mapped else canonical mapped) = mapped at h hlower
      cases hl : (mapped.splitOn '.').mapM label? with
      | none =>
          rw [hl] at h
          cases h
      | some labels =>
          rw [hl] at h
          simp only [Option.bind_some] at h
          split at h
          · cases h
          · rename_i hforbidden
            split at h
            · cases h
            · rename_i hdirection
              cases h
              exact ⟨mapped, labels, hlower, hl, rfl, by simpa using hforbidden,
                by simpa using hdirection⟩

/-- The characters of an ASCII form: in ASCII and in lower case. -/
theorem plain_of_labels {pieces : List (List Char)} {labels : List Label}
    (hlower : ∀ p ∈ pieces, Lower p) (h : pieces.mapM label? = some labels) :
    isAscii (['.'].intercalate (labels.map Label.ascii)) = true
      ∧ Lower (['.'].intercalate (labels.map Label.ascii)) := by
  obtain ⟨-, hall⟩ := of_mapM_label? h
  have hplain : ∀ c ∈ ['.'].intercalate (labels.map Label.ascii),
      c.toNat < 0x80 ∧ c.toLower = c := by
    intro c hc
    rcases of_mem_intercalate hc with rfl | ⟨a, ha, hc⟩
    · decide
    · obtain ⟨l, hl, rfl⟩ := List.mem_map.1 ha
      obtain ⟨p, hp, hlabel⟩ := hall l hl
      refine ⟨isAscii_iff.1 (isAscii_label hlabel) c hc, ?_⟩
      exact ascii_of_label? (P := fun c => c.toLower = c) (by decide)
        (fun v hv => (Punycode.digit_plain hv).2.2.2) (hlower p hp) hlabel c hc
  exact ⟨isAscii_iff.2 fun c hc => (hplain c hc).1, fun c hc => (hplain c hc).2⟩

/-- The ASCII form of a name is its own, if no label is too long to be read. -/
theorem toAscii?_again (h : toAscii? t = some s) :
    toAscii? s = if isReadable s then some s else none := by
  obtain ⟨mapped, labels, hlower, hlabels, rfl, hforbidden, hdirection⟩ := toAscii?_cases h
  have hpieces : ∀ p ∈ mapped.splitOn '.', Lower p := fun p hp c hc =>
    hlower c ((of_mem_splitOn hp).2 c hc)
  obtain ⟨hascii, hlow⟩ := plain_of_labels hpieces hlabels
  obtain ⟨hlen, hall⟩ := of_mapM_label? hlabels
  -- the name is cut into its labels again
  have hsplit : (['.'].intercalate (labels.map Label.ascii)).splitOn '.'
      = labels.map Label.ascii := by
    refine List.splitOn_intercalate '.' (fun a ha => ?_) fun hnil => ?_
    · obtain ⟨l, hl, rfl⟩ := List.mem_map.1 ha
      obtain ⟨p, hp, hlabel⟩ := hall l hl
      intro hdot
      refine ascii_of_label? (P := fun c => c ≠ '.') (by decide)
        (fun v hv => (Punycode.digit_plain hv).2.1) (fun c hc heq => ?_) hlabel '.' hdot rfl
      exact (of_mem_splitOn hp).1 (heq ▸ hc)
    · rw [List.map_eq_nil_iff.1 hnil, List.length_nil] at hlen
      exact List.splitOn_ne_nil '.' mapped (List.length_eq_zero_iff.1 hlen.symm)
  have hreadable : isReadable (['.'].intercalate (labels.map Label.ascii))
      = labels.all (isShort ·.ascii) := by
    rw [isReadable, hsplit, List.all_map]
    rfl
  unfold toAscii?
  rw [mapName_self hascii hlow]
  simp only [Option.bind_eq_bind, Option.bind_some]
  rw [if_pos hascii, hsplit, mapM_again hlabels, hreadable]
  cases labels.all (isShort ·.ascii) with
  | false => rfl
  | true =>
      rw [if_pos rfl, if_pos rfl, Option.bind_some, hforbidden, hdirection]
      rfl

/-- So the whole domain is ASCII. -/
theorem isAscii_toAscii? (h : toAscii? t = some s) : isAscii s = true := by
  obtain ⟨mapped, labels, hlower, hlabels, rfl, -, -⟩ := toAscii?_cases h
  exact (plain_of_labels (fun p hp c hc => hlower c ((of_mem_splitOn hp).2 c hc)) hlabels).1

/-- What stands in the ASCII form of a name. -/
theorem of_mem_toAscii? (h : toAscii? t = some s) {c : Char} (hc : c ∈ s) :
    isForbidden c = false := by
  obtain ⟨mapped, labels, -, -, -, hforbidden, -⟩ := toAscii?_cases h
  rw [List.any_eq_false] at hforbidden
  exact eq_false_of_ne_true (hforbidden c hc)

/-- Digits and dots are their own ASCII form. -/
theorem toAscii?_digits (h : ∀ c ∈ s, c = '.' ∨ c.isDigit = true) : toAscii? s = some s := by
  have hplain : ∀ c ∈ s, c.toNat < 0x80 ∧ c.toLower = c ∧ c ≠ 'x' ∧ isForbidden c = false := by
    intro c hc
    rcases h c hc with rfl | hdigit
    · decide
    · exact of_ascii (P := fun c => c.isDigit = true →
        c.toNat < 0x80 ∧ c.toLower = c ∧ c ≠ 'x' ∧ isForbidden c = false) (by decide)
        (isDigit_lt hdigit) hdigit
  have hascii : isAscii s = true := isAscii_iff.2 fun c hc => (hplain c hc).1
  -- A digit is not what the mark of a wide label begins with.
  have hlabel : ∀ p ∈ s.splitOn '.', label? p = some ⟨p, p⟩ := by
    intro p hp
    have hmem := (of_mem_splitOn hp).2
    have hstrip : stripStart? wideMark p = none := by
      cases p with
      | nil => rfl
      | cons c p => exact if_neg (Ne.symm (hplain c (hmem c (List.mem_cons_self ..))).2.2.1)
    unfold label?
    rw [hstrip]
    exact if_pos (isAscii_iff.2 fun c hc => (hplain c (hmem c hc)).1)
  obtain ⟨labels, hforms, hwide, hlabels⟩ : ∃ labels : List Label,
      labels.map Label.ascii = s.splitOn '.' ∧ labels.map Label.wide = s.splitOn '.'
        ∧ (s.splitOn '.').mapM label? = some labels := by
    have hforms : ((s.splitOn '.').map fun p => (⟨p, p⟩ : Label)).map Label.ascii
        = s.splitOn '.' := by
      rw [List.map_map]
      exact List.map_id _
    refine ⟨_, hforms, by rw [List.map_map]; exact List.map_id _, ?_⟩
    nth_rewrite 1 [← hforms]
    refine mapM_map_some fun l hl => ?_
    obtain ⟨p, hp, rfl⟩ := List.mem_map.1 hl
    exact hlabel p hp
  have hallAscii : (s.splitOn '.').all isAscii = true := by
    rw [List.all_eq_true]
    exact fun p hp => isAscii_iff.2 fun c hc => (hplain c ((of_mem_splitOn hp).2 c hc)).1
  have hallowed : s.any isForbidden = false := by
    rw [List.any_eq_false]
    exact fun c hc => ne_true_of_eq_false (hplain c hc).2.2.2
  unfold toAscii?
  rw [mapName_self hascii fun c hc => (hplain c hc).2.1]
  simp only [Option.bind_eq_bind, Option.bind_some]
  rw [if_pos hascii, hlabels, Option.bind_some, hforms, hwide, List.intercalate_splitOn, hallowed,
    hallAscii]
  rfl

end TracedTransfer.Url.Domain
