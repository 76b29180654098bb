/-
A host is read back from its text.

The text of a host has none of the characters that end an authority or
part its pieces (`IsHostChar`), and a colon only between brackets. It is
read as the same host (`IsHost.again`), with one exception: a label in the
host of a special scheme that has become too long by being written in
Punycode.
-/
import TracedTransfer.Proofs.Url.Address
import TracedTransfer.Proofs.Url.Domain
import TracedTransfer.Proofs.Url.Percent
import TracedTransfer.Proofs.Url.Scheme

namespace TracedTransfer.Url

open Text

/-- A character that neither ends an authority nor parts its pieces. -/
def IsHostChar (c : Char) : Prop :=
  0x20 < c.toNat ∧ c ≠ '/' ∧ c ≠ '?' ∧ c ≠ '#' ∧ c ≠ '\\' ∧ c ≠ '@' ∧ c ≠ '|'

instance (c : Char) : Decidable (IsHostChar c) := by
  unfold IsHostChar
  infer_instance

namespace Host

/-- Whether the text of a host is short enough to be read. -/
def isReadable : Host → Bool
  | .named s => Domain.isReadable s
  | .ipv4 _ => true
  | .ipv6 _ => true

-- ======================================================== special schemes

/-- A host without a bracket is a domain or an address of four bytes. -/
theorem parse_of_head {s : List Char} (h : '[' ∉ s) :
    parse s = match Domain.toAscii? (Utf8.decodeLossy (percentDecode s)) with
      | none => .error .invalidDomainName
      | some ascii => ofAscii ascii := by
  unfold parse
  split
  · exact absurd (List.mem_cons_self ..) h
  · rfl

/-- An address in brackets is read back, -/
theorem bracketed_text (a : Ipv6) : bracketed (a.text ++ [']']) = .ok (.ipv6 a) := by
  unfold bracketed
  rw [List.getLast?_concat, List.dropLast_concat, Ipv6.parse?_text]
  rfl

/-- and nothing else can stand in brackets. -/
theorem bracketed_ok {s : List Char} {d : Host} (h : bracketed s = .ok d) : ∃ a, d = .ipv6 a := by
  unfold bracketed at h
  split at h
  · split at h
    · cases h
      exact ⟨_, rfl⟩
    · cases h
  · cases h

/-- An address or a name that is its own ASCII form. -/
theorem parse_cases {s : List Char} {d : Host} (h : parse s = .ok d) :
    (∃ a, d = .ipv6 a) ∨ (∃ a, d = .ipv4 a)
      ∨ ∃ t name, Domain.toAscii? t = some name ∧ d = .named name ∧ name ≠ []
          ∧ Ipv4.endsInNumber name = false := by
  unfold parse at h
  split at h
  · exact .inl (bracketed_ok h)
  · refine .inr ?_
    split at h
    · cases h
    · rename_i name hname
      unfold ofAscii at h
      split at h
      · cases h
      · rename_i hne
        split at h
        · split at h
          · cases h
            exact .inl ⟨_, rfl⟩
          · cases h
        · rename_i hnumber
          cases h
          exact .inr ⟨_, name, hname, rfl, by simpa using hne, by simpa using hnumber⟩

/-- The characters of a name in ASCII. -/
theorem of_mem_name {t name : List Char} (h : Domain.toAscii? t = some name) {c : Char}
    (hc : c ∈ name) : IsHostChar c ∧ c ≠ '%' ∧ c ≠ ':' ∧ c ≠ '[' := by
  have hallowed := Domain.of_mem_toAscii? h hc
  simp only [Domain.isForbidden, List.mem_cons, List.not_mem_nil, or_false, Bool.or_eq_false_iff,
    decide_eq_false_iff_not, not_or] at hallowed
  obtain ⟨⟨hblank, -⟩, hpercent, hhash, hslash, hcolon, -, -, hmark, hat, hopen, hback, -, -,
    hbar⟩ := hallowed
  exact ⟨⟨Nat.lt_of_not_le hblank, hslash, hmark, hhash, hback, hat, hbar⟩, hpercent, hcolon, hopen⟩

/-- An address of four bytes is written in characters of hosts, -/
theorem of_mem_ipv4 {a : Ipv4} {c : Char} (h : c ∈ a.text) :
    IsHostChar c ∧ c ≠ '%' ∧ c ≠ ':' ∧ c ≠ '[' := by
  rcases Ipv4.mem_text h with rfl | hdigit
  · decide
  · exact of_ascii (P := fun c => c.isDigit = true → IsHostChar c ∧ c ≠ '%' ∧ c ≠ ':' ∧ c ≠ '[')
      (by decide) (isDigit_lt hdigit) hdigit

/-- and is not empty. -/
theorem ipv4_ne_nil (a : Ipv4) : a.text ≠ [] := by
  intro h
  have := Ipv4.endsInNumber_text a
  rw [h] at this
  cases this

/-- One of eight groups is so too, and does not close its bracket. -/
theorem of_mem_ipv6 {a : Ipv6} {c : Char} (h : c ∈ a.text) : IsHostChar c ∧ c ≠ ']' := by
  rcases Ipv6.mem_text h with rfl | ⟨d, hd, rfl⟩
  · decide
  · have hall : ∀ d < 16, IsHostChar d.digitChar ∧ d.digitChar ≠ ']' := by decide
    exact hall d hd

/-- A host that has been read is read again from its text, unless that is a
domain that the mapping made unreadable. -/
theorem parse_text {s : List Char} {d : Host} (h : parse s = .ok d) :
    parse d.text = if d.isReadable then .ok d else .error .invalidDomainName := by
  rcases parse_cases h with ⟨a, rfl⟩ | ⟨a, rfl⟩ | ⟨t, name, hname, rfl, hne, hnumber⟩
  · exact bracketed_text a
  · have hbracket : '[' ∉ a.text := fun hc => (of_mem_ipv4 hc).2.2.2 rfl
    have hpercent : '%' ∉ a.text := fun hc => (of_mem_ipv4 hc).2.1 rfl
    have hne : a.text.isEmpty = false := by simpa using ipv4_ne_nil a
    show parse a.text = .ok (.ipv4 a)
    rw [parse_of_head hbracket, decodeLossy_plain hpercent,
      Domain.toAscii?_digits fun c hc => Ipv4.mem_text hc]
    show ofAscii a.text = .ok (.ipv4 a)
    unfold ofAscii
    rw [hne, if_neg Bool.false_ne_true, if_pos (Ipv4.endsInNumber_text a), Ipv4.parse?_text]
  · have hbracket : '[' ∉ name := fun hc => (of_mem_name hname hc).2.2.2 rfl
    have hpercent : '%' ∉ name := fun hc => (of_mem_name hname hc).2.1 rfl
    show parse name = if Domain.isReadable name then _ else _
    rw [parse_of_head hbracket, decodeLossy_plain hpercent, Domain.toAscii?_again hname]
    cases Domain.isReadable name with
    | false => rfl
    | true =>
        show ofAscii name = .ok (.named name)
        unfold ofAscii
        rw [if_neg (by simpa using hne), if_neg (by rw [hnumber]; exact Bool.false_ne_true)]

-- =========================================================== other schemes

/-- A host of another scheme is an address or is kept, escaped. -/
theorem parseOpaque_cases {s : List Char} {d : Host} (h : parseOpaque s = .ok (some d)) :
    (∃ a, d = .ipv6 a) ∨ ∃ c rest, s = c :: rest ∧ s.any isForbidden = false
      ∧ d = .named (percentEncode EncodeSet.controls s) := by
  unfold parseOpaque at h
  split at h
  · cases h
  · rename_i rest
    cases hb : bracketed rest with
    | error e =>
        rw [hb] at h
        cases h
    | ok d' =>
        rw [hb] at h
        cases h
        exact .inl (bracketed_ok hb)
  · split at h
    · cases h
    · rename_i hnil _ hforbidden
      cases h
      cases s with
      | nil => exact absurd rfl hnil
      | cons c rest => exact .inr ⟨c, rest, rfl, by simpa using hforbidden, rfl⟩

/-- The characters of a percent-encoded host. -/
theorem of_mem_encoded {s : List Char} (h : s.any isForbidden = false) {c : Char}
    (hc : c ∈ percentEncode EncodeSet.controls s) :
    isForbidden c = false ∧ IsHostChar c ∧ c ≠ ':' ∧ c ≠ '[' := by
  have hallowed : isForbidden c = false ∧ 0x20 ≤ c.toNat := by
    rcases mem_percentEncode hc with ⟨hmem, hlow, -⟩ | htriple
    · rw [List.any_eq_false] at h
      exact ⟨eq_false_of_ne_true (h c hmem), hlow⟩
    · have hall : tripleChars.all (fun c => isForbidden c = false ∧ 0x20 ≤ c.toNat) = true := by
        decide
      simp only [List.all_eq_true, decide_eq_true_eq] at hall
      exact hall c htriple
  obtain ⟨hforbidden, hlow⟩ := hallowed
  refine ⟨hforbidden, ?_⟩
  simp only [isForbidden, List.mem_cons, List.not_mem_nil, or_false, decide_eq_false_iff_not,
    not_or] at hforbidden
  obtain ⟨-, -, -, -, hspace, hhash, hslash, hcolon, -, -, hmark, hat, hopen, hback, -, -,
    hbar⟩ := hforbidden
  refine ⟨⟨?_, hslash, hmark, hhash, hback, hat, hbar⟩, hcolon, hopen⟩
  refine Nat.lt_of_le_of_ne hlow fun heq => hspace ?_
  rw [← Char.ofNat_toNat c, ← heq]

/-- It is read again from its text. -/
theorem parseOpaque_text {s : List Char} {d : Host} (h : parseOpaque s = .ok (some d)) :
    parseOpaque d.text = .ok (some d) := by
  rcases parseOpaque_cases h with ⟨a, rfl⟩ | ⟨c, rest, rfl, hforbidden, rfl⟩
  · show (bracketed (a.text ++ [']'])).map some = _
    rw [bracketed_text]
    rfl
  · show parseOpaque (percentEncode EncodeSet.controls (c :: rest)) = _
    have hmem := fun d hd => of_mem_encoded (c := d) hforbidden hd
    have hsettled := percentEncode_settled spares_controls (c :: rest)
    have hne : percentEncode EncodeSet.controls (c :: rest) ≠ [] := fun hnil =>
      List.cons_ne_nil _ _ (percentEncode_eq_nil.1 hnil)
    generalize percentEncode EncodeSet.controls (c :: rest) = t at hmem hsettled hne ⊢
    have hallowed : t.any isForbidden = false := by
      rw [List.any_eq_false]
      exact fun d hd => ne_true_of_eq_false (hmem d hd).1
    unfold parseOpaque
    split
    · exact absurd rfl hne
    · exact absurd rfl (hmem '[' (List.mem_cons_self ..)).2.2.2
    · rw [hallowed, if_neg Bool.false_ne_true, hsettled]

end Host

-- ============================================================= all schemes

/-- A text in which no colon stands before a port. -/
def NoPort (s : List Char) : Prop :=
  ∀ rest, splitPort false (s ++ rest) = (s ++ (splitPort false rest).1, (splitPort false rest).2)

theorem splitPort_cons {inside : Bool} {c : Char} (h : (c = ':' && !inside) = false)
    (rest : List Char) :
    splitPort inside (c :: rest)
      = (c :: (splitPort (if c = '[' then true else if c = ']' then false else inside) rest).1,
        (splitPort (if c = '[' then true else if c = ']' then false else inside) rest).2) := by
  rw [splitPort, h, if_neg Bool.false_ne_true]

/-- Where neither colon nor bracket is, no port is. -/
theorem noPort_of_plain {s : List Char} (h : ∀ c ∈ s, c ≠ ':' ∧ c ≠ '[') : NoPort s := by
  intro rest
  induction s with
  | nil => rfl
  | cons c s ih =>
      obtain ⟨hcolon, hopen⟩ := h c (List.mem_cons_self ..)
      have hinside : (if c = '[' then true else if c = ']' then false else false) = false := by
        rw [if_neg hopen, ite_self]
      rw [List.cons_append, splitPort_cons (by simp [hcolon]), hinside,
        ih fun d hd => h d (List.mem_cons_of_mem _ hd)]
      rfl

/-- No colon parts a port from what stands in brackets. -/
theorem noPort_of_brackets {s : List Char} (h : ']' ∉ s) : NoPort ('[' :: s ++ [']']) := by
  have hinside : ∀ t rest, ']' ∉ t → splitPort true (t ++ ']' :: rest)
      = (t ++ ']' :: (splitPort false rest).1, (splitPort false rest).2) := by
    intro t rest ht
    induction t with
    | nil => exact splitPort_cons (by decide) rest
    | cons c t ih =>
        rw [List.mem_cons, not_or] at ht
        have hstays : (if c = '[' then true else if c = ']' then false else true) = true := by
          rw [if_neg (Ne.symm ht.1), ite_self]
        rw [List.cons_append, splitPort_cons (by simp), hstays, ih ht.2]
        rfl
  intro rest
  have hshape : '[' :: s ++ [']'] ++ rest = '[' :: (s ++ ']' :: rest) := by simp
  rw [hshape, splitPort_cons (by decide), if_pos rfl, hinside s rest h]
  simp

/-- What every host has that is read. -/
structure IsHost (kind : SchemeKind) (d : Host) : Prop where
  /-- Its text is read as the same host, unless a label has become too
  long. -/
  again : readHost kind d.text
    = if kind = .other ∨ d.isReadable = true then .ok (some d) else .error .invalidDomainName
  /-- The text is of characters that may stand in hosts, -/
  chars : ∀ c ∈ d.text, IsHostChar c
  /-- has no colon that could mark a port, -/
  noPort : NoPort d.text
  /-- and is not empty. -/
  ne_nil : d.text ≠ []

/-- The colons of an address are inside its brackets. -/
theorem Host.ipv6_chars (a : Ipv6) :
    (∀ c ∈ (Host.ipv6 a).text, IsHostChar c) ∧ NoPort (Host.ipv6 a).text
      ∧ (Host.ipv6 a).text ≠ [] := by
  refine ⟨fun c hc => ?_, noPort_of_brackets fun hc => (Host.of_mem_ipv6 hc).2 rfl,
    List.cons_ne_nil _ _⟩
  rcases List.mem_append.1 hc with hc | hc
  · rcases List.mem_cons.1 hc with rfl | hc
    · decide
    · exact (Host.of_mem_ipv6 hc).1
  · rw [List.mem_singleton.1 hc]
    decide

/-- A host that is read for a known scheme is one of that kind, -/
theorem IsHost.of_parse {kind : SchemeKind} (hkind : kind ≠ .other) {s : List Char} {d : Host}
    (h : Host.parse s = .ok d) : IsHost kind d := by
  have hchars : (∀ c ∈ d.text, IsHostChar c) ∧ NoPort d.text ∧ d.text ≠ [] := by
    rcases Host.parse_cases h with ⟨a, rfl⟩ | ⟨a, rfl⟩ | ⟨t, name, hname, rfl, hne, -⟩
    · exact Host.ipv6_chars a
    · exact ⟨fun c hc => (Host.of_mem_ipv4 hc).1,
        noPort_of_plain fun c hc => (Host.of_mem_ipv4 hc).2.2, Host.ipv4_ne_nil a⟩
    · exact ⟨fun c hc => (Host.of_mem_name hname hc).1,
        noPort_of_plain fun c hc => (Host.of_mem_name hname hc).2.2, hne⟩
  obtain ⟨hall, hport, hne⟩ := hchars
  refine ⟨?_, hall, hport, hne⟩
  rw [readHost, if_neg hkind, if_neg (by simpa using hne), Host.parse_text h]
  cases hreadable : d.isReadable with
  | false => rw [if_neg Bool.false_ne_true, if_neg (by simp [hkind])]; rfl
  | true => rw [if_pos rfl, if_pos (.inr rfl)]; rfl

/-- and one for another scheme too. -/
theorem IsHost.of_parseOpaque {s : List Char} {d : Host} (h : Host.parseOpaque s = .ok (some d)) :
    IsHost .other d := by
  have hchars : (∀ c ∈ d.text, IsHostChar c) ∧ NoPort d.text ∧ d.text ≠ [] := by
    rcases Host.parseOpaque_cases h with ⟨a, rfl⟩ | ⟨c, rest, rfl, hforbidden, rfl⟩
    · exact Host.ipv6_chars a
    · exact ⟨fun c hc => (Host.of_mem_encoded hforbidden hc).2.1,
        noPort_of_plain fun c hc => (Host.of_mem_encoded hforbidden hc).2.2,
        fun hnil => List.cons_ne_nil _ _ (percentEncode_eq_nil.1 hnil)⟩
  obtain ⟨hall, hport, hne⟩ := hchars
  refine ⟨?_, hall, hport, hne⟩
  rw [readHost, if_pos rfl, if_pos (.inl rfl), Host.parseOpaque_text h]

/-- A host that is read, of whatever scheme. -/
theorem isHost_of_readHost {kind : SchemeKind} {s : List Char} {d : Host}
    (h : readHost kind s = .ok (some d)) : IsHost kind d := by
  by_cases hkind : kind = .other
  · subst hkind
    rw [readHost, if_pos rfl] at h
    exact .of_parseOpaque h
  · rw [readHost, if_neg hkind] at h
    split at h
    · cases h
    · cases hp : Host.parse s with
      | error e =>
          rw [hp] at h
          cases h
      | ok d' =>
          rw [hp] at h
          cases h
          exact .of_parse hkind hp

end TracedTransfer.Url
