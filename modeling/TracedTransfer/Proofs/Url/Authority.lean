/-
Host and port are read back from their text.

The text of a server has nothing that ends an authority, no at sign, and
no colon but the one in front of the port (`mem_serverText`); the port is
in range and not the default of its scheme. So the authority is read again
as it was, without a user (`afterSlashes_again`), if the host is short
enough to be read.
-/
import Mathlib.Data.List.TakeWhile
import TracedTransfer.Proofs.Json.Scalar
import TracedTransfer.Proofs.Text.Ascii
import TracedTransfer.Proofs.Url.Host
import TracedTransfer.Proofs.Url.Scheme

namespace TracedTransfer.Url

open Text

variable {scheme s rest : List Char} {a : Authority}

-- ================================================================ ports

/-- A port that is written out. -/
def IsPort (scheme : List Char) (p : Nat) : Prop := p ≤ 65535 ∧ defaultPort? scheme ≠ some p

/-- A port that is read is one that is written: within the bound and not that of the scheme. -/
theorem isPort_of_readPort {port : Option Nat} (h : readPort scheme s = .ok (port, rest)) {p : Nat}
    (hp : port = some p) : IsPort scheme p := by
  unfold readPort at h
  dsimp only at h
  split at h
  · cases h
  · rename_i hrange
    split at h
    · cases h
    · split at h
      · cases h
        cases hp
      · rename_i hdefault
        cases h
        cases hp
        simp only [Bool.or_eq_true, decide_eq_true_eq, not_or] at hdefault
        exact ⟨Nat.le_of_not_lt hrange, hdefault.2⟩

/-- Such a port is read back. -/
theorem readPort_decimal {p : Nat} (h : IsPort scheme p) :
    readPort scheme (decimal p) = .ok (some p, []) := by
  have hdigits : ∀ c ∈ decimal p, c.isDigit = true := fun c hc => Json.isDigit_of_mem_decimal hc
  have htake : (decimal p).takeWhile Char.isDigit = decimal p :=
    List.takeWhile_eq_self_iff.2 hdigits
  have hdrop : (decimal p).dropWhile Char.isDigit = [] := List.dropWhile_eq_nil_iff.2 hdigits
  have hempty : (decimal p).isEmpty = false := by simpa using Json.decimal_ne_nil p
  unfold readPort
  dsimp only
  rw [htake, hdrop, Json.ofDigits?_decimal, Option.getD_some, if_neg (Nat.not_lt.2 h.1),
    if_neg (by simp), hempty, Bool.false_or, decide_eq_false h.2, if_neg Bool.false_ne_true]

-- ============================================================== servers

/-- Host and port as the URL of a scheme has them. -/
structure IsServer (scheme : List Char) (a : Authority) : Prop where
  /-- Its host is one of its kind, -/
  host : ∀ d, a.host = some d → IsHost (schemeKind scheme) d
  /-- and its port stands behind a host and is one of its scheme. -/
  port : ∀ p, a.port = some p → a.host.isSome = true ∧ IsPort scheme p
  /-- Only a scheme that is not special goes without a host. -/
  empty : a.host = none → schemeKind scheme = .other

/-- Whether the host of an authority can be read: the host of a scheme that is not special always
can. -/
def IsReadable (scheme : List Char) (host : Option Host) : Prop :=
  schemeKind scheme = .other ∨ host.all Host.isReadable = true

instance (scheme : List Char) (host : Option Host) : Decidable (IsReadable scheme host) := by
  unfold IsReadable
  infer_instance

/-- The server of an authority that is read is one that is written. -/
theorem IsServer.of_readAuthority {isLast : Bool}
    (h : readAuthority scheme s isLast = .ok (a, rest)) : IsServer scheme a := by
  obtain ⟨hserver, -, -⟩ := readAuthority_ok h
  obtain ⟨hhost, hport⟩ := readServer_ok hserver
  refine ⟨fun d hd => isHost_of_readHost (hd ▸ hhost), fun p hp => ?_, fun hnone => ?_⟩
  · rcases hport with ⟨-, hnone, -⟩ | ⟨text, -, hsome, hread⟩
    · rw [hnone] at hp
      cases hp
    · exact ⟨hsome, isPort_of_readPort hread hp⟩
  · by_contra hkind
    have := host_of_special hkind hhost
    rw [hnone] at this
    cases this

/-- Without user name and password the server is the same. -/
theorem IsServer.of_eq {b : Authority} (h : IsServer scheme a) (hhost : b.host = a.host)
    (hport : b.port = a.port) : IsServer scheme b :=
  ⟨hhost ▸ h.host, hhost ▸ hport ▸ h.port, hhost ▸ h.empty⟩

/-- It is written in characters of hosts. -/
theorem mem_serverText (h : IsServer scheme a) {c : Char} (hc : c ∈ a.serverText) :
    IsHostChar c := by
  rcases List.mem_append.1 hc with hc | hc
  · cases hhost : a.host with
    | none =>
        rw [hhost] at hc
        exact (List.not_mem_nil hc).elim
    | some d =>
        rw [hhost] at hc
        exact (h.host d hhost).chars c hc
  · cases hport : a.port with
    | none =>
        rw [hport] at hc
        exact (List.not_mem_nil hc).elim
    | some p =>
        rw [hport] at hc
        rcases List.mem_cons.1 hc with rfl | hc
        · decide
        · have hdigit := Json.isDigit_of_mem_decimal hc
          exact of_ascii (P := fun c => c.isDigit = true → IsHostChar c) (by decide)
            (isDigit_lt hdigit) hdigit

/-- Host and port are told apart. -/
theorem splitPort_serverText (h : IsServer scheme a) :
    splitPort false a.serverText
      = ((a.host.map Host.text).getD [], a.port.map decimal) := by
  have hport : ∀ t : List Char, NoPort t →
      splitPort false (t ++ (a.port.map fun p => ':' :: decimal p).getD [])
        = (t, a.port.map decimal) := by
    intro t ht
    rw [ht]
    cases a.port with
    | none => simp [splitPort]
    | some p => simp [splitPort]
  refine hport _ ?_
  cases hhost : a.host with
  | none => exact fun _ => rfl
  | some d => exact (h.host d hhost).noPort

/-- It is read back, if its host is readable. -/
theorem readServer_again (h : IsServer scheme a) :
    readServer scheme a.serverText
      = if IsReadable scheme a.host then .ok (a.host, a.port, [])
        else .error .invalidDomainName := by
  have hhost : readHost (schemeKind scheme) ((a.host.map Host.text).getD [])
      = if IsReadable scheme a.host then .ok a.host else .error .invalidDomainName := by
    cases hd : a.host with
    | none =>
        have hkind := h.empty hd
        rw [if_pos (.inl hkind), hkind]
        rfl
    | some d =>
        rw [show (Option.map Host.text (some d)).getD [] = d.text from rfl, (h.host d hd).again]
        rfl
  unfold readServer
  rw [splitPort_serverText h]
  dsimp only
  rw [hhost]
  -- The port is looked at only after the host has been read.
  by_cases hreadable : IsReadable scheme a.host
  · rw [if_pos hreadable, if_pos hreadable]
    cases hp : a.port with
    | none => rfl
    | some p =>
        obtain ⟨hsome, hport⟩ := h.port p hp
        have hnone : a.host.isNone = false := by
          rw [← Option.not_isSome, hsome]
          rfl
        simp only [Option.map_some, bind, Except.bind, hnone, Bool.false_eq_true, if_false,
          readPort_decimal hport]
        rfl
  · rw [if_neg hreadable, if_neg hreadable]
    rfl

-- ========================================================== authorities

theorem splitUserInfo_eq_none (h : '@' ∉ s) : splitUserInfo s = none := by
  unfold splitUserInfo
  rw [splitOnce_eq_none fun hmem => h (List.mem_reverse.1 hmem)]
  rfl

/-- An authority without a user is read again. -/
theorem readAuthority_again (h : IsServer scheme a) (hnone : a.hasCredentials = false)
    (isLast : Bool) :
    readAuthority scheme a.serverText isLast
      = if IsReadable scheme a.host then .ok (a, []) else .error .invalidDomainName := by
  have hat : '@' ∉ a.serverText := fun hc => (mem_serverText h hc).2.2.2.2.2.1 rfl
  have hinfo : userInfoPart a.serverText = (none, a.serverText) := by
    unfold userInfoPart
    rw [splitUserInfo_eq_none hat]
  have ha : (⟨[], [], a.host, a.port⟩ : Authority) = a := by
    obtain ⟨username, password, host, port⟩ := a
    simp only [Authority.hasCredentials, Bool.or_eq_false_iff, Bool.not_eq_false',
      List.isEmpty_iff] at hnone
    rw [hnone.1, hnone.2]
  rw [readAuthority_eq, hinfo]
  dsimp only
  rw [readServer_again h]
  by_cases hreadable : IsReadable scheme a.host
  · rw [if_pos hreadable, if_pos hreadable]
    have huser : readUserInfo (Option.getD (none : Option (List Char)) []) = ([], []) := rfl
    simp only [Except.bind, huser, ha, hnone, Bool.and_false]
    rfl
  · rw [if_neg hreadable, if_neg hreadable]
    rfl

/-- What may follow an authority: nothing, or a character that ends it. -/
def EndsAuthority (kind : SchemeKind) (s : List Char) : Prop :=
  ∀ c ∈ s.head?, endsAuthority kind c = true

/-- An authority without a user is read back, with the path behind it. -/
theorem afterSlashes_again (h : IsServer scheme a) (hnone : a.hasCredentials = false)
    (hrest : EndsAuthority (schemeKind scheme) rest) :
    afterSlashes scheme (a.serverText ++ rest)
      = if IsReadable scheme a.host then
          .ok (ofParts scheme (some a) (readPathStart (schemeKind scheme) rest).1.text
            (readPathStart (schemeKind scheme) rest).2)
        else .error .invalidDomainName := by
  have hserver : ∀ c ∈ a.serverText, endsAuthority (schemeKind scheme) c = false := by
    intro c hc
    obtain ⟨-, hslash, hmark, hhash, hback, -⟩ := mem_serverText h hc
    simp [endsAuthority, hslash, hmark, hhash, hback]
  obtain ⟨htake, hdrop⟩ := cut_append hserver hrest
  unfold afterSlashes
  dsimp only
  rw [htake, hdrop, readAuthority_again h hnone]
  by_cases hreadable : IsReadable scheme a.host
  · rw [if_pos hreadable, if_pos hreadable]
    rfl
  · rw [if_neg hreadable, if_neg hreadable]
    rfl

end TracedTransfer.Url
