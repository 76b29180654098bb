/-
What the display name of a resource shows.

It is the text of the URL without user name and password. It is read as a
name of the same place (`SamePlace`), without a user, and names of the
same place are shown alike and saved under the same file name. There are
two exceptions. A host label can be too long to be read in the form in
which it is shown; and a host of a file is lost when the path that is
shown begins with a drive letter, as in `displayName_loses_host`.
-/
import TracedTransfer.Proofs.Url.RoundTrip
import TracedTransfer.Resource.Filename

namespace TracedTransfer

open Text

namespace Url

/-- Two URLs that differ in user name and password at most. -/
structure SamePlace (u v : Url) : Prop where
  scheme : u.scheme = v.scheme
  served : u.authority.isSome = v.authority.isSome
  host : u.host? = v.host?
  port : u.authority.bind Authority.port = v.authority.bind Authority.port
  path : u.path = v.path
  query : u.query = v.query
  fragment : u.fragment = v.fragment

variable {u v : Url}

/-- Without its user a URL leads to the same place. -/
theorem samePlace_withoutCredentials (u : Url) : SamePlace u.withoutCredentials u where
  scheme := rfl
  served := Option.isSome_map
  host := host?_withoutCredentials u
  port := by
    unfold withoutCredentials
    cases u.authority with
    | none => rfl
    | some a => rfl
  path := rfl
  query := rfl
  fragment := rfl

/-- URLs of the same place are the same without a user. -/
theorem SamePlace.withoutCredentials_eq (h : SamePlace u v) :
    u.withoutCredentials = v.withoutCredentials := by
  obtain ⟨scheme, authority, path, query, fragment⟩ := u
  obtain ⟨scheme', authority', path', query', fragment'⟩ := v
  obtain ⟨rfl, hserved, hhost, hport, rfl, rfl, rfl⟩ := h
  cases authority with
  | none =>
      cases authority' with
      | none => rfl
      | some a' => cases hserved
  | some a =>
      cases authority' with
      | none => cases hserved
      | some a' =>
          obtain ⟨username, password, host, port⟩ := a
          obtain ⟨username', password', host', port'⟩ := a'
          cases hhost
          cases hport
          rfl

/-- A URL without a user is itself without one. -/
theorem withoutCredentials_self (h : u.credentials? = none) : u.withoutCredentials = u := by
  obtain ⟨scheme, authority, path, query, fragment⟩ := u
  cases authority with
  | none => rfl
  | some a =>
      obtain ⟨username, password, host, port⟩ := a
      have hnone : Authority.hasCredentials ⟨username, password, host, port⟩ = false := by
        refine Bool.eq_false_iff.2 fun huser => ?_
        rw [credentials?, Option.bind_some, if_pos huser] at h
        cases h
      simp only [Authority.hasCredentials, Bool.or_eq_false_iff, Bool.not_eq_false',
        List.isEmpty_iff] at hnone
      obtain ⟨rfl, rfl⟩ := hnone
      rfl

/-- A URL without its user names none. -/
theorem credentials?_withoutCredentials (u : Url) : u.withoutCredentials.credentials? = none := by
  unfold credentials? withoutCredentials
  cases u.authority with
  | none => rfl
  | some a => rfl

end Url

namespace Resource.Name

open Url

/-- Whether the text that is shown of a URL loses its host: that of a file, by a drive letter right
behind it. -/
def LosesHost (u : Url) : Prop :=
  u.kind = .file ∧ u.host?.isSome = true ∧ startsWithDriveLetter (u.path.drop 1) = true

/-- Names of the same place are shown the same. -/
theorem shown_alike {n m : Name} (h : SamePlace m.url n.url) : m.displayName = n.displayName
    ∧ m.shortDisplayName = n.shortDisplayName ∧ Filename.ofName m = Filename.ofName n := by
  have hdisplay : m.displayName = n.displayName := congrArg Url.text h.withoutCredentials_eq
  have hlast : m.url.lastSegment? = n.url.lastSegment? := by
    unfold lastSegment? segments?
    rw [h.path]
  refine ⟨hdisplay, ?_, ?_⟩
  · unfold shortDisplayName
    rw [hlast, hdisplay]
  · unfold Filename.ofName Filename.ofUrl?
    rw [hlast]

/-- **Display names hide the user and nothing else.** -/
theorem displayName_spec {uri : String} {n : Name} (h : parse uri = .ok n) :
    (¬ IsReadable n.url.scheme n.url.host? → parse n.displayName = .error .invalidDomainName)
      ∧ (IsReadable n.url.scheme n.url.host? → ∃ m, parse n.displayName = .ok m
          ∧ m.url.credentials? = none
          ∧ (¬ LosesHost n.url → SamePlace m.url n.url)
          ∧ (LosesHost n.url → m.url.scheme = n.url.scheme ∧ m.url.authority = some Authority.empty
              ∧ m.url.path = withColon n.url.path ∧ m.url.query = n.url.query
              ∧ m.url.fragment = n.url.fragment))
      ∧ (n.url.credentials? = none → n.displayName = n.location)
      ∧ ∀ m : Name, SamePlace m.url n.url → m.displayName = n.displayName
          ∧ m.shortDisplayName = n.shortDisplayName ∧ Filename.ofName m = Filename.ofName n := by
  have hurl : Url.parse uri = .ok n.url := by
    cases hu : Url.parse uri with
    | error e =>
        rw [parse, hu] at h
        cases h
    | ok u =>
        rw [parse, hu] at h
        cases h
        rfl
  have hread : parse n.displayName = (Url.parse n.url.withoutCredentials.text).map Name.mk := rfl
  rw [parse_withoutCredentials hurl] at hread
  have hsame := samePlace_withoutCredentials n.url
  -- Taking the user away changes nothing that decides about the host.
  have hshown : LosesHost n.url ↔ n.url.withoutCredentials.kind = .file
      ∧ n.url.withoutCredentials.host?.isSome = true
      ∧ startsWithDriveLetter (n.url.withoutCredentials.path.drop 1) = true := by
    rw [host?_withoutCredentials]
    rfl
  refine ⟨fun hlong => ?_, fun hshort => ?_, fun hnone => ?_, fun m hm => ?_⟩
  · rw [hread, if_neg hlong]
    rfl
  · rw [if_pos hshort] at hread
    refine ⟨_, hread, ?_⟩
    by_cases hlost : LosesHost n.url
    · have hreread : n.url.withoutCredentials.reread = n.url.withoutCredentials.drivenFile :=
        if_pos (hshown.1 hlost)
      rw [hreread]
      exact ⟨rfl, fun h => absurd hlost h, fun _ => ⟨rfl, rfl, rfl, rfl, rfl⟩⟩
    · have hreread : n.url.withoutCredentials.reread = n.url.withoutCredentials :=
        if_neg fun h => hlost (hshown.2 h)
      rw [hreread]
      exact ⟨credentials?_withoutCredentials n.url, fun _ => hsame, fun h => absurd h hlost⟩
  · exact congrArg Url.text (withoutCredentials_self hnone)
  · exact shown_alike hm

/-- A user with a password, a port and a query: all but the user is shown, and read again. -/
theorem displayName_of_user :
    ∃ n m, parse "https://user:pw@repo.example.com:8443/a?q#f" = .ok n
      ∧ n.displayName = "https://repo.example.com:8443/a?q#f"
      ∧ parse n.displayName = .ok m ∧ m.url.credentials? = none ∧ SamePlace m.url n.url
      ∧ n.url.credentials? = some ("user".toList, "pw".toList) := by
  have hn : parse "https://user:pw@repo.example.com:8443/a?q#f"
      = .ok ⟨⟨"https".toList, some ⟨"user".toList, "pw".toList,
          some (.named "repo.example.com".toList), some 8443⟩, "/a".toList, some "q".toList,
          some "f".toList⟩⟩ := by decide +kernel
  obtain ⟨-, hshort, -⟩ := displayName_spec hn
  obtain ⟨m, hm, hnone, hsame, -⟩ := hshort (by decide +kernel)
  exact ⟨_, m, hn, by decide +kernel, hm, hnone, hsame fun h => absurd h.1 (by decide +kernel), rfl⟩

/-- A file on a host, with a drive letter behind two slashes. Only one of them is shown, and behind
one slash the drive letter takes the host away. -/
theorem displayName_loses_host :
    ∃ n m, parse "file://h//c:/x" = .ok n ∧ parse n.displayName = .ok m
      ∧ n.url.host? = some (.named "h".toList) ∧ m.url.host? = none := by
  refine ⟨⟨⟨"file".toList, some (Authority.ofHost (some (.named "h".toList))), "/c:/x".toList,
    none, none⟩⟩, ⟨⟨"file".toList, some Authority.empty, "/c:/x".toList, none, none⟩⟩, ?_, ?_, rfl,
    rfl⟩
  · decide +kernel
  · decide +kernel

end Resource.Name

end TracedTransfer
