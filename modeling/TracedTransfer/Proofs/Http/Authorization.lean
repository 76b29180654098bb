/-
What a request carries of the user.

User name and password of a URL are sent as the bytes that they denote.
The byte zero cannot be sent, and a URL that holds it in front of its
server (`Unsendable`) is refused before anything goes out; everything else
is sent. So whether a request is refused is decided by its own URL
(`authorizationFor_of_unsendable`), once the first URL is one that can be
asked for (`authorizationFor_of_sendable`).
-/
import TracedTransfer.Http.Client

namespace TracedTransfer.Http

open Text

variable {first u : Url}

/-- User name and password hold the byte zero. -/
def Unsendable (u : Url) : Prop :=
  ∃ name password, u.credentials? = some (name, password)
    ∧ (0 : UInt8) ∈ Url.percentDecode name ++ Url.percentDecode password

/-- A user that cannot be sent is refused, -/
theorem authorizationOf_of_unsendable (h : Unsendable u) :
    authorizationOf u = .error .badCredentials := by
  obtain ⟨name, password, hcredentials, hzero⟩ := h
  rw [authorizationOf, hcredentials]
  exact if_pos (List.contains_iff_mem.2 hzero)

/-- and for any other there is a header, or none if no user is named. -/
theorem authorizationOf_of_sendable (h : ¬ Unsendable u) :
    ∃ authorization, authorizationOf u = .ok authorization := by
  rw [authorizationOf]
  cases hcredentials : u.credentials? with
  | none => exact ⟨_, rfl⟩
  | some credentials =>
      obtain ⟨name, password⟩ := credentials
      have hzero : ¬ (Url.percentDecode name ++ Url.percentDecode password).contains 0 = true :=
        fun hzero => h ⟨name, password, hcredentials, List.contains_iff_mem.1 hzero⟩
      exact ⟨_, if_neg hzero⟩

/-- A request is refused for its own URL, -/
theorem authorizationFor_of_unsendable (first : Url) (h : Unsendable u) :
    authorizationFor first u = .error .badCredentials := by
  have hsome : u.credentials?.isSome = true := by
    obtain ⟨name, password, hcredentials, -⟩ := h
    rw [hcredentials]
    rfl
  rw [authorizationFor, if_pos hsome, authorizationOf_of_unsendable h]

/-- or for the URL that it is made on behalf of. -/
theorem authorizationFor_of_sendable (hfirst : ¬ Unsendable first) (hu : ¬ Unsendable u) :
    ∃ authorization, authorizationFor first u = .ok authorization := by
  rw [authorizationFor]
  split
  · exact authorizationOf_of_sendable hu
  · split
    · exact authorizationOf_of_sendable hfirst
    · exact ⟨_, rfl⟩

/-- A refused request does not go out. -/
theorem request_unsendable (method : Method) (first : Url) (h : Unsendable u) (m : Machine) :
    request method first u m = (.value (.error .badCredentials), m) := by
  rw [request, authorizationFor_of_unsendable first h]
  rfl

end TracedTransfer.Http
