/-
Chains of redirects.

What a server answers to a request may lead on to another one. The three
relations here follow the answers, each machine being the one that the
request before has left: `Asks` is one request with its complete answer,
`Redirects` any number of requests whose answers lead on, and `Chain` such
requests with a last one whose answer does not. A server may answer the
same request differently each time, or lead round in a loop; both are
chains like others.

`follow_redirects` takes a client along redirects. From it come the three
ways in which a download ends: with the final response of a chain that is
short enough (`download_chain`), because there is one redirect too many
(`download_longer`), or because they lead to a URL whose user cannot be
sent (`download_barred`), which may be the first. No fourth one is left
when everything is answered completely
(`WellServed.chain_longer_or_barred`).
-/
import TracedTransfer.Proofs.Http.Authorization
import TracedTransfer.Proofs.Http.Wire

namespace TracedTransfer.Http

open Text

variable {method : Method} {first u v w : Url} {m m' m₁ m₂ : Machine} {a : Answer}
  {n : Nat} {lines prior : List Bytes}

-- ========================================================= one request

/-- A request for a URL goes out and is answered completely. -/
structure Asks (method : Method) (first u : Url) (m : Machine) (a : Answer) (m' : Machine) :
    Prop where
  /-- There is a server at the URL, -/
  reached : unreachable m u = none
  /-- which is asked with the user's authorization, if it is meant for that
  server, and answers. -/
  answered : ∃ authorization s, authorizationFor first u = .ok authorization
    ∧ send ⟨method.word, targetOf u, authorization, none, []⟩ m = (.value s, m')
    ∧ IsAnswer method.wantsBody s a

/-- One request of a chain returns the response that was served. -/
theorem Asks.request (h : Asks method first u m a m') :
    ∃ r, request method first u m = (.value (.ok r), m')
      ∧ r.Reads method.wantsBody [] a := by
  obtain ⟨authorization, s, hauthorization, hsend, hanswer⟩ := h.answered
  obtain ⟨r, hr, hreads⟩ := hanswer.read []
  refine ⟨r, ?_, hreads⟩
  rw [Http.request, hauthorization, orFailure]
  have hreached : (Action.gets fun m => unreachable m u : Run (Option Failure)) m
      = (.value none, m) := by
    rw [Action.gets, h.reached]
  rw [Action.bind_of_value hreached]
  dsimp only
  rw [Action.bind_of_value hsend, Action.pure_run, Response.read, hr]

-- ============================================================ redirects

/-- Requests whose answers lead on, with the header lines that come with
them. -/
inductive Redirects (method : Method) (first : Url) :
    Nat → Url → Machine → List Bytes → Url → Machine → Prop where
  /-- No redirection is followed. -/
  | none {u : Url} {m : Machine} : Redirects method first 0 u m [] u m
  /-- One is followed, and then the others. Header lines are kept of all
  answers on the way. -/
  | more {n : Nat} {u v w : Url} {m m₁ m₂ : Machine} {a : Answer} {location : Bytes}
      {lines : List Bytes} :
      Asks method first u m a m₁ → a.head.location? = some location →
      redirectTarget u location = .ok v → Redirects method first n v m₁ lines w m₂ →
      Redirects method first (n + 1) u m (a.before ++ a.head.lines ++ lines) w m₂

/-- Requests whose answers lead on, and a last one whose answer does not. -/
inductive Chain (method : Method) (first : Url) (n : Nat) (u : Url) (m : Machine) :
    List Bytes → Answer → Machine → Prop where
  | mk {v : Url} {m₁ m' : Machine} {lines : List Bytes} {a : Answer} :
      Redirects method first n u m lines v m₁ → Asks method first v m₁ a m' →
      a.head.location? = none → Chain method first n u m (lines ++ a.before) a m'

/-- More redirects than a limit: after so many there is another one. -/
inductive Longer (method : Method) (first : Url) (limit : Nat) (u : Url) (m : Machine) :
    Prop where
  | mk {v : Url} {m₁ m' : Machine} {lines : List Bytes} {a : Answer} {location : Bytes} :
      Redirects method first limit u m lines v m₁ → Asks method first v m₁ a m' →
      a.head.location? = some location → Longer method first limit u m

/-- Redirects within a limit that lead to a user who cannot be sent. -/
inductive Barred (method : Method) (first : Url) (limit : Nat) (u : Url) (m : Machine) :
    Prop where
  | mk {n : Nat} {v : Url} {m₁ : Machine} {lines : List Bytes} (within : n ≤ limit) :
      Redirects method first n u m lines v m₁ → Unsendable v → Barred method first limit u m

/-- Every request that redirects lead to is answered completely, whoever
makes it, and every redirect leads to something that can be asked for.
There is no request if the user cannot be sent. -/
def WellServed (method : Method) (first u : Url) (m : Machine) : Prop :=
  ∀ n lines v m₁, Redirects method first n u m lines v m₁ → ¬ Unsendable v →
    unreachable m₁ v = none
      ∧ ∀ authorization, ∃ s m₂ a,
        send ⟨method.word, targetOf v, authorization, none, []⟩ m₁ = (.value s, m₂)
          ∧ IsAnswer method.wantsBody s a
          ∧ ∀ location, a.head.location? = some location → ∃ w, redirectTarget v location = .ok w

/-- The body of a redirection that is served well can be skipped. -/
theorem Response.Reads.skipBody {r : Response} {wantsBody : Bool} {before : List Bytes}
    (h : r.Reads wantsBody before a) : r.skipBody wantsBody = .ok () := by
  obtain ⟨framing, hframing, hbody⟩ := h.body
  rw [Response.skipBody, hframing]
  show (if r.head.closes then .ok () else (readBody framing r.rest).map fun _ => ()) = .ok ()
  rw [hbody]
  split
  · rfl
  · rfl

/-- A client at a URL that leads on. -/
theorem follow_more {location : Bytes} (ha : Asks method first u m a m')
    (hlocation : a.head.location? = some location) (limit left : Nat) (before : List Bytes) :
    follow limit method first left before u m
      = match left with
        | 0 => (.value (.error (.tooManyRedirects limit)), m')
        | left + 1 =>
          match redirectTarget u location with
          | .error e => (.value (.error e), m')
          | .ok v => follow limit method first left (before ++ (a.before ++ a.head.lines)) v m' := by
  obtain ⟨r, hr, hreads⟩ := ha.request
  rw [follow.eq_def, Action.bind_of_value hr]
  dsimp only
  rw [hreads.head, hlocation]
  dsimp only
  rw [hreads.skipBody]
  dsimp only
  -- The redirect is counted after its body is gone through and before its target is looked at.
  cases left with
  | zero => rfl
  | succ left =>
      dsimp only
      have hlines : r.lines = a.before ++ a.head.lines := by
        rw [Response.lines, hreads.before, hreads.head, List.nil_append]
      cases redirectTarget u location with
      | error e => rfl
      | ok v => rw [hlines]

/-- A client goes along redirects as long as it may. -/
theorem follow_redirects (h : Redirects method first n u m lines v m') :
    ∀ (limit left : Nat) (before : List Bytes), follow limit method first (n + left) before u m
      = follow limit method first left (before ++ lines) v m' := by
  induction h with
  | none =>
      intro limit left before
      rw [Nat.zero_add, List.append_nil]
  | @more n u v w m m₁ m₂ a location lines ha hlocation htarget _ ih =>
      intro limit left before
      rw [Nat.add_right_comm, follow_more ha hlocation]
      dsimp only
      rw [htarget]
      dsimp only
      rw [ih]
      simp only [List.append_assoc]

/-- A client at a URL that does not lead on. -/
theorem follow_last (ha : Asks method first u m a m') (hlocation : a.head.location? = none)
    (limit left : Nat) (before : List Bytes) :
    follow limit method first left before u m
      = (.value (.ok ⟨a.head.status.code,
          before ++ (a.before ++ a.head.lines) ++ a.body.trailers, a.body.content, none⟩), m') := by
  obtain ⟨r, hr, hreads⟩ := ha.request
  obtain ⟨framing, hframing, hbody⟩ := hreads.body
  rw [follow.eq_def, Action.bind_of_value hr]
  dsimp only
  rw [hreads.head, hlocation]
  dsimp only
  rw [Action.pure_run, finish, hframing]
  dsimp only [Except.map]
  rw [arrived_of_readBody hbody, hbody, Response.lines, hreads.before, hreads.head,
    List.nil_append]
  rfl

-- ============================================================ downloads

/-- A download of a chain that is short enough ends with its last answer. -/
theorem download_chain {o : Options} (ho : o.measurable = true)
    (h : Chain method u n u m prior a m') (hn : n ≤ o.maxRedirects) :
    download o method u m
      = (.value (.ok ⟨a.head.status.code, prior ++ (a.head.lines ++ a.body.trailers),
          a.body.content, none⟩), m') := by
  cases h with
  | mk hredirects ha hlocation =>
      obtain ⟨left, hleft⟩ := Nat.exists_eq_add_of_le hn
      have hfollow := follow_redirects hredirects o.maxRedirects left []
      rw [← hleft] at hfollow
      rw [download, if_pos ho, hfollow, follow_last ha hlocation]
      simp only [List.nil_append, List.append_assoc]

/-- A download of a longer one ends at the limit. -/
theorem download_longer {o : Options} (ho : o.measurable = true)
    (h : Longer method u o.maxRedirects u m) :
    ∃ m', download o method u m
      = (.value (.error (.tooManyRedirects o.maxRedirects)), m') := by
  cases h with
  | @mk v m₁ m' lines a location hredirects ha hlocation =>
      have hfollow := follow_redirects hredirects o.maxRedirects 0 []
      rw [Nat.add_zero] at hfollow
      refine ⟨m', ?_⟩
      rw [download, if_pos ho, hfollow, follow_more ha hlocation]

/-- A download that is led to a user who cannot be sent ends there. -/
theorem download_barred {o : Options} (ho : o.measurable = true)
    (h : Barred method u o.maxRedirects u m) :
    ∃ m', download o method u m = (.value (.error .badCredentials), m') := by
  cases h with
  | @mk n v m₁ lines hn hredirects hv =>
      obtain ⟨left, hleft⟩ := Nat.exists_eq_add_of_le hn
      have hfollow := follow_redirects hredirects o.maxRedirects left []
      rw [← hleft] at hfollow
      refine ⟨m₁, ?_⟩
      rw [download, if_pos ho, hfollow, follow.eq_def,
        Action.bind_of_value (request_unsendable method u hv m₁)]
      rfl

/-- A URL that can be asked for is asked for. -/
theorem WellServed.asks (h : WellServed method first u m) (hfirst : ¬ Unsendable first)
    (hu : ¬ Unsendable u) : ∃ a m₁, Asks method first u m a m₁
      ∧ ∀ location, a.head.location? = some location → ∃ v, redirectTarget u location = .ok v := by
  obtain ⟨hreached, hanswered⟩ := h 0 [] u m .none hu
  obtain ⟨authorization, hauthorization⟩ := authorizationFor_of_sendable hfirst hu
  obtain ⟨s, m₁, a, hsend, hanswer, htarget⟩ := hanswered authorization
  exact ⟨a, m₁, ⟨hreached, authorization, s, hauthorization, hsend, hanswer⟩, htarget⟩

theorem WellServed.next (h : WellServed method first u m) (ha : Asks method first u m a m₁)
    {location : Bytes} (hlocation : a.head.location? = some location)
    (htarget : redirectTarget u location = .ok v) : WellServed method first v m₁ :=
  fun _ _ w m₂ hr => h _ _ w m₂ (.more ha hlocation htarget hr)

/-- When everything is answered completely, there is a chain of at most as
many redirects as the limit says, or there are more, or they lead to a
user who cannot be sent. -/
theorem WellServed.cases (hfirst : ¬ Unsendable first) (limit : Nat) :
    ∀ {u : Url} {m : Machine}, WellServed method first u m →
      (∃ n prior a m', n ≤ limit ∧ Chain method first n u m prior a m')
        ∨ Longer method first limit u m ∨ Barred method first limit u m := by
  induction limit with
  | zero =>
      intro u m h
      by_cases hu : Unsendable u
      · exact .inr (.inr (.mk (Nat.le_refl 0) .none hu))
      obtain ⟨a, m₁, ha, -⟩ := h.asks hfirst hu
      cases hlocation : a.head.location? with
      | none => exact .inl ⟨0, _, a, m₁, Nat.le_refl 0, .mk .none ha hlocation⟩
      | some location => exact .inr (.inl (.mk .none ha hlocation))
  | succ limit ih =>
      intro u m h
      by_cases hu : Unsendable u
      · exact .inr (.inr (.mk (Nat.zero_le _) .none hu))
      obtain ⟨a, m₁, ha, htarget⟩ := h.asks hfirst hu
      cases hlocation : a.head.location? with
      | none => exact .inl ⟨0, _, a, m₁, Nat.zero_le _, .mk .none ha hlocation⟩
      | some location =>
          -- the first redirect goes in front of what the rest comes to
          obtain ⟨v, hv⟩ := htarget location hlocation
          rcases ih (h.next ha hlocation hv) with ⟨n, prior, b, m', hn, hchain⟩ | hlonger | hbarred
          · cases hchain with
            | mk hredirects hb hnone =>
                exact .inl ⟨n + 1, _, b, m', Nat.succ_le_succ hn,
                  .mk (.more ha hlocation hv hredirects) hb hnone⟩
          · cases hlonger with
            | mk hredirects hb hsome =>
                exact .inr (.inl (.mk (.more ha hlocation hv hredirects) hb hsome))
          · cases hbarred with
            | mk hn hredirects hw =>
                exact .inr (.inr (.mk (Nat.succ_le_succ hn)
                  (.more ha hlocation hv hredirects) hw))

/-- The same from the first URL on, whose user may be the one who cannot be sent. -/
theorem WellServed.chain_longer_or_barred (limit : Nat) (h : WellServed method u u m) :
    (∃ n prior a m', n ≤ limit ∧ Chain method u n u m prior a m')
      ∨ Longer method u limit u m ∨ Barred method u limit u m := by
  by_cases hu : Unsendable u
  · exact .inr (.inr (.mk (Nat.zero_le limit) .none hu))
  · exact h.cases hu limit

end TracedTransfer.Http
