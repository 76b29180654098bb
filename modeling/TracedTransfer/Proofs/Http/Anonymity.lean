/-
What a download makes of the user.

User name and password travel in the authorization of requests and
nowhere else, and a server answers by method and target. So downloads
for two users of the same place go alike in everything that does not
hold the user (`Machine.sight`): redirects lead them to the same URLs, but
for the user (`Behalf`), every request is answered alike, and they end
with the same transfer or the same failure (`like_download`). What they
must have in common is that both can be sent, or that neither can
(`Users.sent`).
-/
import TracedTransfer.Proofs.Http.Authorization
import TracedTransfer.Proofs.Resource.Likeness

namespace TracedTransfer

-- =========================================== what does not hold the user

/-- The text of a piece of the error output that is no log line. -/
def Notice.text? : Notice → Option String
  | .text s => some s
  | .log _ => none

/-- The texts on the error output, in order. -/
def Console.texts (c : Console) : List String := c.notices.filterMap Notice.text?

theorem Console.texts_text (c : Console) (s : String) :
    (c.notify (.text s)).texts = c.texts ++ [s] := by
  unfold Console.texts Console.notices Console.notify
  rw [List.reverse_cons, List.filterMap_append]
  rfl

theorem Console.texts_log (c : Console) (line : Log.Line) :
    (c.notify (.log line)).texts = c.texts := by
  unfold Console.texts Console.notices Console.notify
  rw [List.reverse_cons, List.filterMap_append]
  exact List.append_nil _

namespace Http

/-- A request without the user. -/
def Request.anonymous (r : Request) : Request := { r with authorization := none }

/-- A server that has not noted the users. -/
def Server.anonymous (s : Server) : Server :=
  { s with requests := s.requests.map Request.anonymous }

/-- A server answers whoever asks. -/
theorem Server.answer_anonymous (s : Server) (r : Request) :
    s.anonymous.answer r.anonymous = ((s.answer r).1, (s.answer r).2.anonymous) := by
  have hrequests : (s.requests ++ [r]).map Request.anonymous
      = s.requests.map Request.anonymous ++ [r.anonymous] := List.map_append
  unfold Server.answer
  dsimp only [Server.anonymous, Request.anonymous]
  split
  · exact Prod.ext rfl (congrArg (Server.mk _) hrequests.symm)
  · exact Prod.ext rfl (congrArg (Server.mk _) hrequests.symm)

end Http

/-- What of a machine does not hold the user. Scopes, the log and what
listeners keep hold the names of operations. -/
structure Sight where
  files : FileSystem
  spool : Storage.Spool
  server : Option (Nat × Http.Server)
  output : Text.Bytes
  /-- The texts on the error output. -/
  texts : List String
  clock : Nat
  answers : List (List Operation.Answer)
  shelves : List Shelf
  sinks : List Io.Sink

/-- The part of a machine that does not hold the user. -/
def Machine.sight (m : Machine) : Sight where
  files := m.files
  spool := m.spool
  server := m.server.map fun s => (s.1, s.2.anonymous)
  output := m.console.output
  texts := m.console.texts
  clock := m.clock
  answers := m.answers
  shelves := m.shelves
  sinks := m.sinks

/-- A log line shows nothing but itself. -/
theorem Machine.sight_logged (m : Machine) (level : Log.Level) (target message : String)
    (fields : List (String × String)) :
    (m.logged level target message fields).sight = m.sight := by
  unfold Machine.logged
  split
  · rfl
  · rename_i line _
    split
    · exact congrArg (fun texts => { m.sight with texts }) (Console.texts_log m.console line)
    · rfl

theorem holdsFiles_sight : Resource.HoldsFiles Machine.sight where
  files _ _ h := congrArg Sight.files h
  replaced _ _ fs h := congrArg (fun s => { s with files := fs }) h
  logged := Machine.sight_logged

-- ========================================================== locations

namespace Url

/-- A URL with somebody else to serve it. -/
def on (u : Url) (a : Authority) : Url := { u with authority := some a }

theorem on_self {u : Url} {a : Authority} (h : u.authority = some a) : u.on a = u := by
  unfold on
  rw [← h]

end Url

namespace Http.Location

/-- A relative location is read in the same way whatever stands for the user
in front of the host. -/
theorem onto_on (u : Url) (a : Url.Authority) (start s : List Char) :
    onto (u.on a) start s = (onto u start s).on a := by
  unfold onto
  split
  · rfl
  · rfl

/-- A location without a server keeps whoever serves the URL, -/
theorem onSameServer_on (u : Url) (a : Url.Authority) (s : List Char) :
    onSameServer (u.on a) s = (onSameServer u s).on a := by
  unfold onSameServer
  split
  · rfl
  · rfl
  · exact onto_on u a [] _
  · exact onto_on u a _ s

/-- and the scheme. -/
theorem onSameServer_scheme (u : Url) (s : List Char) :
    (onSameServer u s).scheme = u.scheme := by
  have honto : ∀ start, (onto u start s).scheme = u.scheme := by
    intro start
    unfold onto
    split
    · rfl
    · rfl
  unfold onSameServer
  split
  · rfl
  · rfl
  · exact honto []
  · exact honto _

/-- A location looks at the scheme of the URL, or keeps server and user. -/
theorem read_on (u : Url) (a a' : Url.Authority) (s : List Char) :
    read (u.on a) s = read (u.on a') s
      ∨ ∃ v : Url, v.scheme = u.scheme ∧ read (u.on a) s = .ok (v.on a)
        ∧ read (u.on a') s = .ok (v.on a') := by
  unfold read
  split
  · exact .inl rfl
  · split
    · exact .inl rfl
    · refine .inr ⟨onSameServer u s, onSameServer_scheme u s, ?_, ?_⟩
      · rw [onSameServer_on]
      · rw [onSameServer_on]

end Http.Location

-- =========================================================== transfers

namespace Http

open Run TracedTransfer.Action

/-- Two users of a server, who can both be sent, or neither. -/
structure Users (f : Url) (a a' : Url.Authority) : Prop where
  /-- They stand before the same host -/
  host : a.host = a'.host
  /-- and the same port. -/
  port : a.port = a'.port
  /-- Either both can be sent or neither. -/
  sent : Unsendable (f.on a) ↔ Unsendable (f.on a')

/-- Where two users are led: to the same place on the server, each as
himself, or to the same URL. -/
inductive Behalf (f : Url) (a a' : Url.Authority) : Url → Url → Prop where
  /-- A URL that a server gave names a user of its own, or none. -/
  | same (u : Url) : Behalf f a a' u u
  /-- A relative reference keeps the user of the URL that it was found
  at. -/
  | own (v : Url) (h : v.scheme = f.scheme) : Behalf f a a' (v.on a) (v.on a')

variable {f u u' : Url} {a a' : Url.Authority} {m m' : Machine}

/-- An authorization is refused for one reason only. -/
theorem authorizationOf_like (h : Unsendable u ↔ Unsendable u') :
    AnswerLike Eq (fun _ _ => True) (authorizationOf u) (authorizationOf u') := by
  by_cases hu : Unsendable u
  · rw [authorizationOf_of_unsendable hu, authorizationOf_of_unsendable (h.1 hu)]
    exact .error rfl
  · obtain ⟨x, hx⟩ := authorizationOf_of_sendable hu
    obtain ⟨x', hx'⟩ := authorizationOf_of_sendable fun hu' => hu (h.2 hu')
    rw [hx, hx']
    exact .ok trivial

/-- On his own server a user is authorized as himself. -/
theorem authorizationFor_own {v : Url} (h : v.scheme = f.scheme) (a : Url.Authority) :
    authorizationFor (f.on a) (v.on a) = authorizationOf (f.on a) := by
  have hsame : sameServer (f.on a) (v.on a) = true := by
    have hport : portOf (f.on a) = portOf (v.on a) := by
      unfold portOf Url.on
      dsimp only
      rw [h]
    unfold sameServer
    rw [hport, show (f.on a).scheme = (v.on a).scheme from h.symm]
    simp [Url.host?, Url.on]
  unfold authorizationFor
  rw [hsame]
  split
  · rfl
  · rfl

/-- What is asked of a server names no user. -/
theorem Behalf.targetOf_eq (h : Behalf f a a' u u') : targetOf u = targetOf u' := by
  cases h with
  | same u => rfl
  | own v h => rfl

/-- Machines that look the same have servers at the same port. -/
theorem server_cases (hm : m.sight = m'.sight) :
    (m.server = none ∧ m'.server = none)
      ∨ ∃ port s s', m.server = some (port, s) ∧ m'.server = some (port, s')
        ∧ s.anonymous = s'.anonymous := by
  have hserver : m.server.map (fun s => (s.1, s.2.anonymous))
      = m'.server.map fun s => (s.1, s.2.anonymous) := congrArg Sight.server hm
  cases hs : m.server with
  | none =>
      rw [hs, Option.map_none, eq_comm, Option.map_eq_none_iff] at hserver
      exact .inl ⟨rfl, hserver⟩
  | some s =>
      cases hs' : m'.server with
      | none =>
          rw [hs, hs'] at hserver
          cases hserver
      | some s' =>
          rw [hs, hs', Option.map_some, Option.map_some, Option.some_inj] at hserver
          obtain ⟨hport, hserver⟩ := Prod.ext_iff.1 hserver
          exact .inr ⟨s.1, s.2, s'.2, rfl, congrArg (fun p => some (p, s'.2)) hport.symm, hserver⟩

namespace Users

variable (hu : Users f a a')
include hu

/-- The port of a server does not depend on the user, -/
theorem portOf_on (v : Url) : portOf (v.on a) = portOf (v.on a') := by
  unfold portOf Url.on
  dsimp only [Option.bind_some]
  rw [hu.port]

/-- and whether two URLs are of one server does not either. -/
theorem sameServer_eq (u : Url) : sameServer (f.on a) u = sameServer (f.on a') u := by
  unfold sameServer
  rw [hu.portOf_on f, show (f.on a).host? = (f.on a').host? from hu.host]
  rfl

/-- For the two users a header is made for both, or neither can be sent. -/
theorem authorizationFor_like (h : Behalf f a a' u u') :
    AnswerLike Eq (fun _ _ => True) (authorizationFor (f.on a) u)
      (authorizationFor (f.on a') u') := by
  cases h with
  | same u =>
      unfold authorizationFor
      rw [hu.sameServer_eq u]
      split
      · exact authorizationOf_like Iff.rfl
      · split
        · exact authorizationOf_like hu.sent
        · exact .ok trivial
  | own v h =>
      rw [authorizationFor_own h, authorizationFor_own h]
      exact authorizationOf_like hu.sent

/-- Whether a server can be reached is seen without the user, -/
theorem unreachable_eq (hm : m.sight = m'.sight) (h : Behalf f a a' u u') :
    unreachable m u = unreachable m' u' := by
  have hplace : u.host? = u'.host? ∧ portOf u = portOf u' ∧ u.scheme = u'.scheme := by
    cases h with
    | same u => exact ⟨rfl, rfl, rfl⟩
    | own v h => exact ⟨hu.host, hu.portOf_on v, rfl⟩
  obtain ⟨hhost, hport, hscheme⟩ := hplace
  unfold unreachable
  rw [hhost, hport, hscheme]
  rcases server_cases hm with ⟨hs, hs'⟩ | ⟨port, s, s', hs, hs', -⟩
  · rw [hs, hs']
  · rw [hs, hs']

end Users

/-- so two requests that differ in the authorization get the same answer. -/
theorem like_send {r r' : Request} (h : r.anonymous = r'.anonymous) :
    Like Machine.sight Eq (send r) (send r') := by
  intro m m' hm
  unfold send
  rcases server_cases hm with ⟨hs, hs'⟩ | ⟨port, s, s', hs, hs', hserver⟩
  · rw [hs, hs']
    exact ⟨.value rfl, hm⟩
  · rw [hs, hs']
    have hanswer := s.answer_anonymous r
    rw [hserver, h, s'.answer_anonymous r'] at hanswer
    obtain ⟨hbytes, hafter⟩ := Prod.ext_iff.1 hanswer
    refine ⟨.value hbytes.symm, ?_⟩
    have hsight : ∀ (m : Machine) (s : Server),
        ({ m with server := some (port, s) } : Machine).sight
          = { m.sight with server := some (port, s.anonymous) } := fun _ _ => rfl
    show Machine.sight { m with server := some (port, (s.answer r).2) }
      = Machine.sight { m' with server := some (port, (s'.answer r').2) }
    rw [hsight, hsight, hm]
    exact congrArg (fun s => { m'.sight with server := some (port, s) }) hafter.symm

/-- A request for two users is answered alike. -/
theorem like_request (hu : Users f a a') (method : Method) (h : Behalf f a a' u u') :
    Like Machine.sight Eq (request method (f.on a) u) (request method (f.on a') u') := by
  have hauthorized := hu.authorizationFor_like h
  unfold request
  generalize authorizationFor (f.on a) u = authorization at hauthorized ⊢
  generalize authorizationFor (f.on a') u' = authorization' at hauthorized ⊢
  cases hauthorized with
  | error h =>
      subst h
      exact like_pure rfl
  | ok _ =>
      refine like_bind_eq (fun m m' hm => ?_) fun refused => ?_
      · exact ⟨.value (hu.unreachable_eq hm h), hm⟩
      · cases refused with
        | some e => exact like_pure rfl
        | none =>
            refine like_bind_eq (like_send ?_) fun bytes => like_pure rfl
            rw [h.targetOf_eq]
            rfl

/-- A redirect leads two users to the same place. -/
theorem redirectTarget_like (h : Behalf f a a' u u') (location : Text.Bytes) :
    AnswerLike Eq (Behalf f a a') (redirectTarget u location) (redirectTarget u' location) := by
  have hrefl : ∀ x : Except Failure Url, AnswerLike Eq (Behalf f a a') x x := by
    intro x
    cases x with
    | ok v => exact .ok (.same v)
    | error e => exact .error rfl
  cases h with
  | same u => exact hrefl _
  | own v h =>
      unfold redirectTarget
      split
      · exact .error rfl
      · rcases Location.read_on v a a' (Url.percentEncodeBytes Url.EncodeSet.controls location)
          with heq | ⟨w, hw, hread, hread'⟩
        · rw [heq]
          exact hrefl _
        · rw [hread, hread']
          exact .ok (.own w (hw.trans h))

/-- Following redirects goes alike for two users. -/
theorem like_follow (hu : Users f a a') (limit : Nat) (method : Method) (left : Nat)
    (before : List Text.Bytes) (h : Behalf f a a' u u') :
    Like Machine.sight Eq (follow limit method (f.on a) left before u)
      (follow limit method (f.on a') left before u') := by
  induction left using Nat.strongRecOn generalizing before u u' with
  | _ left ih =>
      unfold follow
      refine like_bind_eq (like_request hu method h) fun answer => ?_
      cases answer with
      | error e => exact like_pure rfl
      | ok r =>
          dsimp only
          split
          · exact like_pure rfl
          · rename_i location _
            split
            · exact like_pure rfl
            · cases left with
              | zero => exact like_pure rfl
              | succ left =>
                  -- A target that is taken on this server keeps the user of
                  -- each; one that names its own is the same for both.
                  have htarget := redirectTarget_like h location
                  dsimp only
                  generalize redirectTarget u location = target at htarget ⊢
                  generalize redirectTarget u' location = target' at htarget ⊢
                  cases htarget with
                  | error he =>
                      subst he
                      exact like_pure rfl
                  | ok hv => exact ih left (Nat.lt_succ_self left) _ hv

/-- **Downloads for two users of a place go alike.** -/
theorem like_download (hu : Users f a a') (o : Options) (method : Method) :
    Like Machine.sight Eq (download o method (f.on a)) (download o method (f.on a')) := by
  unfold download
  split
  · exact like_follow hu _ method _ [] (.own f rfl)
  · exact like_pure rfl

end Http

end TracedTransfer
