/-
HTTP transfers. A client sends a request to the server of a URL, passes
over interim responses, follows redirects of downloads, and ends with
the final response: its status, its body, and all header lines that came
on the way.

User name and password of the first URL are sent with every request to
its own server, and nowhere else.
-/
import TracedTransfer.Http.Message
import TracedTransfer.Http.Redirect
import TracedTransfer.Machine
import TracedTransfer.Text.Base64

namespace TracedTransfer.Http

open Text

/-- The limits that transfers keep. -/
structure Options where
  connectTimeoutSecs : Nat
  timeoutSecs : Nat
  /-- Bytes in a second below which a transfer counts as slow. -/
  lowSpeedLimit : Nat
  lowSpeedTimeSecs : Nat
  maxRedirects : Nat
deriving DecidableEq, Repr

namespace Options

/-- The limits that hold unless others are given. -/
def default : Options := ⟨15, 3600, 1024, 60, 10⟩

/-- The number of milliseconds, or of seconds, that a clock cannot count any more. -/
def clockBound : Nat := 9223372036854775808

/-- Whether a clock can measure every time limit. -/
def measurable (o : Options) : Bool := o.connectTimeoutSecs < clockBound && o.timeoutSecs < clockBound

end Options

/-- What a client asks of a server. -/
inductive Method where
  | get
  | head
  | put
deriving DecidableEq, Repr

namespace Method

/-- The word that a request starts with. -/
def word : Method → String
  | .get => "GET"
  | .head => "HEAD"
  | .put => "PUT"

/-- Whether a response to it has a body. -/
def wantsBody (m : Method) : Bool := m ≠ .head

end Method

-- ============================================================= requests

/-- What a request asks for: path and query. -/
def targetOf (u : Url) : String :=
  String.ofList ((if u.path.isEmpty then ['/'] else u.path) ++ (u.query.map ('?' :: ·)).getD [])

/-- The port of the server of a URL. -/
def portOf (u : Url) : Nat :=
  ((u.authority.bind Url.Authority.port).orElse fun _ => Url.defaultPort? u.scheme).getD 80

/-- Whether two URLs have the same server. -/
def sameServer (u v : Url) : Bool :=
  u.scheme = v.scheme && u.host? = v.host? && portOf u = portOf v

/-- User name and password as a request carries them, which no byte zero can go with. -/
def authorizationOf (u : Url) : Except Failure (Option String) :=
  match u.credentials? with
  | none => .ok none
  | some (name, password) =>
    let name := Url.percentDecode name
    let password := Url.percentDecode password
    if (name ++ password).contains 0 then .error .badCredentials
    else .ok (some ("Basic " ++ String.ofList (Base64.encode (name ++ [0x3a] ++ password))))

/-- The authorization of a request on behalf of a first URL. -/
def authorizationFor (first u : Url) : Except Failure (Option String) :=
  if u.credentials?.isSome then authorizationOf u
  else if sameServer first u then authorizationOf first
  else .ok none

/-- The address of the machine itself. -/
def loopback : Url.Host := .ipv4 ⟨0x7f000001⟩

/-- Why the server of a URL cannot be reached, if it cannot. -/
def unreachable (m : Machine) (u : Url) : Option Failure :=
  let host := String.ofList ((u.host?.map Url.Host.text).getD [])
  let refused := Failure.refused host (portOf u)
  match u.host? with
  | some (.named _) => some (.unknownHost host)
  | none => some (.unknownHost host)
  | some h =>
    match m.server with
    | none => some refused
    | some (port, _) =>
      if h = loopback && port = portOf u && u.scheme = "http".toList then none else some refused

/-- Sends a request to the server, which answers with bytes and ends the connection. -/
def send (r : Request) : Run Bytes := fun m =>
  match m.server with
  | none => (.value [], m)
  | some (port, s) =>
    let (bytes, s) := s.answer r
    (.value bytes, { m with server := some (port, s) })

-- =============================================================== uploads

/-- The most that an upload reads at once. -/
def uploadPiece : Nat := 65536

/-- Reads the content of an upload of `needed` bytes, `left` of them still to come, after pieces
that have been read, the last first. Every failed read ends it. -/
def readUploadWithin (fs : FileSystem) (needed : Nat) : Nat → Nat → List Bytes → Io.Reader →
    List Bytes × Option Failure
  | 0, left, acc, _ => (acc, if left = 0 then none else some (.sourceEnds (needed - left) needed))
  | fuel + 1, left, acc, r =>
    if left = 0 then (acc, none)
    else
      match Io.Source.read fs (min left uploadPiece) r with
      | (.error _, _) => (acc, some .sourceFails)
      | (.ok s, r) =>
        if s.isEmpty then (acc, some (.sourceEnds (needed - left) needed))
        else readUploadWithin fs needed fuel (left - s.length) (s :: acc) r

/-- Reads the content of an upload of `needed` bytes. Returns what was read, also when a read
failed. -/
def readUpload (fs : FileSystem) (needed : Nat) (r : Io.Reader) : Bytes × Option Failure :=
  let (pieces, failure) := readUploadWithin fs needed (needed + 1) needed [] r
  (pieces.reverse.flatten, failure)

-- ============================================================= transfers

/-- A transfer that came to a final response. -/
structure Transfer where
  status : Nat
  /-- All header lines that came, those of earlier responses first. -/
  lines : List Bytes
  /-- What came of the body. -/
  body : Bytes
  /-- Why it is not the whole body, if it is not. -/
  cut : Option Failure
deriving DecidableEq, Repr

namespace Transfer

/-- The most that is handed over of a body at once. -/
def bodyPiece : Nat := 16384

/-- Bytes in pieces of the size in which a body is handed over. The fuel bounds the pieces. -/
def piecesWithin : Nat → Bytes → List Bytes
  | 0, _ => []
  | fuel + 1, s => if s.isEmpty then [] else s.take bodyPiece :: piecesWithin fuel (s.drop bodyPiece)

/-- The body as it is handed over. -/
def pieces (t : Transfer) : List Bytes := piecesWithin t.body.length t.body

/-- The transfer, if its body is whole. -/
def whole (t : Transfer) : Except Failure Transfer :=
  match t.cut with
  | none => .ok t
  | some e => .error e

end Transfer

/-- Goes on with a result, or returns the failure. -/
def orFailure {α β : Type} (x : Except Failure α) (f : α → Run (Except Failure β)) :
    Run (Except Failure β) :=
  match x with
  | .ok a => f a
  | .error e => pure (.error e)

/-- Requests a URL without sending content, on behalf of a first URL. -/
def request (method : Method) (first u : Url) : Run (Except Failure Response) :=
  orFailure (authorizationFor first u) fun authorization => do
    match ← Action.gets fun m => unreachable m u with
    | some e => return .error e
    | none => return Response.read (← send ⟨method.word, targetOf u, authorization, none, []⟩)

/-- Ends a transfer with a final response, after header lines. -/
def finish (method : Method) (before : List Bytes) (r : Response) : Except Failure Transfer :=
  (r.head.framing method.wantsBody).map fun f =>
    let body := readBody f r.rest
    let trailers := (body.map Body.trailers).toOption.getD []
    let cut := match body with
      | .ok _ => none
      | .error e => some e
    ⟨r.head.status.code, before ++ r.lines ++ trailers, arrived f r.rest, cut⟩

/-- Requests a URL and follows up to `left` redirects, after header lines that have come. -/
def follow (limit : Nat) (method : Method) (first : Url) (left : Nat) (before : List Bytes)
    (u : Url) : Run (Except Failure Transfer) := do
  match ← request method first u with
  | .error e => return .error e
  | .ok r =>
    match r.head.location? with
    | none => return finish method before r
    | some location =>
      match r.skipBody method.wantsBody with
      | .error e => return .error e
      | .ok () =>
        match left with
        | 0 => return .error (.tooManyRedirects limit)
        | left + 1 =>
          match redirectTarget u location with
          | .error e => return .error e
          | .ok v => follow limit method first left (before ++ r.lines) v

/-- Downloads what a URL leads to, or its head only. -/
def download (o : Options) (method : Method) (u : Url) : Run (Except Failure Transfer) :=
  if o.measurable then follow o.maxRedirects method u o.maxRedirects [] u
  else pure (.error .limitTooLong)

/-- Uploads `length` bytes from a reader. When a read fails, the server gets what came before it;
it hears nothing if that is nothing. -/
def upload (o : Options) (u : Url) (length : Nat) (reader : Io.Reader) :
    Run (Except Failure Transfer) :=
  if !o.measurable then pure (.error .limitTooLong)
  else
    orFailure (authorizationOf u) fun authorization => do
      match ← Action.gets fun m => unreachable m u with
      | some e => return .error e
      | none =>
        let (body, failure) ← Action.gets fun m => readUpload m.files length reader
        let sent : Request :=
          ⟨Method.put.word, targetOf u, authorization, some (Nat.repr length), body⟩
        match failure with
        | none =>
          return ((Response.read (← send sent)).bind (finish .put [])).bind Transfer.whole
        | some e =>
          if body.isEmpty then return .error e
          else
            let _ ← send sent
            return .error e

end TracedTransfer.Http
