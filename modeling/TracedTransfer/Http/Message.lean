/-
Responses of HTTP/1 as bytes. A response is a status line, header lines
up to an empty one, and a body whose end is given by a length, by chunks
or by the end of the connection. Interim responses may come before the
final one.

The reader returns every header line that it passes, in order, those of
interim responses and the trailers of chunked bodies included.
-/
import TracedTransfer.Http.Failure
import TracedTransfer.Text.Number

namespace TracedTransfer.Http

open Text

/-- The byte that ends a line. -/
def lineFeed : UInt8 := 0x0a

/-- The byte before it. -/
def carriageReturn : UInt8 := 0x0d

-- ============================================================== lines

/-- Whether a line, without its line feed, is the empty one that ends a head. -/
def endsHead (line : Bytes) : Bool := line.head? = none || line.head? = some carriageReturn

/-- The lines up to an empty one and what follows it, after lines that have been read and the
beginning of a line, both the last first. Nothing follows if the empty line is missing. -/
def linesOnto (lines : List Bytes) (line : Bytes) : Bytes → List Bytes × Option Bytes
  | [] => (lines.reverse, none)
  | b :: rest =>
    if b = lineFeed then
      if endsHead line.reverse then (lines.reverse, some rest)
      else linesOnto (line.reverse :: lines) [] rest
    else linesOnto lines (b :: line) rest

/-- The lines up to an empty one, each without its line feed, and what follows. -/
def takeLines (s : Bytes) : List Bytes × Option Bytes := linesOnto [] [] s

theorem length_linesOnto {lines : List Bytes} {line s rest : Bytes} {out : List Bytes}
    (h : linesOnto lines line s = (out, some rest)) : rest.length < s.length := by
  induction s generalizing lines line with
  | nil => simp [linesOnto] at h
  | cons b s ih =>
    simp only [linesOnto] at h
    split at h
    · split at h
      · simp only [Prod.mk.injEq, Option.some.injEq] at h
        simp [h.2]
      · exact Nat.lt_succ_of_lt (ih h)
    · exact Nat.lt_succ_of_lt (ih h)

/-- Whether a byte is a blank between words of a line. -/
def isBlankByte (b : UInt8) : Bool := b = 0x20 || (0x09 ≤ b && b ≤ 0x0d)

/-- Bytes without the blanks at their two ends. -/
def trimBytes (s : Bytes) : Bytes :=
  ((s.dropWhile isBlankByte).reverse.dropWhile isBlankByte).reverse

/-- A byte as a character of ASCII; the others have none. -/
def asciiChar (b : UInt8) : Char := if b < 0x80 then Char.ofNat b.toNat else '\x00'

/-- A digit of a base. -/
def digit? (base : Nat) (b : UInt8) : Option Nat := digitValue? base (asciiChar b)

-- =============================================================== heads

/-- What a status line says. -/
structure Status where
  /-- The version is HTTP/1.0 or HTTP/1.1. -/
  minor : Nat
  code : Nat
deriving DecidableEq, Repr

/-- Reads a status line: the version, a blank and three digits; anything may follow. -/
def Status.parse? (line : Bytes) : Option Status :=
  match line with
  | 0x48 :: 0x54 :: 0x54 :: 0x50 :: 0x2f :: 0x31 :: 0x2e :: v :: blank :: a :: b :: c :: _ => do
    let minor ← digit? 2 v
    let x ← digit? 10 a
    let y ← digit? 10 b
    let z ← digit? 10 c
    if blank = 0x20 || blank = 0x09 then some ⟨minor, x * 100 + y * 10 + z⟩ else none
  | _ => none

/-- The head of a response. -/
structure Head where
  status : Status
  /-- Its lines, the status line first, each without its line feed. -/
  lines : List Bytes
deriving DecidableEq, Repr

namespace Head

/-- Whether a header line can be one: it has a colon, or goes on with the line before it. -/
def checkLine (first : Bool) (line : Bytes) : Except Failure Unit :=
  if line.contains 0 then .error (.badHeader "Nul byte in header")
  else if !first && (line.head? = some 0x20 || line.head? = some 0x09) then .ok ()
  else if line.contains 0x3a then .ok ()
  else .error (.badHeader "Header without colon")

/-- Checks the header lines after the status line. -/
def checkLines : List Bytes → Except Failure Unit
  | [] => .ok ()
  | first :: rest => do
    checkLine true first
    rest.forM (checkLine false)

/-- Reads a head, which must be there. A connection may end within it. -/
def read (s : Bytes) : Except Failure (Head × Option Bytes) :=
  match takeLines s with
  | ([], rest) =>
    -- There is no whole line; what there is may be the beginning of a status line.
    let start := bytesOf "HTTP/"
    if rest.isNone && (s.take start.length == start.take s.length) then .error .emptyReply
    else .error .notHttp
  | (line :: more, rest) =>
    match Status.parse? line with
    | none => .error .notHttp
    | some status => do
      checkLines more
      return (⟨status, line :: more⟩, rest)

/-- Whether a response switches to another protocol. -/
def switches (h : Head) : Bool := h.status.code = 101

/-- Whether a response with this head comes before the final one. One that switches protocols, for
which nobody has asked, is final. -/
def isInterim (h : Head) : Bool := 100 ≤ h.status.code && h.status.code < 200 && !h.switches

/-- The value of a line with a name, given in lower case. -/
def value? (name : String) (line : Bytes) : Option Bytes :=
  let named := line.takeWhile (· ≠ 0x3a)
  if named.length < line.length && named.map (fun b => (asciiChar b).toLower) = name.toList then
    some (trimBytes (line.drop (named.length + 1)))
  else none

/-- The values of all lines with a name, given in lower case. -/
def values (h : Head) (name : String) : List Bytes := h.lines.tail.filterMap (value? name)

/-- Where a redirect leads: the first value that is not empty. -/
def location? (h : Head) : Option Bytes :=
  if 300 ≤ h.status.code && h.status.code < 400 then
    (h.values "location").find? (!·.isEmpty)
  else none

/-- Whether the connection ends after the response. -/
def closes (h : Head) : Bool :=
  h.status.minor = 0 || (h.values "connection").any fun v =>
    v.map (fun b => (asciiChar b).toLower) = "close".toList

end Head

-- ============================================================== bodies

/-- How the end of a body is found. -/
inductive Framing where
  | noBody
  | length (n : Nat)
  | chunked
  /-- The body ends with the connection. -/
  | untilClose
deriving DecidableEq, Repr

namespace Head

/-- The number at the beginning of an announced length. One beyond sixty-three bits says
nothing. -/
def lengthOf (v : Bytes) : Except Failure Framing :=
  match v.takeWhile fun b => (digit? 10 b).isSome with
  | [] => .error (.badHeader "Invalid Content-Length: value")
  | digits =>
    let n := digits.foldl (fun n b => n * 10 + (digit? 10 b).getD 0) 0
    .ok (if n < 9223372036854775808 then .length n else .untilClose)

/-- Whether the body comes in chunks. -/
def isChunked (h : Head) : Bool :=
  (h.values "transfer-encoding").any fun v =>
    v.map (fun b => (asciiChar b).toLower) = "chunked".toList

/-- How the end of the body is found. What follows a switch of protocols is a body to the end of
the connection, and counts as no reply to a request that wants none. Announced lengths must be
numbers even if they do not decide. -/
def framing (h : Head) (wantsBody : Bool) : Except Failure Framing :=
  if h.switches then if wantsBody then .ok .untilClose else .error .emptyReply
  else if h.status.code = 204 || h.status.code = 304 then .ok .noBody
  else
    ((h.values "content-length").mapM lengthOf).map fun lengths =>
      if !wantsBody then .noBody
      else if h.isChunked then .chunked
      else lengths.getLast?.getD .untilClose

end Head

/-- A body with the trailer lines after it. -/
structure Body where
  content : Bytes
  trailers : List Bytes
deriving DecidableEq, Repr

/-- What follows the line feed after the size of a chunk, or after its data. -/
def afterLineFeed (s : Bytes) : Option Bytes :=
  match s.dropWhile (· ≠ lineFeed) with
  | [] => none
  | _ :: rest => some rest

/-- The size line of a chunk: hexadecimal digits and anything up to the line feed. -/
def readChunkSize (s : Bytes) : Except Failure (Nat × Bytes) :=
  let digits := s.takeWhile fun b => (digit? 16 b).isSome
  if digits.isEmpty then
    .error (if s.isEmpty then .openChunks else .badChunk "Illegal or missing hexadecimal sequence")
  else if 16 < digits.length then .error (.badChunk "Too long hexadecimal number")
  else
    match afterLineFeed (s.drop digits.length) with
    | none => .error .openChunks
    | some rest => .ok (digits.foldl (fun n b => n * 16 + (digit? 16 b).getD 0) 0, rest)

/-- What follows the end of the line that closes a chunk. -/
def closeChunk (s : Bytes) : Except Failure Bytes :=
  match s.dropWhile (· = carriageReturn) with
  | [] => .error .openChunks
  | b :: rest => if b = lineFeed then .ok rest else .error (.badChunk "Malformed encoding found")

/-- One chunk: its data and what follows. The last chunk has no data and no line of its own after
it. -/
def readChunk (s : Bytes) : Except Failure (Bytes × Bytes) :=
  match readChunkSize s with
  | .error e => .error e
  | .ok (n, rest) =>
    if n = 0 then .ok ([], rest)
    else if rest.length < n then .error .openChunks
    else (closeChunk (rest.drop n)).map fun after => (rest.take n, after)

theorem length_dropWhile_le (p : UInt8 → Bool) (s : Bytes) : (s.dropWhile p).length ≤ s.length := by
  induction s with
  | nil => simp
  | cons b s ih =>
    simp only [List.dropWhile_cons]
    split
    · exact Nat.le_succ_of_le ih
    · exact Nat.le_refl _

theorem length_readChunkSize {s rest : Bytes} {n : Nat} (h : readChunkSize s = .ok (n, rest)) :
    rest.length < s.length := by
  simp only [readChunkSize] at h
  split at h
  · simp at h
  · split at h
    · simp at h
    · split at h
      · simp at h
      · rename_i r hr
        simp only [Except.ok.injEq, Prod.mk.injEq] at h
        rw [← h.2]
        simp only [afterLineFeed] at hr
        split at hr
        · simp at hr
        · rename_i b t ht
          simp only [Option.some.injEq] at hr
          have := length_dropWhile_le (· ≠ lineFeed)
            (s.drop (s.takeWhile fun b => (digit? 16 b).isSome).length)
          rw [ht] at this
          simp only [List.length_cons, List.length_drop] at this
          rw [← hr]
          omega

theorem length_closeChunk {s rest : Bytes} (h : closeChunk s = .ok rest) :
    rest.length < s.length := by
  simp only [closeChunk] at h
  split at h
  · simp at h
  · rename_i b t ht
    split at h
    · simp only [Except.ok.injEq] at h
      have := length_dropWhile_le (· = carriageReturn) s
      rw [ht, h] at this
      simp only [List.length_cons] at this
      omega
    · simp at h

theorem length_readChunk {s data rest : Bytes} (h : readChunk s = .ok (data, rest)) :
    rest.length < s.length := by
  simp only [readChunk] at h
  split at h
  · simp at h
  · rename_i n r hr
    have hlt := length_readChunkSize hr
    split at h
    · simp only [Except.ok.injEq, Prod.mk.injEq] at h
      rwa [← h.2]
    · split at h
      · simp at h
      · cases hc : closeChunk (r.drop n) with
        | error e => simp [hc, Except.map] at h
        | ok after =>
          simp only [hc, Except.map, Except.ok.injEq, Prod.mk.injEq] at h
          have := length_closeChunk hc
          rw [← h.2]
          simp only [List.length_drop] at this
          omega

/-- The data of all chunks, after what has been read, the last first, and the trailer lines. -/
def chunksOnto (read : List Bytes) (s : Bytes) : Except Failure Body :=
  match _h : readChunk s with
  | .error e => .error e
  | .ok (data, rest) =>
    if data.isEmpty then
      match takeLines rest with
      | (trailers, some _) => .ok ⟨read.reverse.flatten, trailers⟩
      | (_, none) => .error .openChunks
    else chunksOnto (data :: read) rest
termination_by s.length
decreasing_by exact length_readChunk _h

/-- What comes of the data of chunks, up to one that is not whole. -/
def chunksArrived (s : Bytes) : Bytes :=
  match _h : readChunk s with
  | .error _ =>
    match readChunkSize s with
    | .error _ => []
    | .ok (n, rest) => rest.take n
  | .ok (data, rest) => if data.isEmpty then [] else data ++ chunksArrived rest
termination_by s.length
decreasing_by exact length_readChunk _h

/-- What comes of a body, also of one that breaks off. -/
def arrived (f : Framing) (s : Bytes) : Bytes :=
  match f with
  | .noBody => []
  | .untilClose => s
  | .length n => s.take n
  | .chunked => chunksArrived s

/-- Reads a body up to its end. What comes after it does not count. -/
def readBody (f : Framing) (s : Bytes) : Except Failure Body :=
  match f with
  | .noBody => .ok ⟨[], []⟩
  | .untilClose => .ok ⟨s, []⟩
  | .length n => if s.length < n then .error (.partialBody (n - s.length)) else .ok ⟨s.take n, []⟩
  | .chunked => chunksOnto [] s

-- =========================================================== responses

/-- A final response, not yet its body. -/
structure Response where
  /-- The header lines of the interim responses before it. -/
  before : List Bytes
  head : Head
  /-- What follows its head. -/
  rest : Bytes
deriving DecidableEq, Repr

theorem length_headRead {s rest : Bytes} {h : Head} (e : Head.read s = .ok (h, some rest)) :
    rest.length < s.length := by
  simp only [Head.read] at e
  split at e
  · split at e <;> simp at e
  · rename_i line more r hl
    split at e
    · simp at e
    · cases hc : Head.checkLines more with
      | error x => simp [hc, bind, Except.bind] at e
      | ok u =>
        simp only [hc, bind, Except.bind, pure, Except.pure, Except.ok.injEq, Prod.mk.injEq] at e
        rw [e.2] at hl
        exact length_linesOnto hl

/-- The final response with a head, which must be a status, and more than a switch of protocols. -/
def Response.ofHead (before : List Bytes) (head : Head) (rest : Bytes) : Except Failure Response :=
  if head.status.code < 100 then .error .badStatus
  else if head.switches && rest.isEmpty then .error .emptyReply
  else .ok ⟨before, head, rest⟩

/-- Reads up to the final response, after the header lines of interim ones. -/
def readOnto (before : List Bytes) (s : Bytes) : Except Failure Response :=
  if s.isEmpty then .error .emptyReply
  else
    match _h : Head.read s with
    | .error e => .error e
    | .ok (head, none) =>
      if head.isInterim then .error .emptyReply else Response.ofHead before head []
    | .ok (head, some rest) =>
      if head.isInterim then readOnto (before ++ head.lines) rest
      else Response.ofHead before head rest
termination_by s.length
decreasing_by exact length_headRead _h

/-- Reads up to the final response of what a connection brings. -/
def Response.read (s : Bytes) : Except Failure Response := readOnto [] s

namespace Response

/-- The header lines that came with the response. -/
def lines (r : Response) : List Bytes := r.before ++ r.head.lines

/-- Passes over the body of a redirect that is followed. It need not be whole if the connection
ends with it. -/
def skipBody (r : Response) (wantsBody : Bool) : Except Failure Unit :=
  (r.head.framing wantsBody).bind fun f =>
    if r.head.closes then .ok () else (readBody f r.rest).map fun _ => ()

end Response

end TracedTransfer.Http
