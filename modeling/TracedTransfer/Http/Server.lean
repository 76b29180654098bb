/-
A server that answers by a script: for each method and target a list of
replies, taken in turn, the last one over and over. What the server sends
is a sequence of bytes and the end of the connection; what it saw is a
list of requests.
-/
import TracedTransfer.Text.Number

namespace TracedTransfer.Http

open Text

/-- A request as the server saw it. -/
structure Request where
  method : String
  target : String
  authorization : Option String
  /-- The announced length of an upload. -/
  contentLength : Option String
  /-- What arrived of an upload. -/
  body : Bytes
deriving DecidableEq, Repr

/-- One reply of a script. -/
inductive Reply where
  | response (status : Nat) (reason : Bytes) (headers : List Bytes) (body : Bytes)
      (announceLength : Bool)
  /-- The connection ends without an answer. -/
  | close
  /-- Exactly these bytes, then the end of the connection. -/
  | raw (bytes : Bytes)
deriving DecidableEq, Repr

/-- A server with what it has seen. -/
structure Server where
  /-- Replies by method and target. -/
  routes : List (String × List Reply)
  /-- The requests in the order in which they came. -/
  requests : List Request
deriving DecidableEq, Repr

namespace Server

/-- The end of a line. -/
def lineEnd : Bytes := [0x0d, 0x0a]

/-- What stands for a request that no route matches. -/
def notFound : Reply := .response 404 (bytesOf "X") [] [] true

/-- A reply as bytes. A request for headers alone gets no body. -/
def Reply.bytes (isHead : Bool) : Reply → Bytes
  | .close => []
  | .raw s => s
  | .response status reason headers body announceLength =>
    bytesOf ("HTTP/1.1 " ++ Nat.repr status ++ " ") ++ reason ++ lineEnd
      ++ headers.flatMap (· ++ lineEnd)
      ++ (if announceLength then
            bytesOf ("Content-Length: " ++ Nat.repr body.length) ++ lineEnd
          else [])
      ++ bytesOf "Connection: close" ++ lineEnd ++ lineEnd
      ++ (if isHead then [] else body)

/-- Takes the next reply of the route with a key. -/
def takeReply (key : String) : List (String × List Reply) → Option (Reply × List (String × List Reply))
  | [] => none
  | (k, replies) :: rest =>
    if k = key then
      match replies with
      | [] => none
      | [r] => some (r, (k, [r]) :: rest)
      | r :: more => some (r, (k, more) :: rest)
    else (takeReply key rest).map fun (r, routes) => (r, (k, replies) :: routes)

/-- Notes a request and answers it. -/
def answer (s : Server) (r : Request) : Bytes × Server :=
  let requests := s.requests ++ [r]
  let isHead := r.method = "HEAD"
  match takeReply (r.method ++ " " ++ r.target) s.routes with
  | some (reply, routes) => (Reply.bytes isHead reply, ⟨routes, requests⟩)
  | none => (Reply.bytes isHead notFound, ⟨s.routes, requests⟩)

end Server

end TracedTransfer.Http
