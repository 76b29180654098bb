/-
Why an HTTP transfer did not come about. A failure has a code, which
programs report, the general text of that code, and mostly a text that
says what happened.
-/
namespace TracedTransfer.Http

/-- Why a transfer did not come about. -/
inductive Failure where
  /-- What came back is no response of HTTP/1. -/
  | notHttp
  /-- The status of the response is none. -/
  | badStatus
  /-- A redirect leads to a scheme that is not followed. -/
  | otherScheme (scheme : String)
  /-- A redirect leads to something that is no URL. -/
  | badTarget (reason : String)
  /-- The user name or the password of the URL holds the byte zero. -/
  | badCredentials
  | unknownHost (host : String)
  | refused (host : String) (port : Nat)
  /-- A header line, or the value of one, has no meaning. -/
  | badHeader (reason : String)
  /-- The connection ended before the announced length. -/
  | partialBody (missing : Nat)
  /-- The connection ended within a chunked body. -/
  | openChunks
  /-- A chunk is not well-formed. -/
  | badChunk (reason : String)
  /-- The content of an upload ended before its announced length. -/
  | sourceEnds (got needed : Nat)
  /-- The content of an upload could not be read. -/
  | sourceFails
  /-- A time limit is beyond all clocks. -/
  | limitTooLong
  | tooManyRedirects (limit : Nat)
  /-- The connection ended without a response. -/
  | emptyReply
deriving DecidableEq, Repr

namespace Failure

/-- The code of a failure. -/
def code : Failure → Nat
  | .notHttp => 1
  | .badStatus => 1
  | .otherScheme _ => 1
  | .badTarget _ => 3
  | .badCredentials => 3
  | .unknownHost _ => 6
  | .refused _ _ => 7
  | .badHeader _ => 8
  | .partialBody _ => 18
  | .openChunks => 18
  | .sourceEnds _ _ => 26
  | .sourceFails => 42
  | .limitTooLong => 43
  | .tooManyRedirects _ => 47
  | .emptyReply => 52
  | .badChunk _ => 56

/-- The general text of a code. -/
def summary : Failure → String
  | .notHttp | .badStatus | .otherScheme _ => "Unsupported protocol"
  | .badTarget _ | .badCredentials => "URL using bad/illegal format or missing URL"
  | .unknownHost _ => "Could not resolve hostname"
  | .refused _ _ => "Could not connect to server"
  | .badHeader _ => "Weird server reply"
  | .partialBody _ | .openChunks => "Transferred a partial file"
  | .sourceEnds _ _ => "Failed to open/read local data from file/application"
  | .sourceFails => "Operation was aborted by an application callback"
  | .limitTooLong => "A libcurl function was given a bad argument"
  | .tooManyRedirects _ => "Number of redirects hit maximum amount"
  | .emptyReply => "Server returned nothing (no headers, no data)"
  | .badChunk _ => "Failure when receiving data from the peer"

/-- What happened, if there is more to say. -/
def detail : Failure → Option String
  | .notHttp => some "Received HTTP/0.9 when not allowed"
  | .badStatus => some "Unsupported response code in HTTP response"
  | .otherScheme scheme =>
    some (if scheme = "file" then "Protocol \"file\" disabled in redirect"
      else "The redirect target URL could not be parsed: Unsupported URL scheme")
  | .badTarget reason => some ("The redirect target URL could not be parsed: " ++ reason)
  | .badCredentials => none
  | .unknownHost host => some ("Could not resolve host: " ++ host)
  | .refused host port =>
    some ("Failed to connect to " ++ host ++ " port " ++ Nat.repr port)
  | .badHeader reason => some reason
  | .partialBody missing =>
    some ("end of response with " ++ Nat.repr missing ++ " bytes missing")
  | .openChunks => some "transfer closed with outstanding read data remaining"
  | .badChunk reason => some reason
  | .sourceEnds got needed =>
    some ("client read function EOF fail, only " ++ Nat.repr got ++ "/" ++ Nat.repr needed
      ++ " of needed bytes read")
  | .sourceFails => some "operation aborted by callback"
  | .limitTooLong => none
  | .tooManyRedirects limit => some ("Maximum (" ++ Nat.repr limit ++ ") redirects followed")
  | .emptyReply => some "Empty reply from server"

/-- The text of a failure with its code. -/
def text (f : Failure) : String :=
  "[" ++ Nat.repr f.code ++ "] " ++ f.summary
    ++ (match f.detail with
      | some d => " (" ++ d ++ ")"
      | none => "")

end Failure

end TracedTransfer.Http
