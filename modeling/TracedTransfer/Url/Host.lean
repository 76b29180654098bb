/-
The host of a URL. Special schemes take a domain name in ASCII or a
numeric address; other schemes take any text without the forbidden
characters, or an IPv6 address in brackets.
-/
import TracedTransfer.Url.Address
import TracedTransfer.Url.Domain
import TracedTransfer.Url.Error
import TracedTransfer.Url.Percent

namespace TracedTransfer.Url

open Text

/-- A host that is not empty. -/
inductive Host where
  /-- A domain name in ASCII, or the percent-encoded host of another scheme. -/
  | named (text : List Char)
  | ipv4 (address : Ipv4)
  | ipv6 (address : Ipv6)
deriving DecidableEq, Repr

namespace Host

/-- The host as a URL shows it. -/
def text : Host → List Char
  | .named s => s
  | .ipv4 a => a.text
  | .ipv6 a => '[' :: a.text ++ [']']

/-- An IPv6 address with its brackets, the first of which has been seen. -/
def bracketed (s : List Char) : Except Error Host :=
  match s.getLast? with
  | some ']' =>
    match Ipv6.parse? s.dropLast with
    | some a => .ok (.ipv6 a)
    | none => .error .invalidIpv6
  | _ => .error .invalidIpv6

/-- A domain name in ASCII as a host: an address if it ends in a number. -/
def ofAscii (s : List Char) : Except Error Host :=
  if s.isEmpty then .error .emptyHost
  else if Ipv4.endsInNumber s then
    match Ipv4.parse? s with
    | some a => .ok (.ipv4 a)
    | none => .error .invalidIpv4
  else .ok (.named s)

/-- The host of a special scheme. -/
def parse (s : List Char) : Except Error Host :=
  match s with
  | '[' :: rest => bracketed rest
  | _ =>
    match Domain.toAscii? (Utf8.decodeLossy (percentDecode s)) with
    | none => .error .invalidDomainName
    | some ascii => ofAscii ascii

/-- Characters that the host of another scheme may not hold. -/
def isForbidden (c : Char) : Bool :=
  c ∈ ['\x00', '\t', '\n', '\r', ' ', '#', '/', ':', '<', '>', '?', '@', '[', '\\', ']', '^', '|']

/-- The host of a scheme that is not special; `none` for the empty host. -/
def parseOpaque (s : List Char) : Except Error (Option Host) :=
  match s with
  | [] => .ok none
  | '[' :: rest => (bracketed rest).map some
  | _ =>
    if s.any isForbidden then .error .invalidDomainCharacter
    else .ok (some (.named (percentEncode EncodeSet.controls s)))

end Host

end TracedTransfer.Url
