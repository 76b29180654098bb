/-
Why a text is no URL.
-/
namespace TracedTransfer.Url

/-- Why a text is no URL. -/
inductive Error where
  /-- A relative reference with nothing to refer to. -/
  | relativeWithoutBase
  /-- A relative reference to a base with an opaque path. -/
  | relativeToOpaque
  | emptyHost
  | invalidPort
  | invalidIpv4
  | invalidIpv6
  /-- A host of a scheme that is not special holds a forbidden character. -/
  | invalidDomainCharacter
  /-- A host of a special scheme has no ASCII form. -/
  | invalidDomainName
deriving DecidableEq, Repr

/-- The text shown for a failure. -/
def Error.message : Error → String
  | .relativeWithoutBase => "relative URL without a base"
  | .relativeToOpaque => "relative URL with a cannot-be-a-base base"
  | .emptyHost => "empty host"
  | .invalidPort => "invalid port number"
  | .invalidIpv4 => "invalid IPv4 address"
  | .invalidIpv6 => "invalid IPv6 address"
  | .invalidDomainCharacter => "invalid domain character"
  | .invalidDomainName => "invalid international domain name"

end TracedTransfer.Url
