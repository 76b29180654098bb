/-
Percent-encoding. A set says which printable ASCII characters are written
as `%` and two digits in one part of a URL; control characters and every
byte outside ASCII are written so in all parts. Decoding undoes any
well-formed triple and leaves a stray `%` alone.
-/
import TracedTransfer.Text.Number

namespace TracedTransfer.Url

open Text

/-- A set of printable ASCII characters that one part of a URL does not show bare. -/
abbrev EncodeSet := Char → Bool

namespace EncodeSet

/-- No printable character: opaque hosts and opaque paths. -/
def controls : EncodeSet := fun _ => false

/-- The part after the hash sign. -/
def fragment : EncodeSet := fun c => c ∈ [' ', '"', '<', '>', '\x60']

/-- The query of a scheme that is not special. -/
def query : EncodeSet := fun c => c ∈ [' ', '"', '#', '<', '>']

/-- The query of a special scheme, which hides the apostrophe too. -/
def specialQuery : EncodeSet := fun c => query c || c = '\''

/-- A path. -/
def path : EncodeSet := fun c => fragment c || c ∈ ['#', '?', '\x7b', '\x7d']

/-- A user name or a password. -/
def userinfo : EncodeSet := fun c =>
  path c || c ∈ ['/', ':', ';', '=', '@', '[', '\\', ']', '^', '|']

/-- One component of a file path, which may itself hold separators and percent signs. -/
def pathSegment : EncodeSet := fun c => path c || c ∈ ['/', '%', '\\']

end EncodeSet

/-- Whether a byte is shown bare. -/
def staysBare (set : EncodeSet) (b : UInt8) : Bool :=
  0x20 ≤ b && b < 0x7f && !set (Char.ofNat b.toNat)

/-- One byte, bare or as a triple. -/
def encodeByte (set : EncodeSet) (b : UInt8) : List Char :=
  if staysBare set b then [Char.ofNat b.toNat]
  else ['%', hexDigitUpper (b.toNat / 16), hexDigitUpper (b.toNat % 16)]

/-- Bytes with those outside the printable characters that the set allows written as triples. -/
def percentEncodeBytes (set : EncodeSet) (s : Bytes) : List Char := s.flatMap (encodeByte set)

/-- A text percent-encoded through its UTF-8 bytes. -/
def percentEncode (set : EncodeSet) (s : List Char) : List Char :=
  percentEncodeBytes set (Utf8.encode s)

/-- The value of a byte that is a hexadecimal digit. -/
def hexByte? (b : UInt8) : Option Nat := digitValue? 16 (Char.ofNat b.toNat)

/-- Bytes with every well-formed triple replaced by the byte it denotes. -/
def percentDecodeBytes : Bytes → Bytes
  | [] => []
  | b :: rest =>
    if b = 0x25 then
      match rest with
      | h :: l :: tail =>
        match hexByte? h, hexByte? l with
        | some x, some y => UInt8.ofNat (x * 16 + y) :: percentDecodeBytes tail
        | _, _ => b :: percentDecodeBytes (h :: l :: tail)
      | short => b :: percentDecodeBytes short
    else b :: percentDecodeBytes rest
termination_by s => s.length

/-- The bytes that a percent-encoded text denotes. -/
def percentDecode (s : List Char) : Bytes := percentDecodeBytes (Utf8.encode s)

end TracedTransfer.Url
