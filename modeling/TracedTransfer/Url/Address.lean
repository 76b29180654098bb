/-
Numeric hosts. An IPv4 address is read from one to four numbers in
decimal, octal or hexadecimal, the last of which fills the bytes that
the others leave, and written as four decimal bytes. An IPv6 address is
read from eight groups, one run of which may be cut to two colons and
the last two of which may be an IPv4 address; it is written with the
first longest run of two or more zero groups cut.
-/
import TracedTransfer.Text.Number

namespace TracedTransfer.Url

open Text

-- ================================================================ IPv4

/-- An IPv4 address. -/
structure Ipv4 where
  bits : UInt32
deriving DecidableEq, Repr

namespace Ipv4

/-- The text of a number of an address without the mark of its base, and that base. -/
def numberBase (s : List Char) : Nat × List Char :=
  match s with
  | '0' :: 'x' :: rest => (16, rest)
  | '0' :: 'X' :: rest => (16, rest)
  | '0' :: c :: rest => (8, c :: rest)
  | _ => (10, s)

/-- One number of an address. A mark of a base with nothing after it is zero. -/
def number? (s : List Char) : Option Nat :=
  if s.isEmpty then none
  else
    let (base, digits) := numberBase s
    ofDigits? base digits

/-- The parts of a host between dots, without the empty part after a final dot. -/
def parts (s : List Char) : List (List Char) :=
  let ps := s.splitOn '.'
  if ps.getLast? = some [] then ps.dropLast else ps

/-- Whether the last part of a host is a number, so that the whole host must be an address. -/
def endsInNumber (s : List Char) : Bool :=
  let ps := s.splitOn '.'
  let last :=
    if ps.getLast? = some [] then ps.dropLast.getLast? else ps.getLast?
  match last with
  | none => false
  | some part => (!part.isEmpty && part.all Char.isDigit) || (number? part).isSome

/-- The address that one to four numbers denote. -/
def ofNumbers? (ns : List Nat) : Option Ipv4 :=
  match ns.getLast? with
  | none => none
  | some last =>
    let leading := ns.dropLast
    let room := Nat.pow 256 (4 - leading.length)
    if 3 < leading.length || leading.any (255 < ·) || room ≤ last then none
    else
      let high := leading.foldl (fun acc n => acc * 256 + n) 0
      some ⟨UInt32.ofNat (high * room + last)⟩

/-- Reads an address. -/
def parse? (s : List Char) : Option Ipv4 :=
  ((parts s).mapM number?).bind ofNumbers?

/-- The bytes of an address, the most significant first. -/
def bytes (a : Ipv4) : List Nat :=
  let n := a.bits.toNat
  [n / 16777216, n / 65536 % 256, n / 256 % 256, n % 256]

/-- Four decimal bytes between dots. -/
def text (a : Ipv4) : List Char := ['.'].intercalate (a.bytes.map decimal)

end Ipv4

-- ================================================================ IPv6

/-- An IPv6 address: eight groups of sixteen bits. -/
structure Ipv6 where
  groups : List UInt16
  length_eq : groups.length = 8
deriving DecidableEq, Repr

namespace Ipv6

/-- The first place where two colons stand together. -/
def splitAtCut : List Char → Option (List Char × List Char)
  | [] => none
  | [_] => none
  | a :: b :: rest =>
    if a = ':' && b = ':' then some ([], rest)
    else (splitAtCut (b :: rest)).map fun (l, r) => (a :: l, r)

/-- One group: one to four hexadecimal digits. -/
def group? (s : List Char) : Option UInt16 :=
  if s.isEmpty || 4 < s.length then none
  else (ofDigits? 16 s).map UInt16.ofNat

/-- One byte of an embedded IPv4 address: decimal, without a leading zero. -/
def embeddedByte? (s : List Char) : Option Nat :=
  if s.isEmpty || (s.head? = some '0' && 1 < s.length) then none
  else (ofDigits? 10 s).filter (· ≤ 255)

/-- An IPv4 address at the end, as two groups. -/
def embedded? (s : List Char) : Option (List UInt16) := do
  match ← (s.splitOn '.').mapM embeddedByte? with
  | [a, b, c, d] => some [UInt16.ofNat (a * 256 + b), UInt16.ofNat (c * 256 + d)]
  | _ => none

/-- Groups between single colons; the last may be an embedded IPv4 address if `tail` allows. -/
def groups? (tail : Bool) (s : List Char) : Option (List UInt16) :=
  if s.isEmpty then some []
  else
    let ps := s.splitOn ':'
    match ps.getLast? with
    | none => none
    | some last =>
      if tail && last.contains '.' then do
        let front ← ps.dropLast.mapM group?
        let back ← embedded? last
        some (front ++ back)
      else ps.mapM group?

/-- An address from exactly eight groups. -/
def ofGroups? (gs : List UInt16) : Option Ipv6 :=
  if h : gs.length = 8 then some ⟨gs, h⟩ else none

/-- Reads an address, without its brackets. Two colons stand for at least one zero group. -/
def parse? (s : List Char) : Option Ipv6 :=
  match splitAtCut s with
  | none => (groups? true s).bind ofGroups?
  | some (l, r) => do
    let front ← groups? false l
    let back ← groups? true r
    if front.length + back.length ≤ 7 then
      ofGroups? (front ++ List.replicate (8 - front.length - back.length) 0 ++ back)
    else none

/-- How many zero groups stand at the beginning. -/
def leadingZeros (gs : List UInt16) : Nat := (gs.takeWhile (· == 0)).length

/-- Where the first longest run of zero groups starts, and its length. -/
def longestZeroRun : List UInt16 → Nat × Nat
  | [] => (0, 0)
  | g :: gs =>
    let here := leadingZeros (g :: gs)
    let (start, len) := longestZeroRun gs
    if len ≤ here then (0, here) else (start + 1, len)

/-- A group in lower-case hexadecimal without leading zeros. -/
def groupText (g : UInt16) : List Char := Nat.toDigits 16 g.toNat

/-- Groups between single colons. -/
def joined (gs : List UInt16) : List Char := [':'].intercalate (gs.map groupText)

/-- The text of an address, without brackets. -/
def text (a : Ipv6) : List Char :=
  let (start, len) := longestZeroRun a.groups
  if len < 2 then joined a.groups
  else joined (a.groups.take start) ++ "::".toList ++ joined (a.groups.drop (start + len))

end Ipv6

end TracedTransfer.Url
