/-
Reading and writing whole numbers and hexadecimal digits.
-/
import TracedTransfer.Text.Utf8

namespace TracedTransfer.Text

/-- The value of a digit in a base up to sixteen, either case. -/
def digitValue? (base : Nat) (c : Char) : Option Nat :=
  let n := c.toNat
  let v :=
    if 0x30 ≤ n && n ≤ 0x39 then n - 0x30
    else if 0x61 ≤ n && n ≤ 0x66 then n - 0x57
    else if 0x41 ≤ n && n ≤ 0x46 then n - 0x37
    else 16
  if v < base then some v else none

/-- The number that digits in a base denote; `none` on a character that is no digit. -/
def ofDigits? (base : Nat) (s : List Char) : Option Nat :=
  s.foldl (fun acc c => acc.bind fun n => (digitValue? base c).map (n * base + ·)) (some 0)

/-- Reads an unsigned number below `bound`: an optional plus sign, then decimal digits. -/
def unsigned? (bound : Nat) (s : List Char) : Option Nat :=
  let digits := (stripStart? ['+'] s).getD s
  if digits.isEmpty then none
  else (ofDigits? 10 digits).filter (· < bound)

/-- The least number that does not fit into sixty-four bits. -/
def u64Bound : Nat := 18446744073709551616

/-- The decimal digits of a number. -/
def decimal (n : Nat) : List Char := (Nat.repr n).toList

/-- A digit below sixteen, in lower case. -/
def hexDigit (n : Nat) : Char :=
  if n < 10 then Char.ofNat (0x30 + n) else Char.ofNat (0x57 + n)

/-- A digit below sixteen, in upper case. -/
def hexDigitUpper (n : Nat) : Char :=
  if n < 10 then Char.ofNat (0x30 + n) else Char.ofNat (0x37 + n)

/-- Two lower-case hexadecimal digits for each byte. -/
def hex (s : Bytes) : List Char :=
  s.flatMap fun b => [hexDigit (b.toNat / 16), hexDigit (b.toNat % 16)]

/-- The bytes that pairs of hexadecimal digits denote. -/
def unhex? : List Char → Option Bytes
  | [] => some []
  | [_] => none
  | a :: b :: rest => do
    let hi ← digitValue? 16 a
    let lo ← digitValue? 16 b
    let tail ← unhex? rest
    return UInt8.ofNat (hi * 16 + lo) :: tail

end TracedTransfer.Text
