/-
Base64: three bytes are written as four characters of six bits each, and
a shorter last group is filled up with equals signs.
-/
import TracedTransfer.Text.Utf8

namespace TracedTransfer.Text.Base64

/-- The character that stands for a number below sixty-four. -/
def digit (n : Nat) : Char :=
  if n < 26 then Char.ofNat (0x41 + n)
  else if n < 52 then Char.ofNat (0x61 + (n - 26))
  else if n < 62 then Char.ofNat (0x30 + (n - 52))
  else if n = 62 then '+'
  else '/'

/-- The characters of a group of three bytes, as one number of twenty-four bits. -/
def digits (n : Nat) : List Char :=
  [digit (n / 262144 % 64), digit (n / 4096 % 64), digit (n / 64 % 64), digit (n % 64)]

/-- Bytes in Base64. -/
def encode : Bytes → List Char
  | [] => []
  | [a] => (digits (a.toNat * 65536)).take 2 ++ ['=', '=']
  | [a, b] => (digits (a.toNat * 65536 + b.toNat * 256)).take 3 ++ ['=']
  | a :: b :: c :: rest => digits (a.toNat * 65536 + b.toNat * 256 + c.toNat) ++ encode rest

example : encode (bytesOf "us:pw") = "dXM6cHc=".toList := by decide +kernel

end TracedTransfer.Text.Base64
