/-
Numbers, dates and times of TOML. Single underscores may stand between
digits. Whole numbers have sixty-four bits and may be written in another
base; a floating-point number must not be beyond the greatest one.
Dates must be in the calendar; they are kept as normalised text.
-/
import TracedTransfer.Toml.Basic

namespace TracedTransfer.Toml

open Text

-- ============================================================== digits

/-- Whether a character is a digit of a base. -/
def isDigitOf (base : Nat) (c : Char) : Bool := (digitValue? base c).isSome

/-- The digits that go on a run of them, without the underscores between. -/
def moreDigits (base : Nat) : List Char → List Char × List Char
  | [] => ([], [])
  | '_' :: c :: rest =>
    if isDigitOf base c then
      let (ds, r) := moreDigits base rest
      (c :: ds, r)
    else ([], '_' :: c :: rest)
  | c :: rest =>
    if isDigitOf base c then
      let (ds, r) := moreDigits base rest
      (c :: ds, r)
    else ([], c :: rest)

/-- A run of digits, at least one, without the underscores between. -/
def digitRun (base : Nat) : List Char → Option (List Char × List Char)
  | [] => none
  | c :: rest =>
    if isDigitOf base c then
      let (ds, r) := moreDigits base rest
      some (c :: ds, r)
    else none

/-- A sign: whether it is a minus, and what follows. -/
def readSign : List Char → Bool × List Char
  | '+' :: rest => (false, rest)
  | '-' :: rest => (true, rest)
  | s => (false, s)

/-- The digits of a decimal number: a zero alone, or digits that do not start with it. -/
def readWhole (s : List Char) : Option (List Char × List Char) :=
  match s with
  | '0' :: rest => some (['0'], rest)
  | _ => digitRun 10 s

-- ======================================================= whole numbers

/-- A number of a base after its mark. -/
def readBased (base : Nat) (s : List Char) : Option (Int × List Char) := do
  let (ds, rest) ← digitRun base s
  let n : Int := (← ofDigits? base ds : Nat)
  if isWhole n then some (n, rest) else none

/-- A whole number at the front of a text. -/
def readInteger (s : List Char) : Option (Int × List Char) :=
  match s with
  | '0' :: 'x' :: rest => readBased 16 rest
  | '0' :: 'o' :: rest => readBased 8 rest
  | '0' :: 'b' :: rest => readBased 2 rest
  | _ => do
    let (negative, t) := readSign s
    let (ds, rest) ← readWhole t
    let n : Int := (← ofDigits? 10 ds : Nat)
    let n := if negative then -n else n
    if isWhole n then some (n, rest) else none

-- ============================================================== floats

/-- An exponent with its mark. -/
def readExponent (s : List Char) : Option (Int × List Char) :=
  match s with
  | c :: rest =>
    if c = 'e' || c = 'E' then do
      let (negative, t) := readSign rest
      let (ds, rest) ← digitRun 10 t
      let n : Int := (← ofDigits? 10 ds : Nat)
      return (if negative then -n else n, rest)
    else none
  | [] => none

/-- Whether a text goes on with the mark of an exponent. -/
def startsExponent (s : List Char) : Bool := s.head? = some 'e' || s.head? = some 'E'

/-- A floating-point number at the front of a text: it has a fraction, an exponent or both. -/
def readFloat (s : List Char) : Option (Binary64 × List Char) := do
  let (negative, t) := readSign s
  match stripStart? "inf".toList t with
  | some rest => return (.infinite negative, rest)
  | none =>
    match stripStart? "nan".toList t with
    | some rest => return (.nan, rest)
    | none =>
      let (whole, rest) ← readWhole t
      let (fraction, rest) ← match rest with
        | '.' :: rest => digitRun 10 rest
        | _ => if startsExponent rest then some ([], rest) else none
      let (e, rest) ← if startsExponent rest then readExponent rest else some (0, rest)
      let n ← ofDigits? 10 (whole ++ fraction)
      let x := Binary64.ofDecimal negative n (e - fraction.length)
      if x = .infinite false then none else return (x, rest)

-- ====================================================== dates and times

/-- Exactly `count` digits. -/
def readDigits (count : Nat) (s : List Char) : Option (List Char × List Char) :=
  let front := s.take count
  if front.length = count && front.all Char.isDigit then some (front, s.drop count) else none

/-- The number that digits denote. -/
def valueOf (ds : List Char) : Nat := (ofDigits? 10 ds).getD 0

/-- Two digits whose value is in a range. -/
def readPair (least greatest : Nat) (s : List Char) : Option (List Char × List Char) := do
  let (ds, rest) ← readDigits 2 s
  if least ≤ valueOf ds && valueOf ds ≤ greatest then some (ds, rest) else none

/-- The days of a month. -/
def daysIn (year month : Nat) : Nat :=
  if month = 2 then
    if year % 4 = 0 && (year % 100 ≠ 0 || year % 400 = 0) then 29 else 28
  else if month = 4 || month = 6 || month = 9 || month = 11 then 30
  else 31

/-- A date. -/
def readDate (s : List Char) : Option (List Char × List Char) := do
  let (year, rest) ← readDigits 4 s
  let (month, rest) ← readPair 1 12 (← stripStart? ['-'] rest)
  let (day, rest) ← readPair 1 31 (← stripStart? ['-'] rest)
  if valueOf day ≤ daysIn (valueOf year) (valueOf month) then
    some (year ++ '-' :: month ++ '-' :: day, rest)
  else none

/-- The fraction of a second with its point: nine places, without the zeros at the end. -/
def fractionText (ds : List Char) : List Char :=
  match ((ds.take 9).reverse.dropWhile (· = '0')).reverse with
  | [] => []
  | ds => '.' :: ds

/-- A time of day. -/
def readTime (s : List Char) : Option (List Char × List Char) := do
  let (hour, rest) ← readPair 0 23 s
  let (minute, rest) ← readPair 0 59 (← stripStart? [':'] rest)
  let (second, rest) ← readPair 0 60 (← stripStart? [':'] rest)
  let clock := hour ++ ':' :: minute ++ ':' :: second
  match rest with
  | '.' :: r =>
    let ds := r.takeWhile Char.isDigit
    if ds.isEmpty then some (clock, rest)
    else some (clock ++ fractionText ds, r.dropWhile Char.isDigit)
  | _ => some (clock, rest)

/-- How far a time is from universal time. -/
def readOffset (s : List Char) : Option (List Char × List Char) :=
  match s with
  | 'Z' :: rest => some (['Z'], rest)
  | 'z' :: rest => some (['Z'], rest)
  | sign :: rest =>
    if sign = '+' || sign = '-' then do
      let (hour, rest) ← readPair 0 23 rest
      let (minute, rest) ← readPair 0 59 (← stripStart? [':'] rest)
      let sign := if valueOf hour = 0 && valueOf minute = 0 then '+' else sign
      return (sign :: hour ++ ':' :: minute, rest)
    else none
  | [] => none

/-- A time of day after a date, with its offset. -/
def readTimeAfterDate (s : List Char) : Option (List Char × List Char) :=
  match s with
  | c :: rest =>
    if c = 'T' || c = 't' || c = ' ' then do
      let (clock, rest) ← readTime rest
      let (offset, rest) := (readOffset rest).getD ([], rest)
      return ('T' :: clock ++ offset, rest)
    else none
  | [] => none

/-- A date, a time or both at the front of a text. -/
def readDatetime (s : List Char) : Option (String × List Char) :=
  match readDate s with
  | some (date, rest) =>
    let (time, rest) := (readTimeAfterDate rest).getD ([], rest)
    some (String.ofList (date ++ time), rest)
  | none => (readTime s).map fun (time, rest) => (String.ofList time, rest)

end TracedTransfer.Toml
