/-
JSON values. Whole numbers and floating-point numbers are told apart;
the members of an object stand in the order in which they are written.
`normalized` gives the value that a sorted map of members holds: each
name once, with its last value, in the order of code points.
-/
import TracedTransfer.Number.Binary64

namespace TracedTransfer

/-- A JSON value. -/
inductive Json where
  | null
  | bool (b : Bool)
  | int (n : Int)
  | float (x : Binary64)
  | str (s : String)
  | arr (items : List Json)
  | obj (members : List (String × Json))
deriving Repr

namespace Json

instance : Inhabited Json := ⟨.null⟩

/-- An unsigned number. -/
def nat (n : Nat) : Json := .int n

/-- A text, or null. -/
def ofString? (s : Option String) : Json := (s.map Json.str).getD .null

/-- The member of an object with a name; the last one counts. -/
def get? (j : Json) (name : String) : Option Json :=
  match j with
  | .obj ms => (ms.reverse.find? (·.1 == name)).map Prod.snd
  | _ => none

/-- The text, if the value is one. -/
def str? : Json → Option String
  | .str s => some s
  | _ => none

/-- The number, if the value is a whole number of sixty-four bits that is not negative. -/
def u64? : Json → Option Nat
  | .int n => if 0 ≤ n && n < Text.u64Bound then some n.toNat else none
  | _ => none

/-- Puts a member into a list in the order of names, in the place of one of the same name. -/
def insertMember (name : String) (value : Json) : List (String × Json) → List (String × Json)
  | [] => [(name, value)]
  | (n, v) :: rest =>
    if name = n then (name, value) :: rest
    else if name < n then (name, value) :: (n, v) :: rest
    else (n, v) :: insertMember name value rest

/-- Members in the order of names, each name with its last value. -/
def sortMembers (ms : List (String × Json)) : List (String × Json) :=
  ms.foldl (fun acc m => insertMember m.1 m.2 acc) []

mutual

/-- The value with the members of all its objects in order. -/
def normalized : Json → Json
  | .arr items => .arr (normalizedItems items)
  | .obj ms => .obj (sortMembers (normalizedMembers ms))
  | j => j

/-- Every item of a list normalized. -/
def normalizedItems : List Json → List Json
  | [] => []
  | j :: rest => normalized j :: normalizedItems rest

/-- Every value of a list of members normalized. -/
def normalizedMembers : List (String × Json) → List (String × Json)
  | [] => []
  | (n, v) :: rest => (n, normalized v) :: normalizedMembers rest

end

end Json

end TracedTransfer
