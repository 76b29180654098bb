/-
How arguments are read. A form says which options and operands there
are. Arguments are taken one by one: an option may wait for its value,
and a value is looked at only when the next option or operand comes or
the arguments end, so of two faults the earlier one is told unless the
later one is about an argument that means nothing at all.
-/
import TracedTransfer.Text.Blank

namespace TracedTransfer.Command

open Text

/-- Why arguments ask for nothing that can be done. -/
inductive UsageError where
  /-- They ask for help, which is no fault. -/
  | helpWanted
  | nothingGiven
  | noCommand
  | unknownCommand
  | unknownArgument
  /-- A value is missing or is none of those allowed. -/
  | badValue
  /-- An option is given twice. -/
  | repeated
  /-- A flag is given a value. -/
  | valueNotTaken
  | operandMissing
deriving DecidableEq, Repr

namespace UsageError

/-- The text of a fault. -/
def message : UsageError → String
  | .helpWanted => "help"
  | .nothingGiven => "nothing is asked for"
  | .noCommand => "a command is required"
  | .unknownCommand => "there is no such command"
  | .unknownArgument => "unexpected argument"
  | .badValue => "invalid or missing value"
  | .repeated => "an option cannot be used twice"
  | .valueNotTaken => "a flag takes no value"
  | .operandMissing => "a required argument was not provided"

end UsageError

-- =============================================================== forms

/-- What a value has to be. -/
inductive ValueForm where
  | anything
  | nonempty
  | oneOf (words : List String)
deriving DecidableEq, Repr

/-- Whether a value is as it has to be. -/
def ValueForm.accepts : ValueForm → String → Bool
  | .anything, _ => true
  | .nonempty, v => !v.isEmpty
  | .oneOf words, v => words.contains v

/-- An option. -/
structure Switch where
  /-- Its name after two dashes. -/
  long : String
  /-- Its name after one dash. -/
  short : Option Char
  /-- What its value has to be; a flag has none. -/
  value : Option ValueForm
  about : String
deriving DecidableEq, Repr

/-- The flag that asks for help. It belongs to every form. -/
def Switch.help : Switch := ⟨"help", some 'h', none, "Print help"⟩

/-- The options and operands that there are. -/
structure Form where
  options : List Switch
  operands : List ValueForm
deriving DecidableEq, Repr

namespace Form

/-- The option with a long name. -/
def ofLong? (f : Form) (name : String) : Option Switch :=
  (f.options ++ [Switch.help]).find? (·.long = name)

/-- The option with a short name. -/
def ofShort? (f : Form) (c : Char) : Option Switch :=
  (f.options ++ [Switch.help]).find? (·.short = some c)

end Form

-- ============================================================= reading

/-- What has been read and not looked at. -/
inductive Pending where
  | nothing
  /-- An option and its value, unless that is still to come. -/
  | option (s : Switch) (form : ValueForm) (value : Option String)
  | operand (form : ValueForm) (value : String)
deriving DecidableEq, Repr

/-- What the arguments so far have given. -/
structure Reading where
  flags : List String
  values : List (String × String)
  operands : List String
  pending : Pending
  /-- Whether only operands may follow. -/
  operandsOnly : Bool
deriving DecidableEq, Repr

namespace Reading

/-- Nothing read. -/
def start : Reading := ⟨[], [], [], .nothing, false⟩

/-- Whether nothing was given. -/
def isEmpty (r : Reading) : Bool := r.flags.isEmpty && r.values.isEmpty && r.operands.isEmpty

/-- Whether the next argument is the value of an option. -/
def awaitsValue (r : Reading) : Bool :=
  match r.pending with
  | .option _ _ none => true
  | _ => false

/-- How many operands there are. -/
def operandCount (r : Reading) : Nat :=
  match r.pending with
  | .operand _ _ => r.operands.length + 1
  | _ => r.operands.length

/-- The value of an option. -/
def value? (r : Reading) (long : String) : Option String :=
  (r.values.find? (·.1 = long)).map Prod.snd

/-- Whether a flag was given. -/
def hasFlag (r : Reading) (long : String) : Bool := r.flags.contains long

/-- Gives an option a value. -/
def give (r : Reading) (s : Switch) (form : ValueForm) (v : String) : Except UsageError Reading :=
  if (r.value? s.long).isSome then .error .repeated
  else if form.accepts v then .ok { r with values := r.values ++ [(s.long, v)] }
  else .error .badValue

/-- Looks at what is pending. -/
def settle (r : Reading) : Except UsageError Reading :=
  let settled := { r with pending := .nothing }
  match r.pending with
  | .nothing => .ok r
  | .option _ _ none => .error .badValue
  | .option s form (some v) => settled.give s form v
  | .operand form v =>
    if form.accepts v then .ok { settled with operands := r.operands ++ [v] } else .error .badValue

/-- Raises a flag. -/
def raise (r : Reading) (s : Switch) : Except UsageError Reading := do
  let r ← r.settle
  if s = Switch.help then .error .helpWanted
  else if r.hasFlag s.long then .error .repeated
  else return { r with flags := r.flags ++ [s.long] }

/-- Meets an option that takes a value, which may be attached to it. -/
def meet (r : Reading) (s : Switch) (form : ValueForm) (attached : Option String) :
    Except UsageError Reading := do
  let r ← r.settle
  match attached with
  | some v => r.give s form v
  | none => return { r with pending := .option s form none }

end Reading

/-- What an argument looks like. -/
inductive Shape where
  /-- Two dashes: only operands follow. -/
  | terminator
  | long (name : String) (attached : Option String)
  /-- The letters after one dash. -/
  | cluster (letters : List Char)
  | word
deriving DecidableEq, Repr

/-- What an argument looks like. A single dash is a word. -/
def Shape.of (argument : String) : Shape :=
  match argument.toList with
  | ['-', '-'] => .terminator
  | '-' :: '-' :: rest =>
    match splitOnce '=' rest with
    | some (name, v) => .long (String.ofList name) (some (String.ofList v))
    | none => .long (String.ofList rest) none
  | '-' :: c :: cs => .cluster (c :: cs)
  | _ => .word

namespace Form

variable (f : Form)

/-- Takes the letters after one dash. Those after an option with a value are the value. -/
def takeCluster (r : Reading) : List Char → Except UsageError Reading
  | [] => .ok r
  | c :: cs =>
    match f.ofShort? c with
    | none => .error .unknownArgument
    | some s =>
      match s.value, cs with
      | none, _ => do takeCluster (← r.raise s) cs
      | some form, [] => r.meet s form none
      | some form, '=' :: v => r.meet s form (some (String.ofList v))
      | some form, v => r.meet s form (some (String.ofList v))

/-- Takes an option by its long name. -/
def takeLong (r : Reading) (name : String) (attached : Option String) : Except UsageError Reading :=
  match f.ofLong? name with
  | none => .error .unknownArgument
  | some s =>
    match s.value with
    | some form => r.meet s form attached
    | none => if attached.isSome then .error .valueNotTaken else r.raise s

/-- Takes an operand. `commands` are those that could have come instead. -/
def takeOperand (commands : List String) (r : Reading) (a : String) : Except UsageError Reading :=
  match f.operands[r.operandCount]? with
  | some form => do return { (← r.settle) with pending := .operand form a }
  | none =>
    .error (if commands.isEmpty || commands.contains a then .unknownArgument else .unknownCommand)

/-- Takes one argument. -/
def take (commands : List String) (r : Reading) (a : String) : Except UsageError Reading :=
  if r.operandsOnly then f.takeOperand commands r a
  else
    match Shape.of a with
    | .terminator => .ok { r with operandsOnly := true }
    | .long name attached => f.takeLong r name attached
    | .cluster letters => f.takeCluster r letters
    | .word =>
      match r.pending with
      | .option s form none => .ok { r with pending := .option s form (some a) }
      | _ => f.takeOperand commands r a

/-- Takes arguments up to a command, which comes back with the arguments after it. -/
def read (commands : List String) (r : Reading) :
    List String → Except UsageError (Reading × Option (String × List String))
  | [] => .ok (r, none)
  | a :: rest =>
    if !r.operandsOnly && !r.awaitsValue && commands.contains a then .ok (r, some (a, rest))
    else
      match f.take commands r a with
      | .ok r => read commands r rest
      | .error e => .error e

end Form

end TracedTransfer.Command
