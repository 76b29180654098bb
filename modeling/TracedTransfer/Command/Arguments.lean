/-
What the program can be asked for, and how arguments ask for it: options
that every command knows, a command, and the options and operands of
that command.
-/
import TracedTransfer.Command.Grammar

namespace TracedTransfer

namespace Command

/-- The shells that completions can be made for. -/
inductive Shell where
  | bash
  | elvish
  | fish
  | powershell
  | zsh
deriving DecidableEq, Repr

namespace Shell

/-- The name of a shell. -/
def name : Shell → String
  | .bash => "bash"
  | .elvish => "elvish"
  | .fish => "fish"
  | .powershell => "powershell"
  | .zsh => "zsh"

/-- All shells. -/
def all : List Shell := [.bash, .elvish, .fish, .powershell, .zsh]

/-- The shell of a name. -/
def ofName? (s : String) : Option Shell := all.find? (·.name = s)

end Shell

end Command

/-- What the program can be asked for. A resource is given as a URL or a path. -/
inductive Command where
  /-- Download a resource to a file. -/
  | fetch (resource : String) (output : Option String) (ifPresent : Bool)
  /-- Print the content of a resource. -/
  | cat (resource : String)
  /-- List the entries of a resource. -/
  | ls (resource : String)
  /-- Upload a file to a resource. -/
  | put (file resource : String)
  /-- Show the metadata of a resource. -/
  | head (resource : String)
  /-- Show the digest of a resource. -/
  | checksum (resource : String)
  /-- Show the management of plugins. -/
  | repos
  /-- Print completions for a shell. -/
  | completions (shell : Command.Shell)
  /-- Print the manual. -/
  | manpage
deriving DecidableEq, Repr

namespace Command

/-- What arguments ask for. -/
structure Invocation where
  traceFile : Option String
  /-- Whether to keep silent about progress. -/
  quiet : Bool
  command : Command
deriving DecidableEq, Repr

/-- How a command is written. -/
structure Entry where
  name : String
  about : String
  options : List Switch
  operands : List (String × ValueForm)
deriving DecidableEq, Repr

namespace Switch

/-- Where to trace operations. -/
def traceFile : Switch :=
  ⟨"trace-file", none, some .nonempty, "Append one JSON line per finished operation to this file"⟩

/-- Silence about progress. -/
def quiet : Switch := ⟨"quiet", some 'q', none, "Do not print progress lines"⟩

/-- Where to put a download. -/
def output : Switch := ⟨"output", some 'o', some .nonempty, "Destination file"⟩

/-- Absence is no failure. -/
def ifPresent : Switch :=
  ⟨"if-present", none, none, "Succeed without writing anything when the resource does not exist"⟩

end Switch

/-- The options that every command knows. -/
def commonOptions : List Switch := [.traceFile, .quiet]

/-- A resource as an operand. -/
def resourceOperand : String × ValueForm := ("URL", .anything)

/-- All commands. -/
def entries : List Entry := [
  ⟨"fetch", "Download a resource to a local file", [.output, .ifPresent], [resourceOperand]⟩,
  ⟨"cat", "Write a resource's content to the output", [], [resourceOperand]⟩,
  ⟨"ls", "List the entries of a container resource", [], [resourceOperand]⟩,
  ⟨"put", "Upload a local file to a resource", [], [("FILE", .nonempty), resourceOperand]⟩,
  ⟨"head", "Show resource metadata without reading its content", [], [resourceOperand]⟩,
  ⟨"checksum", "Compute the SHA-256 of a resource", [], [resourceOperand]⟩,
  ⟨"repos", "Show configured plugin repositories and version pins", [], []⟩,
  ⟨"completions", "Generate shell completions", [], [("SHELL", .oneOf (Shell.all.map Shell.name))]⟩,
  ⟨"manpage", "Generate a man page", [], []⟩]

/-- The command that asks for help about commands. -/
def helpName : String := "help"

/-- The names of all commands. -/
def names : List String := entries.map Entry.name ++ [helpName]

/-- How arguments are read before the command. -/
def outerForm : Form := ⟨commonOptions, []⟩

/-- How arguments are read after the command. -/
def Entry.form (e : Entry) : Form := ⟨commonOptions ++ e.options, e.operands.map Prod.snd⟩

/-- The command that a reading describes, unless an operand is missing. -/
def ofReading? (name : String) (r : Reading) : Option Command :=
  match name, r.operands with
  | "fetch", [u] =>
    some (.fetch u (r.value? Switch.output.long) (r.hasFlag Switch.ifPresent.long))
  | "cat", [u] => some (.cat u)
  | "ls", [u] => some (.ls u)
  | "put", [f, u] => some (.put f u)
  | "head", [u] => some (.head u)
  | "checksum", [u] => some (.checksum u)
  | "repos", [] => some .repos
  | "completions", [s] => (Shell.ofName? s).map .completions
  | "manpage", [] => some .manpage
  | _, _ => none

/-- What arguments for help ask for: help, if they name at most one command. -/
def helpAbout : List String → UsageError
  | [] => .helpWanted
  | [c] => if names.contains c then .helpWanted else .unknownCommand
  | _ => .unknownCommand

/-- What arguments ask for. The command is read to its end before the last option in front of it
is looked at. A trace file given after the command counts more than one in front of it. -/
def Invocation.ofArguments (arguments : List String) : Except UsageError Invocation := do
  let (outer, found) ← outerForm.read names .start arguments
  match found with
  | none =>
    let outer ← outer.settle
    .error (if outer.isEmpty then .nothingGiven else .noCommand)
  | some (name, rest) =>
    match entries.find? (·.name = name) with
    | none => .error (helpAbout rest)
    | some entry =>
      let (inner, _) ← entry.form.read [] .start rest
      let inner ← inner.settle
      match ofReading? name inner with
      | none => .error .operandMissing
      | some command =>
        let outer ← outer.settle
        let traced (r : Reading) := r.value? Switch.traceFile.long
        let quiet (r : Reading) := r.hasFlag Switch.quiet.long
        return ⟨(traced inner).or (traced outer), quiet inner || quiet outer, command⟩

end Command

end TracedTransfer
