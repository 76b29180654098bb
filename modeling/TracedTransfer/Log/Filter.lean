/-
Which log lines are kept. A filter is a list of directives; the one with
the longest target that a line's target starts with decides about it.
-/
import TracedTransfer.Text.Blank

namespace TracedTransfer.Log

open Text

/-- How much a line matters. -/
inductive Level where
  | error
  | warn
  | info
  | debug
  | trace
deriving DecidableEq, Repr

namespace Level

/-- The place of a level from the most important on. -/
def rank : Level → Nat
  | .error => 1
  | .warn => 2
  | .info => 3
  | .debug => 4
  | .trace => 5

/-- The name of a level in a line. -/
def name : Level → String
  | .error => "ERROR"
  | .warn => "WARN"
  | .info => "INFO"
  | .debug => "DEBUG"
  | .trace => "TRACE"

end Level

/-- How far down a directive keeps lines; zero keeps none. -/
abbrev Verbosity := Nat

/-- The verbosity of a word or a digit. -/
def verbosity? (s : List Char) : Option Verbosity :=
  let words := ["off", "error", "warn", "info", "debug", "trace"]
  match words.findIdx? fun w => equalIgnoringCase s w.toList with
  | some i => some i
  | none =>
    match s with
    | [c] => if '0' ≤ c && c ≤ '5' then some (c.toNat - '0'.toNat) else none
    | _ => none

/-- The verbosity for the lines of some targets. -/
structure Directive where
  /-- The beginning of the targets; empty for all. -/
  target : List Char
  verbosity : Verbosity
deriving DecidableEq, Repr

namespace Directive

/-- Whether a character may stand in a target. -/
def isTargetChar (c : Char) : Bool := c.isAlphanum || c = '_' || c = ':' || c = '-'

/-- Reads a directive: a verbosity, a target, or both with an equals sign between them. A target
alone keeps everything. -/
def parse? (s : List Char) : Option Directive :=
  match verbosity? s with
  | some v => some ⟨[], v⟩
  | none =>
    match splitOnce '=' s with
    | some (t, v) =>
      if t.isEmpty || !t.all isTargetChar then none
      else if v.isEmpty then some ⟨t, 5⟩
      else (verbosity? v).map fun v => ⟨t, v⟩
    | none => if !s.isEmpty && s.all isTargetChar then some ⟨s, 5⟩ else none

end Directive

/-- The directives of a log; of two with the same target the later one counts. -/
structure Filter where
  directives : List Directive
deriving DecidableEq, Repr

namespace Filter

/-- The filter of programs that are told none. -/
def default : Filter := ⟨[⟨[], 3⟩, ⟨"resfetch".toList, 4⟩]⟩

/-- Reads directives between commas. No directive keeps errors only. -/
def parse? (s : String) : Option Filter :=
  let parts := (s.toList.splitOn ',').filter (!·.isEmpty)
  if parts.isEmpty then some ⟨[⟨[], 1⟩]⟩ else (parts.mapM Directive.parse?).map Filter.mk

/-- The filter that an environment asks for, if it asks for a readable one. -/
def ofSetting (setting : Option String) : Filter := (setting.bind parse?).getD default

/-- The better of two directives for the same line: the longer target, or the later directive. -/
def choose (best : Option Directive) (d : Directive) : Option Directive :=
  match best with
  | none => some d
  | some b => if b.target.length ≤ d.target.length then some d else some b

/-- Whether a line of a target and level is kept. -/
def keeps (f : Filter) (target : String) (level : Level) : Bool :=
  let matching := f.directives.filter fun d => (stripStart? d.target target.toList).isSome
  match matching.foldl choose none with
  | some d => level.rank ≤ d.verbosity
  | none => false

end Filter

end TracedTransfer.Log
