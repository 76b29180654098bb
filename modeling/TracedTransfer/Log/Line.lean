/-
Log lines. A line tells its level, the operations that were open, the
part of the program that it comes from, a message and named values. The
time at its front is not part of it.
-/
import TracedTransfer.Log.Filter

namespace TracedTransfer

namespace Log

/-- A log line. -/
structure Line where
  level : Level
  /-- The open operations with their names, the outermost first. -/
  spans : List (Nat × String)
  target : String
  message : String
  fields : List (String × String)
deriving DecidableEq, Repr

namespace Line

/-- One open operation. -/
def spanText (span : Nat × String) : String :=
  "operation\x7bid=" ++ Nat.repr span.1 ++ " name=" ++ span.2 ++ "\x7d"

/-- The line after its time. -/
def text (l : Line) : String :=
  let spans := l.spans.foldl (fun acc s => acc ++ spanText s ++ ":") ""
  let fields := l.fields.foldl (fun acc f => acc ++ " " ++ f.1 ++ "=" ++ f.2) ""
  l.level.name ++ " " ++ spans ++ (if l.spans.isEmpty then "" else " ")
    ++ l.target ++ ": " ++ l.message ++ fields

end Line

/-- The part of the program that opens the spans of operations. -/
def spanTarget : String := "resfetch_core::operation::runner"

end Log

open Log in
/-- A log: what it keeps, where that goes, and the lines in its file, the last one first. -/
structure Log where
  filter : Filter
  /-- Whether the lines go to the console instead of the file. -/
  onConsole : Bool
  reversed : List Line
deriving DecidableEq, Repr

namespace Log

/-- An empty log with a file. -/
def empty (filter : Filter) : Log := ⟨filter, false, []⟩

/-- The lines in the order in which they came. -/
def lines (l : Log) : List Line := l.reversed.reverse

/-- The line as the filter keeps it, if it does. Open operations show only if it would keep a
debug line about them. -/
def kept? (l : Log) (line : Line) : Option Line :=
  if l.filter.keeps line.target line.level then
    some { line with spans := if l.filter.keeps spanTarget .debug then line.spans else [] }
  else none

/-- Adds a line to the file. -/
def write (l : Log) (line : Line) : Log := { l with reversed := line :: l.reversed }

end Log

end TracedTransfer
