/-
What a program shows to the one who runs it: the output, which is bytes,
and the error output, which is texts and the lines of a log without a
file.
-/
import TracedTransfer.Log.Line
import TracedTransfer.Text.Utf8

namespace TracedTransfer

open Text

/-- A piece of the error output. -/
inductive Notice where
  | text (s : String)
  | log (line : Log.Line)
deriving DecidableEq, Repr

/-- What has been shown. -/
structure Console where
  output : Bytes
  /-- The pieces of the error output, the last one first. -/
  reversed : List Notice
deriving DecidableEq, Repr

namespace Console

/-- Nothing shown. -/
def empty : Console := ⟨[], []⟩

/-- Shows more output. -/
def print (c : Console) (data : Bytes) : Console := { c with output := c.output ++ data }

/-- Shows more error output. -/
def notify (c : Console) (n : Notice) : Console := { c with reversed := n :: c.reversed }

/-- The error output in order. -/
def notices (c : Console) : List Notice := c.reversed.reverse

end Console

end TracedTransfer
