/-
Progress: a line on the error output for each operation that finishes.
-/
import TracedTransfer.Operation.Listener

namespace TracedTransfer.Command.Progress

open Operation

/-- The name of an operation for those who wait for it. -/
def name (d : Descriptor) : String := d.progressDisplayName.getD d.displayName

/-- The line of an operation. -/
def line (r : Record) : String :=
  "Download " ++ name r.descriptor ++ ": "
    ++ (match r.failure with
      | some f => "failed (" ++ f ++ ")"
      | none => Nat.repr ((r.resultU64? "bytesRead").getD 0) ++ " bytes")

/-- Prints the line of each operation that finishes. -/
def listener : Listener where
  started _ _ _ := pure ()
  finished r := Run.report (line r)

end TracedTransfer.Command.Progress
