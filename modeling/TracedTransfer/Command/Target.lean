/-
The resource that an argument means: the one of a URL, or the file at a
path. A URL with a scheme of one letter is a path, since such schemes
are the letters of drives.
-/
import TracedTransfer.Resource.Name
import TracedTransfer.Url.FilePath
import TracedTransfer.Io.Error

namespace TracedTransfer.Command

open Text

/-- Why an argument means no resource. -/
inductive TargetError where
  /-- A path is relative, and there is no working directory. -/
  | noWorkingDirectory
  /-- It is neither a URL nor a path. -/
  | meaningless (argument : String)
deriving DecidableEq, Repr

/-- The texts of why an argument means no resource. -/
def TargetError.chain : TargetError → Io.Chain
  | .noWorkingDirectory => [.known "resolve current directory", .system]
  | .meaningless argument => [.known ("not a URI or local path: " ++ argument)]

/-- The URL of an argument that is one. -/
def targetUrl? (argument : String) : Option Url :=
  match Url.parse argument with
  | .ok u => if 1 < u.scheme.length then some u else none
  | .error _ => none

/-- The path of an argument, relative to the working directory unless it is absolute. -/
def targetPath (working : Option FilePath) (argument : String) : Except TargetError FilePath :=
  let path := bytesOf argument
  if FilePath.isAbsolute path then .ok path
  else
    match working with
    | some d => .ok (FilePath.relativeTo path d)
    | none => .error .noWorkingDirectory

/-- The name of the resource that an argument means. -/
def target (working : Option FilePath) (argument : String) : Except TargetError Resource.Name :=
  match targetUrl? argument with
  | some u => .ok ⟨u⟩
  | none =>
    match targetPath working argument with
    | .error e => .error e
    | .ok p =>
      match Url.ofFilePath p with
      | some u => .ok ⟨u⟩
      | none => .error (.meaningless argument)

end TracedTransfer.Command
