/-
Following a path. A walk goes from directory to directory, component by
component; a symbolic link puts the components of its target before
those that are left, and at most forty of them are followed. The walk
ends at a directory without a name of its own (`.`, `..`, `/`), or at a
name in a directory, with the node it names if there is one.
-/
import TracedTransfer.FileSystem.Basic

namespace TracedTransfer.FileSystem

open Text

/-- Where a walk ends. -/
inductive Place where
  /-- A directory reached without a name. -/
  | unnamed (stack : List Id)
  /-- A name in the directory on top of the stack. -/
  | named (stack : List Id) (name : Bytes) (node : Option Id)
deriving DecidableEq, Repr

/-- The directory on top of a stack of directories, which stands above the root. -/
def top (stack : List Id) : Id := stack.headD root

/-- The longest name of an entry in bytes. -/
def maxName : Nat := 255

/-- The longest path in bytes. -/
def maxPath : Nat := 4095

/-- How many symbolic links a walk follows. -/
def maxLinks : Nat := 40

/-- The component that stays in a directory. -/
def dot : Bytes := [0x2e]

/-- The component that goes to the directory above. -/
def dotDot : Bytes := [0x2e, 0x2e]

/-- The components of a path as a walk takes them. A slash at the end asks for a directory, as a
final `.` does. -/
def steps (p : FilePath) : List Bytes :=
  let cs := (p.splitOn FilePath.slash).filter (!·.isEmpty)
  if p.getLast? = some FilePath.slash then cs ++ [dot] else cs

/-- Where a path starts. -/
def start (stack : List Id) (p : FilePath) : List Id := if p.isAbsolute then [] else stack

/-- Walks from a directory. `follow` says whether a symbolic link at the end is followed too. -/
def walk (fs : FileSystem) (follow : Bool) (links : Nat) (stack : List Id) (path : List Bytes) :
    Except Io.ErrorKind Place :=
  match path with
  | [] => .ok (.unnamed stack)
  | c :: rest =>
    if c = dot then walk fs follow links stack rest
    else if c = dotDot then walk fs follow links stack.tail rest
    else if maxName < c.length then .error .invalidFilename
    else
      match fs.lookup (top stack) c with
      | none => if rest.isEmpty then .ok (.named stack c none) else .error .notFound
      | some i =>
        match fs.node? i with
        | some (.link target) =>
          if rest.isEmpty && !follow then .ok (.named stack c (some i))
          else
            match links with
            | 0 => .error .filesystemLoop
            | links + 1 =>
              if target.isEmpty then .error .notFound
              else walk fs follow links (start stack target) (steps target ++ rest)
        | some (.directory _) =>
          if rest.isEmpty then .ok (.named stack c (some i))
          else walk fs follow links (i :: stack) rest
        | _ => if rest.isEmpty then .ok (.named stack c (some i)) else .error .notADirectory
termination_by (links, path.length)

/-- Where a path leads. -/
def locate (fs : FileSystem) (follow : Bool) (p : FilePath) : Except Io.Error Place :=
  if p.contains 0 then .error .zeroInPath
  else if p.isEmpty then .error (.system .notFound)
  else if maxPath < p.length then .error (.system .invalidFilename)
  else
    match walk fs follow maxLinks (start fs.workingDirectory p) (steps p) with
    | .ok place => .ok place
    | .error k => .error (.system k)

/-- The node at a place; a failure if there is none. -/
def Place.node : Place → Except Io.Error Id
  | .unnamed stack => .ok (top stack)
  | .named _ _ (some i) => .ok i
  | .named _ _ none => .error (.system .notFound)

/-- The node that a path leads to, through symbolic links. -/
def resolve (fs : FileSystem) (p : FilePath) : Except Io.Error Id :=
  (locate fs true p).bind Place.node

end TracedTransfer.FileSystem
