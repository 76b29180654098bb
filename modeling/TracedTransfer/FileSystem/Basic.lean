/-
A file system: numbered nodes, which directories name. A file keeps its
number while names come and go, so an open file stays readable after its
name is taken away. Symbolic links are nodes of their own.

`full` is a device that reads as empty and takes no byte.
-/
import TracedTransfer.Io.Error
import TracedTransfer.Url.FilePath

namespace TracedTransfer

open Text

namespace FileSystem

/-- The number of a node. -/
abbrev Id := Nat

/-- A node. -/
inductive Node where
  | file (content : Bytes)
  | directory (entries : List (Bytes × Id))
  | link (target : FilePath)
  | full
deriving DecidableEq, Repr

end FileSystem

/-- A file system with a working directory. -/
structure FileSystem where
  /-- The nodes by number; the root has number zero. -/
  nodes : List FileSystem.Node
  /-- The working directory and the directories above it, innermost first, without the root. -/
  workingDirectory : List FileSystem.Id
deriving DecidableEq, Repr

namespace FileSystem

/-- The number of the root. -/
def root : Id := 0

/-- A file system with an empty root. -/
def empty : FileSystem := ⟨[.directory []], []⟩

/-- A node by number. -/
def node? (fs : FileSystem) (i : Id) : Option Node := fs.nodes[i]?

/-- The file system with another node of a number. -/
def setNode (fs : FileSystem) (i : Id) (n : Node) : FileSystem := { fs with nodes := fs.nodes.set i n }

/-- The file system with one more node, and its number. -/
def addNode (fs : FileSystem) (n : Node) : FileSystem × Id :=
  ({ fs with nodes := fs.nodes ++ [n] }, fs.nodes.length)

/-- The entries of a directory; none for any other node. -/
def entries (fs : FileSystem) (i : Id) : List (Bytes × Id) :=
  match fs.node? i with
  | some (.directory es) => es
  | _ => []

/-- Whether a number is that of a directory. -/
def isDirectory (fs : FileSystem) (i : Id) : Bool :=
  match fs.node? i with
  | some (.directory _) => true
  | _ => false

/-- The node that a directory names. -/
def lookup (fs : FileSystem) (dir : Id) (name : Bytes) : Option Id :=
  ((fs.entries dir).find? (·.1 = name)).map Prod.snd

/-- Makes a directory name a node, in the place of the one it named before. -/
def setEntry (fs : FileSystem) (dir : Id) (name : Bytes) (i : Id) : FileSystem :=
  fs.setNode dir (.directory (((fs.entries dir).filter (·.1 ≠ name)) ++ [(name, i)]))

/-- Takes a name out of a directory. -/
def removeEntry (fs : FileSystem) (dir : Id) (name : Bytes) : FileSystem :=
  fs.setNode dir (.directory ((fs.entries dir).filter (·.1 ≠ name)))

/-- The content of a file; empty for any other node. -/
def content (fs : FileSystem) (i : Id) : Bytes :=
  match fs.node? i with
  | some (.file s) => s
  | _ => []

end FileSystem

end TracedTransfer
