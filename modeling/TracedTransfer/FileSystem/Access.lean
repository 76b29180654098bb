/-
What programs do with a file system: look at a path, list a directory,
open and read a file, create and write one, make directories, rename and
remove. Each operation fails as the system does, and one that fails
changes nothing.
-/
import TracedTransfer.FileSystem.Walk

namespace TracedTransfer

open Text

namespace FilePath

/-- A path without slashes and `.` components at its end. The root stays. -/
def trimEnd (p : FilePath) : FilePath := (go p.reverse).reverse
where
  /-- On the path last byte first. -/
  go : List UInt8 → List UInt8
    | [] => []
    | [b] => [b]
    | b :: c :: rest =>
      if b = slash then go (c :: rest)
      else if b = 0x2e && c = slash then go (c :: rest)
      else b :: c :: rest

/-- The path above, if there is one. The empty path is above a single component. -/
def parent? (p : FilePath) : Option FilePath :=
  let q := trimEnd p
  if q.isEmpty || q = [slash] then none
  else
    let front := (q.reverse.dropWhile (· ≠ slash)).reverse
    some (trimEnd front)

end FilePath

namespace FileSystem

-- ============================================================ looking

/-- Whether a path leads to a regular file. -/
def isFileNode (fs : FileSystem) (i : Id) : Bool :=
  match fs.node? i with
  | some (.file _) => true
  | _ => false

/-- Whether a path leads to a directory. -/
def isDirectoryAt (fs : FileSystem) (p : FilePath) : Bool :=
  match fs.resolve p with
  | .ok i => fs.isDirectory i
  | .error _ => false

/-- The length of the file that a path leads to; `none` if it leads to something else. -/
def fileLength? (fs : FileSystem) (p : FilePath) : Except Io.Error (Option Nat) :=
  (fs.resolve p).map fun i => if fs.isFileNode i then some (fs.content i).length else none

/-- The names in the directory that a path leads to. -/
def list (fs : FileSystem) (p : FilePath) : Except Io.Error (List Bytes) :=
  match fs.resolve p with
  | .ok i =>
    if fs.isDirectory i then .ok ((fs.entries i).map Prod.fst)
    else .error (.system .notADirectory)
  | .error e => .error e

/-- The name of a node in a directory. -/
def nameOf? (fs : FileSystem) (dir i : Id) : Option Bytes :=
  ((fs.entries dir).find? (·.2 = i)).map Prod.fst

/-- The path to the directory on top of a stack, if it still has one. That of the root is empty. -/
def stackPath? (fs : FileSystem) : List Id → Option FilePath
  | [] => some []
  | i :: above => do
    let up ← stackPath? fs above
    let name ← fs.nameOf? (top above) i
    return up ++ FilePath.slash :: name

/-- The path of the working directory, if it still has one. -/
def workingPath? (fs : FileSystem) : Option FilePath :=
  (fs.stackPath? fs.workingDirectory).map fun p => if p.isEmpty then [FilePath.slash] else p

-- ============================================================ reading

/-- An open file: a node and a position. -/
structure Handle where
  node : Id
  offset : Nat
deriving DecidableEq, Repr

/-- Opens what a path leads to for reading. -/
def openToRead (fs : FileSystem) (p : FilePath) : Except Io.Error Handle :=
  (fs.resolve p).map fun i => ⟨i, 0⟩

/-- Reads up to `n` bytes. -/
def readHandle (fs : FileSystem) (h : Handle) (n : Nat) : Except Io.Error (Bytes × Handle) :=
  match fs.node? h.node with
  | some (.directory _) => .error (.system .isADirectory)
  | some (.file s) =>
    let got := (s.drop h.offset).take n
    .ok (got, { h with offset := h.offset + got.length })
  | _ => .ok ([], h)

/-- How many bytes are left to read. -/
def bytesLeft (fs : FileSystem) (h : Handle) : Nat := (fs.content h.node).length - h.offset

/-- The whole content of the file that a path leads to. -/
def contentAt (fs : FileSystem) (p : FilePath) : Except Io.Error Bytes :=
  match fs.resolve p with
  | .ok i =>
    if fs.isDirectory i then .error (.system .isADirectory) else .ok (fs.content i)
  | .error e => .error e

-- ============================================================ writing

/-- Opens a path for writing. A file that is missing is created empty; one that is there is made
empty if `truncate` says so. -/
def openToWrite (fs : FileSystem) (truncate : Bool) (p : FilePath) :
    Except Io.Error (FileSystem × Handle) :=
  match fs.locate true p with
  | .error e => .error e
  | .ok (.unnamed _) => .error (.system .isADirectory)
  | .ok (.named stack name none) =>
    let (fs, i) := fs.addNode (.file [])
    .ok (fs.setEntry (top stack) name i, ⟨i, 0⟩)
  | .ok (.named _ _ (some i)) =>
    match fs.node? i with
    | some (.directory _) => .error (.system .isADirectory)
    | some (.file _) => .ok (if truncate then fs.setNode i (.file []) else fs, ⟨i, 0⟩)
    | _ => .ok (fs, ⟨i, 0⟩)

/-- A content with bytes put at a position, over what stood there. -/
def overwrite (s : Bytes) (offset : Nat) (data : Bytes) : Bytes :=
  if offset = s.length then s ++ data
  else s.take offset ++ List.replicate (offset - s.length) 0 ++ data ++ s.drop (offset + data.length)

/-- Writes bytes at the position of an open file. -/
def writeHandle (fs : FileSystem) (h : Handle) (data : Bytes) :
    Except Io.Error (FileSystem × Handle) :=
  match fs.node? h.node with
  | some (.file s) =>
    .ok (fs.setNode h.node (.file (overwrite s h.offset data)),
      { h with offset := h.offset + data.length })
  | _ => if data.isEmpty then .ok (fs, h) else .error (.system .storageFull)

/-- Makes sure that an open file is stored. A device has nothing to store. -/
def syncHandle (fs : FileSystem) (h : Handle) : Except Io.Error Unit :=
  match fs.node? h.node with
  | some .full => .error (.system .invalidInput)
  | _ => .ok ()

/-- Writes bytes at the end of an open file. -/
def appendToNode (fs : FileSystem) (i : Id) (data : Bytes) : Except Io.Error FileSystem :=
  match fs.node? i with
  | some (.file s) => .ok (fs.setNode i (.file (s ++ data)))
  | _ => if data.isEmpty then .ok fs else .error (.system .storageFull)

-- ======================================================== directories

/-- A path as a name in a directory: without slashes at its end. -/
def locateName (fs : FileSystem) (p : FilePath) : Except Io.Error Place :=
  let bare := (p.reverse.dropWhile (· = FilePath.slash)).reverse
  fs.locate false (if bare.isEmpty then p else bare)

/-- Makes a directory. -/
def makeDirectory (fs : FileSystem) (p : FilePath) : Except Io.Error FileSystem :=
  match fs.locateName p with
  | .error e => .error e
  | .ok (.named stack name none) =>
    let (fs, i) := fs.addNode (.directory [])
    .ok (fs.setEntry (top stack) name i)
  | .ok _ => .error (.system .alreadyExists)

/-- Makes a directory, and those above it that are missing. The fuel bounds how many are. -/
def makeDirectoriesWithin : Nat → FileSystem → FilePath → FileSystem × Option Io.Error
  | 0, fs, _ => (fs, some (.custom .other "failed to create whole tree"))
  | fuel + 1, fs, p =>
    if p.isEmpty then (fs, none)
    else
      match fs.makeDirectory p with
      | .ok fs => (fs, none)
      | .error e =>
        if e.kind = .notFound then
          match p.parent? with
          | none => (fs, some (.custom .other "failed to create whole tree"))
          | some up =>
            match makeDirectoriesWithin fuel fs up with
            | (fs, some e) => (fs, some e)
            | (fs, none) =>
              match fs.makeDirectory p with
              | .ok fs => (fs, none)
              | .error e => if fs.isDirectoryAt p then (fs, none) else (fs, some e)
        else if fs.isDirectoryAt p then (fs, none)
        else (fs, some e)

/-- Makes a directory, and those above it that are missing. Those made before a failure stay. -/
def makeDirectories (fs : FileSystem) (p : FilePath) : FileSystem × Option Io.Error :=
  makeDirectoriesWithin (p.length + 1) fs p

-- ================================================== renaming, removing

/-- Whether a path ends in a slash. -/
def asksForDirectory (p : FilePath) : Bool := p.getLast? = some FilePath.slash

/-- Gives a node another name, in the place of what had that name. -/
def rename (fs : FileSystem) (source target : FilePath) : Except Io.Error FileSystem := do
  match ← fs.locateName source, ← fs.locateName target with
  | .named oldStack oldName node, .named newStack newName replaced =>
    match node with
    | none => .error (.system .notFound)
    | some i =>
      let move := ((fs.removeEntry (top oldStack) oldName).setEntry (top newStack) newName i)
      if fs.isDirectory i then
        if newStack.contains i then .error (.system .invalidInput)
        else
          match replaced with
          | none => .ok move
          | some j =>
            if i = j then .ok fs
            else if oldStack.contains j then .error (.system .directoryNotEmpty)
            else if !fs.isDirectory j then .error (.system .notADirectory)
            else if !(fs.entries j).isEmpty then .error (.system .directoryNotEmpty)
            else .ok move
      else if asksForDirectory source || asksForDirectory target then
        .error (.system .notADirectory)
      else
        match replaced with
        | none => .ok move
        | some j =>
          if i = j then .ok fs
          else if oldStack.contains j then .error (.system .directoryNotEmpty)
          else if fs.isDirectory j then .error (.system .isADirectory)
          else .ok move
  | _, _ => .error (.system .resourceBusy)

/-- Takes the name of a file or a link away. -/
def removeFile (fs : FileSystem) (p : FilePath) : Except Io.Error FileSystem :=
  match fs.locate false p with
  | .error e => .error e
  | .ok (.unnamed _) => .error (.system .isADirectory)
  | .ok (.named _ _ none) => .error (.system .notFound)
  | .ok (.named stack name (some i)) =>
    if fs.isDirectory i then .error (.system .isADirectory)
    else .ok (fs.removeEntry (top stack) name)

/-- Takes a name away with everything below it. -/
def removeTree (fs : FileSystem) (p : FilePath) : Except Io.Error FileSystem :=
  match fs.locateName p with
  | .error e => .error e
  | .ok (.unnamed _) => .error (.system .invalidInput)
  | .ok (.named _ _ none) => .error (.system .notFound)
  | .ok (.named stack name (some _)) => .ok (fs.removeEntry (top stack) name)

/-- Takes away what a path leads to: a directory with everything below it, or a name. -/
def remove (fs : FileSystem) (p : FilePath) : Except Io.Error FileSystem :=
  if fs.isDirectoryAt p then fs.removeTree p else fs.removeFile p

-- ============================================================ building

/-- The file system with a directory at a path, and with those above it. -/
def withDirectory (fs : FileSystem) (p : FilePath) : FileSystem := (fs.makeDirectories p).1

/-- The file system with a node at a path, in the place of what was there, and with the
directories above it. -/
def withNode (fs : FileSystem) (p : FilePath) (n : Node) : FileSystem :=
  let fs := fs.withDirectory (p.parent?.getD [])
  match fs.locate false p with
  | .ok (.named stack name _) =>
    let (fs, i) := fs.addNode n
    fs.setEntry (top stack) name i
  | _ => fs

/-- The file system with another working directory, if there is a directory at the path. -/
def within (fs : FileSystem) (p : FilePath) : FileSystem :=
  match fs.locate true p with
  | .ok (.unnamed stack) => { fs with workingDirectory := stack }
  | .ok (.named stack _ (some i)) => { fs with workingDirectory := i :: stack }
  | _ => fs

-- =========================================================== the tree

/-- What stands below a directory, with its path. The fuel bounds the depth. -/
def below (fs : FileSystem) : Nat → Bytes → Id → List (Bytes × Node)
  | 0, _, _ => []
  | depth + 1, start, dir =>
    (fs.entries dir).flatMap fun (name, i) =>
      match fs.node? i with
      | some (.directory es) =>
        (start ++ name, .directory es) :: below fs depth (start ++ name ++ [FilePath.slash]) i
      | some n => [(start ++ name, n)]
      | none => []

/-- Everything below a directory, with its path from there. -/
def treeBelow (fs : FileSystem) (p : FilePath) : List (Bytes × Node) :=
  match fs.resolve p with
  | .ok i => fs.below fs.nodes.length [] i
  | .error _ => []

end FileSystem

end TracedTransfer
