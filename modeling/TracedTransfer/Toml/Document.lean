/-
How the statements of a document build its table. A header opens a table
or a new element of an array of tables; an entry puts a value into the
open table, and the parts of its key before the last lead through tables
that entries have made. No table is opened twice, and no value is put
where something stands.

A table is *implicit* while only headers and keys that lead through it
speak of it, and *dotted* if a key has made it.
-/
import TracedTransfer.Toml.Basic

namespace TracedTransfer.Toml

/-- One line of a document. -/
inductive Statement where
  /-- A value under the last part of a key; `path` is the parts before it. -/
  | entry (path : List String) (key : String) (value : Toml)
  /-- The header of a table. -/
  | table (path : List String) (key : String)
  /-- The header of an element of an array of tables. -/
  | element (path : List String) (key : String)
deriving Repr

/-- What stands under a key while a document is built. -/
inductive Node where
  | value (v : Toml)
  | table (isImplicit isDotted : Bool) (entries : List (String × Node))
  | elements (tables : List (List (String × Node)))

/-- The entries of a table while a document is built. -/
abbrev Entries := List (String × Node)

namespace Entries

/-- What stands under a key. -/
def find? (es : Entries) (key : String) : Option Node := (List.find? (·.1 = key) es).map Prod.snd

/-- The entries with another node under a key that is there. -/
def replace (es : Entries) (key : String) (n : Node) : Entries :=
  es.map fun e => if e.1 = key then (key, n) else e

/-- Changes the entries at the end of a path, of which `f` also hears whether they are those of a
dotted table. Tables that are missing on the way are made, dotted or not; the way through an array
leads to its last element. A dotted way passes through implicit tables only. -/
def updateAt {α : Type} (isDotted : Bool) (f : Bool → Entries → Option (α × Entries)) :
    List String → Bool → Entries → Option (α × Entries)
  | [], d, es => f d es
  | k :: path, _, es =>
    match find? es k with
    | none => do
      let (a, below) ← updateAt isDotted f path isDotted []
      return (a, es ++ [(k, .table true isDotted below)])
    | some (.value _) => none
    | some (.table isImplicit d below) =>
      if isDotted && !isImplicit then none
      else do
        let (a, below) ← updateAt isDotted f path d below
        return (a, replace es k (.table isImplicit d below))
    | some (.elements tables) =>
      match tables.getLast? with
      | none => none
      | some last => do
        let (a, last) ← updateAt isDotted f path false last
        return (a, replace es k (.elements (tables.dropLast ++ [last])))

/-- Puts a value under a key. -/
def put (path : List String) (key : String) (v : Toml) (es : Entries) : Option Entries :=
  (updateAt true (fun isDotted below =>
    if isDotted == path.isEmpty || (find? below key).isSome then none
    else some ((), below ++ [(key, .value v)])) path false es).map Prod.snd

end Entries

-- ============================================================= sealing

mutual

/-- A finished node as a value. -/
def Node.toValue : Node → Toml
  | .value v => v
  | .table _ _ es => .table (entriesOf es)
  | .elements ts => .array (tablesOf ts)

/-- Finished entries as those of a value. -/
def entriesOf : List (String × Node) → List (String × Toml)
  | [] => []
  | (k, n) :: rest => (k, n.toValue) :: entriesOf rest

/-- Finished tables as values. -/
def tablesOf : List (List (String × Node)) → List Toml
  | [] => []
  | es :: rest => .table (entriesOf es) :: tablesOf rest

end

/-- The table that is written between braces. -/
def inlineTable (entries : List (List String × String × Toml)) : Option Toml :=
  (entries.foldlM (fun es (path, key, v) => Entries.put path key v es) []).map fun es =>
    .table (entriesOf es)

-- ============================================================== drafts

/-- A document while it is built: what has been closed, and the open table. -/
structure Draft where
  closed : Entries
  /-- Where the open table goes; `none` for the document itself. -/
  place : Option (List String × String)
  /-- Whether the open table is an element of an array. -/
  isElement : Bool
  current : Entries

namespace Draft

/-- A document without statements. -/
def empty : Draft := ⟨[], none, false, []⟩

/-- Closes the open table. -/
def close (d : Draft) : Option Entries :=
  match d.place with
  | none => some d.current
  | some (path, key) =>
    (Entries.updateAt false (fun _ es =>
      match Entries.find? es key with
      | none =>
        let n := if d.isElement then .elements [d.current] else .table false false d.current
        some ((), es ++ [(key, n)])
      | some (.elements tables) =>
        if d.isElement then some ((), Entries.replace es key (.elements (tables ++ [d.current])))
        else none
      | some _ => none) path false d.closed).map Prod.snd

/-- Opens a table. An implicit one that headers have made is opened with what it holds. -/
def openTable (d : Draft) (path : List String) (key : String) : Option Draft := do
  let closed ← d.close
  let (current, closed) ← Entries.updateAt false (fun _ es =>
    match Entries.find? es key with
    | none => some ([], es)
    | some (.table true false below) => some (below, es.filter (·.1 ≠ key))
    | some _ => none) path false closed
  return ⟨closed, some (path, key), false, current⟩

/-- Opens a new element of an array of tables. -/
def openElement (d : Draft) (path : List String) (key : String) : Option Draft := do
  let closed ← d.close
  let (_, closed) ← Entries.updateAt false (fun _ es =>
    match Entries.find? es key with
    | none => some ((), es ++ [(key, .elements [])])
    | some (.elements _) => some ((), es)
    | some _ => none) path false closed
  return ⟨closed, some (path, key), true, []⟩

/-- The draft after a statement. -/
def add (d : Draft) : Statement → Option Draft
  | .entry path key v => (Entries.put path key v d.current).map fun es => { d with current := es }
  | .table path key => d.openTable path key
  | .element path key => d.openElement path key

end Draft

/-- The entries of the table that statements build. -/
def ofStatements (statements : List Statement) : Option (List (String × Toml)) := do
  let d ← statements.foldlM Draft.add Draft.empty
  return entriesOf (← d.close)

end TracedTransfer.Toml
