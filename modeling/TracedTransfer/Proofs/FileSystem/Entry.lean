/-
What changes of a file system show: the names that directories give, and
the nodes without the entries of directories (`Node.shape`).

Every operation is a sequence of four changes: a node is added, a node is
replaced, a name is given, a name is taken away. Each has one equation
for names and one for shapes, and what operations do is worked out from
these alone. A file system is `Proper` when names lead to nodes that are
there and directories stand where a walk can start; every change keeps
that.
-/
import TracedTransfer.FileSystem.Access

namespace TracedTransfer.FileSystem

open Text

variable {fs : FileSystem}

-- =============================================================== shapes

/-- A node without the entries of a directory. -/
def Node.shape : Node → Node
  | .directory _ => .directory []
  | n => n

/-- The shape of a node by number. -/
def shape? (fs : FileSystem) (i : Id) : Option Node := (fs.node? i).map Node.shape

/-- A directory is a node that has entries, -/
theorem isDirectory_iff {i : Id} :
    fs.isDirectory i = true ↔ ∃ es, fs.node? i = some (.directory es) := by
  unfold isDirectory
  constructor
  · intro h
    split at h
    · next es hn => exact ⟨es, hn⟩
    · cases h
  · rintro ⟨es, hn⟩
    rw [hn]

/-- which is to be seen from its shape, -/
theorem isDirectory_iff_shape {i : Id} :
    fs.isDirectory i = true ↔ fs.shape? i = some (.directory []) := by
  rw [isDirectory_iff, shape?]
  constructor
  · rintro ⟨es, hn⟩
    rw [hn]
    rfl
  · intro h
    rcases hn : fs.node? i with _ | n
    · rw [hn] at h
      cases h
    · rw [hn] at h
      cases n with
      | directory es => exact ⟨es, rfl⟩
      | file s => cases h
      | link t => cases h
      | full => cases h

/-- and any other node is none. -/
theorem isDirectory_eq_false {i : Id} {n : Node} (h : fs.node? i = some n)
    (hn : ∀ es, n ≠ .directory es) : fs.isDirectory i = false := by
  rw [Bool.eq_false_iff]
  intro hd
  obtain ⟨es, he⟩ := isDirectory_iff.1 hd
  rw [h] at he
  exact hn es (Option.some.inj he)

theorem isDirectory_congr {fs' : FileSystem} {i : Id}
    (h : fs'.shape? i = fs.shape? i) : fs'.isDirectory i = fs.isDirectory i := by
  rw [Bool.eq_iff_iff, isDirectory_iff_shape, isDirectory_iff_shape, h]

/-- A node that is no directory is known from its shape. -/
theorem node?_of_shape {i : Id} {n : Node} (hn : ∀ es, n ≠ .directory es) :
    fs.shape? i = some n ↔ fs.node? i = some n := by
  unfold shape?
  rcases fs.node? i with _ | n'
  · constructor
    · intro h
      cases h
    · intro h
      cases h
  · cases n' with
    | directory es =>
        constructor
        · intro h
          exact absurd (Option.some.inj h).symm (hn [])
        · intro h
          exact absurd (Option.some.inj h).symm (hn es)
    | file s => exact Iff.rfl
    | link t => exact Iff.rfl
    | full => exact Iff.rfl

/-- The shape of a node leaves out what stands in a directory, -/
theorem shape?_of_node {i : Id} {n : Node} (h : fs.node? i = some n) :
    fs.shape? i = some n.shape := by
  rw [shape?, h]
  rfl

/-- and whatever has one -/
theorem lt_of_shape {i : Id} {n : Node} (h : fs.shape? i = some n) :
    i < fs.nodes.length := by
  unfold shape? node? at h
  rcases hn : fs.nodes[i]? with _ | n'
  · rw [hn] at h
    cases h
  · exact (List.getElem?_eq_some_iff.1 hn).1

/-- is among the nodes. -/
theorem shape?_of_lt {i : Id} (h : i < fs.nodes.length) :
    ∃ n, fs.shape? i = some n := by
  have hn : fs.node? i = some fs.nodes[i] := List.getElem?_eq_getElem h
  exact ⟨_, shape?_of_node hn⟩

/-- A node that is no directory holds something else. -/
theorem node?_of_lt {i : Id} (h : i < fs.nodes.length) (hd : fs.isDirectory i = false) :
    ∃ n, fs.node? i = some n ∧ ∀ es, n ≠ .directory es := by
  refine ⟨fs.nodes[i], List.getElem?_eq_getElem h, fun es hn => ?_⟩
  rw [Bool.eq_false_iff] at hd
  exact hd (isDirectory_iff.2 ⟨es, hn ▸ List.getElem?_eq_getElem h⟩)

theorem lt_of_isDirectory {i : Id} (h : fs.isDirectory i = true) :
    i < fs.nodes.length := lt_of_shape (isDirectory_iff_shape.1 h)

/-- The content of a node is to be seen from its shape. -/
theorem content_eq (fs : FileSystem) (i : Id) : fs.content i
    = match fs.shape? i with
      | some (.file s) => s
      | _ => [] := by
  unfold content shape?
  rcases fs.node? i with _ | n
  · rfl
  · cases n with
    | file s => rfl
    | directory es => rfl
    | link t => rfl
    | full => rfl

/-- Only directories name nodes. -/
theorem isDirectory_of_lookup {dir i : Id} {name : Bytes}
    (h : fs.lookup dir name = some i) : fs.isDirectory dir = true := by
  unfold lookup entries at h
  split at h
  · next es hn => exact isDirectory_iff.2 ⟨es, hn⟩
  · cases h

/-- A name that leads somewhere is one of the entries. -/
theorem mem_entries_of_lookup {dir i : Id} {name : Bytes}
    (h : fs.lookup dir name = some i) : (name, i) ∈ fs.entries dir := by
  unfold lookup at h
  rcases hf : (fs.entries dir).find? (·.1 = name) with _ | e
  · rw [hf] at h
    cases h
  · rw [hf] at h
    have hname : e.1 = name := by simpa using List.find?_some hf
    have hid : e.2 = i := Option.some.inj h
    rw [← hname, ← hid]
    exact List.mem_of_find?_eq_some hf

/-- In what is no directory nothing is found. -/
theorem lookup_of_not_directory {dir : Id} (h : fs.isDirectory dir = false)
    (name : Bytes) : fs.lookup dir name = none := by
  rcases hl : fs.lookup dir name with _ | i
  · rfl
  · rw [isDirectory_of_lookup hl] at h
    cases h

-- ============================================================== changes

/-- To set a node changes that one only -/
theorem node?_setNode {i : Id} {n : Node} (hi : i < fs.nodes.length) (j : Id) :
    (fs.setNode i n).node? j = if j = i then some n else fs.node? j := by
  unfold node? setNode
  split
  · next h =>
      rw [h]
      exact List.getElem?_set_self hi
  · next h => exact List.getElem?_set_ne (Ne.symm h)

/-- and adds none; -/
theorem length_setNode (i : Id) (n : Node) :
    (fs.setNode i n).nodes.length = fs.nodes.length := List.length_set

/-- the same of shapes. -/
theorem shape?_setNode {i : Id} {n : Node} (hi : i < fs.nodes.length) (j : Id) :
    (fs.setNode i n).shape? j = if j = i then some n.shape else fs.shape? j := by
  unfold shape?
  rw [node?_setNode hi]
  split
  · rfl
  · rfl

/-- Replacing something that is no directory by something that is none
leaves all names alone. -/
theorem lookup_setNode {i : Id} {n : Node} (hi : fs.isDirectory i = false)
    (hn : ∀ es, n ≠ .directory es) (dir : Id) (name : Bytes) :
    (fs.setNode i n).lookup dir name = fs.lookup dir name := by
  by_cases hlt : i < fs.nodes.length
  · by_cases h : dir = i
    · subst h
      rw [lookup_of_not_directory hi]
      refine lookup_of_not_directory ?_ name
      rw [Bool.eq_false_iff]
      intro hd
      obtain ⟨es, hes⟩ := isDirectory_iff.1 hd
      rw [node?_setNode hlt, if_pos rfl] at hes
      exact hn es (Option.some.inj hes)
    · unfold lookup entries
      rw [node?_setNode hlt, if_neg h]
  · unfold setNode
    rw [List.set_eq_of_length_le (Nat.le_of_not_lt hlt)]

/-- A node that is added comes behind all others, -/
theorem node?_addNode (n : Node) (j : Id) : (fs.addNode n).1.node? j
    = if j = fs.nodes.length then some n else fs.node? j := by
  unfold node? addNode
  split
  · next h =>
      rw [h]
      exact List.getElem?_concat_length
  · next h =>
      rcases Nat.lt_or_gt_of_ne h with hlt | hgt
      · exact List.getElem?_append_left hlt
      · rw [List.getElem?_eq_none, List.getElem?_eq_none (Nat.le_of_lt hgt)]
        rw [List.length_append, List.length_singleton]
        exact hgt

/-- with its shape, -/
theorem shape?_addNode (n : Node) (j : Id) : (fs.addNode n).1.shape? j
    = if j = fs.nodes.length then some n.shape else fs.shape? j := by
  unfold shape?
  rw [node?_addNode]
  split
  · rfl
  · rfl

/-- and there is one more. -/
theorem length_addNode (n : Node) :
    (fs.addNode n).1.nodes.length = fs.nodes.length + 1 := by
  unfold addNode
  rw [List.length_append, List.length_singleton]

/-- A new node that names nothing leaves all names alone. -/
theorem lookup_addNode {n : Node} (hn : ∀ es, n = .directory es → es = [])
    (dir : Id) (name : Bytes) :
    (fs.addNode n).1.lookup dir name = fs.lookup dir name := by
  unfold lookup entries
  rw [node?_addNode]
  by_cases h : dir = fs.nodes.length
  · have hnone : fs.node? dir = none := by
      rw [h]
      exact List.getElem?_eq_none (Nat.le_refl _)
    rw [if_pos h, hnone]
    cases n with
    | directory es => rw [hn es rfl]
    | file s => rfl
    | link t => rfl
    | full => rfl
  · rw [if_neg h]

/-- Entries of one directory can be set without touching others, -/
theorem entries_setNode {dir dir' : Id} {es : List (Bytes × Id)}
    (hd : fs.isDirectory dir = true) :
    (fs.setNode dir (.directory es)).entries dir'
      = if dir' = dir then es else fs.entries dir' := by
  unfold entries
  rw [node?_setNode (lt_of_isDirectory hd)]
  by_cases h : dir' = dir
  · rw [if_pos h, if_pos h]
  · rw [if_neg h, if_neg h]

/-- and without changing any shape. -/
theorem shape?_setNode_directory {dir : Id} (hd : fs.isDirectory dir = true)
    (es : List (Bytes × Id)) (i : Id) :
    (fs.setNode dir (.directory es)).shape? i = fs.shape? i := by
  rw [shape?_setNode (lt_of_isDirectory hd)]
  by_cases h : i = dir
  · rw [if_pos h, h, isDirectory_iff_shape.1 hd]
    rfl
  · rw [if_neg h]

/-- Nodes that are no directories stay what they are. -/
theorem node?_setNode_directory {dir i : Id} (hd : fs.isDirectory dir = true)
    (es : List (Bytes × Id)) {n : Node} (hn : ∀ es, n ≠ .directory es)
    (h : fs.node? i = some n) : (fs.setNode dir (.directory es)).node? i = some n := by
  rw [← node?_of_shape hn, shape?_setNode_directory hd, node?_of_shape hn, h]

/-- Shapes stay when an entry is set -/
theorem shape?_setEntry {dir : Id} (hd : fs.isDirectory dir = true)
    (name : Bytes) (i j : Id) :
    (fs.setEntry dir name i).shape? j = fs.shape? j :=
  shape?_setNode_directory hd _ j

/-- or removed, -/
theorem shape?_removeEntry {dir : Id} (hd : fs.isDirectory dir = true)
    (name : Bytes) (j : Id) : (fs.removeEntry dir name).shape? j = fs.shape? j :=
  shape?_setNode_directory hd _ j

/-- and so do all nodes that are no directories, -/
theorem node?_setEntry {dir j : Id} (hd : fs.isDirectory dir = true) (name : Bytes)
    (i : Id) {n : Node} (hn : ∀ es, n ≠ .directory es) (h : fs.node? j = some n) :
    (fs.setEntry dir name i).node? j = some n :=
  node?_setNode_directory hd _ hn h

/-- in both cases. -/
theorem node?_removeEntry {dir j : Id} (hd : fs.isDirectory dir = true) (name : Bytes)
    {n : Node} (hn : ∀ es, n ≠ .directory es) (h : fs.node? j = some n) :
    (fs.removeEntry dir name).node? j = some n :=
  node?_setNode_directory hd _ hn h

/-- To take one name out of a list leaves what is found under others, -/
theorem find?_others (es : List (Bytes × Id)) {name name' : Bytes}
    (h : name' ≠ name) :
    (es.filter (·.1 ≠ name)).find? (·.1 = name') = es.find? (·.1 = name') := by
  induction es with
  | nil => rfl
  | cons e es ih =>
      by_cases he : e.1 = name
      · have hne : ¬ e.1 = name' := fun hc => h (hc.symm.trans he)
        rw [List.filter_cons_of_neg (by simpa using he), ih,
          List.find?_cons_of_neg (by simpa using hne)]
      · rw [List.filter_cons_of_pos (by simpa using he), List.find?_cons,
          List.find?_cons, ih]

/-- and nothing under that one. -/
theorem find?_gone (es : List (Bytes × Id)) (name : Bytes) :
    (es.filter (·.1 ≠ name)).find? (·.1 = name) = none := by
  rw [List.find?_eq_none]
  intro e he
  simpa using (List.mem_filter.1 he).2

/-- A name that is given leads to its node, and others lead where they
did. -/
theorem lookup_setEntry {dir : Id} (hd : fs.isDirectory dir = true)
    (name : Bytes) (i dir' : Id) (name' : Bytes) :
    (fs.setEntry dir name i).lookup dir' name'
      = if dir' = dir ∧ name' = name then some i else fs.lookup dir' name' := by
  unfold lookup setEntry
  rw [entries_setNode hd]
  by_cases h : dir' = dir
  · rw [if_pos h, List.find?_append, h]
    by_cases hn : name' = name
    · rw [hn, find?_gone, if_pos ⟨rfl, rfl⟩]
      simp
    · rw [find?_others _ hn, if_neg fun hc => hn hc.2]
      have hlast : [(name, i)].find? (·.1 = name') = none :=
        List.find?_cons_of_neg (by simpa using Ne.symm hn)
      rw [hlast, Option.or_none]
  · rw [if_neg h, if_neg fun hc => h hc.1]

/-- A name that is taken away leads nowhere, and others lead where they
did. -/
theorem lookup_removeEntry {dir : Id} (hd : fs.isDirectory dir = true)
    (name : Bytes) (dir' : Id) (name' : Bytes) :
    (fs.removeEntry dir name).lookup dir' name'
      = if dir' = dir ∧ name' = name then none else fs.lookup dir' name' := by
  unfold lookup removeEntry
  rw [entries_setNode hd]
  by_cases h : dir' = dir
  · rw [if_pos h, h]
    by_cases hn : name' = name
    · rw [hn, find?_gone, if_pos ⟨rfl, rfl⟩]
      rfl
    · rw [find?_others _ hn, if_neg fun hc => hn hc.2]
  · rw [if_neg h, if_neg fun hc => h hc.1]

/-- The file system with a new node under a name. -/
def create (fs : FileSystem) (dir : Id) (name : Bytes) (n : Node) : FileSystem :=
  (fs.addNode n).1.setEntry dir name fs.nodes.length

section create

variable {n : Node} {dir : Id} {name : Bytes}

/-- A directory stays one when a node is added. -/
theorem isDirectory_addNode (hd : fs.isDirectory dir = true) :
    (fs.addNode n).1.isDirectory dir = true := by
  have hne : dir ≠ fs.nodes.length := Nat.ne_of_lt (lt_of_isDirectory hd)
  rw [isDirectory_iff_shape, shape?_addNode, if_neg hne]
  exact isDirectory_iff_shape.1 hd

/-- What is created is found in its directory under its name, and nothing
else is found in another way; -/
theorem lookup_create (hn : ∀ es, n = .directory es → es = [])
    (hd : fs.isDirectory dir = true) (dir' : Id) (name' : Bytes) :
    (fs.create dir name n).lookup dir' name'
      = if dir' = dir ∧ name' = name then some fs.nodes.length
        else fs.lookup dir' name' := by
  unfold create
  rw [lookup_setEntry (isDirectory_addNode hd), lookup_addNode hn]

/-- its shape is the only new one, -/
theorem shape?_create (hd : fs.isDirectory dir = true) (i : Id) :
    (fs.create dir name n).shape? i
      = if i = fs.nodes.length then some n.shape else fs.shape? i := by
  unfold create
  rw [shape?_setEntry (isDirectory_addNode hd), shape?_addNode]

/-- it holds what it was created with, -/
theorem node?_create (hd : fs.isDirectory dir = true) (name s : Bytes) :
    (fs.create dir name (.file s)).node? fs.nodes.length = some (.file s) := by
  rw [← node?_of_shape (by simp), shape?_create hd, if_pos rfl]
  rfl

/-- it is a directory if it was created as one, -/
theorem isDirectory_create (hd : fs.isDirectory dir = true) (name : Bytes) :
    (fs.create dir name (.directory [])).isDirectory fs.nodes.length = true := by
  rw [isDirectory_iff_shape, shape?_create hd, if_pos rfl]
  rfl

/-- and there is one node more. -/
theorem length_create : (fs.create dir name n).nodes.length = fs.nodes.length + 1 := by
  unfold create setEntry
  rw [length_setNode, length_addNode]

end create

-- ============================================================== proper

/-- A file system where names lead to nodes that are there, and where the
directories are directories that a walk can start from. -/
structure Proper (fs : FileSystem) : Prop where
  /-- The root is a directory, -/
  root : fs.isDirectory root = true
  /-- one is in directories, -/
  working : ∀ i ∈ fs.workingDirectory, fs.isDirectory i = true
  /-- and names lead to nodes that are there. -/
  there : ∀ {dir : Id} {name : Bytes} {i : Id},
    fs.lookup dir name = some i → i < fs.nodes.length

/-- It can be checked entry by entry. -/
theorem proper_of_entries (hroot : fs.isDirectory root = true)
    (hworking : ∀ i ∈ fs.workingDirectory, fs.isDirectory i = true)
    (hentries : ∀ i < fs.nodes.length, ∀ e ∈ fs.entries i, e.2 < fs.nodes.length) :
    Proper fs where
  root := hroot
  working := hworking
  there {dir _ _} h :=
    hentries dir (lt_of_isDirectory (isDirectory_of_lookup h)) _
      (mem_entries_of_lookup h)

theorem empty_proper : Proper empty :=
  proper_of_entries rfl (by decide) (by decide)

/-- A change keeps it that keeps directories, and gives names to what is
there. -/
theorem Proper.of_kept {fs' : FileSystem} (h : Proper fs)
    (hworking : fs'.workingDirectory = fs.workingDirectory)
    (hdir : ∀ i, fs.isDirectory i = true → fs'.isDirectory i = true)
    (hthere : ∀ {dir name i}, fs'.lookup dir name = some i → i < fs'.nodes.length) :
    Proper fs' where
  root := hdir _ h.root
  working i hi := by
    rw [hworking] at hi
    exact hdir i (h.working i hi)
  there := hthere

/-- What changes the tree keeps it proper: another content for a node, -/
theorem Proper.setNode (h : Proper fs) {i : Id} {n n' : Node} (hi : fs.node? i = some n)
    (hn : ∀ es, n ≠ .directory es) (hn' : ∀ es, n' ≠ .directory es) :
    Proper (fs.setNode i n') := by
  have hnot := isDirectory_eq_false hi hn
  refine h.of_kept rfl (fun j hj => ?_) fun {dir name j} hl => ?_
  · have hne : j ≠ i := by
      rintro rfl
      rw [hnot] at hj
      cases hj
    rw [isDirectory_iff_shape, shape?_setNode (lt_of_shape (shape?_of_node hi)), if_neg hne]
    exact isDirectory_iff_shape.1 hj
  · rw [lookup_setNode hnot hn'] at hl
    rw [length_setNode]
    exact h.there hl

/-- an entry for a node that is there, -/
theorem Proper.setEntry (h : Proper fs) {dir : Id} (hd : fs.isDirectory dir = true)
    (name : Bytes) {i : Id} (hi : i < fs.nodes.length) :
    Proper (fs.setEntry dir name i) := by
  refine h.of_kept rfl (fun j hj => ?_) fun {dir' name' j} hl => ?_
  · rwa [isDirectory_congr (shape?_setEntry hd name i j)]
  · rw [lookup_setEntry hd] at hl
    unfold FileSystem.setEntry
    rw [length_setNode]
    split at hl
    · cases hl
      exact hi
    · exact h.there hl

/-- one entry less, -/
theorem Proper.removeEntry (h : Proper fs) {dir : Id} (hd : fs.isDirectory dir = true)
    (name : Bytes) : Proper (fs.removeEntry dir name) := by
  refine h.of_kept rfl (fun j hj => ?_) fun {dir' name' j} hl => ?_
  · rwa [isDirectory_congr (shape?_removeEntry hd name j)]
  · rw [lookup_removeEntry hd] at hl
    unfold FileSystem.removeEntry
    rw [length_setNode]
    split at hl
    · cases hl
    · exact h.there hl

/-- and a new node with its entry. -/
theorem Proper.create (h : Proper fs) {dir : Id} {name : Bytes} {n : Node}
    (hn : ∀ es, n = .directory es → es = []) (hd : fs.isDirectory dir = true) :
    Proper (fs.create dir name n) := by
  have hkeep : ∀ i, fs.isDirectory i = true →
      (fs.create dir name n).isDirectory i = true := by
    intro i hi
    have hne : i ≠ fs.nodes.length := Nat.ne_of_lt (lt_of_isDirectory hi)
    rw [isDirectory_iff_shape, shape?_create hd, if_neg hne]
    exact isDirectory_iff_shape.1 hi
  refine h.of_kept rfl hkeep fun {dir' name' i} hl => ?_
  rw [lookup_create hn hd] at hl
  rw [length_create]
  split at hl
  · cases hl
    exact Nat.lt_succ_self _
  · exact Nat.lt_succ_of_lt (h.there hl)

/-- A stack of directories. -/
def Directories (fs : FileSystem) (stack : List Id) : Prop :=
  ∀ i ∈ stack, fs.isDirectory i = true

/-- Whether one has gone down or stays at the root, one is in a
directory. -/
theorem Proper.top_isDirectory (h : Proper fs) {stack : List Id}
    (hs : Directories fs stack) : fs.isDirectory (top stack) = true := by
  cases stack with
  | nil => exact h.root
  | cons i above => exact hs i (List.mem_cons_self ..)

end TracedTransfer.FileSystem
