/-
What following a path finds.

A walk says where a path leads, or fails with a kind of failure. What it has
met is told here one component after the other (`Search`): a path comes to a
node, or to a name that is missing, or it goes on behind something that is
no directory, or it has a name that is too long. Along the way symbolic
links are counted, however many there are.

A search that follows no more links than a walk does is what the walk
reports (`resolve_iff`), and components without one meet more links than
that (`exists_search`). What fails otherwise than for want of a name is
refused (`Finding.refusal?`).
-/
import TracedTransfer.Proofs.FileSystem.Path

namespace TracedTransfer.FileSystem

open Text FilePath

-- =============================================================== searches

/-- What a path comes to. -/
inductive Finding where
  /-- A node. -/
  | node (i : Id)
  /-- A name that a directory does not have, or a link without a target. -/
  | missing
  /-- Something that is no directory, in the place of one. -/
  | blocked
  /-- A name that is too long. -/
  | overlong

/-- The node that is found; a failure if there is none. -/
def Finding.result : Finding → Except Io.Error Id
  | .node i => .ok i
  | .missing => .error (.system .notFound)
  | .blocked => .error (.system .notADirectory)
  | .overlong => .error (.system .invalidFilename)

theorem Finding.result_injective {found found' : Finding} (h : found.result = found'.result) :
    found = found' := by
  cases found <;> cases found' <;> cases h <;> rfl

/-- A component that is a name. -/
structure IsName (c : Bytes) : Prop where
  /-- It does not stand for the directory -/
  not_dot : c ≠ dot
  /-- or the one above, -/
  not_dotDot : c ≠ dotDot
  /-- and is short enough. -/
  short : c.length ≤ maxName

/-- What components come to from a directory, and how many links are
followed on the way. -/
inductive Search (fs : FileSystem) : Nat → List Id → List Bytes → Finding → Prop where
  /-- No name is left. -/
  | here (stack : List Id) : Search fs 0 stack [] (.node (top stack))
  /-- A dot stays in the directory, -/
  | stay {n : Nat} {stack : List Id} {rest : List Bytes} {found : Finding}
      (h : Search fs n stack rest found) : Search fs n stack (dot :: rest) found
  /-- two dots lead to the one above. -/
  | up {n : Nat} {stack : List Id} {rest : List Bytes} {found : Finding}
      (h : Search fs n stack.tail rest found) : Search fs n stack (dotDot :: rest) found
  /-- A name that is too long ends the search, -/
  | overlong {stack : List Id} {c : Bytes} {rest : List Bytes} (hlong : maxName < c.length) :
      Search fs 0 stack (c :: rest) .overlong
  /-- and so does one that nothing has. -/
  | missing {stack : List Id} {c : Bytes} {rest : List Bytes} (hc : IsName c)
      (hl : fs.lookup (top stack) c = none) : Search fs 0 stack (c :: rest) .missing
  /-- The components of a link's target stand before those that are left. -/
  | along {n : Nat} {stack : List Id} {c : Bytes} {rest : List Bytes} {found : Finding} {i : Id}
      {target : FilePath} (hc : IsName c) (hl : fs.lookup (top stack) c = some i)
      (hi : fs.node? i = some (.link target)) (htarget : target ≠ [])
      (h : Search fs n (start stack target) (steps target ++ rest) found) :
      Search fs (n + 1) stack (c :: rest) found
  /-- A link to nowhere is followed and leads nowhere. -/
  | nowhere {stack : List Id} {c : Bytes} {rest : List Bytes} {i : Id} (hc : IsName c)
      (hl : fs.lookup (top stack) c = some i) (hi : fs.node? i = some (.link [])) :
      Search fs 1 stack (c :: rest) .missing
  /-- The last name is found, unless a link has it. -/
  | last {stack : List Id} {c : Bytes} {i : Id} (hc : IsName c)
      (hl : fs.lookup (top stack) c = some i) (hi : ∀ target, fs.node? i ≠ some (.link target)) :
      Search fs 0 stack [c] (.node i)
  /-- The name of a directory leads into it, -/
  | into {n : Nat} {stack : List Id} {c : Bytes} {rest : List Bytes} {found : Finding} {i : Id}
      (hc : IsName c) (hl : fs.lookup (top stack) c = some i) (hi : fs.isDirectory i = true)
      (hrest : rest ≠ []) (h : Search fs n (i :: stack) rest found) :
      Search fs n stack (c :: rest) found
  /-- and that of anything else leads no further. -/
  | blocked {stack : List Id} {c : Bytes} {rest : List Bytes} {i : Id} (hc : IsName c)
      (hl : fs.lookup (top stack) c = some i) (hi : ∀ target, fs.node? i ≠ some (.link target))
      (hd : fs.isDirectory i = false) (hrest : rest ≠ []) :
      Search fs 0 stack (c :: rest) .blocked

/-- What a path comes to. An empty one comes to nothing. -/
inductive Finds (fs : FileSystem) (p : FilePath) : Nat → Finding → Prop where
  /-- An empty path finds nothing, -/
  | empty (hp : p = []) : Finds fs p 0 .missing
  /-- and any other one is searched from where it starts. -/
  | path {n : Nat} {found : Finding} (hp : p ≠ [])
      (h : Search fs n (start fs.workingDirectory p) (steps p) found) : Finds fs p n found

-- ================================================================== walks

variable {fs : FileSystem} {n : Nat} {stack : List Id} {c : Bytes} {p : FilePath} {i : Id}
  {found : Finding}

/-- What a walk reports. -/
def reached : Except Io.ErrorKind Place → Except Io.Error Id
  | .ok place => place.node
  | .error k => .error (.system k)

/-- What a walk does where a name is missing, and else by what it names. -/
theorem walk_missing (hc : IsName c) (hl : fs.lookup (top stack) c = none) (links : Nat)
    (rest : List Bytes) : reached (fs.walk true links stack (c :: rest))
      = .error (.system .notFound) := by
  rw [walk.eq_def]
  simp only [if_neg hc.not_dot, if_neg hc.not_dotDot, if_neg (Nat.not_lt.2 hc.short), hl]
  split
  · rfl
  · rfl

/-- A walk at a name goes on where a link leads, if it may follow one
more; -/
theorem walk_link {target : FilePath} (hc : IsName c) (hl : fs.lookup (top stack) c = some i)
    (hi : fs.node? i = some (.link target)) (links : Nat) (rest : List Bytes) :
    fs.walk true links stack (c :: rest) = match links with
      | 0 => .error .filesystemLoop
      | links + 1 =>
        if target.isEmpty then .error .notFound
        else fs.walk true links (start stack target) (steps target ++ rest) := by
  rw [walk.eq_def]
  cases links with
  | zero =>
      simp only [if_neg hc.not_dot, if_neg hc.not_dotDot, if_neg (Nat.not_lt.2 hc.short), hl, hi,
        Bool.not_true, Bool.and_false, Bool.false_eq_true, if_false]
  | succ links =>
      simp only [if_neg hc.not_dot, if_neg hc.not_dotDot, if_neg (Nat.not_lt.2 hc.short), hl, hi,
        Bool.not_true, Bool.and_false, Bool.false_eq_true, if_false]

/-- it ends there, if the name is the last and no link; -/
theorem walk_last_name (hc : IsName c) (hl : fs.lookup (top stack) c = some i)
    (hi : ∀ target, fs.node? i ≠ some (.link target)) (links : Nat) :
    fs.walk true links stack [c] = .ok (.named stack c (some i)) := by
  rw [walk.eq_def]
  simp only [if_neg hc.not_dot, if_neg hc.not_dotDot, if_neg (Nat.not_lt.2 hc.short), hl,
    List.isEmpty_nil, if_true]
  split
  · next target hn => exact absurd hn (hi target)
  · rfl
  · rfl

/-- it goes into a directory, if names follow; -/
theorem walk_into {rest : List Bytes} (hc : IsName c) (hl : fs.lookup (top stack) c = some i)
    (hi : fs.isDirectory i = true) (hrest : rest ≠ []) (links : Nat) :
    fs.walk true links stack (c :: rest) = fs.walk true links (i :: stack) rest := by
  obtain ⟨es, hn⟩ := isDirectory_iff.1 hi
  rw [walk.eq_def]
  simp only [if_neg hc.not_dot, if_neg hc.not_dotDot, if_neg (Nat.not_lt.2 hc.short), hl, hn,
    List.isEmpty_iff, if_neg hrest]

/-- it is blocked by anything else; -/
theorem walk_blocked {rest : List Bytes} (hc : IsName c) (hl : fs.lookup (top stack) c = some i)
    (hi : ∀ target, fs.node? i ≠ some (.link target)) (hd : fs.isDirectory i = false)
    (hrest : rest ≠ []) (links : Nat) :
    fs.walk true links stack (c :: rest) = .error .notADirectory := by
  rw [walk.eq_def]
  simp only [if_neg hc.not_dot, if_neg hc.not_dotDot, if_neg (Nat.not_lt.2 hc.short), hl,
    List.isEmpty_iff, if_neg hrest]
  split
  · next target hn => exact absurd hn (hi target)
  · next es hn =>
      rw [isDirectory_iff.2 ⟨es, hn⟩] at hd
      cases hd
  · rfl

/-- and it fails if the name is longer than names can be. -/
theorem walk_overlong (hlong : maxName < c.length) (links : Nat) (stack : List Id)
    (rest : List Bytes) :
    fs.walk true links stack (c :: rest) = .error .invalidFilename := by
  have hdot : c ≠ dot := by
    rintro rfl
    exact absurd hlong (by decide)
  have hdotDot : c ≠ dotDot := by
    rintro rfl
    exact absurd hlong (by decide)
  rw [walk.eq_def]
  simp only [if_neg hdot, if_neg hdotDot, if_pos hlong]

/-- A walk that may follow as many links as a search does reports what is
found, and one that may not gives up. -/
theorem Search.walk {path : List Bytes} (h : Search fs n stack path found)
    (links : Nat) : reached (fs.walk true links stack path)
      = if n ≤ links then found.result else .error (.system .filesystemLoop) := by
  -- Every rule that follows a link takes one from the walk; no other rule
  -- does.
  induction h generalizing links with
  | here stack =>
      rw [walk.eq_def, if_pos (Nat.zero_le _)]
      rfl
  | stay h ih =>
      rw [walk.eq_def]
      exact ih links
  | up h ih =>
      rw [walk.eq_def]
      exact ih links
  | overlong hlong =>
      rw [walk_overlong hlong, if_pos (Nat.zero_le _)]
      rfl
  | missing hc hl =>
      rw [walk_missing hc hl, if_pos (Nat.zero_le _)]
      rfl
  | along hc hl hi htarget h ih =>
      rw [walk_link hc hl hi]
      cases links with
      | zero => rfl
      | succ links =>
          simp only [List.isEmpty_iff, if_neg htarget, Nat.add_le_add_iff_right]
          exact ih links
  | nowhere hc hl hi =>
      rw [walk_link hc hl hi]
      cases links with
      | zero => rfl
      | succ links => rw [if_pos (Nat.le_add_left 1 links)]; rfl
  | last hc hl hi =>
      rw [walk_last_name hc hl hi, if_pos (Nat.zero_le _)]
      rfl
  | into hc hl hi hrest h ih =>
      rw [walk_into hc hl hi hrest]
      exact ih links
  | blocked hc hl hi hd hrest =>
      rw [walk_blocked hc hl hi hd hrest, if_pos (Nat.zero_le _)]
      rfl

/-- Components that cannot be searched meet more links than a walk follows. -/
theorem exists_search (fs : FileSystem) (links : Nat) (stack : List Id) (path : List Bytes) :
    (∃ n found, n ≤ links ∧ Search fs n stack path found)
      ∨ fs.walk true links stack path = .error .filesystemLoop := by
  induction links, stack, path using walk.induct fs true with
  | case1 links stack => exact .inl ⟨0, _, Nat.zero_le _, .here stack⟩
  | case2 links stack rest ih =>
      rw [walk.eq_def]
      exact ih.imp (fun ⟨n, found, hn, h⟩ => ⟨n, found, hn, .stay h⟩) id
  | case3 links stack rest hne ih =>
      rw [walk.eq_def]
      exact ih.imp (fun ⟨n, found, hn, h⟩ => ⟨n, found, hn, .up h⟩) id
  | case4 links stack c rest hdot hdots hlong =>
      exact .inl ⟨0, _, Nat.zero_le _, .overlong hlong⟩
  | case5 links stack c rest hdot hdots hlong hl hrest =>
      exact .inl ⟨0, _, Nat.zero_le _, .missing ⟨hdot, hdots, Nat.le_of_not_lt hlong⟩ hl⟩
  | case6 links stack c rest hdot hdots hlong hl hrest =>
      exact .inl ⟨0, _, Nat.zero_le _, .missing ⟨hdot, hdots, Nat.le_of_not_lt hlong⟩ hl⟩
  | case7 links stack c rest hdot hdots hlong i hl target hi hnot =>
      rw [Bool.not_true, Bool.and_false] at hnot
      cases hnot
  | case8 stack c rest hdot hdots hlong i hl target hi hnot =>
      exact .inr (walk_link ⟨hdot, hdots, Nat.le_of_not_lt hlong⟩ hl hi 0 rest)
  | case9 stack c rest hdot hdots hlong i hl target hi hnot links hempty =>
      obtain rfl := List.isEmpty_iff.1 hempty
      exact .inl ⟨1, _, Nat.le_add_left 1 links,
        .nowhere ⟨hdot, hdots, Nat.le_of_not_lt hlong⟩ hl hi⟩
  | case10 stack c rest hdot hdots hlong i hl target hi hnot links hempty ih =>
      have hc : IsName c := ⟨hdot, hdots, Nat.le_of_not_lt hlong⟩
      rcases ih with ⟨n, found, hn, h⟩ | hloop
      · exact .inl ⟨n + 1, found, Nat.succ_le_succ hn,
          .along hc hl hi (mt List.isEmpty_iff.2 hempty) h⟩
      -- One link more is followed than behind it, so a loop there is a loop here.
      · right
        rw [walk_link hc hl hi]
        simp only [if_neg hempty]
        exact hloop
  | case11 links stack c rest hdot hdots hlong i hl es hi hrest =>
      obtain rfl := List.isEmpty_iff.1 hrest
      refine .inl ⟨0, _, Nat.zero_le _, .last ⟨hdot, hdots, Nat.le_of_not_lt hlong⟩ hl ?_⟩
      intro target htarget
      rw [hi] at htarget
      cases htarget
  | case12 links stack c rest hdot hdots hlong i hl es hi hrest ih =>
      have hc : IsName c := ⟨hdot, hdots, Nat.le_of_not_lt hlong⟩
      have hd : fs.isDirectory i = true := isDirectory_iff.2 ⟨es, hi⟩
      have hmore := mt List.isEmpty_iff.2 hrest
      rw [walk_into hc hl hd hmore]
      exact ih.imp (fun ⟨n, found, hn, h⟩ => ⟨n, found, hn, .into hc hl hd hmore h⟩) id
  | case13 links stack c rest hdot hdots hlong i hl hrest hlink hdirectory =>
      obtain rfl := List.isEmpty_iff.1 hrest
      exact .inl ⟨0, _, Nat.zero_le _, .last ⟨hdot, hdots, Nat.le_of_not_lt hlong⟩ hl hlink⟩
  | case14 links stack c rest hdot hdots hlong i hl hrest hlink hdirectory =>
      refine .inl ⟨0, _, Nat.zero_le _, .blocked ⟨hdot, hdots, Nat.le_of_not_lt hlong⟩ hl hlink
        ?_ (mt List.isEmpty_iff.2 hrest)⟩
      rw [Bool.eq_false_iff, ne_eq, isDirectory_iff]
      exact not_exists.2 hdirectory

-- ================================================================== paths

/-- To resolve a path is to walk it, if the system takes it at all, -/
theorem resolve_eq_reached (hzero : p.contains 0 = false) (hne : p ≠ [])
    (hshort : p.length ≤ maxPath) : fs.resolve p
      = reached (fs.walk true maxLinks (start fs.workingDirectory p) (steps p)) := by
  unfold resolve locate
  rw [hzero]
  simp only [Bool.false_eq_true, if_false, List.isEmpty_iff, if_neg hne,
    if_neg (Nat.not_lt.2 hshort)]
  rcases fs.walk true maxLinks (start fs.workingDirectory p) (steps p) with k | place
  · rfl
  · rfl

/-- which it does not if the path is too long. -/
theorem resolve_of_long (hzero : p.contains 0 = false) (hlong : maxPath < p.length) :
    fs.resolve p = .error (.system .invalidFilename) := by
  have hne : p ≠ [] := by
    rintro rfl
    exact absurd hlong (Nat.not_lt_zero _)
  unfold resolve locate
  rw [hzero]
  simp only [Bool.false_eq_true, if_false, List.isEmpty_iff, if_neg hne, if_pos hlong]
  rfl

/-- A search that follows few enough links tells what the path resolves
to. -/
theorem Finds.resolve (hzero : p.contains 0 = false) (hshort : p.length ≤ maxPath)
    (h : Finds fs p n found) : fs.resolve p
      = if n ≤ maxLinks then found.result else .error (.system .filesystemLoop) := by
  cases h with
  | empty hempty =>
      subst hempty
      rfl
  | path hne h => rw [resolve_eq_reached hzero hne hshort, h.walk]

/-- The failure of a path that is more than that something is missing: it is
too long, it has too many links, or what it comes to is no more than a
failure. -/
def Finding.refusal? (p : FilePath) (n : Nat) (found : Finding) : Option Io.ErrorKind :=
  if maxPath < p.length then some .invalidFilename
  else if maxLinks < n then some .filesystemLoop
  else
    match found with
    | .node _ => none
    | .missing => none
    | .blocked => some .notADirectory
    | .overlong => some .invalidFilename

/-- What the system refuses is not looked for, -/
theorem Finds.resolve_of_refusal {k : Io.ErrorKind} (hzero : p.contains 0 = false)
    (h : Finds fs p n found) (hrefusal : found.refusal? p n = some k) :
    fs.resolve p = .error (.system k) := by
  unfold Finding.refusal? at hrefusal
  split at hrefusal
  · next hlong =>
      cases hrefusal
      exact resolve_of_long hzero hlong
  · next hshort =>
      rw [h.resolve hzero (Nat.le_of_not_lt hshort)]
      split at hrefusal
      · next hlinks =>
          cases hrefusal
          rw [if_neg (Nat.not_le.2 hlinks)]
      · next hlinks =>
          rw [if_pos (Nat.le_of_not_lt hlinks)]
          cases found with
          | node i => cases hrefusal
          | missing => cases hrefusal
          | blocked =>
              cases hrefusal
              rfl
          | overlong =>
              cases hrefusal
              rfl

/-- and a refusal never says that nothing is there. -/
theorem Finding.refusal?_ne_notFound {k : Io.ErrorKind}
    (h : found.refusal? p n = some k) : k ≠ .notFound := by
  rintro rfl
  unfold refusal? at h
  split at h
  · cases h
  · split at h
    · cases h
    · cases found <;> cases h

/-- If it refuses nothing, the search tells the result. -/
theorem Finds.resolve_of_none (hzero : p.contains 0 = false) (h : Finds fs p n found)
    (hrefusal : found.refusal? p n = none) : fs.resolve p = found.result := by
  unfold Finding.refusal? at hrefusal
  split at hrefusal
  · cases hrefusal
  · next hshort =>
      split at hrefusal
      · cases hrefusal
      · next hlinks =>
          rw [h.resolve hzero (Nat.le_of_not_lt hshort), if_pos (Nat.le_of_not_lt hlinks)]

/-- A search comes to an end or follows more links than may be. -/
theorem exists_finds (fs : FileSystem) (hzero : p.contains 0 = false)
    (hshort : p.length ≤ maxPath) : (∃ n found, n ≤ maxLinks ∧ Finds fs p n found)
      ∨ fs.resolve p = .error (.system .filesystemLoop) := by
  by_cases hne : p = []
  · exact .inl ⟨0, _, Nat.zero_le _, .empty hne⟩
  · rcases exists_search fs maxLinks (start fs.workingDirectory p) (steps p)
      with ⟨n, found, hn, h⟩ | hloop
    · exact .inl ⟨n, found, hn, .path hne h⟩
    · right
      rw [resolve_eq_reached hzero hne hshort, hloop]
      rfl

/-- **What a path comes to is what is reported**, within the bound on
links. -/
theorem resolve_iff (hzero : p.contains 0 = false) (hshort : p.length ≤ maxPath) :
    fs.resolve p = found.result ↔ ∃ n ≤ maxLinks, Finds fs p n found := by
  constructor
  · intro h
    rcases exists_finds fs hzero hshort with ⟨n, found', hn, hfinds⟩ | hloop
    · have hresult := hfinds.resolve hzero hshort
      rw [if_pos hn, h] at hresult
      rw [Finding.result_injective hresult]
      exact ⟨n, hn, hfinds⟩
    · rw [h] at hloop
      cases found <;> cases hloop
  · rintro ⟨n, hn, h⟩
    rw [h.resolve hzero hshort, if_pos hn]

end TracedTransfer.FileSystem
