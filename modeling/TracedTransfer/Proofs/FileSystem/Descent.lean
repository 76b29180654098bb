/-
Walks as descents.

A walk takes all components of a path but the last in the same way: each
leads into a directory, directly or along a link. `descend` is that part
of a walk. What a path leads to is then a matter of where its directories
descend to, and of one name there (`locate_iff`).

A descent only goes by the turns that it takes, and so does a walk:
`Descends` and `Walks` are their derivations, one rule for each turn. So a
descent that arrives still arrives, at the same place, wherever all turns
are still there (`descend_mono`): file systems may change a lot, and a
path leads where it led.
-/
import TracedTransfer.Proofs.FileSystem.Entry

namespace TracedTransfer.FileSystem

open Text

variable {fs fs' : FileSystem}

-- =============================================================== turns

/-- What a name in the middle of a path leads to. -/
inductive Turn where
  /-- A directory to go into. -/
  | into (i : Id)
  /-- The target of a link to go along. -/
  | along (target : FilePath)

/-- The turn at a name. -/
def turn (fs : FileSystem) (dir : Id) (name : Bytes) : Except Io.ErrorKind Turn :=
  if maxName < name.length then .error .invalidFilename
  else
    match fs.lookup dir name with
    | none => .error .notFound
    | some i =>
      match fs.node? i with
      | some (.link target) => .ok (.along target)
      | some (.directory _) => .ok (.into i)
      | _ => .error .notADirectory

/-- A turn at a name leads into a directory of that name, -/
theorem turn_into {dir i : Id} {name : Bytes} : fs.turn dir name = .ok (.into i)
    ↔ name.length ≤ maxName ∧ fs.lookup dir name = some i
      ∧ fs.isDirectory i = true := by
  unfold turn
  constructor
  · intro h
    split at h
    · cases h
    · next hlen =>
        split at h
        · cases h
        · next j hl =>
            split at h
            · cases h
            · next es hn =>
                cases h
                exact ⟨Nat.le_of_not_lt hlen, hl, isDirectory_iff.2 ⟨es, hn⟩⟩
            · cases h
  · rintro ⟨hlen, hl, hd⟩
    obtain ⟨es, hn⟩ := isDirectory_iff.1 hd
    rw [if_neg (Nat.not_lt.2 hlen), hl]
    simp only [hn]

/-- or along a link of that name. -/
theorem turn_along {dir : Id} {name : Bytes} {target : FilePath} :
    fs.turn dir name = .ok (.along target)
    ↔ name.length ≤ maxName ∧ ∃ i, fs.lookup dir name = some i
      ∧ fs.node? i = some (.link target) := by
  unfold turn
  constructor
  · intro h
    split at h
    · cases h
    · next hlen =>
        split at h
        · cases h
        · next j hl =>
            split at h
            · next t hn =>
                cases h
                exact ⟨Nat.le_of_not_lt hlen, j, hl, hn⟩
            · cases h
            · cases h
  · rintro ⟨hlen, i, hl, hn⟩
    rw [if_neg (Nat.not_lt.2 hlen), hl]
    simp only [hn]

/-- Follows components as directories. Returns how many links may still
be followed, and where they lead. -/
def descend (fs : FileSystem) (links : Nat) (stack : List Id) (path : List Bytes) :
    Except Io.ErrorKind (Nat × List Id) :=
  match path with
  | [] => .ok (links, stack)
  | c :: rest =>
    if c = dot then descend fs links stack rest
    else if c = dotDot then descend fs links stack.tail rest
    else
      match fs.turn (top stack) c with
      | .error k => .error k
      | .ok (.into i) => descend fs links (i :: stack) rest
      | .ok (.along target) =>
        match links with
        | 0 => .error .filesystemLoop
        | links + 1 =>
          if target.isEmpty then .error .notFound
          else descend fs links (start stack target) (steps target ++ rest)
termination_by (links, path.length)

/-- One component in the middle of a path, where `next` goes on. -/
def advance {β : Type} (fs : FileSystem)
    (next : Nat → List Id → List Bytes → Except Io.ErrorKind β) (links : Nat)
    (stack : List Id) (c : Bytes) (rest : List Bytes) : Except Io.ErrorKind β :=
  if c = dot then next links stack rest
  else if c = dotDot then next links stack.tail rest
  else
    match fs.turn (top stack) c with
    | .error k => .error k
    | .ok (.into i) => next links (i :: stack) rest
    | .ok (.along target) =>
      match links with
      | 0 => .error .filesystemLoop
      | links + 1 =>
        if target.isEmpty then .error .notFound
        else next links (start stack target) (steps target ++ rest)

theorem descend_nil (links : Nat) (stack : List Id) :
    fs.descend links stack [] = .ok (links, stack) := by
  rw [descend.eq_def]

theorem descend_cons (links : Nat) (stack : List Id) (c : Bytes)
    (rest : List Bytes) :
    fs.descend links stack (c :: rest) = fs.advance fs.descend links stack c rest := by
  rw [descend.eq_def]
  rfl

/-- A walk advances by components up to the last one. -/
theorem walk_cons (follow : Bool) (links : Nat) (stack : List Id) (c : Bytes)
    {rest : List Bytes} (hrest : rest ≠ []) :
    fs.walk follow links stack (c :: rest)
      = fs.advance (fs.walk follow) links stack c rest := by
  have hmore : rest.isEmpty = false := by
    cases rest with
    | nil => exact absurd rfl hrest
    | cons _ _ => rfl
  rw [walk.eq_def]
  unfold advance turn
  simp only [hmore, Bool.false_and, Bool.false_eq_true, if_false]
  by_cases hlong : maxName < c.length
  · simp only [if_pos hlong]
  · simp only [if_neg hlong]
    rcases fs.lookup (top stack) c with _ | i
    · rfl
    · dsimp only
      rcases fs.node? i with _ | n
      · rfl
      · cases n with
        | file s => rfl
        | directory es => rfl
        | link target => rfl
        | full => rfl

/-- What advances by components of a path descends along them. -/
theorem advance_append {β : Type}
    {next : Nat → List Id → List Bytes → Except Io.ErrorKind β}
    {rest : List Bytes}
    (hnext : ∀ links stack c path, next links stack (c :: (path ++ rest))
      = fs.advance next links stack c (path ++ rest))
    (links : Nat) (stack : List Id) (path : List Bytes) :
    next links stack (path ++ rest)
      = (fs.descend links stack path).bind fun place =>
        next place.1 place.2 rest := by
  induction links, stack, path using descend.induct fs with
  | case1 links stack => rw [descend_nil]; rfl
  | case2 links stack path ih =>
      rw [List.cons_append, hnext, descend_cons]
      simpa only [advance, if_true] using ih
  | case3 links stack path hdot ih =>
      rw [List.cons_append, hnext, descend_cons]
      simpa only [advance, if_neg hdot, if_true] using ih
  | case4 links stack c path hdot hdots k hturn =>
      rw [List.cons_append, hnext, descend_cons]
      simp only [advance, if_neg hdot, if_neg hdots, hturn]
      rfl
  | case5 links stack c path hdot hdots i hturn ih =>
      rw [List.cons_append, hnext, descend_cons]
      simpa only [advance, if_neg hdot, if_neg hdots, hturn] using ih
  | case6 stack c path hdot hdots target hturn =>
      rw [List.cons_append, hnext, descend_cons]
      simp only [advance, if_neg hdot, if_neg hdots, hturn]
      rfl
  | case7 stack c path hdot hdots target hturn links hempty =>
      rw [List.cons_append, hnext, descend_cons]
      simp only [advance, if_neg hdot, if_neg hdots, hturn, if_pos hempty]
      rfl
  | case8 stack c path hdot hdots target hturn links hempty ih =>
      rw [List.cons_append, hnext, descend_cons]
      rw [List.append_assoc] at ih
      simpa only [advance, if_neg hdot, if_neg hdots, hturn, if_neg hempty] using ih

/-- A walk along a longer path is a descent along its first part and then a
walk, -/
theorem walk_append (follow : Bool) (links : Nat) (stack : List Id)
    (path : List Bytes) {rest : List Bytes} (hrest : rest ≠ []) :
    fs.walk follow links stack (path ++ rest)
      = (fs.descend links stack path).bind fun place =>
        fs.walk follow place.1 place.2 rest := by
  refine advance_append (fun links stack c path => walk_cons _ _ _ _ ?_) ..
  exact fun h => hrest (List.append_eq_nil_iff.1 h).2

/-- and so is a descent. -/
theorem descend_append (links : Nat) (stack : List Id) (path rest : List Bytes) :
    fs.descend links stack (path ++ rest)
      = (fs.descend links stack path).bind fun place =>
        fs.descend place.1 place.2 rest :=
  advance_append (fun _ _ _ _ => descend_cons ..) ..

-- ============================================================== arrival

/-- All turns of one file system are there in another. -/
def Leads (fs fs' : FileSystem) : Prop :=
  ∀ dir name t, fs.turn dir name = .ok t → fs'.turn dir name = .ok t

theorem Leads.refl (fs : FileSystem) : fs.Leads fs := fun _ _ _ h => h

theorem Leads.trans {fs'' : FileSystem} (h : fs.Leads fs') (h' : fs'.Leads fs'') :
    fs.Leads fs'' := fun dir name t ht => h' dir name t (h dir name t ht)

/-- Names of directories and links that stay what they are keep all
turns. -/
theorem leads_of_kept (h : ∀ dir name i, fs.lookup dir name = some i →
    (fs.isDirectory i = true ∨ ∃ target, fs.node? i = some (.link target)) →
    fs'.lookup dir name = some i ∧ fs'.shape? i = fs.shape? i) : fs.Leads fs' := by
  intro dir name t ht
  cases t with
  | into i =>
      obtain ⟨hlen, hl, hd⟩ := turn_into.1 ht
      obtain ⟨hl', hs⟩ := h dir name i hl (.inl hd)
      exact turn_into.2 ⟨hlen, hl', (isDirectory_congr hs).trans hd⟩
  | along target =>
      obtain ⟨hlen, i, hl, hn⟩ := turn_along.1 ht
      obtain ⟨hl', hs⟩ := h dir name i hl (.inr ⟨target, hn⟩)
      refine turn_along.2 ⟨hlen, i, hl', ?_⟩
      have hlink : ∀ es, Node.link target ≠ .directory es := fun es he => by cases he
      rw [← node?_of_shape hlink] at hn ⊢
      rw [hs, hn]

/-- The turns of a descent, one after the other, up to where it arrives and
how many links may still be followed there. -/
inductive Descends (fs : FileSystem) : Nat → List Id → List Bytes → Nat → List Id → Prop
  /-- No name is left. -/
  | here (links : Nat) (stack : List Id) : Descends fs links stack [] links stack
  /-- A dot stays in the directory, -/
  | stay {links left : Nat} {stack st : List Id} {path : List Bytes} :
      Descends fs links stack path left st → Descends fs links stack (dot :: path) left st
  /-- two dots lead to the one above, -/
  | up {links left : Nat} {stack st : List Id} {path : List Bytes} :
      Descends fs links stack.tail path left st →
      Descends fs links stack (dotDot :: path) left st
  /-- the name of a directory into it, -/
  | into {links left : Nat} {stack st : List Id} {c : Bytes} {path : List Bytes} {i : Id}
      (hdot : ¬ c = dot) (hdots : ¬ c = dotDot)
      (hturn : fs.turn (top stack) c = .ok (.into i)) :
      Descends fs links (i :: stack) path left st → Descends fs links stack (c :: path) left st
  /-- and that of a link along its target, with one link less to follow. -/
  | along {links left : Nat} {stack st : List Id} {c : Bytes} {path : List Bytes}
      {target : FilePath} (hdot : ¬ c = dot) (hdots : ¬ c = dotDot)
      (hturn : fs.turn (top stack) c = .ok (.along target)) (htarget : ¬ target.isEmpty = true) :
      Descends fs links (start stack target) (steps target ++ path) left st →
      Descends fs (links + 1) stack (c :: path) left st

/-- The descent as a relation: one rule for each kind of step, -/
theorem descends_of_descend {links left : Nat} {stack st : List Id} {path : List Bytes}
    (hd : fs.descend links stack path = .ok (left, st)) :
    fs.Descends links stack path left st := by
  induction links, stack, path using descend.induct fs with
  | case1 links stack =>
      rw [descend_nil] at hd
      cases hd
      exact .here left st
  | case2 links stack path ih =>
      rw [descend_cons] at hd
      simp only [advance, if_true] at hd
      exact .stay (ih hd)
  | case3 links stack path hdot ih =>
      rw [descend_cons] at hd
      simp only [advance, if_neg hdot, if_true] at hd
      exact .up (ih hd)
  -- The failing cases say nothing.
  | case4 links stack c path hdot hdots k hturn =>
      rw [descend_cons] at hd
      simp only [advance, if_neg hdot, if_neg hdots, hturn] at hd
      cases hd
  | case5 links stack c path hdot hdots i hturn ih =>
      rw [descend_cons] at hd
      simp only [advance, if_neg hdot, if_neg hdots, hturn] at hd
      exact .into hdot hdots hturn (ih hd)
  | case6 stack c path hdot hdots target hturn =>
      rw [descend_cons] at hd
      simp only [advance, if_neg hdot, if_neg hdots, hturn] at hd
      cases hd
  | case7 stack c path hdot hdots target hturn links hempty =>
      rw [descend_cons] at hd
      simp only [advance, if_neg hdot, if_neg hdots, hturn, if_pos hempty] at hd
      cases hd
  | case8 stack c path hdot hdots target hturn links hempty ih =>
      rw [descend_cons] at hd
      simp only [advance, if_neg hdot, if_neg hdots, hturn, if_neg hempty] at hd
      exact .along hdot hdots hturn hempty (ih hd)

/-- from which it can be run. -/
theorem Descends.descend {links left : Nat} {stack st : List Id} {path : List Bytes}
    (h : fs.Descends links stack path left st) :
    fs.descend links stack path = .ok (left, st) := by
  induction h with
  | here links stack => exact descend_nil links stack
  | stay _ ih =>
      rw [descend_cons, advance, if_pos rfl]
      exact ih
  | up _ ih =>
      rw [descend_cons, advance, if_neg (by decide), if_pos rfl]
      exact ih
  | into hdot hdots hturn _ ih =>
      rw [descend_cons]
      simp only [advance, if_neg hdot, if_neg hdots, hturn]
      exact ih
  | along hdot hdots hturn htarget _ ih =>
      rw [descend_cons]
      simp only [advance, if_neg hdot, if_neg hdots, hturn, if_neg htarget]
      exact ih

theorem descend_iff {links left : Nat} {stack st : List Id} {path : List Bytes} :
    fs.descend links stack path = .ok (left, st) ↔ fs.Descends links stack path left st :=
  ⟨descends_of_descend, Descends.descend⟩

/-- Where more can be found, the same descent leads to the same place. -/
theorem Descends.mono (h : fs.Leads fs') {links left : Nat} {stack st : List Id}
    {path : List Bytes} (hd : fs.Descends links stack path left st) :
    fs'.Descends links stack path left st := by
  induction hd with
  | here links stack => exact .here links stack
  | stay _ ih => exact .stay ih
  | up _ ih => exact .up ih
  | into hdot hdots hturn _ ih => exact .into hdot hdots (h _ _ _ hturn) ih
  | along hdot hdots hturn htarget _ ih =>
      exact .along hdot hdots (h _ _ _ hturn) htarget ih

/-- A descent that arrives does so wherever all turns are still there. -/
theorem descend_mono (h : fs.Leads fs') {links : Nat} {stack : List Id}
    {path : List Bytes} {place : Nat × List Id}
    (hd : fs.descend links stack path = .ok place) :
    fs'.descend links stack path = .ok place :=
  descend_iff.2 ((descend_iff.1 hd).mono h)

/-- A path starts in directories. -/
theorem start_directories {stack : List Id} (hs : fs.Directories stack)
    (p : FilePath) : fs.Directories (start stack p) := by
  unfold start
  split
  · exact fun i hi => absurd hi List.not_mem_nil
  · exact hs

/-- One is in directories all the way down, -/
theorem Directories.into {stack : List Id} (hs : fs.Directories stack) {c : Bytes} {i : Id}
    (hturn : fs.turn (top stack) c = .ok (.into i)) : fs.Directories (i :: stack) := by
  intro j hj
  rcases List.mem_cons.1 hj with rfl | hj
  · exact (turn_into.1 hturn).2.2
  · exact hs j hj

/-- all the way up -/
theorem Directories.up {stack : List Id} (hs : fs.Directories stack) :
    fs.Directories stack.tail := fun i hi => hs i (List.mem_of_mem_tail hi)

/-- and so wherever a descent leads. -/
theorem Descends.directories {links left : Nat} {stack st : List Id} {path : List Bytes}
    (hd : fs.Descends links stack path left st) (hs : fs.Directories stack) :
    fs.Directories st := by
  induction hd with
  | here => exact hs
  | stay _ ih => exact ih hs
  | up _ ih => exact ih hs.up
  | into _ _ hturn _ ih => exact ih (hs.into hturn)
  | along _ _ _ _ _ ih => exact ih (start_directories hs _)

/-- Where a descent arrives are directories. -/
theorem descend_directories {links : Nat} {stack : List Id} {path : List Bytes}
    {place : Nat × List Id} (hd : fs.descend links stack path = .ok place)
    (hs : fs.Directories stack) : fs.Directories place.2 :=
  (descend_iff.1 hd).directories hs

/-- Components that stay where they are make no difference. -/
theorem descend_dots (links : Nat) (stack : List Id) (path : List Bytes) :
    fs.descend links stack (path.filter (· ≠ dot)) = fs.descend links stack path := by
  -- Along a link the rest of the path comes after the target's components,
  -- so the filtered and the unfiltered path meet with one link less.
  induction links generalizing stack path with
  | zero =>
      induction path generalizing stack with
      | nil => rfl
      | cons c path ih =>
          by_cases hdot : c = dot
          · rw [List.filter_cons_of_neg (by simpa using hdot), ih, descend_cons]
            simp only [advance, if_pos hdot]
          · rw [List.filter_cons_of_pos (by simpa using hdot), descend_cons,
              descend_cons]
            simp only [advance, if_neg hdot, ih]
  | succ links ihl =>
      induction path generalizing stack with
      | nil => rfl
      | cons c path ih =>
          by_cases hdot : c = dot
          · rw [List.filter_cons_of_neg (by simpa using hdot), ih, descend_cons]
            simp only [advance, if_pos hdot]
          · rw [List.filter_cons_of_pos (by simpa using hdot), descend_cons,
              descend_cons]
            have hrest : ∀ (stack : List Id) (target : List Bytes),
                fs.descend links stack (target ++ path.filter (· ≠ dot))
                  = fs.descend links stack (target ++ path) := by
              intro stack target
              rw [← ihl, List.filter_append, List.filter_filter,
                ← ihl stack (target ++ path), List.filter_append]
              simp only [Bool.and_self]
            simp only [advance, if_neg hdot, ih, hrest]

-- ======================================================== the last name

/-- Where a walk ends with its last component, when a link there is not
followed. -/
def arrive (fs : FileSystem) (stack : List Id) (c : Bytes) :
    Except Io.ErrorKind Place :=
  if c = dot then .ok (.unnamed stack)
  else if c = dotDot then .ok (.unnamed stack.tail)
  else if maxName < c.length then .error .invalidFilename
  else .ok (.named stack c (fs.lookup (top stack) c))

/-- A walk arrives at a name, whether something stands there or not, -/
theorem arrive_iff {stack : List Id} {c : Bytes} {p : Place} (hdot : ¬c = dot)
    (hdots : ¬c = dotDot) : fs.arrive stack c = .ok p
      ↔ c.length ≤ maxName ∧ p = .named stack c (fs.lookup (top stack) c) := by
  unfold arrive
  rw [if_neg hdot, if_neg hdots]
  constructor
  · intro h
    split at h
    · cases h
    · next hlong =>
        cases h
        exact ⟨Nat.le_of_not_lt hlong, rfl⟩
  · rintro ⟨hlen, rfl⟩
    rw [if_neg (Nat.not_lt.2 hlen)]

/-- and at nothing else under that name. -/
theorem arrive_named {stack st : List Id} {c name : Bytes} {node : Option Id} :
    fs.arrive stack c = .ok (.named st name node) ↔ c ≠ dot ∧ c ≠ dotDot
      ∧ c.length ≤ maxName ∧ st = stack ∧ name = c
      ∧ node = fs.lookup (top stack) c := by
  unfold arrive
  constructor
  · intro h
    split at h
    · cases h
    · next hdot =>
        split at h
        · cases h
        · next hdots =>
            split at h
            · cases h
            · next hlong =>
                cases h
                exact ⟨hdot, hdots, Nat.le_of_not_lt hlong, rfl, rfl, rfl⟩
  · rintro ⟨hdot, hdots, hlen, rfl, rfl, rfl⟩
    rw [if_neg hdot, if_neg hdots, if_neg (Nat.not_lt.2 hlen)]

/-- The last component: at a name that is no link it makes no difference
whether links are followed. -/
theorem walk_last (follow : Bool) (links : Nat) {stack : List Id} {c : Bytes}
    (h : follow = true → c ≠ dot → c ≠ dotDot →
      ∀ target, fs.turn (top stack) c ≠ .ok (.along target)) :
    fs.walk follow links stack [c] = fs.arrive stack c := by
  rw [walk.eq_def]
  unfold arrive
  by_cases hdot : c = dot
  · simp only [if_pos hdot]
    rw [walk.eq_def]
  · by_cases hdots : c = dotDot
    · simp only [if_neg hdot, if_pos hdots]
      rw [walk.eq_def]
    · simp only [if_neg hdot, if_neg hdots]
      by_cases hlong : maxName < c.length
      · simp only [if_pos hlong]
      · simp only [if_neg hlong]
        -- Under the last name stands nothing, or a node; only a link would
        -- be gone through.
        rcases hl : fs.lookup (top stack) c with _ | i
        · rfl
        · rcases hn : fs.node? i with _ | n
          · simp only [hn]; rfl
          · cases n with
            | file s => simp only [hn]; rfl
            | directory es => simp only [hn]; rfl
            | full => simp only [hn]; rfl
            | link target =>
                cases follow with
                | false => simp only [hn]; rfl
                | true =>
                    exact absurd (turn_along.2 ⟨Nat.le_of_not_lt hlong, i, hl, hn⟩)
                      (h rfl hdot hdots target)

/-- A walk that follows links takes the turn at the next name, or ends at
it if it is the last one and no link. -/
theorem walk_follow_cons (links : Nat) (stack : List Id) (c : Bytes)
    (rest : List Bytes) : fs.walk true links stack (c :: rest) =
      if c = dot then fs.walk true links stack rest
      else if c = dotDot then fs.walk true links stack.tail rest
      else
        match fs.turn (top stack) c with
        | .error k => if rest = [] then fs.arrive stack c else .error k
        | .ok (.into i) =>
          if rest = [] then fs.arrive stack c
          else fs.walk true links (i :: stack) rest
        | .ok (.along target) =>
          match links with
          | 0 => .error .filesystemLoop
          | links + 1 =>
            if target.isEmpty then .error .notFound
            else fs.walk true links (start stack target)
              (steps target ++ rest) := by
  -- Only the last component may be missing or stay as a name.
  by_cases hrest : rest = []
  · subst hrest
    by_cases hdot : c = dot
    · rw [walk.eq_def]
      simp only [if_pos hdot]
    · by_cases hdots : c = dotDot
      · rw [walk.eq_def]
        simp only [if_neg hdot, if_pos hdots]
      · rcases hturn : fs.turn (top stack) c with k | t
        · rw [walk_last true links fun _ _ _ target => by rw [hturn]; intro h; cases h]
          simp only [if_neg hdot, if_neg hdots, if_true]
        · cases t with
          | into i =>
              rw [walk_last true links fun _ _ _ target => by rw [hturn]; intro h; cases h]
              simp only [if_neg hdot, if_neg hdots, if_true]
          | along target =>
              obtain ⟨hlen, i, hl, hn⟩ := turn_along.1 hturn
              rw [walk.eq_def]
              simp only [if_neg hdot, if_neg hdots, if_neg (Nat.not_lt.2 hlen), hl, hn]
              rfl
  · rw [walk_cons _ _ _ _ hrest]
    unfold advance
    simp only [if_neg hrest]

/-- The turns of a walk that follows links, one after the other, up to the
place where it ends. -/
inductive Walks (fs : FileSystem) : Nat → List Id → List Bytes → Place → Prop
  /-- No name is left. -/
  | here (links : Nat) (stack : List Id) : Walks fs links stack [] (.unnamed stack)
  /-- A dot stays in the directory, -/
  | stay {links : Nat} {stack : List Id} {path : List Bytes} {p : Place} :
      Walks fs links stack path p → Walks fs links stack (dot :: path) p
  /-- two dots lead to the one above. -/
  | up {links : Nat} {stack : List Id} {path : List Bytes} {p : Place} :
      Walks fs links stack.tail path p → Walks fs links stack (dotDot :: path) p
  /-- The last name is where the walk ends, unless a link has it. -/
  | name {links : Nat} {stack : List Id} {c : Bytes} (hdot : ¬ c = dot) (hdots : ¬ c = dotDot)
      (hlen : c.length ≤ maxName) (hend : ∀ target, fs.turn (top stack) c ≠ .ok (.along target)) :
      Walks fs links stack [c] (.named stack c (fs.lookup (top stack) c))
  /-- The name of a directory leads into it, -/
  | into {links : Nat} {stack : List Id} {c : Bytes} {path : List Bytes} {i : Id} {p : Place}
      (hdot : ¬ c = dot) (hdots : ¬ c = dotDot)
      (hturn : fs.turn (top stack) c = .ok (.into i)) (hpath : path ≠ []) :
      Walks fs links (i :: stack) path p → Walks fs links stack (c :: path) p
  /-- and that of a link along its target, with one link less to follow. -/
  | along {links : Nat} {stack : List Id} {c : Bytes} {path : List Bytes} {target : FilePath}
      {p : Place} (hdot : ¬ c = dot) (hdots : ¬ c = dotDot)
      (hturn : fs.turn (top stack) c = .ok (.along target)) (htarget : ¬ target.isEmpty = true) :
      Walks fs links (start stack target) (steps target ++ path) p →
      Walks fs (links + 1) stack (c :: path) p

/-- The walk as a relation, too, -/
theorem walks_of_walk {links : Nat} {stack : List Id} {path : List Bytes} {p : Place}
    (hw : fs.walk true links stack path = .ok p) : fs.Walks links stack path p := by
  induction links, stack, path using descend.induct fs with
  | case1 links stack =>
      rw [walk.eq_def] at hw
      cases hw
      exact .here links stack
  | case2 links stack path ih =>
      rw [walk_follow_cons, if_pos rfl] at hw
      exact .stay (ih hw)
  | case3 links stack path hdot ih =>
      rw [walk_follow_cons, if_neg hdot, if_pos rfl] at hw
      exact .up (ih hw)
  -- A name that is missing can be the last one only.
  | case4 links stack c path hdot hdots k hturn =>
      rw [walk_follow_cons, if_neg hdot, if_neg hdots, hturn] at hw
      dsimp only at hw
      split at hw
      · next hpath =>
          subst hpath
          obtain ⟨hlen, rfl⟩ := (arrive_iff hdot hdots).1 hw
          exact .name hdot hdots hlen fun target => by rw [hturn]; exact nofun
      · cases hw
  | case5 links stack c path hdot hdots i hturn ih =>
      rw [walk_follow_cons, if_neg hdot, if_neg hdots, hturn] at hw
      dsimp only at hw
      split at hw
      · next hpath =>
          subst hpath
          obtain ⟨hlen, rfl⟩ := (arrive_iff hdot hdots).1 hw
          exact .name hdot hdots hlen fun target => by rw [hturn]; exact nofun
      · next hpath => exact .into hdot hdots hturn hpath (ih hw)
  -- There are no links left to follow.
  | case6 stack c path hdot hdots target hturn =>
      rw [walk_follow_cons, if_neg hdot, if_neg hdots, hturn] at hw
      cases hw
  | case7 stack c path hdot hdots target hturn links hempty =>
      rw [walk_follow_cons, if_neg hdot, if_neg hdots, hturn] at hw
      simp only [if_pos hempty] at hw
      cases hw
  | case8 stack c path hdot hdots target hturn links hempty ih =>
      rw [walk_follow_cons, if_neg hdot, if_neg hdots, hturn] at hw
      simp only [if_neg hempty] at hw
      exact .along hdot hdots hturn hempty (ih hw)

/-- can be run, -/
theorem Walks.walk {links : Nat} {stack : List Id} {path : List Bytes} {p : Place}
    (h : fs.Walks links stack path p) : fs.walk true links stack path = .ok p := by
  induction h with
  | here => rw [walk.eq_def]
  | stay _ ih =>
      rw [walk_follow_cons, if_pos rfl]
      exact ih
  | up _ ih =>
      rw [walk_follow_cons, if_neg (by decide), if_pos rfl]
      exact ih
  | name hdot hdots hlen hend =>
      rw [walk_last true _ fun _ _ _ => hend]
      exact (arrive_iff hdot hdots).2 ⟨hlen, rfl⟩
  | into hdot hdots hturn hpath _ ih =>
      rw [walk_follow_cons, if_neg hdot, if_neg hdots, hturn]
      simp only [if_neg hpath]
      exact ih
  | along hdot hdots hturn htarget _ ih =>
      rw [walk_follow_cons, if_neg hdot, if_neg hdots, hturn]
      simp only [if_neg htarget]
      exact ih

/-- so both say the same. -/
theorem walk_iff {links : Nat} {stack : List Id} {path : List Bytes} {p : Place} :
    fs.walk true links stack path = .ok p ↔ fs.Walks links stack path p :=
  ⟨walks_of_walk, Walks.walk⟩

/-- What stands at a place with a name is what is found there. -/
theorem Place.node_named {stack : List Id} {name : Bytes} {node : Option Id} {i : Id} :
    (Place.named stack name node).node = .ok i ↔ node = some i := by
  cases node with
  | none => exact ⟨nofun, nofun⟩
  | some j =>
      constructor
      · rintro ⟨⟩
        rfl
      · rintro ⟨⟩
        rfl

/-- A last name is that of the node which a walk ends at, or that of a
link. -/
theorem lookup_of_walk {links : Nat} {stack : List Id} {c : Bytes} {p : Place} {i : Id}
    (hdot : ¬c = dot) (hdots : ¬c = dotDot) (hw : fs.walk true links stack [c] = .ok p)
    (hp : p.node = .ok i) : c.length ≤ maxName
      ∧ ∃ k, fs.lookup (top stack) c = some k
        ∧ (k = i ∨ ∃ target, fs.node? k = some (.link target)) := by
  cases walk_iff.1 hw with
  | stay => exact absurd rfl hdot
  | up => exact absurd rfl hdots
  | name _ _ hlen => exact ⟨hlen, i, Place.node_named.1 hp, .inl rfl⟩
  | into _ _ _ hpath => exact absurd rfl hpath
  | along _ _ hturn =>
      obtain ⟨hlen, k, hc, hn⟩ := turn_along.1 hturn
      exact ⟨hlen, k, hc, .inr ⟨_, hn⟩⟩

/-- A descent is a walk that arrives where the descent does. -/
theorem Descends.walks {links left : Nat} {stack st : List Id} {path : List Bytes}
    (hd : fs.Descends links stack path left st) :
    ∃ p, fs.Walks links stack path p ∧ p.node = .ok (top st) := by
  induction hd with
  | here links stack => exact ⟨_, .here links stack, rfl⟩
  | stay _ ih =>
      obtain ⟨p, hw, hn⟩ := ih
      exact ⟨p, .stay hw, hn⟩
  | up _ ih =>
      obtain ⟨p, hw, hn⟩ := ih
      exact ⟨p, .up hw, hn⟩
  | @into _ _ _ _ _ path _ hdot hdots hturn hd ih =>
      cases path with
      | nil =>
          -- The walk ends at the name of the last directory.
          cases hd
          obtain ⟨hlen, hl, -⟩ := turn_into.1 hturn
          exact ⟨_, .name hdot hdots hlen fun target => by rw [hturn]; exact nofun,
            Place.node_named.2 hl⟩
      | cons c path =>
          obtain ⟨p, hw, hn⟩ := ih
          exact ⟨p, .into hdot hdots hturn (List.cons_ne_nil c path) hw, hn⟩
  | along hdot hdots hturn htarget _ ih =>
      obtain ⟨p, hw, hn⟩ := ih
      exact ⟨p, .along hdot hdots hturn htarget hw, hn⟩

/-- A path that descends leads to the directory that it descends to. -/
theorem walk_of_descend {links : Nat} {stack : List Id} {path : List Bytes}
    {place : Nat × List Id} (hd : fs.descend links stack path = .ok place) :
    ∃ p, fs.walk true links stack path = .ok p ∧ p.node = .ok (top place.2) := by
  simp only [walk_iff]
  exact (descend_iff.1 hd).walks

/-- A walk that arrives at a directory is a descent. -/
theorem Walks.descends {links : Nat} {stack : List Id} {path : List Bytes} {p : Place}
    {i : Id} (hw : fs.Walks links stack path p) (hp : p.node = .ok i)
    (hi : fs.isDirectory i = true) : ∃ left st, fs.Descends links stack path left st := by
  induction hw with
  | here links stack => exact ⟨_, _, .here links stack⟩
  | stay _ ih =>
      obtain ⟨left, st, hd⟩ := ih hp
      exact ⟨left, st, .stay hd⟩
  | up _ ih =>
      obtain ⟨left, st, hd⟩ := ih hp
      exact ⟨left, st, .up hd⟩
  | name hdot hdots hlen =>
      have hturn := turn_into.2 ⟨hlen, Place.node_named.1 hp, hi⟩
      exact ⟨_, _, .into hdot hdots hturn (.here ..)⟩
  | into hdot hdots hturn _ _ ih =>
      obtain ⟨left, st, hd⟩ := ih hp
      exact ⟨left, st, .into hdot hdots hturn hd⟩
  | along hdot hdots hturn htarget _ ih =>
      obtain ⟨left, st, hd⟩ := ih hp
      exact ⟨left, st, .along hdot hdots hturn htarget hd⟩

/-- A path that leads to a directory descends to it. -/
theorem descend_of_walk {links : Nat} {stack : List Id} {path : List Bytes}
    {p : Place} {i : Id} (hw : fs.walk true links stack path = .ok p)
    (hp : p.node = .ok i) (hi : fs.isDirectory i = true) :
    ∃ place, fs.descend links stack path = .ok place := by
  obtain ⟨left, st, hd⟩ := (walk_iff.1 hw).descends hp hi
  exact ⟨(left, st), descend_iff.2 hd⟩

/-- A walk that follows links goes through directories and ends in one, or
at a name there. -/
theorem walk_ends {links : Nat} {stack : List Id} {path : List Bytes} {p : Place}
    (hw : fs.walk true links stack path = .ok p) (hs : fs.Directories stack) :
    ∃ stack', fs.Directories stack'
      ∧ (p = .unnamed stack'
        ∨ ∃ c, p = .named stack' c (fs.lookup (top stack') c)) := by
  replace hw := walk_iff.1 hw
  induction hw with
  | here links stack => exact ⟨stack, hs, .inl rfl⟩
  | stay _ ih => exact ih hs
  | up _ ih => exact ih hs.up
  | @name _ stack c => exact ⟨stack, hs, .inr ⟨c, rfl⟩⟩
  | into _ _ hturn _ _ ih => exact ih (hs.into hturn)
  | along _ _ _ _ _ ih => exact ih (start_directories hs _)

/-- A walk that follows links and ends at a name has come to a name that
can be there, and to no link. -/
theorem named_of_walk {links : Nat} {stack st : List Id} {path : List Bytes} {c : Bytes}
    {node : Option Id} (hw : fs.walk true links stack path = .ok (.named st c node)) :
    c.length ≤ maxName ∧ node = fs.lookup (top st) c
      ∧ ∀ target, fs.turn (top st) c ≠ .ok (.along target) := by
  generalize hp : Place.named st c node = p at hw
  replace hw := walk_iff.1 hw
  induction hw with
  | here => cases hp
  | stay _ ih => exact ih hp
  | up _ ih => exact ih hp
  | name _ _ hlen hend =>
      cases hp
      exact ⟨hlen, rfl, hend⟩
  | into _ _ _ _ _ ih => exact ih hp
  | along _ _ _ _ _ ih => exact ih hp

/-- A place with what stands there in a file system. -/
def Place.seen (fs : FileSystem) : Place → Place
  | .unnamed stack => .unnamed stack
  | .named stack name _ => .named stack name (fs.lookup (top stack) name)

/-- Where more can be found, the same walk arrives at the same place, and
sees what is there now, unless that is a link. -/
theorem Walks.seen (h : fs.Leads fs') {links : Nat} {stack : List Id} {path : List Bytes}
    {p : Place} (hw : fs.Walks links stack path p)
    (hend : ∀ st c node, p = .named st c node →
      ∀ target, fs'.turn (top st) c ≠ .ok (.along target)) :
    fs'.Walks links stack path (p.seen fs') := by
  induction hw with
  | here links stack => exact .here links stack
  | stay _ ih => exact .stay (ih hend)
  | up _ ih => exact .up (ih hend)
  | name hdot hdots hlen => exact .name hdot hdots hlen (hend _ _ _ rfl)
  | into hdot hdots hturn hpath _ ih =>
      exact .into hdot hdots (h _ _ _ hturn) hpath (ih hend)
  | along hdot hdots hturn htarget _ ih =>
      exact .along hdot hdots (h _ _ _ hturn) htarget (ih hend)

/-- Where all turns are still there, a walk ends at the same place, if no
link has come to stand there. -/
theorem walk_seen (h : fs.Leads fs') {links : Nat} {stack : List Id} {path : List Bytes}
    {p : Place} (hw : fs.walk true links stack path = .ok p)
    (hend : ∀ st c node, p = .named st c node →
      ∀ target, fs'.turn (top st) c ≠ .ok (.along target)) :
    fs'.walk true links stack path = .ok (p.seen fs') :=
  walk_iff.2 ((walk_iff.1 hw).seen h hend)

/-- A path that leads to a node leads there wherever all turns are still
there and the names of that node are. -/
theorem walk_mono (h : fs.Leads fs') {i : Id}
    (hnames : ∀ dir name, name.length ≤ maxName → fs.lookup dir name = some i →
      fs'.lookup dir name = some i)
    (hlink : ∀ target, fs'.node? i = some (.link target) →
      fs.node? i = some (.link target))
    {links : Nat} {stack : List Id} {path : List Bytes} {p : Place}
    (hw : fs.walk true links stack path = .ok p) (hp : p.node = .ok i) :
    ∃ p', fs'.walk true links stack path = .ok p' ∧ p'.node = .ok i := by
  cases p with
  | unnamed st => exact ⟨_, walk_seen h hw nofun, hp⟩
  | named st c node =>
      obtain ⟨hlen, rfl, hnolink⟩ := named_of_walk hw
      have hl : fs.lookup (top st) c = some i := Place.node_named.1 hp
      have hl' := hnames _ _ hlen hl
      refine ⟨_, walk_seen h hw ?_, by rw [Place.seen, hl']; rfl⟩
      rintro _ _ _ ⟨⟩ target hturn
      obtain ⟨-, j, hj, hn⟩ := turn_along.1 hturn
      rw [hl'] at hj
      cases hj
      exact hnolink target (turn_along.2 ⟨hlen, i, hl, hlink target hn⟩)

end TracedTransfer.FileSystem
