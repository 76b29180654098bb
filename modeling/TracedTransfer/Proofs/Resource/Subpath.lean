/-
Resolving a path that only goes down.

A subpath consists of segments that are the same in every form of a path,
with slashes between them. The reader puts it behind the directory of the
base as it stands (`readPath_subpath`), so a name resolves it to its own
path, closed by a slash, and the subpath (`resolve_subpath`). That is a
base again, and resolving in two steps leads where resolving in one does.

There is one kind of base whose path does not stay as it is: a file whose
path begins with a letter and a bar (`barred`), which gets a colon for its
bar as soon as its path is read again. It is read again to be closed by a
slash, but not if it ends in one; so such a name keeps its bar in the
first step and loses it in the second.
-/
import TracedTransfer.Proofs.Resource.Resolve
import TracedTransfer.Proofs.Text.Letter
import TracedTransfer.Proofs.Url.RoundTrip

namespace TracedTransfer

open Text

namespace Url

-- ============================================================ subpaths

/-- Letters, digits and the marks that are encoded in no part of a URL. -/
def isUnreserved (c : Char) : Bool := c.isAlphanum || c ∈ ['-', '.', '_', '~']

/-- A segment that goes down and is the same in every form of a path. -/
structure IsName (s : List Char) : Prop where
  /-- It is not empty, -/
  nonempty : s ≠ []
  /-- has only characters that mean nothing else in URLs, -/
  unreserved : ∀ c ∈ s, isUnreserved c = true
  /-- and does not stand for the directory -/
  notDot : s ≠ ['.']
  /-- or the one above. -/
  notDots : s ≠ ['.', '.']

/-- Names with a slash between them. -/
def joined (names : List (List Char)) : List Char := ['/'].intercalate names

/-- Names, each of them closed by a slash but the last, which may be missing. -/
def IsSubpath (t : List Char) : Prop :=
  ∃ (names : List (List Char)) (last : List Char), (∀ s ∈ names, IsName s)
    ∧ (last = [] ∨ IsName last) ∧ t = names.flatMap (· ++ ['/']) ++ last

variable {c : Char} {s t : List Char}

/-- Characters of names are ASCII. -/
theorem isUnreserved_lt (h : isUnreserved c = true) : c.toNat < 0x80 := by
  unfold isUnreserved at h
  rw [Bool.or_eq_true] at h
  rcases h with h | h
  · exact isAlphanum_lt h
  · rw [decide_eq_true_eq] at h
    simp only [List.mem_cons, List.not_mem_nil, or_false] at h
    rcases h with rfl | rfl | rfl | rfl <;> decide

/-- What an unreserved character is not. -/
structure Unmarked (c : Char) : Prop where
  /-- It is not escaped in a path, -/
  bare : 0x20 < c.toNat ∧ c.toNat < 0x7f ∧ EncodeSet.path c = false
  /-- ends no segment, -/
  separates : c ≠ '/' ∧ c ≠ '\\'
  /-- is of no drive, -/
  drives : c ≠ ':' ∧ c ≠ '|'
  /-- and is no other spelling of a dot or an escape. -/
  lower : c.toLower ≠ '%' ∧ (c.toLower = '.' → c = '.')

/-- None of them marks a part of a URL. -/
theorem unmarked (h : isUnreserved c = true) : Unmarked c := by
  have hbare := of_ascii (P := fun c => isUnreserved c = true →
    0x20 < c.toNat ∧ c.toNat < 0x7f ∧ EncodeSet.path c = false) (by decide) (isUnreserved_lt h) h
  have hmarks := of_ascii (P := fun c => isUnreserved c = true →
    (c ≠ '/' ∧ c ≠ '\\') ∧ c ≠ ':' ∧ c ≠ '|') (by decide) (isUnreserved_lt h) h
  have hlower := of_ascii (P := fun c => isUnreserved c = true →
    c.toLower ≠ '%' ∧ (c.toLower = '.' → c = '.')) (by decide) (isUnreserved_lt h) h
  exact ⟨hbare, hmarks.1, hmarks.2, hlower⟩

/-- A name has no escape in it. -/
theorem IsName.percent_not_mem (h : IsName s) : '%' ∉ s.map Char.toLower := by
  intro hmem
  obtain ⟨c, hc, hlower⟩ := List.mem_map.1 hmem
  exact (unmarked (h.unreserved c hc)).lower.1 hlower

/-- Dots have no other spelling. -/
theorem IsName.eq_of_dots (h : IsName s) (hdots : ∀ d ∈ s.map Char.toLower, d = '.') :
    s.map Char.toLower = s := by
  refine (List.map_congr_left fun c hc => ?_).trans (List.map_id s)
  have hdot : c.toLower = '.' := hdots _ (List.mem_map_of_mem hc)
  rw [(unmarked (h.unreserved c hc)).lower.2 hdot]
  rfl

/-- A name is a settled segment. -/
theorem IsName.isSegment (kind : SchemeKind) (h : IsName s) : IsSegment kind s where
  bare := fun c hc =>
    have hbare := (unmarked (h.unreserved c hc)).bare
    ⟨Nat.le_of_lt hbare.1, hbare.2⟩
  whole := fun c hc => by
    obtain ⟨hslash, hback⟩ := (unmarked (h.unreserved c hc)).separates
    simp [isSeparator, hslash, hback]
  notSingle := by
    refine Bool.eq_false_iff.2 fun hsingle => ?_
    unfold isSingleDot at hsingle
    simp only [decide_eq_true_eq, List.mem_cons, List.not_mem_nil, or_false] at hsingle
    rcases hsingle with heq | heq
    · have hsame := h.eq_of_dots (by rw [heq]; simp)
      exact h.notDot (hsame.symm.trans heq)
    · exact h.percent_not_mem (by rw [heq]; decide)
  notDouble := by
    refine Bool.eq_false_iff.2 fun hdouble => ?_
    unfold isDoubleDot at hdouble
    simp only [decide_eq_true_eq, List.mem_cons, List.not_mem_nil, or_false] at hdouble
    rcases hdouble with heq | heq | heq | heq
    · have hsame := h.eq_of_dots (by rw [heq]; simp)
      exact h.notDots (hsame.symm.trans heq)
    · exact h.percent_not_mem (by rw [heq]; decide)
    · exact h.percent_not_mem (by rw [heq]; decide)
    · exact h.percent_not_mem (by rw [heq]; decide)

/-- No name is a drive letter. -/
theorem IsName.not_drive (h : IsName s) : isDriveLetter s = false := by
  refine Bool.eq_false_iff.2 fun hdrive => ?_
  match s, hdrive with
  | [a, b], hdrive =>
      have hb := (unmarked (h.unreserved b (by simp))).drives
      simp [isDriveLetter, hb.1, hb.2] at hdrive

/-- Names are joined by slashes between them. -/
theorem joined_concat (names : List (List Char)) (s : List Char) :
    joined (names ++ [s]) = names.flatMap (· ++ ['/']) ++ s := by
  unfold joined
  induction names with
  | nil => rw [List.nil_append, List.intercalate_singleton]; rfl
  | cons name names ih =>
      obtain ⟨next, rest, hrest⟩ : ∃ next rest, names ++ [s] = next :: rest :=
        List.exists_cons_of_ne_nil (by simp)
      rw [List.cons_append, hrest, List.intercalate_cons_cons, ← hrest, ih, List.flatMap_cons]
      simp only [List.append_assoc]

/-- There are no names, or one last name. -/
theorem joined_cases {names : List (List Char)} (h : ∀ s ∈ names, IsName s) :
    names = [] ∧ joined names = []
      ∨ ∃ (front : List (List Char)) (s : List Char), (∀ t ∈ front, IsName t) ∧ IsName s
        ∧ names = front ++ [s] ∧ joined names = front.flatMap (· ++ ['/']) ++ s := by
  rcases List.eq_nil_or_concat names with rfl | ⟨front, s, rfl⟩
  · exact .inl ⟨rfl, rfl⟩
  · rw [List.concat_eq_append] at h ⊢
    exact .inr ⟨front, s, fun t ht => h t (List.mem_append_left _ ht),
      h s (List.mem_append_right _ (List.mem_singleton_self s)), rfl, joined_concat front s⟩

/-- Names that are joined are a path. -/
theorem isSubpath_joined {names : List (List Char)} (h : ∀ s ∈ names, IsName s) :
    IsSubpath (joined names) := by
  rcases joined_cases h with ⟨-, heq⟩ | ⟨front, s, hfront, hs, -, heq⟩
  · exact ⟨[], [], fun _ h => (List.not_mem_nil h).elim, .inl rfl, heq⟩
  · exact ⟨front, s, hfront, .inr hs, heq⟩

/-- Names below other names. -/
theorem IsSubpath.under (ht : IsSubpath t) {names : List (List Char)}
    (h : ∀ s ∈ names, IsName s) (hne : names ≠ []) : IsSubpath (joined names ++ '/' :: t) := by
  obtain ⟨front, s, hfront, hs, -, heq⟩ := (joined_cases h).resolve_left fun h => hne h.1
  obtain ⟨more, last, hmore, hlast, rfl⟩ := ht
  refine ⟨front ++ s :: more, last, fun name hname => ?_, hlast, ?_⟩
  · rcases List.mem_append.1 hname with hname | hname
    · exact hfront name hname
    · rcases List.mem_cons.1 hname with rfl | hname
      · exact hs
      · exact hmore name hname
  · rw [heq]
    simp

/-- A path of names has their characters and slashes in it. -/
theorem IsSubpath.mem (h : IsSubpath t) (hc : c ∈ t) : isUnreserved c = true ∨ c = '/' := by
  obtain ⟨names, last, hall, hlast, rfl⟩ := h
  rcases List.mem_append.1 hc with hc | hc
  · obtain ⟨s, hs, hc⟩ := List.mem_flatMap.1 hc
    rcases List.mem_append.1 hc with hc | hc
    · exact .inl ((hall s hs).unreserved c hc)
    · exact .inr (List.mem_singleton.1 hc)
  · rcases hlast with rfl | hlast
    · exact (List.not_mem_nil hc).elim
    · exact .inl (hlast.unreserved c hc)

/-- A subpath does not start with a slash. -/
theorem IsSubpath.head (h : IsSubpath t) :
    t = [] ∨ ∃ c rest, t = c :: rest ∧ isUnreserved c = true := by
  have hname : ∀ s rest, IsName s → ∃ c tail, s ++ rest = c :: tail ∧ isUnreserved c = true := by
    intro s rest hs
    obtain ⟨c, tail, rfl⟩ := List.exists_cons_of_ne_nil hs.nonempty
    exact ⟨c, tail ++ rest, rfl, hs.unreserved c List.mem_cons_self⟩
  obtain ⟨names, last, hall, hlast, rfl⟩ := h
  cases names with
  | nil =>
      rcases hlast with rfl | hlast
      · exact .inl rfl
      · have hcons := hname last [] hlast
        rw [List.append_nil] at hcons
        exact .inr hcons
  | cons s names =>
      rw [List.flatMap_cons, List.append_assoc, List.append_assoc]
      exact .inr (hname s _ (hall s List.mem_cons_self))

/-- It has no others, -/
theorem IsSubpath.not_mem (h : IsSubpath t) {c : Char} (hc : isUnreserved c = false)
    (hslash : c ≠ '/') : c ∉ t := by
  intro hmem
  rcases h.mem hmem with hunreserved | heq
  · exact Bool.false_ne_true (hc.symm.trans hunreserved)
  · exact hslash heq

/-- so the reader of URLs removes nothing from it -/
theorem IsSubpath.clean_eq (h : IsSubpath t) : clean t = t := by
  have hlow : ∀ c ∈ t, 0x20 ≤ c.toNat := by
    intro c hc
    rcases h.mem hc with hunreserved | rfl
    · exact Nat.le_of_lt (unmarked hunreserved).bare.1
    · decide
  have hblank : ' ' ∉ t := h.not_mem (by decide) (by decide)
  exact clean_self hlow (fun hhead => hblank (List.mem_of_head? hhead))
    fun hlast => hblank (List.mem_of_getLast? hlast)

/-- and finds no scheme in it. -/
theorem IsSubpath.splitScheme?_eq (h : IsSubpath t) : splitScheme? t = none := by
  cases hsplit : splitScheme? t with
  | none => rfl
  | some parts =>
      obtain ⟨scheme, rest⟩ := parts
      obtain ⟨front, hfront⟩ := eq_append_of_splitScheme? hsplit
      have hcolon : ':' ∉ t := h.not_mem (by decide) (by decide)
      rw [hfront] at hcolon
      exact absurd (List.mem_append_right _ List.mem_cons_self) hcolon

-- ================================================================ bases

/-- A URL with a host or of a file, whose path is settled. -/
structure IsBase (u : Url) : Prop where
  /-- It has the shape of what the reader gives, -/
  shape : HasShape u
  /-- a scheme that is known, -/
  kind : u.kind ≠ .other
  /-- and a path in its settled form. -/
  path : IsSettled u.kind u.path

variable {u : Url} {kind : SchemeKind} {p : List Char}

/-- A path that ends in a slash may be continued. -/
theorem IsPath.isClosed (h : IsPath kind p) (hslash : endsInSlash p = true) : IsClosed kind p := by
  obtain ⟨segments, last, hall, hlast, rfl⟩ := h
  suffices hnil : last = [] from ⟨segments, hall, by rw [hnil]⟩
  refine Decidable.byContradiction fun hne => hlast.slash_not_mem ?_
  have hend : (pathText segments last).getLast? = some '/' := of_decide_eq_true hslash
  rw [pathText, ← List.cons_append, List.getLast?_append, List.getLast?_eq_some_getLast hne,
    Option.some_or] at hend
  exact Option.some.inj hend ▸ List.getLast_mem hne

theorem endsPath_nil : EndsPath [] := fun _ hc => by cases hc

/-- A subpath is read onto a path that ends in a slash as it stands. -/
theorem readPath_subpath (hsettled : IsSettled kind p) (hslash : endsInSlash p = true)
    (ht : IsSubpath t) :
    readPath kind p t = (⟨p ++ t, false⟩, []) ∧ IsSettled kind (p ++ t) := by
  have hclosed := hsettled.isPath.isClosed hslash
  have hhead : t.head? ≠ some '/' := by
    rcases ht.head with rfl | ⟨c, rest, rfl, hc⟩
    · exact nofun
    · intro hc'
      cases Option.some.inj hc'
      cases hc
  have hsecond : kind = .file → ((p ++ t).drop 1).head? ≠ some '/' := by
    intro hfile
    have hfirst := hsettled.file hfile
    rw [hsettled.isPath.eq_cons, List.cons_append, List.drop_succ_cons, List.drop_zero]
    cases hrest : p.drop 1 with
    | nil => exact hhead
    | cons c rest =>
        rw [hrest] at hfirst
        exact hfirst
  obtain ⟨names, last, hall, hlast, rfl⟩ := ht
  have hsegments : ∀ s ∈ names, IsSegment kind s := fun s hs => (hall s hs).isSegment kind
  have hsegment : IsSegment kind last := by
    rcases hlast with rfl | hlast
    · exact isSegment_nil kind
    · exact hlast.isSegment kind
  -- The first segment is no drive letter, so nothing becomes of it that is not there.
  have hplain : isDriveLetter (names.headD last) = false := by
    cases names with
    | nil =>
        rcases hlast with rfl | hlast
        · rfl
        · exact hlast.not_drive
    | cons s names => exact (hall s List.mem_cons_self).not_drive
  have hread := readSegments_text hclosed false hsegments hsegment (fun _ _ => hplain) endsPath_nil
  rw [List.append_nil] at hread
  have hcons : p ++ (names.flatMap (· ++ ['/']) ++ last)
      = '/' :: (p ++ (names.flatMap (· ++ ['/']) ++ last)).drop 1 := by
    rw [hsettled.isPath.eq_cons]
    rfl
  refine ⟨?_, ?_, hsecond⟩
  · rw [readPath_eq, hread]
    exact congrArg (·, []) (close_of_head hcons hsecond)
  -- The segments of the whole are those of the base and those that were added.
  · obtain ⟨segments, hfront, rfl⟩ := hclosed
    refine ⟨segments ++ names, last, fun s hs => ?_, hsegment, ?_⟩
    · rcases List.mem_append.1 hs with hs | hs
      · exact hfront s hs
      · exact hsegments s hs
    · simp [pathText]

/-- No drive letter stands in front, since a colon is in no name. -/
theorem IsSubpath.not_drive (h : IsSubpath t) : startsWithDriveLetter t = false := by
  refine Bool.eq_false_iff.2 fun hdrive => ?_
  obtain ⟨a, b, rest, rfl, -, hb, -⟩ := startsWithDriveLetter_iff.1 hdrive
  have hmem : b ∈ a :: b :: rest := List.mem_cons_of_mem _ List.mem_cons_self
  rcases hb with rfl | rfl
  · exact h.not_mem (by decide) (by decide) hmem
  · exact h.not_mem (by decide) (by decide) hmem

/-- The last segment of a directory is empty. -/
theorem IsClosed.last (h : IsClosed kind p) :
    throughLastSlash p = p ∧ popSegment kind p = p ∧ p ≠ [] := by
  obtain ⟨front, rfl⟩ := h.eq_append
  have hthrough := throughLastSlash_append front List.not_mem_nil
  have hlast := lastPart_append front List.not_mem_nil
  refine ⟨hthrough, ?_, by simp⟩
  rw [popSegment, hlast, if_neg (by simp [isNormalDriveLetter]), hthrough]

/-- A reference without slashes, query and fragment is put behind the directory of its base. -/
theorem readReference_name (h : IsBase u) (hslash : endsInSlash u.path = true) (ht : IsSubpath t)
    (hne : t ≠ []) : readReference (some u) t = .ok (u.withPath u.path t) := by
  obtain ⟨hthrough, hpop, hpath⟩ := (h.path.isPath.isClosed hslash).last
  obtain ⟨c, rest, rfl, hc⟩ := ht.head.resolve_left hne
  have hunmarked := unmarked hc
  -- Such a reference starts with none of the marks that would make it another kind of
  -- reference.
  have hquery : c ≠ '?' := by
    rintro rfl
    cases hc
  have hfragment : c ≠ '#' := by
    rintro rfl
    cases hc
  have hnot : ¬isSlash c = true := by
    simp [isSlash, hunmarked.separates.1, hunmarked.separates.2]
  rw [readReference_eq h.shape h.kind]
  split
  · rename_i hfile
    rw [readFileUrl_eq, leadingSlashes_of_not hnot, if_neg (by decide), if_neg (by decide)]
    unfold readFileUrl.fileReference
    dsimp only
    split
    · cases ‹c :: rest = []›
    · rename_i hmark
      exact absurd (List.cons.inj hmark).1 hquery
    · rename_i hmark
      exact absurd (List.cons.inj hmark).1 hfragment
    · rw [ht.not_drive, if_neg Bool.false_ne_true, ← hfile, hpop]
  · unfold relative
    split
    · cases ‹c :: rest = []›
    · rename_i hmark
      exact absurd (List.cons.inj hmark).1 hquery
    · rename_i hmark
      exact absurd (List.cons.inj hmark).1 hfragment
    · rename_i hcons
      cases hcons
      dsimp only
      rw [if_neg (by exact hnot), hthrough, if_neg (by rwa [List.isEmpty_iff])]

/-- The URL of a subpath of a directory. Without a subpath the query stays. -/
def append (u : Url) (t : List Char) : Url :=
  { u with path := u.path ++ t, query := if t = [] then u.query else none, fragment := none }

/-- A subpath is read relative to a directory by putting it behind. -/
theorem join_subpath (h : IsBase u) (hslash : endsInSlash u.path = true) (ht : IsSubpath t) :
    u.join (String.ofList t) = .ok (u.append t) := by
  unfold join read
  rw [String.toList_ofList, ht.clean_eq, ht.splitScheme?_eq]
  dsimp only
  by_cases hnil : t = []
  · subst hnil
    rw [readReference_eq h.shape h.kind, append, List.append_nil, if_pos rfl]
    split
    · rfl
    · rfl
  · rw [readReference_name h hslash ht hnil, withPath, (readPath_subpath h.path hslash ht).1,
      append, if_neg hnil]
    rfl

/-- Behind a base that ends in a slash, names make a base again. -/
theorem IsBase.append (h : IsBase u) (hslash : endsInSlash u.path = true) (ht : IsSubpath t) :
    IsBase (u.append t) where
  shape := ⟨h.shape.scheme, h.shape.special, h.shape.file⟩
  kind := h.kind
  path := (readPath_subpath h.path hslash ht).2

-- ========================================================== directories

/-- The path of a URL as that of a directory: closed by a slash. To put the slash there a path is
read again, which gives a drive letter at the beginning of a file its colon. -/
def slashed (u : Url) : List Char :=
  if endsInSlash u.path then u.path
  else if u.kind = .file && startsWithDriveLetter (u.path.drop 1) then withColon u.path ++ ['/']
  else u.path ++ ['/']

/-- What ends in a slash does so, -/
theorem endsInSlash_append (p : List Char) : endsInSlash (p ++ ['/']) = true := by
  simp [endsInSlash]

/-- so a URL that is slashed does. -/
theorem endsInSlash_slashed (u : Url) : endsInSlash u.slashed = true := by
  unfold slashed
  split
  · assumption
  · split
    · exact endsInSlash_append _
    · exact endsInSlash_append _

/-- A settled path without a slash at its end is settled with one. -/
theorem IsSettled.append_slash (h : IsSettled kind p) (hslash : ¬endsInSlash p = true) :
    IsSettled kind (p ++ ['/'])
      ∧ (kind = .file → startsWithDriveLetter ((p ++ ['/']).drop 1)
        = startsWithDriveLetter (p.drop 1)) := by
  have hfile := h.file
  obtain ⟨segments, last, hall, hlast, rfl⟩ := h.isPath
  have hall' : ∀ s ∈ segments ++ [last], IsSegment kind s := by
    intro s hs
    rcases List.mem_append.1 hs with hs | hs
    · exact hall s hs
    · rw [List.mem_singleton.1 hs]
      exact hlast
  -- The last segment becomes one with a slash behind it, and an empty one is the last.
  have hshape : pathText segments last ++ ['/'] = pathText (segments ++ [last]) [] := by
    simp [pathText]
  refine ⟨⟨⟨segments ++ [last], [], hall', isSegment_nil kind, hshape⟩, fun hkind => ?_⟩,
    fun hkind => ?_⟩
  · have hfirst := hfile hkind
    cases hrest : (pathText segments last).drop 1 with
    | nil =>
        have hroot : pathText segments last = ['/'] := by
          rw [h.isPath.eq_cons, hrest]
        rw [hroot] at hslash
        exact absurd rfl hslash
    | cons c rest =>
        rw [hrest] at hfirst
        rw [h.isPath.eq_cons, hrest]
        exact hfirst
  · subst hkind
    rw [hshape, startsWithDriveLetter_pathText hall' (isSegment_nil _),
      startsWithDriveLetter_pathText hall hlast]
    cases segments with
    | nil => rfl
    | cons s segments => rfl

/-- The colon of a drive letter is at the front and not touched by what is added. -/
theorem withColon_append (h : startsWithDriveLetter (p.drop 1) = true) (t : List Char) :
    withColon (p ++ t) = withColon p ++ t := by
  obtain ⟨a, b, rest, hp, -⟩ := startsWithDriveLetter_iff.1 h
  cases p with
  | nil => cases hp
  | cons c p =>
      rw [List.drop_succ_cons, List.drop_zero] at hp
      subst hp
      rfl

/-- A path with a slash in front is read onto that slash. -/
theorem setPath_eq (h : IsBase u) {p : List Char} (hp : p = '/' :: p.drop 1) :
    u.setPath p = { u with path := (readPath u.kind ['/'] (p.drop 1)).1.text } := by
  unfold setPath
  rw [isOpaque_eq_false h.shape h.kind, if_neg Bool.false_ne_true]
  split
  · rename_i hfile
    rw [Bool.and_eq_true, decide_eq_true_eq] at hfile
    rw [hp, readPath_nil (by rfl), hfile.1]
    rfl
  · unfold readPathStart
    rw [if_pos h.kind, hp]
    rfl

/-- The path that a path is given its final slash by. -/
theorem setPath_slash (h : IsBase u) (hslash : ¬endsInSlash u.path = true) :
    u.setPath (u.path ++ ['/']) = { u with path := u.slashed }
      ∧ IsSettled u.kind u.slashed := by
  obtain ⟨hsettled, hdrive⟩ := h.path.append_slash hslash
  have hread := readPath_again hsettled endsPath_nil
  rw [List.append_nil] at hread
  have htext : (readPath u.kind ['/'] ((u.path ++ ['/']).drop 1)).1.text = u.slashed := by
    rw [hread]
    unfold slashed
    rw [if_neg hslash]
    by_cases hfile : u.kind = .file
    · rw [hdrive hfile]
      by_cases hletter : startsWithDriveLetter (u.path.drop 1) = true
      · rw [if_pos ⟨hfile, hletter⟩, decide_eq_true hfile, hletter, Bool.true_and, if_pos rfl,
          withColon_append hletter]
      · rw [if_neg fun hboth => hletter hboth.2, Bool.eq_false_iff.2 hletter, Bool.and_false,
          if_neg Bool.false_ne_true]
    · rw [if_neg fun hboth => hfile hboth.1, decide_eq_false hfile, Bool.false_and,
        if_neg Bool.false_ne_true]
  refine ⟨?_, ?_⟩
  · rw [setPath_eq h hsettled.isPath.eq_cons, htext]
  · rw [← htext]
    exact (isSettled_readPath u.kind _).1

/-- A file whose path begins with a letter and a bar, and nothing else up to the next slash. -/
def Barred (u : Url) : Prop :=
  u.kind = .file ∧ startsWithDriveLetter (u.path.drop 1) = true
    ∧ ∃ a rest, u.path = '/' :: a :: '|' :: rest

/-- Other paths are closed by a slash and stay as they are. -/
theorem slashed_of_not_barred (h : IsBase u) (hbar : ¬Barred u) :
    u.slashed = if endsInSlash u.path then u.path else u.path ++ ['/'] := by
  unfold slashed
  split
  · rfl
  · split
    · rename_i hdrive
      rw [Bool.and_eq_true, decide_eq_true_eq] at hdrive
      obtain ⟨a, b, rest, hp, -, hb, -⟩ := startsWithDriveLetter_iff.1 hdrive.2
      have hcons : u.path = '/' :: a :: b :: rest := by rw [h.path.isPath.eq_cons, hp]
      rcases hb with rfl | rfl
      · rw [hcons]
        rfl
      · exact absurd ⟨hdrive.1, hdrive.2, a, rest, hcons⟩ hbar
    · rfl

/-- The directory of a base. -/
theorem IsBase.slashed (h : IsBase u) : IsBase { u with path := u.slashed } where
  shape := ⟨h.shape.scheme, h.shape.special, h.shape.file⟩
  kind := h.kind
  path := by
    by_cases hslash : endsInSlash u.path = true
    · unfold Url.slashed
      rw [if_pos hslash]
      exact h.path
    · exact (setPath_slash h hslash).2

/-- The URL of a subpath of a base. -/
def below (u : Url) (t : List Char) : Url := append { u with path := u.slashed } t

theorem IsBase.below (h : IsBase u) (ht : IsSubpath t) : IsBase (u.below t) :=
  h.slashed.append (endsInSlash_slashed u) ht

/-- A directory begins with a bar behind its letter if a subpath of it does. -/
theorem bar_of_append (hsettled : IsSettled kind p) (hslash : endsInSlash p = true)
    (ht : IsSubpath t) {a : Char} {rest : List Char} (hpath : p ++ t = '/' :: a :: '|' :: rest)
    (hdrive : startsWithDriveLetter (a :: '|' :: rest) = true) :
    ∃ rest', p = '/' :: a :: '|' :: rest' ∧ startsWithDriveLetter (a :: '|' :: rest') = true := by
  have hbar : '|' ∉ t := ht.not_mem (by decide) (by decide)
  have hmem : ∀ s : List Char, t = s ++ '|' :: rest → False := fun s heq =>
    hbar (heq ▸ List.mem_append_right s List.mem_cons_self)
  obtain ⟨p', rfl⟩ : ∃ p', p = '/' :: p' := ⟨_, hsettled.isPath.eq_cons⟩
  rw [List.cons_append] at hpath
  have htail := (List.cons.inj hpath).2
  rcases p' with _ | ⟨d, _ | ⟨e, rest'⟩⟩
  · exact (hmem [a] htail).elim
  · exact (hmem [] (List.cons.inj htail).2).elim
  · simp only [List.cons_append, List.cons.injEq] at htail
    obtain ⟨rfl, rfl, rfl⟩ := htail
    refine ⟨rest', rfl, ?_⟩
    obtain ⟨a', b', rest'', heq, ha, hb, hends⟩ := startsWithDriveLetter_iff.1 hdrive
    cases heq
    refine startsWithDriveLetter_iff.2 ⟨_, _, _, rfl, ha, hb, ?_⟩
    cases rest' with
    | nil => cases of_decide_eq_true hslash
    | cons c rest' => exact hends

/-- What is below a base has a bar only if the base has it, and a slash at its end. -/
theorem not_barred_below (h : IsBase u) (ht : IsSubpath t)
    (hbar : Barred u → endsInSlash u.path = false) : ¬Barred (u.below t) := by
  rintro ⟨hfile, hdrive, a, rest, hpath⟩
  have hsame : (u.below t).path = u.slashed ++ t := rfl
  rw [hpath] at hdrive
  obtain ⟨rest', hslashed, hletter⟩ := bar_of_append h.slashed.path (endsInSlash_slashed u) ht
    (hsame.symm.trans hpath) hdrive
  have hkind : u.kind = .file := hfile
  unfold Url.slashed at hslashed
  split at hslashed
  · rename_i hslash
    have hbarred : Barred u := ⟨hkind, by rw [hslashed]; exact hletter, a, rest', hslashed⟩
    rw [hbar hbarred] at hslash
    cases hslash
  · rename_i hslash
    split at hslashed
    · -- The letter has got its colon.
      rename_i hcolon
      rw [Bool.and_eq_true] at hcolon
      obtain ⟨a', b', rest'', hp, -⟩ := startsWithDriveLetter_iff.1 hcolon.2
      rw [h.path.isPath.eq_cons, hp] at hslashed
      cases hslashed
    · rename_i hplain
      have hclosed : u.path ++ ['/'] = '/' :: a :: '|' :: rest' := hslashed
      have hagain := (h.path.append_slash hslash).2 hkind
      rw [hclosed] at hagain
      rw [← hagain, decide_eq_true hkind, Bool.true_and] at hplain
      exact hplain hletter

/-- One subpath below another. -/
theorem below_below (h : IsBase u) {names : List (List Char)} (hnames : ∀ s ∈ names, IsName s)
    (hne : names ≠ []) (hbar : Barred u → endsInSlash u.path = false) (t : List Char) :
    (u.below (joined names)).below t = u.below (joined names ++ '/' :: t) := by
  have hsub := isSubpath_joined hnames
  obtain ⟨front, s, -, hs, -, hjoined⟩ := (joined_cases hnames).resolve_left fun h => hne h.1
  have hlast : joined names ≠ [] ∧ ¬endsInSlash (u.below (joined names)).path = true := by
    have hslash : '/' ∉ s := fun hmem => (unmarked (hs.unreserved _ hmem)).separates.1 rfl
    refine ⟨fun hnil => hs.nonempty ?_, fun hend => hslash ?_⟩
    · rw [hjoined] at hnil
      exact (List.append_eq_nil_iff.1 hnil).2
    · have hpath : (u.below (joined names)).path
          = (u.slashed ++ front.flatMap (· ++ ['/'])) ++ s := by
        rw [List.append_assoc, ← hjoined]
        rfl
      have hchar := of_decide_eq_true hend
      rw [hpath, List.getLast?_append, List.getLast?_eq_some_getLast hs.nonempty,
        Option.some_or] at hchar
      exact Option.some.inj hchar ▸ List.getLast_mem hs.nonempty
  have hslashed := slashed_of_not_barred (h.below hsub) (not_barred_below h hsub hbar)
  rw [if_neg hlast.2] at hslashed
  have hlonger : joined names ++ '/' :: t ≠ [] := by simp
  unfold below append at hslashed ⊢
  dsimp only at hslashed ⊢
  rw [hslashed, if_neg hlast.1, if_neg hlonger, List.append_assoc, List.append_assoc,
    List.singleton_append, ite_self]

end Url

namespace Resource.Name

open Url

variable {n : Name}

/-- A name over HTTP or of a file is a base. -/
theorem isBase_of_parse {uri : String} (h : parse uri = .ok n)
    (hscheme : n.url.scheme ∈ ["http".toList, "https".toList, "file".toList]) : IsBase n.url := by
  have hkind : n.url.kind ≠ .other := by
    rw [kind]
    revert hscheme
    generalize n.url.scheme = scheme
    intro hscheme
    simp only [List.mem_cons, List.not_mem_nil, or_false] at hscheme
    rcases hscheme with rfl | rfl | rfl <;> decide +kernel
  refine ⟨shape_of_parse h, hkind, ?_⟩
  cases (settled_of_parse (url_of_parse h)).form with
  | served a _ _ _ hpath => exact hpath.resolve_right fun hempty => hkind hempty.1
  | file host hfile _ _ hpath =>
      rw [hfile]
      exact hpath
  | rooted hother => exact absurd hother hkind
  | plain hother => exact absurd hother hkind

/-- The directory of a base is that URL with a slash at its end. -/
theorem directory_eq (h : IsBase n.url) : n.directory = { n.url with path := n.url.slashed } := by
  unfold directory
  split
  · rename_i hslash
    rw [slashed, if_pos hslash]
  · rename_i hslash
    exact (setPath_slash h hslash).1

/-- A subpath is resolved below the name, however many slashes stand in front of it. -/
theorem resolve_subpath (h : IsBase n.url) {t : List Char} (ht : IsSubpath t) (k : Nat) :
    n.resolve (String.ofList (List.replicate k '/' ++ t)) = .ok ⟨n.url.below t⟩ := by
  have hdrop : (List.replicate k '/' ++ t).dropWhile (· = '/') = t := by
    induction k with
    | zero =>
        rcases ht.head with rfl | ⟨c, rest, rfl, hc⟩
        · rfl
        · refine List.dropWhile_cons_of_neg fun heq => ?_
          exact (unmarked hc).separates.1 (of_decide_eq_true heq)
    | succ k ih => rwa [List.replicate_succ, List.cons_append, List.dropWhile_cons_of_pos rfl]
  unfold resolve
  rw [String.toList_ofList, hdrop, directory_eq h,
    join_subpath h.slashed (endsInSlash_slashed n.url) ht]
  rfl

-- ==================================================== the main statement

/-- What a name resolves a path of names to. -/
structure ResolvesBelow (n : Name) (names : List (List Char)) (r : Name) : Prop where
  /-- Slashes in front do not count. -/
  resolved : ∀ k, n.resolve (String.ofList (List.replicate k '/' ++ joined names)) = .ok r
  /-- Scheme -/
  scheme : r.url.scheme = n.url.scheme
  /-- and authority stay. -/
  authority : r.url.authority = n.url.authority
  /-- The names are put behind the path, with a slash between that may be there already. -/
  path : (Barred n.url → endsInSlash n.url.path = true) →
    r.url.path = (if endsInSlash n.url.path then n.url.path else n.url.path ++ ['/'])
      ++ joined names
  /-- A bar behind the letter of a drive turns into a colon with the slash that is missing. -/
  colon : Barred n.url → endsInSlash n.url.path = false →
    r.url.path = withColon n.url.path ++ '/' :: joined names
  /-- A query goes unless nothing is put behind the path, -/
  query : r.url.query = if names = [] then n.url.query else none
  /-- and a fragment goes always. -/
  fragment : r.url.fragment = none
  /-- Resolving in two steps is resolving in one, unless there is a bar left. -/
  again : (Barred n.url → endsInSlash n.url.path = false ∨ names = []) →
    ∀ more, (∀ s ∈ more, IsName s) → r.resolve (String.ofList (joined more))
      = n.resolve (String.ofList (joined names ++ '/' :: joined more))

/-- Nothing below a base is the base as a directory. -/
theorem below_nil (u : Url) (t : List Char) : (u.below []).below t = u.below t := by
  have hslash : endsInSlash (u.below []).path = true := by
    show endsInSlash (u.slashed ++ []) = true
    rw [List.append_nil]
    exact endsInSlash_slashed u
  have hslashed : (u.below []).slashed = u.slashed := by
    rw [slashed, if_pos hslash]
    exact List.append_nil _
  show append { u.below [] with path := (u.below []).slashed } t = u.below t
  rw [hslashed]
  rfl

/-- Names of HTTP and of files resolve a path of names by putting it behind their own path. -/
theorem resolve_names {uri : String} (h : parse uri = .ok n)
    (hscheme : n.url.scheme ∈ ["http".toList, "https".toList, "file".toList])
    {names : List (List Char)} (hnames : ∀ s ∈ names, IsName s) :
    ∃ r, ResolvesBelow n names r := by
  have hbase := isBase_of_parse h hscheme
  have hsub := isSubpath_joined hnames
  refine ⟨⟨n.url.below (joined names)⟩, resolve_subpath hbase hsub, rfl, rfl, fun hbar => ?_,
    fun hbar hopen => ?_, ?_, rfl, fun hbar more hmore => ?_⟩
  · show n.url.slashed ++ joined names = _
    -- A slash that is there stays; one that is missing is put there.
    by_cases hslash : endsInSlash n.url.path = true
    · rw [slashed, if_pos hslash, if_pos hslash]
    · rw [slashed_of_not_barred hbase fun h => hslash (hbar h)]
  · show n.url.slashed ++ joined names = _
    rw [slashed, if_neg (by rw [hopen]; exact Bool.false_ne_true), decide_eq_true hbar.1, hbar.2.1,
      Bool.true_and, if_pos rfl, List.append_assoc, List.singleton_append]
  · show (if joined names = [] then n.url.query else none) = _
    rcases joined_cases hnames with ⟨hnil, heq⟩ | ⟨front, s, -, hs, hcat, heq⟩
    · rw [if_pos heq, if_pos hnil]
    · rw [if_neg fun hnil => hs.nonempty (List.append_eq_nil_iff.1 (heq ▸ hnil)).2,
        if_neg (by rw [hcat]; simp)]
  · have hmoresub := isSubpath_joined hmore
    have hnext := resolve_subpath (n := ⟨n.url.below (joined names)⟩) (hbase.below hsub) hmoresub 0
    rw [List.replicate_zero, List.nil_append] at hnext
    rw [hnext]
    -- Without names the first step only closes the path, which the second one would do.
    by_cases hnil : names = []
    · subst hnil
      have hone := resolve_subpath hbase hmoresub 1
      rw [show joined [] = [] from rfl, below_nil]
      exact hone.symm
    · have hone := resolve_subpath hbase (hmoresub.under hnames hnil) 0
      rw [List.replicate_zero, List.nil_append] at hone
      rw [hone, below_below hbase hnames hnil fun h => (hbar h).resolve_right hnil]

/-- A path that needs no encoding, resolved by a name with a user and a query. -/
theorem resolve_names_of_server :
    ∃ n r, parse "https://user:pw@repo.example.com:8443/a%20b?q#f" = .ok n
      ∧ ResolvesBelow n ["org".toList, "x-1.0".toList] r
      ∧ r.location = "https://user:pw@repo.example.com:8443/a%20b/org/x-1.0" := by
  let a : Authority := ⟨"user".toList, "pw".toList, some (.named "repo.example.com".toList),
    some 8443⟩
  have hn : parse "https://user:pw@repo.example.com:8443/a%20b?q#f"
      = .ok ⟨⟨"https".toList, some a, "/a%20b".toList, some "q".toList, some "f".toList⟩⟩ := by
    decide +kernel
  have hnames : ∀ s ∈ ["org".toList, "x-1.0".toList], IsName s := by
    intro s hs
    simp only [List.mem_cons, List.not_mem_nil, or_false] at hs
    rcases hs with rfl | rfl
    · exact ⟨by decide, List.all_eq_true.1 (by decide), by decide, by decide⟩
    · exact ⟨by decide, List.all_eq_true.1 (by decide), by decide, by decide⟩
  obtain ⟨r, hr⟩ := resolve_names hn (by decide +kernel) hnames
  refine ⟨_, r, hn, hr, ?_⟩
  have hrun := hr.resolved 0
  have hvalue : Name.resolve ⟨⟨"https".toList, some a, "/a%20b".toList, some "q".toList,
      some "f".toList⟩⟩ "org/x-1.0"
      = .ok ⟨⟨"https".toList, some a, "/a%20b/org/x-1.0".toList, none, none⟩⟩ := by decide +kernel
  rw [← Except.ok.inj (hvalue.symm.trans hrun)]
  decide +kernel

/-- A bar is read again as a colon: when the slash is put behind the path of a base, and when a
name that has kept its bar in one step is resolved in another. And without names the query stays. -/
theorem resolve_reads_again :
    (∃ n r, parse "file:////c|/x" = .ok n ∧ n.url.path = "/c|/x".toList
      ∧ n.resolve "y" = .ok r ∧ r.url.path = "/c:/x/y".toList)
    ∧ (∃ n r r' r'', parse "file:////c|/" = .ok n ∧ n.resolve "p" = .ok r ∧ r.resolve "q" = .ok r'
      ∧ n.resolve "p/q" = .ok r'' ∧ r' ≠ r'')
    ∧ ∃ n r, parse "http://h/a/?q" = .ok n ∧ n.resolve "" = .ok r
      ∧ r.url.query = some "q".toList := by
  let file (p : List Char) : Name := ⟨⟨"file".toList, some Authority.empty, p, none, none⟩⟩
  let http : Url := ⟨"http".toList, some (Authority.ofHost (some (.named "h".toList))),
    "/a/".toList, some "q".toList, none⟩
  refine ⟨⟨file "/c|/x".toList, file "/c:/x/y".toList, ?_, rfl, ?_, rfl⟩,
    ⟨file "/c|/".toList, file "/c|/p".toList, file "/c:/p/q".toList, file "/c|/p/q".toList,
      ?_, ?_, ?_, ?_, ?_⟩, ⟨http⟩, ⟨http⟩, ?_, ?_, rfl⟩
  all_goals decide +kernel

end Resource.Name

end TracedTransfer
