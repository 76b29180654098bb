/-
A path is read back from its text.

A path that is read consists of segments in their settled form: encoded,
without separators, neither of the dots (`IsPath`). That is kept by each
step of the reader: a segment is put onto a path that ends in a slash, and
going up takes the last segment away and leaves such a path
(`IsClosed.push`); so it holds of a whole run (`isPath_readSegments`).

A path of settled segments is read as it stands, one segment after the
other (`readSegments_text`). The one that is not is the path of a file
that begins with a drive letter, which is read onto a single slash: the
letter gets its colon, and the reader notes it (`readSegments_drive`).
-/
import Mathlib.Data.List.Basic
import TracedTransfer.Proofs.Text.Ascii
import TracedTransfer.Proofs.Url.Percent
import TracedTransfer.Url.Path

namespace TracedTransfer.Url

open Text

variable {kind : SchemeKind}

-- ============================================================= segments

/-- A segment in the form in which it is read again. -/
structure IsSegment (kind : SchemeKind) (s : List Char) : Prop where
  /-- It is escaped already, -/
  bare : Bare EncodeSet.path s
  /-- has no separator in it, -/
  whole : ∀ c ∈ s, isSeparator kind c = false
  /-- and is neither a dot -/
  notSingle : isSingleDot s = false
  /-- nor two, in any spelling. -/
  notDouble : isDoubleDot s = false

theorem isSegment_nil (kind : SchemeKind) : IsSegment kind [] :=
  ⟨bare_nil, fun _ h => (List.not_mem_nil h).elim, by decide, by decide⟩

/-- No slash stands in a segment, -/
theorem IsSegment.slash_not_mem {s : List Char} (h : IsSegment kind s) : '/' ∉ s := fun hmem => by
  have := h.whole '/' hmem
  cases this

/-- and nothing that ends a path. -/
theorem IsSegment.not_endsPath {s : List Char} (h : IsSegment kind s) :
    ∀ c ∈ s, endsPath c = false := by
  intro c hc
  refine Bool.eq_false_iff.2 fun hends => ?_
  unfold endsPath at hends
  simp only [Bool.or_eq_true, decide_eq_true_eq] at hends
  rcases hends with rfl | rfl
  · exact h.bare.not_mem (by decide) hc
  · exact h.bare.not_mem (by decide) hc

/-- An encoded text has no separator that was not there. -/
theorem whole_percentEncode {s : List Char} (h : ∀ c ∈ s, isSeparator kind c = false) :
    ∀ c ∈ percentEncode EncodeSet.path s, isSeparator kind c = false := by
  intro c hc
  rcases mem_percentEncode hc with ⟨hmem, -⟩ | htriple
  · exact h c hmem
  · have hall : tripleChars.all (fun c => c ≠ '/' ∧ c ≠ '\\') = true := by decide
    simp only [List.all_eq_true, decide_eq_true_eq] at hall
    obtain ⟨hslash, hback⟩ := hall c htriple
    simp [isSeparator, hslash, hback]

/-- A path of segments, the last of which is not closed by a slash. -/
def pathText (segments : List (List Char)) (last : List Char) : List Char :=
  '/' :: (segments.flatMap (· ++ ['/']) ++ last)

/-- A path of settled segments that ends in a slash. -/
def IsClosed (kind : SchemeKind) (p : List Char) : Prop :=
  ∃ segments, (∀ s ∈ segments, IsSegment kind s) ∧ p = pathText segments []

/-- A path of settled segments. -/
def IsPath (kind : SchemeKind) (p : List Char) : Prop :=
  ∃ segments last, (∀ s ∈ segments, IsSegment kind s) ∧ IsSegment kind last
    ∧ p = pathText segments last

theorem isClosed_root (kind : SchemeKind) : IsClosed kind ['/'] :=
  ⟨[], fun _ h => (List.not_mem_nil h).elim, rfl⟩

theorem pathText_append (segments : List (List Char)) (s t : List Char) :
    pathText segments s ++ t = pathText segments (s ++ t) := by
  simp [pathText]

theorem pathText_concat (segments : List (List Char)) (s : List Char) :
    pathText (segments ++ [s]) [] = pathText segments [] ++ s ++ ['/'] := by
  simp [pathText]

/-- What is closed is a path whose last segment is empty: -/
theorem IsClosed.isPath {p : List Char} (h : IsClosed kind p) : IsPath kind p := by
  obtain ⟨segments, hall, rfl⟩ := h
  exact ⟨segments, [], hall, isSegment_nil kind, rfl⟩

/-- a segment behind it makes a path, -/
theorem IsClosed.append {p s : List Char} (h : IsClosed kind p) (hs : IsSegment kind s) :
    IsPath kind (p ++ s) := by
  obtain ⟨segments, hall, rfl⟩ := h
  exact ⟨segments, s, hall, hs, by rw [pathText_append, List.nil_append]⟩

/-- which one more slash closes again. -/
theorem IsClosed.append_closed {p s : List Char} (h : IsClosed kind p) (hs : IsSegment kind s) :
    IsClosed kind (p ++ s ++ ['/']) := by
  obtain ⟨segments, hall, rfl⟩ := h
  refine ⟨segments ++ [s], ?_, (pathText_concat segments s).symm⟩
  intro t ht
  rcases List.mem_append.1 ht with ht | ht
  · exact hall t ht
  · rw [List.mem_singleton.1 ht]
    exact hs

/-- A closed path is one with a slash at its end, -/
theorem IsClosed.eq_append {p : List Char} (h : IsClosed kind p) : ∃ front, p = front ++ ['/'] := by
  obtain ⟨segments, -, rfl⟩ := h
  rcases List.eq_nil_or_concat segments with rfl | ⟨front, s, rfl⟩
  · exact ⟨[], rfl⟩
  · rw [List.concat_eq_append, pathText_concat]
    exact ⟨_, rfl⟩

/-- so it ends in a slash. -/
theorem IsClosed.endsInSlash {p : List Char} (h : IsClosed kind p) : endsInSlash p = true := by
  obtain ⟨front, rfl⟩ := h.eq_append
  simp [Url.endsInSlash]

-- =============================================================== going up

/-- The directory of a path goes through its last slash, -/
theorem throughLastSlash_append (front : List Char) {s : List Char} (h : '/' ∉ s) :
    throughLastSlash (front ++ '/' :: s) = front ++ ['/'] := by
  have hreverse : (front ++ '/' :: s).reverse = s.reverse ++ '/' :: front.reverse := by simp
  unfold throughLastSlash
  rw [hreverse, dropWhile_append_of_all]
  · simp
  · intro c hc
    exact decide_eq_true fun heq => h (heq ▸ List.mem_reverse.1 hc)
  · intro c hc
    cases hc
    rfl

/-- and the last part stands behind it. -/
theorem lastPart_append (front : List Char) {s : List Char} (h : '/' ∉ s) :
    lastPart (front ++ '/' :: s) = s := by
  have hreverse : (front ++ '/' :: s).reverse = s.reverse ++ '/' :: front.reverse := by simp
  unfold lastPart
  rw [hreverse, takeWhile_append_of_all]
  · simp
  · intro c hc
    exact decide_eq_true fun heq => h (heq ▸ List.mem_reverse.1 hc)
  · intro c hc
    cases hc
    rfl

/-- A drive letter that is a whole segment stands in front. -/
theorem startsWithDriveLetter_of_normal {s : List Char} (h : isNormalDriveLetter s = true)
    (rest : List Char) : startsWithDriveLetter (s ++ '/' :: rest) = true := by
  match s, h with
  | [a, b], h =>
      simp only [isNormalDriveLetter, Bool.and_eq_true, decide_eq_true_eq] at h
      simp [startsWithDriveLetter, isDriveLetter, h.1, h.2]

/-- Going up from a path that ends in a slash leads to one. -/
theorem IsClosed.goUp {p : List Char} (h : IsClosed kind p) : IsClosed kind (goUp kind p) := by
  obtain ⟨segments, hall, rfl⟩ := h
  rcases List.eq_nil_or_concat segments with rfl | ⟨segments, s, rfl⟩
  · have hroot : Url.goUp kind (pathText [] []) = ['/'] := by cases kind <;> rfl
    rw [hroot]
    exact isClosed_root kind
  · rw [List.concat_eq_append] at hall ⊢
    have hfront : IsClosed kind (pathText segments []) :=
      ⟨segments, fun t ht => hall t (List.mem_append_left _ ht), rfl⟩
    have hs : IsSegment kind s := hall s (List.mem_append_right _ (List.mem_singleton.2 rfl))
    have hclosed := hfront.append_closed hs
    obtain ⟨front, heq⟩ := hfront.eq_append
    rw [pathText_concat]
    rw [heq] at hfront hclosed ⊢
    have hshape : front ++ ['/'] ++ s = front ++ '/' :: s := by simp
    unfold Url.goUp
    rw [hclosed.endsInSlash, Bool.true_and]
    by_cases hgo : finalSlashCanGo (front ++ ['/'] ++ s ++ ['/']) = true
    · rw [if_pos hgo, List.dropLast_concat, hshape]
      -- the segment is no drive letter, or its slash would have to stay
      have hnormal : isNormalDriveLetter s = false := by
        refine Bool.eq_false_iff.2 fun hdrive => ?_
        unfold finalSlashCanGo at hgo
        rw [List.dropLast_concat, hshape, throughLastSlash_append front hs.slash_not_mem] at hgo
        have hdrop : (front ++ '/' :: s ++ ['/']).drop (front ++ ['/']).length = s ++ ['/'] := by
          rw [← hshape, List.append_assoc, List.drop_left]
        dsimp only at hgo
        rw [hdrop, startsWithDriveLetter_of_normal hdrive] at hgo
        simp at hgo
      rw [popSegment, lastPart_append front hs.slash_not_mem, hnormal, Bool.and_false,
        if_neg Bool.false_ne_true, throughLastSlash_append front hs.slash_not_mem]
      exact hfront
    · rw [if_neg hgo, popSegment, lastPart_append _ List.not_mem_nil,
        throughLastSlash_append _ List.not_mem_nil]
      rw [if_neg (by simp [isNormalDriveLetter])]
      exact hclosed

-- ======================================================= what is read

/-- No drive letter is all that follows the first slash of a path that ends in one. -/
theorem IsClosed.not_drive {p : List Char} (h : IsClosed kind p) :
    isNormalDriveLetter (p.drop 1) = false := by
  obtain ⟨front, rfl⟩ := h.eq_append
  match front with
  | [] => rfl
  | [a] => rfl
  | [a, b] => simp [isNormalDriveLetter]
  | a :: b :: c :: d :: rest => rfl
  | [a, b, c] => rfl

/-- A letter with a colon is a settled segment. -/
theorem isSegment_drive {a : Char}
    (hbare : 0x20 ≤ a.toNat ∧ a.toNat < 0x7f ∧ EncodeSet.path a = false)
    (hwhole : isSeparator kind a = false) : IsSegment kind [a, ':'] := by
  refine ⟨.cons hbare (.cons (by decide) bare_nil), fun c hc => ?_, by simp [isSingleDot],
    by simp [isDoubleDot]⟩
  rcases List.mem_cons.1 hc with rfl | hc
  · exact hwhole
  · rw [List.mem_singleton.1 hc]
    cases kind <;> rfl

/-- The slash behind a segment that is closed. -/
def slashIf (closed : Bool) : List Char := if closed then ['/'] else []

/-- What a segment makes of a path that ends in a slash: it may take away, and is put behind what
is left. -/
theorem IsClosed.push {st : PathState} (h : IsClosed kind st.text) {s : List Char}
    (hbare : Bare EncodeSet.path s) (hwhole : ∀ c ∈ s, isSeparator kind c = false)
    (closed : Bool) :
    ∃ p, IsClosed kind p ∧ ((st.push kind s closed).text = p
      ∨ ∃ t, IsSegment kind t ∧ (st.push kind s closed).text = p ++ t ++ slashIf closed) := by
  unfold PathState.push
  dsimp only
  rw [h.not_drive, Bool.and_false, if_neg Bool.false_ne_true]
  by_cases hdouble : isDoubleDot s = true
  · rw [if_pos hdouble]
    refine ⟨_, h.goUp, .inl ?_⟩
    rw [h.goUp.endsInSlash, Bool.not_true, Bool.and_false, if_neg Bool.false_ne_true]
  · rw [if_neg hdouble]
    by_cases hsingle : isSingleDot s = true
    · rw [if_pos hsingle]
      refine ⟨_, h, .inl ?_⟩
      rw [h.endsInSlash, if_pos rfl]
    · rw [if_neg hsingle]
      by_cases hdrive : (kind = .file && st.text.length = 1 && isDriveLetter s) = true
      · rw [if_pos hdrive]
        rw [Bool.and_eq_true] at hdrive
        refine ⟨_, h, .inr ⟨s.take 1 ++ [':'], ?_, by rw [← List.append_assoc]; rfl⟩⟩
        match s, hdrive.2 with
        | [a, b], _ =>
            exact isSegment_drive (hbare a (List.mem_cons_self ..))
              (hwhole a (List.mem_cons_self ..))
      · rw [if_neg hdrive]
        exact ⟨_, h, .inr ⟨s, ⟨hbare, hwhole, by simpa using hsingle, by simpa using hdouble⟩, rfl⟩⟩

/-- A segment that is read from a text. -/
theorem IsClosed.push_encoded {st : PathState} (h : IsClosed kind st.text) {s : List Char}
    (hs : ∀ c ∈ s, isSeparator kind c = false) :
    IsClosed kind (st.push kind (percentEncode EncodeSet.path s) true).text
      ∧ IsPath kind (st.push kind (percentEncode EncodeSet.path s) false).text := by
  have hbare := bare_percentEncode spares_path s
  have hwhole := whole_percentEncode hs
  constructor
  · obtain ⟨p, hp, heq | ⟨t, ht, heq⟩⟩ := h.push hbare hwhole true
    · rw [heq]
      exact hp
    · rw [heq]
      exact hp.append_closed ht
  · obtain ⟨p, hp, heq | ⟨t, ht, heq⟩⟩ := h.push hbare hwhole false
    · rw [heq]
      exact hp.isPath
    · rw [heq]
      exact (List.append_nil (p ++ t)).symm ▸ hp.append ht

/-- What may follow a path: nothing, or a mark that ends it. -/
def EndsPath (s : List Char) : Prop := ∀ c ∈ s.head?, endsPath c = true

/-- A path that is read onto a slash consists of settled segments, and is read to its end. -/
theorem isPath_readSegments {st : PathState} (h : IsClosed kind st.text) {seg : List Char}
    (hseg : ∀ c ∈ seg, isSeparator kind c = false) (s : List Char) :
    IsPath kind (st.readSegments kind seg s).1.text ∧ EndsPath (st.readSegments kind seg s).2 := by
  have hreverse : ∀ seg : List Char, (∀ c ∈ seg, isSeparator kind c = false) →
      ∀ c ∈ seg.reverse, isSeparator kind c = false :=
    fun seg hseg c hc => hseg c (List.mem_reverse.1 hc)
  induction s generalizing st seg with
  | nil => exact ⟨(h.push_encoded (hreverse seg hseg)).2, fun _ hc => by cases hc⟩
  | cons c s ih =>
      rw [PathState.readSegments]
      by_cases hends : endsPath c = true
      · rw [if_pos hends]
        refine ⟨(h.push_encoded (hreverse seg hseg)).2, fun d hd => ?_⟩
        cases hd
        exact hends
      · rw [if_neg hends]
        by_cases hsep : isSeparator kind c = true
        · rw [if_pos hsep]
          exact ih (h.push_encoded (hreverse seg hseg)).1 fun _ hd => (List.not_mem_nil hd).elim
        · rw [if_neg hsep]
          refine ih h fun d hd => ?_
          rcases List.mem_cons.1 hd with rfl | hd
          · simpa using hsep
          · exact hseg d hd

/-- Without the slashes that it starts with, the path of a file still consists of segments. -/
theorem IsPath.close {p : List Char} (h : IsPath kind p) :
    IsPath kind ('/' :: p.dropWhile (· = '/')) ∧ (p.dropWhile (· = '/')).head? ≠ some '/' := by
  refine ⟨?_, fun hhead => ?_⟩
  · obtain ⟨segments, last, hall, hlast, rfl⟩ := h
    -- A slash is in no segment, so dropping stops at the first segment that is not empty.
    have hstops : ∀ (s rest : List Char), '/' ∉ s → s ≠ [] ∨ rest = [] →
        (s ++ rest).dropWhile (· = '/') = s ++ rest := by
      intro s rest hs hne
      cases s with
      | nil => rw [hne.resolve_left (fun h => h rfl)]; rfl
      | cons c s =>
          refine List.dropWhile_cons_of_neg fun heq => hs ?_
          rw [of_decide_eq_true heq]
          exact List.mem_cons_self ..
    induction segments with
    | nil =>
        have hdrop : (pathText [] last).dropWhile (· = '/') = last := by
          have := hstops last [] hlast.slash_not_mem (.inr rfl)
          rwa [List.append_nil] at this
        rw [hdrop]
        exact ⟨[], last, fun _ h => (List.not_mem_nil h).elim, hlast, rfl⟩
    | cons s segments ih =>
        have hs := hall s (List.mem_cons_self ..)
        have hshape : pathText (s :: segments) last = '/' :: (s ++ pathText segments last) := by
          simp [pathText]
        rw [hshape, List.dropWhile_cons_of_pos (by decide)]
        by_cases hnil : s = []
        · rw [hnil, List.nil_append]
          exact ih fun t ht => hall t (List.mem_cons_of_mem _ ht)
        · rw [hstops s _ hs.slash_not_mem (.inl hnil), ← hshape]
          exact ⟨s :: segments, last, hall, hlast, rfl⟩
  · have := List.head?_dropWhile_not (· = '/') p
    rw [hhead] at this
    simp at this

-- ============================================================ read again

/-- A segment that does not become a drive letter is put behind the path as it is. -/
theorem push_segment {st : PathState} (hst : isNormalDriveLetter (st.text.drop 1) = false)
    {s : List Char} (hs : IsSegment kind s)
    (hplain : kind = .file → st.text.length = 1 → isDriveLetter s = false) (closed : Bool) :
    st.push kind s closed = ⟨st.text ++ s ++ slashIf closed, st.drive⟩ := by
  have hdrive : (kind = .file && st.text.length = 1 && isDriveLetter s) = false := by
    refine Bool.eq_false_iff.2 fun h => ?_
    simp only [Bool.and_eq_true, decide_eq_true_eq] at h
    rw [hplain h.1.1 h.1.2] at h
    cases h.2
  unfold PathState.push
  dsimp only
  rw [hst, Bool.and_false, if_neg Bool.false_ne_true, hs.notDouble, if_neg Bool.false_ne_true,
    hs.notSingle, if_neg Bool.false_ne_true, hdrive, if_neg Bool.false_ne_true]
  rfl

/-- The characters of a segment are collected. -/
theorem readSegments_chunk {s : List Char} (hs : IsSegment kind s) (st : PathState)
    (seg rest : List Char) :
    st.readSegments kind seg (s ++ rest) = st.readSegments kind (s.reverse ++ seg) rest := by
  have hends := hs.not_endsPath
  have hwhole := hs.whole
  clear hs
  induction s generalizing seg with
  | nil => rfl
  | cons c s ih =>
      rw [List.cons_append, PathState.readSegments, hends c (List.mem_cons_self ..),
        if_neg Bool.false_ne_true, hwhole c (List.mem_cons_self ..), if_neg Bool.false_ne_true,
        ih _ (fun d hd => hends d (List.mem_cons_of_mem _ hd))
          fun d hd => hwhole d (List.mem_cons_of_mem _ hd)]
      simp

/-- To read a closed segment is to add it to the path, -/
theorem readSegments_closed {s : List Char} (hs : IsSegment kind s) (st : PathState)
    (rest : List Char) :
    st.readSegments kind [] (s ++ '/' :: rest)
      = (st.push kind s true).readSegments kind [] rest := by
  rw [readSegments_chunk hs, List.append_nil, PathState.readSegments, if_neg (by decide),
    if_pos (by rfl), List.reverse_reverse, hs.bare.percentEncode_eq]

/-- and the last one ends where the path does. -/
theorem readSegments_last {s : List Char} (hs : IsSegment kind s) (st : PathState)
    {tail : List Char} (htail : EndsPath tail) :
    st.readSegments kind [] (s ++ tail) = (st.push kind s false, tail) := by
  rw [readSegments_chunk hs, List.append_nil]
  cases tail with
  | nil => rw [PathState.readSegments, List.reverse_reverse, hs.bare.percentEncode_eq]
  | cons c tail =>
      rw [PathState.readSegments, if_pos (htail c rfl), List.reverse_reverse,
        hs.bare.percentEncode_eq]

/-- Settled segments are read as they stand. -/
theorem readSegments_text {p : List Char} (hp : IsClosed kind p) (drive : Bool)
    {segments : List (List Char)} {last : List Char} (hall : ∀ s ∈ segments, IsSegment kind s)
    (hlast : IsSegment kind last)
    (hplain : kind = .file → p.length = 1 → isDriveLetter (segments.headD last) = false)
    {tail : List Char} (htail : EndsPath tail) :
    PathState.readSegments kind ⟨p, drive⟩ [] (segments.flatMap (· ++ ['/']) ++ last ++ tail)
      = (⟨p ++ (segments.flatMap (· ++ ['/']) ++ last), drive⟩, tail) := by
  induction segments generalizing p with
  | nil =>
      have hpush : PathState.push kind ⟨p, drive⟩ last false
          = ⟨p ++ last ++ slashIf false, drive⟩ := push_segment hp.not_drive hlast hplain false
      rw [List.flatMap_nil, List.nil_append, readSegments_last hlast _ htail, hpush]
      simp [slashIf]
  | cons s segments ih =>
      have hs := hall s (List.mem_cons_self ..)
      have hpush : PathState.push kind ⟨p, drive⟩ s true
          = ⟨p ++ s ++ slashIf true, drive⟩ := push_segment hp.not_drive hs hplain true
      have hlong : (p ++ s ++ ['/']).length ≠ 1 := by
        obtain ⟨front, rfl⟩ := hp.eq_append
        simp only [List.length_append, List.length_singleton]
        omega
      have hshape : (s :: segments).flatMap (· ++ ['/']) ++ last ++ tail
          = s ++ '/' :: (segments.flatMap (· ++ ['/']) ++ last ++ tail) := by simp
      rw [hshape, readSegments_closed hs, hpush]
      refine (ih (hp.append_closed hs) (fun t ht => hall t (List.mem_cons_of_mem _ ht))
        fun _ hlen => absurd hlen hlong).trans ?_
      simp

/-- The second character after the first slash turned into a colon. -/
def withColon : List Char → List Char
  | slash :: a :: _ :: rest => slash :: a :: ':' :: rest
  | p => p

/-- In front of a slash, or at the end, a segment is all that can be a drive letter. -/
theorem startsWithDriveLetter_append {s rest : List Char} (hs : IsSegment .file s)
    (hrest : ∀ c ∈ rest.head?, c = '/') :
    startsWithDriveLetter (s ++ rest) = isDriveLetter s := by
  -- What may follow a drive letter is in no segment.
  have hends : ∀ c ∈ s, c ∉ ['/', '\\', '?', '#'] := by
    intro c hc hmem
    have hwhole := hs.whole c hc
    have hpath := hs.not_endsPath c hc
    simp only [List.mem_cons, List.not_mem_nil, or_false] at hmem
    rcases hmem with rfl | rfl | rfl | rfl
    · cases hwhole
    · cases hwhole
    · cases hpath
    · cases hpath
  match s with
  | [] =>
      cases rest with
      | nil => rfl
      | cons c rest =>
          cases hrest c rfl
          cases rest <;> rfl
  | [a] =>
      cases rest with
      | nil => rfl
      | cons c rest =>
          cases hrest c rfl
          simp [startsWithDriveLetter, isDriveLetter]
  | [a, b] =>
      cases rest with
      | nil => simp [startsWithDriveLetter]
      | cons c rest =>
          cases hrest c rfl
          simp [startsWithDriveLetter]
  | a :: b :: c :: s =>
      have hc := hends c (by simp)
      simp only [startsWithDriveLetter, List.cons_append, List.drop_succ_cons, List.drop_zero,
        hc, decide_false, Bool.and_false]
      rfl

/-- A path begins with a drive letter if its first segment is one. -/
theorem startsWithDriveLetter_pathText {segments : List (List Char)} {last : List Char}
    (hall : ∀ s ∈ segments, IsSegment .file s) (hlast : IsSegment .file last) :
    startsWithDriveLetter ((pathText segments last).drop 1)
      = isDriveLetter (segments.headD last) := by
  cases segments with
  | nil =>
      have hend : ∀ c ∈ ([] : List Char).head?, c = '/' := fun _ h => by cases h
      have := startsWithDriveLetter_append hlast hend
      rwa [List.append_nil] at this
  | cons s segments =>
      have hshape : (pathText (s :: segments) last).drop 1 = s ++ pathText segments last := by
        simp [pathText]
      rw [hshape]
      refine startsWithDriveLetter_append (hall s (List.mem_cons_self ..)) fun c hc => ?_
      cases hc
      rfl

/-- A drive letter that is read onto a single slash is given its colon. -/
theorem readSegments_drive {drive : Bool} {segments : List (List Char)} {last : List Char}
    (hall : ∀ s ∈ segments, IsSegment .file s) (hlast : IsSegment .file last)
    (hletter : isDriveLetter (segments.headD last) = true) {tail : List Char}
    (htail : EndsPath tail) :
    PathState.readSegments .file ⟨['/'], drive⟩ [] (segments.flatMap (· ++ ['/']) ++ last ++ tail)
      = (⟨withColon (pathText segments last), true⟩, tail) := by
  -- The letter is put onto the root alone, so that its second character becomes a colon.
  have hpush : ∀ s closed, IsSegment .file s → isDriveLetter s = true →
      PathState.push .file ⟨['/'], drive⟩ s closed
        = ⟨withColon ('/' :: s) ++ slashIf closed, true⟩ := by
    intro s closed hs hletter
    match s, hletter with
    | [a, b], hletter =>
        unfold PathState.push
        dsimp only
        rw [(isClosed_root .file).not_drive, Bool.and_false, if_neg Bool.false_ne_true,
          hs.notDouble, if_neg Bool.false_ne_true, hs.notSingle, if_neg Bool.false_ne_true,
          if_pos (by simp [hletter])]
        rfl
  cases segments with
  | nil =>
      rw [List.flatMap_nil, List.nil_append, readSegments_last hlast _ htail,
        hpush last false hlast hletter]
      simp [slashIf, pathText]
  | cons s segments =>
      have hs := hall s (List.mem_cons_self ..)
      have hshape : (s :: segments).flatMap (· ++ ['/']) ++ last ++ tail
          = s ++ '/' :: (segments.flatMap (· ++ ['/']) ++ last ++ tail) := by simp
      rw [hshape, readSegments_closed hs, hpush s true hs hletter]
      match s, hletter, hs with
      | [a, b], hletter, hs =>
          have hclosed : IsClosed .file ['/', a, ':', '/'] :=
            (isClosed_root .file).append_closed (isSegment_drive
              (hs.bare a (List.mem_cons_self ..)) (hs.whole a (List.mem_cons_self ..)))
          refine (readSegments_text hclosed true (fun t ht => hall t (List.mem_cons_of_mem _ ht))
            hlast (fun _ hlen => by simp at hlen) htail).trans ?_
          simp [pathText, withColon]

-- ======================================================== whole paths

/-- A path as a URL of a kind has it: settled segments, and for a file no second slash. -/
structure IsSettled (kind : SchemeKind) (p : List Char) : Prop where
  /-- It consists of settled segments, -/
  isPath : IsPath kind p
  /-- and that of a file does not start with two slashes. -/
  file : kind = .file → (p.drop 1).head? ≠ some '/'

theorem readPath_eq (start input : List Char) :
    readPath kind start input
      = ((PathState.readSegments kind ⟨start, false⟩ [] input).1.close kind,
        (PathState.readSegments kind ⟨start, false⟩ [] input).2) := rfl

/-- A path that is read onto a slash. -/
theorem isSettled_readPath (kind : SchemeKind) (s : List Char) :
    IsSettled kind (readPath kind ['/'] s).1.text ∧ EndsPath (readPath kind ['/'] s).2 := by
  have hroot : IsClosed kind (PathState.mk ['/'] false).text := isClosed_root kind
  have hread := isPath_readSegments hroot (fun _ h => (List.not_mem_nil h).elim) s
  rw [readPath_eq]
  refine ⟨?_, hread.2⟩
  unfold PathState.close
  by_cases hfile : kind = .file
  · rw [if_pos hfile]
    exact ⟨hread.1.close.1, fun _ => hread.1.close.2⟩
  · rw [if_neg hfile]
    exact ⟨hread.1, fun h => absurd h hfile⟩

/-- A path that starts with a slash is read onto nothing as what follows is onto the slash. -/
theorem readPath_nil {c : Char} (hc : isSeparator kind c = true) (s : List Char) :
    readPath kind [] (c :: s) = readPath kind ['/'] s := by
  have hends : endsPath c = false := by
    unfold isSeparator at hc
    simp only [Bool.or_eq_true, Bool.and_eq_true, decide_eq_true_eq] at hc
    rcases hc with rfl | ⟨-, rfl⟩
    · rfl
    · rfl
  have hpush : PathState.push kind ⟨[], false⟩ [] true = ⟨['/'], false⟩ := by cases kind <;> rfl
  rw [readPath_eq, readPath_eq, PathState.readSegments, hends, if_neg Bool.false_ne_true,
    if_pos hc, List.reverse_nil, percentEncode_nil, hpush]

variable {p tail : List Char}

theorem IsPath.eq_cons (h : IsPath kind p) : p = '/' :: p.drop 1 := by
  obtain ⟨segments, last, -, -, rfl⟩ := h
  rfl

/-- Closing does nothing to a path that starts with one slash; only a `file:` path may start with
more, and loses them. -/
theorem close_of_head {kind : SchemeKind} {st : PathState} (h : st.text = '/' :: st.text.drop 1)
    (hhead : kind = .file → (st.text.drop 1).head? ≠ some '/') : st.close kind = st := by
  unfold PathState.close
  split
  · rename_i hfile
    have hdrop : st.text.dropWhile (· = '/') = st.text.drop 1 := by
      rw [h, List.dropWhile_cons_of_pos (by decide), List.drop_succ_cons, List.drop_zero]
      have hne := hhead hfile
      cases hs : st.text.drop 1 with
      | nil => rfl
      | cons c s =>
          rw [hs] at hne
          exact List.dropWhile_cons_of_neg fun heq => hne (congrArg some (of_decide_eq_true heq))
    rw [hdrop, ← h]
  · rfl

/-- What a text that starts with a drive letter looks like. -/
theorem startsWithDriveLetter_iff {s : List Char} : startsWithDriveLetter s = true
    ↔ ∃ a b rest, s = a :: b :: rest ∧ a.isAlpha = true ∧ (b = ':' ∨ b = '|')
      ∧ ∀ c ∈ rest.head?, c ∈ ['/', '\\', '?', '#'] := by
  constructor
  · intro h
    match s, h with
    | a :: b :: rest, h =>
        unfold startsWithDriveLetter at h
        simp only [List.take_succ_cons, List.take_zero, isDriveLetter, List.drop_succ_cons,
          List.drop_zero, Bool.and_eq_true, Bool.or_eq_true, decide_eq_true_eq] at h
        refine ⟨a, b, rest, rfl, h.1.1, h.1.2, fun c hc => ?_⟩
        cases rest with
        | nil => cases hc
        | cons d rest =>
            cases hc
            exact of_decide_eq_true h.2
  · rintro ⟨a, b, rest, rfl, ha, hb, hrest⟩
    have hletter : isDriveLetter [a, b] = true := by simp [isDriveLetter, ha, hb]
    unfold startsWithDriveLetter
    rw [List.take_succ_cons, List.take_succ_cons, List.take_zero, hletter, Bool.true_and]
    cases rest with
    | nil => rfl
    | cons c rest => exact decide_eq_true (hrest c rfl)

/-- A settled path is read again onto a slash; a drive letter at its beginning is given its colon
if that is the first slash. -/
theorem readPath_again (h : IsSettled kind p) (htail : EndsPath tail) :
    readPath kind ['/'] (p.drop 1 ++ tail)
      = if kind = .file ∧ startsWithDriveLetter (p.drop 1) = true then (⟨withColon p, true⟩, tail)
        else (⟨p, false⟩, tail) := by
  obtain ⟨⟨segments, last, hall, hlast, rfl⟩, hhead⟩ := h
  rw [readPath_eq]
  split
  -- The letter is followed by a colon now, and no slash can come in front of it.
  · rename_i hdrive
    obtain ⟨rfl, hletter⟩ := hdrive
    obtain ⟨a, b, rest, htext, ha, -⟩ := startsWithDriveLetter_iff.1 hletter
    have hcolon : withColon (pathText segments last) = '/' :: a :: ':' :: rest := by
      rw [show pathText segments last = '/' :: (pathText segments last).drop 1 from rfl, htext]
      rfl
    rw [startsWithDriveLetter_pathText hall hlast] at hletter
    rw [show (pathText segments last).drop 1 = segments.flatMap (· ++ ['/']) ++ last from rfl,
      readSegments_drive hall hlast hletter htail, hcolon]
    dsimp only
    rw [close_of_head rfl]
    rintro - hslash
    cases Option.some.inj hslash
    cases ha
  · rename_i hdrive
    have hread := readSegments_text (isClosed_root kind) false hall hlast ?_ htail
    · rw [show (pathText segments last).drop 1 = segments.flatMap (· ++ ['/']) ++ last from rfl,
        hread]
      exact congrArg (·, tail) (close_of_head rfl hhead)
    · rintro rfl -
      rw [← startsWithDriveLetter_pathText hall hlast]
      simpa using hdrive

/-- Behind a second slash there are no drive letters. -/
theorem readPath_second (h : IsSettled .file p) (htail : EndsPath tail) :
    readPath .file ['/'] (p ++ tail) = (⟨p, false⟩, tail) := by
  obtain ⟨⟨segments, last, hall, hlast, rfl⟩, hhead⟩ := h
  have hroot := isClosed_root .file
  have hsecond : IsClosed .file ['/', '/'] := hroot.append_closed (isSegment_nil .file)
  have hpush : PathState.push .file ⟨['/'], false⟩ [] true = ⟨['/', '/'], false⟩ :=
    push_segment hroot.not_drive (isSegment_nil .file) (fun _ _ => rfl) true
  have hread := readSegments_text hsecond false hall hlast (fun _ hlen => by cases hlen) htail
  have hstart : pathText segments last ++ tail
      = [] ++ '/' :: (segments.flatMap (· ++ ['/']) ++ last ++ tail) := rfl
  rw [readPath_eq, hstart, readSegments_closed (isSegment_nil .file), hpush, hread]
  refine congrArg (·, tail) ?_
  have hclose : PathState.close .file ⟨pathText segments last, false⟩
      = ⟨pathText segments last, false⟩ := close_of_head rfl hhead
  unfold PathState.close at hclose ⊢
  rw [if_pos rfl] at hclose ⊢
  rw [← hclose]
  exact congrArg (fun t => (⟨'/' :: t, false⟩ : PathState)) (List.dropWhile_cons_of_pos (by decide))

end TracedTransfer.Url
