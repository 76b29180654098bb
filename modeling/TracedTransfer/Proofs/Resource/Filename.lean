/-
File names of fetched resources.

A name is made in four steps: the last part of a path is decoded,
separators and underscores run together into single underscores, dots and
underscores go from both ends, and what is left is cut to 255 bytes. Each
step keeps what the one before it brought (`collapse_plain`,
`collapse_single`, `trimmed_edges`), and cutting keeps all of it because
it leaves a beginning (`cut?_spec`): so a text that is made usable is
empty or safe (`sanitizeChars_safe`).

`fileName_safe` is the whole: the file name of any resource is one safe
component, which stands right below the directory it is put into, and the
search for the place to cut at ends.

Made usable once more, a text changes only if it was cut behind a dot or an
underscore: nothing is trimmed after the cut (`sanitize_settles`).
-/
import Mathlib.Data.List.DropRight
import TracedTransfer.Proofs.FileSystem.Inside
import TracedTransfer.Proofs.Text.Boundary
import TracedTransfer.Proofs.Text.Trim
import TracedTransfer.Proofs.Url.Percent
import TracedTransfer.Resource.Filename

namespace TracedTransfer.Resource.Filename

open Text FilePath

-- =========================================================== collapsing

/-- Nothing that separates is left. -/
theorem collapse_plain {after : Bool} {s : List Char} {c : Char} (h : c ∈ collapse after s) :
    isSeparator c = false := by
  induction s generalizing after with
  | nil => simp [collapse] at h
  | cons d s ih =>
      rw [collapse] at h
      by_cases hd : (isSeparator d || d = '_') = true
      · rw [if_pos hd] at h
        cases after with
        | true => exact ih h
        | false =>
            rcases List.mem_cons.1 h with rfl | h
            · rfl
            · exact ih h
      · rw [if_neg hd] at h
        rcases List.mem_cons.1 h with rfl | h
        · simp only [Bool.or_eq_true, not_or] at hd
          exact Bool.eq_false_iff.2 hd.1
        · exact ih h

/-- After an underscore, none follows at once. -/
theorem head?_collapse (s : List Char) : (collapse true s).head? ≠ some '_' := by
  induction s with
  | nil => simp [collapse]
  | cons d s ih =>
      rw [collapse]
      by_cases hd : (isSeparator d || d = '_') = true
      · rw [if_pos hd, if_pos rfl]
        exact ih
      · rw [if_neg hd]
        simp only [Bool.or_eq_true, decide_eq_true_eq, not_or] at hd
        simpa using hd.2

/-- Underscores stand alone. -/
theorem collapse_single (after : Bool) (s : List Char) : ¬ ['_', '_'] <:+: collapse after s := by
  induction s generalizing after with
  | nil => simp [collapse]
  | cons d s ih =>
      rw [collapse]
      by_cases hd : (isSeparator d || d = '_') = true
      · rw [if_pos hd]
        cases after with
        | true => exact ih true
        | false =>
            intro h
            rcases List.infix_cons_iff.1 h with h | h
            · obtain ⟨rest, hrest⟩ := (List.cons_prefix_cons.1 h).2
              exact head?_collapse s (by rw [← hrest]; rfl)
            · exact ih true h
      · rw [if_neg hd]
        intro h
        rcases List.infix_cons_iff.1 h with h | h
        · have hne := (List.cons_prefix_cons.1 h).1
          simp [← hne] at hd
        · exact ih false h

-- ============================================================== cutting

/-- A text is cut at the last place within bounds that is inside no character: a beginning of it
comes out, the longest there is. -/
theorem cut?_spec (n : Nat) (s : List Char) :
    ∃ k, Utf8.boundary? (Utf8.encode s) (min (Utf8.encode s).length n) = some k ∧ k ≤ n
      ∧ ∃ t rest, cut? n s = some t ∧ s = t ++ rest ∧ (Utf8.encode t).length = k := by
  obtain ⟨k, hk, hsome, hbound, -⟩ :=
    Utf8.boundary?_spec (Utf8.encode s) (min (Utf8.encode s).length n)
  obtain ⟨t, rest, hs, htake, hlen⟩ := Utf8.split_of_boundary hbound (by omega)
  refine ⟨k, hsome, by omega, t, rest, ?_, hs, hlen⟩
  unfold cut?
  dsimp only
  rw [hsome, Option.bind_some, htake, Utf8.decode?_encode]

/-- The usable text is a beginning of the trimmed one. -/
theorem sanitizeChars_spec (s : List Char) : ∃ rest, trimmed s = sanitizeChars s ++ rest
    ∧ (Utf8.encode (sanitizeChars s)).length ≤ maxLength := by
  obtain ⟨k, -, hk, t, rest, hcut, hs, hlen⟩ := cut?_spec maxLength (trimmed s)
  refine ⟨rest, ?_, ?_⟩
  · rwa [sanitizeChars, hcut]
  · rwa [sanitizeChars, hcut, Option.getD_some, hlen]

-- ================================================================ safety

/-- A text that is safe as a single component of a path. -/
structure IsSafe (s : List Char) : Prop where
  /-- It is a name, -/
  nonempty : s ≠ []
  /-- which does not stand for a directory, -/
  not_dots : s ≠ ['.'] ∧ s ≠ ['.', '.']
  /-- starts with neither a dot nor an underscore, -/
  start : ∀ c ∈ s.head?, c ≠ '.' ∧ c ≠ '_'
  /-- has no separator, no blank and no control in it, -/
  plain : ∀ c ∈ s, c ≠ '/' ∧ c ≠ '\\' ∧ c ≠ '\x00' ∧ c ≠ ' ' ∧ c ≠ '\t' ∧ isControl c = false
  /-- and no two underscores in a row, -/
  single : ¬ ['_', '_'] <:+: s
  /-- is as short as the system wants names to be, -/
  short : (Utf8.encode s).length ≤ 255
  /-- and is text. -/
  readable : Utf8.decode? (Utf8.encode s) = some s

/-- Its first character rules out the dots. -/
theorem not_dots_of_start {s : List Char} (h : ∀ c ∈ s.head?, c ≠ '.' ∧ c ≠ '_') :
    s ≠ ['.'] ∧ s ≠ ['.', '.'] := by
  refine ⟨?_, ?_⟩
  · rintro rfl
    exact (h '.' rfl).1 rfl
  · rintro rfl
    exact (h '.' rfl).1 rfl

/-- What may stand in a file name in place: no slash of either kind, no blank and no control. -/
theorem not_separator_iff {c : Char} : isSeparator c = false ↔
    c ≠ '/' ∧ c ≠ '\\' ∧ c ≠ '\x00' ∧ c ≠ ' ' ∧ c ≠ '\t' ∧ isControl c = false := by
  unfold isSeparator
  simp only [Bool.or_eq_false_iff, decide_eq_false_iff_not, List.mem_cons, List.not_mem_nil,
    or_false, not_or]
  tauto

/-- A usable text that is not empty is safe. -/
theorem sanitizeChars_safe {s : List Char} (h : sanitizeChars s ≠ []) :
    IsSafe (sanitizeChars s) := by
  obtain ⟨rest, htrimmed, hlen⟩ := sanitizeChars_spec s
  have hpart : sanitizeChars s <:+: collapse false s :=
    List.IsInfix.trans ⟨[], rest, htrimmed.symm⟩ (trimMatches_part isEdge _)
  have hstart : ∀ c ∈ (sanitizeChars s).head?, c ≠ '.' ∧ c ≠ '_' := by
    intro c hc
    have hhead : (trimmed s).head? = some c := by
      rw [htrimmed, List.head?_append, hc, Option.some_or]
    simpa [isEdge] using head?_trimMatches hhead
  exact {
    nonempty := h
    not_dots := not_dots_of_start hstart
    start := hstart
    plain := fun c hc => not_separator_iff.1 (collapse_plain (hpart.subset hc))
    single := fun hrun => collapse_single false s (hrun.trans hpart)
    short := hlen
    readable := Utf8.decode?_encode _ }

/-- The file name for want of a better one is usable as it is. -/
theorem default_safe : IsSafe default.toList := by
  have hkept : sanitizeChars default.toList = default.toList := by decide +kernel
  have hempty : default.toList ≠ [] := by decide +kernel
  rw [← hkept] at hempty ⊢
  exact sanitizeChars_safe hempty

/-- The name that is derived is safe in a directory. -/
theorem ofName_safe (n : Name) : IsSafe (ofName n).toList := by
  unfold ofName
  cases ofUrl? n.url with
  | none => exact default_safe
  | some raw =>
      dsimp only
      by_cases h : ((sanitizeChars raw.toList).isEmpty || isDots (sanitizeChars raw.toList)) = true
      · rw [if_pos h]
        exact default_safe
      · rw [if_neg h, String.toList_ofList]
        simp only [Bool.or_eq_true, not_or, List.isEmpty_iff] at h
        exact sanitizeChars_safe h.1

/-- A last part of a path that is usable as it is, and not encoded, is the name. -/
theorem ofName_kept {n : Name} {s : List Char} (hlast : n.url.lastSegment? = some s)
    (hplain : '%' ∉ s) (hne : s ≠ []) (hkept : sanitizeChars s = s) :
    ofName n = String.ofList s := by
  have hdots : isDots s = false := by
    rw [← hkept] at hne ⊢
    have hsafe := sanitizeChars_safe hne
    unfold isDots
    rw [Bool.or_eq_false_iff, decide_eq_false_iff_not, decide_eq_false_iff_not]
    exact hsafe.not_dots
  have hfound : ofUrl? n.url = some (String.ofList s) := by
    unfold ofUrl?
    rw [hlast]
    dsimp only
    rw [Url.decodeLossy_plain hplain, if_neg (by simp [hne, hdots])]
  unfold ofName
  rw [hfound]
  dsimp only
  rw [String.toList_ofList, hkept, if_neg (by simp [hne, hdots])]

-- ============================================================= the place

/-- How a path stands to the directory that it was made for: right below it, under a name. -/
structure StandsIn (p dir : FilePath) (name : Bytes) : Prop where
  /-- The path above is the directory, without what does not count at its end. -/
  parent : p.parent? = some (trimEnd dir)
  /-- Its end is the name, -/
  leaf : FilePath.leaf p = name
  /-- and nothing else is added to the directory. -/
  components : p.components = dir.components ++ [name]

theorem slash_not_mem {s : List Char} (h : '/' ∉ s) : slash ∉ Utf8.encode s :=
  fun hmem => h (Utf8.mem_of_mem_encode (by decide) hmem)

/-- What a component is put behind. -/
theorem relativeTo_eq {name : Bytes} (hname : slash ∉ name) (dir : FilePath) :
    ∃ f, relativeTo name dir = f ++ name ∧ IsFront f ∧ trimEnd f = trimEnd dir
      ∧ (f = dir ∨ f = dir ++ [slash]) := by
  have habs : isAbsolute name = false := by
    cases name with
    | nil => rfl
    | cons b s =>
        have hne : b ≠ slash := fun h => hname (h ▸ List.mem_cons_self ..)
        simpa [isAbsolute] using hne
  unfold relativeTo
  rw [habs, Bool.false_or]
  by_cases hdir : dir.isEmpty = true
  · rw [if_pos hdir, List.isEmpty_iff.1 hdir]
    exact ⟨[], rfl, .inl rfl, rfl, .inl rfl⟩
  · rw [if_neg hdir]
    by_cases hlast : dir.getLast? = some slash
    · rw [if_pos hlast]
      obtain ⟨g, hg⟩ := List.getLast?_eq_some_iff.1 hlast
      exact ⟨dir, rfl, .inr ⟨g, hg⟩, rfl, .inl rfl⟩
    · rw [if_neg hlast]
      refine ⟨dir ++ [slash], by simp, .inr ⟨dir, rfl⟩, ?_, .inr rfl⟩
      obtain ⟨b, r, hr⟩ : ∃ b r, dir.reverse = b :: r := by
        cases hrev : dir.reverse with
        | nil => simp [List.reverse_eq_nil_iff.1 hrev] at hdir
        | cons b r => exact ⟨b, r, rfl⟩
      unfold trimEnd
      rw [List.reverse_append, List.reverse_singleton, List.singleton_append, hr, trimEnd.go,
        if_pos rfl]

/-- A safe component can be the name of an entry. -/
theorem IsSafe.isEntryName {s : List Char} (h : IsSafe s) :
    FileSystem.IsEntryName (Utf8.encode s) where
  nonempty := by
    intro hnil
    have hread := h.readable
    rw [hnil, Utf8.decode?_nil] at hread
    exact h.nonempty (Option.some.inj hread).symm
  not_dot := by
    intro heq
    have hread := h.readable
    rw [heq, show FileSystem.dot = [0x2e] from rfl, Utf8.decode?_ascii (by decide),
      Utf8.decode?_nil] at hread
    exact h.not_dots.1 (Option.some.inj hread).symm
  not_dots := by
    intro heq
    have hread := h.readable
    rw [heq, show FileSystem.dotDot = [0x2e, 0x2e] from rfl, Utf8.decode?_ascii (by decide),
      Utf8.decode?_ascii (by decide), Utf8.decode?_nil] at hread
    exact h.not_dots.2 (Option.some.inj hread).symm
  slash := slash_not_mem fun hmem => (h.plain '/' hmem).1 rfl
  zero := fun hmem => (h.plain '\x00' (Utf8.mem_of_mem_encode (by decide) hmem)).2.2.1 rfl

/-- What can be the name of an entry stands right below the directory it is put into. -/
theorem standsIn_of_entryName {name : Bytes} (h : FileSystem.IsEntryName name) (dir : FilePath) :
    StandsIn (relativeTo name dir) dir name := by
  obtain ⟨hempty, (hdot : name ≠ [0x2e]), -, hslash, -⟩ := h
  obtain ⟨f, hf, hfront, htrim, -⟩ := relativeTo_eq hslash dir
  have hleaf : leaf (f ++ name) = name := leaf_append hfront hslash
  have hkept : trimEnd (f ++ name) = f ++ name :=
    trimEnd_eq (by rwa [hleaf]) (by rwa [hleaf])
  have hcounts : [name].filter (fun c => !c.isEmpty && c ≠ [0x2e]) = [name] := by
    simp [hempty, hdot]
  rw [hf]
  refine ⟨?_, hleaf, ?_⟩
  · have hroot : f ++ name ≠ [slash] := by
      intro heq
      rw [heq] at hleaf
      exact hempty (hleaf.symm.trans (by decide))
    have hfrontOf : (List.dropWhile (· ≠ slash) (f ++ name).reverse).reverse = f :=
      front_append hfront hslash
    unfold parent?
    dsimp only
    rw [hkept, if_neg (by simp [hempty, hroot]), hfrontOf, htrim]
  · rw [components_append hfront hslash, hcounts, ← components_trimEnd f, htrim,
      components_trimEnd]

/-- A safe component stands right below the directory it is put into. -/
theorem IsSafe.standsIn {s : List Char} (h : IsSafe s) (dir : FilePath) :
    StandsIn (relativeTo (Utf8.encode s) dir) dir (Utf8.encode s) :=
  standsIn_of_entryName h.isEntryName dir

/-- The file name of any resource is one safe component of a path, which stands right below the
directory it is put into. The search for the place to cut a text at ends at a boundary, at the
latest at the beginning, and leaves a beginning of the trimmed text. -/
theorem fileName_safe :
    (∀ n : Name, IsSafe (ofName n).toList
      ∧ ∀ dir, StandsIn (relativeTo (bytesOf (ofName n)) dir) dir (bytesOf (ofName n)))
    ∧ ∀ s : String, ∃ k,
        Utf8.boundary? (Utf8.encode (trimmed s.toList))
            (min (Utf8.encode (trimmed s.toList)).length 255) = some k
          ∧ k ≤ 255 ∧ (sanitize s).toList <+: trimmed s.toList
          ∧ (bytesOf (sanitize s)).length = k := by
  refine ⟨fun n => ⟨ofName_safe n, (ofName_safe n).standsIn⟩, fun s => ?_⟩
  obtain ⟨k, hsearch, hk, t, rest, hcut, hs, hlen⟩ := cut?_spec maxLength (trimmed s.toList)
  have hchars : (sanitize s).toList = t := by
    rw [sanitize, String.toList_ofList, sanitizeChars, hcut, Option.getD_some]
  refine ⟨k, hsearch, hk, ?_, ?_⟩
  · rw [hchars]
    exact ⟨rest, hs.symm⟩
  · rw [bytesOf, hchars, hlen]

-- ================================================= usable once more

/-- A character that may stand at an end of a file name. -/
def MayEnd (c : Char) : Prop := c ≠ '.' ∧ c ≠ ' ' ∧ c ≠ '_'

/-- A text with no dot, space or underscore at its ends. -/
structure IsTrimmed (s : List Char) : Prop where
  start : ∀ c ∈ s.head?, MayEnd c
  finish : ∀ c ∈ s.getLast?, MayEnd c

/-- Where there is no separator and no run of underscores, nothing runs together. -/
theorem collapse_self {after : Bool} {s : List Char} (hplain : ∀ c ∈ s, isSeparator c = false)
    (hsingle : ¬ ['_', '_'] <:+: s) (hstart : after = true → s.head? ≠ some '_') :
    collapse after s = s := by
  induction s generalizing after with
  | nil => rfl
  | cons c s ih =>
      have hrest : ∀ d ∈ s, isSeparator d = false :=
        fun d hd => hplain d (List.mem_cons_of_mem _ hd)
      have htail : ¬ ['_', '_'] <:+: s := fun h => hsingle (List.infix_cons h)
      rw [collapse]
      by_cases hline : c = '_'
      · subst hline
        have hnext : s.head? ≠ some '_' := by
          intro hhead
          obtain ⟨rest, rfl⟩ := List.head?_eq_some_iff.1 hhead
          exact hsingle ⟨[], rest, rfl⟩
        cases after with
        | true => exact absurd rfl (hstart rfl)
        | false =>
            rw [if_pos (by simp), if_neg Bool.false_ne_true, ih hrest htail fun _ => hnext]
      · have hkept : ¬(isSeparator c || c = '_') = true := by
          simp [hplain c List.mem_cons_self, hline]
        rw [if_neg hkept, ih hrest htail fun h => absurd h Bool.false_ne_true]

/-- A text is cut where a cut is wanted, if that is inside no character. -/
theorem cut?_at {n : Nat} {s t : List Char}
    (hbound : Utf8.isBoundary (Utf8.encode s) (min (Utf8.encode s).length n) = true)
    (ht : (Utf8.encode s).take (min (Utf8.encode s).length n) = Utf8.encode t) :
    cut? n s = some t := by
  have hfound : Utf8.boundary? (Utf8.encode s) (min (Utf8.encode s).length n)
      = some (min (Utf8.encode s).length n) := by
    cases hplace : min (Utf8.encode s).length n with
    | zero => rw [Utf8.boundary?, if_pos (hplace ▸ hbound)]
    | succ k => rw [Utf8.boundary?, if_pos (hplace ▸ hbound)]
  unfold cut?
  dsimp only
  rw [hfound, Option.bind_some, ht, Utf8.decode?_encode]

/-- A text that fits is not cut. -/
theorem cut?_self {n : Nat} {s : List Char} (h : (Utf8.encode s).length ≤ n) :
    cut? n s = some s := by
  apply cut?_at
  · rw [Nat.min_eq_left h]
    simp [Utf8.isBoundary]
  · rw [Nat.min_eq_left h, List.take_length]

/-- A text of ASCII is cut anywhere. -/
theorem cut?_ascii {s : List Char} (h : ∀ c ∈ s, c.toNat < 0x80) (n : Nat) :
    cut? n s = some (s.take n) := by
  have htake : ∀ c ∈ s.take n, c.toNat < 0x80 := fun c hc => h c (List.mem_of_mem_take hc)
  apply cut?_at
  · have hbytes : ∀ b ∈ Utf8.encode s, b < 0x80 := by
      intro b hb
      rw [Utf8.encode_ascii h, List.mem_map] at hb
      obtain ⟨c, hc, rfl⟩ := hb
      have hlow := h c hc
      rw [UInt8.lt_iff_toNat_lt, Utf8.toNat_ofNat (by omega)]
      exact hlow
    unfold Utf8.isBoundary
    cases hget : (Utf8.encode s)[min (Utf8.encode s).length n]? with
    | none =>
        have hlen := List.getElem?_eq_none_iff.1 hget
        simp only [Bool.or_eq_true, decide_eq_true_eq]
        omega
    | some b =>
        simp [hbytes b (List.mem_of_getElem? hget)]
  · rw [Utf8.encode_ascii h, Utf8.encode_ascii htake, List.length_map, List.map_take,
      List.take_eq_take_iff, List.length_map]
    omega

theorem sanitizeChars_of_short {s : List Char}
    (h : (Utf8.encode (trimmed s)).length ≤ maxLength) : sanitizeChars s = trimmed s := by
  rw [sanitizeChars, cut?_self h, Option.getD_some]

/-- Of a safe text only dots and underscores at its end are trimmed. -/
theorem IsSafe.trimmed_eq {s : List Char} (h : IsSafe s) : trimmed s = s.rdropWhile isEdge := by
  have hcollapse : collapse false s = s :=
    collapse_self (fun c hc => not_separator_iff.2 (h.plain c hc)) h.single
      fun hafter => absurd hafter Bool.false_ne_true
  have hhead : s.dropWhile isEdge = s := by
    cases s with
    | nil => rfl
    | cons c s =>
        have hc := h.start c rfl
        rw [List.dropWhile_cons_of_neg (by simp [isEdge, hc])]
  rw [trimmed, hcollapse, trimMatches, hhead, List.rdropWhile]

/-- Made usable once more, a text loses the dots and underscores at its end. -/
theorem sanitizeChars_again (s : List Char) :
    sanitizeChars (sanitizeChars s) = (sanitizeChars s).rdropWhile isEdge := by
  by_cases hempty : sanitizeChars s = []
  · rw [hempty, List.rdropWhile_nil]
    exact sanitizeChars_of_short (Nat.zero_le _)
  · have hsafe := sanitizeChars_safe hempty
    have htrimmed := hsafe.trimmed_eq
    obtain ⟨rest, hrest⟩ := List.rdropWhile_prefix isEdge (l := sanitizeChars s)
    have hshort : (Utf8.encode (trimmed (sanitizeChars s))).length ≤ maxLength := by
      have hlen := hsafe.short
      rw [htrimmed]
      rw [← hrest, Utf8.encode_append, List.length_append] at hlen
      exact Nat.le_trans (Nat.le_add_right ..) hlen
    rw [sanitizeChars_of_short hshort, htrimmed]

theorem not_isEdge_iff {c : Char} : isEdge c = false ↔ c ≠ '.' ∧ c ≠ '_' := by
  simp [isEdge]

/-- A usable text has no space, so its ends are trimmed if its last character is no edge. -/
theorem isTrimmed_sanitizeChars_iff (s : List Char) : IsTrimmed (sanitizeChars s)
    ↔ ∀ hne : sanitizeChars s ≠ [], ¬isEdge ((sanitizeChars s).getLast hne) = true := by
  constructor
  · intro h hne
    have hlast := h.finish _ (List.getLast?_eq_some_getLast hne)
    rw [Bool.not_eq_true, not_isEdge_iff]
    exact ⟨hlast.1, hlast.2.2⟩
  · intro h
    by_cases hempty : sanitizeChars s = []
    · constructor
      · simp [hempty]
      · simp [hempty]
    · have hsafe := sanitizeChars_safe hempty
      have hspace : ∀ c ∈ sanitizeChars s, c ≠ ' ' := fun c hc => (hsafe.plain c hc).2.2.2.1
      constructor
      · intro c hc
        obtain ⟨hdot, hline⟩ := hsafe.start c hc
        exact ⟨hdot, hspace c (List.mem_of_mem_head? hc), hline⟩
      · intro c hc
        rw [List.getLast?_eq_some_getLast hempty, Option.mem_some_iff] at hc
        obtain ⟨hdot, hline⟩ := not_isEdge_iff.1 (Bool.not_eq_true _ ▸ h hempty)
        rw [← hc]
        exact ⟨hdot, hspace _ (List.getLast_mem hempty), hline⟩

/-- Ends are trimmed exactly if making the text usable once more changes nothing. -/
theorem sanitizeChars_eq_iff (s : List Char) :
    sanitizeChars (sanitizeChars s) = sanitizeChars s ↔ IsTrimmed (sanitizeChars s) := by
  rw [sanitizeChars_again, List.rdropWhile_eq_self_iff, isTrimmed_sanitizeChars_iff]

/-- What fits is trimmed when it has been made usable. -/
theorem isTrimmed_of_short {s : List Char} (h : (Utf8.encode (trimmed s)).length ≤ maxLength) :
    IsTrimmed (sanitizeChars s) := by
  rw [← sanitizeChars_eq_iff, sanitizeChars_again, sanitizeChars_of_short h, trimmed]
  exact List.rdropWhile_idempotent isEdge _

/-- What becomes of a text that is made usable once more. -/
structure Settles (s : String) : Prop where
  /-- A usable text starts with no dot, space or underscore. -/
  start : ∀ c ∈ (sanitize s).toList.head?, MayEnd c
  /-- If nothing has been cut off, it ends with none either, and stays as it is. -/
  whole : (Utf8.encode (trimmed s.toList)).length ≤ 255 →
    IsTrimmed (sanitize s).toList ∧ sanitize (sanitize s) = sanitize s
  /-- However it has been cut, it stays as it is exactly if its ends are trimmed. -/
  same : sanitize (sanitize s) = sanitize s ↔ IsTrimmed (sanitize s).toList
  /-- What it loses otherwise are the dots and underscores at its end, -/
  again : (sanitize (sanitize s)).toList = (sanitize s).toList.rdropWhile isEdge
  /-- and then it is trimmed and stays as it is. -/
  settled : IsTrimmed (sanitize (sanitize s)).toList
    ∧ sanitize (sanitize (sanitize s)) = sanitize (sanitize s)

/-- A usable text is trimmed and stays as it is when it is made usable once more, unless it has
been cut behind a dot or an underscore; it then loses these, and nothing else, the second time. -/
theorem sanitize_settles (s : String) : Settles s := by
  have hchars : ∀ t : String, (sanitize t).toList = sanitizeChars t.toList :=
    fun t => String.toList_ofList
  have hsame : ∀ t : String, sanitize (sanitize t) = sanitize t
      ↔ IsTrimmed (sanitize t).toList := by
    intro t
    rw [← String.toList_inj, hchars, hchars]
    exact sanitizeChars_eq_iff t.toList
  -- The second time only what the cut has uncovered at the end goes, so the third time changes
  -- nothing.
  have hagain : (sanitize (sanitize s)).toList = (sanitize s).toList.rdropWhile isEdge := by
    rw [hchars, hchars]
    exact sanitizeChars_again s.toList
  have hsettled : sanitize (sanitize (sanitize s)) = sanitize (sanitize s) := by
    rw [← String.toList_inj, hchars (sanitize (sanitize s)), hchars (sanitize s),
      sanitizeChars_again, ← hchars (sanitize s), hagain, List.rdropWhile_idempotent]
  refine ⟨?_, ?_, hsame s, hagain, (hsame _).1 hsettled, hsettled⟩
  · intro c hc
    rw [hchars] at hc
    have hne : sanitizeChars s.toList ≠ [] := by
      intro hnil
      rw [hnil] at hc
      cases hc
    have hsafe := sanitizeChars_safe hne
    obtain ⟨hdot, hline⟩ := hsafe.start c hc
    exact ⟨hdot, (hsafe.plain c (List.mem_of_mem_head? hc)).2.2.2.1, hline⟩
  · intro hshort
    have htrimmed : IsTrimmed (sanitize s).toList := hchars s ▸ isTrimmed_of_short hshort
    exact ⟨htrimmed, (hsame s).2 htrimmed⟩

/-- A text of 256 bytes that is cut behind its underscore. -/
theorem sanitize_cut_at_line :
    let s := String.ofList (List.replicate 254 'a' ++ ['_', 'b'])
    (sanitize s).toList.getLast? = some '_' ∧ sanitize (sanitize s) ≠ sanitize s := by
  intro s
  have htrimmed : trimmed s.toList = List.replicate 254 'a' ++ ['_', 'b'] := by
    rw [String.toList_ofList]
    decide +kernel
  have hascii : ∀ c ∈ List.replicate 254 'a' ++ ['_', 'b'], c.toNat < 0x80 := by
    intro c hc
    rcases List.mem_append.1 hc with hrun | htail
    · rw [List.eq_of_mem_replicate hrun]
      decide
    · simp only [List.mem_cons, List.not_mem_nil, or_false] at htail
      rcases htail with rfl | rfl
      · decide
      · decide
  have hcut : sanitizeChars s.toList = List.replicate 254 'a' ++ ['_'] := by
    rw [sanitizeChars, htrimmed, cut?_ascii hascii]
    decide +kernel
  have hlast : (sanitizeChars s.toList).getLast? = some '_' := by
    rw [hcut, List.getLast?_concat]
  refine ⟨by rw [sanitize, String.toList_ofList, hlast], fun hsame => ?_⟩
  rw [← String.toList_inj] at hsame
  simp only [sanitize, String.toList_ofList] at hsame
  exact (((sanitizeChars_eq_iff _).1 hsame).finish '_' hlast).2.2 rfl

end TracedTransfer.Resource.Filename
