/-
The path of a URL that was made from a path.

All that a URL cannot show bare in one segment is percent-encoded, the
percent sign too, so every component comes back byte for byte
(`segments_componentsPath`). What comes back of the path as a whole is its
spelling, with a slash behind a drive letter (`filePath?_ofFilePath`): a
drive names a directory to whoever reads the URL. Since the components can
be read off the URL, so can be which paths it stands for
(`ofFilePath_inj`).

A text that starts with a slash is no URL (`parse_slash`), so that the two
ways of naming a file do not get in each other's way.
-/
import TracedTransfer.Proofs.FileSystem.Spelling
import TracedTransfer.Proofs.Url.Percent
import TracedTransfer.Url.FilePath

namespace TracedTransfer

open Text

namespace FilePath

/-- The path that is read out of the URL of a path. -/
def readBack (p : FilePath) : FilePath :=
  if Url.endsInDriveLetter p.spelling then p.spelling ++ [slash] else p.spelling

/-- A path that is read back from a URL has the components that it had. -/
theorem components_readBack (p : FilePath) : p.readBack.components = p.components := by
  unfold readBack
  split
  · rw [components_append_slash, components_spelling]
  · exact components_spelling p

end FilePath

namespace Url

open FilePath

-- ============================================================= segments

/-- The path of a URL with given components. -/
def componentsPath (cs : List Bytes) : List Char :=
  let segments := cs.map (percentEncodeBytes EncodeSet.pathSegment)
  if segments.isEmpty then ['/'] else segments.flatMap ('/' :: ·)

/-- The segments of a path that is made from components denote them; the root has an empty one. -/
theorem segments_componentsPath (cs : List Bytes) :
    ∃ segments, (stripStart? ['/'] (componentsPath cs)).map (·.splitOn '/') = some segments
      ∧ segments.flatMap (fun s => slash :: percentDecode s) = ofComponents cs := by
  unfold componentsPath
  dsimp only
  cases cs with
  | nil =>
      refine ⟨[[]], rfl, ?_⟩
      show [slash :: percentDecode []].flatten = [slash]
      rw [percentDecode, Utf8.encode, List.flatMap_nil, percentDecodeBytes_plain List.not_mem_nil]
      rfl
  | cons c cs =>
      have hslash : ∀ s ∈ (c :: cs).map (percentEncodeBytes EncodeSet.pathSegment), '/' ∉ s := by
        intro s hs
        obtain ⟨component, -, rfl⟩ := List.mem_map.1 hs
        exact not_mem_percentEncodeBytes (by decide) (by decide) component
      have hsplit := splitOn_flatMap hslash
      rw [List.map_cons, List.flatMap_cons, List.cons_append, ← List.nil_append ('/' :: _),
        List.splitOn_append_cons_self, List.splitOn_nil] at hsplit
      refine ⟨(c :: cs).map (percentEncodeBytes EncodeSet.pathSegment),
        congrArg some (List.cons.inj hsplit).2, ?_⟩
      rw [List.flatMap_map]
      show _ = (c :: cs).flatMap (slash :: ·)
      exact List.flatMap_congr fun component _ => by
        rw [percentDecode_percentEncodeBytes (by decide)]

-- ================================================================ paths

/-- The URL of an absolute path, made from its components. -/
def ofPathComponents (cs : List Bytes) : Url :=
  ⟨"file".toList, some Authority.empty, componentsPath cs, none, none⟩

/-- A path becomes a URL by its components only. -/
theorem ofFilePath_eq {p : FilePath} (h : p.isAbsolute = true) :
    ofFilePath p = some (ofPathComponents p.components) := if_pos h

/-- The path of the URL of a path. -/
theorem filePath?_ofPathComponents (p : FilePath) :
    (ofPathComponents p.components).filePath? = some p.readBack := by
  obtain ⟨segments, hsegments, hbytes⟩ := segments_componentsPath p.components
  have hread : (ofPathComponents p.components).segments? = some segments := hsegments
  unfold filePath?
  rw [hread]
  dsimp only
  rw [hbytes]
  rfl

/-- URLs of paths that look the same are made from the same components. -/
theorem text_ofPathComponents_inj {p q : FilePath}
    (h : (ofPathComponents p.components).text = (ofPathComponents q.components).text) :
    p.components = q.components := by
  have hchars : (ofPathComponents p.components).chars = (ofPathComponents q.components).chars :=
    String.ofList_injective h
  have hpath : componentsPath p.components = componentsPath q.components := by
    have hfront : ∀ cs, (ofPathComponents cs).chars = "file://".toList ++ componentsPath cs :=
      fun cs => List.append_nil _
    rw [hfront, hfront] at hchars
    exact List.append_cancel_left hchars
  have hurl : ofPathComponents p.components = ofPathComponents q.components := by
    unfold ofPathComponents
    rw [hpath]
  have hback := filePath?_ofPathComponents p
  rw [hurl, filePath?_ofPathComponents] at hback
  rw [← components_readBack p, ← components_readBack q, Option.some.inj hback]

-- ======================================================== no URL at all

/-- Nothing is cleaned away in front of a slash. -/
theorem clean_slash (s : List Char) : ∃ t, clean ('/' :: s) = '/' :: t := by
  have hkept : ∀ t : List Char, ('/' :: t).dropWhile (fun c => c.toNat ≤ 0x20) = '/' :: t :=
    fun _ => rfl
  have htrim : ∃ t, trimMatches (fun c => c.toNat ≤ 0x20) ('/' :: s) = '/' :: t := by
    unfold trimMatches
    rw [hkept, List.reverse_cons, List.dropWhile_append]
    split
    · rw [hkept]
      exact ⟨[], rfl⟩
    · exact ⟨_, List.reverse_append⟩
  obtain ⟨t, ht⟩ := htrim
  unfold clean
  rw [ht]
  exact ⟨_, List.filter_cons_of_pos rfl⟩

/-- A text that starts with a slash is relative. -/
theorem parse_slash {s : String} (h : s.toList.head? = some '/') :
    parse s = .error .relativeWithoutBase := by
  obtain ⟨rest, hrest⟩ := List.head?_eq_some_iff.1 h
  obtain ⟨t, ht⟩ := clean_slash rest
  unfold parse read
  rw [hrest, ht]
  rfl

end Url

end TracedTransfer
