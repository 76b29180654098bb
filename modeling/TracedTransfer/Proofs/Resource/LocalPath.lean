/-
A local path names itself.

A path becomes a URL and that becomes a path again, both for a resource
that is made from a path and for an argument that is one. What comes back
is the path spelled by its components (`readBack`), so the location tells
apart what the components tell apart, and a file that the path leads to is
read.

A path that ends in a letter and a colon or a bar is the exception: to the
reader of URLs that is a drive, which gets a slash at its end. Such a path
still leads to directories, but to no file (`drive_is_no_file`).
-/
import Mathlib
import TracedTransfer.Command.Target
import TracedTransfer.Proofs.Resource.FilePut
import TracedTransfer.Proofs.Resource.Transport
import TracedTransfer.Proofs.Url.FilePath

namespace TracedTransfer.Resource

open Text FileSystem FilePath

variable {p : FilePath}

-- ============================================================== spelling

/-- Where a path leads, what is read back leads, unless it ends like a drive. -/
theorem resolve_readBack {fs : FileSystem} {i : Id} (habsolute : p.isAbsolute = true)
    (hdrive : Url.endsInDriveLetter p.spelling = false) (h : fs.resolve p = .ok i) :
    fs.resolve p.readBack = .ok i := by
  rw [readBack, if_neg (by rw [hdrive]; exact Bool.false_ne_true)]
  exact resolve_spelling habsolute h

/-- What ends in a slash leads to no file. -/
theorem drive_is_no_file {fs : FileSystem} (hfs : Proper fs)
    (hdrive : Url.endsInDriveLetter p.spelling = true) (bytes : Bytes) :
    fs.look p.readBack ≠ .ok (some bytes) := by
  intro hlook
  rw [readBack, if_pos hdrive] at hlook
  unfold look at hlook
  cases hr : fs.resolve (p.spelling ++ [slash]) with
  | error e =>
      rw [hr] at hlook
      dsimp only at hlook
      split at hlook
      · cases hlook
      · cases hlook
  | ok i =>
      rw [hr] at hlook
      dsimp only at hlook
      have hi : fs.isDirectory i = false := by
        rw [Bool.eq_false_iff]
        intro hdir
        rw [file?_of_directory hdir] at hlook
        cases hlook
      refine (locate_of_resolve hfs hr hi).1 ?_
      have hleaf := leaf_append (.inr ⟨p.spelling, rfl⟩) (List.not_mem_nil (a := slash))
      rwa [List.append_nil] at hleaf

-- ================================================================= names

/-- The resource of the URL of a path. -/
def localResource (p : FilePath) : FileResource :=
  ⟨⟨Url.ofPathComponents p.components⟩, p.readBack⟩

/-- The name of a resource that is made of a path is that of a file, at that path. -/
theorem ofName_localResource (p : FilePath) :
    FileResource.ofName (localResource p).name = .ok (localResource p) := by
  unfold FileResource.ofName
  rw [show (localResource p).name.url.filePath? = _ from Url.filePath?_ofPathComponents p]
  rfl

/-- The resource at an absolute path. -/
theorem ofPath_absolute (directory : Option FilePath) (h : p.isAbsolute = true) :
    FileResource.ofPath directory p = .ok (localResource p) := by
  unfold FileResource.ofPath
  dsimp only
  rw [if_pos h]
  dsimp only
  rw [Url.ofFilePath_eq h]
  exact ofName_localResource p

/-- An argument that is an absolute path begins with a slash. -/
theorem head?_of_isAbsolute {s : String} (h : isAbsolute (bytesOf s) = true) :
    s.toList.head? = some '/' := by
  have hbytes := of_decide_eq_true h
  unfold bytesOf at hbytes
  generalize s.toList = text at hbytes ⊢
  cases text with
  | nil => cases hbytes
  | cons c text =>
      rw [Utf8.encode_cons] at hbytes
      rcases Utf8.encodeChar_cases c with ⟨hascii, hc⟩ | ⟨-, b, bs, hc, hb, -⟩
      · rw [hc] at hbytes
        have hbyte : (UInt8.ofNat c.toNat).toNat = slash.toNat :=
          congrArg UInt8.toNat (Option.some.inj hbytes)
        rw [Utf8.toNat_ofNat (by omega)] at hbyte
        rw [← Char.ofNat_toNat c, hbyte]
        rfl
      · -- No character of more bytes begins with a slash.
        rw [hc] at hbytes
        rw [Option.some.inj hbytes] at hb
        exact absurd hb (by decide)

/-- What an argument that is an absolute path means. -/
theorem target_absolute (directory : Option FilePath) {s : String}
    (h : isAbsolute (bytesOf s) = true) :
    Command.target directory s = .ok (localResource (bytesOf s)).name := by
  unfold Command.target Command.targetUrl? Command.targetPath
  rw [Url.parse_slash (head?_of_isAbsolute h)]
  dsimp only
  rw [if_pos h]
  dsimp only
  rw [Url.ofFilePath_eq h]
  rfl

-- ==================================================== the main statement

/-- A resource stands for an absolute path. -/
structure StandsFor (directory : Option FilePath) (p : FilePath) (r : FileResource) : Prop where
  /-- The resource is made of the path. -/
  made : FileResource.ofPath directory p = .ok r
  /-- As an argument, the path comes to the same resource. -/
  meant : ∀ s, bytesOf s = p → ∀ options, ∃ n, Command.target directory s = .ok n
    ∧ connect options n = .ok (.file r)
  /-- Its path is spelled by the components, with a slash behind what looks like a drive. -/
  path : r.path = ofComponents p.components
    ++ if Url.endsInDriveLetter (ofComponents p.components) then [slash] else []
  /-- Locations tell components apart. -/
  location : ∀ q r', q.isAbsolute = true → FileResource.ofPath directory q = .ok r' →
    (r'.name.location = r.name.location ↔ q.components = p.components)
  /-- The file that the path leads to is the one that is read. -/
  reads : Url.endsInDriveLetter (ofComponents p.components) = false →
    ∀ m i bytes, m.files.resolve p = .ok i → m.files.file? i = some bytes →
      m.files.resolve r.path = .ok i ∧ r.Shows m bytes
  /-- Behind what looks like a drive there is no file to be read. -/
  drive : Url.endsInDriveLetter (ofComponents p.components) = true →
    ∀ m, Proper m.files → ∀ bytes, ¬r.Shows m bytes

/-- Every absolute path has a resource that stands for it. -/
theorem resource_of_path (directory : Option FilePath) (h : p.isAbsolute = true) :
    ∃ r, StandsFor directory p r := by
  refine ⟨localResource p, ofPath_absolute directory h, ?_, ?_, ?_, ?_, ?_⟩
  · rintro s rfl options
    exact ⟨_, target_absolute directory h,
      (connect_file _ _ _).2 ⟨rfl, ofName_localResource _⟩⟩
  · show p.readBack = _
    unfold readBack spelling
    split
    · rfl
    · exact (List.append_nil _).symm
  · intro q r' hq hr'
    rw [ofPath_absolute directory hq] at hr'
    cases hr'
    refine ⟨Url.text_ofPathComponents_inj, fun hcomponents => ?_⟩
    show (Url.ofPathComponents q.components).text = (Url.ofPathComponents p.components).text
    rw [hcomponents]
  -- A path read back takes the same steps, so it leads to the same file.
  · intro hdrive m i bytes hresolve hfile
    have hback := resolve_readBack h hdrive hresolve
    refine ⟨hback, (FileResource.shows_iff _).2 ?_⟩
    show m.files.look p.readBack = _
    unfold look
    rw [hback]
    exact congrArg Except.ok hfile
  · intro hdrive m hproper bytes hshows
    exact drive_is_no_file hproper hdrive bytes ((FileResource.shows_iff _).1 hshows)

-- ============================================================ examples

/-- A directory with a file whose name is not shown bare, and one whose name ends like a drive. -/
def oddFiles : FileSystem where
  nodes := [.directory [(bytesOf "srv", 1)],
    .directory [(bytesOf "100%?", 2), (bytesOf "c:", 3)],
    .file (bytesOf "odd"), .file (bytesOf "drive")]
  workingDirectory := []

/-- A path with what URLs would take for a host, a dot, an escape and a query. -/
theorem resource_of_odd_path : isAbsolute (bytesOf "//srv/./100%?") = true
    ∧ ∃ r, StandsFor none (bytesOf "//srv/./100%?") r ∧ r.path = bytesOf "/srv/100%?"
      ∧ r.Shows (.initial oddFiles .default) (bytesOf "odd") := by
  have habsolute : isAbsolute (bytesOf "//srv/./100%?") = true := by decide
  obtain ⟨r, hr⟩ := resource_of_path none habsolute
  refine ⟨habsolute, r, hr, ?_, ?_⟩
  · rw [hr.path]
    decide
  · exact (hr.reads (by decide) _ 2 _ (by cbv) (by cbv)).2

/-- A file whose name ends in a letter and a colon is not read: the resource at its path has another
one, which asks for a directory. -/
theorem drive_gets_slash : ∃ r, FileResource.ofPath none (bytesOf "/srv/c:") = .ok r
    ∧ r.path = bytesOf "/srv/c:/"
    ∧ r.path ≠ ofComponents (components (bytesOf "/srv/c:"))
    ∧ oddFiles.look (bytesOf "/srv/c:") = .ok (some (bytesOf "drive"))
    ∧ ¬r.Shows (.initial oddFiles .default) (bytesOf "drive") := by
  refine ⟨localResource (bytesOf "/srv/c:"), ofPath_absolute none (by decide), by decide,
    by decide, by cbv, fun hshows => ?_⟩
  have hlook := (FileResource.shows_iff _).1 hshows
  have hnone : oddFiles.look (bytesOf "/srv/c:/") = .error (.system .notADirectory) := by cbv
  cases hnone.symm.trans hlook

end TracedTransfer.Resource
