/-
Complete responses as they stand on the wire, and that they are read as
what they are.

The first half says what a server writes, without the reader: lines with
their line feeds, heads, chunks, the bodies that each framing allows, and
an answer, which is any number of interim heads and a final response
(`IsAnswer`). Reason phrases, header values and chunk extensions are any
bytes that keep to their line. A head that switches to another protocol
is never interim: nobody has asked for it, so what follows is taken for
the body.

The second half meets it from the side of the reader, layer by layer:
lines (`takeLines_written`), heads (`read_head`), chunks
(`chunksOnto_chunked`), bodies (`readBody_body`), and the whole
(`IsAnswer.read`). The recursion of the two readers of unbounded things,
chunks and interim heads, is on what is left of the bytes; the inductions
here are on how the bytes were written. What comes of a body that is read
whole is its content (`arrived_of_readBody`).
-/
import TracedTransfer.Http.Message
import TracedTransfer.Proofs.Text.Ascii

namespace TracedTransfer.Http

open Text

-- =============================================================== lines

/-- Lines with their line feeds. -/
def written (lines : List Bytes) : Bytes := lines.flatMap (· ++ [lineFeed])

/-- A line that says something: it does not end the lines it is among. -/
structure Filled (line : Bytes) : Prop where
  /-- It is one line, -/
  whole : lineFeed ∉ line
  /-- and the head does not end with it. -/
  goesOn : endsHead line = false

/-- The line that ends others. -/
structure Closing (line : Bytes) : Prop where
  /-- It is one line, -/
  whole : lineFeed ∉ line
  /-- with nothing in it but the end of a head. -/
  ends : endsHead line = true

-- =============================================================== heads

/-- Status lines: the version, three digits of which the first is not zero,
and anything. -/
inductive IsStatusLine : Bytes → Status → Prop where
  | mk {v a b c : UInt8} {minor x y z : Nat} {reason : Bytes}
      (version : digit? 2 v = some minor) (first : digit? 10 a = some x)
      (second : digit? 10 b = some y) (third : digit? 10 c = some z)
      (hundred : 0 < x) (whole : lineFeed ∉ reason) :
      IsStatusLine (bytesOf "HTTP/1." ++ v :: 0x20 :: a :: b :: c :: reason)
        ⟨minor, x * 100 + y * 10 + z⟩

/-- A header line with a name and a value. -/
structure IsField (line : Bytes) : Prop extends Filled line where
  /-- No byte of it is zero, -/
  noNul : (0 : UInt8) ∉ line
  /-- and its name ends in a colon. -/
  colon : (0x3a : UInt8) ∈ line

/-- A header line that goes on with the value of the line before it. -/
structure IsFolded (line : Bytes) : Prop extends Filled line where
  /-- No byte of it is zero, -/
  noNul : (0 : UInt8) ∉ line
  /-- and it starts with a blank. -/
  blank : line.head? = some 0x20 ∨ line.head? = some 0x09

/-- The header lines of a response. The first one cannot go on with another. -/
def AreHeaders : List Bytes → Prop
  | [] => True
  | first :: rest => IsField first ∧ ∀ line ∈ rest, IsField line ∨ IsFolded line

/-- A head with its closing line. -/
inductive IsHead : Bytes → Head → Prop where
  | mk {line closing : Bytes} {headers : List Bytes} {status : Status} :
      IsStatusLine line status → AreHeaders headers → Closing closing →
      IsHead (written (line :: headers) ++ written [closing]) ⟨status, line :: headers⟩

-- ============================================================== bodies

/-- The size line of a chunk: up to sixteen hexadecimal digits, and an
extension. -/
inductive IsSizeLine : Bytes → Nat → Prop where
  | mk {digits extension : Bytes} (filled : digits ≠ []) (few : digits.length ≤ 16)
      (hex : ∀ b ∈ digits, (digit? 16 b).isSome = true) (whole : lineFeed ∉ extension)
      (apart : ∀ b ∈ extension.head?, digit? 16 b = none) :
      IsSizeLine (digits ++ extension)
        (digits.foldl (fun n b => n * 16 + (digit? 16 b).getD 0) 0)

/-- A chunked body with its trailers, and what follows it. -/
inductive IsChunked : Bytes → Body → Prop where
  /-- A chunk of size zero is the end; trailers may follow it. -/
  | last {size closing rest : Bytes} {trailers : List Bytes} :
      IsSizeLine size 0 → (∀ line ∈ trailers, Filled line) → Closing closing →
      IsChunked (written [size] ++ (written trailers ++ written [closing] ++ rest))
        ⟨[], trailers⟩
  /-- A chunk has its size before it and the end of a line behind it. -/
  | chunk {size data returns rest : Bytes} {body : Body} (filled : data ≠ []) :
      IsSizeLine size data.length → (∀ b ∈ returns, b = carriageReturn) →
      IsChunked rest body →
      IsChunked (written [size] ++ (data ++ (written [returns] ++ rest)))
        ⟨data ++ body.content, body.trailers⟩

/-- A body in its framing, and what follows it. -/
inductive IsBody : Framing → Bytes → Body → Prop where
  /-- Where no body is, what follows the head is none. -/
  | noBody {rest : Bytes} : IsBody .noBody rest ⟨[], []⟩
  /-- A body may have its length in the head, -/
  | length {content rest : Bytes} :
      IsBody (.length content.length) (content ++ rest) ⟨content, []⟩
  /-- or go on until the server closes, -/
  | untilClose {content : Bytes} : IsBody .untilClose content ⟨content, []⟩
  /-- or come in chunks. -/
  | chunked {s : Bytes} {body : Body} : IsChunked s body → IsBody .chunked s body

-- ============================================================= answers

/-- What a server has to say to a request: the lines of its interim
responses, and its final response. -/
structure Answer where
  /-- The header lines of the interim heads. -/
  before : List Bytes
  /-- The final head, -/
  head : Head
  /-- and the body behind it. -/
  body : Body

/-- Any number of interim heads, and one complete response. Something must
follow a switch to another protocol. -/
inductive IsAnswer (wantsBody : Bool) : Bytes → Answer → Prop where
  /-- An interim head is passed over; its lines are kept. -/
  | interim {s rest : Bytes} {head : Head} {a : Answer} (early : head.isInterim = true) :
      IsHead s head → IsAnswer wantsBody rest a →
      IsAnswer wantsBody (s ++ rest) { a with before := head.lines ++ a.before }
  /-- The first head that is not interim is that of the answer. If it switches protocols nobody
  has asked for that, and what follows is the body. -/
  | final {s rest : Bytes} {head : Head} {framing : Framing} {body : Body}
      (late : head.isInterim = false) (goesOn : head.switches = true → rest ≠ [])
      (framed : head.framing wantsBody = .ok framing) :
      IsHead s head → IsBody framing rest body →
      IsAnswer wantsBody (s ++ rest) ⟨[], head, body⟩

-- ======================================================= lines are read

/-- Lines are written one after another. -/
theorem written_cons (line : Bytes) (lines : List Bytes) :
    written (line :: lines) = line ++ lineFeed :: written lines := by
  rw [written, List.flatMap_cons, List.append_assoc]
  rfl

/-- The rest of a line. -/
theorem linesOnto_line {line : Bytes} (h : lineFeed ∉ line) (read : List Bytes)
    (start rest : Bytes) : linesOnto read start (line ++ lineFeed :: rest)
      = if endsHead (start.reverse ++ line) then (read.reverse, some rest)
        else linesOnto ((start.reverse ++ line) :: read) [] rest := by
  induction line generalizing start with
  | nil =>
      rw [List.nil_append, linesOnto, if_pos rfl, List.append_nil]
  | cons b line ih =>
      rw [List.mem_cons, not_or] at h
      rw [List.cons_append, linesOnto, if_neg (Ne.symm h.1), ih h.2, List.reverse_cons,
        List.append_assoc]
      rfl

/-- Lines are read back, with what stands behind them left over. -/
theorem linesOnto_written {lines : List Bytes} (h : ∀ line ∈ lines, Filled line)
    (read : List Bytes) (rest : Bytes) :
    linesOnto read [] (written lines ++ rest) = linesOnto (lines.reverse ++ read) [] rest := by
  induction lines generalizing read with
  | nil => rfl
  | cons line lines ih =>
      have hline := h line (List.mem_cons_self ..)
      rw [written_cons, List.append_assoc, List.cons_append, linesOnto_line hline.whole,
        if_neg (by rw [List.reverse_nil, List.nil_append, hline.goesOn]; exact Bool.false_ne_true),
        ih fun l hl => h l (List.mem_cons_of_mem _ hl), List.reverse_cons, List.append_assoc]
      rfl

/-- Lines up to their closing one. -/
theorem takeLines_written {lines : List Bytes} {closing : Bytes}
    (h : ∀ line ∈ lines, Filled line) (hc : Closing closing) (rest : Bytes) :
    takeLines (written lines ++ written [closing] ++ rest) = (lines, some rest) := by
  have hends : endsHead (([] : Bytes).reverse ++ closing) = true := hc.ends
  rw [takeLines, List.append_assoc, linesOnto_written h, written_cons, List.append_assoc,
    List.cons_append, linesOnto_line hc.whole, if_pos hends, List.append_nil,
    List.reverse_reverse]
  rfl

-- ======================================================= heads are read

/-- A digit is no line feed. -/
theorem ne_lineFeed_of_digit {base : Nat} (hbase : base ≤ 16) {b : UInt8} {n : Nat}
    (h : digit? base b = some n) : lineFeed ≠ b := by
  rintro rfl
  have hnone : digit? base lineFeed = if 16 < base then some 16 else none := rfl
  rw [hnone, if_neg (Nat.not_lt.2 hbase)] at h
  cases h

/-- A status line is not empty, -/
theorem IsStatusLine.filled {line : Bytes} {status : Status} (h : IsStatusLine line status) :
    Filled line := by
  cases h with
  | @mk v a b c minor x y z reason version first second third hundred whole =>
      have hversion : lineFeed ∉ bytesOf "HTTP/1." := by decide
      refine ⟨?_, rfl⟩
      simp only [List.mem_append, List.mem_cons, not_or]
      exact ⟨hversion, ne_lineFeed_of_digit (by decide) version, by decide,
        ne_lineFeed_of_digit (by decide) first, ne_lineFeed_of_digit (by decide) second,
        ne_lineFeed_of_digit (by decide) third, whole⟩

/-- and is read as its status. -/
theorem IsStatusLine.parse {line : Bytes} {status : Status} (h : IsStatusLine line status) :
    Status.parse? line = some status := by
  cases h with
  | @mk v a b c minor x y z reason version first second third hundred whole =>
      have hbytes : bytesOf "HTTP/1." ++ v :: 0x20 :: a :: b :: c :: reason
          = 0x48 :: 0x54 :: 0x54 :: 0x50 :: 0x2f :: 0x31 :: 0x2e :: v :: 0x20 :: a :: b :: c
            :: reason := rfl
      rw [hbytes, Status.parse?]
      simp only [version, first, second, third, Option.bind_eq_bind, Option.bind_some]
      rfl

/-- A status is one of at least a hundred. -/
theorem IsStatusLine.hundred_le {line : Bytes} {status : Status} (h : IsStatusLine line status) :
    100 ≤ status.code := by
  cases h with
  | mk _ _ _ _ hundred _ =>
      dsimp only
      omega

/-- A field passes the check of head lines, -/
theorem IsField.check {line : Bytes} (h : IsField line) (first : Bool) :
    Head.checkLine first line = .ok () := by
  have hnul : line.contains 0 = false := by
    rw [List.contains_eq_mem, decide_eq_false_iff_not]
    exact h.noNul
  have hcolon : line.contains 0x3a = true := List.contains_iff_mem.2 h.colon
  rw [Head.checkLine, hnul, hcolon]
  simp only [Bool.false_eq_true, if_false, if_true, ite_self]

/-- a folded line does unless it is the first, -/
theorem IsFolded.check {line : Bytes} (h : IsFolded line) :
    Head.checkLine false line = .ok () := by
  have hnul : line.contains 0 = false := by
    rw [List.contains_eq_mem, decide_eq_false_iff_not]
    exact h.noNul
  have hblank : (!false && (line.head? = some 0x20 || line.head? = some 0x09)) = true := by
    simpa using h.blank
  rw [Head.checkLine, hnul, if_neg Bool.false_ne_true, if_pos hblank]

/-- and so do headers. -/
theorem AreHeaders.check {headers : List Bytes} (h : AreHeaders headers) :
    Head.checkLines headers = .ok () ∧ ∀ line ∈ headers, Filled line := by
  cases headers with
  | nil => exact ⟨rfl, fun _ hl => (List.not_mem_nil hl).elim⟩
  | cons first rest =>
      obtain ⟨hfirst, hrest⟩ := h
      constructor
      · rw [Head.checkLines, hfirst.check]
        show rest.forM (Head.checkLine false) = .ok ()
        clear hfirst
        induction rest with
        | nil => rfl
        | cons line rest ih =>
            have hline : Head.checkLine false line = .ok () := by
              rcases hrest line (List.mem_cons_self ..) with h | h
              · exact h.check false
              · exact h.check
            rw [List.forM, hline]
            exact ih fun l hl => hrest l (List.mem_cons_of_mem _ hl)
      · intro line hl
        rcases List.mem_cons.1 hl with rfl | hl
        · exact hfirst.toFilled
        · rcases hrest line hl with h | h
          · exact h.toFilled
          · exact h.toFilled

/-- A head is read back, whatever follows it. -/
theorem read_head {s : Bytes} {head : Head} (h : IsHead s head) (rest : Bytes) :
    Head.read (s ++ rest) = .ok (head, some rest) := by
  cases h with
  | @mk line closing headers status hstatus hheaders hclosing =>
      have hfilled : ∀ l ∈ line :: headers, Filled l := by
        intro l hl
        rcases List.mem_cons.1 hl with rfl | hl
        · exact hstatus.filled
        · exact hheaders.check.2 l hl
      rw [Head.read, takeLines_written hfilled hclosing]
      simp only [hstatus.parse, hheaders.check.1]
      rfl

-- ====================================================== bodies are read

/-- A line with the size of a chunk is read as that size, -/
theorem readChunkSize_line {size : Bytes} {n : Nat} (h : IsSizeLine size n) (rest : Bytes) :
    readChunkSize (written [size] ++ rest) = .ok (n, rest) := by
  cases h with
  | @mk digits extension filled few hex whole apart =>
      -- The digits end where an extension or the end of the line begins.
      have hnext : ∀ b ∈ (extension ++ lineFeed :: rest).head?, (digit? 16 b).isSome = false := by
        intro b hb
        cases extension with
        | nil =>
            cases hb
            rfl
        | cons e extension =>
            cases hb
            rw [apart b rfl]
            rfl
      have hbytes : written [digits ++ extension] ++ rest
          = digits ++ (extension ++ lineFeed :: rest) := by
        rw [written_cons, List.append_assoc, List.append_assoc]
        rfl
      have htake := takeWhile_append_of_all hex hnext
      have hafter : afterLineFeed (extension ++ lineFeed :: rest) = some rest := by
        rw [afterLineFeed, dropWhile_append_of_all]
        · intro b hb
          rw [decide_eq_true_eq]
          rintro rfl
          exact whole hb
        · rintro _ ⟨⟩
          rfl
      rw [hbytes, readChunkSize, htake, if_neg (by rwa [List.isEmpty_iff]),
        if_neg (Nat.not_lt.2 few), List.drop_left, hafter]

/-- and the end of a chunk may have carriage returns. -/
theorem closeChunk_returns {returns : Bytes} (h : ∀ b ∈ returns, b = carriageReturn)
    (rest : Bytes) : closeChunk (written [returns] ++ rest) = .ok rest := by
  have hbytes : written [returns] ++ rest = returns ++ lineFeed :: rest := by
    rw [written_cons, List.append_assoc]
    rfl
  rw [closeChunk, hbytes, dropWhile_append_of_all]
  · rfl
  · intro b hb
    rw [h b hb]
    rfl
  · rintro _ ⟨⟩
    rfl

/-- The chunks of a body, after others. -/
theorem chunksOnto_chunked {s : Bytes} {body : Body} (h : IsChunked s body) :
    ∀ read, chunksOnto read s = .ok ⟨read.reverse.flatten ++ body.content, body.trailers⟩ := by
  induction h with
  | @last size closing rest trailers hsize htrailers hclosing =>
      intro read
      have hread : readChunk (written [size] ++ (written trailers ++ written [closing] ++ rest))
          = .ok ([], written trailers ++ written [closing] ++ rest) := by
        rw [readChunk, readChunkSize_line hsize]
        rfl
      rw [chunksOnto]
      split
      · next e he =>
          rw [hread] at he
          cases he
      · next data rest' he =>
          rw [hread] at he
          cases he
          rw [List.isEmpty_nil, if_pos rfl, takeLines_written htrailers hclosing,
            List.append_nil]
  | @chunk size data returns rest body filled hsize hreturns _ ih =>
      intro read
      have hread : readChunk (written [size] ++ (data ++ (written [returns] ++ rest)))
          = .ok (data, rest) := by
        have hpos : data.length ≠ 0 := fun h => filled (List.eq_nil_of_length_eq_zero h)
        -- The data is there as a whole, and nothing behind it counts towards the size.
        have hlong : ¬ (data ++ (written [returns] ++ rest)).length < data.length := by
          rw [List.length_append]
          omega
        rw [readChunk, readChunkSize_line hsize]
        dsimp only
        rw [if_neg hpos, if_neg hlong, List.drop_left, closeChunk_returns hreturns,
          List.take_left]
        rfl
      rw [chunksOnto]
      split
      · next e he =>
          rw [hread] at he
          cases he
      · next data' rest' he =>
          rw [hread] at he
          cases he
          rw [if_neg (by rwa [List.isEmpty_iff]), ih, List.reverse_cons, List.flatten_append,
            List.flatten_singleton, List.append_assoc]

/-- A whole chunk comes in front of what comes after it. -/
theorem chunksArrived_of_chunk {s data rest : Bytes} (h : readChunk s = .ok (data, rest)) :
    chunksArrived s = if data.isEmpty then [] else data ++ chunksArrived rest := by
  rw [chunksArrived]
  split
  · next e he => cases h.symm.trans he
  · next data' rest' he =>
      cases h.symm.trans he
      rfl

/-- The chunks of a body that is read whole are what comes of it. -/
theorem chunksArrived_of_read {read : List Bytes} {s : Bytes} {body : Body}
    (h : chunksOnto read s = .ok body) :
    body.content = read.reverse.flatten ++ chunksArrived s := by
  -- along the recursion of the reader, which is on what is left of the bytes
  fun_induction chunksOnto read s with
  | case1 read s e he => cases h
  | case2 read s data rest he hlast trailers after htrailers =>
      cases h
      rw [chunksArrived_of_chunk he, if_pos hlast, List.append_nil]
  | case3 read s data rest he hlast trailers hopen => cases h
  | case4 read s data rest he hmore ih =>
      rw [ih h, chunksArrived_of_chunk he, if_neg hmore, List.reverse_cons, List.flatten_append,
        List.flatten_singleton, List.append_assoc]

/-- What comes of a body that is read whole is its content. -/
theorem arrived_of_readBody {framing : Framing} {s : Bytes} {body : Body}
    (h : readBody framing s = .ok body) : arrived framing s = body.content := by
  cases framing with
  | noBody =>
      cases h
      rfl
  | untilClose =>
      cases h
      rfl
  | length n =>
      rw [readBody] at h
      split at h
      · cases h
      · cases h
        rfl
  | chunked => exact (chunksArrived_of_read h).symm

/-- A body is read back in its framing. -/
theorem readBody_body {framing : Framing} {s : Bytes} {body : Body} (h : IsBody framing s body) :
    readBody framing s = .ok body := by
  cases h with
  | noBody => rfl
  | @length content rest =>
      have hlong : ¬ (content ++ rest).length < content.length := by
        rw [List.length_append]
        omega
      rw [readBody, if_neg hlong, List.take_left]
  | untilClose => rfl
  | chunked h =>
      rw [readBody, chunksOnto_chunked h]
      rfl

-- ===================================================== answers are read

/-- A head is not empty. -/
theorem IsHead.ne_nil {s : Bytes} {head : Head} (h : IsHead s head) : s ≠ [] := by
  rintro rfl
  have hread := read_head h []
  have hnone : Head.read [] = .error .emptyReply := rfl
  rw [List.append_nil, hnone] at hread
  cases hread

/-- A head is passed over if it is interim, and is the final one otherwise. -/
theorem readOnto_head {s : Bytes} {head : Head} (h : IsHead s head) (before : List Bytes)
    (rest : Bytes) : readOnto before (s ++ rest)
      = if head.isInterim then readOnto (before ++ head.lines) rest
        else Response.ofHead before head rest := by
  have hempty : (s ++ rest).isEmpty = false := by
    rw [List.isEmpty_eq_false_iff]
    exact fun hnil => h.ne_nil (List.append_eq_nil_iff.1 hnil).1
  rw [readOnto, hempty, if_neg Bool.false_ne_true]
  split
  · next e he =>
      rw [read_head h] at he
      cases he
  · next head' he =>
      rw [read_head h] at he
      cases he
  · next head' rest' he =>
      rw [read_head h] at he
      cases he
      rfl

/-- The status of a head is 100 or above. -/
theorem IsHead.hundred_le {s : Bytes} {head : Head} (h : IsHead s head) :
    100 ≤ head.status.code := by
  cases h with
  | mk hstatus _ _ => exact hstatus.hundred_le

/-- The final one is a response, unless nothing follows a switch to another protocol. -/
theorem IsHead.ofHead {s : Bytes} {head : Head} (h : IsHead s head) (before : List Bytes)
    {rest : Bytes} (hgoesOn : head.switches = true → rest ≠ []) :
    Response.ofHead before head rest = .ok ⟨before, head, rest⟩ := by
  have hreply : ¬ (head.switches && rest.isEmpty) = true := by
    rw [Bool.and_eq_true, List.isEmpty_iff]
    exact fun hempty => hgoesOn hempty.1 hempty.2
  rw [Response.ofHead, if_neg (Nat.not_lt.2 h.hundred_le), if_neg hreply]

/-- What comes from a server that has said `a` is read as `a`. -/
structure Response.Reads (r : Response) (wantsBody : Bool) (before : List Bytes) (a : Answer) :
    Prop where
  /-- The lines of interim heads stand behind those of earlier answers. -/
  before : r.before = before ++ a.before
  head : r.head = a.head
  /-- The body is still to be read, as the head frames it. -/
  body : ∃ framing, r.head.framing wantsBody = .ok framing ∧ readBody framing r.rest = .ok a.body

/-- An answer of a server is read as it was meant. The induction is on the heads that come before
the final one. -/
theorem IsAnswer.read {wantsBody : Bool} {s : Bytes} {a : Answer} (h : IsAnswer wantsBody s a) :
    ∀ before, ∃ r, readOnto before s = .ok r ∧ r.Reads wantsBody before a := by
  induction h with
  | @interim s rest head a early hhead _ ih =>
      intro before
      obtain ⟨r, hr, hreads⟩ := ih (before ++ head.lines)
      rw [readOnto_head hhead, if_pos early]
      refine ⟨r, hr, ?_, hreads.head, hreads.body⟩
      rw [hreads.before, List.append_assoc]
  | @final s rest head framing body late goesOn framed hhead hbody =>
      intro before
      rw [readOnto_head hhead, late, if_neg Bool.false_ne_true, hhead.ofHead before goesOn]
      exact ⟨_, rfl, (List.append_nil before).symm, rfl, framing, framed, readBody_body hbody⟩

end TracedTransfer.Http
