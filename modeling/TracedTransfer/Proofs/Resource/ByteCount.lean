/-
The bytes that a read reports.

A transform or an action reads as it likes, through the counting reader
that it is given: it is a client of that reader (`Io.Client`). It sees what
it would see of the bare content, and if it succeeds the read reports the
number of the bytes that it was handed, which are a beginning of the
content; so does the record of the read's operation, if there is one
(`bytes_accounted`). How it has read, and past which failures, plays no
part in it.
-/
import TracedTransfer.Proofs.Io.Client
import TracedTransfer.Proofs.Resource.ReadVariants
import TracedTransfer.Proofs.Resource.Transparency

namespace TracedTransfer.Resource

open Io Operation Text

variable {α β : Type}

-- =========================================================== transforms

/-- A client as a transform. -/
def transformOf (c : Client α) : Transform α := fun r => do
  let ended ← c.run r
  return (ended.answer, ended.reader)

theorem keepsScopes_transformOf {c : Client α} (hc : c.KeepsScopes) (r : ContentReader) :
    Run.KeepsScopes (transformOf c r) :=
  Run.keepsScopes_bind (hc.run r) fun _ => Run.keepsScopes_pure _

/-- A client that asks once and answers with what is brought. -/
def asking (request : Request) : Client Bytes :=
  .ask request fun
    | (bytes, none) => .done (.ok bytes)
    | (_, some e) => .done (.error e.chain)

/-- One request of a client, as a transform: what it brings, unless it
fails. -/
theorem transformOf_asking (request : Request) (r : ContentReader) (m : Machine) :
    transformOf (asking request) r m = (.value (unlessFailed (request.ask m.files r)), m) := by
  unfold transformOf asking
  show (_ <$> Client.run _ r) m = _
  rw [Action.run_map, Client.run_ask, Action.run_map]
  rcases request.ask m.files r with ⟨⟨bytes, _ | e⟩, r'⟩
  · rfl
  · rfl

/-- The transforms that read once, or in one loop, are such clients. -/
theorem transforms_ask : readAll = transformOf (asking .toEnd)
    ∧ (∀ n, readExactly n = transformOf (asking (.exactly n)))
    ∧ (∀ n, readAtMost n = transformOf (asking (.upTo n)))
    ∧ ∀ n, readOnce n = transformOf (asking (.once n)) := by
  refine ⟨?_, fun n => ?_, fun n => ?_, fun n => ?_⟩
  · funext r m
    exact (transformOf_asking .toEnd r m).symm
  · funext r m
    exact (transformOf_asking (.exactly n) r m).symm
  · funext r m
    exact (transformOf_asking (.upTo n) r m).symm
  · funext r m
    rw [transformOf_asking, Request.ask_once]
    unfold readOnce
    rw [Action.run_gets]
    rcases Source.read m.files n r with ⟨bytes | e, r'⟩
    · rfl
    · rfl

/-- Where a client ends with the bare content, its transform ends with the
counting reader, which has counted what the client was handed. -/
theorem transformOf_of_run {c : Client α} {r left : Reader} {m m' : Machine}
    {answer : Except Chain α} {brought : List Brought}
    (h : c.run r m = (.value ⟨answer, brought, left⟩, m')) :
    transformOf c (Counted.ofSource r) m
      = (.value (answer, ⟨left, (received brought).length⟩), m') := by
  have hcounted : c.run (Counted.ofSource r) m
      = (.value ⟨answer, brought, ⟨left, (received brought).length⟩⟩, m') := by
    rw [Client.run_counted]
    show (Handed.counted 0 <$> c.run r) m = _
    rw [Action.run_map, h]
    simp only [Handed.counted, Nat.zero_add]
  unfold transformOf
  rw [Action.bind_of_value hcounted]
  rfl

section

variable {s : ContentSource} {c : Metadata → Client α} {content : Content}
  {m m₁ m₂ : Machine} {a : α} {brought : List Brought} {left : Reader}
  (hopen : s.openContent m = (.value (.ok (some content)), m₁))
  (hrun : (c content.metadata).run content.reader m₁ = (.value ⟨.ok a, brought, left⟩, m₂))
include hopen hrun

/-- A read through a client that succeeds with the bare content. -/
theorem withAction_of_client :
    BothCome (s.resource.withAction fun info => transformOf (c info))
      (s.resource.withActionIfPresent fun info => transformOf (c info)) m
      (.ok ⟨(received brought).length, a⟩) m₂ := by
  refine ifPresent_of_some hopen ?_
  rw [Action.bind_of_value (transformOf_of_run hrun)]
  rfl

theorem withContent_of_client :
    BothCome (s.resource.withContent (transformOf (c content.metadata)))
      (s.resource.withContentIfPresent (transformOf (c content.metadata))) m
      (.ok ⟨(received brought).length, a⟩) m₂ :=
  withAction_of_client (c := fun _ => c content.metadata) hopen hrun

end

-- ============================================================== records

/-- A read of a decorated resource that comes to a value, and whose record
tells of a number of bytes; the machine `m'` is that at the end of the
delegate's read. -/
def Tells (d : Resource) (n : Name) (r : Runner) (m m' : Machine) (reading : Reading β)
    (value : β) (bytes : Nat) : Prop :=
  ∃ record m₂, reading.of (instrumented d n r) m = (.value (.ok value), m₂)
    ∧ record.failure = none ∧ record.result = some (.obj [("bytesRead", .nat bytes)])
    ∧ ∀ {γ : Type} (k : Memory γ), r.Serves k →
      k.kept m₂ = k.note (k.kept m') (.finished record)

/-- A read that succeeds in its scope tells of the bytes that it brought. -/
theorem tells_of_value {d : Resource} {n : Name} {r : Runner} (hr : r.Calm) {m m' : Machine}
    (reading : Reading β) (hd : Run.KeepsScopes (reading.of d)) (hm : m.scopes.Numbered)
    {value : β} (h : reading.of d (readEntered r n m) = (.value (.ok value), m')) :
    Tells d n r m m' reading value (reading.bytes value) := by
  have hinner := hd (readEntered r n m) (readEntered_numbered hr n hm) (by rw [h]; nofun)
  rw [h] at hinner
  have hframes := hinner.frames.trans (entered_frames hr (readDescriptor n) m)
  have haccounts : Accounts n reading.bytes m (.value (.ok value)) _ :=
    accounts_recordOf hframes
  obtain ⟨hfailure, hresult⟩ := haccounts.success value rfl
  have hrun : reading.of (instrumented d n r) m = (.value (.ok value), left r (readFrame n m) false
      (noted (readFrame n m) reading.bytes (.value (.ok value)) m')) := by
    rw [Reading.of_instrumented, inScope_eq hr, h]
    rfl
  refine ⟨_, _, hrun, hfailure, hresult, fun k hk => ?_⟩
  rw [recall_left hr hk, view_noted hk.apart.scopes]
  rfl

-- ================================================== the main statement

/-- What reads through a client come to that succeeds with the bare
content: the content is a script that is opened on a machine `m`, and the
client, which has been handed `brought`, leaves `m'`. -/
structure Accounted (s : ContentSource) (c : Metadata → Client α) (info : Metadata)
    (events : List Io.Event) (m m' : Machine) (a : α) (brought : List Brought) : Prop where
  /-- With the counting reader the client goes as with the bare content. -/
  seen : (c info).run (Counted.ofSource (Reader.script events))
    = Handed.counted 0 <$> (c info).run (Reader.script events)
  /-- What it is handed is a beginning of the content. -/
  beginning : received brought <+: events.flatMap Event.bytes
  /-- Each of the four reads reports the number of these bytes, -/
  action : BothCome (s.resource.withAction fun info => transformOf (c info))
    (s.resource.withActionIfPresent fun info => transformOf (c info)) m
    (.ok ⟨(received brought).length, a⟩) m'
  /-- also where only the content is handed over, -/
  content : BothCome (s.resource.withContent (transformOf (c info)))
    (s.resource.withContentIfPresent (transformOf (c info))) m
    (.ok ⟨(received brought).length, a⟩) m'
  /-- and if it is an operation, so does its record. -/
  recorded : ∀ {r : Runner} {n : Name} {m₀ : Machine}, r.Calm → m₀.scopes.Numbered →
    readEntered r n m₀ = m →
    let read : ReadResult α := ⟨(received brought).length, a⟩
    let tells {β : Type} (reading : Reading β) (value : β) :=
      Tells s.resource n r m₀ m' reading value (received brought).length
    tells (.withAction fun info => transformOf (c info)) read
      ∧ tells (.withActionIfPresent fun info => transformOf (c info)) (some read)
      ∧ tells (.withContent (transformOf (c info))) read
      ∧ tells (.withContentIfPresent (transformOf (c info))) (some read)

/-- **The bytes of a read are the bytes handed out**, however its transform
reads. -/
theorem bytes_accounted {s : ContentSource} (hs : Run.KeepsScopes s.openContent)
    {c : Metadata → Client α} (hc : ∀ info, (c info).KeepsScopes) {info : Metadata}
    {events : List Io.Event} {m m₁ m' : Machine} {a : α} {brought : List Brought} {left : Reader}
    (hopen : s.openContent m = (.value (.ok (some ⟨.script events, info⟩)), m₁))
    (hrun : (c info).run (Reader.script events) m₁ = (.value ⟨.ok a, brought, left⟩, m')) :
    Accounted s c info events m m' a brought := by
  have haction := withAction_of_client hopen hrun
  have hcontent := withContent_of_client hopen hrun
  have hkeeps : ∀ info r, Run.KeepsScopes (transformOf (c info) r) :=
    fun info => keepsScopes_transformOf (hc info)
  obtain ⟨rest, -, hbytes⟩ := Reader.Holds.run ⟨events, rfl, rfl⟩ hrun
  refine ⟨Client.run_counted _ _, ⟨rest, hbytes⟩, haction, hcontent, ?_⟩
  rintro r n m₀ hr hm₀ rfl
  refine ⟨?_, ?_, ?_, ?_⟩
  · exact tells_of_value hr (.withAction fun info => transformOf (c info))
      (Reading.keepsScopes_source hs hkeeps) hm₀ haction.1
  · exact tells_of_value hr (.withActionIfPresent fun info => transformOf (c info))
      (Reading.keepsScopes_source hs hkeeps) hm₀ haction.2
  · exact tells_of_value hr (.withContent (transformOf (c info)))
      (Reading.keepsScopes_source hs (hkeeps info)) hm₀ hcontent.1
  · exact tells_of_value hr (.withContentIfPresent (transformOf (c info)))
      (Reading.keepsScopes_source hs (hkeeps info)) hm₀ hcontent.2

/-- A client that asks for five bytes at once, and then, whatever came of
it, for two more. -/
def insistent : Client Nat :=
  .ask (.exactly 5) fun first =>
    .act (Run.log .debug "client" "read" []) fun () =>
      .ask (.once 2) fun second => .done (.ok (first.1.length + second.1.length))

/-- Content in two pieces with a failure between them, of which it is handed
three bytes before the failure and two behind it. -/
theorem bytes_accounted_past_failure :
    let n : Name := ⟨⟨"memory".toList, none, "/six".toList, none, none⟩⟩
    let s : ContentSource := (MemoryResource.mk n 0 [] (.ok none) none).source
    let events : List Io.Event :=
      [.data [1, 2, 3], .fail (.system .notFound), .data [4, 5, 6]]
    let m₀ : Machine := { Machine.initial .empty .default with
      shelves := [⟨some events, 0, 0⟩] }
    let m := readEntered [.recording] n m₀
    let m₁ : Machine := { m with shelves := [⟨some events, 1, 0⟩] }
    let info : Metadata := .ofLength n.url 6
    let brought : List Brought := [([1, 2, 3], some (.system .notFound)), ([4, 5], none)]
    Run.KeepsScopes s.openContent ∧ insistent.KeepsScopes
      ∧ s.openContent m = (.value (.ok (some ⟨.script events, info⟩)), m₁)
      ∧ (∃ m', insistent.run (Reader.script events) m₁
          = (.value ⟨.ok 5, brought, .script [.data [6]]⟩, m')
        ∧ Accounted s (fun _ => insistent) info events m m' 5 brought) := by
  intro n s events m₀ m m₁ info brought
  have hs : Run.KeepsScopes s.openContent := MemoryResource.keepsScopes_openContent _
  have hc : insistent.KeepsScopes :=
    fun _ => ⟨Run.keepsScopes_log _ _ _ _, fun _ _ => trivial⟩
  have hopen : s.openContent m = (.value (.ok (some ⟨.script events, info⟩)), m₁) := rfl
  have hrun : insistent.run (Reader.script events) m₁
      = (.value ⟨.ok 5, brought, .script [.data [6]]⟩, _) := rfl
  exact ⟨hs, hc, hopen, _, hrun,
    bytes_accounted (c := fun _ => insistent) hs (fun _ => hc) hopen hrun⟩

end TracedTransfer.Resource
