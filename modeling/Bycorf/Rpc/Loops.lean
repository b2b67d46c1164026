/-
  The two loops of an `RpcClient` when the stream fails under them.

  1. **Reader** — `ReadLoop` ends on a bad header or on a closed stream, and then the stream is
     closed and `Call` refuses.  It also ends on the peer's end of file and on a read error, and
     then the stream is still OPEN: the next `Call` registers itself in a map that nobody reads.
  2. **Writer** — `WriteLoop` ends on a failed write, drops its batch and leaves the stream open:
     the next `Call` starts a writer again, behind a frame that was cut short.
  3. **Laws** — a call never waits without a reader exactly along the runs in which every call
     behind an end of file or a read error is behind a `Close` too (`hasReader_iff`).  The bytes
     sent are a prefix of the request frames along the runs that make no call after a failed write
     (`reachable_sendsPrefix`).
  4. **Over the wire** — a call that succeeds returns the server's answer to a request with its id
     (`reachable_answered`).
-/
import Bycorf.Rpc.Correlation
import Bycorf.Rpc.Stream

namespace Bycorf.Rpc

open Bycorf.Lib

namespace RpcClient

/-! ## The writer's steps -/

/-- A step leaves the writer alone. -/
structure SameWriter (s s' : RpcClient) : Prop where
  out : s'.out = s.out
  writing : s'.writing = s.writing
  writer : s'.writer = s.writer
  frames : s'.frames = s.frames
  accepted : s'.accepted = s.accepted
  failed : s'.writeFailed = s.writeFailed

theorem SameWriter.refl (s : RpcClient) : SameWriter s s := ⟨rfl, rfl, rfl, rfl, rfl, rfl⟩

theorem deliver_sameWriter (h : WireHeader) (payload : Bytes) (s : RpcClient) :
    SameWriter s (s.deliver h payload) := by
  unfold deliver
  dsimp only
  split <;> exact ⟨rfl, rfl, rfl, rfl, rfl, rfl⟩

variable {s : RpcClient}

theorem SameWriter.trans {t u : RpcClient} (h : SameWriter s t) (k : SameWriter t u) :
    SameWriter s u :=
  ⟨k.out.trans h.out, k.writing.trans h.writing, k.writer.trans h.writer, k.frames.trans h.frames,
    k.accepted.trans h.accepted, k.failed.trans h.failed⟩

theorem readTurn_sameWriter (isOpen : Bool) (s : RpcClient) :
    SameWriter s (s.readTurn isOpen).1 := by
  have hpass : SameWriter s (parseResponses s.buf 0 s).2.2 := by
    refine parseResponses_induct (P := fun _ t => SameWriter s t) s.buf ?_ 0 s (.refl s)
    intro pos t f ht _ _
    exact ht.trans (deliver_sameWriter f.1 f.2 t)
  rcases readTurn_cases isOpen s with ⟨heq, _⟩ | heq | ⟨_, heq⟩
  · rw [heq]
    exact ⟨rfl, rfl, rfl, rfl, rfl, rfl⟩
  · rw [heq]
    exact hpass.trans ⟨rfl, rfl, rfl, rfl, rfl, rfl⟩
  · rw [heq]
    exact hpass.trans ⟨rfl, rfl, rfl, rfl, rfl, rfl⟩

/-- What one step does to the writer. -/
inductive WriterMove (isOpen : Bool) (s s' : RpcClient) : Label → Prop where
  | quiet {a : Label} (same : SameWriter s s') : WriterMove isOpen s s' a
  | called (verb : UInt16) (payload : Bytes) (call : s.call isOpen verb payload = .ok s') :
      WriterMove isOpen s s' (.call verb payload)
  | started (spawned : s.writer = .spawned) (turn : s' = s.writeTurn) :
      WriterMove isOpen s s' .writeStart
  | resumed (batch : Bytes) (written : Nat) (result : Except Status Nat)
      (writer : s.writer = .writing batch written) (fits : fits (batch.length - written) result)
      (eq : s' = s.writeResume batch written result) : WriterMove isOpen s s' (.writeResume result)

variable {isOpen : Bool} {s' : RpcClient} {a : Label}

theorem step_writerMove {closes : Bool}
    (hs : s.step isOpen a = some (s', closes)) : WriterMove isOpen s s' a := by
  cases step_move hs with
  | refused _ _ _ _ same => exact .quiet (same ▸ .refl s)
  | called verb payload call => exact .called verb payload call
  | caller _ _ _ _ _ _ set => exact .quiet (set ▸ ⟨rfl, rfl, rfl, rfl, rfl, rfl⟩)
  | ended _ _ _ finish => exact .quiet (finish ▸ ⟨rfl, rfl, rfl, rfl, rfl, rfl⟩)
  | turned _ data _ turn =>
    have hturn := readTurn_sameWriter isOpen (s.receive data)
    rw [turn] at hturn
    exact .quiet { hturn with }
  | quiet _ _ _ _ _ _ _ _ _ _ acts =>
    cases a with
    | writeStart =>
      obtain ⟨hspawned, heq⟩ := ite_none_right_eq_some.mp hs
      cases heq
      exact .started hspawned rfl
    | writeResume result =>
      simp only [step] at hs
      cases hwriter : s.writer with
      | idle | spawned => rw [hwriter] at hs; cases hs
      | writing batch written =>
        rw [hwriter] at hs
        obtain ⟨hfits, heq⟩ := ite_none_right_eq_some.mp hs
        cases heq
        exact .resumed batch written result hwriter hfits rfl
    | _ => exact .quiet (acts.resolve_left Bool.false_ne_true ▸ .refl s)

/-! ## The bytes on the wire -/

/-- What the writer has taken and not sent. -/
def inFlight : Writer → Bytes
  | .writing batch written => batch.drop written
  | _ => []

/-- The bytes accepted, the rest of the batch and the queue are the frames in call order; after a
    failed write nothing is sent any more. -/
structure Sending (s : RpcClient) : Prop where
  running : s.writing = false ↔ s.writer = .idle
  bytes : s.writeFailed = false →
    s.accepted ++ (inFlight s.writer ++ s.out.flatten) = s.frames.flatten
  failed : s.writeFailed = true → s.writing = false ∧ s.accepted <+: s.frames.flatten

theorem Sending.isPrefix (h : Sending s) : s.accepted <+: s.frames.flatten := by
  cases hfailed : s.writeFailed with
  | true => exact (h.failed hfailed).2
  | false => exact ⟨_, h.bytes hfailed⟩

/-- A running writer has not failed. -/
theorem Sending.not_failed (h : Sending s) (hwriter : s.writer ≠ .idle) :
    s.writing = true ∧ s.writeFailed = false := by
  have hwriting : s.writing = true := by
    cases hw : s.writing with
    | true => rfl
    | false => exact absurd (h.running.mp hw) hwriter
  refine ⟨hwriting, ?_⟩
  cases hf : s.writeFailed with
  | false => rfl
  | true => exact absurd ((h.failed hf).1.symm.trans hwriting) (by decide)

/-- The head of `WriteLoop` moves the queue into the batch. -/
theorem writeTurn_sending (hwriting : s.writing = true) (hfailed : s.writeFailed = false)
    (hbytes : s.accepted ++ s.out.flatten = s.frames.flatten) : Sending s.writeTurn := by
  unfold writeTurn
  dsimp only
  split
  · rename_i hempty
    refine ⟨Iff.intro (fun _ => rfl) fun _ => rfl, fun _ => ?_,
      fun h => absurd (hfailed.symm.trans h) (by decide)⟩
    show s.accepted ++ ([] ++ [].flatten) = s.frames.flatten
    rw [← hbytes, hempty]
    simp
  refine ⟨by simp [hwriting], fun _ => ?_, fun h => absurd (hfailed.symm.trans h) (by decide)⟩
  show s.accepted ++ (s.out.flatten.drop 0 ++ [].flatten) = s.frames.flatten
  simpa using hbytes

theorem writeResume_sending (h : Sending s) {batch : Bytes} {written : Nat}
    (hwriter : s.writer = .writing batch written) (result : Except Status Nat)
    (hfits : fits (batch.length - written) result) :
    Sending (s.writeResume batch written result) := by
  obtain ⟨hwriting, hnot⟩ := h.not_failed (by rw [hwriter]; simp)
  have hbytes := h.bytes hnot
  rw [hwriter] at hbytes
  -- a failed write: whatever was accepted before it stays
  have hcut : ∀ s' : RpcClient, s' =
      { s with writing := false, writer := .idle, writeFailed := true } → Sending s' := by
    rintro s' rfl
    exact ⟨by simp, nofun, fun _ => ⟨rfl, _, hbytes⟩⟩
  match result with
  | .error status => exact hcut _ rfl
  | .ok 0 => exact hcut _ rfl
  | .ok (n + 1) =>
    have hsplit : batch.drop written =
        (batch.drop written).take (n + 1) ++ batch.drop (written + (n + 1)) := by
      rw [← List.drop_drop]
      exact (take_append_drop _ _).symm
    have hmoved : (s.accepted ++ (batch.drop written).take (n + 1)) ++
        (batch.drop (written + (n + 1)) ++ s.out.flatten) = s.frames.flatten := by
      rw [← hbytes]
      show _ = s.accepted ++ (batch.drop written ++ s.out.flatten)
      rw [append_assoc, ← append_assoc (List.take _ _), ← hsplit]
    unfold writeResume
    dsimp only
    split
    · exact ⟨by simp [hwriting], fun _ => hmoved, fun hf => absurd (hnot.symm.trans hf) (by decide)⟩
    rename_i hdone
    have hempty : batch.drop (written + (n + 1)) = [] :=
      List.drop_eq_nil_of_le (Nat.le_of_not_lt hdone)
    rw [hempty, nil_append] at hmoved
    exact writeTurn_sending hwriting hnot hmoved

/-- A call puts its frame at the end of the queue. -/
theorem call_sending {verb : UInt16} {payload : Bytes}
    (h : Sending s) (hnot : s.writeFailed = false) (hs : s.call isOpen verb payload = .ok s') :
    Sending s' := by
  obtain ⟨_, _, rfl⟩ := call_eq hs
  refine ⟨?_, fun _ => ?_, fun hf => absurd (hnot.symm.trans hf) (by decide)⟩
  · show true = false ↔ (if s.writing then s.writer else .spawned) = Writer.idle
    cases hw : s.writing with
    | false => simp
    | true =>
      have : s.writer ≠ .idle := fun hidle =>
        absurd (hw.symm.trans (h.running.mpr hidle)) (by decide)
      simp [this]
  · have hsame : inFlight (if s.writing then s.writer else .spawned) = inFlight s.writer := by
      cases hw : s.writing with
      | true => rfl
      | false =>
        rw [h.running.mp hw]
        rfl
    show s.accepted ++ (inFlight (if s.writing then s.writer else .spawned) ++
      (s.out ++ [_]).flatten) = (s.frames ++ [_]).flatten
    rw [hsame, List.flatten_append, List.flatten_append, ← h.bytes hnot]
    simp

theorem WriterMove.sending (hm : WriterMove isOpen s s' a) (h : Sending s)
    (hok : ∀ verb payload, a = .call verb payload → s.writeFailed = true →
      isOpen = false ∨ kMaxPayloadBytes < payload.length) : Sending s' := by
  cases hm with
  | quiet same =>
    refine ⟨?_, ?_, ?_⟩
    · rw [same.writing, same.writer]
      exact h.running
    · rw [same.failed, same.accepted, same.writer, same.out, same.frames]
      exact h.bytes
    · rw [same.failed, same.writing, same.accepted, same.frames]
      exact h.failed
  | called verb payload hcall =>
    obtain ⟨hopen, hsize, _⟩ := call_eq hcall
    refine call_sending h ?_ hcall
    cases hf : s.writeFailed
    · rfl
    rcases hok verb payload rfl hf with hclosed | hlong
    · exact absurd (hclosed.symm.trans hopen) (by decide)
    · exact absurd hsize (Nat.not_le.mpr hlong)
  | started spawned turn =>
    obtain ⟨hwriting, hnot⟩ := h.not_failed (by rw [spawned]; simp)
    have hbytes := h.bytes hnot
    rw [spawned] at hbytes
    rw [turn]
    exact writeTurn_sending hwriting hnot hbytes
  | resumed batch written result hwriter hfits heq =>
    rw [heq]
    exact writeResume_sending h hwriter result hfits

theorem connected_sending : Sending connected :=
  ⟨by simp [connected], fun _ => rfl, nofun⟩

end RpcClient

namespace Client

open RpcClient (Label)

/-- No call passes its guards after a write has failed. -/
def CallsBeforeFailure (s : Client) : Label → Prop
  | .call _ payload =>
    s.rpc.writeFailed = true → s.isOpen = false ∨ kMaxPayloadBytes < payload.length
  | _ => True

instance (s : Client) (a : Label) : Decidable (CallsBeforeFailure s a) := by
  cases a <;> unfold CallsBeforeFailure <;> infer_instance

/-- **Framing survives as long as no call follows a failed write**: the bytes the socket accepted
    are a prefix of the request frames in call order. -/
theorem reachable_sendsPrefix {s : Client} (h : system.ReachableUnder CallsBeforeFailure s) :
    s.rpc.accepted <+: s.rpc.frames.flatten := by
  refine RpcClient.Sending.isPrefix ?_
  refine h.invariant (P := fun s => s.rpc.Sending) ?_ ?_
  · rintro s rfl
    exact RpcClient.connected_sending
  · intro s a s' hinv hok hs
    obtain ⟨⟨rpc, closes⟩, hrpc, rfl⟩ := map_eq_some_iff.mp hs
    refine (RpcClient.step_writerMove hrpc).sending hinv ?_
    rintro verb payload rfl
    exact hok

/-- Two calls, a batch sent in two parts, and a write that fails inside the second frame. -/
def cutFrameLabels : List Label :=
  [.call 7 [1, 2], .callSuspend 0, .writeStart, .writeResume (.ok 5), .call 8 [3], .callSuspend 1,
    .writeResume (.ok 13), .writeResume (.ok 4), .writeResume (.error ⟨.internal, "write failed"⟩)]

theorem sendsPrefix_cut_frame : ∃ s,
    system.run ⟨RpcClient.connected, true⟩ cutFrameLabels = some s ∧
    s.rpc.accepted.length = 22 ∧ s.rpc.accepted <+: s.rpc.frames.flatten := by
  have hview : (system.run ⟨RpcClient.connected, true⟩ cutFrameLabels).map
      (fun s => s.rpc.accepted.length) = some 22 := by decide +kernel
  obtain ⟨s, hs, hlen⟩ := map_eq_some_iff.mp hview
  refine ⟨s, hs, hlen, reachable_sendsPrefix ?_⟩
  exact System.ReachableUnder.run (.init rfl) cutFrameLabels (by decide +kernel) hs

/-- The frame of the first call is cut after five bytes; the second call's frame follows it. -/
theorem call_after_failed_write : ∃ s,
    system.run ⟨RpcClient.connected, true⟩ [.call 7 [1, 2], .callSuspend 0, .writeStart,
      .writeResume (.ok 5), .writeResume (.error ⟨.internal, "write failed"⟩), .call 8 [3],
      .callSuspend 1, .writeStart, .writeResume (.ok 17)] = some s ∧
    ¬ s.rpc.accepted <+: s.rpc.frames.flatten := by
  exact exists_end (by decide +kernel)

/-! ## A reader for every call -/

/-- Whoever waits in `pending_` has a reader. -/
def HasReader (s : Client) : Prop := s.rpc.pending ≠ [] → s.rpc.reader ≠ .finished

/-- A call that passes its guards is made while the reader runs. -/
def CallsWithReader (s : Client) : Label → Prop
  | .call _ payload =>
    s.rpc.reader = .finished → s.isOpen = false ∨ kMaxPayloadBytes < payload.length
  | _ => True

variable {s : Client} {a : Label}

theorem callsWithReader_of_not_call (h : a.isCall = false) : s.CallsWithReader a := by
  cases a with
  | call verb payload => cases h
  | _ => trivial

variable {s' : Client}

/-- A call needs the reader running; the other steps keep one, and those that end it empty the
    map. -/
theorem step_hasReader_iff (h : s.HasReader) (hs : s.step a = some s') :
    s'.HasReader ↔ s.CallsWithReader a := by
  obtain ⟨closes, hm, _⟩ := step_move hs
  cases hm with
  | refused verb payload status hcall hsame =>
    refine iff_of_true ?_ fun _ => ?_
    · unfold HasReader
      rw [hsame]
      exact h
    · unfold RpcClient.call at hcall
      split_ifs at hcall with hclosed hlong
      · exact .inl hclosed
      · exact .inr hlong
  | called verb payload hcall =>
    obtain ⟨hopen, hsize, heq⟩ := RpcClient.call_eq hcall
    unfold HasReader
    rw [heq]
    constructor
    · intro hreader hfinished
      exact absurd hfinished (hreader (List.cons_ne_nil _ _))
    · intro hok _ hfinished
      rcases hok hfinished with hclosed | hlong
      · exact absurd (hclosed.symm.trans hopen) (by decide)
      · exact absurd hsize (Nat.not_le.mpr hlong)
  | quiet hother _ hpending _ _ hreader _ _ =>
    refine iff_of_true ?_ (callsWithReader_of_not_call hother)
    unfold HasReader
    rw [hpending, hreader]
    exact h
  | caller hother k c c' _ _ hset =>
    refine iff_of_true ?_ (callsWithReader_of_not_call hother)
    unfold HasReader
    rw [hset]
    exact h
  | ended result _ _ hfinish =>
    refine iff_of_true ?_ trivial
    unfold HasReader
    rw [hfinish]
    exact absurd rfl
  | turned hother data _ hturn =>
    refine iff_of_true ?_ (callsWithReader_of_not_call hother)
    unfold HasReader
    rw [show s'.rpc = ((s.rpc.receive data).readTurn s.isOpen).1 by rw [hturn]]
    rcases RpcClient.readTurn_cases s.isOpen (s.rpc.receive data) with ⟨heq, _⟩ | heq | ⟨_, heq⟩
    · rw [heq]
      exact absurd rfl
    · rw [heq]
      exact absurd rfl
    · rw [heq]
      exact fun _ => by simp

/-- A call whose payload is within the limit. -/
def fitsLimit : Label → Bool
  | .call _ payload => decide (payload.length ≤ kMaxPayloadBytes)
  | _ => false

/-- Every call within the payload limit that comes after a failed read or an end of file comes after
    a `Close` as well. -/
def ClosesBeforeCalls (labels : List Label) : Prop :=
  ∀ n < labels.length, labels[n]?.any fitsLimit = true → (labels.take n).any Label.endsRead = true →
    (labels.take n).any Label.isClose = true

instance (labels : List Label) : Decidable (ClosesBeforeCalls labels) :=
  inferInstanceAs (Decidable (∀ n < labels.length, _ → _ → _))

/-- What one step does to the reader and to the stream. -/
inductive ReaderMove (s s' : Client) (a : Label) : Prop where
  | closed (close : a.isClose = true) (plain : a.endsRead = false) (isOpen : s'.isOpen = false)
      (reader : s'.rpc.reader = s.rpc.reader)
  | ended (exit : a.endsRead = true) (plain : a.isClose = false)
      (running : s.rpc.reader ≠ .finished)
      (reader : s'.rpc.reader = .finished) (isOpen : s'.isOpen = s.isOpen)
  -- a bad header, or the head of the loop on a closed stream
  | stopped (plain : a.endsRead = false ∧ a.isClose = false) (running : s.rpc.reader ≠ .finished)
      (reader : s'.rpc.reader = .finished) (isOpen : s'.isOpen = false)
  | other (plain : a.endsRead = false ∧ a.isClose = false)
      (reader : s'.rpc.reader = .finished ↔ s.rpc.reader = .finished)
      (isOpen : s'.isOpen = s.isOpen)

theorem readTurn_readerMove {t : RpcClient} (plain : a.endsRead = false ∧ a.isClose = false)
    (running : s.rpc.reader ≠ .finished) :
    ReaderMove s ⟨(t.readTurn s.isOpen).1, s.isOpen && !(t.readTurn s.isOpen).2⟩ a := by
  rcases RpcClient.readTurn_cases s.isOpen t with ⟨heq, hclosed⟩ | heq | ⟨_, heq⟩
  · refine .stopped plain running ?_ ?_
    · rw [heq]
      rfl
    · rw [hclosed]
      rfl
  · rw [heq]
    exact .stopped plain running rfl (Bool.and_false _)
  · rw [heq]
    exact .other plain (iff_of_false Reader.noConfusion running) (Bool.and_true _)

theorem step_readerMove (hs : s.step a = some s') : ReaderMove s s' a := by
  obtain ⟨closes, hm, hopen⟩ := step_move hs
  have hsame : closes = false → s'.isOpen = s.isOpen := by
    rintro rfl
    rw [hopen, Bool.not_false, Bool.and_true]
  cases hm with
  | refused _ _ _ _ heq hstays => exact .other ⟨rfl, rfl⟩ (by rw [heq]) (hsame hstays)
  | called _ _ hcall hstays =>
    obtain ⟨_, _, heq⟩ := RpcClient.call_eq hcall
    exact .other ⟨rfl, rfl⟩ (by rw [heq]; rfl) (hsame hstays)
  | quiet _ _ _ _ _ hreader _ _ hplain hcloses =>
    cases hclose : a.isClose with
    | true =>
      refine .closed hclose hplain ?_ hreader
      rw [hopen, hcloses, hclose, Bool.not_true, Bool.and_false]
    | false => exact .other ⟨hplain, hclose⟩ (by rw [hreader]) (hsame (hcloses.trans hclose))
  | caller _ _ _ _ _ _ hset hplain hstays => exact .other hplain (by rw [hset]) (hsame hstays)
  | ended result hstops hreader hfinish hstays =>
    refine .ended ?_ rfl hreader (by rw [hfinish]; rfl) (hsame hstays)
    rcases hstops with rfl | ⟨_, rfl⟩ <;> rfl
  | turned _ data hreader hturn hplain =>
    have hmove := readTurn_readerMove (t := s.rpc.receive data) hplain hreader
    rw [hturn] at hmove
    dsimp only at hmove
    rwa [← hopen] at hmove

/-- What the labels of a run say about its stream and its reader. -/
structure Tracks (past : List Label) (s : Client) : Prop where
  opened : s.isOpen = true → past.any Label.isClose = false
  closed : s.isOpen = false → past.any Label.isClose = true ∨
    s.rpc.reader = .finished ∧ past.any Label.endsRead = false
  ended : s.isOpen = true → (s.rpc.reader = .finished ↔ past.any Label.endsRead = true)

theorem step_tracks {past : List Label} (h : Tracks past s) (hs : s.step a = some s') :
    Tracks (past ++ [a]) s' := by
  have hclose : (past ++ [a]).any Label.isClose = (past.any Label.isClose || a.isClose) := by simp
  have hended : (past ++ [a]).any Label.endsRead = (past.any Label.endsRead || a.endsRead) := by
    simp
  obtain ⟨hopened, hclosed, hreader⟩ := h
  cases step_readerMove hs with
  | closed close plain isOpen reader =>
    refine ⟨fun ho => absurd (isOpen.symm.trans ho) (by decide), fun _ => .inl ?_,
      fun ho => absurd (isOpen.symm.trans ho) (by decide)⟩
    rw [hclose, close, Bool.or_true]
  | ended exit plain running reader isOpen =>
    rw [plain, Bool.or_false] at hclose
    rw [exit, Bool.or_true] at hended
    refine ⟨?_, ?_, fun _ => iff_of_true reader hended⟩
    · rw [isOpen, hclose]
      exact hopened
    · rw [isOpen, hclose]
      exact fun ho => (hclosed ho).imp_right fun hend => absurd hend.1 running
  | stopped plain running reader isOpen =>
    rw [plain.2, Bool.or_false] at hclose
    rw [plain.1, Bool.or_false] at hended
    refine ⟨fun ho => absurd (isOpen.symm.trans ho) (by decide), fun _ => ?_,
      fun ho => absurd (isOpen.symm.trans ho) (by decide)⟩
    rw [hclose, hended]
    cases hopen : s.isOpen with
    | true => exact .inr ⟨reader, by simpa using mt (hreader hopen).mpr running⟩
    | false => exact (hclosed hopen).imp_right fun hend => absurd hend.1 running
  | other plain reader isOpen =>
    rw [plain.2, Bool.or_false] at hclose
    rw [plain.1, Bool.or_false] at hended
    refine ⟨?_, ?_, ?_⟩
    · rw [isOpen, hclose]
      exact hopened
    · rw [isOpen, hclose, hended, reader]
      exact hclosed
    · rw [isOpen, hended, reader]
      exact hreader

/-- The reader is gone and the stream is open exactly after a failed read or an end of file with no
    `Close`. -/
theorem Tracks.finished_iff {past : List Label} (h : Tracks past s) :
    (s.rpc.reader = .finished ∧ s.isOpen = true) ↔
      past.any Label.endsRead = true ∧ past.any Label.isClose = false := by
  cases hopen : s.isOpen with
  | true => simp [h.ended hopen, h.opened hopen]
  | false =>
    refine iff_of_false (by simp) ?_
    rintro ⟨hended, hclose⟩
    rcases h.closed hopen with hclosed | ⟨_, hnone⟩
    · exact absurd (hclose.symm.trans hclosed) (by decide)
    · exact absurd (hnone.symm.trans hended) (by decide)

/-- **A call waits with a reader, all along a run, exactly when every call that follows a failed
    read or the peer's end of file follows a `Close` too.**  The other two exits of `ReadLoop`, a
    bad header and a closed stream, need no condition: after them `Call` refuses. -/
theorem hasReader_iff (labels : List Label)
    (hrun : (system.run ⟨RpcClient.connected, true⟩ labels).isSome = true) :
    (∀ n s, system.run ⟨RpcClient.connected, true⟩ (labels.take n) = some s → s.HasReader) ↔
      ClosesBeforeCalls labels := by
  have hinit : Tracks [] ⟨RpcClient.connected, true⟩ := ⟨fun _ => rfl, nofun, fun _ => by decide⟩
  have htracks : ∀ n s, system.run ⟨RpcClient.connected, true⟩ (labels.take n) = some s →
      Tracks (labels.take n) s :=
    fun n s => System.run_history (fun past s a s' => step_tracks) (labels.take n) hinit
  rw [System.always_iff (fun s a s' => step_hasReader_iff) labels (absurd rfl) hrun]
  constructor
  · intro hall n hn hfits hended
    obtain ⟨s, hs⟩ := System.run_take hrun n
    have ha : labels[n]? = some labels[n] := List.getElem?_eq_getElem hn
    rw [ha] at hfits
    cases hlabel : labels[n] with
    | call verb payload =>
      by_contra hnot
      obtain ⟨hfinished, hopen⟩ := (htracks n s hs).finished_iff.mpr ⟨hended, by simpa using hnot⟩
      rw [hlabel] at ha hfits
      rcases hall n s _ hs ha hfinished with hclosed | hlong
      · exact absurd (hclosed.symm.trans hopen) (by decide)
      · exact absurd (of_decide_eq_true hfits) (Nat.not_le.mpr hlong)
    | _ => rw [hlabel] at hfits; cases hfits
  · intro hcloses n s a hs ha
    cases a with
    | call verb payload =>
      intro hfinished
      by_contra hnot
      obtain ⟨hopen, hlong⟩ := not_or.mp hnot
      have hends := (htracks n s hs).finished_iff.mp ⟨hfinished, by simpa using hopen⟩
      have hclose := hcloses n (List.getElem?_eq_some_iff.mp ha).1
        (by rw [ha]; exact decide_eq_true (Nat.le_of_not_lt hlong)) hends.1
      exact absurd (hends.2.symm.trans hclose) (by decide)
    | _ => trivial

/-- A bad header closes the stream, so the call after it is refused. -/
def badHeaderLabels : List Label :=
  [.call 7 [], .callSuspend 0, .readStart, .readResume (.ok (List.replicate 16 255)), .call 8 []]

/-- The end of file does not; here somebody closes it before the next call. -/
def closedEofLabels : List Label :=
  [.call 7 [], .callSuspend 0, .readStart, .readResume (.ok []), .close, .call 8 []]

theorem hasReader_ended :
    ((system.run ⟨RpcClient.connected, true⟩ badHeaderLabels).isSome = true ∧
      ∀ n s, system.run ⟨RpcClient.connected, true⟩ (badHeaderLabels.take n) = some s →
        s.HasReader) ∧
    (system.run ⟨RpcClient.connected, true⟩ closedEofLabels).isSome = true ∧
      ∀ n s, system.run ⟨RpcClient.connected, true⟩ (closedEofLabels.take n) = some s →
        s.HasReader := by
  have hbad : (system.run ⟨RpcClient.connected, true⟩ badHeaderLabels).isSome = true := by
    decide +kernel
  have hclosed : (system.run ⟨RpcClient.connected, true⟩ closedEofLabels).isSome = true := by
    decide +kernel
  exact ⟨⟨hbad, (hasReader_iff badHeaderLabels hbad).mpr (by decide +kernel)⟩, hclosed,
    (hasReader_iff closedEofLabels hclosed).mpr (by decide +kernel)⟩

/-- The peer ends the connection; the stream stays open, and the next call waits for nobody. -/
theorem call_after_eof : ∃ s, system.run ⟨RpcClient.connected, true⟩
    [.readStart, .readResume (.ok []), .call 7 [], .callSuspend 0] = some s ∧
    s.rpc.calls.map (fun c => (c.pending.waiter, c.pending.done)) = [(true, false)] ∧
    ¬ s.HasReader := by
  unfold HasReader
  exact exists_end (by decide +kernel)

end Client

/-! ## Over the wire -/

variable {server : RpcServer} {chunks : List Bytes} {requests lost : List Request}

/-- A session answers the requests at the front of what it reads, and nothing else. -/
theorem outcome_replies (server : RpcServer) (hne : ∀ c ∈ chunks, c ≠ []) :
    ∃ requests lost rest, chunks.flatten = frames requests ++ rest ∧
      AnswersFit server 0 (requests ++ lost) ∧
      (outcome server chunks).1 = repliesFrom server 0 requests := by
  obtain ⟨requests, rest, hstream, hfit, hshort | ⟨bad, behind, status, rfl, hoff⟩⟩ :=
    stream_cases server chunks.flatten 0
  · refine ⟨requests, [], rest, hstream, by rwa [append_nil], ?_⟩
    rw [outcome_short hne hstream hfit hshort]
  · rw [Nat.zero_add] at hoff
    obtain ⟨_, _, _, kept, lost, _, rfl, _, _, _, _, hout⟩ := outcome_offence hne hstream hfit hoff
    refine ⟨kept, lost, frames lost ++ (bad ++ behind), ?_, hfit, by rw [hout]⟩
    simp [hstream, frames]

/-- Frames at the front of the replies are answers. -/
theorem answer_of_mem {fs : List (WireHeader × Bytes)} {buf : Bytes} {served : Nat}
    (hlen : ∀ f ∈ fs, f.1.len.toNat = f.2.length)
    (hfit : AnswersFit server served (requests ++ lost))
    (h : (fs.map RpcClient.frameBytes).flatten ++ buf <+: repliesFrom server served requests) :
    ∀ f ∈ fs, ∃ i r, requests[i]? = some r ∧ r.reqId = f.1.reqId ∧
      f.2 = (server.dispatch (served + i) r.verb r.payload).2 := by
  induction fs generalizing requests served with
  | nil => nofun
  | cons f fs ih =>
    obtain ⟨tail, htail⟩ := h
    rw [map_cons, flatten_cons, append_assoc, append_assoc] at htail
    rw [List.forall_mem_cons] at hlen ⊢
    cases requests with
    | nil =>
      have hnil := congrArg List.length htail
      simp [RpcClient.frameBytes, appendFrame, kHeader, repliesFrom] at hnil
    | cons r rs =>
      have hfits := UInt32.toNat_ofNat_of_lt' (Nat.lt_of_le_of_lt hfit.1 (by decide))
      obtain ⟨rfl, hrest⟩ :=
        appendFrame_inj (g := (⟨r.reqId, _, r.verb, kResponse, 0⟩, _)) hlen.1 hfits htail
      refine ⟨⟨0, r, rfl, rfl, rfl⟩, fun g hg => ?_⟩
      obtain ⟨i, hi⟩ := ih hlen.2 hfit.2 ⟨tail, by rw [append_assoc]; exact hrest⟩ g hg
      rw [Nat.add_right_comm] at hi
      exact ⟨i + 1, hi⟩

namespace Client

/-- Every call that succeeds has the answer to one of the requests, under its own id. -/
def Answered (server : RpcServer) (requests : List Request) (s : Client) : Prop :=
  ∀ c ∈ s.rpc.calls, ∀ bytes, c.stage = .returned (.ok bytes) →
    ∃ i r, requests[i]? = some r ∧ r.reqId = c.id ∧ bytes = (server.dispatch i r.verb r.payload).2

/-- **A call returns what the handler answered to a request with the call's id**, however both sides
    split their reads, whatever follows the requests and whichever calls are open. -/
theorem reachable_answered {s : Client} (h : system.Reachable s)
    (hfew : s.rpc.calls.length < 2 ^ 64) (hne : ∀ c ∈ chunks, c ≠ [])
    (hreceived : s.rpc.received <+: (outcome server chunks).1) :
    ∃ requests rest, chunks.flatten = frames requests ++ rest ∧ Answered server requests s := by
  obtain ⟨hframed, hinv⟩ := reachable_inv h
  obtain ⟨requests, lost, rest, hstream, hfit, hout⟩ := outcome_replies server hne
  rw [hout, hframed.bytes] at hreceived
  refine ⟨requests, rest, hstream, fun c hc bytes hstage => ?_⟩
  obtain ⟨header, hfirst⟩ := ((hinv hfew).correlates hframed hfew).ok c hc bytes hstage
  unfold RpcClient.firstResponse at hfirst
  obtain ⟨i, r, hi, hid, hbytes⟩ := answer_of_mem
    (fun f hf => (hframed.responses f hf).length.symm) hfit hreceived _
    (List.mem_of_mem_drop (List.mem_of_find?_eq_some hfirst))
  have hown : header.reqId = c.id := by simpa using List.find?_some hfirst
  exact ⟨i, r, hi, hid.trans hown, by rwa [Nat.zero_add] at hbytes⟩

/-- The fifth of five calls returns; its session ends with an error behind the request. -/
theorem answered_stray : ∃ s requests rest, s.rpc.calls.length = 5 ∧
    [42] ∈ s.rpc.calls.map (·.pending.result) ∧
    straySession = frames requests ++ rest ∧ Answered demoServer requests s := by
  obtain ⟨s, hs, hlen, hresult, hreceived⟩ := exists_reachable (S := system)
    (P := fun s => s.rpc.calls.length = 5 ∧ [42] ∈ s.rpc.calls.map (·.pending.result) ∧
      s.rpc.received <+: (outcome demoServer [straySession.take 19, straySession.drop 19]).1)
    ⟨RpcClient.connected, true⟩
    ([.readStart] ++ List.replicate 5 (.call 7 [1, 2, 3]) ++ [.callSuspend 4, .readResume
      (.ok (responseFrame demoServer 0 ⟨5, 7, [1, 2, 3], strayPayload_fits⟩)), .callResume 4])
    rfl (by decide +kernel)
  obtain ⟨requests, rest, h⟩ := reachable_answered hs (by omega) (by decide) hreceived
  exact ⟨s, requests, rest, hlen, hresult, h⟩

end Client

end Bycorf.Rpc
