/-
  The storage of a client's connection.

  `RpcClient` keeps a `TcpStream`, and that is a plain `Connection*`: the client borrows no storage.
   The worker erases a closed connection in `ReclaimConnections`, and neither the client nor its
  stream learns of it.

  1. **The system** — a worker, the client's `stream_`, the shared state of the client and its read
     loops (one for each `Connect`).  `isOpen` reads the record, `Close` is `BeginClose`; everything
     else that happens on the worker (other coroutines, the idle timeout, the sweep) may happen at
     any point.
  2. **The gap** — after `Close` and a sweep, `connected()` reads an erased connection
     (`connected_after_sweep`).
  3. **Otherwise (`reachable_present`)** — as long as the client does not touch its stream after a
     sweep that found the connection closed and not borrowed, the connection is in the table
     whenever it does.
-/
import Bycorf.Net.Buffers
import Bycorf.Net.Receiving
import Bycorf.Rpc.Client

namespace Bycorf

open IoUring Lib

/-- `TcpStream::IsOpen`, for a stream with a connection. -/
def Net.Connection.isOpen (conn : Net.Connection) : Bool :=
  conn.state = .active && !conn.closed && 0 ≤ conn.file.fd

namespace Rpc

open Net (Connection Worker)

/-! ## The system -/

/-- One `ReadLoop` with its buffer. -/
structure ReadLoop where
  reader : Reader
  buf : Bytes
deriving DecidableEq, Repr

/-- A client with the worker that owns the connection of its stream. -/
structure Hosted where
  worker : Worker
  stream : Option ConnPtr          -- the connection of `stream_`
  rpc : RpcClient                  -- its `reader` and `buf` are those of the loop that runs
  loops : List ReadLoop
  -- bookkeeping of the model
  swept : Bool                     -- a sweep has run that could have erased the connection

namespace Hosted

variable (L : Liburing Net.Tag)

/-- `stream_.IsOpen()`.  The answer for an erased connection is of no consequence: the program reads
    freed storage. -/
def isOpen (s : Hosted) : Bool :=
  match s.stream with
  | none => false
  | some c => (s.worker.connections c).any Connection.isOpen

/-- `stream_.Close()`. -/
def closeStream (s : Hosted) : Worker :=
  match s.stream with
  | none => s.worker
  | some c =>
    match s.worker.connections c with
    | none => s.worker
    | some conn =>
      if conn.state ≠ .active then s.worker
      else s.worker.beginClose L c Status.okStatus .localClose

/-- What the client leaves: its state, and the worker if it called `Close`. -/
def after (s : Hosted) (result : RpcClient × Bool) : Hosted :=
  { s with
    rpc := result.1
    worker := if result.2 then s.closeStream L else s.worker }

/-- A step of the worker, or one of the client that looks at its connection. -/
inductive Label where
  | worker (a : Worker.Action)
  | connect (file : RegisteredFile) (buffer : UInt64) (now : Int)
  | connected
  | client (l : RpcClient.Label)
  | readLoop (k : Nat) (l : RpcClient.Label)

/-- The steps of `ReadLoop`. -/
def ofReadLoop : RpcClient.Label → Bool
  | .readStart | .readResume _ => true
  | _ => false

/-- A sweep that finds the connection closed and not borrowed. -/
def sweeps (s : Hosted) : Worker.Action → Bool
  | .reclaimConnections =>
    s.stream.any fun c => (s.worker.connections c).all fun conn =>
      conn.state ≠ .active && conn.storageBorrows = 0
  | _ => false

/-- One step. -/
def step (s : Hosted) : Label → Option Hosted
  | .worker a =>
    (s.worker.step L a).map fun w => { s with worker := w, swept := s.swept || s.sweeps a }
  | .connect file buffer now =>
    if Net.validFd file.fd ∧ s.worker.owner file.fd = .held then
      some { s with
        worker := (s.worker.addConnection (Connection.fresh file .multishot buffer) now).2
        stream := some s.worker.nextConnectionId
        loops := s.loops ++ [⟨.spawned, []⟩]
        swept := false }
    else none
  | .connected => some s
  | .client l => if ofReadLoop l then none else (s.rpc.step s.isOpen l).map (s.after L)
  | .readLoop k l =>
    if ofReadLoop l then
      s.loops[k]?.bind fun loop =>
        (({ s.rpc with reader := loop.reader, buf := loop.buf } : RpcClient).step s.isOpen l).map
          fun result => { s.after L result with
            loops := s.loops.set k ⟨result.1.reader, result.1.buf⟩ }
    else none

/-- Every run of a client on a worker. -/
def system : System Hosted Label where
  init s := (Worker.system L).init s.worker ∧ s.stream = none ∧ s.rpc = RpcClient.connected ∧
    s.loops = [] ∧ s.swept = false
  step s l := s.step L l

/-- The writer starts another `WriteSome`. -/
def writesOn (s : Hosted) (l : RpcClient.Label) : Bool :=
  (s.rpc.step s.isOpen l).any fun result =>
    match result.1.writer with
    | .writing .. => true
    | _ => false

/-- Does the step look at the connection of `stream_`? -/
def inspects (s : Hosted) : Label → Bool
  | .worker _ | .connect .. => false
  | .connected | .readLoop .. => true
  | .client l =>
    match l with
    | .call .. | .close => true
    | .writeStart | .writeResume _ => s.writesOn l
    | _ => false

/-! ## Storage -/

variable {L}

/-- The client does not touch its stream after a sweep that could have erased the connection. -/
def InTime (s : Hosted) (l : Label) : Prop := s.inspects l = true → s.swept = false

instance (s : Hosted) (l : Label) : Decidable (s.InTime l) :=
  inferInstanceAs (Decidable (s.inspects l = true → s.swept = false))

/-- Until such a sweep the connection is in the table. -/
structure Inv (s : Hosted) : Prop where
  sound : s.worker.Sound
  present : s.swept = false → ∀ c, s.stream = some c → ∃ conn, s.worker.connections c = some conn

variable {s : Hosted}

/-- A step of the worker that is no such sweep erases nothing of the client's. -/
theorem Inv.worker (h : s.Inv) {a : Worker.Action} {w : Worker} (hw : s.worker.step L a = some w) :
    Inv { s with worker := w, swept := s.swept || s.sweeps a } := by
  refine ⟨(Worker.step_sound h.sound hw).1, fun hnot c hc => ?_⟩
  rw [Bool.or_eq_false_iff] at hnot
  obtain ⟨conn, hconn⟩ := h.present hnot.1 c hc
  rcases (Worker.step_act h.sound hw).lives h.sound.table hconn with ⟨conn', hconn', _⟩ | hgone
  · exact ⟨conn', hconn'⟩
  obtain ⟨hnone, rfl, _⟩ := hgone
  obtain ⟨_, heq⟩ := ite_none_right_eq_some.mp hw
  cases heq
  -- what the sweep erased was closed and not borrowed
  have hcan := h.sound.table.erased hconn hnone
  simp only [Connection.canReclaim, and_eq_true, decide_eq_true_eq] at hcan
  have hsweeps : s.sweeps .reclaimConnections = true := by
    simp [sweeps, show s.stream = some c from hc, hconn, hcan.1.1.1.1.1.1.1, hcan.1.1.1.1.1.2]
  exact absurd (hnot.2.symm.trans hsweeps) (by decide)

/-- `Close` keeps the record. -/
theorem Inv.close (h : s.Inv) : Inv { s with worker := s.closeStream L } := by
  unfold closeStream
  split
  · exact h
  rename_i c hc
  split
  · exact h
  rename_i conn hconn
  split
  · exact h
  have hw : s.worker.step L (.beginClose c Status.okStatus .localClose) =
      some (s.worker.beginClose L c Status.okStatus .localClose) := rfl
  have hinv := h.worker hw
  exact ⟨hinv.sound, fun hnot => hinv.present (by simpa [sweeps] using hnot)⟩

theorem Inv.after (h : s.Inv) (result : RpcClient × Bool) : (s.after L result).Inv := by
  have hclose := h.close (L := L)
  unfold Hosted.after
  split
  · exact { hclose with }
  · exact { h with }

theorem step_inv {s s' : Hosted} {l : Label} (h : s.Inv) (hs : s.step L l = some s') : s'.Inv := by
  cases l with
  | worker a =>
    obtain ⟨w, hw, rfl⟩ := map_eq_some_iff.mp hs
    exact h.worker hw
  | connect file buffer now =>
    refine of_guard hs fun hguard => ?_
    have hw : s.worker.step L (.addConnection file .multishot buffer now) =
        some (s.worker.addConnection (Connection.fresh file .multishot buffer) now).2 :=
      if_pos hguard
    refine ⟨(Worker.step_sound h.sound hw).1, fun _ c hc => ?_⟩
    cases hc
    rw [Worker.addConnection_eq hguard.1]
    exact ⟨_, Worker.setConn_self ..⟩
  | connected =>
    cases hs
    exact h
  | client l =>
    obtain ⟨_, heq⟩ := ite_none_left_eq_some.mp hs
    obtain ⟨result, _, rfl⟩ := map_eq_some_iff.mp heq
    exact h.after result
  | readLoop k l =>
    obtain ⟨_, heq⟩ := ite_none_right_eq_some.mp hs
    obtain ⟨loop, _, hloop⟩ := bind_eq_some_iff.mp heq
    obtain ⟨result, _, rfl⟩ := map_eq_some_iff.mp hloop
    exact ⟨(h.after result).sound, (h.after result).present⟩

theorem reachable_inv {ok : Hosted → Label → Prop}
    (h : (system L).ReachableUnder ok s) : s.Inv := by
  refine h.invariant (P := Inv) ?_ fun s l s' hinv _ hs => step_inv hinv hs
  rintro s ⟨hworker, hstream, _⟩
  have hreach : (Worker.system L).ReachableUnder (fun _ _ => True) s.worker := .init hworker
  refine ⟨Worker.reachable_sound hreach, fun _ c hc => ?_⟩
  rw [hstream] at hc
  cases hc

/-- **The client never uses a reclaimed connection**, in every run in which it does not touch its
    stream after a sweep that found the connection closed and not borrowed: at each step that looks
    at the connection of `stream_`, that connection is in the table. -/
theorem reachable_present {s : Hosted} {l : Label} (h : (system L).ReachableUnder InTime s)
    (hok : s.InTime l) (hinspects : s.inspects l = true) {c : ConnPtr} (hc : s.stream = some c) :
    s.worker.connections c ≠ none := by
  obtain ⟨conn, hconn⟩ := (reachable_inv h).present (hok hinspects) c hc
  rw [hconn]
  exact Option.some_ne_none conn

/-! ## Two runs -/

/-- A client that is not connected, on a small worker. -/
def smallHosted : Hosted := ⟨Worker.smallWorker, none, RpcClient.connected, [], false⟩

/-- The client connects and its reader suspends in `ReadSome`. -/
def connectAndRead : List Label :=
  [.worker (.socket 7), .connect ⟨7, 0, false⟩ 0 1, .readLoop 0 .readStart,
    .worker (.readSuspend 1 5), .worker (.submit 1 1)]

/-- The client closes the stream; the receive is cancelled, and the reader ends. -/
def closeAndDrain : List Label :=
  .client .close :: (Worker.cancelReceive ++ Worker.pollPass 2).map .worker ++
    [.readLoop 0 (.readResume (.error ⟨.unavailable, "no received data available"⟩))]

theorem present_before_sweep : ∃ s, (system (Liburing.standard Net.Tag)).run smallHosted
        (connectAndRead ++ closeAndDrain) = some s ∧
      s.isOpen = false ∧ s.inspects .connected = true ∧ s.worker.connections 1 ≠ none := by
  have hfollows : (system (Liburing.standard Net.Tag)).Follows InTime smallHosted
      (connectAndRead ++ closeAndDrain) := by
    decide +kernel
  have hrun : ∃ s ∈ (system (Liburing.standard Net.Tag)).run smallHosted
      (connectAndRead ++ closeAndDrain), s.isOpen = false ∧ s.InTime .connected ∧
      s.stream = some 1 := by
    decide +kernel
  obtain ⟨s, hs, hclosed, hok, hstream⟩ := hrun
  exact ⟨s, hs, hclosed, rfl, reachable_present
    (.run (.init ⟨⟨_, _, _, rfl⟩, rfl, rfl, rfl, rfl⟩) _ hfollows hs) hok rfl hstream⟩

/-- **`connected()` after a close and a sweep reads an erased connection.** -/
theorem connected_after_sweep : ∃ s, (system (Liburing.standard Net.Tag)).run smallHosted
        (connectAndRead ++ closeAndDrain ++ [.worker .reclaimConnections]) = some s ∧
      s.inspects .connected = true ∧ s.stream = some 1 ∧ s.worker.connections 1 = none := by
  exact exists_end (by decide +kernel)

end Hosted

end Rpc

end Bycorf
