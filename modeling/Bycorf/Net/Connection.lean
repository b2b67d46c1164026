/-
  `Connection`: the per-connection record, and what the worker and the receive handlers do to ONE
  connection.  The functions here are pure; what they ask of the rest of the worker (resume a
  reader, queue a re-arm, give a buffer back) is returned next to the new record.
-/
import Bycorf.IoUring.Backend

namespace Bycorf.Net

open IoUring

/-- `ConnectionState`. -/
inductive ConnectionState where
  | active | closing | draining | retired
deriving DecidableEq, Repr

/-- Why a connection is closed. -/
inductive CloseMode where
  | localClose | peerClosed | localError | idleTimeout | workerShutdown
deriving DecidableEq, Repr

/-- How a connection receives. -/
inductive RecvMode where
  | multishot | oneShot
deriving DecidableEq, Repr

/-- A provided buffer with data that no reader has taken yet. -/
structure ReceivedBuffer where
  bufferId : UInt16
  size : UInt32
  offset : UInt32
deriving DecidableEq, Repr

/-- The fields of `Connection` that the lifecycle reads.  `worker_`, `generation_`, the TLS state
    and the protocol context are left out: nothing modelled here reads them.  A coroutine handle
    is a number. -/
structure Connection where
  file : RegisteredFile
  readWaiter : Option Nat
  lastError : Status
  lastActiveMs : Int
  inflightOps : Nat
  state : ConnectionState
  recvMode : RecvMode
  closing : Bool
  closed : Bool
  readInflight : Bool
  writeInflight : Bool
  recvPaused : Bool
  recvArmed : Bool
  needsRecvRearm : Bool
  recvEof : Bool
  retired : Bool
  peerDisconnectPollArmed : Bool
  peerDisconnectPollCancelRequested : Bool
  readBuffer : Span
  storageBorrows : Nat
  receivedBuffers : List ReceivedBuffer
  peerDisconnectCallback : Bool
deriving DecidableEq, Repr

/-- A connection as its creators hand it to `AddConnection`: the descriptor set, `closed_` cleared,
    everything else at its default.  `buffer` is where `read_buffer_` will live once allocated. -/
def Connection.fresh (file : RegisteredFile) (mode : RecvMode) (buffer : UInt64) : Connection where
  file := file
  readWaiter := none
  lastError := Status.okStatus
  lastActiveMs := 0
  inflightOps := 0
  state := .active
  recvMode := mode
  closing := false
  closed := false
  readInflight := false
  writeInflight := false
  recvPaused := false
  recvArmed := false
  needsRecvRearm := false
  recvEof := false
  retired := false
  peerDisconnectPollArmed := false
  peerDisconnectPollCancelRequested := false
  readBuffer := ⟨buffer, 0⟩
  storageBorrows := 0
  receivedBuffers := []
  peerDisconnectCallback := false

/-- What the worker's options and its backend's `Init` settle once.  `errnoToStatus` stands for
    `absl::ErrnoToStatus`, which is not part of the repository. -/
structure Options where
  recvMultishotEnabled : Bool
  recvBufferCount : Nat
  recvBufferSize : Nat
  idleTimeoutMs : Int
  errnoToStatus : Int → String → Status

def eNobufs : Int := 105

namespace Connection

/-- `state_ == kActive && !closed_ && !closing_`, the test of every stream operation. -/
def usable (conn : Connection) : Bool :=
  conn.state = .active && !conn.closed && !conn.closing

/-- `recv_multishot_enabled_ && recv_mode_ == RecvMode::kMultishot`. -/
def useMultishot (o : Options) (conn : Connection) : Bool :=
  o.recvMultishotEnabled && conn.recvMode = .multishot

/-- `StartRecvMultishot` allocates the one-shot buffer on first use. -/
def allocateReadBuffer (o : Options) (conn : Connection) : Connection :=
  if conn.useMultishot o = false ∧ conn.readBuffer.size = 0 then
    { conn with readBuffer := ⟨conn.readBuffer.data, o.recvBufferSize⟩ }
  else conn

/-- `CanReclaim`. -/
def canReclaim (conn : Connection) : Bool :=
  conn.state ≠ .active && conn.inflightOps = 0 && conn.storageBorrows = 0 &&
    conn.readWaiter.isNone && !conn.readInflight && !conn.writeInflight && !conn.recvArmed &&
    conn.receivedBuffers.isEmpty

/-- Take the waiting reader: the handle to enqueue, and the record without it. -/
def takeReader (conn : Connection) : Option Nat × Connection :=
  match conn.readWaiter with
  | some waiter => (some waiter, { conn with readWaiter := none, readInflight := false })
  | none => (none, conn)

/-! ## Completions -/

variable {T : Type}

/-- The result part of `HandleMultishotRecv`: whether the reader is to be notified, and the record
    with the data, the end of the stream or the error.  `-ECANCELED` and `-ENOBUFS` change
    nothing. -/
def recvResult (o : Options) (now : Int) (cqe : Cqe T) (conn : Connection) : Bool × Connection :=
  if 0 < cqe.res ∧ (cqe.buffer.isSome ∨ conn.useMultishot o = false) then
    (true,
      { conn with
        lastActiveMs := now
        receivedBuffers := conn.receivedBuffers ++
          [⟨cqe.buffer.getD 0, UInt32.ofNat cqe.res.toNat, 0⟩] })
  else if cqe.res = 0 then
    (true, { conn with recvEof := true })
  else if cqe.res < 0 ∧ cqe.res ≠ -eCanceled ∧ cqe.res ≠ -eNobufs then
    (true, { conn with lastError := o.errnoToStatus (-cqe.res) "recv failed" })
  else if 0 < cqe.res then
    (true, { conn with lastError := ⟨.internal, "recv completion missing selected buffer"⟩ })
  else
    (false, conn)

/-- The terminal part of `HandleMultishotRecv`: whether the connection joins the re-arm queue. -/
def recvEnd (o : Options) (conn : Connection) : Bool × Connection :=
  let conn := { conn with recvArmed := false, inflightOps := conn.inflightOps - 1 }
  if conn.useMultishot o ∧ conn.recvPaused = false ∧ conn.usable ∧ conn.recvEof = false then
    if conn.needsRecvRearm then (false, conn) else (true, { conn with needsRecvRearm := true })
  else if conn.state ≠ .active then
    (false, { conn with state := .draining })
  else
    (false, conn)

/-- What `HandleMultishotRecv` leaves: the record, a reader to resume, whether to queue a re-arm,
    and a buffer to recycle at once. -/
structure RecvEffect where
  conn : Connection
  resume : Option Nat
  rearm : Bool
  recycle : Option UInt16

/-- `HandleMultishotRecv`. -/
def handleMultishotRecv (o : Options) (now : Int) (cqe : Cqe T) (conn : Connection) :
    RecvEffect :=
  let result := conn.recvResult o now cqe
  let ended := if cqe.more then (false, result.2) else result.2.recvEnd o
  let reader := if result.1 then ended.2.takeReader else (none, ended.2)
  { conn := reader.2
    resume := reader.1
    rearm := ended.1
    recycle := if cqe.res ≤ 0 then cqe.buffer else none }

/-- `HandlePeerDisconnect`: the record, and whether the callback is invoked. -/
def handlePeerDisconnect (cqe : Cqe T) (conn : Connection) : Bool × Connection :=
  let conn := { conn with
    peerDisconnectPollArmed := false
    peerDisconnectPollCancelRequested := false
    inflightOps := conn.inflightOps - 1 }
  (0 ≤ cqe.res && conn.state = .active &&
      UInt32.ofNat cqe.res.toNat &&& (pollErr ||| pollHup ||| pollRdHup) ≠ 0 &&
      conn.peerDisconnectCallback,
    conn)

/-- `WriteOperation::Complete` and `WriteVOperation::Complete`, on the connection. -/
def writeComplete (conn : Connection) : Connection :=
  { conn with writeInflight := false, inflightOps := conn.inflightOps - 1 }

/-! ## Closing -/

/-- What `BeginClose` does to the record up to `RetireConnection`, and the reader it resumes. -/
def beginClose (reason : Status) (mode : CloseMode) (conn : Connection) : Option Nat × Connection :=
  let conn := { conn with
    lastError := if reason.isOk = false ∨ conn.lastError.isOk then reason else conn.lastError
    closing := true
    state := .closing
    file := if 0 ≤ conn.file.fd then { conn.file with fd := -1 } else conn.file
    closed := true
    recvEof := if mode = CloseMode.peerClosed then conn.recvEof else false }
  conn.takeReader

/-- `RetireConnection`, for a connection that was not retired before. -/
def retire (conn : Connection) : Connection :=
  { conn with
    retired := true
    closing := true
    state :=
      if conn.recvArmed ∨ conn.inflightOps ≠ 0 ∨ conn.readWaiter.isSome ∨ conn.readInflight ∨
          conn.writeInflight ∨ conn.receivedBuffers ≠ [] then
        .draining
      else .retired
    receivedBuffers := [] }

end Connection

end Bycorf.Net
