/-
  The connection side of `Worker` on the kernel backend: the connection table, the listeners, the
  provided receive buffers and the descriptors, on top of one `Backend`.

  1. **State** — `Worker` embeds the backend and adds the tables.  A `Connection*` or a listener is
     its number; numbers are never reused, so "refers to" is equality of numbers.
  2. **Descriptors** — `owner` says who may use a descriptor number: `closedAt` remembers, for each
     number, how many operations had been accepted when it was last closed.  Both are bookkeeping
     of the model; the program never reads them.
  3. **Runs** — application code (tasks and callbacks) may act at any point; `ReclaimConnections`
     and `CheckIdleConnections` run outside `Poll` and `Wait` only, as in `RunOnce`.  The kernel
     hands out only free descriptors and available buffers, and only a multishot operation has
     more than one completion.
-/
import Mathlib.Algebra.Group.Nat.Defs
import Bycorf.Net.Connection

namespace Bycorf.Net

open IoUring Lib

/-! ## State -/

/-- The completion objects: a send of a connection, the accept of a listener, or one of the
    application. -/
inductive Tag where
  | write (connection : ConnPtr)
  | accept (listener : Nat)
  | app (n : Nat)
deriving DecidableEq, Repr

/-- `TcpListener` with its `ListenerAcceptState`. -/
structure Listener where
  fd : Int
  closed : Bool
  armed : Bool
  acceptedFds : List Int
  waiter : Option Nat
  lastError : Status
deriving DecidableEq, Repr

/-- Who may use a descriptor number. -/
inductive Owner where
  | free                               -- not an open descriptor
  | held                               -- the application's
  | wake                               -- the wake descriptor of the runtime
  | queued (listener : Nat)            -- accepted, not yet handed out
  | connection (connection : ConnPtr)
  | listener (listener : Nat)
  | elsewhere                          -- open, but none of this worker's business
deriving DecidableEq, Repr

/-- May this worker submit operations on the descriptor? -/
def Owner.usable : Owner → Bool
  | held | wake | connection _ | listener _ => true
  | _ => false

/-- The connection layer of a worker: its options, its backend, the queue of receives to arm again,
    the connections and the listeners. -/
structure Worker where
  options : Options
  backend : Backend Tag
  recvRearmQueue : List ConnPtr
  rearmBatch : List ConnPtr          -- the part `DrainRecvRearm` has detached
  bufferRing : List UInt16           -- provided buffers the kernel may select
  connections : ConnPtr → Option Connection
  nextConnectionId : Nat
  activeConnectionCount : Nat
  retiredConnectionIds : List ConnPtr
  ready : List Nat                   -- handles passed to `Enqueue`
  gActiveConnections : Int           -- the process-wide counter
  listeners : Nat → Option Listener
  nextListener : Nat
  -- bookkeeping of the model
  owner : Int → Owner
  closedAt : Int → Nat
  given : List (ConnPtr × UInt16)
  returned : List (ConnPtr × UInt16)

/-- `kDpdkSocketBase`: descriptors from here on are not the kernel's. -/
def dpdkSocketBase : Int := 0x40000000

/-- `detail::IsDpdkSocket`. -/
def isDpdkSocket (handle : Int) : Bool := dpdkSocketBase ≤ handle

/-- A number the kernel can hand out for a new socket. -/
def validFd (fd : Int) : Bool := 0 ≤ fd && !isDpdkSocket fd

namespace Worker

variable (L : Liburing Tag)

/-- A worker after `Init`: an empty ring of `slots`, every provided buffer in the buffer ring, and
    the wake descriptor. -/
def fresh (options : Options) (slots : List (Sqe Tag)) (wakeEventFd : Int) : Worker where
  options := options
  backend := Backend.fresh slots wakeEventFd
  recvRearmQueue := []
  rearmBatch := []
  bufferRing := (List.range options.recvBufferCount).map UInt16.ofNat
  connections := fun _ => none
  nextConnectionId := 1
  activeConnectionCount := 0
  retiredConnectionIds := []
  ready := []
  gActiveConnections := 0
  listeners := fun _ => none
  nextListener := 0
  owner := Function.update (fun _ => .free) wakeEventFd .wake
  closedAt := fun _ => 0
  given := []
  returned := []

/-! ## Small updates -/

def setConn (c : ConnPtr) (conn : Connection) (w : Worker) : Worker :=
  { w with connections := Function.update w.connections c (some conn) }

/-- `connections_.erase`. -/
def eraseConn (c : ConnPtr) (w : Worker) : Worker :=
  { w with connections := Function.update w.connections c none }

def setListener (l : Nat) (lst : Listener) (w : Worker) : Worker :=
  { w with listeners := Function.update w.listeners l (some lst) }

@[simp] theorem setListener_self (l : Nat) (lst : Listener) (w : Worker) :
    (w.setListener l lst).listeners l = some lst := by
  simp [setListener]

/-- `Enqueue` of a handle, if there is one. -/
def enqueue (waiter : Option Nat) (w : Worker) : Worker :=
  { w with ready := w.ready ++ waiter.toList }

/-- `close(fd)`: the number is free, and everything accepted so far was accepted before. -/
def closeFd (fd : Int) (w : Worker) : Worker :=
  { w with
    owner := Function.update w.owner fd .free
    closedAt := Function.update w.closedAt fd w.backend.nextOp }

/-- `RecycleMultishotBuffer`, for a buffer that was given to connection `c`. -/
def recycleMultishotBuffer (c : ConnPtr) (buffer : UInt16) (w : Worker) : Worker :=
  if w.options.recvMultishotEnabled ∧ buffer.toNat < w.options.recvBufferCount then
    { w with
      bufferRing := w.bufferRing ++ [buffer]
      returned := w.returned ++ [(c, buffer)] }
  else w

/-- `ReleaseRecvBuffer`. -/
def releaseRecvBuffer (c : ConnPtr) (conn : Connection) (buffer : UInt16) (w : Worker) : Worker :=
  if conn.useMultishot w.options then w.recycleMultishotBuffer c buffer else w

/-! ## Connections -/

/-- `AddConnection`. -/
def addConnection (conn : Connection) (now : Int) (w : Worker) : Option ConnPtr × Worker :=
  if conn.file.fd < 0 then
    (none, w)
  else
    let c := w.nextConnectionId
    (some c,
      { w.setConn c { conn with lastActiveMs := now } with
        nextConnectionId := c + 1
        activeConnectionCount := w.activeConnectionCount + 1
        gActiveConnections := w.gActiveConnections + 1
        owner := Function.update w.owner conn.file.fd (.connection c) })

/-- `StartRecvMultishot`. -/
def startRecvMultishot (c : ConnPtr) (w : Worker) : Status × Worker :=
  match w.connections c with
  | none => (⟨.invalidArgument, "connection must not be null"⟩, w)
  | some conn =>
    if conn.recvArmed ∨ conn.closed ∨ conn.closing ∨ conn.recvPaused then
      (Status.okStatus, w)  -- already armed, or not arm-able
    else if conn.useMultishot w.options = false ∧ conn.receivedBuffers ≠ [] then
      (Status.okStatus, w)
    else
      let conn := conn.allocateReadBuffer w.options
      let result := w.backend.submitOrQueue L
        (.request (.recv c conn.file (conn.useMultishot w.options) conn.readBuffer))
      if result.1.isOk then
        (Status.okStatus,
          { w.setConn c { conn with recvArmed := true, inflightOps := conn.inflightOps + 1 } with
            backend := result.2 })
      else
        (result.1, { w.setConn c conn with backend := result.2 })

/-- `StartPeerDisconnectPoll`. -/
def startPeerDisconnectPoll (c : ConnPtr) (w : Worker) : Status × Worker :=
  match w.connections c with
  | none => (⟨.invalidArgument, "connection must not be null"⟩, w)
  | some conn =>
    if conn.peerDisconnectPollArmed ∨ conn.closed ∨ conn.closing then
      (Status.okStatus, w)
    else
      let result := w.backend.submitOrQueue L (.request (.peerDisconnectPoll c conn.file))
      if result.1.isOk then
        (Status.okStatus,
          { w.setConn c { conn with
              peerDisconnectPollArmed := true
              peerDisconnectPollCancelRequested := false
              inflightOps := conn.inflightOps + 1 } with
            backend := result.2 })
      else
        (result.1, { w with backend := result.2 })

/-- `CancelPeerDisconnectPoll`, on the record and the backend. -/
def cancelDisconnect (c : ConnPtr) (conn : Connection) (b : Backend Tag) :
    Status × Connection × Backend Tag :=
  if conn.peerDisconnectPollArmed = false ∨ conn.peerDisconnectPollCancelRequested then
    (Status.okStatus, conn, b)
  else
    let result := b.cancelByData L (.peerDisconnect c) .peerDisconnectCancel
    if result.1.isOk then
      (Status.okStatus, { conn with peerDisconnectPollCancelRequested := true }, result.2)
    else
      (result.1, conn, result.2)

/-- `CancelPeerDisconnectPoll`. -/
def cancelPeerDisconnectPoll (c : ConnPtr) (w : Worker) : Status × Worker :=
  match w.connections c with
  | none => (Status.okStatus, w)
  | some conn =>
    let result := cancelDisconnect L c conn w.backend
    (result.1, { w.setConn c result.2.1 with backend := result.2.2 })

/-- `WriteOperation` and `WriteVOperation`: `await_suspend` up to the submission of `request`; the
    answer is the immediate result, or none when the coroutine suspends. -/
def writeSuspend (c : ConnPtr) (request : RegisteredFile → Request Tag) (w : Worker) :
    Option Int × Worker :=
  match w.connections c with
  | none => (some (-22), w)                                    -- `-EINVAL`
  | some conn =>
    if conn.usable = false then (some (-9), w)                 -- `-EBADF`
    else if conn.writeInflight then (some (-22), w)
    else
      let result := w.backend.submitOrQueue L (.request (request conn.file))
      if result.1.isOk then
        (none,
          { w.setConn c { conn with
              writeInflight := true, inflightOps := conn.inflightOps + 1 } with
            backend := result.2 })
      else
        (some (-eAgain), { w with backend := result.2 })

/-- `WriteOperation::await_suspend`. -/
def write (c : ConnPtr) (buffer : Span) : Worker → Option Int × Worker :=
  writeSuspend L c fun file => .send file buffer (some (.write c))

/-- `WriteVOperation::await_suspend`. -/
def writeV (c : ConnPtr) (message : UInt64) : Worker → Option Int × Worker :=
  writeSuspend L c fun file => .sendMsg file message (some (.write c))

/-! ## Reading -/

/-- `ReadOperation::await_suspend` with a nonempty destination: register the reader, unless the read
    fails or is already served; the answer says whether the coroutine suspends. -/
def readSuspend (c : ConnPtr) (waiter : Nat) (w : Worker) : Bool × Worker :=
  match w.connections c with
  | none => (false, w)
  | some conn =>
    if conn.usable = false then (false, w)
    else if conn.receivedBuffers ≠ [] ∨ conn.recvEof ∨ conn.lastError.isOk = false then (false, w)
    else if conn.readInflight ∨ conn.readWaiter.isSome then (false, w)
    else
      let armed := w.startRecvMultishot L c
      match armed.1.isOk, armed.2.connections c with
      | true, some conn =>
        (true, armed.2.setConn c { conn with readInflight := true, readWaiter := some waiter })
      | _, _ => (false, armed.2)

/-- The size of the span `ViewRecvBuffer` returns. -/
def viewRecvBuffer (o : Options) (conn : Connection) (buffer : ReceivedBuffer) (length : Nat) :
    Nat :=
  let offset := buffer.offset.toNat
  if conn.useMultishot o then
    if o.recvBufferCount ≤ buffer.bufferId.toNat ∨ o.recvBufferSize < offset ∨
        o.recvBufferSize - offset < length then 0
    else length
  else if buffer.bufferId ≠ 0 ∨ conn.readBuffer.size < offset ∨
      conn.readBuffer.size - offset < length then 0
  else length

/-- What the loop of `ReadOperation::await_resume` leaves: the queue, the ids of the buffers it
    released, and an error for the next read. -/
structure ReadEffect where
  buffers : List ReceivedBuffer
  released : List UInt16
  error : Option Status

/-- The loop of `ReadOperation::await_resume`, for a destination of `room` bytes of which `copied`
    are filled. -/
def readLoop (o : Options) (conn : Connection) (drainBuffered : Bool) (room : Nat) :
    Nat → List ReceivedBuffer → ReadEffect
  | _, [] => ⟨[], [], none⟩
  | copied, received :: rest =>
    let available := received.size.toNat - received.offset.toNat
    let toCopy := min (room - copied) available
    if viewRecvBuffer o conn received toCopy ≠ toCopy then
      -- the valid prefix is returned first, the error by the next read
      ⟨received :: rest, [],
        if copied = 0 then none else some ⟨.internal, "invalid multishot buffer view"⟩⟩
    else if toCopy = available then
      if drainBuffered ∧ copied + toCopy < room then
        let more := readLoop o conn drainBuffered room (copied + toCopy) rest
        { more with released := received.bufferId :: more.released }
      else
        ⟨rest, [received.bufferId], none⟩
    else
      ⟨{ received with offset := received.offset + UInt32.ofNat toCopy } :: rest, [], none⟩

/-- `ReadOperation::await_resume`, seen from the connection: an error is reported and cleared,
    otherwise queued data is consumed and used-up buffers are released. -/
def readResume (c : ConnPtr) (room : Nat) (drainBuffered : Bool) (w : Worker) : Worker :=
  match w.connections c with
  | none => w
  | some conn =>
    if conn.lastError.isOk = false then
      w.setConn c { conn with lastError := Status.okStatus }
    else
      let effect := readLoop w.options conn drainBuffered room 0 conn.receivedBuffers
      effect.released.foldl (fun w buffer => w.releaseRecvBuffer c conn buffer)
        (w.setConn c { conn with
          receivedBuffers := effect.buffers
          lastError := effect.error.getD conn.lastError })

/-- `SetReadAhead`. -/
def setReadAhead (c : ConnPtr) (enabled : Bool) (w : Worker) : Worker :=
  match w.connections c with
  | none => w
  | some conn =>
    if conn.state ≠ .active ∨ conn.closed ∨ conn.file.fd < 0 then w
    else if conn.recvArmed ∨ conn.readInflight ∨ conn.readWaiter.isSome ∨
        conn.receivedBuffers ≠ [] then w
    else w.setConn c { conn with recvMode := if enabled then .multishot else .oneShot }

/-- `PauseRead` up to its first suspension, with its `CancelRecvOperation` as tag. -/
def pauseRead (c : ConnPtr) (tag : Nat) (w : Worker) : Worker :=
  match w.connections c with
  | none => w
  | some conn =>
    if conn.usable = false ∨ conn.readWaiter.isSome ∨ conn.readInflight then w
    else
      let w := w.setConn c { conn with recvPaused := true }
      if conn.recvArmed then
        { w with backend := (w.backend.submitCancelRecv L (some c) (some (.app tag))).2 }
      else w

/-! ## Closing -/

/-- `RetireConnection`, with `DiscardReceivedBuffers`. -/
def retireConnection (c : ConnPtr) (w : Worker) : Worker :=
  match w.connections c with
  | none => w
  | some conn =>
    if conn.retired then w
    else
      let w := conn.receivedBuffers.foldl
        (fun w received => w.releaseRecvBuffer c conn received.bufferId) w
      { w.setConn c conn.retire with retiredConnectionIds := w.retiredConnectionIds ++ [c] }

/-- The cancels and the `close` of `BeginClose`. -/
def closeSocket (c : ConnPtr) (conn : Connection) (w : Worker) : Worker :=
  let w :=
    if conn.recvArmed then { w with backend := (w.backend.submitCancelRecv L (some c) none).2 }
    else w
  if 0 ≤ conn.file.fd then
    -- an operation that still waits for SQ space must not outlive the descriptor
    let w :=
      if isDpdkSocket conn.file.fd then w
      else { w with backend := w.backend.cancelUnsubmittedForFd L conn.file.fd }
    w.closeFd conn.file.fd
  else w

/-- An active connection that is closed leaves the counters. -/
def leaveActive (conn : Connection) (w : Worker) : Worker :=
  if conn.state = .active then
    { w with
      activeConnectionCount := w.activeConnectionCount - 1
      gActiveConnections := w.gActiveConnections - 1 }
  else w

/-- `BeginClose`. -/
def beginClose (c : ConnPtr) (reason : Status) (mode : CloseMode) (w : Worker) : Worker :=
  match w.connections c with
  | none => w
  | some conn =>
    if conn.state = .retired then w
    else
      let w := w.leaveActive conn
      let cancelled := cancelDisconnect L c conn w.backend
      let w := closeSocket L c conn { w with backend := cancelled.2.2 }
      let closed := cancelled.2.1.beginClose reason mode
      ((w.setConn c closed.2).enqueue closed.1).retireConnection c

/-- The loop of `ReclaimConnections`; `still` are the ids kept so far. -/
def reclaimLoop : List ConnPtr → List ConnPtr → Worker → Worker
  | [], still, w => { w with retiredConnectionIds := still }
  | c :: ids, still, w =>
    match w.connections c with
    | none => reclaimLoop ids still w
    | some conn =>
      if conn.canReclaim then
        reclaimLoop ids still (w.eraseConn c)
      else
        reclaimLoop ids (still ++ [c]) (w.setConn c { conn with state := .draining })

/-- `ReclaimConnections`. -/
def reclaimConnections (w : Worker) : Worker := reclaimLoop w.retiredConnectionIds [] w

/-- The body of the loop of `CheckIdleConnections`. -/
def closeIfIdle (now : Int) (w : Worker) (c : ConnPtr) : Worker :=
  match w.connections c with
  | none => w
  | some conn =>
    if conn.retired ∨ conn.closed ∨ conn.lastActiveMs ≤ 0 then w
    else if now - conn.lastActiveMs < w.options.idleTimeoutMs then w
    else
      let timedOut : Status := ⟨.deadlineExceeded, "connection idle timeout"⟩
      beginClose L c timedOut .idleTimeout (w.setConn c { conn with lastError := timedOut })

/-- `CheckIdleConnections`, visiting the table in the given order. -/
def checkIdleConnections (now : Int) (order : List ConnPtr) (w : Worker) : Worker :=
  if w.options.idleTimeoutMs ≤ 0 then w else order.foldl (closeIfIdle L now) w

/-! ## Listeners -/

/-- The code `ErrnoToStatus` of the listener maps an errno to. -/
def listenerErrnoCode (err : Int) : StatusCode :=
  if err = 11 then .unavailable               -- `EAGAIN`
  else if err = 110 then .deadlineExceeded    -- `ETIMEDOUT`
  else if err = eCanceled then .cancelled
  else if err = 22 then .invalidArgument      -- `EINVAL`
  else if err = 9 then .failedPrecondition    -- `EBADF`
  else if err = 24 ∨ err = 23 then .resourceExhausted  -- `EMFILE`, `ENFILE`
  else .unknown

/-- What a closed listener answers. -/
def listenerClosed : Status := ⟨.failedPrecondition, "listener is closed"⟩

/-- `ListenerAcceptState::Arm`. -/
def armListener (l : Nat) (w : Worker) : Status × Worker :=
  match w.listeners l with
  | none => (listenerClosed, w)
  | some lst =>
    if lst.armed then (Status.okStatus, w)
    else if lst.fd < 0 then (listenerClosed, w)
    else
      let result := w.backend.submitAcceptMultishot L lst.fd (some (.accept l))
      if result.1.isOk then
        (Status.okStatus, { w.setListener l { lst with armed := true } with backend := result.2 })
      else
        (result.1, { w with backend := result.2 })

/-- The result part of `ListenerAcceptState::Complete`. -/
def acceptResult (res : Int) (lst : Listener) : Listener :=
  if 0 ≤ res then { lst with acceptedFds := lst.acceptedFds ++ [res] }
  else if res ≠ -eCanceled ∧ res ≠ -9 then
    { lst with lastError := ⟨listenerErrnoCode (-res), "accept failed"⟩ }
  else if lst.closed then { lst with lastError := listenerClosed }
  else lst

/-- What `ListenerAcceptState::Complete` does to the listener, but for the re-arm. -/
def acceptDone (l : Nat) (res : Int) (more : Bool) (w : Worker) : Worker :=
  match w.listeners l with
  | none => w
  | some lst =>
    w.setListener l { acceptResult res lst with waiter := none, armed := lst.armed && more }

/-- An error of `Arm` is left for the next accept. -/
def rearmListener (l : Nat) (w : Worker) : Worker :=
  let result := armListener L l w
  match result.1.isOk, result.2.listeners l with
  | false, some lst => result.2.setListener l { lst with lastError := result.1 }
  | _, _ => result.2

/-- `ListenerAcceptState::Complete`. -/
def acceptComplete (l : Nat) (res : Int) (more : Bool) (w : Worker) : Worker :=
  match w.listeners l with
  | none => w
  | some lst =>
    let w := w.acceptDone l res more
    let w := if more ∨ lst.closed then w else w.rearmListener L l
    w.enqueue lst.waiter

/-- `AcceptUnregisteredAwaitable::await_suspend`. -/
def acceptSuspend (l : Nat) (waiter : Nat) (w : Worker) : Bool × Worker :=
  match w.listeners l with
  | none => (false, w)
  | some lst =>
    if lst.fd < 0 ∨ lst.closed then (false, w)
    else if lst.acceptedFds ≠ [] ∨ lst.lastError.isOk = false then (false, w)
    else if lst.waiter.isSome then (false, w)
    else
      let result := armListener L l w
      match result.1.isOk, result.2.listeners l with
      | true, some lst => (true, result.2.setListener l { lst with waiter := some waiter })
      | _, _ => (false, result.2)

/-- `ConsumeAcceptedFd`: the descriptor handed out, if any. -/
def consumeAcceptedFd (l : Nat) (w : Worker) : Option Int × Worker :=
  match w.listeners l with
  | none => (none, w)
  | some lst =>
    match lst.acceptedFds with
    | fd :: fds =>
      (some fd,
        { w.setListener l { lst with acceptedFds := fds } with
          owner := Function.update w.owner fd .held })
    | [] =>
      if lst.lastError.isOk then (none, w)
      else (none, w.setListener l { lst with lastError := Status.okStatus })

/-- `TcpListener::Close`, without the Unix pathname. -/
def closeListener (l : Nat) (w : Worker) : Worker :=
  match w.listeners l with
  | none => w
  | some lst =>
    if lst.closed then w
    else
      -- `CloseAllAcceptedFds`
      let w := lst.acceptedFds.foldl (fun w fd => w.closeFd fd) w
      let w := w.setListener l { lst with closed := true, fd := -1, acceptedFds := [] }
      if 0 ≤ lst.fd then
        let w :=
          if isDpdkSocket lst.fd then w
          else { w with backend := w.backend.cancelUnsubmittedForFd L lst.fd }
        w.closeFd lst.fd
      else w

/-- `Bind` once it has its socket. -/
def bindListener (fd : Int) (w : Worker) : Worker :=
  { w.setListener w.nextListener ⟨fd, false, false, [], none, Status.okStatus⟩ with
    nextListener := w.nextListener + 1
    owner := Function.update w.owner fd (.listener w.nextListener) }

/-! ## Dispatch -/

/-- `HandleMultishotRecv` with its effects on the worker. -/
def handleRecv (c : ConnPtr) (now : Int) (cqe : Cqe Tag) (w : Worker) : Worker :=
  match w.connections c with
  | none => w
  | some conn =>
    let effect := conn.handleMultishotRecv w.options now cqe
    let w := w.setConn c effect.conn
    let w := { w with
      given := w.given ++ (cqe.buffer.map fun buffer => (c, buffer)).toList
      recvRearmQueue := if effect.rearm then w.recvRearmQueue ++ [c] else w.recvRearmQueue }
    let w :=
      match effect.recycle with
      | some buffer => w.recycleMultishotBuffer c buffer
      | none => w
    w.enqueue effect.resume

/-- Replace the record of a connection that is in the table. -/
def modifyConn (c : ConnPtr) (f : Connection → Connection) (w : Worker) : Worker :=
  match w.connections c with
  | none => w
  | some conn => w.setConn c (f conn)

/-- The handler `DispatchCqe` chooses.  The application's part of a handler (what runs after
    `Complete` resumes it, the disconnect callback) are actions of their own. -/
def runHandler (stopping : Bool) (now : Int) (cqe : Cqe Tag) (w : Worker) : Worker :=
  match cqe.userData with
  | .recv c => w.handleRecv c now cqe
  | .peerDisconnect c => w.modifyConn c fun conn => (conn.handlePeerDisconnect cqe).2
  | .completion (.write c) => w.modifyConn c Connection.writeComplete
  | .completion (.accept l) => acceptComplete L l cqe.res cqe.more w
  | _ => { w with backend := w.backend.handle L stopping cqe }

/-- Dispatch a completion that was taken from its queue, of which `cq` and `phase` are left. -/
def dispatch (stopping : Bool) (now : Int) (cqe : Cqe Tag) (cq : List (Cqe Tag))
    (phase : Phase Tag) (w : Worker) : Worker :=
  runHandler L stopping now cqe { w with backend := w.backend.startHandler L cqe cq phase }

/-- One entry of the batch of `DrainRecvRearm`. -/
def rearmOne (c : ConnPtr) (w : Worker) : Worker :=
  match w.connections c with
  | none => w
  | some conn =>
    let w := w.setConn c { conn with needsRecvRearm := false }
    if conn.usable ∧ conn.recvEof = false ∧ conn.recvPaused = false then
      let result := w.startRecvMultishot L c
      match result.1.isOk, result.2.connections c with
      | false, some conn => result.2.setConn c { conn with lastError := result.1 }
      | _, _ => result.2
    else w

/-! ## Runs -/

/-- The raw descriptor a request names, if it is one of the socket operations. -/
def rawFd : Request Tag → Option Int
  | .send file .. | .sendMsg file .. | .recv _ file .. | .peerDisconnectPoll _ file =>
    if file.isFixed then none else some file.fd
  | .wakePoll fd | .acceptMultishot fd _ | .connect fd .. | .poll fd .. => some fd
  | _ => none

/-- A tag that stands for nothing in the connection layer. -/
def appData : UserData Tag → Bool
  | .null | .crossCoreWake | .completion (.app _) => true
  | _ => false

/-- The backend functions the application calls itself: with tags of its own, and on descriptors
    it may use. -/
def appCall (w : Worker) : Backend.Call Tag → Bool
  | .request r => appData r.userData && ((rawFd r).all fun fd => (w.owner fd).usable)
  | .submitCancel _ | .cancelUnsubmittedForFd _ | .registerFixedFiles .. => true
  | .submitCancelRecv _ tag =>
    match tag with
    | none | some (.app _) => true
    | _ => false
  | .armWakePoll => true
  | .cancelPeerDisconnect _ => false

/-- More than one completion may follow. -/
def isMultishot (sqe : Sqe Tag) : Bool :=
  sqe.opcode = .accept || (sqe.opcode = .recv && sqe.bufferSelect)

/-- What the kernel may answer for an operation it owns. -/
def kernelMay (w : Worker) (e : Entry Tag) (res : Int) (more : Bool) (buffer : Option UInt16) :
    Bool :=
  (!more || isMultishot e.sqe) &&
  (buffer.all fun b => e.sqe.bufferSelect && w.bufferRing.contains b) &&
  (!(e.sqe.opcode = .accept && 0 ≤ res) || (validFd res && w.owner res = .free))

/-- The kernel's side of a completion: the selected buffer leaves the ring, an accepted socket
    gets its descriptor. -/
def kernelComplete (i : Nat) (res : Int) (more : Bool) (buffer : Option UInt16) (w : Worker) :
    Option Worker :=
  match w.backend.kernel[i]?, w.backend.complete i res more buffer with
  | some e, some b =>
    if w.kernelMay e res more buffer then
      some { w with
        backend := b
        bufferRing := w.bufferRing.filter fun b => buffer ≠ some b
        owner :=
          if e.sqe.opcode = .accept ∧ 0 ≤ res then
            Function.update w.owner res
              (match e.sqe.userData with
              | .completion (.accept l) => .queued l
              | _ => .held)
          else w.owner }
    else none
  | _, _ => none

/-- What can happen to a worker: application code, its event loop, or the kernel. -/
inductive Action where
  -- application code
  | addConnection (file : RegisteredFile) (mode : RecvMode) (buffer : UInt64) (now : Int)
  | ensureRecvArmed (c : ConnPtr)
  | setPeerDisconnectCallback (c : ConnPtr) (callback : Bool)
  | ensurePeerDisconnectPollArmed (c : ConnPtr)
  | cancelPeerDisconnectPoll (c : ConnPtr)
  | write (c : ConnPtr) (buffer : Span)
  | writeV (c : ConnPtr) (message : UInt64)
  | readSuspend (c : ConnPtr) (waiter : Nat)
  | readResume (c : ConnPtr) (room : Nat) (drainBuffered : Bool)
  | setReadAhead (c : ConnPtr) (enabled : Bool)
  | pauseRead (c : ConnPtr) (tag : Nat)
  | beginClose (c : ConnPtr) (reason : Status) (mode : CloseMode)
  | borrow (c : ConnPtr)
  | release (c : ConnPtr)
  | call (c : Backend.Call Tag)
  | bindListener (fd : Int)
  | acceptSuspend (l : Nat) (waiter : Nat)
  | consumeAcceptedFd (l : Nat)
  | closeListener (l : Nat)
  -- the event loop
  | submit (count : Nat) (rc : Int)
  | poll
  | wait (stopping : Bool) (now : Int)
  | reap (stopping : Bool) (now : Int)
  | deferred (stopping : Bool) (now : Int)
  | rearm
  | checkIdleConnections (now : Int) (order : List ConnPtr)
  | reclaimConnections
  -- the kernel
  | complete (i : Nat) (res : Int) (more : Bool) (buffer : Option UInt16)
  | ring
  | socket (fd : Int)
  | openElsewhere (fd : Int)
  | closeElsewhere (fd : Int)

/-- `BorrowConnectionStorage` and `ReleaseConnectionStorage`; the process aborts on misuse. -/
def borrow (c : ConnPtr) (w : Worker) : Option Worker :=
  match w.connections c with
  | some conn =>
    if conn.storageBorrows = 2 ^ 32 - 1 then none
    else some (w.setConn c { conn with storageBorrows := conn.storageBorrows + 1 })
  | none => none

/-- A borrow of a connection ends. -/
def release (c : ConnPtr) (w : Worker) : Option Worker :=
  match w.connections c with
  | some conn =>
    if conn.storageBorrows = 0 then none
    else some (w.setConn c { conn with storageBorrows := conn.storageBorrows - 1 })
  | none => none

/-- The stages of `Poll` and `Wait`, and of `DrainRecvRearm`. -/
def stepLoop (w : Worker) : Action → Option Worker
  | .poll =>
    if w.backend.phase = .idle ∧ w.backend.initialized then
      some { w with backend := { w.backend with phase := .reap } }
    else none
  | .wait stopping now =>
    if w.backend.phase = .idle ∧ w.backend.hasPending = false then
      match w.backend.cq with
      | [] => none
      | cqe :: cq => some (dispatch L stopping now cqe cq .reap w)
    else none
  | .reap stopping now =>
    match w.backend.phase, w.backend.cq with
    | .reap, [] =>
      some { w with backend := { w.backend with
        phase := .deferred w.backend.pendingCompletions, pendingCompletions := [] } }
    | .reap, cqe :: cq => some (dispatch L stopping now cqe cq .reap w)
    | _, _ => none
  | .deferred stopping now =>
    match w.backend.phase with
    | .deferred (c :: batch) =>
      some (dispatch L stopping now c.cqe w.backend.cq (.deferred batch) w)
    | .deferred [] =>
      some { w with
        backend := { w.backend with phase := .rearm }
        rearmBatch := w.recvRearmQueue
        recvRearmQueue := [] }
    | _ => none
  | .rearm =>
    match w.backend.phase, w.rearmBatch with
    | .rearm, c :: batch => some (rearmOne L c { w with rearmBatch := batch })
    | .rearm, [] => some { w with backend := { w.backend.drainPending with phase := .idle } }
    | _, _ => none
  | _ => none

/-- One step. -/
def step (w : Worker) : Action → Option Worker
  | .addConnection file mode buffer now =>
    if validFd file.fd ∧ w.owner file.fd = .held then
      some (w.addConnection (Connection.fresh file mode buffer) now).2
    else none
  | .ensureRecvArmed c => some (w.startRecvMultishot L c).2
  | .setPeerDisconnectCallback c callback =>
    some (w.modifyConn c fun conn => { conn with peerDisconnectCallback := callback })
  | .ensurePeerDisconnectPollArmed c => some (w.startPeerDisconnectPoll L c).2
  | .cancelPeerDisconnectPoll c => some (w.cancelPeerDisconnectPoll L c).2
  | .write c buffer => some (w.write L c buffer).2
  | .writeV c message => some (w.writeV L c message).2
  | .readSuspend c waiter => some (w.readSuspend L c waiter).2
  | .readResume c room drainBuffered => some (w.readResume c room drainBuffered)
  | .setReadAhead c enabled => some (w.setReadAhead c enabled)
  | .pauseRead c tag => some (w.pauseRead L c tag)
  | .beginClose c reason mode => some (w.beginClose L c reason mode)
  | .borrow c => w.borrow c
  | .release c => w.release c
  | .call c => if w.appCall c then some { w with backend := (w.backend.call L c).2 } else none
  | .bindListener fd =>
    if validFd fd ∧ w.owner fd = .held then some (w.bindListener fd) else none
  | .acceptSuspend l waiter => some (w.acceptSuspend L l waiter).2
  | .consumeAcceptedFd l => some (w.consumeAcceptedFd l).2
  | .closeListener l => some (w.closeListener L l)
  | .submit count rc => some { w with backend := (w.backend.submit count rc).2 }
  | .checkIdleConnections now order =>
    if w.backend.phase = .idle then some (w.checkIdleConnections L now order) else none
  | .reclaimConnections =>
    if w.backend.phase = .idle then some w.reclaimConnections else none
  | .complete i res more buffer => w.kernelComplete i res more buffer
  | .ring =>
    some { w with backend := { w.backend with
      cq := w.backend.cq ++ [⟨.crossCoreWake, 0, false, none, none⟩] } }
  | .socket fd =>
    if validFd fd ∧ w.owner fd = .free then
      some { w with owner := Function.update w.owner fd .held }
    else none
  | .openElsewhere fd =>
    if w.owner fd = .free then some { w with owner := Function.update w.owner fd .elsewhere }
    else none
  | .closeElsewhere fd =>
    if w.owner fd = .elsewhere then some { w with owner := Function.update w.owner fd .free }
    else none
  | a => w.stepLoop L a

/-- Every run of a worker, from `Init` on. -/
def system : System Worker Action where
  init w := ∃ options slots wakeEventFd, w = Worker.fresh options slots wakeEventFd
  step w a := w.step L a

end Worker

end Bycorf.Net
