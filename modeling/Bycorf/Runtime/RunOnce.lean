/-
  `Worker::RunOnce(true)`: one round of a worker after the other, down to the wait that ends it.

  1. **State** — the six scheduling queues, the connection layer with its ring (`Net.Worker`), the
     polled storage requests, and for a DPDK worker what `DpdkBackend` adds to the kernel backend.
     `didWork` is the local of the round; it is false where the round goes on to `BusyPoll`, to the
     park and to the wait, so the same field serves for the locals of those.
  2. **Steps** — one message, one completion, one resumed coroutine, one connection of the idle
     sweep.  Whatever runs APPLICATION code (a callback, a handler, a coroutine) leads to `user`,
     where the application may use the worker in any way.
  3. **Outside** — cycle counters, the order of the table, the kernel's answers, the frames of the
     FreeBSD stack and what other threads publish are arguments of the steps.  The polled storage
     library is taken to run a callback only in a call that reports it.
-/
import Bycorf.Net.Worker
import Bycorf.Runtime.Submit

namespace Bycorf.Runtime

open Lib IoUring Net

/-! ## Data -/

/-- One message of the mailbox. -/
inductive Mail where
  | request (taskClass : TaskClass) (work : Nat)
  | reply (waiter : Nat)
  | notification
deriving DecidableEq, Repr

/-- Who drains the mailbox or polls: the round, `BusyPoll`, the way to the wait, the wait. -/
inductive Visit where
  | round | busy | park | wake
deriving DecidableEq, Repr

/-- The calls of `DrainReadyUntil` and the one of `DrainBackgroundUntil`. -/
inductive Slice where
  | prePoll | foreground | busy | background
deriving DecidableEq, Repr

/-- The calls of `Flush`. -/
inductive FlushAt where
  | middle | last | busy
deriving DecidableEq, Repr

/-- Where the round is. -/
inductive RoundPc where
  | start                                       -- `RunOnce` is about to be called
  | drain (v : Visit)                           -- `DrainCrossCore`
  | poll (v : Visit)                            -- `IoUringBackend::Poll`
  | packets (v : Visit)                         -- `Packets` of the DPDK backend
  | sockets (v : Visit)                         -- its `SocketCompletions`
  | prePoll                                     -- the test for the extra foreground slice
  | storage (v : Visit)                         -- `PollStorage`
  | slice (k : Slice) (resumed : Bool)
  | background                                  -- `ShouldRunBackground`
  | flush (k : FlushAt)
  | settle                                      -- `HasPending`, `ReclaimConnections`, `did_work`
  | busy (turned : Bool)                        -- the loop of `BusyPoll`
  | needsPolling
  | sweep (now : Int) (order : List ConnPtr)    -- `CheckIdleConnections`
  | park                                        -- the CAS to `kWakeSeqParked`
  | wait                                        -- `Network::Wait`
  | recheck                                     -- after the last `Poll` of `DpdkBackend::Wait`
  | blocked                                     -- in `io_uring_wait_cqe`
  | left                                        -- `RunOnce` returned false
  | user (back : RoundPc)                       -- application code, called from `back`
deriving DecidableEq, Repr

/-- What a worker's `DpdkBackend` adds to the kernel backend. -/
structure DpdkNet where
  adaptive : Bool
  tap : Bool
  ownsQueue : Bool         -- `id < fabric.queues`
  fabricReady : Bool       -- every worker is attached
  rxCanWait : Bool
  notificationFd : Int
  notificationArmed : Bool
  rx : Nat                 -- frames in the worker's lanes
  tx : Nat
  completions : Nat        -- queued by `QueueCompletion`
  connections : ConnPtr → Option Connection  -- on DPDK sockets
  reads : List ConnPtr

/-- A worker inside `RunOnce`: its connection layer, its six queues with their turn flags, and the
    program point. -/
structure Round where
  net : Net.Worker
  dpdk : Option DpdkNet
  backgroundTasks : List Nat
  ready : List Nat
  nextReady : List Nat
  foregroundRemoteWork : List Nat
  backgroundReady : List Nat
  nextBackgroundReady : List Nat
  backgroundRemoteWork : List Nat
  foregroundRemoteTurn : Bool
  backgroundRemoteTurn : Bool
  storage : Nat            -- polled requests, in flight or with a deferred completion
  prePollSlice : Bool      -- `spdk_foreground_pre_poll_us_ != 0`
  busyPoll : Bool          -- `busy_poll_us_ != 0`
  submitFailed : Bool
  didWork : Bool
  pc : RoundPc
  -- bookkeeping of the model: the suspended readers that this round's sweep timed out
  swept : List Nat

namespace DpdkNet

def setConn (c : ConnPtr) (conn : Connection) (d : DpdkNet) : DpdkNet :=
  { d with connections := Function.update d.connections c (some conn) }

/-- `DpdkBackend::StartRecvMultishot`. -/
def startRecvMultishot (c : ConnPtr) (conn : Connection) (d : DpdkNet) : DpdkNet :=
  if conn.recvArmed ∨ conn.closed ∨ conn.closing ∨ conn.recvPaused ∨ conn.receivedBuffers ≠ [] then
    d
  else
    { d.setConn c { conn with
        recvMode := .oneShot, recvArmed := true, inflightOps := conn.inflightOps + 1 } with
      reads := d.reads ++ [c] }

/-- `ReadOperation::await_suspend` on a DPDK socket. -/
def readSuspend (c : ConnPtr) (waiter : Nat) (d : DpdkNet) : DpdkNet :=
  match d.connections c with
  | none => d
  | some conn =>
    if conn.usable = false then d
    else if conn.receivedBuffers ≠ [] ∨ conn.recvEof ∨ conn.lastError.isOk = false then d
    else if conn.readInflight ∨ conn.readWaiter.isSome then d
    else
      let d := d.startRecvMultishot c conn
      match d.connections c with
      | none => d
      | some conn => d.setConn c { conn with readInflight := true, readWaiter := some waiter }

/-- `FinishRead` on the record. -/
def finishRead (conn : Connection) : Option Nat × Connection :=
  Connection.takeReader { conn with recvArmed := false, inflightOps := conn.inflightOps - 1 }

/-- `SocketCompletions` for a receive that ended: the record is as the socket left it. -/
def completeRead (c : ConnPtr) (conn : Connection) (d : DpdkNet) : Option Nat × DpdkNet :=
  let finished := finishRead conn
  (finished.1, { d.setConn c finished.2 with reads := d.reads.erase c })

end DpdkNet

/-- `retired_ || closed_ || last_active_ms_ <= 0`, then the age: is the connection timed out? -/
def timedOut (now timeout : Int) (conn : Connection) : Bool :=
  !conn.retired && !conn.closed && 0 < conn.lastActiveMs && timeout ≤ now - conn.lastActiveMs

/-- The reader that closing the connection for its age resumes; `BeginClose` returns at once for a
    connection in the state `kRetired`. -/
def timedOutReader (now timeout : Int) (conn : Connection) : List Nat :=
  if timedOut now timeout conn ∧ conn.state ≠ .retired then conn.readWaiter.toList else []

/-- What of the connection layer is application code, the kernel's, or a turn of `Poll`. -/
inductive NetSide where
  | application | kernel | poll | loop
deriving DecidableEq, Repr

/-- Who takes a step of the connection layer. -/
def netSide : Net.Worker.Action → NetSide
  | .reap .. | .deferred .. | .rearm => .poll
  | .submit .. | .poll | .wait .. | .checkIdleConnections .. | .reclaimConnections => .loop
  | .complete .. | .ring | .socket _ | .openElsewhere _ | .closeElsewhere _ => .kernel
  | _ => .application

/-- Does the turn of `Poll` dispatch a completion? -/
def dispatches (w : Net.Worker) : Net.Worker.Action → Bool
  | .reap .. => !w.backend.cq.isEmpty
  | .deferred .. => match w.backend.phase with
    | .deferred (_ :: _) => true
    | _ => false
  | _ => false

/-- `processed`: a completion was dispatched, or `DrainPending` moved a descriptor. -/
def processes (w : Net.Worker) : Net.Worker.Action → Bool
  | .rearm => w.rearmBatch.isEmpty && !w.backend.pendingIo.isEmpty && !w.backend.slots.isEmpty
  | a => dispatches w a

namespace Round

variable (L : Liburing Tag)

/-! ## Queues -/

/-- The six queues of the test at the head of `RunOnce`. -/
def noneQueued (s : Round) : Bool :=
  s.ready.isEmpty && s.nextReady.isEmpty && s.foregroundRemoteWork.isEmpty &&
    s.backgroundReady.isEmpty && s.nextBackgroundReady.isEmpty && s.backgroundRemoteWork.isEmpty

/-- `Enqueue`. -/
def enqueue (s : Round) (handle : Nat) : Round :=
  if s.backgroundTasks.contains handle then
    { s with backgroundReady := s.backgroundReady ++ [handle] }
  else { s with ready := s.ready ++ [handle] }

/-- `EnqueueNext`. -/
def enqueueNext (s : Round) (handle : Nat) : Round :=
  if s.backgroundTasks.contains handle then
    { s with nextBackgroundReady := s.nextBackgroundReady ++ [handle] }
  else { s with nextReady := s.nextReady ++ [handle] }

/-- The connection layer after a step; the handles it passed to `Enqueue` are queued. -/
def withNet (s : Round) (net : Net.Worker) : Round :=
  net.ready.foldl enqueue { s with net := { net with ready := [] } }

/-- `MergeDeferred`. -/
def mergeDeferred (s : Round) : Round :=
  { s with
    ready := s.ready ++ s.nextReady
    nextReady := []
    backgroundReady := s.backgroundReady ++ s.nextBackgroundReady
    nextBackgroundReady := [] }

/-- `Storage::NeedsPolling`. -/
def needsPolling (s : Round) : Bool := 0 < s.storage

/-- The `schedule_*` lambdas of `DrainCrossCore`. -/
def schedule (s : Round) : Mail → Round
  | .request .background work =>
    { s with backgroundRemoteWork := s.backgroundRemoteWork ++ [work] }
  | .request .foreground work =>
    { s with foregroundRemoteWork := s.foregroundRemoteWork ++ [work] }
  | .reply waiter => s.enqueue waiter
  | .notification => s

/-- The body of the loop of `DrainReadyUntil`: what is taken off its queue. -/
def popForeground (s : Round) : Option Round :=
  let turned := { s with foregroundRemoteTurn := !s.foregroundRemoteTurn }
  match s.foregroundRemoteWork, s.ready with
  | _ :: works, [] => some { turned with foregroundRemoteWork := works }
  | _ :: works, _ :: handles =>
    if s.foregroundRemoteTurn then some { turned with foregroundRemoteWork := works }
    else some { turned with ready := handles }
  | [], _ :: handles => some { turned with ready := handles }
  | [], [] => none

/-- The body of the loop of `DrainBackgroundUntil`. -/
def popBackground (s : Round) : Option Round :=
  let turned := { s with backgroundRemoteTurn := !s.backgroundRemoteTurn }
  match s.backgroundRemoteWork, s.backgroundReady with
  | _ :: works, [] => some { turned with backgroundRemoteWork := works }
  | _ :: works, _ :: handles =>
    if s.backgroundRemoteTurn then some { turned with backgroundRemoteWork := works }
    else some { turned with backgroundReady := handles }
  | [], _ :: handles => some { turned with backgroundReady := handles }
  | [], [] => none

/-- A turn of a slice. -/
def pop (s : Round) : Slice → Option Round
  | .background => s.popBackground
  | _ => s.popForeground

/-- `ShouldRunBackground`; `warranted` is the answer of the cycle counters. -/
def shouldRunBackground (warranted : Bool) (s : Round) : Bool :=
  if s.backgroundReady.isEmpty && s.backgroundRemoteWork.isEmpty then false
  else if s.ready.isEmpty && s.foregroundRemoteWork.isEmpty then true
  else warranted

/-! ## The stages -/

/-- The application changes the worker in any way it can. -/
inductive AppStep where
  | enqueue (handle : Nat)
  | enqueueNext (handle : Nat)
  | registerBackground (handle : Nat)
  | net (a : Net.Worker.Action)
  | submitStorage                       -- a request to the polled storage backend
  | setDpdk (c : ConnPtr) (conn : Connection)  -- a new connection on a DPDK socket, or its record
  | readDpdk (c : ConnPtr) (waiter : Nat)
  | cancelDpdk (c : ConnPtr) (conn : Connection)  -- `SubmitCancelRecv`
  | queueCompletion                     -- `QueueCompletion`, of a cancel for instance
  | transmit (frames : Nat)             -- into the worker's own lane

/-- The application takes a step. -/
def appStep (s : Round) : AppStep → Option Round
  | .enqueue handle => some (s.enqueue handle)
  | .enqueueNext handle => some (s.enqueueNext handle)
  | .registerBackground handle =>
    some { s with backgroundTasks := s.backgroundTasks ++ [handle] }
  | .net a =>
    if netSide a = .application then (s.net.step L a).map s.withNet else none
  | .submitStorage => some { s with storage := s.storage + 1 }
  | .setDpdk c conn => s.dpdk.map fun d => { s with dpdk := some (d.setConn c conn) }
  | .readDpdk c waiter => s.dpdk.map fun d => { s with dpdk := some (d.readSuspend c waiter) }
  | .cancelDpdk c conn =>
    s.dpdk.map fun d =>
      let finished := d.completeRead c conn
      finished.1.toList.foldl enqueue { s with dpdk := some finished.2 }
  | .queueCompletion =>
    s.dpdk.map fun d => { s with dpdk := some { d with completions := d.completions + 1 } }
  | .transmit frames =>
    s.dpdk.map fun d => { s with dpdk := some { d with tx := d.tx + frames } }

/-- Enter `Poll`. -/
def enterPoll (v : Visit) (s : Round) : Option Round :=
  (s.net.step L .poll).map fun net => { s.withNet net with pc := .poll v }

/-- One turn of `Poll`; a dispatched completion runs its handler. -/
def pollTurn (v : Visit) (a : Net.Worker.Action) (s : Round) : Option Round :=
  if netSide a = .poll then
    (s.net.step L a).map fun net =>
      { s.withNet net with
        didWork := s.didWork || processes s.net a
        pc := if dispatches s.net a then .user (.poll v) else .poll v }
  else none

/-- What follows `Network::Poll`. -/
def afterPoll : Visit → RoundPc
  | .round => .prePoll
  | .busy => .storage .busy
  | .park => .recheck
  | .wake => .start

/-- What follows `DrainCrossCore`. -/
def drained (v : Visit) (s : Round) : Option Round :=
  match v with
  | .park => some { s with pc := if s.didWork then .start else .park }
  | _ => s.enterPoll L v

/-- What follows `PollStorage`. -/
def polledStorage (v : Visit) (s : Round) : Round :=
  match v with
  | .busy =>
    if s.didWork then { s.mergeDeferred with pc := .slice .busy false }
    else { s with pc := .busy true }
  | _ => { s.mergeDeferred with pc := .slice .foreground false }

/-- What follows a slice. -/
def afterSlice : Slice → RoundPc
  | .prePoll => .storage .round
  | .foreground => .background
  | .background => .flush .last
  | .busy => .flush .busy

/-- `Flush`: the wakes of parked peers, then `Submit`, of which the kernel takes `count` and answers
    `rc`.  Only a permanent error is remembered. -/
def flush (peers : List Int) (count : Nat) (rc : Int) (s : Round) : Round :=
  let backend := peers.foldl (fun b fd => (b.wakeRemote L fd).2) s.net.backend
  let submitted := backend.submit count rc
  { s with
    net := { s.net with backend := submitted.2 }
    -- `DpdkBackend::Submit` starts with `FlushTx`
    dpdk := s.dpdk.map fun d => { d with tx := if d.ownsQueue then 0 else d.tx }
    submitFailed := s.submitFailed || !(submitted.1.isOk || submitted.1.code = .unavailable) }

/-- What follows `Flush`. -/
def flushed (k : FlushAt) (s : Round) : Round :=
  match k with
  | .middle => { s with pc := if s.submitFailed then .left else .slice .background false }
  | .last => { s with pc := if s.submitFailed then .left else .settle }
  | .busy =>
    { s with
      net := s.net.reclaimConnections
      pc := if s.submitFailed then .left else .start }

/-- `did_work |= HasPending()`, `ReclaimConnections`, and the first decision. -/
def settle (s : Round) : Round :=
  let worked := s.didWork || s.net.backend.hasPending
  { s with
    net := s.net.reclaimConnections
    didWork := worked
    pc := if worked then .start else if s.busyPoll then .busy false else .needsPolling }

/-- `BeginClose` of a connection on a DPDK socket: the receive is finished at once, and the stack
    may transmit `frames` into the worker's own lane. -/
def beginCloseDpdk (c : ConnPtr) (conn : Connection) (reason : Status) (mode : CloseMode)
    (frames : Nat) (d : DpdkNet) (s : Round) : Round :=
  if conn.state = .retired then { s with dpdk := some (d.setConn c conn) } else
  let conn := { conn with
    peerDisconnectPollCancelRequested :=
      conn.peerDisconnectPollCancelRequested || conn.peerDisconnectPollArmed }
  let finished := if conn.recvArmed ∧ c ∈ d.reads then DpdkNet.finishRead conn else (none, conn)
  -- a receive that is not the DPDK backend's is cancelled in the kernel
  let backend :=
    if conn.recvArmed ∧ c ∉ d.reads then (s.net.backend.submitCancelRecv L (some c) none).2
    else s.net.backend
  let closed := finished.2.beginClose reason mode
  let d := { d.setConn c closed.2.retire with reads := d.reads.erase c, tx := d.tx + frames }
  (finished.1.toList ++ closed.1.toList).foldl enqueue
    { s with net := { s.net with backend := backend }, dpdk := some d }

/-- The body of the loop of `CheckIdleConnections`. -/
def closeIdle (now : Int) (c : ConnPtr) (frames : Nat) (s : Round) : Round :=
  let timeout := s.net.options.idleTimeoutMs
  let reason : Status := ⟨.deadlineExceeded, "connection idle timeout"⟩
  match s.dpdk.bind fun d => (d.connections c).map fun conn => (d, conn) with
  | some (d, conn) =>
    let closed :=
      if timedOut now timeout conn then
        beginCloseDpdk L c { conn with lastError := reason } reason .idleTimeout frames d s
      else s
    { closed with swept := s.swept ++ timedOutReader now timeout conn }
  | none =>
    let reader := ((s.net.connections c).map (timedOutReader now timeout)).getD []
    { s.withNet (Net.Worker.closeIfIdle L now s.net c) with swept := s.swept ++ reader }

/-- `IoUringBackend::Wait`, up to the system call. -/
def waitKernel (s : Round) : Round :=
  { s with pc := if s.net.backend.hasPending then .start else .blocked }

/-- `DpdkBackend::Wait` up to its last `Poll`; `enabled` is the answer of the driver. -/
def waitDpdk (enabled : Bool) (d : DpdkNet) (s : Round) : Option Round :=
  if d.adaptive = false ∨ d.fabricReady = false then some { s with pc := .start }
  else if d.rxCanWait = false then some { s with pc := .left }
  else if d.ownsQueue then
    if d.tap = false ∧ enabled = false then some { s with pc := .left }
    else if d.notificationArmed then s.enterPoll L .park
    else
      let request : Request Tag := .poll d.notificationFd pollIn (some (.app 0))
      let result := s.net.backend.submitRequest L request
      if result.1.isOk then
        enterPoll L .park { s with
          net := { s.net with backend := result.2 }
          dpdk := some { d with notificationArmed := true } }
      else some { s with net := { s.net with backend := result.2 }, pc := .left }
  else s.enterPoll L .park

/-- The recheck of `DpdkBackend::Wait` and its `Submit`; `due` says that a timer of the stack is. -/
def recheck (count : Nat) (rc : Int) (due : Bool) (d : DpdkNet) (s : Round) : Round :=
  if s.didWork ∨ d.rx ≠ 0 ∨ d.tx ≠ 0 ∨ d.completions ≠ 0 then { s with pc := .start }
  else
    let submitted := s.net.backend.submit count rc
    let s := { s with net := { s.net with backend := submitted.2 } }
    if submitted.1.isOk = false then
      { s with pc := if submitted.1.code = .unavailable then .start else .left }
    else if due then { s with pc := .start }
    else s.waitKernel

/-! ## Steps -/

/-- The next step of the round, with what it meets. -/
inductive Label where
  | kernel (a : Net.Worker.Action)                    -- the kernel, or another thread's descriptor
  | lanes (rx tx : Nat) (fabricReady : Bool)          -- other workers, or the NIC
  | app (a : AppStep)
  | back                                              -- the application's code returns
  | begin                                             -- `RunOnce(true)` is called
  | mail (m : Mail)                                   -- a message is dequeued and scheduled
  | drained                                           -- `DrainCrossCore` returns
  | poll (a : Net.Worker.Action)
  | polled                                            -- `IoUringBackend::Poll` returns
  | packets (taken : Nat)                             -- frames of the NIC or of the lane `rx`
  | flushTx
  | packetsDone
  | finishRead (c : ConnPtr) (conn : Connection)      -- a socket has data, an end or an error
  | queue                                             -- a connect, an accept or a send ends
  | disconnect                                        -- a disconnect callback, or its cancel
  | complete                                          -- a queued completion is delivered
  | socketsDone
  | prePoll
  | storageWork (completed : Bool)                    -- a completion, or a retried submission
  | storageDone
  | resume                                            -- a coroutine or remote work runs
  | deadline                                          -- the slice ends
  | background (warranted : Bool)
  | flush (peers : List Int) (count : Nat) (rc : Int)
  | settle
  | turn                                              -- a turn of `BusyPoll`
  | turnsOver
  | idle (now : Int) (order : List ConnPtr)           -- `NeedsPolling`, then the sweep
  | closeIdle (frames : Nat)
  | swept
  | cas (ok : Bool)
  | wait (enabled : Bool)
  | recheck (count : Nat) (rc : Int) (due : Bool)
  | wake (stopping : Bool) (now : Int)                -- the wait ends with a completion
  | expire                                            -- or with none
  | fail                                              -- or with an error

/-- The steps of `Poll` on a DPDK socket table, after the kernel backend's. -/
def stepDpdk (s : Round) : Label → Option Round
  | .packets taken =>
    match s.pc, s.dpdk with
    | .packets v, some d =>
      if d.fabricReady then
        some { s with
          dpdk := some { d with rx := d.rx - taken }, didWork := true, pc := .packets v }
      else none
    | _, _ => none
  | .flushTx =>
    match s.pc, s.dpdk with
    | .packets v, some d =>
      if d.fabricReady ∧ d.ownsQueue ∧ d.tx ≠ 0 then
        some { s with dpdk := some { d with tx := 0 }, didWork := true, pc := .packets v }
      else none
    | _, _ => none
  | .packetsDone =>
    match s.pc, s.dpdk with
    | .packets v, some d =>
      -- `Packets` ends with `FlushTx`
      if d.fabricReady ∧ d.ownsQueue ∧ d.tx ≠ 0 then none else some { s with pc := .sockets v }
    | _, _ => none
  | .finishRead c conn =>
    match s.pc, s.dpdk with
    | .sockets v, some d =>
      if c ∈ d.reads then
        let finished := d.completeRead c conn
        some { finished.1.toList.foldl enqueue { s with dpdk := some finished.2 } with
          didWork := true, pc := .sockets v }
      else none
    | _, _ => none
  | .queue =>
    match s.pc, s.dpdk with
    | .sockets v, some d =>
      some { s with
        dpdk := some { d with completions := d.completions + 1 }
        didWork := true
        pc := .sockets v }
    | _, _ => none
  | .disconnect =>
    match s.pc with
    | .sockets v => some { s with didWork := true, pc := .user (.sockets v) }
    | _ => none
  | .complete =>
    match s.pc, s.dpdk with
    | .sockets v, some d =>
      if d.completions ≠ 0 then
        some { s with
          dpdk := some { d with completions := d.completions - 1 }
          didWork := true
          pc := .user (.sockets v) }
      else none
    | _, _ => none
  | .socketsDone =>
    match s.pc with
    | .sockets v => some { s with pc := afterPoll v }
    | _ => none
  | _ => none

/-- The steps from the idle sweep to the wait and out of it. -/
def stepPark (s : Round) : Label → Option Round
  | .idle now order =>
    if s.pc = .needsPolling then
      let order := if s.net.options.idleTimeoutMs ≤ 0 then [] else order
      some { s with pc := if s.needsPolling then .start else .sweep now order }
    else none
  | .closeIdle frames =>
    match s.pc with
    | .sweep now (c :: order) => some { s.closeIdle L now c frames with pc := .sweep now order }
    | _ => none
  | .swept =>
    match s.pc with
    | .sweep _ [] => some { s with pc := .drain .park }
    | _ => none
  | .cas ok => if s.pc = .park then some { s with pc := if ok then .wait else .start } else none
  | .wait enabled =>
    if s.pc = .wait ∧ s.net.backend.phase = .idle then
      match s.dpdk with
      | none => some s.waitKernel
      | some d => s.waitDpdk L enabled d
    else none
  | .recheck count rc due =>
    match s.pc, s.dpdk with
    | .recheck, some d =>
      if s.net.backend.phase = .idle then some (s.recheck count rc due d) else none
    | _, _ => none
  | .wake stopping now =>
    if s.pc = .blocked then
      (s.net.step L (.wait stopping now)).map fun net =>
        { s.withNet net with didWork := true, pc := .user (.poll .wake) }
    else none
  | .expire => if s.pc = .blocked then some { s with pc := .start } else none
  | .fail => if s.pc = .blocked then some { s with pc := .left } else none
  | a => s.stepDpdk a

/-- One step. -/
def step (s : Round) : Label → Option Round
  | .kernel a =>
    if netSide a = .kernel then (s.net.step L a).map fun net => { s with net := net } else none
  | .lanes rx tx fabricReady =>
    s.dpdk.map fun d => { s with dpdk := some { d with
      rx := rx, tx := tx, fabricReady := fabricReady } }
  | .app a =>
    match s.pc with
    | .user _ => s.appStep L a
    | _ => none
  | .back =>
    match s.pc with
    | .user back => some { s with pc := back }
    | _ => none
  | .begin =>
    if s.pc = .start then
      if s.submitFailed then some { s with pc := .left }
      else some { s with didWork := !s.noneQueued, swept := [], pc := .drain .round }
    else none
  | .mail m =>
    match s.pc with
    | .drain v =>
      some { s.schedule m with
        didWork := true
        pc := if m = .notification then .user (.drain v) else .drain v }
    | _ => none
  | .drained =>
    match s.pc with
    | .drain v => s.drained L v
    | _ => none
  | .poll a =>
    match s.pc with
    | .poll v => s.pollTurn L v a
    | _ => none
  | .polled =>
    match s.pc with
    | .poll v =>
      if s.net.backend.phase = .idle then
        some { s with pc := if s.dpdk.isSome ∧ v ≠ .wake then .packets v else afterPoll v }
      else none
    | _ => none
  | .prePoll =>
    if s.pc = .prePoll then
      if s.needsPolling ∧ s.prePollSlice ∧
          (s.ready ≠ [] ∨ s.nextReady ≠ [] ∨ s.foregroundRemoteWork ≠ []) then
        some { s.mergeDeferred with pc := .slice .prePoll false }
      else some { s with pc := .storage .round }
    else none
  | .storageWork completed =>
    match s.pc with
    | .storage v =>
      if s.needsPolling then
        some { s with
          storage := if completed then s.storage - 1 else s.storage
          didWork := true
          pc := .user (.storage v) }
      else none
    | _ => none
  | .storageDone =>
    match s.pc with
    | .storage v => some (s.polledStorage v)
    | _ => none
  | .resume =>
    match s.pc with
    | .slice k _ =>
      (s.pop k).map fun s => { s with didWork := true, pc := .user (.slice k true) }
    | _ => none
  | .deadline =>
    match s.pc with
    | .slice k resumed =>
      if resumed ∨ (s.pop k).isNone then some { s with pc := afterSlice k } else none
    | _ => none
  | .background warranted =>
    if s.pc = .background then
      some { s with pc := if s.shouldRunBackground warranted then .flush .middle else .flush .last }
    else none
  | .flush peers count rc =>
    match s.pc with
    | .flush k => some ((s.flush L peers count rc).flushed k)
    | _ => none
  | .settle => if s.pc = .settle then some s.settle else none
  | .turn =>
    match s.pc with
    | .busy _ => some { s with pc := .drain .busy }
    | _ => none
  | .turnsOver => if s.pc = .busy true then some { s with pc := .needsPolling } else none
  | a => s.stepPark L a

/-- A worker before its first round: the code that starts it may spawn tasks. -/
def fresh (net : Net.Worker) (dpdk : Option DpdkNet) (prePollSlice busyPoll : Bool) : Round where
  net := net
  dpdk := dpdk
  backgroundTasks := []
  ready := []
  nextReady := []
  foregroundRemoteWork := []
  backgroundReady := []
  nextBackgroundReady := []
  backgroundRemoteWork := []
  foregroundRemoteTurn := true
  backgroundRemoteTurn := true
  storage := 0
  prePollSlice := prePollSlice
  busyPoll := busyPoll
  submitFailed := false
  didWork := true
  pc := .user .start
  swept := []

/-- Every run of a worker, on the kernel backend and on the DPDK backend, with every option. -/
def system : System Round Label where
  init s := ∃ options slots wakeEventFd dpdk prePollSlice busyPoll,
    s = fresh (Net.Worker.fresh options slots wakeEventFd) dpdk prePollSlice busyPoll
  step s a := s.step L a

end Round

end Bycorf.Runtime
