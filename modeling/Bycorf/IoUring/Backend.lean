/-
  `IoUringBackend`: the submission queue with its software overflow queue, cancellation, the
  completion queue and the deferred completions, as one state and its transitions.

  1. **State** — the ring's SQ is its live entries in order (`sq`) and the free slots behind them
     in the order they will be handed out (`slots`); consuming an entry returns its slot, still
     holding the old descriptor, to the end of `slots`.  `pendingIo` is the software queue.
  2. **History** — every accepted operation gets a number, carried by the entry, the completion
     and the handler call that belong to it; `accepted`, `retired`, `consumed` and `calls` record
     what happened.  The program never reads these fields.
  3. **Runs** — a run interleaves calls of the public functions (from tasks, or from a handler
     that has just been started: a call may come at ANY point), `Submit`, the stages of `Poll` and
     `Wait`, and the kernel, which consumes SQEs in order inside `Submit` only and posts one
     terminal CQE for each.
-/
import Bycorf.Lib.Transition
import Bycorf.IoUring.Sqe

namespace Bycorf.IoUring

open Lib

/-! ## State -/

/-- An SQE in the ring, in `pending_io_` or in the kernel, with the operation it carries (none for
    the `NOP` that replaces a retired one). -/
structure Entry (T : Type) where
  sqe : Sqe T
  op : Option Nat
deriving DecidableEq, Repr

/-- `PendingCompletion`, with the operation it completes. -/
structure PendingCompletion (T : Type) where
  userData : UserData T
  result : Int
  op : Option Nat
deriving DecidableEq, Repr

/-- `io_uring_cqe`: `more` is `IORING_CQE_F_MORE`, `buffer` the id of a selected buffer. -/
structure Cqe (T : Type) where
  userData : UserData T
  res : Int
  more : Bool
  buffer : Option UInt16
  op : Option Nat
deriving DecidableEq, Repr

/-- The CQE `DrainPendingCompletions` builds for a deferred completion. -/
def PendingCompletion.cqe {T : Type} (c : PendingCompletion T) : Cqe T :=
  ⟨c.userData, c.result, false, none, c.op⟩

/-- Where the worker is inside `Poll`. -/
inductive Phase (T : Type) where
  | idle                                           -- outside `Poll` and `Wait`
  | reap                                           -- `ReapCompletions`
  | deferred (batch : List (PendingCompletion T))  -- `DrainPendingCompletions`
  | rearm                                          -- `DrainRecvRearm`, then `DrainPending`
deriving DecidableEq, Repr

/-- `IoUringBackend` with its two rings.  The submission queue, the software queue, what the kernel
    owns and the completion queue hold entries in the order in which they got there. -/
structure Backend (T : Type) where
  initialized : Bool
  mayHaveUnsubmittedCancels : Bool
  wakePollArmed : Bool
  fixedFilesRegistered : Bool
  wakeEventFd : Int
  sq : List (Entry T)
  slots : List (Sqe T)
  pendingIo : List (Entry T)
  pendingCompletions : List (PendingCompletion T)
  phase : Phase T
  -- the kernel's side of the ring
  kernel : List (Entry T)
  cq : List (Cqe T)
  -- history
  nextOp : Nat
  accepted : List (Nat × Submission T)
  retired : List (Entry T)
  consumed : List (Entry T)
  calls : List (Cqe T)
deriving DecidableEq, Repr

/-- The backend after `io_uring_queue_init_params` with an SQ of `slots.length` entries. -/
def Backend.fresh {T : Type} (slots : List (Sqe T)) (wakeEventFd : Int) : Backend T where
  initialized := true
  mayHaveUnsubmittedCancels := false
  wakePollArmed := false
  fixedFilesRegistered := false
  wakeEventFd := wakeEventFd
  sq := []
  slots := slots
  pendingIo := []
  pendingCompletions := []
  phase := .idle
  kernel := []
  cq := []
  nextOp := 0
  accepted := []
  retired := []
  consumed := []
  calls := []

def eCanceled : Int := 125
def eNoent : Int := 2
def eBusy : Int := 16
def eIntr : Int := 4
def eAgain : Int := 11

/-- What every call answers before `Init`. -/
def notInitialized : Status := ⟨.failedPrecondition, "backend is not initialized"⟩

namespace Backend

variable {T : Type} [DecidableEq T] (L : Liburing T)

/-! ## Submission -/

/-- Record the acceptance of an operation: its number is `nextOp`. -/
def accept (sub : Submission T) (s : Backend T) : Backend T :=
  { s with nextOp := s.nextOp + 1, accepted := s.accepted ++ [(s.nextOp, sub)] }

/-- `AcquireSqe`: a slot of the ring, and the free slots left. -/
def acquireSqe (s : Backend T) : Option (Sqe T × List (Sqe T)) :=
  match s.initialized, s.slots with
  | true, slot :: slots => some (L.reset slot, slots)
  | _, _ => none

/-- `QueuePrepared`: prepare in a zeroed SQE and append it to the software queue. -/
def queuePrepared (sub : Submission T) (s : Backend T) : Status × Backend T :=
  if s.initialized then
    (Status.okStatus,
      { s.accept sub with pendingIo := s.pendingIo ++ [⟨prepare L sub Sqe.zero, some s.nextOp⟩] })
  else
    (notInitialized, s)

/-- `SubmitOrQueue`: straight into the SQ when nothing older waits and a slot is free. -/
def submitOrQueue (sub : Submission T) (s : Backend T) : Status × Backend T :=
  match s.pendingIo, s.acquireSqe L with
  | [], some (slot, slots) =>
    (Status.okStatus,
      { s.accept sub with
        sq := s.sq ++ [⟨prepare L sub slot, some s.nextOp⟩]
        slots := slots })
  | _, _ => s.queuePrepared L sub

/-- What a `Submit*` function checks before it queues its request. -/
def check (s : Backend T) : Request T → Status
  | .openDirect path _ _ _ _ =>
    if s.fixedFilesRegistered = false ∨ path.size = 0 then
      ⟨.failedPrecondition, "fixed-file table is not registered"⟩
    else Status.okStatus
  | .connect fd address _ tag =>
    if fd < 0 ∨ address = 0 ∨ tag = none then ⟨.invalidArgument, "invalid connect request"⟩
    else Status.okStatus
  | .poll fd _ tag =>
    if fd < 0 ∨ tag = none then ⟨.invalidArgument, "invalid poll request"⟩
    else Status.okStatus
  | _ => Status.okStatus

/-- The shape of every `Submit*` function: its check, then `SubmitOrQueue`. -/
def submitRequest (r : Request T) (s : Backend T) : Status × Backend T :=
  if (s.check r).isOk then s.submitOrQueue L (.request r) else (s.check r, s)

/-- The submissions of the backend: each prepares its own request. -/
def submitOpenDirect (path : Span) (flags mode file : UInt32) (tag : Option T) :=
  submitRequest L (.openDirect path flags mode file tag)
def submitCloseDirect (file : UInt32) (tag : Option T) :=
  submitRequest L (.closeDirect file tag)
def submitReadFixed (file : UInt32) (buffer : FixedBuffer) (offset : UInt64) (tag : Option T) :=
  submitRequest L (.readFixed file buffer offset tag)
def submitRead (file : UInt32) (buffer : Span) (offset : UInt64) (tag : Option T) :=
  submitRequest L (.read file buffer offset tag)
def submitWrite (file : UInt32) (buffer : Span) (offset : UInt64) (tag : Option T) :=
  submitRequest L (.write file buffer offset tag)
def submitWriteFixed (file : UInt32) (buffer : FixedBuffer) (offset : UInt64) (tag : Option T) :=
  submitRequest L (.writeFixed file buffer offset tag)
def submitFdatasync (file : UInt32) (tag : Option T) :=
  submitRequest L (.fdatasync file tag)
def submitTimeout (ts : UInt64) (tag : Option T) :=
  submitRequest L (.timeout ts tag)
def submitSend (file : RegisteredFile) (buffer : Span) (tag : Option T) :=
  submitRequest L (.send file buffer tag)
def submitSendMsg (file : RegisteredFile) (message : UInt64) (tag : Option T) :=
  submitRequest L (.sendMsg file message tag)
def submitAcceptMultishot (listenFd : Int) (tag : Option T) :=
  submitRequest L (.acceptMultishot listenFd tag)
def submitConnect (fd : Int) (address : UInt64) (length : UInt32) (tag : Option T) :=
  submitRequest L (.connect fd address length tag)
def submitPoll (fd : Int) (events : UInt32) (tag : Option T) :=
  submitRequest L (.poll fd events tag)
def wakeRemote (peerRingFd : Int) :=
  submitRequest L (T := T) (.wakeRemote peerRingFd)

/-- `ArmWakePoll`. -/
def armWakePoll (s : Backend T) : Bool × Backend T :=
  if s.wakeEventFd < 0 ∨ s.wakePollArmed then
    (decide (0 ≤ s.wakeEventFd), s)
  else
    let result := s.submitOrQueue L (.request (.wakePoll s.wakeEventFd))
    if result.1.isOk then (true, { result.2 with wakePollArmed := true }) else (false, result.2)

/-- `RegisterFixedFiles`; `rc` is the kernel's answer. -/
def registerFixedFiles (count : Nat) (rc : Int) (s : Backend T) : Status × Backend T :=
  if s.initialized = false ∨ count = 0 ∨ s.fixedFilesRegistered then
    (⟨.failedPrecondition, "invalid fixed-file table registration"⟩, s)
  else if rc < 0 then
    (⟨.resourceExhausted, "io_uring_register_files_sparse failed"⟩, s)
  else
    (Status.okStatus, { s with fixedFilesRegistered := true })

/-! ## Cancellation -/

/-- The `NOP` that replaces a retired SQE; its own completion is dropped on dispatch. -/
def nopEntry : Entry T :=
  ⟨(L.prep .nop Sqe.zero).setData .cancelRequest, none⟩

/-- The entries that have not reached the kernel, in submission order. -/
def unsubmitted (s : Backend T) : List (Entry T) := s.sq ++ s.pendingIo

/-- The two loops of `CancelUnsubmittedMatching`: neutralise the matching SQEs in place, erase the
    matching queued ones, and defer a completion with `result` for each. -/
def retireMatching (hit : Sqe T → Bool) (result : Int) (s : Backend T) : Backend T :=
  let hits := s.unsubmitted.filter fun e => hit e.sqe
  { s with
    sq := s.sq.map fun e => if hit e.sqe then nopEntry L else e
    pendingIo := s.pendingIo.filter fun e => !hit e.sqe
    pendingCompletions := s.pendingCompletions ++ hits.map fun e => ⟨e.sqe.userData, result, e.op⟩
    retired := s.retired ++ hits.filter fun e => e.op.isSome }

/-- `CancelUnsubmittedMatching`: did anything match? -/
def cancelUnsubmittedMatching (hit : Sqe T → Bool) (result : Int) (s : Backend T) :
    Bool × Backend T :=
  if s.initialized then
    (s.unsubmitted.any fun e => hit e.sqe, s.retireMatching L hit result)
  else
    (false, s)

/-- The synthetic completion of a cancel request that was served locally.  The request was
    accepted, so it has a number of its own, but it never enters the queue. -/
def completeCancel (completion : UserData T) (s : Backend T) : Backend T :=
  { s with
    nextOp := s.nextOp + 1
    pendingCompletions := s.pendingCompletions ++ [⟨completion, 0, some s.nextOp⟩] }

/-- `CancelByData`: retire the unsubmitted target locally, or queue an `ASYNC_CANCEL`. -/
def cancelByData (target completion : UserData T) (s : Backend T) : Status × Backend T :=
  if s.initialized = false then
    (notInitialized, s)
  else
    let cancelled := s.cancelUnsubmittedMatching L (fun sqe => sqe.userData = target) (-eCanceled)
    if cancelled.1 then
      (Status.okStatus, cancelled.2.completeCancel completion)
    else
      let result := cancelled.2.submitOrQueue L (.cancel target completion)
      if result.1.isOk then (result.1, { result.2 with mayHaveUnsubmittedCancels := true })
      else result

/-- `SubmitCancel`. -/
def submitCancel (target : Option T) (s : Backend T) : Status × Backend T :=
  match target with
  | none => (⟨.invalidArgument, "cancel target must not be null"⟩, s)
  | some tag => s.cancelByData L (.completion tag) .cancelRequest

/-- The tag of the cancel request itself: the caller's, or the sentinel when it passed none. -/
def cancelTag : Option T → UserData T
  | some tag => .completion tag
  | none => .cancelRequest

/-- `SubmitCancelRecv`. -/
def submitCancelRecv (connection : Option ConnPtr) (tag : Option T) (s : Backend T) :
    Status × Backend T :=
  match connection with
  | none => (⟨.invalidArgument, "invalid recv cancel request"⟩, s)
  | some c => s.cancelByData L (.recv c) (cancelTag tag)

/-- The opcodes that `CancelUnsubmittedForFd` retires. -/
def socketOpcode : Opcode → Bool
  | .send | .sendmsg | .recv | .accept | .connect | .pollAdd => true
  | _ => false

/-- A socket operation on the raw descriptor `fd`. -/
def onRawFd (fd : Int) (sqe : Sqe T) : Bool :=
  !sqe.fixedFile && sqe.fd = fd && socketOpcode sqe.opcode

/-- `CancelUnsubmittedForFd`. -/
def cancelUnsubmittedForFd (fd : Int) (s : Backend T) : Backend T :=
  if fd < 0 then s else (s.cancelUnsubmittedMatching L (onRawFd fd) (-eCanceled)).2

/-- An `ASYNC_CANCEL`, and one for a given target. -/
def isCancel (sqe : Sqe T) : Bool := sqe.opcode = .asyncCancel

/-- The entry is a cancel for the given tag. -/
def isCancelOf (target : UserData T) (sqe : Sqe T) : Bool :=
  isCancel sqe && sqe.addr = .data target

/-- `RetireUnsubmittedCancels`: the flag keeps whether a cancel for another target was seen. -/
def retireUnsubmittedCancels (target : UserData T) (s : Backend T) : Backend T :=
  { (s.cancelUnsubmittedMatching L (isCancelOf target) (-eNoent)).2 with
    mayHaveUnsubmittedCancels :=
      s.initialized && s.unsubmitted.any fun e => isCancel e.sqe && !isCancelOf target e.sqe }

/-! ## Submitting to the kernel -/

/-- The loop of `DrainPending`: the free slots, the software queue and the SQ. -/
def drainLoop : List (Sqe T) → List (Entry T) → List (Entry T) →
    List (Sqe T) × List (Entry T) × List (Entry T)
  | _ :: slots, e :: pending, sq => drainLoop slots pending (sq ++ [e])
  | slots, pending, sq => (slots, pending, sq)

/-- `DrainPending`: move queued descriptors into free SQ slots, whole. -/
def drainPending (s : Backend T) : Backend T :=
  if s.initialized then
    let moved := drainLoop s.slots s.pendingIo s.sq
    { s with slots := moved.1, pendingIo := moved.2.1, sq := moved.2.2 }
  else s

/-- `io_uring_submit_and_get_events`, seen from the SQ: the kernel takes the first `count` SQEs
    and their slots become free. -/
def enter (count : Nat) (s : Backend T) : Backend T :=
  { s with
    sq := s.sq.drop count
    slots := s.slots ++ (s.sq.take count).map Entry.sqe
    kernel := s.kernel ++ s.sq.take count
    consumed := s.consumed ++ s.sq.take count }

/-- `SubmitError`; the text of `strerror` is not modelled. -/
def submitError (rc : Int) : Status :=
  if rc = -eBusy ∨ rc = -eIntr ∨ rc = -eAgain then
    ⟨.unavailable, "io_uring submission temporarily blocked"⟩
  else
    ⟨.internal, "io_uring_submit_and_get_events failed: "⟩

/-- `SubmitSlow`. -/
def submitSlow (count : Nat) (rc : Int) (s : Backend T) : Status × Backend T :=
  if s.initialized then
    (if rc < 0 then submitError rc else Status.okStatus,
      (s.drainPending.enter count).drainPending)
  else (notInitialized, s)

/-- `Submit`: the kernel consumes `count` SQEs and answers `rc`. -/
def submit (count : Nat) (rc : Int) (s : Backend T) : Status × Backend T :=
  if s.initialized ∧ s.pendingIo = [] then
    (if 0 ≤ rc then Status.okStatus else submitError rc, s.enter count)
  else s.submitSlow count rc

/-- `HasPending`. -/
def hasPending (s : Backend T) : Bool :=
  s.initialized && (!s.pendingIo.isEmpty || !s.pendingCompletions.isEmpty || !s.sq.isEmpty)

/-! ## Completions -/

/-- The head of `DispatchCqe`, before the handler is chosen. -/
def beforeHandler (cqe : Cqe T) (s : Backend T) : Backend T :=
  if s.mayHaveUnsubmittedCancels ∧ cqe.more = false then
    s.retireUnsubmittedCancels L cqe.userData
  else s

/-- `HandleWakePoll`; `stopping` is the answer of `NotifyWake`. -/
def handleWakePoll (stopping : Bool) (s : Backend T) : Backend T :=
  let s := { s with wakePollArmed := false }
  if stopping then s else (s.armWakePoll L).2

/-- The handlers inside the backend.  The two sentinel completions carry no state, the connection
    handlers belong to the connection layer, and `IoCompletion::Complete` is application code;
    what these submit or cancel are calls of their own. -/
def handle (stopping : Bool) (cqe : Cqe T) (s : Backend T) : Backend T :=
  match cqe.userData with
  | .wakePoll => s.handleWakePoll L stopping
  | _ => s

/-- The state in which the handler of `cqe` starts; `cq` and `phase` are what is left of the queue
    the completion was taken from. -/
def startHandler (cqe : Cqe T) (cq : List (Cqe T)) (phase : Phase T) (s : Backend T) :
    Backend T :=
  { s.beforeHandler L cqe with cq := cq, phase := phase, calls := s.calls ++ [cqe] }

/-- `DispatchCqe` of the first CQE, which leaves the ring. -/
def reapOne (stopping : Bool) (s : Backend T) : Option (Backend T) :=
  match s.cq with
  | [] => none
  | cqe :: cq => some ((s.startHandler L cqe cq s.phase).handle L stopping cqe)

/-! ## Runs -/

/-- The public functions. -/
inductive Call (T : Type) where
  | request (r : Request T)
  | submitCancel (target : Option T)
  | submitCancelRecv (connection : Option ConnPtr) (tag : Option T)
  | cancelPeerDisconnect (connection : ConnPtr)  -- the tail of `CancelPeerDisconnectPoll`
  | cancelUnsubmittedForFd (fd : Int)
  | armWakePoll
  | registerFixedFiles (count : Nat) (rc : Int)
deriving DecidableEq, Repr

/-- The status a call returns (`none` for a function without one) and the state it leaves. -/
def call (s : Backend T) : Call T → Option Status × Backend T
  | .request r => (s.submitRequest L r).map some id
  | .submitCancel target => (s.submitCancel L target).map some id
  | .submitCancelRecv connection tag => (s.submitCancelRecv L connection tag).map some id
  | .cancelPeerDisconnect c =>
    (s.cancelByData L (.peerDisconnect c) .peerDisconnectCancel).map some id
  | .cancelUnsubmittedForFd fd => (none, s.cancelUnsubmittedForFd L fd)
  | .armWakePoll => (none, (s.armWakePoll L).2)
  | .registerFixedFiles count rc => (none, (s.registerFixedFiles count rc).2)

/-- What can happen next. -/
inductive Action (T : Type) where
  | call (c : Call T)
  | submit (count : Nat) (rc : Int)
  | complete (i : Nat) (res : Int) (more : Bool) (buffer : Option UInt16)  -- the kernel
  | ring                                                     -- `MSG_RING` from a peer arrives
  | poll                                                     -- `Poll` starts
  | wait (stopping : Bool)                                   -- `Wait` gets a completion
  | reap (stopping : Bool)                                   -- a turn of `ReapCompletions`
  | deferred (stopping : Bool)                               -- one of `DrainPendingCompletions`
  | finish                                                   -- the rest of `PollDeferred`
deriving DecidableEq, Repr

/-- The kernel posts a CQE for the `i`-th operation it owns, which it gives up with the last. -/
def complete (i : Nat) (res : Int) (more : Bool) (buffer : Option UInt16) (s : Backend T) :
    Option (Backend T) :=
  s.kernel[i]?.map fun e =>
    { s with
      kernel := if more then s.kernel else s.kernel.eraseIdx i
      cq := s.cq ++ [⟨e.sqe.userData, res, more, buffer, e.op⟩] }

/-- One step.  `Poll` with every deferred queue empty skips `PollDeferred`, which would do
    nothing; the run passes through its stages in either case. -/
def step (s : Backend T) : Action T → Option (Backend T)
  | .call c => some (s.call L c).2
  | .submit count rc => some (s.submit count rc).2
  | .complete i res more buffer => s.complete i res more buffer
  | .ring => some { s with cq := s.cq ++ [⟨.crossCoreWake, 0, false, none, none⟩] }
  | .poll =>
    if s.phase = .idle ∧ s.initialized then some { s with phase := .reap } else none
  | .wait stopping =>
    if s.phase = .idle ∧ s.hasPending = false then
      ({ s with phase := .reap }).reapOne L stopping
    else none
  | .reap stopping =>
    match s.phase, s.cq with
    | .reap, [] => some { s with phase := .deferred s.pendingCompletions, pendingCompletions := [] }
    | .reap, _ => s.reapOne L stopping
    | _, _ => none
  | .deferred stopping =>
    match s.phase with
    | .deferred (c :: batch) =>
      some ((s.startHandler L c.cqe s.cq (.deferred batch)).handle L stopping c.cqe)
    | .deferred [] => some { s with phase := .rearm }
    | _ => none
  | .finish =>
    match s.phase with
    | .rearm => some { s.drainPending with phase := .idle }
    | _ => none

/-- Every run of an initialised backend, from `Init` on, for every SQ size. -/
def system : System (Backend T) (Action T) where
  init s := ∃ slots wakeEventFd, s = Backend.fresh slots wakeEventFd
  step s a := s.step L a

end Backend

end Bycorf.IoUring
