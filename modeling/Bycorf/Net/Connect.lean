/-
  `ConnectTcpCancellable`: one outbound connect, raced against an optional deadline and an external
  canceller.

  1. **Program** — `Attempt` is the frame of the coroutine: the `ConnectOperation` with its two
     completion tags, the caller's `TcpConnectCancellation`, and where the coroutine is (`Stage`).
     What the backend and the kernel answer is in the labels; an accepted operation has exactly one
     terminal completion, so a completion needs an outstanding operation.
  2. **Bookkeeping** — every `SubmitCancel`, `Enqueue` and `CloseSocket` is counted, and what the
     connect returned, whether the deadline was accepted, and whether `Cancel` came before the
     resume, is remembered.  The program reads none of it.
  3. **The invariant** — `Pending` ties the flags of the operation to what is outstanding while the
     coroutine sleeps: `connect_done_` and `timeout_done_` are exactly "nothing outstanding", and
     whoever finished first has cancelled the other.
  4. **Correctness** — `reachable_resolved`, by one case for each label.
-/
import Mathlib.Data.List.Basic
import Bycorf.IoUring.Backend

namespace Bycorf.Net

open IoUring Lib

/-! ## The operation -/

/-- The code `ErrnoToStatus` of the stream maps an errno to. -/
def streamErrnoCode (err : Int) : StatusCode :=
  if err = 11 then .unavailable               -- `EAGAIN`
  else if err = 110 then .deadlineExceeded    -- `ETIMEDOUT`
  else if err = eCanceled then .cancelled
  else if err = 22 then .invalidArgument      -- `EINVAL`
  else if err = 9 then .failedPrecondition    -- `EBADF`
  else if err = 38 then .unimplemented        -- `ENOSYS`
  else if err = 111 ∨ err = 113 ∨ err = 101 then
    .unavailable                              -- `ECONNREFUSED`, `EHOSTUNREACH`, `ENETUNREACH`
  else .unknown

/-- `ErrnoToStatus` of the stream. -/
def streamErrnoToStatus (err : Int) (operation : String) : Status :=
  ⟨streamErrnoCode err, operation⟩

theorem isOk_streamErrnoToStatus (err : Int) (operation : String) :
    (streamErrnoToStatus err operation).isOk = false := by
  unfold streamErrnoToStatus streamErrnoCode Status.isOk
  split_ifs <;> rfl

/-- The two completion tags of the operation. -/
inductive ConnectTag where
  | connect
  | timeout
deriving DecidableEq, Repr

/-- `ConnectOperation`, without the address bytes. -/
structure ConnectOperation where
  fd : Int
  addressLength : Nat
  hasTimeout : Bool
  immediateStatus : Option Status
  connectResult : Int
  connectDone : Bool
  timeoutDone : Bool
  loserCancelSubmitted : Bool
  resumed : Bool
deriving DecidableEq, Repr

/-- Its constructor, for a timeout in nanoseconds. -/
def ConnectOperation.new (fd : Int) (addressLength : Nat) (timeout : Int) : ConnectOperation where
  fd := fd
  addressLength := addressLength
  hasTimeout := decide (0 < timeout)
  immediateStatus := none
  connectResult := 0
  connectDone := false
  timeoutDone := decide (timeout ≤ 0)
  loserCancelSubmitted := false
  resumed := false

/-- `ConnectOperation::await_resume`. -/
def ConnectOperation.awaitResume (op : ConnectOperation) : Status :=
  match op.immediateStatus with
  | some status => status
  | none =>
    if op.connectResult = 0 then Status.okStatus
    else if op.connectResult = -eCanceled then ⟨.deadlineExceeded, "connect timed out"⟩
    else streamErrnoToStatus (-op.connectResult) "connect failed"

/-- Where `ConnectTcpCancellable` is. -/
inductive Stage where
  | notStarted
  | created                       -- the awaitable exists, nothing is submitted
  | suspended
  | ready                         -- passed to `Enqueue`, not resumed yet
  | returned (status : Status)
deriving DecidableEq, Repr

/-- One attempt to connect. -/
structure Attempt where
  stage : Stage
  op : ConnectOperation
  cancellation : Bool             -- the caller passed a `TcpConnectCancellation`
  cancelled : Bool                -- its `cancelled_`
  bound : Bool                    -- its `operation_` is set
  connectOutstanding : Bool       -- accepted and without a completion
  timeoutOutstanding : Bool
  -- bookkeeping of the model
  opened : Bool
  closes : Nat
  resumes : Nat
  cancels : List ConnectTag
  connectCompletion : Option Int
  deadlineAccepted : Bool
  cancelledInTime : Bool

/-- Before the coroutine runs. -/
def Attempt.fresh (cancellation : Bool) : Attempt where
  stage := .notStarted
  op := ConnectOperation.new (-1) 0 0
  cancellation := cancellation
  cancelled := false
  bound := false
  connectOutstanding := false
  timeoutOutstanding := false
  opened := false
  closes := 0
  resumes := 0
  cancels := []
  connectCompletion := none
  deadlineAccepted := false
  cancelledInTime := false

namespace Attempt

/-! ## The program -/

/-- What a cancelled attempt returns. -/
def connectCancelled : Status := ⟨.cancelled, "connect cancelled"⟩

/-- `SubmitCancel`: the request is made; its own completion carries no state. -/
def submitCancel (tag : ConnectTag) (s : Attempt) : Attempt :=
  { s with cancels := s.cancels ++ [tag] }

/-- `CancelLoser`. -/
def cancelLoser (loser : ConnectTag) (s : Attempt) : Attempt :=
  if s.op.loserCancelSubmitted then s
  else { s with op := { s.op with loserCancelSubmitted := true } }.submitCancel loser

/-- `MaybeResume`. -/
def maybeResume (s : Attempt) : Attempt :=
  if s.op.connectDone ∧ s.op.timeoutDone ∧ s.op.resumed = false then
    { s with op := { s.op with resumed := true }, stage := .ready, resumes := s.resumes + 1 }
  else s

/-- `ConnectOperation::Complete`. -/
def complete (result : Int) (s : Attempt) : Attempt :=
  let s := { s with op := { s.op with connectResult := result, connectDone := true } }
  let s := if s.op.timeoutDone then s else s.cancelLoser .timeout
  s.maybeResume

/-- `ConnectOperation::OnTimeoutComplete`. -/
def onTimeoutComplete (s : Attempt) : Attempt :=
  let s := { s with op := { s.op with timeoutDone := true } }
  let s := if s.op.connectDone then s else s.cancelLoser .connect
  s.maybeResume

/-- `ConnectTcpCancellable` up to its await: `addressLength` of the parsed endpoint, what `socket`
    returns with its errno, and the errno of `setsockopt` if that fails. -/
def start (timeout : Int) (addressLength : Option Nat) (fd err : Int) (noDelay : Option Int)
    (s : Attempt) : Attempt :=
  if s.cancellation ∧ s.cancelled then { s with stage := .returned connectCancelled }
  else
    match addressLength with
    | none =>
      { s with
        stage := .returned ⟨.invalidArgument, "connect target is not a numeric IPv4/IPv6 address"⟩ }
    | some length =>
      if fd < 0 then
        { s with stage := .returned (streamErrnoToStatus err "socket creation failed") }
      else
        match noDelay with
        | some err =>
          { s with
            stage := .returned (streamErrnoToStatus err "setsockopt(TCP_NODELAY) failed")
            opened := true
            closes := s.closes + 1 }
        | none => { s with stage := .created, op := .new fd length timeout, opened := true }

/-- What follows the await: `CancellableConnectAwaitable::await_resume`, then the registration of
    the stream, or the `CloseSocket`. -/
def finish (s : Attempt) : Attempt :=
  let s := { s with bound := false }
  let status := if s.cancellation ∧ s.cancelled then connectCancelled else s.op.awaitResume
  if status.isOk = false then { s with stage := .returned status, closes := s.closes + 1 }
  else if s.op.fd < 0 then
    -- `AddConnection` refuses the descriptor
    { s with
      stage := .returned ⟨.internal, "failed to register outbound connection"⟩
      closes := s.closes + 1 }
  else { s with stage := .returned Status.okStatus }

/-- The end of `CancellableConnectAwaitable::await_suspend`, for an operation that suspended. -/
def bind (s : Attempt) : Attempt :=
  let s := { s with stage := .suspended }
  if s.cancellation then
    let s := { s with bound := true }
    if s.cancelled then s.submitCancel .connect else s
  else s

/-- `await_suspend`, with what `SubmitConnect` and `SubmitTimeout` answer; when it does not suspend
    the coroutine goes on at once. -/
def awaitSuspend (connect timeout : Status) (s : Attempt) : Attempt :=
  if s.op.fd < 0 ∨ s.op.addressLength = 0 then
    { s with op := { s.op with
      immediateStatus := some ⟨.invalidArgument, "invalid connect target"⟩ } }.finish
  else if connect.isOk = false then
    { s with op := { s.op with immediateStatus := some connect } }.finish
  else
    let s := { s with connectOutstanding := true }
    if s.op.hasTimeout = false then s.bind
    else if timeout.isOk then { s with timeoutOutstanding := true, deadlineAccepted := true }.bind
    else
      -- the connect is in flight: drop the deadline and pull the connect back
      ({ s with op := { s.op with
          timeoutDone := true, immediateStatus := some timeout } }.cancelLoser .connect).bind

/-- `TcpConnectCancellation::Cancel`. -/
def cancel (s : Attempt) : Attempt :=
  if s.cancelled then s
  else
    let s := { s with
      cancelled := true
      cancelledInTime := match s.stage with
        | .returned _ => s.cancelledInTime
        | _ => true }
    if s.bound then s.submitCancel .connect else s

/-- The steps of one attempt: of the caller, the backend and the canceller. -/
inductive Label where
  | start (timeout : Int) (addressLength : Option Nat) (fd err : Int) (noDelay : Option Int)
  | awaitSuspend (connect timeout : Status)
  | connectComplete (result : Int)
  | timeoutComplete (result : Int)
  | cancel
  | resume

/-- One step; each completion comes at most once. -/
def step (s : Attempt) : Label → Option Attempt
  | .start timeout addressLength fd err noDelay =>
    if s.stage = .notStarted then some (s.start timeout addressLength fd err noDelay) else none
  | .awaitSuspend connect timeout =>
    if s.stage = .created then some (s.awaitSuspend connect timeout) else none
  | .connectComplete result =>
    if s.connectOutstanding then
      some ({ s with
        connectOutstanding := false, connectCompletion := some result }.complete result)
    else none
  | .timeoutComplete _ =>
    if s.timeoutOutstanding then some { s with timeoutOutstanding := false }.onTimeoutComplete
    else none
  | .cancel => if s.cancellation then some s.cancel else none
  | .resume => if s.stage = .ready then some s.finish else none

/-- All interleavings, with and without a cancellation. -/
def system : System Attempt Label where
  init s := ∃ cancellation, s = fresh cancellation
  step := step

/-! ## The invariant -/

/-- Nothing has been submitted. -/
structure Idle (s : Attempt) : Prop where
  connect : s.connectOutstanding = false
  timeout : s.timeoutOutstanding = false
  bound : s.bound = false
  closes : s.closes = 0
  resumes : s.resumes = 0
  completion : s.connectCompletion = none
  deadline : s.deadlineAccepted = false
  inTime : s.cancelledInTime = s.cancelled

/-- The awaitable as constructed, for an open socket. -/
structure Created (s : Attempt) : Prop where
  opened : s.opened = true
  fd : 0 ≤ s.op.fd
  connectDone : s.op.connectDone = false
  timeoutDone : s.op.timeoutDone = !s.op.hasTimeout
  loser : s.op.loserCancelSubmitted = false
  resumed : s.op.resumed = false
  immediate : s.op.immediateStatus = none

/-- An accepted connect, until the coroutine goes on. -/
structure Pending (s : Attempt) : Prop where
  opened : s.opened = true
  fd : 0 ≤ s.op.fd
  closes : s.closes = 0
  connect : s.connectOutstanding = !s.op.connectDone
  timeout : s.timeoutOutstanding = !s.op.timeoutDone
  completion : s.connectCompletion = if s.op.connectDone then some s.op.connectResult else none
  immediate : s.op.immediateStatus = none ↔ s.op.hasTimeout = false ∨ s.deadlineAccepted = true
  failed : ∀ status ∈ s.op.immediateStatus, status.isOk = false
  noTimer : s.op.hasTimeout = false → s.op.timeoutDone = true
  loserTimeout : s.op.connectDone = true → s.op.timeoutDone = false → .timeout ∈ s.cancels
  loserConnect : s.op.hasTimeout = true → s.op.timeoutDone = true → s.op.connectDone = false →
    .connect ∈ s.cancels
  once : s.op.loserCancelSubmitted = true → s.op.connectDone = true ∨
    (s.op.hasTimeout = true ∧ s.op.timeoutDone = true)
  inTime : s.cancelledInTime = s.cancelled

/-- The coroutine has returned. -/
structure Settled (s : Attempt) (status : Status) : Prop where
  bound : s.bound = false
  connect : s.connectOutstanding = false
  timeout : s.timeoutOutstanding = false
  resumes : s.resumes = if s.connectCompletion.isSome then 1 else 0
  result : status.isOk = true ↔ s.connectCompletion = some 0 ∧
    (s.op.hasTimeout = false ∨ s.deadlineAccepted = true) ∧ s.cancelledInTime = false
  closes : s.closes = if s.opened = true ∧ status.isOk = false then 1 else 0
  opened : status.isOk = true → s.opened = true

/-- What holds at each stage. -/
def Inv (s : Attempt) : Prop :=
  (s.cancelled = true → s.cancellation = true) ∧
  match s.stage with
  | .notStarted => Idle s ∧ s.opened = false
  | .created => Idle s ∧ Created s
  | .suspended => Pending s ∧ s.resumes = 0 ∧ s.op.resumed = false ∧
      (s.op.connectDone = false ∨ s.op.timeoutDone = false)
  | .ready => Pending s ∧ s.resumes = 1 ∧ s.op.connectDone = true ∧ s.op.timeoutDone = true
  | .returned status => Settled s status

theorem fresh_inv (cancellation : Bool) : (fresh cancellation).Inv :=
  ⟨nofun, ⟨rfl, rfl, rfl, rfl, rfl, rfl, rfl, rfl⟩, rfl⟩

variable {s : Attempt}

theorem start_inv (h : s.Inv) (hstage : s.stage = .notStarted) (timeout : Int)
    (addressLength : Option Nat) (fd err : Int) (noDelay : Option Int) :
    (s.start timeout addressLength fd err noDelay).Inv := by
  obtain ⟨hcan, hrest⟩ := h
  rw [hstage] at hrest
  obtain ⟨hidle, hopen⟩ := hrest
  -- every early return is an error, before anything was submitted
  have hreturn : ∀ (status : Status) (opened : Bool) (closes : Nat), status.isOk = false →
      closes = (if opened = true then 1 else 0) →
      Settled { s with stage := .returned status, opened := opened, closes := closes } status := by
    intro status opened closes hbad hcloses
    refine ⟨hidle.bound, hidle.connect, hidle.timeout, ?_, ?_, ?_, ?_⟩
    · show s.resumes = _
      rw [hidle.resumes, hidle.completion]
      rfl
    · show status.isOk = true ↔ s.connectCompletion = some 0 ∧ _
      rw [hbad, hidle.completion]
      simp
    · show closes = if opened = true ∧ status.isOk = false then 1 else 0
      rw [hcloses, hbad]
      simp
    · intro hok
      rw [hbad] at hok
      cases hok
  unfold start
  by_cases hcancelled : s.cancellation = true ∧ s.cancelled = true
  · rw [if_pos hcancelled]
    exact ⟨hcan, hreturn connectCancelled s.opened s.closes rfl (by rw [hopen, hidle.closes]; rfl)⟩
  rw [if_neg hcancelled]
  rcases addressLength with _ | length
  · exact ⟨hcan, hreturn _ s.opened s.closes rfl (by rw [hopen, hidle.closes]; rfl)⟩
  by_cases hfd : fd < 0
  · simp only [if_pos hfd]
    exact ⟨hcan, hreturn _ s.opened s.closes (isOk_streamErrnoToStatus _ _)
      (by rw [hopen, hidle.closes]; rfl)⟩
  simp only [if_neg hfd]
  cases noDelay with
  | some err => exact ⟨hcan, hreturn _ true (s.closes + 1) (isOk_streamErrnoToStatus _ _)
      (by rw [hidle.closes]; rfl)⟩
  | none =>
    refine ⟨hcan, { hidle with }, rfl, Int.not_lt.mp hfd, rfl, ?_, rfl,
      rfl, rfl⟩
    show decide (timeout ≤ 0) = !decide (0 < timeout)
    by_cases h : timeout ≤ 0
    · simp [h]
    · simp [h, Int.not_le.mp h]

/-- The end of the coroutine, from a state in which nothing is outstanding. -/
theorem finish_settled (hcan : s.cancelled = true → s.cancellation = true)
    (hopen : s.opened = true) (hfd : 0 ≤ s.op.fd) (hcloses : s.closes = 0)
    (hconnect : s.connectOutstanding = false) (htimeout : s.timeoutOutstanding = false)
    (hresumes : s.resumes = if s.connectCompletion.isSome then 1 else 0)
    (hinTime : s.cancelledInTime = s.cancelled)
    (hresult : s.op.awaitResume.isOk = true ↔ s.connectCompletion = some 0 ∧
      (s.op.hasTimeout = false ∨ s.deadlineAccepted = true)) : s.finish.Inv := by
  unfold finish
  dsimp only
  have hnfd : ¬ s.op.fd < 0 := Int.not_lt.mpr hfd
  by_cases hcancel : s.cancellation = true ∧ s.cancelled = true
  · rw [if_pos hcancel, if_pos (show connectCancelled.isOk = false from rfl)]
    refine ⟨hcan, rfl, hconnect, htimeout, hresumes, ?_, ?_, ?_⟩
    · show false = true ↔ _
      simp [hinTime, hcancel.2]
    · show s.closes + 1 = if s.opened = true ∧ _ then 1 else 0
      simp [hcloses, hopen, connectCancelled, Status.isOk]
    · intro _
      exact hopen
  rw [if_neg hcancel]
  have hnot : s.cancelled = false := by
    cases hc : s.cancelled with
    | false => rfl
    | true => exact absurd ⟨hcan hc, hc⟩ hcancel
  by_cases hok : s.op.awaitResume.isOk = false
  · rw [if_pos hok]
    refine ⟨hcan, rfl, hconnect, htimeout, hresumes, ?_, ?_, fun _ => hopen⟩
    · show s.op.awaitResume.isOk = true ↔ _
      rw [hresult]
      simp [hinTime, hnot]
    · show s.closes + 1 = _
      simp [hcloses, hopen, hok]
  rw [if_neg hok, if_neg hnfd]
  have hok' : s.op.awaitResume.isOk = true := by simpa using hok
  refine ⟨hcan, rfl, hconnect, htimeout, hresumes, ?_, ?_, fun _ => hopen⟩
  · have := hresult.mp hok'
    simp [this, hinTime, hnot]
  · show s.closes = _
    simp [hcloses]

/-- `bind` keeps what is pending. -/
theorem Pending.bind (h : Pending s) (hcan : s.cancelled = true → s.cancellation = true)
    (hresumes : s.resumes = 0) (hresumed : s.op.resumed = false)
    (hconnect : s.op.connectDone = false) :
    s.bind.Inv := by
  unfold Attempt.bind
  dsimp only
  split_ifs
  · exact ⟨hcan, { h with
      loserTimeout := fun h1 h2 => mem_append_left _ (h.loserTimeout h1 h2)
      loserConnect := fun h1 h2 h3 => mem_append_left _ (h.loserConnect h1 h2 h3) },
      hresumes, hresumed, .inl hconnect⟩
  · exact ⟨hcan, { h with }, hresumes, hresumed, .inl hconnect⟩
  · exact ⟨hcan, { h with }, hresumes, hresumed, .inl hconnect⟩

theorem awaitSuspend_inv (h : s.Inv) (hstage : s.stage = .created)
    (connect timeout : Status) : (s.awaitSuspend connect timeout).Inv := by
  obtain ⟨hcan, hrest⟩ := h
  rw [hstage] at hrest
  obtain ⟨hidle, hnew⟩ := hrest
  -- an operation that is not submitted ends with its immediate status
  have himmediate : ∀ status : Status, status.isOk = false →
      ({ s with op := { s.op with immediateStatus := some status } }.finish).Inv := by
    intro status hbad
    refine finish_settled hcan hnew.opened hnew.fd hidle.closes hidle.connect hidle.timeout ?_
      hidle.inTime ?_
    · show s.resumes = _
      rw [hidle.resumes, hidle.completion]
      rfl
    · show status.isOk = true ↔ _
      simp [hbad, hidle.completion]
  unfold awaitSuspend
  dsimp only
  split_ifs with hbad hrejected hnone haccepted
  · exact himmediate _ rfl
  · exact himmediate connect hrejected
  · -- no deadline: only the connect is outstanding
    refine Pending.bind ⟨hnew.opened, hnew.fd, hidle.closes, ?_, ?_, ?_, ?_, ?_, ?_, ?_, ?_, ?_,
      hidle.inTime⟩ hcan hidle.resumes hnew.resumed hnew.connectDone
    all_goals simp_all [hidle.timeout, hidle.completion, hnew.connectDone, hnew.timeoutDone,
      hnew.immediate, hnew.loser]
  · -- both accepted
    have htimer : s.op.hasTimeout = true := by simpa using hnone
    refine Pending.bind ⟨hnew.opened, hnew.fd, hidle.closes, ?_, ?_, ?_, ?_, ?_, ?_, ?_, ?_, ?_,
      hidle.inTime⟩ hcan hidle.resumes hnew.resumed hnew.connectDone
    all_goals simp_all [hidle.completion, hnew.connectDone, hnew.timeoutDone, hnew.immediate,
      hnew.loser]
  · -- the deadline is rejected: the connect is cancelled at once
    unfold cancelLoser
    rw [if_neg (by simp [hnew.loser])]
    refine Pending.bind ⟨hnew.opened, hnew.fd, hidle.closes, ?_, ?_, ?_, ?_, ?_, ?_, ?_, ?_, ?_,
      hidle.inTime⟩ hcan hidle.resumes hnew.resumed hnew.connectDone
    all_goals simp_all [submitCancel, hidle.completion, hidle.timeout, hidle.deadline,
      hnew.connectDone]

/-- Only a sleeping coroutine has an operation outstanding. -/
theorem Inv.suspended_of_outstanding (h : s.Inv)
    (hout : s.connectOutstanding = true ∨ s.timeoutOutstanding = true) :
    s.stage = .suspended ∧ Pending s ∧ s.resumes = 0 ∧ s.op.resumed = false := by
  obtain ⟨_, hrest⟩ := h
  cases hstage : s.stage with
  | suspended =>
    rw [hstage] at hrest
    exact ⟨rfl, hrest.1, hrest.2.1, hrest.2.2.1⟩
  | notStarted | created =>
    rw [hstage] at hrest
    rw [hrest.1.connect, hrest.1.timeout] at hout
    simp at hout
  | ready =>
    rw [hstage] at hrest
    rw [hrest.1.connect, hrest.1.timeout, hrest.2.2.1, hrest.2.2.2] at hout
    simp at hout
  | returned status =>
    rw [hstage] at hrest
    rw [hrest.connect, hrest.timeout] at hout
    simp at hout

/-- `MaybeResume`: the coroutine is enqueued when both are done, and only then. -/
theorem Pending.maybeResume (h : Pending s)
    (hcan : s.cancelled = true → s.cancellation = true) (hstage : s.stage = .suspended)
    (hresumes : s.resumes = 0) (hresumed : s.op.resumed = false) : s.maybeResume.Inv := by
  unfold Attempt.maybeResume
  split_ifs with hdone
  · refine ⟨hcan, { h with }, ?_, hdone.1, hdone.2.1⟩
    show s.resumes + 1 = 1
    rw [hresumes]
  refine ⟨hcan, ?_⟩
  rw [hstage]
  refine ⟨h, hresumes, hresumed, ?_⟩
  cases h1 : s.op.connectDone
  · exact .inl rfl
  cases h2 : s.op.timeoutDone with
  | false => exact .inr rfl
  | true => exact absurd ⟨h1, h2, hresumed⟩ hdone

theorem Pending.loser_free (hp : Pending s) (hconnect : s.op.connectDone = false)
    (htimeout : s.op.timeoutDone = false) : s.op.loserCancelSubmitted = false := by
  cases hl : s.op.loserCancelSubmitted with
  | false => rfl
  | true =>
    have := hp.once hl
    simp [hconnect, htimeout] at this

theorem connectComplete_inv (h : s.Inv) (hout : s.connectOutstanding = true) (result : Int) :
    ({ s with
      connectOutstanding := false, connectCompletion := some result }.complete result).Inv := by
  obtain ⟨hstage, hp, hresumes, hresumed⟩ := h.suspended_of_outstanding (.inl hout)
  have hfirst : s.op.connectDone = false := by
    have := hp.connect
    rw [hout] at this
    simpa using this
  unfold complete
  dsimp only
  split_ifs with hdone
  · -- the deadline is over already
    refine Pending.maybeResume ⟨hp.opened, hp.fd, hp.closes, rfl, hp.timeout, rfl, hp.immediate,
      hp.failed, hp.noTimer, ?_, ?_, fun _ => .inl rfl, hp.inTime⟩ h.1 hstage hresumes hresumed
    all_goals simp_all
  have hlate : s.op.timeoutDone = false := by simpa using hdone
  unfold cancelLoser
  rw [if_neg (by simp [hp.loser_free hfirst hlate])]
  refine Pending.maybeResume ⟨hp.opened, hp.fd, hp.closes, rfl, hp.timeout, rfl, hp.immediate,
    hp.failed, hp.noTimer, ?_, ?_, fun _ => .inl rfl, hp.inTime⟩ h.1 hstage hresumes hresumed
  all_goals simp [submitCancel]

theorem timeoutComplete_inv (h : s.Inv) (hout : s.timeoutOutstanding = true) :
    ({ s with timeoutOutstanding := false }.onTimeoutComplete).Inv := by
  obtain ⟨hstage, hp, hresumes, hresumed⟩ := h.suspended_of_outstanding (.inr hout)
  have hfirst : s.op.timeoutDone = false := by
    have := hp.timeout
    rw [hout] at this
    simpa using this
  have htimer : s.op.hasTimeout = true := by
    cases ht : s.op.hasTimeout with
    | true => rfl
    | false =>
      have := hp.noTimer ht
      rw [hfirst] at this
      cases this
  unfold onTimeoutComplete
  dsimp only
  split_ifs with hdone
  · refine Pending.maybeResume ⟨hp.opened, hp.fd, hp.closes, hp.connect, rfl, hp.completion,
      hp.immediate, hp.failed, fun _ => rfl, ?_, ?_, fun _ => .inl hdone, hp.inTime⟩
      h.1 hstage hresumes
      hresumed
    all_goals simp_all
  have hlate : s.op.connectDone = false := by simpa using hdone
  unfold cancelLoser
  rw [if_neg (by simp [hp.loser_free hlate hfirst])]
  refine Pending.maybeResume ⟨hp.opened, hp.fd, hp.closes, hp.connect, rfl, hp.completion,
    hp.immediate, hp.failed, fun _ => rfl, ?_, ?_,
    fun _ => .inr ⟨htimer, rfl⟩, hp.inTime⟩ h.1 hstage
    hresumes hresumed
  all_goals simp [submitCancel]

/-- The first `Cancel`. -/
theorem cancel_eq (h : s.cancelled = false) : s.cancel = { s with
    cancelled := true
    cancelledInTime := match s.stage with
      | .returned _ => s.cancelledInTime
      | _ => true
    cancels := if s.bound then s.cancels ++ [.connect] else s.cancels } := by
  unfold cancel
  rw [h]
  cases s.bound <;> simp [submitCancel]

theorem Pending.cancel (h : Pending s) {stage : Stage} {cancels : List ConnectTag}
    (hc : ∀ tag ∈ s.cancels, tag ∈ cancels) :
    Pending { s with
      stage := stage, cancelled := true, cancelledInTime := true, cancels := cancels } :=
  { h with
    loserTimeout := fun h1 h2 => hc _ (h.loserTimeout h1 h2)
    loserConnect := fun h1 h2 h3 => hc _ (h.loserConnect h1 h2 h3)
    inTime := rfl }

theorem Idle.cancel (h : Idle s) {stage : Stage} (cancels : List ConnectTag) :
    Idle { s with
      stage := stage, cancelled := true, cancelledInTime := true, cancels := cancels } :=
  { h with inTime := rfl }

theorem cancel_inv (h : s.Inv) (hcancellation : s.cancellation = true) : s.cancel.Inv := by
  cases hdone : s.cancelled with
  | true =>
    have hsame : s.cancel = s := by simp [cancel, hdone]
    rwa [hsame]
  | false =>
    obtain ⟨_, hrest⟩ := h
    have hcancels : ∀ tag ∈ s.cancels,
        tag ∈ (if s.bound then s.cancels ++ [.connect] else s.cancels) := by
      intro tag htag
      split
      · exact mem_append_left _ htag
      · exact htag
    rw [cancel_eq hdone]
    refine ⟨fun _ => hcancellation, ?_⟩
    cases hstage : s.stage with
    | notStarted =>
      rw [hstage] at hrest
      exact ⟨hrest.1.cancel _, hrest.2⟩
    | created =>
      rw [hstage] at hrest
      have hnew := hrest.2
      exact ⟨hrest.1.cancel _, hnew.opened, hnew.fd, hnew.connectDone, hnew.timeoutDone, hnew.loser,
        hnew.resumed, hnew.immediate⟩
    | suspended | ready =>
      rw [hstage] at hrest
      exact ⟨hrest.1.cancel hcancels, hrest.2⟩
    | returned status =>
      rw [hstage] at hrest
      exact { hrest with }

/-- What `await_resume` answers once the connect has completed. -/
theorem Pending.awaitResume (h : Pending s) (hdone : s.op.connectDone = true) :
    s.op.awaitResume.isOk = true ↔ s.connectCompletion = some 0 ∧
      (s.op.hasTimeout = false ∨ s.deadlineAccepted = true) := by
  rw [h.completion, if_pos hdone, ← h.immediate]
  unfold ConnectOperation.awaitResume
  cases himm : s.op.immediateStatus with
  | some status =>
    have := h.failed status himm
    simp [this]
  | none =>
    by_cases hzero : s.op.connectResult = 0
    · simp [hzero]
    by_cases hcancelled : s.op.connectResult = -eCanceled
    · simp [hcancelled, Status.isOk, eCanceled]
    · simp [hzero, hcancelled, isOk_streamErrnoToStatus]

theorem resume_inv (h : s.Inv) (hstage : s.stage = .ready) : s.finish.Inv := by
  obtain ⟨hcan, hrest⟩ := h
  rw [hstage] at hrest
  obtain ⟨hp, hresumes, hconnect, htimeout⟩ := hrest
  refine finish_settled hcan hp.opened hp.fd hp.closes ?_ ?_ ?_ hp.inTime (hp.awaitResume hconnect)
  · rw [hp.connect, hconnect]
    rfl
  · rw [hp.timeout, htimeout]
    rfl
  · rw [hresumes, hp.completion, if_pos hconnect]
    rfl

/-- **One step keeps the invariant.** -/
theorem step_inv {s' : Attempt} {a : Label} (h : s.Inv) (hs : s.step a = some s') : s'.Inv := by
  cases a with
  | start timeout addressLength fd err noDelay =>
    refine of_guard hs fun hstage => ?_
    exact start_inv h hstage timeout addressLength fd err noDelay
  | awaitSuspend connect timeout =>
    refine of_guard hs fun hstage => ?_
    exact awaitSuspend_inv h hstage connect timeout
  | connectComplete result =>
    refine of_guard hs fun hout => ?_
    exact connectComplete_inv h hout result
  | timeoutComplete result =>
    refine of_guard hs fun hout => ?_
    exact timeoutComplete_inv h hout
  | cancel =>
    refine of_guard hs fun hcancellation => ?_
    exact cancel_inv h hcancellation
  | resume =>
    refine of_guard hs fun hstage => ?_
    exact resume_inv h hstage

theorem reachable_inv (h : system.Reachable s) : s.Inv := by
  refine h.invariant (P := Inv) ?_ fun s a s' hinv hs => step_inv hinv hs
  rintro s ⟨cancellation, rfl⟩
  exact fresh_inv cancellation

/-! ## Resolution -/

/-- An attempt that resolves exactly once and leaves nothing behind. -/
structure Resolves (s : Attempt) : Prop where
  /-- While the coroutine sleeps it has not been resumed, and an operation is still to complete. -/
  asleep : s.stage = .suspended →
    s.resumes = 0 ∧ (s.connectOutstanding = true ∨ s.timeoutOutstanding = true)
  /-- It is resumed once, with nothing outstanding. -/
  resumed : s.stage = .ready →
    s.resumes = 1 ∧ s.connectOutstanding = false ∧ s.timeoutOutstanding = false
  /-- Whichever operation completes first, the other one has been cancelled. -/
  connectFirst : s.connectCompletion.isSome = true → s.timeoutOutstanding = true →
    .timeout ∈ s.cancels
  timeoutFirst : s.connectOutstanding = true → s.op.hasTimeout = true →
    s.timeoutOutstanding = false → .connect ∈ s.cancels
  /-- A return: at most one resume before it, and none without a completed connect. -/
  returned : ∀ status, s.stage = .returned status →
    s.connectOutstanding = false ∧ s.timeoutOutstanding = false ∧
    s.resumes = (if s.connectCompletion.isSome then 1 else 0)
  result : ∀ status, s.stage = .returned status →
    (status.isOk = true ↔ s.connectCompletion = some 0 ∧
      (s.op.hasTimeout = false ∨ s.deadlineAccepted = true) ∧ s.cancelledInTime = false)
  /-- The socket is closed by the return, once, unless the stream has it. -/
  closes : ∀ status, s.stage = .returned status →
    s.closes = (if s.opened = true ∧ status.isOk = false then 1 else 0) ∧
    (status.isOk = true → s.opened = true)
  open_before : (∀ status, s.stage ≠ .returned status) → s.closes = 0
  /-- A later `Cancel` reaches no operation. -/
  late_cancel : ∀ status s', s.stage = .returned status → s.step .cancel = some s' →
    s' = { s with cancelled := true }

/-- **`ConnectOperation` resolves exactly once and leaves nothing behind**, for every order of the
    completions, every result, with and without a deadline, a rejected deadline, and `Cancel` at any
    point. -/
theorem reachable_resolves {s : Attempt} (h : system.Reachable s) : s.Resolves := by
  obtain ⟨hcan, hrest⟩ := reachable_inv h
  refine ⟨?_, ?_, ?_, ?_, ?_, ?_, ?_, ?_, ?_⟩
  · intro hstage
    rw [hstage] at hrest
    obtain ⟨hp, hresumes, _, hwaits⟩ := hrest
    refine ⟨hresumes, ?_⟩
    rw [hp.connect, hp.timeout]
    rcases hwaits with hw | hw
    · exact .inl (by rw [hw]; rfl)
    · exact .inr (by rw [hw]; rfl)
  · intro hstage
    rw [hstage] at hrest
    obtain ⟨hp, hresumes, hconnect, htimeout⟩ := hrest
    rw [hp.connect, hp.timeout, hconnect, htimeout]
    exact ⟨hresumes, rfl, rfl⟩
  · intro hcompletion hout
    obtain ⟨_, hp, _, _⟩ := Inv.suspended_of_outstanding ⟨hcan, hrest⟩ (.inr hout)
    refine hp.loserTimeout ?_ ?_
    · by_contra hne
      rw [hp.completion, if_neg hne] at hcompletion
      cases hcompletion
    · have := hp.timeout
      rw [hout] at this
      simpa using this
  · intro hout htimer hover
    obtain ⟨_, hp, _, _⟩ := Inv.suspended_of_outstanding ⟨hcan, hrest⟩ (.inl hout)
    refine hp.loserConnect htimer ?_ ?_
    · have := hp.timeout
      rw [hover] at this
      simpa using this
    · have := hp.connect
      rw [hout] at this
      simpa using this
  · intro status hstage
    rw [hstage] at hrest
    exact ⟨hrest.connect, hrest.timeout, hrest.resumes⟩
  · intro status hstage
    rw [hstage] at hrest
    exact hrest.result
  · intro status hstage
    rw [hstage] at hrest
    exact ⟨hrest.closes, hrest.opened⟩
  · intro hnot
    cases hstage : s.stage with
    | returned status => exact absurd hstage (hnot status)
    | notStarted | created | suspended | ready =>
      rw [hstage] at hrest
      exact hrest.1.closes
  · intro status s' hstage hs
    rw [hstage] at hrest
    refine of_guard hs fun _ => ?_
    unfold cancel
    by_cases hdone : s.cancelled = true
    · rw [if_pos hdone, ← hdone]
    have hunbound : ¬ s.bound = true := by simp [hrest.bound]
    rw [if_neg hdone]
    simp only [if_neg hunbound, hstage]

/-- A deadline that loses the race, with a `Cancel` after the last completion. -/
def lateCancelLabels : List Label :=
  [.start 1000 (some 16) 7 0 none, .awaitSuspend Status.okStatus Status.okStatus,
    .connectComplete 0, .timeoutComplete (-125), .cancel, .resume, .cancel]

/-- The connect succeeded, but `Cancel` came before the resume: the socket is closed. -/
theorem resolves_late_cancel : ∃ s, system.run (fresh true) lateCancelLabels = some s ∧
    (s.stage = .returned connectCancelled ∧ s.closes = 1 ∧ s.cancels = [.timeout, .connect]) ∧
    s.Resolves := by
  exact exists_run ⟨true, rfl⟩ reachable_resolves (by decide)

end Attempt

end Bycorf.Net
