/-
  A coroutine suspended in `ReadOperation` is resumed by a receive completion, or not at all.

  1. **The invariant (`Attended`)** — a reader on an open connection waits for a receive that is
     armed or about to be re-armed, or `PauseRead` on the connection has returned OK.
  2. **Two gaps** — `PauseRead` leaves its flag up when it returns an ERROR, and a read that is
     started then suspends without a receive (`read_after_failed_pauseRead`).  A one-shot receive
     that ends with `-ENOBUFS` or `-ECANCELED` is neither reported to the reader nor re-armed
     (`enobufs_strands_reader`).
  3. **Otherwise (`reachable_attends`)** — no reader is stranded.
-/
import Bycorf.Net.Pause

namespace Bycorf.Net

open IoUring Lib

variable {L : Liburing Tag}

/-! ## One record -/

namespace Connection

/-- The receive of a one-shot connection ends without anyone being told, and a reader waits. -/
def endsUnheard (o : Options) (cqe : Cqe Tag) (conn : Connection) : Bool :=
  !cqe.more && (cqe.res = -eCanceled || cqe.res = -eNobufs) && !conn.useMultishot o &&
    conn.readWaiter.isSome && conn.usable && !conn.recvPaused

/-- What a reader of the connection can rely on: `queued` says that a re-arm is pending, `handedOff`
    that a call of `PauseRead` has returned OK. -/
structure Attended (queued handedOff : Prop) (conn : Connection) : Prop where
  rearm : conn.needsRecvRearm = true → queued
  reader : conn.readWaiter.isSome = true → conn.usable = true → conn.recvPaused = false →
    conn.recvEof = false ∧ conn.receivedBuffers = [] ∧ (conn.recvArmed = true ∨ queued)
  paused : conn.readWaiter.isSome = true → conn.usable = true → conn.recvPaused = true → handedOff

variable {queued queued' handedOff handedOff' : Prop} {conn conn' : Connection}

theorem Attended.mono (h : conn.Attended queued handedOff) (hq : queued → queued')
    (hh : handedOff → handedOff') : conn.Attended queued' handedOff' where
  rearm hneeds := hq (h.rearm hneeds)
  reader hr hu hp := (h.reader hr hu hp).imp id (And.imp id (Or.imp id hq))
  paused hr hu hp := hh (h.paused hr hu hp)

theorem Attended.keeps {closes : Prop} (h : conn.Attended queued handedOff)
    (hkeeps : conn.Keeps closes conn') : conn'.Attended queued handedOff := by
  -- a reader of the new record was one of the old
  have hsome : conn'.readWaiter.isSome = true → conn'.usable = true →
      conn.readWaiter.isSome = true := by
    intro hr hu
    rcases hkeeps.reader with heq | hno
    · rw [← heq]
      exact hr
    · exact absurd (hno.symm.trans hu) (by decide)
  refine ⟨fun hneeds => h.rearm (hkeeps.rearm.symm.trans hneeds), ?_, ?_⟩
  · intro hr hu hp
    obtain ⟨heof, hbuf, hserved⟩ :=
      h.reader (hsome hr hu) (hkeeps.usable hu) (hkeeps.pause.symm.trans hp)
    exact ⟨(hkeeps.eof hu).trans heof, hkeeps.buffers hbuf, hserved.imp hkeeps.armed id⟩
  · intro hr hu hp
    exact h.paused (hsome hr hu) (hkeeps.usable hu) (hkeeps.pause.symm.trans hp)

theorem Attended.fresh (file : RegisteredFile) (mode : RecvMode) (buffer : UInt64) (now : Int) :
    ({ Connection.fresh file mode buffer with lastActiveMs := now } :
      Connection).Attended queued handedOff where
  rearm h := by cases h
  reader h := by cases h
  paused h := by cases h

section

variable (h : conn.Attended queued handedOff)
include h

/-- A read suspends: the receive is armed, unless the connection is paused. -/
theorem Attended.waits (hwaits : conn.Waits conn')
    (hpaused : conn.recvPaused = true → handedOff) : conn'.Attended queued handedOff := by
  obtain ⟨_, hbuf, heof, _⟩ := mustWait_iff.mp hwaits.mustWait
  have hpause : conn'.recvPaused = conn.recvPaused := hwaits.same.recvPaused
  refine ⟨fun hneeds => h.rearm (hwaits.same.needsRecvRearm.symm.trans hneeds), ?_, ?_⟩
  · intro _ _ hp
    refine ⟨hwaits.same.recvEof.trans heof, hwaits.same.receivedBuffers.trans hbuf, .inl ?_⟩
    rcases hwaits.armed with harmed | hup
    · exact harmed
    · exact absurd (hpause.trans hup) (by rw [hp]; decide)
  · intro _ _ hp
    exact hpaused (hpause.symm.trans hp)

/-- `PauseRead` starts only without a reader. -/
theorem Attended.pauses (hreader : conn.readWaiter = none) :
    ({ conn with recvPaused := true } : Connection).Attended queued handedOff := by
  have hno : ¬conn.readWaiter.isSome = true := by
    rw [hreader]
    decide
  exact ⟨h.rearm, fun hr => absurd hr hno, fun hr => absurd hr hno⟩

/-- A receive completion: a reader that still waits has a receive that goes on, or a re-arm. -/
theorem Attended.receives {o : Options} {cqe : Cqe Tag}
    {joins : Bool} (hrecv : Receives o cqe conn conn' joins)
    (hheard : conn.endsUnheard o cqe = false) :
    conn'.Attended (queued ∨ joins = true) handedOff := by
  have hrearm : conn'.needsRecvRearm = true → queued ∨ joins = true :=
    fun hneeds => (hrecv.queues hneeds).imp h.rearm id
  refine ⟨hrearm, ?_, ?_⟩
  · intro hr hu hp
    obtain ⟨hsame, hbuf, heof, hres⟩ := hrecv.reader hr
    have hr' : conn.readWaiter.isSome = true := hsame ▸ hr
    have hu' : conn.usable = true := hrecv.usable.symm.trans hu
    have hp' : conn.recvPaused = false := hrecv.recvPaused.symm.trans hp
    obtain ⟨heof', hbuf', hserved⟩ := h.reader hr' hu' hp'
    refine ⟨heof.trans heof', hbuf.trans hbuf', ?_⟩
    cases hmore : cqe.more with
    | true =>
      rw [hrecv.recvArmed, hmore, Bool.and_true]
      exact hserved.imp id .inl
    | false =>
      -- the receive has ended: in multishot mode it is re-armed
      cases hmode : conn.useMultishot o with
      | true => exact .inr (hrearm (hrecv.ends hmore hmode hp' hu' (heof.trans heof')))
      | false =>
        have hunheard : conn.endsUnheard o cqe = true := by
          simp [endsUnheard, hmore, hres, hmode, hr', hu', hp']
        exact absurd (hheard.symm.trans hunheard) (by decide)
  · intro hr hu hp
    obtain ⟨hsame, _⟩ := hrecv.reader hr
    exact h.paused (hsame ▸ hr) (hrecv.usable.symm.trans hu) (hrecv.recvPaused.symm.trans hp)

/-- A re-arm is made: the entry of the batch is used up, and a reader has its receive. -/
theorem Attended.rearms (hrearmed : conn.Rearmed conn') : conn'.Attended queued' handedOff := by
  have hreader : conn'.readWaiter = conn.readWaiter := hrearmed.same.readWaiter
  have husable : conn'.usable = conn.usable := hrearmed.same.usable_eq
  have hpause : conn'.recvPaused = conn.recvPaused := hrearmed.same.recvPaused
  refine ⟨fun hneeds => ?_, ?_, ?_⟩
  · rw [hrearmed.same.needsRecvRearm] at hneeds
    cases hneeds
  · intro hr hu hp
    obtain ⟨heof, hbuf, _⟩ := h.reader (hreader ▸ hr) (husable.symm.trans hu) (hpause.symm.trans hp)
    exact ⟨hrearmed.same.recvEof.trans heof, hrearmed.same.receivedBuffers.trans hbuf,
      .inl (hrearmed.made (husable.symm.trans hu) heof (hpause.symm.trans hp) hbuf)⟩
  · intro hr hu hp
    exact h.paused (hreader ▸ hr) (husable.symm.trans hu) (hpause.symm.trans hp)

end

end Connection

/-! ## One step -/

namespace Worker

/-- The receive completion ends a receive unheard. -/
def endsUnheard (w : Worker) (cqe : Cqe Tag) : Bool :=
  match cqe.userData with
  | .recv c => (w.connections c).any fun conn => conn.endsUnheard w.options cqe
  | _ => false

variable {w : Worker} {c : ConnPtr}

theorem endsUnheard_recv {cqe : Cqe Tag} {conn : Connection}
    (hdata : cqe.userData = .recv c) (hc : w.connections c = some conn) :
    w.endsUnheard cqe = conn.endsUnheard w.options cqe := by
  simp [endsUnheard, hdata, hc]

/-- Every reader of the worker is attended. -/
def Attends (handedOff : ConnPtr → Prop) (w : Worker) : Prop :=
  ∀ c conn, w.connections c = some conn →
    conn.Attended (c ∈ w.recvRearmQueue ++ w.rearmBatch) (handedOff c)

variable {handedOff : ConnPtr → Prop} {w' : Worker}

/-- One record is replaced, and no pending re-arm of another connection is lost. -/
theorem Attends.update (h : w.Attends handedOff)
    {conn' : Connection} (hconns : w'.connections = Function.update w.connections c (some conn'))
    (hpending : ∀ d ≠ c, d ∈ w.recvRearmQueue ++ w.rearmBatch →
      d ∈ w'.recvRearmQueue ++ w'.rearmBatch)
    (hself : conn'.Attended (c ∈ w'.recvRearmQueue ++ w'.rearmBatch) (handedOff c)) :
    w'.Attends handedOff := by
  intro d other hd
  rw [hconns] at hd
  by_cases hdc : d = c
  · subst hdc
    rw [update_self] at hd
    cases hd
    exact hself
  rw [update_of_ne hdc] at hd
  exact (h d other hd).mono (hpending d hdc) id

/-- Taking one entry from the batch loses no other. -/
theorem mem_pending_of_ne {queue batch : List ConnPtr} {d : ConnPtr} (hd : d ≠ c)
    (h : d ∈ queue ++ c :: batch) : d ∈ queue ++ batch := by
  rcases mem_append.mp h with hq | hb
  · exact mem_append_left _ hq
  · exact mem_append_right _ (List.mem_of_ne_of_mem hd hb)

theorem SameQueues.pending (h : SameQueues w w') :
    w'.recvRearmQueue ++ w'.rearmBatch = w.recvRearmQueue ++ w.rearmBatch := by
  rw [h.queue, h.batch]

theorem Calm.attends {closes : ConnPtr → Prop} {sweeps : Prop}
    (hcalm : Calm closes sweeps w w') (h : w.Attends handedOff) : w'.Attends handedOff := by
  intro c conn' hc'
  have hat := hcalm.conns c
  rw [hc'] at hat
  rw [hcalm.queue, hcalm.batch]
  generalize hentry : w.connections c = entry at hat
  cases hat with
  | kept hkeeps => exact (h c _ hentry).keeps hkeeps

/-- **Every step keeps the readers attended**, if a read that has to wait on a paused connection
    comes after a successful `PauseRead`, and no receive ends unheard. -/
theorem Act.attends {a : Action} (hact : Act w a w') (h : w.Attends handedOff)
    (hreads : ∀ c waiter, a = .readSuspend c waiter → ∀ conn, w.connections c = some conn →
      conn.mustWait = true → conn.recvPaused = true → handedOff c)
    (hheard : ∀ cqe ∈ w.dispatched a, w.endsUnheard cqe = false) : w'.Attends handedOff := by
  cases hact with
  | calm hcalm => exact hcalm.attends h
  | added file mode buffer now hconns hqueue hbatch _ =>
    refine h.update hconns (fun d _ hd => ?_) (.fresh file mode buffer now)
    rw [hqueue, hbatch]
    exact hd
  | @waits _ c waiter conn conn' hc hwaits hconns hq =>
    refine h.update hconns (fun d _ hd => ?_) ?_
    · rw [hq.pending]
      exact hd
    · rw [hq.pending]
      exact (h c conn hc).waits hwaits (hreads c waiter rfl conn hc hwaits.mustWait)
  | @pauses _ c tag conn hc _ hreader hconns hq =>
    refine h.update hconns (fun d _ hd => ?_) ?_
    · rw [hq.pending]
      exact hd
    · rw [hq.pending]
      exact (h c conn hc).pauses hreader
  | @receives _ _ c conn cqe now hdisp hdata hc hconns hqueue hbatch _ =>
    have hunheard : conn.endsUnheard w.options cqe = false :=
      (endsUnheard_recv hdata hc).symm.trans (hheard cqe hdisp)
    have hrecv := (h c conn hc).receives (conn.handleMultishotRecv_receives w.options now cqe)
      hunheard
    have hpending : ∀ d ∈ w.recvRearmQueue ++ w.rearmBatch,
        d ∈ w'.recvRearmQueue ++ w'.rearmBatch := by
      intro d hd
      rw [hqueue, hbatch]
      split
      · rcases mem_append.mp hd with hq | hb
        · exact mem_append_left _ (mem_append_left _ hq)
        · exact mem_append_right _ hb
      · exact hd
    refine h.update hconns (fun d _ => hpending d) (hrecv.mono ?_ id)
    rintro (hmem | hjoins)
    · exact hpending c hmem
    rw [hqueue, if_pos hjoins]
    exact mem_append_left _ (mem_append_right _ (List.mem_singleton_self c))
  | detaches stopping now hconns hqueue hbatch hnone _ =>
    intro c conn hc
    rw [hconns] at hc
    rw [hqueue, hbatch, nil_append]
    refine (h c conn hc).mono (fun hmem => ?_) id
    rw [hnone, append_nil] at hmem
    exact hmem
  | @rearms _ c batch conn conn' hold hnew hqueue hc hrearmed hconns _ =>
    refine h.update hconns (fun d hd hmem => ?_) ((h c conn hc).rearms hrearmed)
    rw [hqueue, hnew]
    exact mem_pending_of_ne hd (hold ▸ hmem)
  | @passes _ c batch hold hnew hqueue hnone hconns _ =>
    intro d conn hd
    rw [hconns] at hd
    have hne : d ≠ c := by
      rintro rfl
      rw [hnone] at hd
      cases hd
    refine (h d conn hd).mono (fun hmem => ?_) id
    rw [hqueue, hnew]
    exact mem_pending_of_ne hne (hold ▸ hmem)

/-- A receive operation for the connection is in the submission queue, in the software queue or in
    the kernel, or a completion of it has not been dispatched. -/
def HasRecv (w : Worker) (c : ConnPtr) : Prop :=
  (∃ e ∈ w.backend.unsubmitted ++ w.backend.kernel, e.sqe.userData = .recv c) ∨
  (∃ x ∈ w.backend.cq, x.userData = .recv c) ∨
  ∃ p ∈ w.backend.pendingCompletions ++ w.backend.phase.batch, p.userData = .recv c

instance (w : Worker) (c : ConnPtr) : Decidable (w.HasRecv c) :=
  inferInstanceAs (Decidable (
    (∃ e ∈ w.backend.unsubmitted ++ w.backend.kernel, e.sqe.userData = .recv c) ∨
    (∃ x ∈ w.backend.cq, x.userData = .recv c) ∨
    ∃ p ∈ w.backend.pendingCompletions ++ w.backend.phase.batch, p.userData = .recv c))

theorem useKey_recv {data : UserData Tag} {op : Option Nat}
    (h : useKey data op = some ⟨.recv, c⟩) : data = .recv c := by
  obtain ⟨_, _, huse⟩ := bind_eq_some_iff.mp h
  unfold useOf at huse
  split at huse <;> cases huse
  rfl

theorem Sound.hasRecv (h : w.Sound) {conn : Connection}
    (hc : w.connections c = some conn) (harmed : conn.recvArmed = true) : w.HasRecv c := by
  have hmem : (⟨.recv, c⟩ : Use) ∈ w.uses := by
    have hcount := (h.accounted c).armed .recv
    rw [hc] at hcount
    refine Multiset.count_ne_zero.mp ?_
    rw [hcount, show (booksOf (some conn)).armed .recv = true from harmed]
    decide
  rcases Backend.mem_unfinished.mp hmem with ⟨e, he, hkey⟩ | ⟨x, hx, _, hkey⟩ | ⟨p, hp, hkey⟩
  · exact .inl ⟨e, he, useKey_recv hkey⟩
  · exact .inr (.inl ⟨x, hx, useKey_recv hkey⟩)
  · exact .inr (.inr ⟨p, hp, useKey_recv hkey⟩)

end Worker

/-! ## Runs -/

namespace Pausing

/-- A call of `PauseRead` on the connection has returned OK. -/
def PausedOk (s : Pausing) (c : ConnPtr) : Prop :=
  ∃ frame ∈ s.frames, frame.connection = c ∧ frame.succeeded = true

instance (s : Pausing) (c : ConnPtr) : Decidable (s.PausedOk c) :=
  inferInstanceAs (Decidable (∃ frame ∈ s.frames, frame.connection = c ∧ frame.succeeded = true))

/-- The connection on which the step starts a read. -/
def readBy : Worker.Action → Option ConnPtr
  | .readSuspend c _ => some c
  | _ => none

/-- A read that has to wait is started on a paused connection only if a call of `PauseRead` on it
    has returned OK, and no receive ends unheard. -/
def KeepsReaders (s : Pausing) : Label → Prop
  | .worker a =>
    (∀ c ∈ readBy a, ∀ conn ∈ s.worker.connections c, conn.mustWait = true →
      conn.recvPaused = true → s.PausedOk c) ∧
    ∀ cqe ∈ s.worker.dispatched a, s.worker.endsUnheard cqe = false
  | _ => True

instance (s : Pausing) : ∀ l, Decidable (s.KeepsReaders l)
  | .worker a => inferInstanceAs (Decidable (
      (∀ c ∈ readBy a, ∀ conn ∈ s.worker.connections c, conn.mustWait = true →
        conn.recvPaused = true → s.PausedOk c) ∧
      ∀ cqe ∈ s.worker.dispatched a, s.worker.endsUnheard cqe = false))
  | .pauseRead .. | .cancelled .. | .yielded _ => isTrue trivial

variable {s s' : Pausing} {l : Label}

/-- A successful call stays one. -/
theorem step_pausedOk (hs : s.step L l = some s') {c : ConnPtr}
    (h : s.PausedOk c) : s'.PausedOk c := by
  obtain ⟨frame, hmem, hc, hdone⟩ := h
  obtain ⟨k, hk⟩ := List.getElem?_of_mem hmem
  exact ⟨frame, mem_of_getElem? (step_succeeded hs hk hdone), hc, hdone⟩

theorem step_attends (hinv : s.Inv)
    (h : s.worker.Attends s.PausedOk) (hok : s.KeepsReaders l) (hs : s.step L l = some s') :
    s'.worker.Attends s'.PausedOk := by
  have hworker : s'.worker.Attends s.PausedOk := by
    cases step_move hs with
    | @worker a w _ hw =>
      refine (Worker.step_act hinv.sound hw).attends h ?_ hok.2
      rintro c waiter rfl
      exact hok.1 c rfl
    | @starts c tag conn hc =>
      refine (Worker.pauseRead_act s.worker c tag).attends h ?_ ?_
      · rintro d waiter ⟨⟩
      · rintro cqe ⟨⟩
    | fails | goesOn => exact h
  exact fun c conn hc => (hworker c conn hc).mono id (step_pausedOk hs)

theorem reachable_attended (h : (system L).ReachableUnder KeepsReaders s) :
    s.Inv ∧ s.worker.Attends s.PausedOk := by
  refine h.invariant (P := fun s => s.Inv ∧ s.worker.Attends s.PausedOk) ?_ ?_
  · intro s hinit
    refine ⟨reachable_inv (.init hinit : (system L).ReachableUnder (fun _ _ => True) s), ?_⟩
    obtain ⟨⟨options, slots, wakeEventFd, hfresh⟩, _⟩ := hinit
    intro c conn hc
    rw [hfresh] at hc
    cases hc
  · rintro s l s' ⟨hinv, hatt⟩ hok hs
    exact ⟨step_inv hinv hs, step_attends hinv hatt hok hs⟩

/-- **No stranded reader**, in every run in which a read that has to wait is started on a paused
    connection only after a successful `PauseRead`, and no one-shot receive of a waiting reader ends
    with `-ENOBUFS` or `-ECANCELED`: between rounds of the event loop, a reader suspended on an open
    connection that has not been paused successfully has a receive in flight, or a pending
    re-arm. -/
theorem reachable_attends {s : Pausing} (h : (system L).ReachableUnder KeepsReaders s)
    (hidle : s.worker.backend.phase = .idle) {c : ConnPtr} {conn : Connection}
    (hc : s.worker.connections c = some conn) (hreader : conn.readWaiter.isSome = true)
    (husable : conn.usable = true) (hpaused : ¬s.PausedOk c) :
    s.worker.HasRecv c ∨ c ∈ s.worker.recvRearmQueue := by
  obtain ⟨hinv, hatt⟩ := reachable_attended h
  have hself := hatt c conn hc
  have hflag : conn.recvPaused = false :=
    Bool.eq_false_of_not_eq_true fun hup => hpaused (hself.paused hreader husable hup)
  obtain ⟨_, _, hserved⟩ := hself.reader hreader husable hflag
  have hbatch : s.worker.rearmBatch = [] := hinv.sound.rearm.batch (by simp [hidle])
  rw [hbatch, append_nil] at hserved
  exact hserved.imp (hinv.sound.hasRecv hc) id

/-! ## Three runs -/

/-- A reader waits, and the multishot receive runs out of buffers. -/
def multishotEnobufs : List Worker.Action :=
  Worker.openAndReceive ++ [.readSuspend 1 5, .complete 0 (-105) false none]

/-- A pass of `Poll` with one completion, which asks for a re-arm. -/
def rearmPass : List Worker.Action :=
  [.poll, .reap false 2, .reap false 2, .deferred false 2, .rearm, .rearm]

theorem attends_rearmed :
    ∃ s conn, (system (Liburing.standard Tag)).run smallPausing
        ((multishotEnobufs ++ rearmPass).map .worker) = some s ∧
      s.worker.connections 1 = some conn ∧ conn.readWaiter = some 5 ∧
      (s.worker.HasRecv 1 ∨ 1 ∈ s.worker.recvRearmQueue) := by
  have hfollows : (system (Liburing.standard Tag)).Follows KeepsReaders smallPausing
      ((multishotEnobufs ++ rearmPass).map .worker) := by
    decide +kernel
  have hrun : ∃ s ∈ (system (Liburing.standard Tag)).run smallPausing
      ((multishotEnobufs ++ rearmPass).map .worker), s.worker.backend.phase = .idle ∧
      ¬s.PausedOk 1 ∧ ∃ conn ∈ s.worker.connections 1, conn.readWaiter = some 5 ∧
        conn.usable = true := by
    decide +kernel
  obtain ⟨s, hs, hidle, hpaused, conn, hc, hreader, husable⟩ := hrun
  refine ⟨s, conn, hs, hc, hreader, ?_⟩
  exact reachable_attends (.run (.init ⟨⟨_, _, _, rfl⟩, rfl⟩) _ hfollows hs) hidle hc
    (by rw [hreader]; rfl) husable hpaused

/-- Data arrives and is dispatched. -/
def receiveData : List Worker.Action :=
  Worker.openAndReceive ++ [.complete 0 5 true (some 0)] ++ Worker.pollPass 1

/-- `PauseRead` finds the data in the queue and returns an error; the data is read, and the next
    read suspends. -/
def readAfterFailedPause : List Label :=
  receiveData.map .worker ++ [.pauseRead 1 9] ++ cancelledReceive ++
    [.cancelled 0 0, .worker (.readResume 1 64 false), .worker (.readSuspend 1 5)]

/-- **A read after a failed `PauseRead` waits for a receive that nobody arms.** -/
theorem read_after_failed_pauseRead :
    ∃ s ∈ (system (Liburing.standard Tag)).run smallPausing readAfterFailedPause,
      s.worker.backend.phase = .idle ∧
      (∃ conn ∈ s.worker.connections 1, conn.readWaiter.isSome = true ∧ conn.usable = true) ∧
      ¬s.PausedOk 1 ∧ ¬s.worker.HasRecv 1 ∧ 1 ∉ s.worker.recvRearmQueue := by
  decide +kernel

/-- A reader waits on a one-shot connection, and its receive ends with `-ENOBUFS`. -/
def oneShotEnobufs : List Worker.Action :=
  [.socket 7, .addConnection ⟨7, 0, false⟩ .oneShot 0 1, .readSuspend 1 5, .submit 1 1,
    .complete 0 (-105) false none] ++ Worker.pollPass 1

/-- **A one-shot receive that ends with `-ENOBUFS` strands its reader.** -/
theorem enobufs_strands_reader :
    ∃ s ∈ (system (Liburing.standard Tag)).run smallPausing (oneShotEnobufs.map .worker),
      s.worker.backend.phase = .idle ∧
      (∃ conn ∈ s.worker.connections 1, conn.readWaiter.isSome = true ∧ conn.usable = true) ∧
      ¬s.PausedOk 1 ∧ ¬s.worker.HasRecv 1 ∧ 1 ∉ s.worker.recvRearmQueue := by
  decide +kernel

end Pausing

end Bycorf.Net
