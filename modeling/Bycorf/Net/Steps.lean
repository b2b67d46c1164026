/-
  Every step of the worker is a sequence of changes.

  Function by function, in the order of the model: what is submitted or cancelled, what a read or
  a close does to the table, the listeners, and the dispatch of a completion.  `step_changes`
  collects them, and `reachable_invariant` is the rule the invariants of a worker are proved with.
-/
import Bycorf.IoUring.Fifo
import Bycorf.Net.Changes

namespace Bycorf.Net.Worker

open IoUring Lib
open Backend (Inners Inners.refl cancelByData_inners nopEntry onRawFd startHandler
  submitOrQueue_spec)
open Change (add bind changes drain environment poll swap touch touchListener)

variable {L : Liburing Tag} {D : (ConnPtr → Option Connection) → Cqe Tag → Prop}

/-! ## The backend's part -/

variable {s : Backend Tag} {A : Submission Tag → Prop}

theorem wakeEventFd_inners {s' : Backend Tag}
    (h : Backend.Inners L A s s') : s'.wakeEventFd = s.wakeEventFd := by
  induction h with
  | refl => rfl
  | tail _ hlast ih => exact hlast.frame.2.2.trans ih

variable {w : Worker} {b : Backend Tag}

theorem backend_changes
    (h : Backend.Inners L (Harmless w.owner w.backend.wakeEventFd) w.backend b) :
    Changes L D w { w with backend := b } := by
  induction h with
  | refl => exact .refl w
  | @tail b b' hfirst hlast ih =>
    have hchange : Change L D { w with backend := b } { w with backend := b' } := by
      refine Change.backend ?_
      rw [show ({ w with backend := b } : Worker).backend.wakeEventFd = w.backend.wakeEventFd from
        wakeEventFd_inners hfirst]
      exact hlast
    exact ih.trans hchange.changes

theorem noRaw_cancelUnsubmittedForFd (h : s.initialized = true) {fd : Int}
    (hfd : 0 ≤ fd) : NoRaw fd (s.cancelUnsubmittedForFd L fd) := by
  have hnop : onRawFd fd (nopEntry L).sqe = false := by
    simp [onRawFd, nopEntry, Sqe.setData, Prep.opcode, Backend.socketOpcode]
  intro e he
  rw [Backend.cancelUnsubmittedForFd, if_neg (by omega),
    Backend.cancelUnsubmittedMatching_of_initialized h] at he
  rcases Backend.mem_retireMatching he with ⟨_, hmiss⟩ | rfl
  · exact hmiss
  · exact hnop

/-! ## Connections -/

theorem setConn_setConn (c : ConnPtr) (conn conn' : Connection) (w : Worker) :
    (w.setConn c conn).setConn c conn' = w.setConn c conn' := by
  simp [setConn]

@[simp] theorem setConn_self (c : ConnPtr) (conn : Connection) (w : Worker) :
    (w.setConn c conn).connections c = some conn := by
  simp [setConn]

variable {c c' : ConnPtr}

theorem setConn_of_ne (h : c' ≠ c) (conn : Connection) (w : Worker) :
    (w.setConn c conn).connections c' = w.connections c' := by
  simp [setConn, h]

@[simp] theorem eraseConn_self (c : ConnPtr) (w : Worker) :
    (w.eraseConn c).connections c = none := by
  simp [eraseConn]

theorem eraseConn_of_ne (h : c' ≠ c) (w : Worker) :
    (w.eraseConn c).connections c' = w.connections c' := by
  simp [eraseConn, h]

theorem allocateReadBuffer_tame (o : Options) (conn : Connection) :
    conn.Tame (conn.allocateReadBuffer o) ∧
      (conn.allocateReadBuffer o).useMultishot o = conn.useMultishot o := by
  unfold Connection.allocateReadBuffer
  split
  · exact ⟨{}, rfl⟩
  · exact ⟨{}, rfl⟩

theorem startRecvMultishot_changes (h : w.backend.initialized = true) (c : ConnPtr) :
    Changes L D w (w.startRecvMultishot L c).2 := by
  unfold startRecvMultishot
  split
  · exact .refl w
  rename_i conn hc
  split
  · exact .refl w
  rename_i harm
  split
  · exact .refl w
  rename_i hbuf
  simp only [not_or, not_eq_true] at harm
  -- first the buffer is allocated, then the receive is submitted
  obtain ⟨htame, hshot⟩ := allocateReadBuffer_tame w.options conn
  generalize conn.allocateReadBuffer w.options = conn' at htame hshot ⊢
  have hstart := Change.startRecv (L := L) (D := D)
    (setConn_self c conn' w) (htame.recvArmed.trans harm.1)
    (htame.closed.trans harm.2.1) (by
      intro hone
      rw [htame.receivedBuffers]
      by_contra hne
      exact hbuf ⟨hshot.symm.trans hone, hne⟩)
  rw [setConn_setConn] at hstart
  dsimp only
  rw [(submitOrQueue_spec h _).1, if_pos (by rfl)]
  exact (touch hc htame).changes.trans hstart.changes

theorem startPeerDisconnectPoll_changes (h : w.backend.initialized = true)
    (c : ConnPtr) : Changes L D w (w.startPeerDisconnectPoll L c).2 := by
  unfold startPeerDisconnectPoll
  split
  · exact .refl w
  rename_i conn hc
  split
  · exact .refl w
  rename_i harm
  simp only [not_or, not_eq_true] at harm
  dsimp only
  rw [(submitOrQueue_spec h _).1, if_pos (by rfl)]
  exact (Change.startDisconnect hc harm.1 harm.2.1).changes

theorem cancelDisconnect_spec (owner : Int → Owner) (fd : Int) (c : ConnPtr) (conn : Connection)
    (b : Backend Tag) :
    conn.Tame (cancelDisconnect L c conn b).2.1 ∧
      Backend.Inners L (Harmless owner fd) b (cancelDisconnect L c conn b).2.2 := by
  have hcancel : Inners L (Harmless owner fd) b
      (b.cancelByData L (.peerDisconnect c) .peerDisconnectCancel).2 :=
    cancelByData_inners b rfl
  unfold cancelDisconnect
  split
  · exact ⟨{}, Inners.refl b⟩
  dsimp only
  split
  · exact ⟨{}, hcancel⟩
  · exact ⟨{}, hcancel⟩

theorem cancelPeerDisconnectPoll_changes (w : Worker) (c : ConnPtr) :
    Changes L D w (w.cancelPeerDisconnectPoll L c).2 := by
  unfold cancelPeerDisconnectPoll
  split
  · exact .refl w
  rename_i conn hc
  obtain ⟨htame, hinners⟩ :=
    cancelDisconnect_spec w.owner w.backend.wakeEventFd c conn w.backend
  have htouch : Change L D _ _ := touch hc htame
  exact htouch.changes.trans (backend_changes hinners)

theorem writeSuspend_changes (h : w.backend.initialized = true) (c : ConnPtr)
    {request : RegisteredFile → Request Tag}
    (hreq : ∀ file, (∃ buffer, request file = .send file buffer (some (.write c))) ∨
      ∃ message, request file = .sendMsg file message (some (.write c))) :
    Changes L D w (w.writeSuspend L c request).2 := by
  unfold writeSuspend
  split
  · exact .refl w
  rename_i conn hc
  split
  · exact .refl w
  rename_i husable
  split
  · exact .refl w
  rename_i hfree
  have hopen : conn.closed = false := by
    simp only [Connection.usable, Bool.not_eq_false, and_eq_true, Bool.not_eq_true'] at husable
    exact husable.1.2
  dsimp only
  rw [(submitOrQueue_spec h _).1, if_pos (by rfl)]
  exact (Change.startWrite hc (eq_false_iff.mpr hfree) hopen
    (hreq conn.file)).changes

theorem readSuspend_changes (h : w.backend.initialized = true) (c : ConnPtr)
    (waiter : Nat) : Changes L D w (w.readSuspend L c waiter).2 := by
  have harm := startRecvMultishot_changes (L := L) (D := D) h c
  unfold readSuspend
  split
  · exact .refl w
  split
  · exact .refl w
  split
  · exact .refl w
  split
  · exact .refl w
  dsimp only
  split
  next conn _ hc =>
    -- a reader is registered with both fields
    have hreader : conn.Tame { conn with readInflight := true, readWaiter := some waiter } :=
      { reader := fun _ => rfl }
    exact harm.trans (touch hc hreader).changes
  · exact harm

/-! ## Buffers -/

open ReceivedBuffer (bufferId)

/-- The ids that leave the queue are the released ones. -/
theorem readLoop_ids (o : Options) (conn : Connection) (drainBuffered : Bool) (room copied : Nat)
    (buffers : List ReceivedBuffer) :
    buffers.map bufferId =
      (readLoop o conn drainBuffered room copied buffers).released ++
        (readLoop o conn drainBuffered room copied buffers).buffers.map
          bufferId := by
  induction buffers generalizing copied with
  | nil => rfl
  | cons received rest ih =>
    unfold readLoop
    dsimp only
    split
    · rfl
    split
    · split
      · rw [map_cons, List.cons_append, ← ih]
      · rfl
    · rfl

/-- Releasing a list of buffers. -/
theorem foldl_releaseRecvBuffer (c : ConnPtr) (conn : Connection) (ids : List UInt16) (w : Worker) :
    ids.foldl (fun w buffer => w.releaseRecvBuffer c conn buffer) w =
      { w with
        bufferRing := w.bufferRing ++ w.recyclable conn ids
        returned := w.returned ++ (w.recyclable conn ids).map fun id => (c, id) } := by
  induction ids generalizing w with
  | nil => simp [recyclable]
  | cons id ids ih =>
    rw [foldl_cons, ih]
    unfold releaseRecvBuffer recyclable recycleMultishotBuffer
    cases hshot : conn.useMultishot w.options
    · simp [hshot]
    have hring : w.options.recvMultishotEnabled = true := by
      simp only [Connection.useMultishot, and_eq_true] at hshot
      exact hshot.1
    by_cases hid : id.toNat < w.options.recvBufferCount
    · simp [hring, hid, hshot]
    · simp [hid, hshot]

section

variable (w : Worker) (c : ConnPtr)

theorem readResume_changes (room : Nat) (drainBuffered : Bool) :
    Changes L D w (w.readResume c room drainBuffered) := by
  unfold readResume
  split
  · exact .refl w
  rename_i conn hc
  split
  · exact (touch hc {}).changes
  have hids := readLoop_ids w.options conn drainBuffered room 0 conn.receivedBuffers
  generalize readLoop w.options conn drainBuffered room 0 conn.receivedBuffers = effect at hids ⊢
  rw [foldl_releaseRecvBuffer]
  have htouch : Change L D w (w.setConn c { conn with
      lastError := effect.error.getD conn.lastError }) := touch hc {}
  have hrelease := Change.release (L := L) (D := D)
    (w := w.setConn c { conn with lastError := effect.error.getD conn.lastError })
    (setConn_self ..) hids
  rw [setConn_setConn] at hrelease
  exact htouch.changes.trans hrelease.changes

theorem setReadAhead_changes (enabled : Bool) : Changes L D w (w.setReadAhead c enabled) := by
  unfold setReadAhead
  split
  · exact .refl w
  rename_i conn hc
  split
  · exact .refl w
  split
  · exact .refl w
  next hquiet =>
    simp only [not_or, not_eq_true, not_not] at hquiet
    exact (touch hc { mode := .inr ⟨hquiet.1, hquiet.2.2.2⟩ }).changes

theorem pauseRead_changes (tag : Nat) : Changes L D w (w.pauseRead L c tag) := by
  unfold pauseRead
  split
  · exact .refl w
  rename_i conn hc
  split
  · exact .refl w
  have htouch : Changes L D w (w.setConn c { conn with recvPaused := true }) :=
    (touch hc {}).changes
  split
  · exact htouch.trans (backend_changes (cancelByData_inners _ rfl))
  · exact htouch

end

/-! ## Closing -/

variable {conn : Connection}

theorem retireConnection_changes
    (hc : w.connections c = some conn) (hstate : conn.state ≠ .active) :
    Changes L D w (w.retireConnection c) := by
  have hfold : conn.receivedBuffers.foldl
      (fun w received => w.releaseRecvBuffer c conn received.bufferId) w = _ :=
    List.foldl_map.symm.trans
      (foldl_releaseRecvBuffer c conn (conn.receivedBuffers.map bufferId) w)
  have hids : conn.receivedBuffers.map bufferId =
      conn.receivedBuffers.map bufferId ++
        ([] : List ReceivedBuffer).map bufferId := by
    simp
  have hnot : conn.retire.state ≠ .active := by
    unfold Connection.retire
    split <;> exact ConnectionState.noConfusion
  unfold retireConnection
  rw [hc]
  dsimp only
  split
  · exact .refl w
  rw [hfold]
  -- the queue is emptied first, then the connection is put on the list
  have hrelease := Change.release (L := L) (D := D) hc hids
  generalize w.recyclable conn (conn.receivedBuffers.map bufferId) = ids at hrelease ⊢
  have hretire := Change.retire (L := L) (D := D) conn.retire.state
    (w := { w.setConn c { conn with receivedBuffers := [] } with
      bufferRing := w.bufferRing ++ ids
      returned := w.returned ++ ids.map fun id => (c, id) })
    (setConn_self c { conn with receivedBuffers := [] } w) hstate hnot rfl
  simp only [setConn, Function.update_idem] at hretire
  exact hrelease.changes.trans hretire.changes

variable (L) in
/-- What the cancels and the `close` of `BeginClose` leave of a worker: nothing of the descriptor
    is unsubmitted when it is closed. -/
inductive SocketClosed (fd : Int) (w : Worker) : Worker → Prop where
  | closed {b : Backend Tag} :
      Backend.Inners L (Harmless w.owner w.backend.wakeEventFd) w.backend b → 0 ≤ fd →
      (isDpdkSocket fd = false → NoRaw fd b) →
      SocketClosed fd w (({ w with backend := b } : Worker).closeFd fd)
  | absent {b : Backend Tag} :
      Backend.Inners L (Harmless w.owner w.backend.wakeEventFd) w.backend b → fd < 0 →
      SocketClosed fd w { w with backend := b }

theorem closeSocket_spec (h : w.backend.initialized = true) (c : ConnPtr)
    (conn : Connection) : SocketClosed L conn.file.fd w (w.closeSocket L c conn) := by
  -- the receive is cancelled by its tag
  obtain ⟨b₁, hb₁, heq₁⟩ : ∃ b,
      Inners L (Harmless w.owner w.backend.wakeEventFd) w.backend b ∧
      (if conn.recvArmed then { w with backend := (w.backend.submitCancelRecv L (some c) none).2 }
        else w) = { w with backend := b } := by
    have hcancel : Inners L (Harmless w.owner w.backend.wakeEventFd) w.backend
        (w.backend.submitCancelRecv L (some c) none).2 := cancelByData_inners w.backend rfl
    split
    · exact ⟨_, hcancel, rfl⟩
    · exact ⟨w.backend, Inners.refl _, rfl⟩
  have hinit : b₁.initialized = true := hb₁.moves.initialized h
  unfold closeSocket
  rw [heq₁]
  split
  next hfd =>
    cases hdpdk : isDpdkSocket conn.file.fd with
    | true => exact .closed hb₁ hfd (by simp [hdpdk])
    | false =>
      exact .closed (hb₁.trans (Backend.cancelUnsubmittedForFd_inners b₁ _)) hfd
        fun _ => noRaw_cancelUnsubmittedForFd hinit hfd
  next hfd => exact .absent hb₁ (by omega)

/-- The record of a closed connection once its socket is closed. -/
theorem beginClose_tame (conn : Connection) (reason : Status) (mode : CloseMode) (fd : Int)
    (hfd : fd = if 0 ≤ conn.file.fd then -1 else conn.file.fd) :
    Connection.Tame
      { conn with
        closing := true, state := .closing, file := { conn.file with fd := fd }, closed := true }
      (conn.beginClose reason mode).2 := by
  have hfile : ({ conn.file with fd := fd } : RegisteredFile) =
      if 0 ≤ conn.file.fd then { conn.file with fd := -1 } else conn.file := by
    rw [hfd]
    split <;> rfl
  rw [hfile]
  unfold Connection.beginClose Connection.takeReader
  cases hw : conn.readWaiter with
  | none => exact { reader := by intro hr; simpa [hw] using hr }
  | some waiter => exact { reader := fun _ => rfl }

/-- From the closing record to the closed one. -/
theorem closed_changes
    (hc : w.connections c = some { conn with closing := true, state := .closing })
    (hraw : 0 ≤ conn.file.fd → isDpdkSocket conn.file.fd = false → NoRaw conn.file.fd w.backend)
    (reason : Status) (mode : CloseMode) :
    Changes L D w ((if 0 ≤ conn.file.fd then w.closeFd conn.file.fd else w).setConn c
      (conn.beginClose reason mode).2) := by
  by_cases hfd : 0 ≤ conn.file.fd
  · rw [if_pos hfd]
    have hclose := Change.closeFd (L := L) (D := D) hc hfd (hraw hfd)
    have htame := beginClose_tame conn reason mode (-1) (if_pos hfd).symm
    have htouch := touch (L := L) (D := D)
      (w := (w.setConn c { conn with
        closing := true, state := .closing
        file := { conn.file with fd := -1 }, closed := true }).closeFd conn.file.fd)
      (setConn_self ..) htame
    simp only [setConn, closeFd, Function.update_idem] at hclose htouch ⊢
    exact hclose.changes.trans htouch.changes
  · rw [if_neg hfd]
    have hmark := Change.markClosed (L := L) (D := D) hc (by simpa using hfd)
    have htame := beginClose_tame conn reason mode conn.file.fd (if_neg hfd).symm
    have htouch := touch (L := L) (D := D) (c := c)
      (w := w.setConn c { conn with closing := true, state := .closing, closed := true })
      (setConn_self ..) htame
    rw [setConn_setConn] at htouch
    exact hmark.changes.trans htouch.changes

theorem beginClose_state (conn : Connection) (reason : Status) (mode : CloseMode) :
    (conn.beginClose reason mode).2.state = .closing := by
  unfold Connection.beginClose Connection.takeReader
  cases conn.readWaiter <;> rfl

theorem closeSocket_setConn (w : Worker) (c : ConnPtr) (conn conn' : Connection) :
    (w.setConn c conn').closeSocket L c conn = (w.closeSocket L c conn).setConn c conn' := by
  unfold closeSocket
  dsimp only
  split
  · split
    · split <;> rfl
    · split <;> rfl
  · split <;> rfl

variable {conn' : Connection}

/-- The cancels, the `close` and the rest of the record. -/
theorem closeSocket_changes (h : w.backend.initialized = true) (hfile : conn'.file = conn.file)
    (hc : w.connections c = some { conn' with closing := true, state := .closing })
    (reason : Status) (mode : CloseMode) :
    Changes L D w ((w.closeSocket L c conn).setConn c (conn'.beginClose reason mode).2) := by
  have hsocket := closeSocket_spec (L := L) h c conn
  generalize w.closeSocket L c conn = v at hsocket ⊢
  rw [← hfile] at hsocket
  cases hsocket with
  | @closed b hb hfd hraw =>
    have hcancels : Changes L D w { w with backend := b } := backend_changes hb
    have hclosed := closed_changes (L := L) (D := D) (w := { w with backend := b }) hc
      (fun _ => hraw) reason mode
    rw [if_pos hfd] at hclosed
    exact hcancels.trans hclosed
  | @absent b hb hneg =>
    have hcancels : Changes L D w { w with backend := b } := backend_changes hb
    have hclosed := closed_changes (L := L) (D := D) (w := { w with backend := b }) hc
      (fun hfd => absurd hfd (Int.not_le.mpr hneg)) reason mode
    rw [if_neg (Int.not_le.mpr hneg)] at hclosed
    exact hcancels.trans hclosed

/-- The counters do not depend on the rest. -/
theorem leaveActive_setConn (h : conn'.state = conn.state)
    (c : ConnPtr) (b : Backend Tag) (w : Worker) :
    ({ w.setConn c conn' with backend := b } : Worker).leaveActive conn' =
      ({ w.leaveActive conn with backend := b } : Worker).setConn c conn' := by
  unfold leaveActive
  rw [h]
  split <;> rfl

theorem beginClose_changes (h : w.backend.initialized = true) (c : ConnPtr)
    (reason : Status) (mode : CloseMode) : Changes L D w (w.beginClose L c reason mode) := by
  unfold beginClose
  split
  · exact .refl w
  rename_i conn hc
  split
  · exact .refl w
  dsimp only
  rw [leaveActive_backend]
  -- the disconnect poll is cancelled, and the connection leaves the active ones
  obtain ⟨htame, hinners⟩ :=
    cancelDisconnect_spec w.owner w.backend.wakeEventFd c conn w.backend
  generalize cancelDisconnect L c conn w.backend = cancelled at htame hinners ⊢
  have htouch : Changes L D w { w.setConn c cancelled.2.1 with backend := cancelled.2.2 } :=
    (touch hc htame).changes.trans (backend_changes hinners)
  have hstart := Change.startClose (L := L) (D := D)
    (w := { w.setConn c cancelled.2.1 with backend := cancelled.2.2 })
    (setConn_self c cancelled.2.1 w)
  rw [leaveActive_setConn htame.state, setConn_setConn] at hstart
  have hclosing := htouch.trans hstart.changes
  generalize ({ w.leaveActive conn with backend := cancelled.2.2 } : Worker) = w₁ at hclosing ⊢
  -- then the socket is closed, a waiting reader resumed and the connection retired
  have hsocket := closeSocket_changes (L := L) (D := D) (hclosing.initialized h) htame.file
    (setConn_self ..) reason mode
  rw [closeSocket_setConn, setConn_setConn] at hsocket
  generalize closeSocket L c conn w₁ = w₂ at hsocket ⊢
  have hretire := retireConnection_changes (L := L) (D := D) (c := c)
    (w := (w₂.setConn c (cancelled.2.1.beginClose reason mode).2).enqueue
      (cancelled.2.1.beginClose reason mode).1)
    (setConn_self ..) (by rw [beginClose_state]; exact ConnectionState.noConfusion)
  exact ((hclosing.trans hsocket).trans (Change.ready _).changes).trans hretire

/-- The loop keeps what it cannot reclaim: `ids` are still to be visited, `still` are kept. -/
theorem reclaimLoop_changes (ids still : List ConnPtr)
    (hphase : w.backend.phase = .idle) (hsub : ∀ c ∈ ids ++ still, c ∈ w.retiredConnectionIds)
    (hcover : ∀ c ∈ w.retiredConnectionIds, w.connections c ≠ none → c ∈ ids ++ still) :
    Changes L D w (reclaimLoop ids still w) := by
  induction ids generalizing still w with
  | nil => exact (Change.keepRetired hsub hcover).changes
  | cons c ids ih =>
    unfold reclaimLoop
    split
    next hgone =>
      refine ih still hphase (fun c' hc' => hsub c' (mem_cons_of_mem c hc')) ?_
      intro c' hc' hin
      rcases mem_cons.mp (hcover c' hc' hin) with rfl | hmem
      · exact absurd hgone hin
      · exact hmem
    next conn hc =>
      split
      next hcan =>
        refine (Change.reclaim hphase hc hcan).changes.trans (ih still hphase ?_ ?_)
        · exact fun c' hc' => hsub c' (mem_cons_of_mem c hc')
        · intro c' hc' hin
          by_cases heq : c' = c
          · subst heq
            simp at hin
          rw [eraseConn_of_ne heq] at hin
          exact (mem_cons.mp (hcover c' hc' hin)).resolve_left heq
      next =>
        have hretired : c ∈ w.retiredConnectionIds := hsub c mem_cons_self
        refine (drain hretired hc).changes.trans (ih (still ++ [c]) hphase ?_ ?_)
        · intro c' hc'
          refine hsub c' ?_
          simp only [mem_append, mem_cons, not_mem_nil, or_false] at hc' ⊢
          tauto
        · intro c' hc' hin
          have hin' : w.connections c' ≠ none := by
            by_cases heq : c' = c
            · rw [heq, hc]
              exact Option.some_ne_none conn
            · rwa [setConn_of_ne heq] at hin
          have hmem := hcover c' hc' hin'
          simp only [mem_append, mem_cons, not_mem_nil, or_false] at hmem ⊢
          tauto

theorem reclaimConnections_changes (hphase : w.backend.phase = .idle) :
    Changes L D w w.reclaimConnections :=
  reclaimLoop_changes w.retiredConnectionIds [] hphase (by simp) (fun c hc _ => by simpa using hc)

theorem closeIfIdle_changes (h : w.backend.initialized = true) (now : Int)
    (c : ConnPtr) : Changes L D w (closeIfIdle L now w c) := by
  unfold closeIfIdle
  split
  · exact .refl w
  rename_i conn hc
  split
  · exact .refl w
  split
  · exact .refl w
  refine Changes.trans (changes ?_) (beginClose_changes (by exact h) c _ _)
  exact touch hc {}

theorem checkIdleConnections_changes (h : w.backend.initialized = true) (now : Int)
    (order : List ConnPtr) : Changes L D w (w.checkIdleConnections L now order) := by
  have hfold : Changes L D w (order.foldl (closeIfIdle L now) w) := by
    induction order generalizing w with
    | nil => exact .refl w
    | cons c order ih =>
      have hfirst := closeIfIdle_changes (L := L) (D := D) h now c
      exact hfirst.trans (ih (hfirst.initialized h))
  unfold checkIdleConnections
  split
  · exact .refl w
  · exact hfold

/-! ## Listeners -/

section

variable (h : w.backend.initialized = true)
include h

theorem armListener_changes (l : Nat) : Changes L D w (w.armListener L l).2 := by
  unfold armListener
  split
  · exact .refl w
  rename_i lst hl
  split
  · exact .refl w
  split
  · exact .refl w
  rename_i hfd
  have hsub : w.backend.submitAcceptMultishot L lst.fd (some (.accept l)) =
      w.backend.submitOrQueue L (.request (.acceptMultishot lst.fd (some (.accept l)))) := rfl
  dsimp only
  rw [hsub, (submitOrQueue_spec h _).1, if_pos (by rfl)]
  exact (Change.startAccept hl (by omega)).changes

theorem rearmListener_changes (l : Nat) : Changes L D w (w.rearmListener L l) := by
  unfold rearmListener
  dsimp only
  split
  next lst _ hl =>
    refine (armListener_changes h l).trans (changes ?_)
    exact touchListener hl ⟨.inl rfl, rfl⟩
  · exact armListener_changes h l

theorem acceptSuspend_changes (l waiter : Nat) : Changes L D w (w.acceptSuspend L l waiter).2 := by
  unfold acceptSuspend
  split
  · exact .refl w
  split
  · exact .refl w
  split
  · exact .refl w
  split
  · exact .refl w
  dsimp only
  split
  next lst _ hl =>
    refine (armListener_changes h l).trans (changes ?_)
    exact touchListener hl ⟨.inl rfl, rfl⟩
  · exact armListener_changes h l

end

theorem consumeAcceptedFd_changes (w : Worker) (l : Nat) :
    Changes L D w (w.consumeAcceptedFd l).2 := by
  unfold consumeAcceptedFd
  split
  · exact .refl w
  rename_i lst hl
  split
  next fd fds hfds => exact (Change.handOut hl hfds).changes
  · split
    · exact .refl w
    · refine changes ?_
      exact touchListener hl ⟨.inl rfl, rfl⟩

theorem setListener_setListener (l : Nat) (lst lst' : Listener) (w : Worker) :
    (w.setListener l lst).setListener l lst' = w.setListener l lst' := by
  simp [setListener]

variable {l : Nat}

/-- The end of `TcpListener::Close`, once the accepted descriptors are closed. -/
theorem closeListenFd_changes (h : w.backend.initialized = true)
    {lst : Listener} (hl : w.listeners l = some lst) :
    Changes L D w
      (let w' := w.setListener l { lst with closed := true, fd := -1 }
      if 0 ≤ lst.fd then
        (if isDpdkSocket lst.fd then w'
          else { w' with backend := w'.backend.cancelUnsubmittedForFd L lst.fd }).closeFd lst.fd
      else w') := by
  dsimp only
  split
  next hfd =>
    cases hdpdk : isDpdkSocket lst.fd with
    | true =>
      rw [if_pos rfl]
      exact (Change.closeListenFd hl hfd (by simp [hdpdk])).changes
    | false =>
      rw [if_neg Bool.false_ne_true]
      have hcancel : Changes L D w
          { w with backend := w.backend.cancelUnsubmittedForFd L lst.fd } :=
        backend_changes (Backend.cancelUnsubmittedForFd_inners w.backend lst.fd)
      have hclose := Change.closeListenFd (L := L) (D := D) hl hfd
        (w := { w with backend := w.backend.cancelUnsubmittedForFd L lst.fd })
        (fun _ => noRaw_cancelUnsubmittedForFd h hfd)
      exact hcancel.trans hclose.changes
  next =>
    refine changes ?_
    exact touchListener hl ⟨.inr (by show (-1 : Int) < 0; decide), rfl⟩

theorem closeListener_changes (h : w.backend.initialized = true) (l : Nat) :
    Changes L D w (w.closeListener L l) := by
  unfold closeListener
  split
  · exact .refl w
  rename_i lst hl
  split
  · exact .refl w
  have haccepted := (Change.closeAccepted (L := L) (D := D) hl).changes
  have hclose := closeListenFd_changes (L := L) (D := D) (haccepted.initialized h)
    (setListener_self ..)
  rw [setListener_setListener] at hclose
  exact haccepted.trans hclose

/-! ## Dispatch -/

variable {cqe : Cqe Tag} {cq : List (Cqe Tag)}

/-- The completion is taken once the cancels for its tag are retired. -/
theorem startHandler_reap_taken (h : s.initialized = true) (hphase : s.phase = .reap)
    (hcq : s.cq = cqe :: cq) :
    ∃ b, Backend.Inners L A s b ∧ Taken b cqe (s.startHandler L cqe cq .reap) := by
  obtain ⟨hq, hp, hc⟩ := Backend.beforeHandler_frame s cqe
  refine ⟨s.beforeHandler L cqe, Backend.beforeHandler_inners h cqe, ?_⟩
  have htaken := Taken.reap (hp.trans hphase) (hq.trans hcq)
  rw [hc] at htaken
  rw [startHandler, ← hphase, ← hp]
  exact htaken

/-- The head of `DispatchCqe` does not read the phase. -/
theorem startHandler_phase (s : Backend Tag) (cqe : Cqe Tag) (cq : List (Cqe Tag))
    (phase phase' : Phase Tag) :
    ({ s with phase := phase' } : Backend Tag).startHandler L cqe cq phase =
      s.startHandler L cqe cq phase := by
  unfold startHandler Backend.beforeHandler Backend.retireUnsubmittedCancels
    Backend.cancelUnsubmittedMatching
  split
  · split <;> rfl
  · rfl

variable {batch : List (PendingCompletion Tag)}

theorem startHandler_deferred_taken (h : s.initialized = true) {c : PendingCompletion Tag}
    (hphase : s.phase = .deferred (c :: batch)) :
    ∃ b, Backend.Inners L A s b ∧
      Taken b c.cqe (s.startHandler L c.cqe s.cq (.deferred batch)) := by
  obtain ⟨hq, hp, hc⟩ := Backend.beforeHandler_frame s c.cqe
  refine ⟨s.beforeHandler L c.cqe, Backend.beforeHandler_inners h c.cqe, ?_⟩
  have htaken := Taken.deferred (hp.trans hphase)
  rw [hc] at htaken
  rw [startHandler, ← hq]
  exact htaken

section

variable (h : w.backend.initialized = true)
include h

theorem acceptComplete_changes (ht : Taken w.backend cqe b)
    (hdata : cqe.userData = .completion (.accept l)) :
    Changes L D w (({ w with backend := b } : Worker).acceptComplete L l cqe.res cqe.more) := by
  have hdone := (Change.acceptDone (L := L) (D := D) ht hdata).changes
  unfold acceptComplete
  split
  next hnone =>
    unfold acceptDone at hdone
    rw [hnone] at hdone
    exact hdone
  rename_i lst hl
  refine Changes.trans ?_ (Change.ready _).changes
  split
  · exact hdone
  · exact hdone.trans (rearmListener_changes (hdone.initialized h) l)

/-- The handler of a taken completion. -/
theorem runHandler_changes (ht : Taken w.backend cqe b) (hD : D w.connections cqe) (stopping : Bool)
    (now : Int) :
    Changes L D w (({ w with backend := b } : Worker).runHandler L stopping now cqe) := by
  unfold runHandler
  split
  next c hdata => exact (Change.recvDone now ht hdata hD).changes
  next c hdata => exact (Change.disconnectDone ht hdata).changes
  next c hdata => exact (Change.writeDone ht hdata).changes
  next l hdata => exact acceptComplete_changes h ht hdata
  next hrecv hpoll hwrite haccept =>
    have hout : outside cqe.userData = true := by
      unfold outside
      split
      next hd => exact absurd hd (hrecv _)
      next hd => exact absurd hd (hpoll _)
      next hd => exact absurd hd (hwrite _)
      next hd => exact absurd hd (haccept _)
      next => rfl
    have htaken := (Change.otherDone (L := L) (D := D) ht hout).changes
    refine htaken.trans (backend_changes (Backend.handle_inners _ ?_ stopping cqe))
    exact ⟨rfl, fun fd hfd => .inr (some.inj hfd).symm⟩

theorem dispatch_reap_changes (hphase : w.backend.phase = .reap)
    (hcq : w.backend.cq = cqe :: cq) (hD : D w.connections cqe) (stopping : Bool) (now : Int) :
    Changes L D w (w.dispatch L stopping now cqe cq .reap) := by
  obtain ⟨b, hb, ht⟩ := startHandler_reap_taken h hphase hcq
  have hretire : Changes L D w { w with backend := b } := backend_changes hb
  exact hretire.trans (runHandler_changes
    (hretire.initialized h) ht hD stopping now)

theorem dispatch_deferred_changes {c : PendingCompletion Tag}
    (hphase : w.backend.phase = .deferred (c :: batch)) (hD : D w.connections c.cqe)
    (stopping : Bool) (now : Int) :
    Changes L D w (w.dispatch L stopping now c.cqe w.backend.cq (.deferred batch)) := by
  obtain ⟨b, hb, ht⟩ := startHandler_deferred_taken h hphase
  have hretire : Changes L D w { w with backend := b } := backend_changes hb
  exact hretire.trans (runHandler_changes
    (hretire.initialized h) ht hD stopping now)

theorem rearmOne_changes (c : ConnPtr) : Changes L D w (w.rearmOne L c) := by
  unfold rearmOne
  split
  · exact .refl w
  rename_i conn hc
  have hclear : Changes L D w (w.setConn c { conn with needsRecvRearm := false }) := by
    refine changes ?_
    exact touch hc {}
  have harm := startRecvMultishot_changes (L := L) (D := D)
    (w := w.setConn c { conn with needsRecvRearm := false }) h c
  dsimp only
  split
  · split
    next conn' _ hc' =>
      refine (hclear.trans harm).trans (changes ?_)
      exact touch hc' {}
    · exact hclear.trans harm
  · exact hclear

end

/-! ## A step -/

theorem modifyConn_changes {f : Connection → Connection}
    (hf : ∀ conn : Connection, conn.Tame (f conn)) : Changes L D w (w.modifyConn c f) := by
  unfold modifyConn
  split
  · exact .refl w
  next conn hc => exact (touch hc (hf conn)).changes

variable {w' : Worker}

theorem borrow_changes (h : w.borrow c = some w') : Changes L D w w' := by
  unfold borrow at h
  split at h
  next conn hc =>
    obtain ⟨_, heq⟩ := ite_none_left_eq_some.mp h
    cases heq
    refine changes ?_
    exact touch hc {}
  next => cases h

theorem release_changes (h : w.release c = some w') : Changes L D w w' := by
  unfold release at h
  split at h
  next conn hc =>
    obtain ⟨_, heq⟩ := ite_none_left_eq_some.mp h
    cases heq
    refine changes ?_
    exact touch hc {}
  next => cases h

theorem outside_of_appData {data : UserData Tag} (h : appData data = true) :
    outside data = true := by
  match data, h with
  | .null, _ | .crossCoreWake, _ | .completion (.app _), _ => rfl

/-- What the application submits itself is harmless. -/
theorem appCall_harmless {c : Backend.Call Tag} (h : w.appCall c = true)
    (sub : Submission Tag) (hsub : c.accepts w.backend sub) :
    Harmless w.owner w.backend.wakeEventFd sub := by
  cases c with
  | request r =>
    obtain rfl : sub = .request r := hsub
    obtain ⟨hdata, hraw⟩ := Bool.and_eq_true_iff.mp h
    refine ⟨outside_of_appData hdata, ?_⟩
    intro fd hfd
    left
    simpa [hfd] using hraw
  | submitCancel target =>
    obtain ⟨tag, _, rfl⟩ := hsub
    exact rfl
  | submitCancelRecv connection tag =>
    obtain ⟨c, _, rfl⟩ := hsub
    match tag, h with
    | none, _ => exact rfl
    | some (.app n), _ => exact rfl
  | cancelPeerDisconnect c => cases h
  | cancelUnsubmittedForFd fd => cases hsub
  | armWakePoll =>
    obtain rfl : sub = .request (.wakePoll w.backend.wakeEventFd) := hsub
    exact ⟨rfl, fun fd hfd => .inr (some.inj hfd).symm⟩
  | registerFixedFiles count rc => cases hsub

/-- The completion that a step dispatches, if it can be made. -/
def dispatched (w : Worker) : Action → Option (Cqe Tag)
  | .wait .. | .reap .. => w.backend.cq.head?
  | .deferred .. => w.backend.phase.batch.head?.map PendingCompletion.cqe
  | _ => none

variable {a : Action}

section

variable (h : w.backend.initialized = true) (hD : ∀ cqe ∈ w.dispatched a, D w.connections cqe)
include h hD

theorem stepLoop_changes (hs : w.stepLoop L a = some w') : Changes L D w w' := by
  unfold stepLoop at hs
  split at hs
  next =>
    refine of_guard hs fun hidle => ?_
    exact (poll hidle.1).changes
  next stopping now =>
    obtain ⟨hidle, heq⟩ := ite_none_right_eq_some.mp hs
    split at heq
    next => cases heq
    rename_i cqe cq hcq
    cases heq
    -- `Wait` dispatches the first completion itself and goes on with `Poll`
    have hcqe : D w.connections cqe := hD cqe (by rw [dispatched, hcq]; rfl)
    have hpoll := (poll (L := L) (D := D) hidle.1).changes
    have hdispatch :=
      dispatch_reap_changes (L := L) (hpoll.initialized h) rfl hcq hcqe stopping now
    unfold dispatch at hdispatch ⊢
    rw [startHandler_phase] at hdispatch
    exact hpoll.trans hdispatch
  next stopping now =>
    split at hs
    next hphase hcq =>
      cases hs
      exact (swap hphase hcq).changes
    next cqe cq hphase hcq =>
      cases hs
      have hcqe : D w.connections cqe := hD cqe (by rw [dispatched, hcq]; rfl)
      exact dispatch_reap_changes h hphase hcq hcqe stopping now
    next => cases hs
  next stopping now =>
    split at hs
    next c batch hphase =>
      cases hs
      have hcqe : D w.connections c.cqe := hD c.cqe (by rw [dispatched, hphase]; rfl)
      exact dispatch_deferred_changes h hphase hcqe stopping now
    next hphase =>
      cases hs
      exact (Change.startRearm hphase).changes
    next => cases hs
  next =>
    split at hs
    next c batch hphase hbatch =>
      cases hs
      have hnext := (Change.nextRearm (L := L) (D := D) hbatch).changes
      exact hnext.trans (rearmOne_changes (hnext.initialized h) c)
    next hphase hbatch =>
      cases hs
      have hdrain : Changes L D w { w with backend := w.backend.drainPending } :=
        (Change.backend Backend.Inner.drain).changes
      refine hdrain.trans (Change.endRearm (w := { w with backend := w.backend.drainPending })
        ?_ hbatch).changes
      show w.backend.drainPending.phase = .rearm
      unfold Backend.drainPending
      split <;> exact hphase
    next => cases hs
  next => cases hs

/-- **Every step is a sequence of changes.** -/
theorem step_changes (hs : w.step L a = some w') : Changes L D w w' := by
  cases a with
  | addConnection file mode buffer now =>
    refine of_guard hs fun ⟨hfd, howner⟩ => ?_
    exact (add file mode buffer now hfd howner).changes
  | ensureRecvArmed c =>
    cases hs
    exact startRecvMultishot_changes h c
  | setPeerDisconnectCallback c callback =>
    cases hs
    exact modifyConn_changes fun conn => {}
  | ensurePeerDisconnectPollArmed c =>
    cases hs
    exact startPeerDisconnectPoll_changes h c
  | cancelPeerDisconnectPoll c =>
    cases hs
    exact cancelPeerDisconnectPoll_changes w c
  | write c buffer =>
    cases hs
    exact writeSuspend_changes h c fun file => .inl ⟨buffer, rfl⟩
  | writeV c message =>
    cases hs
    exact writeSuspend_changes h c fun file => .inr ⟨message, rfl⟩
  | readSuspend c waiter =>
    cases hs
    exact readSuspend_changes h c waiter
  | readResume c room drainBuffered =>
    cases hs
    exact readResume_changes w c room drainBuffered
  | setReadAhead c enabled =>
    cases hs
    exact setReadAhead_changes w c enabled
  | pauseRead c tag =>
    cases hs
    exact pauseRead_changes w c tag
  | beginClose c reason mode =>
    cases hs
    exact beginClose_changes h c reason mode
  | borrow c => exact borrow_changes hs
  | release c => exact release_changes hs
  | call c =>
    refine of_guard hs fun happ => ?_
    exact backend_changes (Backend.call_inners w.backend (appCall_harmless happ))
  | bindListener fd =>
    refine of_guard hs fun ⟨hfd, howner⟩ => ?_
    exact (bind hfd howner).changes
  | acceptSuspend l waiter =>
    cases hs
    exact acceptSuspend_changes h l waiter
  | consumeAcceptedFd l =>
    cases hs
    exact consumeAcceptedFd_changes w l
  | closeListener l =>
    cases hs
    exact closeListener_changes h l
  | submit count rc =>
    cases hs
    exact backend_changes (Backend.submit_inners w.backend count rc)
  | checkIdleConnections now order =>
    refine of_guard hs fun _ => ?_
    exact checkIdleConnections_changes h now order
  | reclaimConnections =>
    refine of_guard hs fun hphase => ?_
    exact reclaimConnections_changes hphase
  | complete i res more buffer => exact (Change.complete hs).changes
  | ring =>
    cases hs
    exact Change.ring.changes
  | socket fd =>
    refine of_guard hs fun ⟨hfd, howner⟩ => ?_
    exact (environment (.inl ⟨howner, .inl ⟨rfl, hfd⟩⟩)).changes
  | openElsewhere fd =>
    refine of_guard hs fun howner => ?_
    exact (environment (.inl ⟨howner, .inr rfl⟩)).changes
  | closeElsewhere fd =>
    refine of_guard hs fun howner => ?_
    exact (environment (.inr ⟨howner, rfl⟩)).changes
  | poll => exact stepLoop_changes h hD hs
  | wait stopping now => exact stepLoop_changes h hD hs
  | reap stopping now => exact stepLoop_changes h hD hs
  | deferred stopping now => exact stepLoop_changes h hD hs
  | rearm => exact stepLoop_changes h hD hs

end

/-! ## The invariant rule -/

variable {ok : Worker → Action → Prop}

theorem reachable_initialized
    (h : (system L).ReachableUnder ok w) : w.backend.initialized = true := by
  induction h with
  | init h =>
    obtain ⟨options, slots, wakeEventFd, rfl⟩ := h
    rfl
  | step _ _ hs ih =>
    exact (step_changes (D := fun _ _ => True) ih (fun _ _ => trivial) hs).initialized ih

/-- **The invariant rule of the worker**: what holds of a fresh worker and is kept by every change
    holds in every state of a run; `D` is what the run says of the receive completions it
    dispatches. -/
theorem reachable_invariant {P : Worker → Prop}
    (hok : ∀ w a, ok w a → ∀ cqe ∈ w.dispatched a, D w.connections cqe)
    (hfresh : ∀ options slots wakeEventFd, P (Worker.fresh options slots wakeEventFd))
    (hchange : ∀ w w', P w → Change L D w w' → P w')
    (h : (system L).ReachableUnder ok w) : P w := by
  induction h with
  | init h =>
    obtain ⟨options, slots, wakeEventFd, rfl⟩ := h
    exact hfresh options slots wakeEventFd
  | step hprev ha hs ih =>
    exact (step_changes (reachable_initialized hprev) (hok _ _ ha) hs).induct hchange ih

end Bycorf.Net.Worker
