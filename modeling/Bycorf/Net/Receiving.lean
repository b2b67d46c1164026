/-
  The receive side of a worker, step by step.

  The changes of `Net.Changes` are too small for what readers and `PauseRead` rely on: a reader is
  registered after its receive is armed, a re-arm is taken from its queue before it is armed.  So
  this looks at whole steps.

  1. **Calm steps** — most functions are not about receiving; each keeps every record (`Calm`).
  2. **Steps (`step_act`)** — a step is calm, or it is one of those about receiving: a connection is
     added, a reader waits, `PauseRead` starts, a receive completion is handled, the re-arm queue is
     detached, a re-arm is made.
  3. **Lives (`Act.lives`)** — the one consequence that the results on `PauseRead` and on the
     storage of a connection need.
-/
import Bycorf.Net.RecvRecord

namespace Bycorf.Net

open IoUring Lib Function
open Connection (Same.keeps)

/-- The entry of one connection in the table before and after. -/
inductive KeepsAt (closes sweeps : Prop) : Option Connection → Option Connection → Prop where
  | absent : KeepsAt closes sweeps none none
  | kept {conn conn' : Connection} :
      conn.Keeps closes conn' → KeepsAt closes sweeps (some conn) (some conn')
  | swept {conn : Connection} :
      sweeps → (conn.usable = true → closes) → KeepsAt closes sweeps (some conn) none

theorem KeepsAt.refl (closes sweeps : Prop) (entry : Option Connection) :
    KeepsAt closes sweeps entry entry := by
  cases entry with
  | none => exact .absent
  | some conn => exact .kept (.refl closes conn)

namespace Worker

variable {L : Liburing Tag}

/-! ## Calm steps -/

/-- A step that is not about receiving. -/
structure Calm (closes : ConnPtr → Prop) (sweeps : Prop) (w w' : Worker) : Prop where
  conns : ∀ c, KeepsAt (closes c) sweeps (w.connections c) (w'.connections c)
  queue : w'.recvRearmQueue = w.recvRearmQueue
  batch : w'.rearmBatch = w.rearmBatch
  next : w'.nextConnectionId = w.nextConnectionId

variable {closes : ConnPtr → Prop} {sweeps : Prop} {w w' : Worker}

/-- The table is not touched. -/
theorem Calm.of_eq
    (h : (w'.connections, w'.recvRearmQueue, w'.rearmBatch, w'.nextConnectionId) =
      (w.connections, w.recvRearmQueue, w.rearmBatch, w.nextConnectionId)) :
    Calm closes sweeps w w' := by
  simp only [Prod.mk.injEq] at h
  obtain ⟨hconns, hqueue, hbatch, hnext⟩ := h
  refine ⟨fun c => ?_, hqueue, hbatch, hnext⟩
  rw [hconns]
  exact .refl _ _ _

theorem Calm.refl (w : Worker) : Calm closes sweeps w w := .of_eq rfl

variable {c : ConnPtr} {conn : Connection}

/-- One record is replaced. -/
theorem Calm.of_set {conn' : Connection}
    (hc : w.connections c = some conn) (hkeeps : conn.Keeps (closes c) conn')
    (hconns : w'.connections = update w.connections c (some conn'))
    (hqueue : w'.recvRearmQueue = w.recvRearmQueue) (hbatch : w'.rearmBatch = w.rearmBatch)
    (hnext : w'.nextConnectionId = w.nextConnectionId) : Calm closes sweeps w w' := by
  refine ⟨fun d => ?_, hqueue, hbatch, hnext⟩
  rw [hconns]
  by_cases hd : d = c
  · subst hd
    rw [update_self, hc]
    exact .kept hkeeps
  rw [update_of_ne hd]
  exact .refl _ _ _

theorem Calm.trans {w'' : Worker} (h : Calm closes sweeps w w')
    (h' : Calm closes sweeps w' w'') : Calm closes sweeps w w'' := by
  refine ⟨fun c => ?_, h'.queue.trans h.queue, h'.batch.trans h.batch, h'.next.trans h.next⟩
  have h1 := h.conns c
  have h2 := h'.conns c
  revert h1 h2
  generalize w.connections c = e
  generalize w'.connections c = e'
  generalize w''.connections c = e''
  intro h1 h2
  cases h1 with
  | absent =>
    cases h2
    exact .absent
  | kept hk =>
    cases h2 with
    | kept hk' => exact .kept (hk.trans hk')
    | swept hs hno => exact .swept hs fun hu => (hk.stays hu).elim hno id
  | swept hs hno =>
    cases h2
    exact .swept hs hno

/-- A step may close fewer connections than allowed, and need not sweep. -/
theorem Calm.mono {closes' : ConnPtr → Prop} {sweeps' : Prop}
    (h : Calm closes sweeps w w') (hcloses : ∀ c, closes c → closes' c)
    (hsweeps : sweeps → sweeps') : Calm closes' sweeps' w w' := by
  refine ⟨fun c => ?_, h.queue, h.batch, h.next⟩
  have h1 := h.conns c
  revert h1
  generalize w.connections c = e
  generalize w'.connections c = e'
  intro h1
  cases h1 with
  | absent => exact .absent
  | kept hk =>
    exact .kept ⟨⟨fun hu => (hk.stays hu).imp id (hcloses c), hk.paused, hk.arms⟩, hk.reader,
      hk.usable, hk.pause, hk.armed, hk.rearm, hk.eof, hk.buffers⟩
  | swept hs hno => exact .swept (hsweeps hs) fun hu => hcloses c (hno hu)

/-! ## The functions -/

/-- `StartRecvMultishot` on a connection in the table: it arms, or there is a reason not to. -/
theorem startRecvMultishot_spec (h : w.backend.initialized = true)
    (hc : w.connections c = some conn) :
    (w.startRecvMultishot L c).1 = Status.okStatus ∧
    (((conn.recvArmed = true ∨ conn.closed = true ∨ conn.closing = true ∨ conn.recvPaused = true ∨
          (conn.useMultishot w.options = false ∧ conn.receivedBuffers ≠ [])) ∧
        (w.startRecvMultishot L c).2 = w) ∨
      (conn.recvPaused = false ∧ ∃ conn' b,
        (w.startRecvMultishot L c).2 = { w.setConn c conn' with backend := b } ∧
        ({ conn with recvArmed := true } : Connection).Same conn')) := by
  unfold startRecvMultishot
  rw [hc]
  dsimp only
  by_cases harm : conn.recvArmed = true ∨ conn.closed = true ∨ conn.closing = true ∨
      conn.recvPaused = true
  · rw [if_pos harm]
    refine ⟨rfl, .inl ⟨?_, rfl⟩⟩
    rcases harm with h | h | h | h
    · exact .inl h
    · exact .inr (.inl h)
    · exact .inr (.inr (.inl h))
    · exact .inr (.inr (.inr (.inl h)))
  rw [if_neg harm]
  by_cases hbuf : conn.useMultishot w.options = false ∧ conn.receivedBuffers ≠ []
  · rw [if_pos hbuf]
    exact ⟨rfl, .inl ⟨.inr (.inr (.inr (.inr hbuf))), rfl⟩⟩
  rw [if_neg hbuf, (Backend.submitOrQueue_spec h _).1, if_pos (by rfl)]
  simp only [not_or, not_eq_true] at harm
  have hsame := Connection.allocateReadBuffer_same w.options conn
  exact ⟨rfl, .inr ⟨harm.2.2.2, _, _, rfl, { hsame with recvArmed := rfl }⟩⟩

theorem startRecvMultishot_calm (h : w.backend.initialized = true) (c : ConnPtr) :
    Calm closes sweeps w (w.startRecvMultishot L c).2 := by
  rcases hc : w.connections c with _ | conn
  · unfold startRecvMultishot
    rw [hc]
    exact .refl w
  rcases (startRecvMultishot_spec h hc).2 with ⟨_, heq⟩ | ⟨hpause, conn', b, heq, hsame⟩
  · rw [heq]
    exact .refl w
  rw [heq]
  have hkeeps := hsame.keeps (closes c)
  refine .of_set hc ?_ rfl rfl rfl rfl
  exact ⟨⟨hkeeps.stays, hkeeps.paused, fun _ => .inr hpause⟩, hkeeps.reader, hkeeps.usable,
    hkeeps.pause, fun _ => hsame.recvArmed, hkeeps.rearm, hkeeps.eof, hkeeps.buffers⟩

theorem modifyConn_calm {f : Connection → Connection}
    (hf : ∀ conn : Connection, conn.Same (f conn)) : Calm closes sweeps w (w.modifyConn c f) := by
  unfold modifyConn
  split
  · exact .refl w
  next conn hc => exact .of_set hc ((hf conn).keeps _) rfl rfl rfl rfl

theorem startPeerDisconnectPoll_calm (w : Worker) (c : ConnPtr) :
    Calm closes sweeps w (w.startPeerDisconnectPoll L c).2 := by
  unfold startPeerDisconnectPoll
  split
  · exact .refl w
  rename_i conn hc
  split
  · exact .refl w
  dsimp only
  split
  · exact .of_set hc (Same.keeps {} _) rfl rfl rfl rfl
  · exact .of_eq rfl

theorem cancelDisconnect_same (c : ConnPtr) (conn : Connection) (b : Backend Tag) :
    conn.Same (cancelDisconnect L c conn b).2.1 := by
  unfold cancelDisconnect
  split
  · exact {}
  dsimp only
  split <;> exact {}

section

variable (w : Worker) (c : ConnPtr)

theorem cancelPeerDisconnectPoll_calm :
    Calm closes sweeps w (w.cancelPeerDisconnectPoll L c).2 := by
  unfold cancelPeerDisconnectPoll
  split
  · exact .refl w
  next conn hc => exact .of_set hc ((cancelDisconnect_same c conn _).keeps _) rfl rfl rfl rfl

theorem writeSuspend_calm (request : RegisteredFile → Request Tag) :
    Calm closes sweeps w (w.writeSuspend L c request).2 := by
  unfold writeSuspend
  split
  · exact .refl w
  rename_i conn hc
  split
  · exact .refl w
  split
  · exact .refl w
  dsimp only
  split
  · exact .of_set hc (Same.keeps {} _) rfl rfl rfl rfl
  · exact .of_eq rfl

theorem readResume_calm (room : Nat) (drainBuffered : Bool) :
    Calm closes sweeps w (w.readResume c room drainBuffered) := by
  unfold readResume
  split
  · exact .refl w
  rename_i conn hc
  split
  · exact .of_set hc (Same.keeps {} _) rfl rfl rfl rfl
  rw [foldl_releaseRecvBuffer]
  have hnil : conn.receivedBuffers = [] →
      (readLoop w.options conn drainBuffered room 0 conn.receivedBuffers).buffers = [] := by
    intro hb
    rw [hb]
    rfl
  have hkeeps : conn.Keeps (closes c) { conn with
      receivedBuffers :=
        (readLoop w.options conn drainBuffered room 0 conn.receivedBuffers).buffers
      lastError := (readLoop w.options conn drainBuffered room 0
        conn.receivedBuffers).error.getD conn.lastError } :=
    ⟨⟨.inl, id, .inl⟩, .inl rfl, id, rfl, id, rfl, fun _ => rfl, hnil⟩
  exact .of_set hc hkeeps rfl rfl rfl rfl

theorem setReadAhead_calm (enabled : Bool) : Calm closes sweeps w (w.setReadAhead c enabled) := by
  unfold setReadAhead
  split
  · exact .refl w
  rename_i conn hc
  split
  · exact .refl w
  split
  · exact .refl w
  · exact .of_set hc (Same.keeps {} _) rfl rfl rfl rfl

end

/-! ## Closing -/

/-- What a function leaves alone besides the table and the counters. -/
structure SameQueues (w w' : Worker) : Prop where
  queue : w'.recvRearmQueue = w.recvRearmQueue := by rfl
  batch : w'.rearmBatch = w.rearmBatch := by rfl
  next : w'.nextConnectionId = w.nextConnectionId := by rfl
  options : w'.options = w.options := by rfl

theorem SameQueues.trans {w'' : Worker} (h : SameQueues w w') (h' : SameQueues w' w'') :
    SameQueues w w'' :=
  ⟨h'.queue.trans h.queue, h'.batch.trans h.batch, h'.next.trans h.next, h'.options.trans h.options⟩

theorem leaveActive_tables (conn : Connection) (w : Worker) :
    (w.leaveActive conn).connections = w.connections ∧ SameQueues w (w.leaveActive conn) := by
  unfold leaveActive
  split <;> exact ⟨rfl, {}⟩

theorem closeSocket_tables (c : ConnPtr) (conn : Connection) (w : Worker) :
    (w.closeSocket L c conn).connections = w.connections ∧
      SameQueues w (w.closeSocket L c conn) := by
  unfold closeSocket
  split <;> split <;> (try split) <;> exact ⟨rfl, {}⟩

theorem retireConnection_tables (hc : w.connections c = some conn) :
    ∃ conn', (conn' = conn ∨ conn' = conn.retire) ∧
      (w.retireConnection c).connections = update w.connections c (some conn') ∧
      SameQueues w (w.retireConnection c) := by
  have hfold : conn.receivedBuffers.foldl
      (fun w received => w.releaseRecvBuffer c conn received.bufferId) w = _ :=
    List.foldl_map.symm.trans
      (foldl_releaseRecvBuffer c conn (conn.receivedBuffers.map ReceivedBuffer.bufferId) w)
  unfold retireConnection
  rw [hc]
  dsimp only
  split
  · refine ⟨conn, .inl rfl, ?_, {}⟩
    rw [← hc, update_eq_self]
  rw [hfold]
  exact ⟨conn.retire, .inr rfl, rfl, {}⟩

/-- `BeginClose` on a connection in the table: nothing, or the record is closed. -/
theorem beginClose_tables (hc : w.connections c = some conn) (reason : Status) (mode : CloseMode) :
    w.beginClose L c reason mode = w ∨
    ∃ conn', conn.Closed conn' ∧
      (w.beginClose L c reason mode).connections = update w.connections c (some conn') ∧
      SameQueues w (w.beginClose L c reason mode) := by
  unfold beginClose
  rw [hc]
  dsimp only
  split
  · exact .inl rfl
  right
  have hsame := cancelDisconnect_same (L := L) c conn (w.leaveActive conn).backend
  generalize cancelDisconnect L c conn (w.leaveActive conn).backend = cancelled at hsame ⊢
  obtain ⟨ha, ha'⟩ := leaveActive_tables conn w
  obtain ⟨hb, hb'⟩ := closeSocket_tables c conn { w.leaveActive conn with backend := cancelled.2.2 }
  generalize closeSocket L c conn { w.leaveActive conn with backend := cancelled.2.2 } = v
    at hb hb' ⊢
  obtain ⟨conn', hconn', hd, hd'⟩ := retireConnection_tables
    (w := (v.setConn c (cancelled.2.1.beginClose reason mode).2).enqueue
      (cancelled.2.1.beginClose reason mode).1)
    (setConn_self ..)
  have hclosed : cancelled.2.1.Closed conn' := by
    rcases hconn' with rfl | rfl
    · exact Connection.beginClose_closed ..
    · exact (Connection.beginClose_closed ..).retire
  refine ⟨conn', ⟨hclosed.unusable, hclosed.recvPaused.trans hsame.recvPaused,
    hclosed.recvArmed.trans hsame.recvArmed, hclosed.needsRecvRearm.trans hsame.needsRecvRearm,
    fun hbuf => hclosed.receivedBuffers (hsame.receivedBuffers.trans hbuf)⟩, ?_, ?_⟩
  · rw [hd]
    show update (update v.connections c _) c _ = _
    rw [update_idem, hb]
    exact congrArg (fun f => update f c (some conn')) ha
  · have hmid : SameQueues (w.leaveActive conn) v := { hb' with }
    exact ha'.trans (hmid.trans { hd' with })

theorem beginClose_calm (w : Worker) (c : ConnPtr) (reason : Status) (mode : CloseMode)
    (hcloses : ∀ conn, w.connections c = some conn → conn.usable = true → closes c) :
    Calm closes sweeps w (w.beginClose L c reason mode) := by
  rcases hc : w.connections c with _ | conn
  · unfold beginClose
    rw [hc]
    exact .refl w
  rcases beginClose_tables hc reason mode with heq | ⟨conn', hclosed, hconns, hq⟩
  · rw [heq]
    exact .refl w
  · exact .of_set hc (hclosed.keeps (hcloses conn hc)) hconns hq.queue hq.batch hq.next

/-- The connection has been idle for too long. -/
def Expired (w : Worker) (now : Int) (c : ConnPtr) : Prop :=
  0 < w.options.idleTimeoutMs ∧ ∃ conn ∈ w.connections c, 0 < conn.lastActiveMs ∧
    w.options.idleTimeoutMs ≤ now - conn.lastActiveMs

instance (w : Worker) (now : Int) (c : ConnPtr) : Decidable (w.Expired now c) :=
  inferInstanceAs (Decidable (0 < w.options.idleTimeoutMs ∧ ∃ conn ∈ w.connections c,
    0 < conn.lastActiveMs ∧ w.options.idleTimeoutMs ≤ now - conn.lastActiveMs))

/-- May the step close the connection? -/
def mayClose (w : Worker) : Action → ConnPtr → Bool
  | .beginClose c _ _, d => d = c
  | .checkIdleConnections now order, d => d ∈ order ∧ w.Expired now d
  | _, _ => false

/-- One visit of `CheckIdleConnections`: it closes the connection if that has expired, and it moves
    no clock. -/
theorem closeIfIdle_calm (w : Worker) (now : Int) (c : ConnPtr)
    (hon : 0 < w.options.idleTimeoutMs) :
    Calm (fun d => d = c ∧ w.Expired now d) False w (closeIfIdle L now w c) ∧
      (closeIfIdle L now w c).options = w.options ∧
      ∀ d, (closeIfIdle L now w c).Expired now d → w.Expired now d := by
  unfold closeIfIdle
  split
  · exact ⟨.refl w, rfl, fun _ => id⟩
  rename_i conn hc
  split
  · exact ⟨.refl w, rfl, fun _ => id⟩
  rename_i hskip
  split
  · exact ⟨.refl w, rfl, fun _ => id⟩
  rename_i hfresh
  simp only [not_or, Int.not_le, Int.not_lt] at hskip hfresh
  have hexpired : w.Expired now c := ⟨hon, conn, hc, hskip.2.2, hfresh⟩
  generalize (⟨.deadlineExceeded, "connection idle timeout"⟩ : Status) = timedOut
  have hself : (w.setConn c { conn with lastError := timedOut }).connections c =
      some { conn with lastError := timedOut } := setConn_self ..
  have hset : ∀ (v : Worker) (conn' : Connection),
      v.connections = update w.connections c (some conn') → v.options = w.options →
      ∀ d, v.Expired now d → w.Expired now d := by
    rintro v conn' hconns hoptions d ⟨_, other, hd, hpos, hlate⟩
    rw [hoptions] at hlate
    by_cases hdc : d = c
    · exact hdc ▸ hexpired
    rw [hconns, update_of_ne hdc] at hd
    exact ⟨hon, other, hd, hpos, hlate⟩
  rcases beginClose_tables hself timedOut .idleTimeout with
    heq | ⟨conn', hclosed, hconns, hq⟩
  · rw [heq]
    exact ⟨.of_set hc (Same.keeps {} _) rfl rfl rfl rfl, rfl, hset _ _ rfl rfl⟩
  have hconns' : (beginClose L c timedOut .idleTimeout
      (w.setConn c { conn with lastError := timedOut })).connections =
      update w.connections c (some conn') := by
    rw [hconns]
    exact update_idem ..
  have hkeeps : conn.Keeps (c = c ∧ w.Expired now c) conn' :=
    (Same.keeps {} _).trans (hclosed.keeps fun _ => ⟨rfl, hexpired⟩)
  exact ⟨.of_set hc hkeeps hconns' hq.queue hq.batch hq.next, hq.options,
    hset _ conn' hconns' hq.options⟩

theorem checkIdleConnections_calm (w : Worker) (now : Int) (order : List ConnPtr) :
    Calm (fun d => w.mayClose (.checkIdleConnections now order) d) sweeps w
      (w.checkIdleConnections L now order) := by
  unfold checkIdleConnections
  split
  · exact .refl w
  rename_i hoff
  have hon := Int.not_le.mp hoff
  clear hoff
  suffices h : Calm (fun d => d ∈ order ∧ w.Expired now d) False w
      (order.foldl (closeIfIdle L now) w) from h.mono (fun d hd => decide_eq_true hd) False.elim
  induction order generalizing w with
  | nil => exact .refl w
  | cons c order ih =>
    obtain ⟨hone, hoptions, hback⟩ := closeIfIdle_calm w now c hon
    have hon' : 0 < (closeIfIdle L now w c).options.idleTimeoutMs := by
      rw [hoptions]
      exact hon
    rw [foldl_cons]
    refine Calm.trans (hone.mono ?_ id) ((ih _ hon').mono ?_ id)
    · rintro d ⟨rfl, hexpired⟩
      exact ⟨mem_cons_self, hexpired⟩
    · rintro d ⟨hmem, hexpired⟩
      exact ⟨mem_cons_of_mem _ hmem, hback d hexpired⟩

/-! ## Reclaiming -/

theorem eraseConn_calm (hc : w.connections c = some conn) (hno : conn.usable = false) :
    Calm closes True w (w.eraseConn c) := by
  refine ⟨fun d => ?_, rfl, rfl, rfl⟩
  by_cases hd : d = c
  · subst hd
    rw [eraseConn_self, hc]
    exact .swept trivial fun hu => absurd (hno.symm.trans hu) (by decide)
  rw [eraseConn_of_ne hd]
  exact .refl _ _ _

/-- The loop of `ReclaimConnections` touches only connections that have left the active state. -/
theorem reclaimLoop_calm (ids still : List ConnPtr) (w : Worker)
    (hretired : ∀ c ∈ ids, ∀ conn, w.connections c = some conn → conn.state ≠ .active) :
    Calm closes True w (reclaimLoop ids still w) := by
  induction ids generalizing still w with
  | nil => exact .of_eq rfl
  | cons c ids ih =>
    have hrest : ∀ v : Worker, (∀ d, d ≠ c → v.connections d = w.connections d) →
        (∀ conn, v.connections c = some conn → conn.state ≠ .active) →
        ∀ d ∈ ids, ∀ conn, v.connections d = some conn → conn.state ≠ .active := by
      intro v hother hself d hmem conn hd
      by_cases hdc : d = c
      · exact hself conn (hdc ▸ hd)
      · exact hretired d (mem_cons_of_mem _ hmem) conn (hother d hdc ▸ hd)
    unfold reclaimLoop
    split
    next hc => exact ih _ _ fun d hmem => hretired d (mem_cons_of_mem _ hmem)
    rename_i conn hc
    have hstate : conn.state ≠ .active := hretired c mem_cons_self conn hc
    have hno := Connection.usable_eq_false_of_state hstate
    split
    · refine (eraseConn_calm hc hno).trans (ih _ _ (hrest _ ?_ ?_))
      · exact fun d hd => eraseConn_of_ne hd ..
      · intro conn' hconn'
        rw [eraseConn_self] at hconn'
        cases hconn'
    have hkeeps : conn.Keeps (closes c) { conn with state := .draining } :=
      Connection.keeps_of_unusable rfl (fun hu => absurd (hno.symm.trans hu) (by decide))
        rfl rfl rfl id
    have hset : Calm closes True w (w.setConn c { conn with state := .draining }) :=
      .of_set hc hkeeps rfl rfl rfl rfl
    refine hset.trans (ih _ _ (hrest _ ?_ ?_))
    · exact fun d hd => setConn_of_ne hd ..
    · intro conn' hconn'
      rw [setConn_self] at hconn'
      cases hconn'
      exact ConnectionState.noConfusion

theorem Table.reclaim_calm (h : w.Table) : Calm closes True w w.reclaimConnections := by
  refine reclaimLoop_calm _ _ w fun c hc conn hconn => ?_
  have hinactive := (h.retired c hc).2
  rw [hconn] at hinactive
  exact of_decide_eq_false hinactive

/-! ## Listeners -/

section

variable (w : Worker)

theorem armListener_calm (l : Nat) : Calm closes sweeps w (w.armListener L l).2 := by
  unfold armListener
  split
  · exact .refl w
  split
  · exact .refl w
  split
  · exact .refl w
  dsimp only
  split <;> exact .of_eq rfl

theorem rearmListener_calm (l : Nat) : Calm closes sweeps w (w.rearmListener L l) := by
  unfold rearmListener
  dsimp only
  split
  · exact (armListener_calm w l).trans (.of_eq rfl)
  · exact armListener_calm w l

theorem acceptSuspend_calm (l waiter : Nat) :
    Calm closes sweeps w (w.acceptSuspend L l waiter).2 := by
  unfold acceptSuspend
  split
  · exact .refl w
  split
  · exact .refl w
  split
  · exact .refl w
  split
  · exact .refl w
  dsimp only
  split
  · exact (armListener_calm w l).trans (.of_eq rfl)
  · exact armListener_calm w l

theorem consumeAcceptedFd_calm (l : Nat) : Calm closes sweeps w (w.consumeAcceptedFd l).2 := by
  unfold consumeAcceptedFd
  split
  · exact .refl w
  split
  · exact .of_eq rfl
  · split <;> exact .of_eq rfl

theorem closeListener_calm (l : Nat) : Calm closes sweeps w (w.closeListener L l) := by
  unfold closeListener
  split
  · exact .refl w
  split
  · exact .refl w
  rw [foldl_closeFd]
  split
  · split <;> exact .of_eq rfl
  · exact .of_eq rfl

theorem acceptComplete_calm (l : Nat) (res : Int) (more : Bool) :
    Calm closes sweeps w (w.acceptComplete L l res more) := by
  have hdone : Calm closes sweeps w (w.acceptDone l res more) := by
    unfold acceptDone
    split <;> exact .of_eq rfl
  unfold acceptComplete
  split
  · exact .refl w
  split
  · exact hdone.trans (.of_eq rfl)
  · exact (hdone.trans (rearmListener_calm _ l)).trans (.of_eq rfl)

end

/-! ## Steps about receiving -/

/-- What one step does to the receive side. -/
inductive Act (w : Worker) : Action → Worker → Prop where
  | calm {a : Action} {w' : Worker} :
      Calm (fun c => w.mayClose a c) (a = .reclaimConnections) w w' → Act w a w'
  | added {w' : Worker} (file : RegisteredFile) (mode : RecvMode) (buffer : UInt64) (now : Int) :
      w'.connections = Function.update w.connections w.nextConnectionId
        (some { Connection.fresh file mode buffer with lastActiveMs := now }) →
      w'.recvRearmQueue = w.recvRearmQueue → w'.rearmBatch = w.rearmBatch →
      w'.nextConnectionId = w.nextConnectionId + 1 →
      Act w (.addConnection file mode buffer now) w'
  | waits {w' : Worker} {c : ConnPtr} {waiter : Nat} {conn conn' : Connection} :
      w.connections c = some conn → conn.Waits conn' →
      w'.connections = Function.update w.connections c (some conn') →
      SameQueues w w' → Act w (.readSuspend c waiter) w'
  | pauses {w' : Worker} {c : ConnPtr} {tag : Nat} {conn : Connection} :
      w.connections c = some conn → conn.usable = true → conn.readWaiter = none →
      w'.connections = Function.update w.connections c (some { conn with recvPaused := true }) →
      SameQueues w w' → Act w (.pauseRead c tag) w'
  | receives {a : Action} {w' : Worker} {c : ConnPtr} {conn : Connection} {cqe : Cqe Tag}
      (now : Int) :
      w.dispatched a = some cqe → cqe.userData = .recv c → w.connections c = some conn →
      w'.connections = Function.update w.connections c
        (some (conn.handleMultishotRecv w.options now cqe).conn) →
      w'.recvRearmQueue = (if (conn.handleMultishotRecv w.options now cqe).rearm then
        w.recvRearmQueue ++ [c] else w.recvRearmQueue) →
      w'.rearmBatch = w.rearmBatch → w'.nextConnectionId = w.nextConnectionId → Act w a w'
  | detaches {w' : Worker} (stopping : Bool) (now : Int) :
      w'.connections = w.connections → w'.recvRearmQueue = [] →
      w'.rearmBatch = w.recvRearmQueue → w.rearmBatch = [] →
      w'.nextConnectionId = w.nextConnectionId → Act w (.deferred stopping now) w'
  | rearms {w' : Worker} {c : ConnPtr} {batch : List ConnPtr} {conn conn' : Connection} :
      w.rearmBatch = c :: batch → w'.rearmBatch = batch → w'.recvRearmQueue = w.recvRearmQueue →
      w.connections c = some conn → conn.Rearmed conn' →
      w'.connections = Function.update w.connections c (some conn') →
      w'.nextConnectionId = w.nextConnectionId → Act w .rearm w'
  | passes {w' : Worker} {c : ConnPtr} {batch : List ConnPtr} :
      w.rearmBatch = c :: batch → w'.rearmBatch = batch → w'.recvRearmQueue = w.recvRearmQueue →
      w.connections c = none → w'.connections = w.connections →
      w'.nextConnectionId = w.nextConnectionId → Act w .rearm w'

theorem readSuspend_act (h : w.backend.initialized = true) (c : ConnPtr)
    (waiter : Nat) : Act w (.readSuspend c waiter) (w.readSuspend L c waiter).2 := by
  have hrefl : Act w (.readSuspend c waiter) w := .calm (.refl w)
  unfold readSuspend
  split
  · exact hrefl
  rename_i conn hc
  split
  · exact hrefl
  rename_i husable
  split
  · exact hrefl
  rename_i hempty
  split
  · exact hrefl
  rename_i hfree
  simp only [not_or, ne_eq, not_not, not_eq_true, Bool.not_eq_false,
    Option.isSome_eq_false_iff, Option.isNone_iff_eq_none] at husable hempty hfree
  have hmust : conn.mustWait = true := Connection.mustWait_iff.mpr
    ⟨husable, hempty.1, hempty.2.1, hempty.2.2, hfree.1, hfree.2⟩
  obtain ⟨hok, hspec⟩ := startRecvMultishot_spec h hc
  dsimp only
  rw [hok]
  rcases hspec with ⟨hwhy, heq⟩ | ⟨hpause, conn', b, heq, hsame⟩
  · rw [heq, hc]
    have harmed : conn.recvArmed = true ∨ conn.recvPaused = true := by
      simpa [hempty, (Connection.usable_iff.mp husable).2] using hwhy
    have hwaits : conn.Waits { conn with readInflight := true, readWaiter := some waiter } :=
      ⟨hmust, {}, harmed, .inl⟩
    exact .waits hc hwaits rfl {}
  rw [heq]
  have hself : ({ w.setConn c conn' with backend := b } : Worker).connections c =
      some conn' := setConn_self ..
  rw [hself]
  have hwaits : conn.Waits { conn' with readInflight := true, readWaiter := some waiter } :=
    ⟨hmust, { hsame with readWaiter := rfl, recvArmed := rfl }, .inl hsame.recvArmed,
      fun _ => .inr hpause⟩
  exact .waits hc hwaits (update_idem ..) {}

theorem pauseRead_act (w : Worker) (c : ConnPtr) (tag : Nat) :
    Act w (.pauseRead c tag) (w.pauseRead L c tag) := by
  unfold pauseRead
  split
  · exact .calm (.refl w)
  rename_i conn hc
  split
  · exact .calm (.refl w)
  rename_i hguard
  simp only [not_or, not_eq_true, Bool.not_eq_false, Option.isSome_eq_false_iff,
    Option.isNone_iff_eq_none] at hguard
  split <;> exact .pauses hc hguard.1 hguard.2.1 rfl {}

theorem rearmOne_act (h : w.backend.initialized = true)
    {batch : List ConnPtr} (hbatch : w.rearmBatch = c :: batch) :
    Act w .rearm (rearmOne L c { w with rearmBatch := batch }) := by
  cases hc : w.connections c with
  | none =>
    have heq : rearmOne L c { w with rearmBatch := batch } = { w with rearmBatch := batch } := by
      unfold rearmOne
      rw [hc]
    rw [heq]
    exact .passes hbatch rfl rfl hc rfl rfl
  | some conn =>
    unfold rearmOne
    rw [hc]
    dsimp only
    split
    next hgo =>
      have hself : (({ w with rearmBatch := batch } : Worker).setConn c
          { conn with needsRecvRearm := false }).connections c =
          some { conn with needsRecvRearm := false } := setConn_self ..
      obtain ⟨hok, hspec⟩ := startRecvMultishot_spec
        (w := ({ w with rearmBatch := batch } : Worker).setConn c
          { conn with needsRecvRearm := false }) h hself
      rw [hok]
      rcases hspec with ⟨hwhy, heq⟩ | ⟨hpause, conn', b, heq, hsame⟩
      · rw [heq, hself]
        have hrearmed : conn.Rearmed { conn with needsRecvRearm := false } := by
          refine ⟨{}, id, .inl, fun hu _ hp hb => ?_⟩
          simpa [hp, hb, (Connection.usable_iff.mp hu).2] using hwhy
        exact .rearms hbatch rfl rfl hc hrearmed rfl rfl
      rw [heq]
      have hrearmed : conn.Rearmed conn' :=
        ⟨{ hsame with recvArmed := rfl }, fun _ => hsame.recvArmed, fun _ => .inr hpause,
          fun _ _ _ _ => hsame.recvArmed⟩
      exact .rearms hbatch rfl rfl hc hrearmed (update_idem ..) rfl
    next hgo =>
      have hrearmed : conn.Rearmed { conn with needsRecvRearm := false } :=
        ⟨{}, id, .inl, fun hu he hp _ => absurd ⟨hu, he, hp⟩ hgo⟩
      exact .rearms hbatch rfl rfl hc hrearmed rfl rfl

variable {cqe : Cqe Tag}

/-- The handler of a completion that is not a receive. -/
theorem runHandler_calm (w : Worker) (stopping : Bool) (now : Int)
    (hdata : ∀ c, cqe.userData ≠ .recv c) :
    Calm closes sweeps w (runHandler L stopping now cqe w) := by
  unfold runHandler
  split
  next c hc => exact absurd hc (hdata c)
  · exact modifyConn_calm fun conn => {}
  · exact modifyConn_calm fun conn => {}
  · exact acceptComplete_calm w _ _ _
  · exact .of_eq rfl

variable {a : Action}

theorem handleRecv_act (ha : w.dispatched a = some cqe)
    (hdata : cqe.userData = .recv c) (now : Int) (b : Backend Tag) :
    Act w a (handleRecv c now cqe { w with backend := b }) := by
  rcases hc : w.connections c with _ | conn
  · rw [handleRecv_none (by exact hc)]
    exact .calm (.of_eq rfl)
  rw [handleRecv_some (by exact hc)]
  exact .receives now ha hdata hc rfl rfl rfl rfl

theorem dispatch_act (ha : w.dispatched a = some cqe)
    (stopping : Bool) (now : Int) (cq : List (Cqe Tag)) (phase : Phase Tag) :
    Act w a (dispatch L stopping now cqe cq phase w) := by
  unfold dispatch
  generalize w.backend.startHandler L cqe cq phase = b
  by_cases hrecv : ∃ c, cqe.userData = .recv c
  · obtain ⟨c, hdata⟩ := hrecv
    have hrun : runHandler L stopping now cqe { w with backend := b } =
        handleRecv c now cqe { w with backend := b } := by
      unfold runHandler
      rw [hdata]
    rw [hrun]
    exact handleRecv_act ha hdata now b
  have hstart : Calm (fun c => w.mayClose a c) (a = .reclaimConnections) w
    { w with backend := b } :=
    .of_eq rfl
  exact .calm (hstart.trans (runHandler_calm _ stopping now fun c hdata => hrecv ⟨c, hdata⟩))

theorem stepLoop_act (h : w.Sound) (hs : w.stepLoop L a = some w') : Act w a w' := by
  unfold stepLoop at hs
  split at hs
  next =>
    refine of_guard hs fun _ => ?_
    exact .calm (.of_eq rfl)
  next stopping now =>
    obtain ⟨_, heq⟩ := ite_none_right_eq_some.mp hs
    split at heq
    next => cases heq
    next cqe cq hcq =>
      cases heq
      exact dispatch_act (by rw [dispatched, hcq]; rfl) ..
  next stopping now =>
    split at hs
    next =>
      cases hs
      exact .calm (.of_eq rfl)
    next cqe cq _ hcq =>
      cases hs
      exact dispatch_act (by rw [dispatched, hcq]; rfl) ..
    next => cases hs
  next stopping now =>
    split at hs
    next c batch hphase =>
      cases hs
      exact dispatch_act (by rw [dispatched, hphase]; rfl) ..
    next hphase =>
      cases hs
      exact .detaches stopping now rfl rfl rfl (h.rearm.batch (by simp [hphase])) rfl
    next => cases hs
  next =>
    split at hs
    next c batch _ hbatch =>
      cases hs
      exact rearmOne_act h.initialized hbatch
    next =>
      cases hs
      exact .calm (.of_eq rfl)
    next => cases hs
  next => cases hs

/-- **Every step is calm, or it is one of those about receiving.** -/
theorem step_act (h : w.Sound) (hs : w.step L a = some w') : Act w a w' := by
  cases a with
  | addConnection file mode buffer now =>
    refine of_guard hs fun ⟨hfd, _⟩ => ?_
    rw [addConnection_eq hfd]
    exact .added file mode buffer now rfl rfl rfl rfl
  | ensureRecvArmed c =>
    cases hs
    exact .calm (startRecvMultishot_calm h.initialized c)
  | setPeerDisconnectCallback c callback =>
    cases hs
    exact .calm (modifyConn_calm fun conn => {})
  | ensurePeerDisconnectPollArmed c =>
    cases hs
    exact .calm (startPeerDisconnectPoll_calm w c)
  | cancelPeerDisconnectPoll c =>
    cases hs
    exact .calm (cancelPeerDisconnectPoll_calm w c)
  | write c buffer =>
    cases hs
    exact .calm (writeSuspend_calm w c _)
  | writeV c message =>
    cases hs
    exact .calm (writeSuspend_calm w c _)
  | readSuspend c waiter =>
    cases hs
    exact readSuspend_act h.initialized c waiter
  | readResume c room drainBuffered =>
    cases hs
    exact .calm (readResume_calm w c room drainBuffered)
  | setReadAhead c enabled =>
    cases hs
    exact .calm (setReadAhead_calm w c enabled)
  | pauseRead c tag =>
    cases hs
    exact pauseRead_act w c tag
  | beginClose c reason mode =>
    cases hs
    exact .calm (beginClose_calm w c reason mode fun _ _ _ => decide_eq_true (rfl : c = c))
  | borrow c =>
    simp only [step, borrow] at hs
    split at hs
    next conn hc =>
      obtain ⟨_, heq⟩ := ite_none_left_eq_some.mp hs
      cases heq
      exact .calm (.of_set hc (Same.keeps {} _) rfl rfl rfl rfl)
    next => cases hs
  | release c =>
    simp only [step, release] at hs
    split at hs
    next conn hc =>
      obtain ⟨_, heq⟩ := ite_none_left_eq_some.mp hs
      cases heq
      exact .calm (.of_set hc (Same.keeps {} _) rfl rfl rfl rfl)
    next => cases hs
  | bindListener fd | call c | socket fd | openElsewhere fd | closeElsewhere fd =>
    refine of_guard hs fun _ => ?_
    exact .calm (.of_eq rfl)
  | acceptSuspend l waiter =>
    cases hs
    exact .calm (acceptSuspend_calm w l waiter)
  | consumeAcceptedFd l =>
    cases hs
    exact .calm (consumeAcceptedFd_calm w l)
  | closeListener l =>
    cases hs
    exact .calm (closeListener_calm w l)
  | submit count rc =>
    cases hs
    exact .calm (.of_eq rfl)
  | ring =>
    cases hs
    exact .calm (.of_eq rfl)
  | checkIdleConnections now order =>
    refine of_guard hs fun _ => ?_
    exact .calm (checkIdleConnections_calm w now order)
  | reclaimConnections =>
    refine of_guard hs fun _ => ?_
    exact .calm (h.table.reclaim_calm.mono (fun _ => id) fun _ => rfl)
  | complete i res more buffer =>
    obtain ⟨e, b, _, _, _, heq⟩ := kernelComplete_spec hs
    subst heq
    exact .calm (.of_eq rfl)
  | poll | wait | reap | deferred | rearm => exact stepLoop_act (L := L) h hs

/-! ## What every step keeps -/

theorem Act.next_le (h : Act w a w') : w.nextConnectionId ≤ w'.nextConnectionId := by
  cases h with
  | calm hcalm => exact hcalm.next.ge
  | added file mode buffer now _ _ _ hnext =>
    rw [hnext]
    exact Nat.le_succ _
  | waits _ _ _ hq | pauses _ _ _ _ hq => exact hq.next.ge
  | receives now _ _ _ _ _ _ hnext | detaches stopping now _ _ _ _ hnext
  | rearms _ _ _ _ _ _ hnext | passes _ _ _ _ _ hnext => exact hnext.ge

/-- Numbers of connections are not used again. -/
theorem Act.absent (h : Act w a w')
    (hlt : c < w.nextConnectionId) (hc : w.connections c = none) : w'.connections c = none := by
  have hother : ∀ {d : ConnPtr} {entry : Option Connection}, d ≠ c →
      w'.connections = update w.connections d entry → w'.connections c = none := by
    intro d entry hd hconns
    rw [hconns, update_of_ne hd.symm, hc]
  have hne : ∀ {d : ConnPtr} {conn : Connection}, w.connections d = some conn → d ≠ c := by
    rintro d conn hd rfl
    rw [hc] at hd
    cases hd
  cases h with
  | calm hcalm =>
    have hat := hcalm.conns c
    rw [hc] at hat
    generalize w'.connections c = entry at hat
    cases hat
    rfl
  | added file mode buffer now hconns => exact hother (Nat.ne_of_gt hlt) hconns
  | waits hd _ hconns | pauses hd _ _ hconns | receives now _ _ hd hconns
  | rearms _ _ _ hd _ hconns => exact hother (hne hd) hconns
  | detaches stopping now hconns | passes _ _ _ _ hconns => rw [hconns, hc]

/-- **A connection stays in the table, with a record that lives on, unless a sweep erases it.** -/
theorem Act.lives (h : Act w a w') (ht : w.Table) (hc : w.connections c = some conn) :
    (∃ conn', w'.connections c = some conn' ∧ conn.Lives (w.mayClose a c) conn') ∨
    (w'.connections c = none ∧ a = .reclaimConnections ∧ conn.usable = false) := by
  have hrefl : conn.Lives (w.mayClose a c) conn := (Connection.Keeps.refl _ conn).toLives
  have hset : ∀ {d : ConnPtr} {old new : Connection}, w.connections d = some old →
      w'.connections = update w.connections d (some new) →
      old.Lives (w.mayClose a d) new →
      ∃ conn', w'.connections c = some conn' ∧ conn.Lives (w.mayClose a c) conn' := by
    intro d old new hd hconns hlives
    rw [hconns]
    by_cases hcd : c = d
    · subst hcd
      cases hc.symm.trans hd
      exact ⟨new, update_self .., hlives⟩
    · exact ⟨conn, (update_of_ne hcd ..).trans hc, hrefl⟩
  cases h with
  | calm hcalm =>
    have hat := hcalm.conns c
    rw [hc] at hat
    generalize w'.connections c = entry at hat
    cases hat with
    | kept hkeeps => exact .inl ⟨_, rfl, hkeeps.toLives⟩
    | swept hsweeps hno =>
      subst hsweeps
      exact .inr ⟨rfl, rfl, Bool.eq_false_of_not_eq_true fun hu => false_ne_true (hno hu)⟩
  | added file mode buffer now hconns =>
    have hne : c ≠ w.nextConnectionId := by
      rintro rfl
      rw [ht.fresh _ le_rfl] at hc
      cases hc
    rw [hconns, update_of_ne hne]
    exact .inl ⟨conn, hc, hrefl⟩
  | waits hd hwaits hconns => exact .inl (hset hd hconns (hwaits.lives _))
  | pauses hd husable _ hconns =>
    exact .inl (hset hd hconns ⟨fun _ => .inl husable, fun _ => rfl, .inl⟩)
  | receives now _ _ hd hconns =>
    exact .inl (hset hd hconns ((Connection.handleMultishotRecv_receives ..).lives _))
  | detaches stopping now hconns =>
    rw [hconns]
    exact .inl ⟨conn, hc, hrefl⟩
  | rearms _ _ _ hd hrearmed hconns => exact .inl (hset hd hconns (hrearmed.lives _))
  | passes _ _ _ _ hconns =>
    rw [hconns]
    exact .inl ⟨conn, hc, hrefl⟩

end Worker

end Bycorf.Net
