/-
  Connection storage is never reclaimed while something still refers to it.

  1. **Active connections** — `active_connection_count_` is the number of active table entries, and
     every change of it is a change of the process-wide counter.
  2. **The re-arm queue** — outside `Poll` it is empty, so no re-arm outlives a connection.
  3. **One invariant** — `Sound` puts these together with the books of `Net.References`; what
     `CanReclaim` checks is then all there is to check (`unreferenced_of_canReclaim`).
  4. **All workers** — `Runtime` runs any number of workers that share `g_active_connections`.
-/
import Mathlib.Algebra.BigOperators.Fin
import Bycorf.Net.References

namespace Bycorf.Net

open IoUring Lib Function

variable {L : Liburing Tag} {D : (ConnPtr → Option Connection) → Cqe Tag → Prop}

/-- A completion is dispatched inside `Poll`, before the re-arms. -/
theorem Taken.phase {s b : Backend Tag} {cqe : Cqe Tag} (h : Taken s cqe b) :
    s.phase ≠ .rearm ∧ b.phase ≠ .idle ∧ b.phase ≠ .rearm := by
  cases h with
  | reap hphase _ => simp [hphase]
  | deferred hphase => simp [hphase]

/-! ## Active connections -/

/-- The table entry is a connection in state `kActive`. -/
def isActive : Option Connection → Bool
  | none => false
  | some conn => conn.state = .active

namespace Worker

/-- The active entries of the table. -/
def activeConnections (w : Worker) : Finset ConnPtr :=
  (Finset.range w.nextConnectionId).filter fun c => isActive (w.connections c) = true

/-- The table and its counter. -/
structure Table (w : Worker) : Prop where
  fresh : ∀ c, w.nextConnectionId ≤ c → w.connections c = none
  active : w.activeConnectionCount = w.activeConnections.card
  retired : ∀ c ∈ w.retiredConnectionIds,
    c < w.nextConnectionId ∧ isActive (w.connections c) = false

variable {w w' : Worker}

/-- Nothing becomes active or inactive. -/
theorem Table.same (h : w.Table) (hnext : w'.nextConnectionId = w.nextConnectionId)
    (hcount : w'.activeConnectionCount = w.activeConnectionCount)
    (hids : ∀ c ∈ w'.retiredConnectionIds, c ∈ w.retiredConnectionIds ∨
        (c < w.nextConnectionId ∧ isActive (w.connections c) = false))
    (hnone : ∀ c, w.connections c = none → w'.connections c = none)
    (hactive : ∀ c, isActive (w'.connections c) = isActive (w.connections c)) : w'.Table where
  fresh c hc := hnone c (h.fresh c (hnext ▸ hc))
  active := by
    rw [hcount, h.active]
    simp [activeConnections, hnext, hactive]
  retired c hc := by
    rw [hactive, hnext]
    exact (hids c hc).elim (h.retired c) id

variable {c : ConnPtr} {conn conn' : Connection}

/-- One record is replaced by another that is active exactly when it was. -/
theorem Table.replace (h : w.Table) (hc : w.connections c = some conn)
    (hconns : w'.connections = update w.connections c (some conn'))
    (hstate : isActive (some conn') = isActive (some conn))
    (hnext : w'.nextConnectionId = w.nextConnectionId)
    (hcount : w'.activeConnectionCount = w.activeConnectionCount)
    (hids : ∀ c' ∈ w'.retiredConnectionIds, c' ∈ w.retiredConnectionIds ∨
        (c' < w.nextConnectionId ∧ isActive (w.connections c') = false)) : w'.Table := by
  refine h.same hnext hcount hids ?_ ?_
  · intro c' hnone
    by_cases heq : c' = c
    · rw [heq, hc] at hnone
      cases hnone
    rw [hconns, update_of_ne heq]
    exact hnone
  · intro c'
    by_cases heq : c' = c
    · rw [heq, hconns, update_self, hc]
      exact hstate
    · rw [hconns, update_of_ne heq]

theorem recvResult_state (o : Options) (now : Int) (cqe : Cqe Tag) (conn : Connection) :
    (conn.recvResult o now cqe).2.state = conn.state := by
  unfold Connection.recvResult
  split
  · rfl
  split
  · rfl
  split
  · rfl
  · split <;> rfl

theorem takeReader_state (conn : Connection) : conn.takeReader.2.state = conn.state := by
  unfold Connection.takeReader
  split <;> rfl

theorem recvEnd_isActive (o : Options) (conn : Connection) :
    isActive (some (conn.recvEnd o).2) = isActive (some conn) := by
  unfold Connection.recvEnd
  dsimp only
  split
  · split <;> rfl
  split
  next hstate => simp [isActive, show conn.state ≠ .active from hstate]
  · rfl

/-- A receive completion never changes whether a connection is active. -/
theorem handleMultishotRecv_isActive (o : Options) (now : Int) (cqe : Cqe Tag) (conn : Connection) :
    isActive (some (conn.handleMultishotRecv o now cqe).conn) = isActive (some conn) := by
  have hended : isActive (some (if cqe.more then (false, (conn.recvResult o now cqe).2)
      else (conn.recvResult o now cqe).2.recvEnd o).2) = isActive (some conn) := by
    have hresult : isActive (some (conn.recvResult o now cqe).2) = isActive (some conn) := by
      rw [isActive, recvResult_state, isActive]
    split
    · exact hresult
    · rw [recvEnd_isActive, hresult]
  rw [← hended]
  unfold Connection.handleMultishotRecv
  dsimp only
  split
  · rw [isActive, takeReader_state, isActive]
  · rfl

theorem activeConnections_add (w : Worker) (conn : Connection) (hstate : conn.state = .active) :
    Finset.filter (fun c => isActive ((w.setConn w.nextConnectionId conn).connections c) = true)
      (Finset.range (w.nextConnectionId + 1)) = insert w.nextConnectionId w.activeConnections := by
  ext c
  simp only [activeConnections, Finset.mem_filter, Finset.mem_range, Finset.mem_insert]
  by_cases heq : c = w.nextConnectionId
  · subst heq
    simp [setConn, isActive, hstate]
  simp only [setConn_of_ne heq, heq, false_or]
  constructor
  · rintro ⟨hlt, hact⟩
    exact ⟨Nat.lt_of_le_of_ne (Nat.le_of_lt_succ hlt) heq, hact⟩
  · rintro ⟨hlt, hact⟩
    exact ⟨Nat.lt_succ_of_lt hlt, hact⟩

/-- A new connection is active. -/
theorem Table.add (h : w.Table) {file : RegisteredFile}
    (hfd : validFd file.fd = true) (mode : RecvMode) (buffer : UInt64) (now : Int) :
    (w.addConnection (Connection.fresh file mode buffer) now).2.Table := by
  have hcard := congrArg Finset.card (activeConnections_add w
    { Connection.fresh file mode buffer with lastActiveMs := now } rfl)
  rw [Finset.card_insert_of_notMem (by simp [activeConnections])] at hcard
  rw [addConnection_eq hfd]
  generalize ({ Connection.fresh file mode buffer with lastActiveMs := now } : Connection) = conn
    at hcard ⊢
  refine ⟨?_, ?_, ?_⟩
  · intro c hc
    refine (setConn_of_ne (Nat.ne_of_gt hc) conn w).trans ?_
    exact h.fresh c (Nat.le_of_succ_le hc)
  · exact (congrArg (· + 1) h.active).trans hcard.symm
  · intro c hc
    obtain ⟨hlt, hinactive⟩ := h.retired c hc
    refine ⟨Nat.lt_succ_of_lt hlt, ?_⟩
    exact (congrArg isActive (setConn_of_ne (Nat.ne_of_lt hlt) conn w)).trans hinactive

theorem mem_activeConnections (h : w.Table)
    (hc : w.connections c = some conn) (hstate : conn.state = .active) :
    c ∈ w.activeConnections := by
  refine Finset.mem_filter.mpr ⟨Finset.mem_range.mpr ?_, by simp [hc, isActive, hstate]⟩
  by_contra hge
  rw [h.fresh c (Nat.le_of_not_lt hge)] at hc
  cases hc

theorem activeConnections_close (w : Worker) (c : ConnPtr) (hstate : isActive (some conn) = false) :
    (w.setConn c conn).activeConnections = w.activeConnections.erase c := by
  ext c'
  simp only [activeConnections, Finset.mem_filter, Finset.mem_erase]
  by_cases heq : c' = c
  · subst heq
    simp [hstate]
  simp only [setConn_of_ne heq, heq, ne_eq, not_false_eq_true, true_and]
  rfl

/-- An entry that is not active takes the place of another. -/
theorem inactive_update {ids : List ConnPtr} {o : Option Connection}
    (h : ∀ d ∈ ids, isActive (w.connections d) = false) (ho : isActive o = false) :
    ∀ d ∈ ids, isActive (update w.connections c o d) = false := by
  intro d hd
  by_cases heq : d = c
  · rw [heq, update_self]
    exact ho
  rw [update_of_ne heq]
  exact h d hd

/-- The first close of an active connection takes it out of the count. -/
theorem Table.startClose (h : w.Table)
    (hc : w.connections c = some conn) (hstate : isActive (some conn') = false) :
    ((w.leaveActive conn).setConn c conn').Table := by
  rw [leaveActive_eq]
  by_cases hact : conn.state = .active
  · have hmem := mem_activeConnections h hc hact
    simp only [if_pos hact]
    refine ⟨?_, ?_, ?_⟩
    · intro c' hc'
      have hnone := h.fresh c' hc'
      have hne : c' ≠ c := by
        rintro rfl
        rw [hc] at hnone
        cases hnone
      exact (update_of_ne hne ..).trans hnone
    · refine Eq.trans ?_ (congrArg Finset.card (activeConnections_close w c hstate)).symm
      rw [Finset.card_erase_of_mem hmem, ← h.active]
      rfl
    · intro c' hc'
      refine ⟨(h.retired c' hc').1, ?_⟩
      exact inactive_update (fun d hd => (h.retired d hd).2) hstate c' hc'
  · simp only [if_neg hact]
    refine h.replace hc rfl ?_ rfl rfl (fun c' hc' => .inl hc')
    rw [hstate]
    exact (decide_eq_false hact).symm

/-- **Every change keeps the table.** -/
theorem Change.table (h : Change L D w w') (hw : w.Table) : w'.Table := by
  have hids : ∀ c ∈ w.retiredConnectionIds, c ∈ w.retiredConnectionIds ∨
      (c < w.nextConnectionId ∧ isActive (w.connections c) = false) := fun c hc => .inl hc
  have hset : ∀ {c : ConnPtr} {conn conn' : Connection}, w.connections c = some conn →
      conn'.state = conn.state → (w.setConn c conn').Table := by
    intro c conn conn' hc hstate
    exact hw.replace hc rfl (by rw [isActive, hstate, isActive]) rfl rfl hids
  have hmodify : ∀ {c : ConnPtr} {b : Backend Tag} {f : Connection → Connection},
      (∀ conn, (f conn).state = conn.state) →
      (({ w with backend := b } : Worker).modifyConn c f).Table := by
    intro c b f hf
    rcases hc : w.connections c with _ | conn
    · rw [modifyConn_none (by exact hc)]
      exact { hw with }
    rw [modifyConn_connections (by exact hc)]
    have hkeep := hset hc (hf conn)
    exact { hkeep with }
  cases h with
  | complete hc =>
    obtain ⟨e, b, _, _, _, rfl⟩ := kernelComplete_spec hc
    exact { hw with }
  | @recvDone cqe b c now ht hdata _ =>
    rcases hc : w.connections c with _ | conn
    · rw [handleRecv_none (by exact hc)]
      exact { hw with }
    rw [handleRecv_some (by exact hc)]
    exact hw.replace hc rfl (handleMultishotRecv_isActive ..) rfl rfl hids
  | disconnectDone | writeDone => exact hmodify fun _ => rfl
  | @acceptDone cqe b l ht hdata =>
    rw [(acceptDone_frame ..).choose_spec]
    exact { hw with }
  | startRecv hc _ _ _ | startDisconnect hc _ _ | startWrite hc _ _ _ | closeFd hc _ _
  | release hc _ => exact hw.replace hc rfl rfl rfl rfl hids
  | touch hc htame => exact hset hc htame.state
  | add file mode buffer now hfd _ => exact hw.add hfd mode buffer now
  | startClose hc => exact hw.startClose hc rfl
  | markClosed hc _ => exact hset hc rfl
  | @retire c conn state hc hold hnew _ =>
    have hinactive : isActive (some conn) = false := decide_eq_false hold
    refine hw.replace hc rfl ?_ rfl rfl ?_
    · rw [hinactive]
      exact decide_eq_false hnew
    · intro c' hc'
      rcases mem_append.mp hc' with hmem | hmem
      · exact .inl hmem
      obtain rfl := mem_singleton.mp hmem
      refine .inr ⟨?_, by rw [hc]; exact hinactive⟩
      by_contra hge
      rw [hw.fresh c' (Nat.le_of_not_lt hge)] at hc
      cases hc
  | @reclaim c conn _ hc hcan =>
    have hinactive : isActive (some conn) = false := by
      simp only [Connection.canReclaim, and_eq_true, decide_eq_true_eq] at hcan
      exact decide_eq_false hcan.1.1.1.1.1.1.1
    refine hw.same rfl rfl hids ?_ ?_
    · intro c' hnone
      by_cases heq : c' = c
      · rw [heq, eraseConn_self]
      rw [eraseConn_of_ne heq]
      exact hnone
    · intro c'
      by_cases heq : c' = c
      · rw [heq, eraseConn_self, hc, hinactive]
        rfl
      · rw [eraseConn_of_ne heq]
  | @drain c conn hmem hc =>
    have hinactive := (hw.retired c hmem).2
    rw [hc] at hinactive
    refine hw.replace hc rfl ?_ rfl rfl hids
    rw [hinactive]
    rfl
  | keepRetired hsub _ =>
    exact hw.same rfl rfl (fun c hc => .inl (hsub c hc)) (fun _ hnone => hnone) fun _ => rfl
  | closeAccepted hl =>
    rw [foldl_closeFd]
    exact { hw with }
  | _ => exact { hw with }

/-- The process-wide counter moves with the worker's own. -/
theorem Change.global (h : Change L D w w') (hw : w.Table) :
    w'.gActiveConnections - w'.activeConnectionCount =
      w.gActiveConnections - w.activeConnectionCount := by
  cases h with
  | complete hc =>
    obtain ⟨e, b, _, _, _, rfl⟩ := kernelComplete_spec hc
    rfl
  | @recvDone cqe b c now ht hdata _ =>
    rw [(handleRecv_frame ..).choose_spec]
  | disconnectDone ht | writeDone ht =>
    unfold modifyConn
    split <;> rfl
  | @acceptDone cqe b l ht hdata =>
    unfold Worker.acceptDone
    split <;> rfl
  | add file mode buffer now hfd _ =>
    rw [addConnection_eq hfd]
    show w.gActiveConnections + 1 - ((w.activeConnectionCount + 1 : Nat) : Int) = _
    omega
  | @startClose c conn hc =>
    rw [leaveActive_eq]
    by_cases hact : conn.state = .active
    · have hpos : 0 < w.activeConnectionCount := by
        rw [hw.active]
        exact Finset.card_pos.mpr ⟨c, mem_activeConnections hw hc hact⟩
      simp only [setConn, if_pos hact]
      omega
    · simp only [setConn, if_neg hact]
  | closeAccepted hl =>
    rw [foldl_closeFd]
    rfl
  | _ => rfl

/-! ## The re-arm queue -/

/-- Outside `Poll` nothing waits for a re-arm, and only `DrainRecvRearm` has a batch. -/
structure RearmIdle (w : Worker) : Prop where
  queue : w.backend.phase = .idle ∨ w.backend.phase = .rearm → w.recvRearmQueue = []
  batch : w.backend.phase ≠ .rearm → w.rearmBatch = []

theorem RearmIdle.same (h : w.RearmIdle)
    (hphase : w'.backend.phase = w.backend.phase) (hqueue : w'.recvRearmQueue = w.recvRearmQueue)
    (hbatch : w'.rearmBatch = w.rearmBatch) : w'.RearmIdle where
  queue := by
    rw [hphase, hqueue]
    exact h.queue
  batch := by
    rw [hphase, hbatch]
    exact h.batch

theorem RearmIdle.dispatch (h : w.RearmIdle) {cqe : Cqe Tag}
    (ht : Taken w.backend cqe w'.backend) (hbatch : w'.rearmBatch = w.rearmBatch) :
    w'.RearmIdle := by
  obtain ⟨hbefore, hidle, hrearm⟩ := ht.phase
  refine ⟨fun hphase => absurd hphase (by tauto), fun _ => ?_⟩
  rw [hbatch]
  exact h.batch hbefore

theorem Change.rearmIdle (h : Change L D w w') (hw : w.RearmIdle) : w'.RearmIdle := by
  have hsub : ∀ r, (w.backend.submitOrQueue L (.request r)).2.phase = w.backend.phase :=
    fun r => (Backend.submitOrQueue_frame w.backend (.request r)).2.1
  cases h with
  | backend hmove => exact hw.same hmove.frame.2.1 rfl rfl
  | poll hphase =>
    exact ⟨fun hnew => absurd hnew (by simp), fun _ => hw.batch (by simp [hphase])⟩
  | swap hphase _ =>
    exact ⟨fun hnew => absurd hnew (by simp), fun _ => hw.batch (by simp [hphase])⟩
  | startRearm hphase => exact ⟨fun _ => rfl, absurd rfl⟩
  | nextRearm hbatch =>
    refine ⟨hw.queue, fun hphase => ?_⟩
    rw [hw.batch hphase] at hbatch
    cases hbatch
  | endRearm hphase hbatch => exact ⟨fun _ => hw.queue (.inr hphase), fun _ => hbatch⟩
  | complete hc =>
    obtain ⟨e, b, _, hb, _, rfl⟩ := kernelComplete_spec hc
    obtain ⟨_, _, rfl⟩ := map_eq_some_iff.mp hb
    exact { hw with }
  | recvDone now ht =>
    rw [(handleRecv_frame ..).choose_spec]
    exact hw.dispatch ht rfl
  | disconnectDone ht | writeDone ht =>
    unfold modifyConn
    split <;> exact hw.dispatch ht rfl
  | @acceptDone cqe b l ht hdata =>
    unfold Worker.acceptDone
    split <;> exact hw.dispatch ht rfl
  | otherDone ht _ => exact hw.dispatch ht rfl
  | startRecv | startDisconnect | startWrite | startAccept => exact hw.same (hsub _) rfl rfl
  | add file mode buffer now hfd _ =>
    rw [addConnection_eq hfd]
    exact { hw with }
  | startClose hc =>
    rw [leaveActive_eq]
    exact { hw with }
  | closeAccepted hl =>
    rw [foldl_closeFd]
    exact { hw with }
  | _ => exact { hw with }

/-! ## One invariant -/

/-- What holds of a worker between any two changes. -/
structure Sound (w : Worker) : Prop where
  initialized : w.backend.initialized = true
  tagged : Tagged w.backend
  followed : w.backend.Followed
  accounted : w.Accounted
  table : w.Table
  rearm : w.RearmIdle

theorem Change.sound (h : Change L D w w') (hw : w.Sound) : w'.Sound where
  initialized := h.moves.initialized hw.initialized
  tagged := h.effect.tagged hw.tagged
  followed := h.moves.induct (fun _ _ hs hmove => hmove.followed hs) hw.followed
  accounted := h.accounted hw.initialized hw.tagged (hw.table.fresh _ le_rfl) hw.accounted
  table := h.table hw.table
  rearm := h.rearmIdle hw.rearm

theorem fresh_sound (options : Options) (slots : List (Sqe Tag)) (wakeEventFd : Int) :
    (Worker.fresh options slots wakeEventFd).Sound where
  initialized := rfl
  tagged := tagged_fresh slots wakeEventFd
  followed := by
    intro before x after hsplit
    simp [Worker.fresh, Backend.fresh] at hsplit
  accounted c := ⟨fun kind => by cases kind <;> rfl, rfl⟩
  table := ⟨fun _ _ => rfl, rfl, nofun⟩
  rearm := ⟨fun _ => rfl, fun _ => rfl⟩

/-- A step keeps the invariant and the distance between the two counters. -/
theorem step_sound (hw : w.Sound) {a : Action} (hs : w.step L a = some w') :
    w'.Sound ∧ w'.gActiveConnections - w'.activeConnectionCount =
      w.gActiveConnections - w.activeConnectionCount := by
  refine (step_changes (D := fun _ _ => True) hw.initialized (fun _ _ => trivial) hs).induct
    (P := fun v => v.Sound ∧ v.gActiveConnections - v.activeConnectionCount =
      w.gActiveConnections - w.activeConnectionCount) ?_ ⟨hw, rfl⟩
  rintro v v' ⟨hv, heq⟩ hchange
  exact ⟨hchange.sound hv, (hchange.global hv.table).trans heq⟩

/-! ## What counts as a use -/

variable {u : Use}

theorem useKey_of_useOf {data : UserData Tag} {op : Option Nat}
    (hu : useOf data = some u) (hop : op = none → outside data = true) :
    useKey data op = some u := by
  cases hopt : op with
  | none =>
    rw [useOf_outside (hop hopt)] at hu
    cases hu
  | some i => exact hu

theorem Sound.entry_mem_uses (hw : w.Sound) {e : Entry Tag}
    (he : e ∈ w.backend.unsubmitted ++ w.backend.kernel)
    (hu : useOf e.sqe.userData = some u) : u ∈ w.uses :=
  Backend.mem_unfinished.mpr
    (.inl ⟨e, he, useKey_of_useOf hu (hw.tagged.entries e he).nop⟩)

theorem Sound.cqe_mem_uses (hw : w.Sound) {x : Cqe Tag} (hx : x ∈ w.backend.cq)
    (hu : useOf x.userData = some u) : u ∈ w.uses :=
  hw.followed.mem_unfinished hx (useKey_of_useOf hu (hw.tagged.cq x hx).nop)

theorem Sound.pending_mem_uses (hw : w.Sound) {p : PendingCompletion Tag}
    (hp : p ∈ w.backend.pendingCompletions ++ w.backend.phase.batch)
    (hu : useOf p.userData = some u) : u ∈ w.uses :=
  Backend.mem_unfinished.mpr
    (.inr (.inr ⟨p, hp, useKey_of_useOf hu (hw.tagged.pending p hp).nop⟩))

theorem reachable_sound {ok : Worker → Action → Prop}
    (h : (system L).ReachableUnder ok w) : w.Sound := by
  refine h.invariant (P := Sound) ?_ fun w a w' hw _ hs => (step_sound hw hs).1
  rintro w ⟨options, slots, wakeEventFd, rfl⟩
  exact fresh_sound options slots wakeEventFd

/-- The connection of a use is in the table, with the flag of the operation set. -/
theorem Sound.armed (hw : w.Sound) {kind : UseKind} (hmem : ⟨kind, c⟩ ∈ w.uses) :
    ∃ conn, w.connections c = some conn ∧ conn.books.armed kind = true := by
  have hcount := (hw.accounted c).armed kind
  have hpos : w.uses.count ⟨kind, c⟩ ≠ 0 := Multiset.count_ne_zero.mpr hmem
  rw [hcount] at hpos
  rcases hc : w.connections c with _ | conn
  · rw [hc] at hpos
    exact absurd rfl hpos
  rw [hc] at hpos
  refine ⟨conn, rfl, ?_⟩
  cases harmed : conn.books.armed kind with
  | true => rfl
  | false =>
    refine absurd ?_ hpos
    show (conn.books.armed kind).toNat = 0
    rw [harmed]
    rfl

/-! ## What reclaiming takes away -/

/-- The tag of an operation names the connection. -/
def names (c : ConnPtr) (data : UserData Tag) : Prop := (useOf data).map Use.connection = some c

/-- Nothing in the worker refers to connection `c`, whose record is `conn`. -/
structure Unreferenced (w : Worker) (c : ConnPtr) (conn : Connection) : Prop where
  queued : ∀ e ∈ w.backend.sq ++ w.backend.pendingIo, ¬names c e.sqe.userData
  kernel : ∀ e ∈ w.backend.kernel, ¬names c e.sqe.userData
  undispatched : ∀ x ∈ w.backend.cq, ¬names c x.userData
  deferred : ∀ p ∈ w.backend.pendingCompletions ++ w.backend.phase.batch, ¬names c p.userData
  rearm : c ∉ w.recvRearmQueue ++ w.rearmBatch
  reader : conn.readWaiter = none
  borrows : conn.storageBorrows = 0

theorem unreferenced_of_canReclaim (hw : w.Sound) (hphase : w.backend.phase = .idle)
    (hc : w.connections c = some conn)
    (hcan : conn.canReclaim = true) : w.Unreferenced c conn := by
  have hcounted := hw.accounted c
  rw [hc] at hcounted
  have hbooks := books_of_canReclaim hcan hcounted
  -- the books say that no use is left
  have hfree : ∀ u : Use, u.connection = c → u ∉ w.uses := by
    rintro ⟨kind, c'⟩ rfl hmem
    obtain ⟨conn', hc', harmed⟩ := hw.armed hmem
    obtain rfl : conn = conn' := some.inj (hc.symm.trans hc')
    rw [hbooks] at harmed
    cases harmed
  have hentry : ∀ e ∈ w.backend.unsubmitted ++ w.backend.kernel, ¬names c e.sqe.userData := by
    intro e he hname
    obtain ⟨u, hu, hcu⟩ := map_eq_some_iff.mp hname
    exact hfree u hcu (hw.entry_mem_uses he hu)
  have hcan' := hcan
  simp only [Connection.canReclaim, and_eq_true, decide_eq_true_eq] at hcan'
  obtain ⟨⟨⟨⟨⟨⟨⟨_, _⟩, hborrow⟩, hreader⟩, _⟩, _⟩, _⟩, _⟩ := hcan'
  refine ⟨?_, ?_, ?_, ?_, ?_, Option.isNone_iff_eq_none.mp hreader, hborrow⟩
  · exact fun e he => hentry e (mem_append_left _ he)
  · exact fun e he => hentry e (mem_append_right _ he)
  · intro x hx hname
    obtain ⟨u, hu, hcu⟩ := map_eq_some_iff.mp hname
    exact hfree u hcu (hw.cqe_mem_uses hx hu)
  · intro p hp hname
    obtain ⟨u, hu, hcu⟩ := map_eq_some_iff.mp hname
    exact hfree u hcu (hw.pending_mem_uses hp hu)
  · rw [hw.rearm.queue (.inl hphase), hw.rearm.batch (by simp [hphase])]
    exact not_mem_nil

/-- What `ReclaimConnections` erases could be reclaimed when it started. -/
theorem reclaimLoop_erased (ids still : List ConnPtr)
    (hinactive : ∀ d ∈ ids, isActive (w.connections d) = false)
    (hc : w.connections c = some conn) (hgone : (reclaimLoop ids still w).connections c = none) :
    conn.canReclaim = true := by
  induction ids generalizing still w conn with
  | nil =>
    rw [show (reclaimLoop [] still w).connections c = w.connections c from rfl, hc] at hgone
    cases hgone
  | cons d ids ih =>
    have hrest : ∀ d' ∈ ids, isActive (w.connections d') = false :=
      fun d' hd' => hinactive d' (mem_cons_of_mem d hd')
    unfold reclaimLoop at hgone
    split at hgone
    next => exact ih still hrest hc hgone
    rename_i other hd
    by_cases heq : c = d
    · subst heq
      obtain rfl : other = conn := some.inj (hd.symm.trans hc)
      split at hgone
      next hcan => exact hcan
      rename_i hcan
      -- visited again, its state is the only thing that changed
      have hstate : other.state ≠ .active := by
        have hold := hinactive c mem_cons_self
        rw [hc] at hold
        exact of_decide_eq_false hold
      have hagain := ih (still ++ [c]) (inactive_update hrest rfl)
        (setConn_self ..) hgone
      simpa [Connection.canReclaim, hstate] using hagain
    · split at hgone
      · exact ih still (inactive_update hrest rfl)
          ((eraseConn_of_ne heq w).trans hc) hgone
      · exact ih (still ++ [d]) (inactive_update hrest rfl)
          ((setConn_of_ne heq _ w).trans hc) hgone

theorem Table.erased (h : w.Table)
    (hc : w.connections c = some conn) (hgone : w.reclaimConnections.connections c = none) :
    conn.canReclaim = true :=
  reclaimLoop_erased _ [] (fun d hd => (h.retired d hd).2) hc hgone

/-- The receive, disconnect-poll and send operations of a connection without a terminal
    completion. -/
def inflight (w : Worker) (c : ConnPtr) : Nat := w.uses.countP fun u => u.connection = c

theorem countP_connection (uses : Multiset Use) (c : ConnPtr) :
    uses.countP (fun u => u.connection = c) =
      uses.count ⟨.recv, c⟩ + uses.count ⟨.disconnect, c⟩ + uses.count ⟨.send, c⟩ := by
  induction uses using Multiset.induction_on with
  | empty => rfl
  | cons u uses ih =>
    obtain ⟨kind, c'⟩ := u
    by_cases heq : c' = c
    · subst heq
      rw [Multiset.countP_cons, if_pos rfl, ih]
      cases kind <;> simp <;> omega
    rw [Multiset.countP_cons, if_neg heq, ih]
    simp [Ne.symm heq]

theorem Sound.inflight (hw : w.Sound)
    (hc : w.connections c = some conn) : conn.inflightOps = w.inflight c := by
  have hcounted := hw.accounted c
  rw [hc] at hcounted
  rw [Worker.inflight, countP_connection, hcounted.armed, hcounted.armed, hcounted.armed]
  exact hcounted.inflightOps

theorem Table.mem_activeConnections (h : w.Table) (c : ConnPtr) :
    c ∈ w.activeConnections ↔ ∃ conn, w.connections c = some conn ∧ conn.state = .active := by
  constructor
  · intro hmem
    have hact := (Finset.mem_filter.mp hmem).2
    rcases hc : w.connections c with _ | conn
    · rw [hc] at hact
      cases hact
    rw [hc] at hact
    exact ⟨conn, rfl, of_decide_eq_true hact⟩
  · rintro ⟨conn, hc, hstate⟩
    exact Worker.mem_activeConnections h hc hstate

end Worker

/-! ## All workers -/

/-- The workers of a process, with the counter they share. -/
structure Runtime (n : Nat) where
  workers : Fin n → Worker
  gActiveConnections : Int

namespace Runtime

variable {n : Nat}

/-- Worker `i` makes a step. -/
def step (L : Liburing Tag) (rt : Runtime n) (i : Fin n) (a : Worker.Action) : Option (Runtime n) :=
  (({ rt.workers i with gActiveConnections := rt.gActiveConnections } : Worker).step L a).map
    fun w => ⟨Function.update rt.workers i w, w.gActiveConnections⟩

/-- Every run of a process with `n` workers. -/
def system (L : Liburing Tag) (n : Nat) : System (Runtime n) (Fin n × Worker.Action) where
  init rt :=
    (∀ i, ∃ options slots wakeEventFd, rt.workers i = Worker.fresh options slots wakeEventFd) ∧
      rt.gActiveConnections = 0
  step rt a := rt.step L a.1 a.2

/-- Every worker is sound, and the shared counter is the sum of their own. -/
structure Sound (rt : Runtime n) : Prop where
  workers : ∀ i, (rt.workers i).Sound
  global : rt.gActiveConnections = ∑ i, ((rt.workers i).activeConnectionCount : Int)

theorem sum_update (f : Fin n → Int) (i : Fin n) (x : Int) :
    ∑ j, update f i x j = ∑ j, f j + (x - f i) := by
  rw [Finset.sum_update_of_mem (Finset.mem_univ i),
    Finset.sum_eq_add_sum_sdiff_singleton_of_mem (Finset.mem_univ i) f]
  omega

/-- The shared counter belongs to no worker. -/
theorem worker_sound {w : Worker} (hw : w.Sound) (g : Int) :
    Worker.Sound { w with gActiveConnections := g } :=
  { hw with table := { hw.table with }, rearm := { hw.rearm with } }

theorem step_sound {rt rt' : Runtime n} (hrt : rt.Sound) {i : Fin n} {a : Worker.Action}
    (hs : rt.step L i a = some rt') : rt'.Sound := by
  obtain ⟨w, hw, rfl⟩ := map_eq_some_iff.mp hs
  obtain ⟨hsound, hcount⟩ :=
    Worker.step_sound (worker_sound (hrt.workers i) rt.gActiveConnections) hw
  constructor
  · intro j
    by_cases hj : j = i
    · subst hj
      simpa only [update_self] using hsound
    · simpa only [update_of_ne hj] using hrt.workers j
  · have hsum := sum_update (fun j => ((rt.workers j).activeConnectionCount : Int)) i
      w.activeConnectionCount
    have hcongr : ∀ j, ((update rt.workers i w j).activeConnectionCount : Int) =
        update (fun j => ((rt.workers j).activeConnectionCount : Int)) i
          w.activeConnectionCount j :=
      fun j => apply_update (fun _ v => (v.activeConnectionCount : Int)) rt.workers i w j
    simp only [hcongr, hsum, ← hrt.global]
    have hcount' : w.gActiveConnections - w.activeConnectionCount =
      rt.gActiveConnections - (rt.workers i).activeConnectionCount := hcount
    omega

theorem reachable_sound {rt : Runtime n} (h : (system L n).Reachable rt) : rt.Sound := by
  refine Reachable.invariant (P := Sound) ?_ (fun _ _ _ hrt hs => step_sound hrt hs) h
  rintro rt ⟨hfresh, hglobal⟩
  constructor
  · intro i
    obtain ⟨options, slots, wakeEventFd, hi⟩ := hfresh i
    rw [hi]
    exact Worker.fresh_sound options slots wakeEventFd
  · rw [hglobal]
    symm
    refine Finset.sum_eq_zero fun i _ => ?_
    obtain ⟨options, slots, wakeEventFd, hi⟩ := hfresh i
    rw [hi]
    rfl

/-- **The counters are exact and `ReclaimConnections` erases only what nothing refers to.**  In
    every reachable state of any number of workers: `inflight_ops_` counts the receives, disconnect
    polls and sends of the connection without a terminal completion, each `active_connection_count_`
    the active entries of the table, and the shared counter is their sum; and whatever connection a
    worker's `ReclaimConnections` erases is named by no queued, in-kernel or undispatched operation,
    is in no re-arm queue, and has no reader and no borrow. -/
theorem reachable_reclaims_unreferenced {rt : Runtime n} (h : (system L n).Reachable rt) :
    (∀ i c conn, (rt.workers i).connections c = some conn →
      conn.inflightOps = (rt.workers i).inflight c) ∧
    (∀ i, ∃ active : Finset ConnPtr, (∀ c, c ∈ active ↔
        ∃ conn, (rt.workers i).connections c = some conn ∧ conn.state = .active) ∧
      (rt.workers i).activeConnectionCount = active.card) ∧
    rt.gActiveConnections = ∑ i, ((rt.workers i).activeConnectionCount : Int) ∧
    (∀ i rt', rt.step L i .reclaimConnections = some rt' →
      ∀ c conn, (rt.workers i).connections c = some conn →
        (rt'.workers i).connections c = none → (rt.workers i).Unreferenced c conn) := by
  have hsound := reachable_sound h
  refine ⟨fun i c conn hc => (hsound.workers i).inflight hc, fun i => ?_, hsound.global, ?_⟩
  · have htable := (hsound.workers i).table
    exact ⟨_, htable.mem_activeConnections, htable.active⟩
  · intro i rt' hs c conn hc hgone
    obtain ⟨w, hw, rfl⟩ := map_eq_some_iff.mp hs
    obtain ⟨hphase, hw⟩ : (rt.workers i).backend.phase = .idle ∧
        Worker.reclaimConnections { rt.workers i with gActiveConnections := _ } = w := by
      simpa [Worker.step] using hw
    refine Worker.unreferenced_of_canReclaim (hsound.workers i) hphase hc ?_
    refine (worker_sound (hsound.workers i) rt.gActiveConnections).table.erased hc ?_
    rw [← hw] at hgone
    simpa only [update_self] using hgone

/-- Two workers; the second closes a connection while its send is in the kernel, and reclaims it
    once the completion has been dispatched. -/
def closeDuringSend : List (Fin 2 × Worker.Action) :=
  List.map (Prod.mk (Fin.last 1))
    [.socket 7, .addConnection ⟨7, 0, false⟩ .multishot 0 1, .write 1 ⟨0, 5⟩, .submit 1 1,
      .beginClose 1 Status.okStatus .localClose, .reclaimConnections, .complete 0 5 false none,
      .poll, .reap false 2, .reap false 2, .deferred false 2, .rearm]

theorem reachable_reclaims_unreferenced_demo : ∃ rt rt' conn, (system (Liburing.standard Tag) 2).run
        ⟨fun _ => Worker.fresh ⟨true, 1, 64, 0, fun _ => Status.mk .unknown⟩ [Sqe.zero] 3, 0⟩
        closeDuringSend = some rt ∧
      (rt.workers 1).connections 1 = some conn ∧ conn.state = .draining ∧
      rt.step (Liburing.standard Tag) 1 .reclaimConnections = some rt' ∧
      (rt'.workers 1).connections 1 = none ∧ (rt.workers 1).Unreferenced 1 conn := by
  have hinit : (system (Liburing.standard Tag) 2).Reachable
      ⟨fun _ => Worker.fresh ⟨true, 1, 64, 0, fun _ => Status.mk .unknown⟩ [Sqe.zero] 3, 0⟩ :=
    .init ⟨fun _ => ⟨_, _, _, rfl⟩, rfl⟩
  refine ⟨_, _, _, rfl, rfl, rfl, rfl, rfl, ?_⟩
  exact (reachable_reclaims_unreferenced (hinit.run closeDuringSend rfl)).2.2.2 1 _ rfl 1 _ rfl rfl

end Runtime

end Bycorf.Net
