/-
  What a step of the worker can do, said once.

  As `Moves` does for the backend, this lists the elementary CHANGES of a worker: an inner move of
  the backend that names nothing of the tables, a submission together with the flag and the
  counter it sets, a completion taken from its queue together with the record its handler updates,
  and updates of the tables alone.  `Net.Steps` decomposes every step into changes; the invariants
  about references, buffers and descriptors are then each ONE case analysis over `Change`.

  1. **Harmless submissions** — what is accepted without a word in the tables.
  2. **`Change`** — the elementary changes, with what the code has checked before each.
  3. **The backend** — under a change it makes moves of its own (`Change.moves`).
-/
import Bycorf.Net.Worker
import Bycorf.IoUring.Contents

namespace Bycorf.Net

open IoUring Lib

/-! ## Harmless submissions -/

/-- The tag names nothing of the connection layer. -/
def outside : UserData Tag → Bool
  | .recv _ | .peerDisconnect _ | .completion (.write _) | .completion (.accept _) => false
  | _ => true

/-- A submission with a tag from outside, on a descriptor that may be used or on the one that
    wakes the worker. -/
def Harmless (owner : Int → Owner) (wakeEventFd : Int) : Submission Tag → Prop
  | .request r =>
    outside r.userData = true ∧
      ∀ fd, Worker.rawFd r = some fd → (owner fd).usable = true ∨ fd = wakeEventFd
  | .cancel _ completion => outside completion = true

/-! ## The elementary changes -/

namespace Connection

/-- Two records agree on everything that closing, counting and the receive buffers depend on. -/
structure Agree (conn conn' : Connection) : Prop where
  file : conn'.file = conn.file := by rfl
  inflightOps : conn'.inflightOps = conn.inflightOps := by rfl
  state : conn'.state = conn.state := by rfl
  closing : conn'.closing = conn.closing := by rfl
  closed : conn'.closed = conn.closed := by rfl
  writeInflight : conn'.writeInflight = conn.writeInflight := by rfl
  recvArmed : conn'.recvArmed = conn.recvArmed := by rfl
  retired : conn'.retired = conn.retired := by rfl
  pollArmed : conn'.peerDisconnectPollArmed = conn.peerDisconnectPollArmed := by rfl
  receivedBuffers : conn'.receivedBuffers = conn.receivedBuffers := by rfl

/-- An update of the other fields: a reader is registered or taken as a whole, and the receive
    mode changes only while nothing is received. -/
structure Tame (conn conn' : Connection) : Prop extends Agree conn conn' where
  reader :
    conn.readInflight = conn.readWaiter.isSome → conn'.readInflight = conn'.readWaiter.isSome := by
      exact id
  mode : conn'.recvMode = conn.recvMode ∨ (conn.recvArmed = false ∧ conn.receivedBuffers = []) := by
      exact Or.inl rfl

end Connection

/-- A listener update that leaves the descriptors alone. -/
structure Listener.Tame (lst lst' : Listener) : Prop where
  fd : lst'.fd = lst.fd ∨ lst'.fd < 0
  acceptedFds : lst'.acceptedFds = lst.acceptedFds

/-- A completion leaves its queue for dispatch. -/
inductive Taken : Backend Tag → Cqe Tag → Backend Tag → Prop where
  | reap {s : Backend Tag} {cqe : Cqe Tag} {cq : List (Cqe Tag)} :
      s.phase = .reap → s.cq = cqe :: cq →
      Taken s cqe { s with cq := cq, calls := s.calls ++ [cqe] }
  | deferred {s : Backend Tag} {c : PendingCompletion Tag} {batch : List (PendingCompletion Tag)} :
      s.phase = .deferred (c :: batch) →
      Taken s c.cqe { s with phase := .deferred batch, calls := s.calls ++ [c.cqe] }

theorem Taken.move {L : Liburing Tag} {s b : Backend Tag} {cqe : Cqe Tag} (h : Taken s cqe b) :
    Backend.Move L s b := by
  cases h with
  | reap _ hcq => exact .reap hcq
  | deferred hphase => exact .deferred (by rw [hphase]; rfl)

namespace Worker

variable (L : Liburing Tag) (D : (ConnPtr → Option Connection) → Cqe Tag → Prop)

/-- No unsubmitted socket operation names the descriptor. -/
def NoRaw (fd : Int) (s : Backend Tag) : Prop :=
  ∀ e ∈ s.unsubmitted, Backend.onRawFd fd e.sqe = false

/-- The ids among `ids` that `ReleaseRecvBuffer` puts back into the buffer ring. -/
def recyclable (w : Worker) (conn : Connection) (ids : List UInt16) : List UInt16 :=
  if conn.useMultishot w.options then
    ids.filter fun id => id.toNat < w.options.recvBufferCount
  else []

/-- The buffer that `RecycleMultishotBuffer` puts back, if any. -/
def recycled (w : Worker) (buffer : Option UInt16) : List UInt16 :=
  buffer.toList.filter fun id =>
    w.options.recvMultishotEnabled && decide (id.toNat < w.options.recvBufferCount)

/-- The elementary changes, when every receive completion that is dispatched satisfies `D`. -/
inductive Change : Worker → Worker → Prop where
  -- the backend alone
  | backend {w : Worker} {b : Backend Tag} :
      Backend.Inner L (Harmless w.owner w.backend.wakeEventFd) w.backend b →
      Change w { w with backend := b }
  | ring {w : Worker} :
      Change w { w with backend := { w.backend with
        cq := w.backend.cq ++ [⟨.crossCoreWake, 0, false, none, none⟩] } }
  -- the stages of `Poll`
  | poll {w : Worker} :
      w.backend.phase = .idle →
      Change w { w with backend := { w.backend with phase := .reap } }
  | swap {w : Worker} :
      w.backend.phase = .reap → w.backend.cq = [] →
      Change w { w with backend := { w.backend with
        phase := .deferred w.backend.pendingCompletions, pendingCompletions := [] } }
  | startRearm {w : Worker} :
      w.backend.phase = .deferred [] →
      Change w { w with
        backend := { w.backend with phase := .rearm }
        rearmBatch := w.recvRearmQueue
        recvRearmQueue := [] }
  | nextRearm {w : Worker} {c : ConnPtr} {batch : List ConnPtr} :
      w.rearmBatch = c :: batch → Change w { w with rearmBatch := batch }
  | endRearm {w : Worker} :
      w.backend.phase = .rearm → w.rearmBatch = [] →
      Change w { w with backend := { w.backend with phase := .idle } }
  -- the kernel
  | complete {w w' : Worker} {i : Nat} {res : Int} {more : Bool} {buffer : Option UInt16} :
      w.kernelComplete i res more buffer = some w' → Change w w'
  -- dispatch
  | recvDone {w : Worker} {cqe : Cqe Tag} {b : Backend Tag} {c : ConnPtr} (now : Int) :
      Taken w.backend cqe b → cqe.userData = .recv c → D w.connections cqe →
      Change w (({ w with backend := b } : Worker).handleRecv c now cqe)
  | disconnectDone {w : Worker} {cqe : Cqe Tag} {b : Backend Tag} {c : ConnPtr} :
      Taken w.backend cqe b → cqe.userData = .peerDisconnect c →
      Change w (({ w with backend := b } : Worker).modifyConn c
        fun conn => (conn.handlePeerDisconnect cqe).2)
  | writeDone {w : Worker} {cqe : Cqe Tag} {b : Backend Tag} {c : ConnPtr} :
      Taken w.backend cqe b → cqe.userData = .completion (.write c) →
      Change w (({ w with backend := b } : Worker).modifyConn c Connection.writeComplete)
  | acceptDone {w : Worker} {cqe : Cqe Tag} {b : Backend Tag} {l : Nat} :
      Taken w.backend cqe b → cqe.userData = .completion (.accept l) →
      Change w (({ w with backend := b } : Worker).acceptDone l cqe.res cqe.more)
  | otherDone {w : Worker} {cqe : Cqe Tag} {b : Backend Tag} :
      Taken w.backend cqe b → outside cqe.userData = true → Change w { w with backend := b }
  -- submissions of the connection layer
  | startRecv {w : Worker} {c : ConnPtr} {conn : Connection} :
      w.connections c = some conn → conn.recvArmed = false → conn.closed = false →
      (conn.useMultishot w.options = false → conn.receivedBuffers = []) →
      Change w { w.setConn c { conn with
          recvArmed := true, inflightOps := conn.inflightOps + 1 } with
        backend := (w.backend.submitOrQueue L
          (.request (.recv c conn.file (conn.useMultishot w.options) conn.readBuffer))).2 }
  | startDisconnect {w : Worker} {c : ConnPtr} {conn : Connection} :
      w.connections c = some conn → conn.peerDisconnectPollArmed = false → conn.closed = false →
      Change w { w.setConn c { conn with
          peerDisconnectPollArmed := true
          peerDisconnectPollCancelRequested := false
          inflightOps := conn.inflightOps + 1 } with
        backend := (w.backend.submitOrQueue L (.request (.peerDisconnectPoll c conn.file))).2 }
  | startWrite {w : Worker} {c : ConnPtr} {conn : Connection} {r : Request Tag} :
      w.connections c = some conn → conn.writeInflight = false → conn.closed = false →
      ((∃ buffer, r = .send conn.file buffer (some (.write c))) ∨
        ∃ message, r = .sendMsg conn.file message (some (.write c))) →
      Change w { w.setConn c { conn with
          writeInflight := true, inflightOps := conn.inflightOps + 1 } with
        backend := (w.backend.submitOrQueue L (.request r)).2 }
  | startAccept {w : Worker} {l : Nat} {lst : Listener} :
      w.listeners l = some lst → 0 ≤ lst.fd →
      Change w { w.setListener l { lst with armed := true } with
        backend := (w.backend.submitOrQueue L
          (.request (.acceptMultishot lst.fd (some (.accept l))))).2 }
  -- the connection table
  | touch {w : Worker} {c : ConnPtr} {conn conn' : Connection} :
      w.connections c = some conn → conn.Tame conn' → Change w (w.setConn c conn')
  | add {w : Worker} (file : RegisteredFile) (mode : RecvMode) (buffer : UInt64) (now : Int) :
      validFd file.fd = true → w.owner file.fd = .held →
      Change w (w.addConnection (Connection.fresh file mode buffer) now).2
  | startClose {w : Worker} {c : ConnPtr} {conn : Connection} :
      w.connections c = some conn →
      Change w ((w.leaveActive conn).setConn c { conn with closing := true, state := .closing })
  | closeFd {w : Worker} {c : ConnPtr} {conn : Connection} :
      w.connections c = some conn → 0 ≤ conn.file.fd →
      (isDpdkSocket conn.file.fd = false → NoRaw conn.file.fd w.backend) →
      Change w ((w.setConn c { conn with
        file := { conn.file with fd := -1 }, closed := true }).closeFd conn.file.fd)
  | markClosed {w : Worker} {c : ConnPtr} {conn : Connection} :
      w.connections c = some conn → conn.file.fd < 0 →
      Change w (w.setConn c { conn with closed := true })
  | release {w : Worker} {c : ConnPtr} {conn : Connection} {ids : List UInt16}
      {rest : List ReceivedBuffer} :
      w.connections c = some conn →
      conn.receivedBuffers.map ReceivedBuffer.bufferId = ids ++ rest.map ReceivedBuffer.bufferId →
      Change w { w.setConn c { conn with receivedBuffers := rest } with
        bufferRing := w.bufferRing ++ w.recyclable conn ids
        returned := w.returned ++ (w.recyclable conn ids).map fun id => (c, id) }
  | retire {w : Worker} {c : ConnPtr} {conn : Connection} (state : ConnectionState) :
      w.connections c = some conn → conn.state ≠ .active → state ≠ .active →
      conn.receivedBuffers = [] →
      Change w { w.setConn c { conn with retired := true, closing := true, state := state } with
        retiredConnectionIds := w.retiredConnectionIds ++ [c] }
  | reclaim {w : Worker} {c : ConnPtr} {conn : Connection} :
      w.backend.phase = .idle → w.connections c = some conn → conn.canReclaim = true →
      Change w (w.eraseConn c)
  | drain {w : Worker} {c : ConnPtr} {conn : Connection} :
      c ∈ w.retiredConnectionIds → w.connections c = some conn →
      Change w (w.setConn c { conn with state := .draining })
  | keepRetired {w : Worker} {ids : List ConnPtr} :
      (∀ c ∈ ids, c ∈ w.retiredConnectionIds) →
      (∀ c ∈ w.retiredConnectionIds, w.connections c ≠ none → c ∈ ids) →
      Change w { w with retiredConnectionIds := ids }
  -- the listeners
  | touchListener {w : Worker} {l : Nat} {lst lst' : Listener} :
      w.listeners l = some lst → lst.Tame lst' → Change w (w.setListener l lst')
  | bind {w : Worker} {fd : Int} :
      validFd fd = true → w.owner fd = .held → Change w (w.bindListener fd)
  | handOut {w : Worker} {l : Nat} {lst : Listener} {fd : Int} {fds : List Int} :
      w.listeners l = some lst → lst.acceptedFds = fd :: fds →
      Change w { w.setListener l { lst with acceptedFds := fds } with
        owner := Function.update w.owner fd .held }
  | closeAccepted {w : Worker} {l : Nat} {lst : Listener} :
      w.listeners l = some lst →
      Change w ((lst.acceptedFds.foldl (fun w fd => w.closeFd fd) w).setListener l
        { lst with acceptedFds := [] })
  | closeListenFd {w : Worker} {l : Nat} {lst : Listener} :
      w.listeners l = some lst → 0 ≤ lst.fd →
      (isDpdkSocket lst.fd = false → NoRaw lst.fd w.backend) →
      Change w ((w.setListener l { lst with closed := true, fd := -1 }).closeFd lst.fd)
  -- the rest
  | ready {w : Worker} (ready : List Nat) : Change w { w with ready := ready }
  | environment {w : Worker} {fd : Int} {o : Owner} :
      (w.owner fd = .free ∧ (o = .held ∧ validFd fd = true ∨ o = .elsewhere)) ∨
        (w.owner fd = .elsewhere ∧ o = .free) →
      Change w { w with owner := Function.update w.owner fd o }

/-- A sequence of changes. -/
def Changes : Worker → Worker → Prop := Relation.ReflTransGen (Change L D)

variable {L D} {w w' : Worker}

theorem Change.changes (h : Change L D w w') : Changes L D w w' := Relation.ReflTransGen.single h

theorem Changes.refl (w : Worker) : Changes L D w w := Relation.ReflTransGen.refl

theorem Changes.trans {w'' : Worker} (h : Changes L D w w') (h' : Changes L D w' w'') :
    Changes L D w w'' :=
  Relation.ReflTransGen.trans h h'

/-- A property kept by every change is kept by a sequence of them. -/
theorem Changes.induct {P : Worker → Prop} (hchange : ∀ w w', P w → Change L D w w' → P w')
    (h : Changes L D w w') (hw : P w) : P w' := by
  induction h with
  | refl => exact hw
  | tail _ hlast ih => exact hchange _ _ ih hlast

/-! ## The backend under a change -/

/-- Closing a list of descriptors. -/
theorem foldl_closeFd (fds : List Int) (w : Worker) : fds.foldl (fun w fd => w.closeFd fd) w =
      { w with
        owner := fun f => if f ∈ fds then .free else w.owner f
        closedAt := fun f => if f ∈ fds then w.backend.nextOp else w.closedAt f } := by
  induction fds generalizing w with
  | nil => simp
  | cons fd fds ih =>
    rw [foldl_cons, ih]
    simp only [closeFd, Function.update_apply, mem_cons]
    congr 1 <;> funext f <;> by_cases hf : f = fd <;> simp [hf]

@[simp] theorem setConn_backend (c : ConnPtr) (conn : Connection) (w : Worker) :
    (w.setConn c conn).backend = w.backend := rfl

@[simp] theorem setListener_backend (l : Nat) (lst : Listener) (w : Worker) :
    (w.setListener l lst).backend = w.backend := rfl

@[simp] theorem leaveActive_backend (conn : Connection) (w : Worker) :
    (w.leaveActive conn).backend = w.backend := by
  unfold leaveActive
  split <;> rfl

theorem modifyConn_frame (c : ConnPtr) (f : Connection → Connection) (w : Worker) :
    ∃ conns, w.modifyConn c f = { w with connections := conns } := by
  unfold modifyConn
  split
  · exact ⟨w.connections, rfl⟩
  · exact ⟨_, rfl⟩

theorem acceptDone_frame (l : Nat) (res : Int) (more : Bool) (w : Worker) :
    ∃ listeners, w.acceptDone l res more = { w with listeners := listeners } := by
  unfold acceptDone
  split
  · exact ⟨w.listeners, rfl⟩
  · exact ⟨_, rfl⟩

@[simp] theorem modifyConn_backend (c : ConnPtr) (f : Connection → Connection) (w : Worker) :
    (w.modifyConn c f).backend = w.backend := by
  rw [(modifyConn_frame ..).choose_spec]

@[simp] theorem acceptDone_backend (l : Nat) (res : Int) (more : Bool) (w : Worker) :
    (w.acceptDone l res more).backend = w.backend := by
  rw [(acceptDone_frame ..).choose_spec]

/-- `HandleMultishotRecv` on a connection in the table, as one update. -/
theorem handleRecv_some {c : ConnPtr} {conn : Connection}
    (hc : w.connections c = some conn) (now : Int) (cqe : Cqe Tag) :
    w.handleRecv c now cqe =
      let effect := conn.handleMultishotRecv w.options now cqe
      { w.setConn c effect.conn with
        given := w.given ++ (cqe.buffer.map fun buffer => (c, buffer)).toList
        recvRearmQueue := if effect.rearm then w.recvRearmQueue ++ [c] else w.recvRearmQueue
        bufferRing := w.bufferRing ++ w.recycled effect.recycle
        returned := w.returned ++ (w.recycled effect.recycle).map fun id => (c, id)
        ready := w.ready ++ effect.resume.toList } := by
  unfold handleRecv
  rw [hc]
  dsimp only
  rcases hrec : (conn.handleMultishotRecv w.options now cqe).recycle with _ | buffer
  · simp [recycled, enqueue, setConn]
  by_cases hok : w.options.recvMultishotEnabled = true ∧ buffer.toNat < w.options.recvBufferCount
  · simp [recycled, enqueue, recycleMultishotBuffer, setConn, hok]
  have hno : (w.options.recvMultishotEnabled &&
      decide (buffer.toNat < w.options.recvBufferCount)) = false := by
    simpa [Bool.and_eq_false_iff] using hok
  simp [recycled, enqueue, recycleMultishotBuffer, setConn, hok, hno]

theorem handleRecv_none {c : ConnPtr} (hc : w.connections c = none) (now : Int)
    (cqe : Cqe Tag) : w.handleRecv c now cqe = w := by
  unfold handleRecv
  rw [hc]

section

variable (c : ConnPtr) (now : Int) (cqe : Cqe Tag) (w : Worker)

/-- What a receive completion leaves alone. -/
theorem handleRecv_frame : ∃ v : Worker, w.handleRecv c now cqe =
      { w with
        connections := v.connections
        given := v.given
        recvRearmQueue := v.recvRearmQueue
        bufferRing := v.bufferRing
        returned := v.returned
        ready := v.ready } := by
  refine ⟨w.handleRecv c now cqe, ?_⟩
  cases hc : w.connections c with
  | none => rw [handleRecv_none hc]
  | some conn => rw [handleRecv_some hc]; rfl

@[simp] theorem handleRecv_backend : (w.handleRecv c now cqe).backend = w.backend := by
  rw [(handleRecv_frame ..).choose_spec]

end

@[simp] theorem addConnection_backend (conn : Connection) (now : Int) (w : Worker) :
    (w.addConnection conn now).2.backend = w.backend := by
  unfold addConnection
  split <;> rfl

/-- What the kernel's completion does, with what it was allowed to. -/
theorem kernelComplete_spec {i : Nat} {res : Int} {more : Bool}
    {buffer : Option UInt16} (h : w.kernelComplete i res more buffer = some w') :
    ∃ e b, w.backend.kernel[i]? = some e ∧ w.backend.complete i res more buffer = some b ∧
      w.kernelMay e res more buffer = true ∧
      w' = { w with
        backend := b
        bufferRing := w.bufferRing.filter fun b => buffer ≠ some b
        owner :=
          if e.sqe.opcode = .accept ∧ 0 ≤ res then
            Function.update w.owner res
              (match e.sqe.userData with
              | .completion (.accept l) => .queued l
              | _ => .held)
          else w.owner } := by
  unfold kernelComplete at h
  split at h
  next e b he hb =>
    obtain ⟨hmay, heq⟩ := ite_none_right_eq_some.mp h
    exact ⟨e, b, he, hb, hmay, (some.inj heq).symm⟩
  next => cases h

/-- What the connection layer submits under tags of its own, and what it has checked before. -/
inductive Starts (w : Worker) : Request Tag → Prop where
  | recv {c : ConnPtr} {conn : Connection} :
      w.connections c = some conn → conn.closed = false →
      Starts w (.recv c conn.file (conn.useMultishot w.options) conn.readBuffer)
  | disconnect {c : ConnPtr} {conn : Connection} :
      w.connections c = some conn → conn.closed = false →
      Starts w (.peerDisconnectPoll c conn.file)
  | send {c : ConnPtr} {conn : Connection} (buffer : Span) :
      w.connections c = some conn → conn.closed = false →
      Starts w (.send conn.file buffer (some (.write c)))
  | sendMsg {c : ConnPtr} {conn : Connection} (message : UInt64) :
      w.connections c = some conn → conn.closed = false →
      Starts w (.sendMsg conn.file message (some (.write c)))
  | accept {l : Nat} {lst : Listener} :
      w.listeners l = some lst → 0 ≤ lst.fd →
      Starts w (.acceptMultishot lst.fd (some (.accept l)))

/-- The submissions a change can make. -/
def Accepts (w : Worker) (sub : Submission Tag) : Prop :=
  Harmless w.owner w.backend.wakeEventFd sub ∨ ∃ r, sub = .request r ∧ w.Starts r

variable (L) in
/-- What a change does to the backend. -/
inductive Effect (w : Worker) : Backend Tag → Prop where
  | same : Effect w w.backend
  | inner {b : Backend Tag} : Backend.Inner L w.Accepts w.backend b → Effect w b
  | ring : Effect w { w.backend with
      cq := w.backend.cq ++ [⟨.crossCoreWake, 0, false, none, none⟩] }
  | phase (phase : Phase Tag) :
      phase.batch = w.backend.phase.batch → Effect w { w.backend with phase := phase }
  | swap :
      w.backend.phase.batch = [] →
      Effect w { w.backend with
        phase := .deferred w.backend.pendingCompletions, pendingCompletions := [] }
  | complete {e : Entry Tag} {b : Backend Tag} {i : Nat} {res : Int} {more : Bool}
      {buffer : Option UInt16} :
      w.backend.kernel[i]? = some e → w.backend.complete i res more buffer = some b →
      w.kernelMay e res more buffer = true → Effect w b
  | taken {cqe : Cqe Tag} {b : Backend Tag} : Taken w.backend cqe b → Effect w b

theorem effect_starts {r : Request Tag} (hr : w.Starts r) :
    Effect L w (w.backend.submitOrQueue L (.request r)).2 := by
  cases h : w.backend.initialized with
  | false =>
    rw [Backend.submitOrQueue_of_not_initialized h]
    exact .same
  | true => exact .inner (Backend.submitOrQueue_request_inner h (.inr ⟨r, rfl, hr⟩))

/-- **What a change does to the backend.** -/
theorem Change.effect (h : Change L D w w') : Effect L w w'.backend := by
  cases h with
  | backend hmove => exact .inner (hmove.mono fun _ => .inl)
  | ring => exact .ring
  | poll hphase => exact .phase .reap (by rw [hphase]; rfl)
  | swap hphase _ => exact .swap (by rw [hphase]; rfl)
  | startRearm hphase => exact .phase .rearm (by rw [hphase]; rfl)
  | endRearm hphase _ => exact .phase .idle (by rw [hphase]; rfl)
  | complete hc =>
    obtain ⟨e, b, he, hb, hmay, rfl⟩ := kernelComplete_spec hc
    exact .complete he hb hmay
  | recvDone now ht _ _ =>
    rw [handleRecv_backend]
    exact .taken ht
  | disconnectDone ht _ =>
    rw [modifyConn_backend]
    exact .taken ht
  | writeDone ht _ =>
    rw [modifyConn_backend]
    exact .taken ht
  | acceptDone ht _ =>
    rw [acceptDone_backend]
    exact .taken ht
  | otherDone ht _ => exact .taken ht
  | startRecv hc _ hopen _ => exact effect_starts (.recv hc hopen)
  | startDisconnect hc _ hopen => exact effect_starts (.disconnect hc hopen)
  | startWrite hc _ hopen hr =>
    rcases hr with ⟨buffer, rfl⟩ | ⟨message, rfl⟩
    · exact effect_starts (.send buffer hc hopen)
    · exact effect_starts (.sendMsg message hc hopen)
  | startAccept hl hfd => exact effect_starts (.accept hl hfd)
  | add file mode buffer now _ _ =>
    rw [addConnection_backend]
    exact .same
  | startClose _ =>
    rw [setConn_backend, leaveActive_backend]
    exact .same
  | closeAccepted _ =>
    rw [setListener_backend, foldl_closeFd]
    exact .same
  | _ => exact .same

variable {b : Backend Tag}

theorem Effect.moves (h : Effect L w b) : Backend.Moves L w.backend b := by
  cases h with
  | same => exact Relation.ReflTransGen.refl
  | inner hmove => exact hmove.move.moves
  | ring => exact Backend.Move.ring.moves
  | phase phase hbatch => exact (Backend.Move.phase phase hbatch).moves
  | swap hbatch => exact (Backend.Move.swap hbatch).moves
  | complete _ hb _ => exact (Backend.Move.complete hb).moves
  | taken ht => exact ht.move.moves

/-- **A change moves the backend.** -/
theorem Change.moves (h : Change L D w w') : Backend.Moves L w.backend w'.backend := h.effect.moves

theorem Changes.moves (h : Changes L D w w') : Backend.Moves L w.backend w'.backend := by
  induction h with
  | refl => exact Relation.ReflTransGen.refl
  | tail _ hlast ih => exact ih.trans hlast.moves

theorem Changes.initialized (h : Changes L D w w')
    (hw : w.backend.initialized = true) : w'.backend.initialized = true :=
  h.moves.initialized hw

section

variable (h : Effect L w b)
include h

/-! ## Where the contents come from -/

theorem Effect.mem_unsubmitted {e : Entry Tag} (he : e ∈ b.unsubmitted) :
    e ∈ w.backend.unsubmitted ∨ e = Backend.nopEntry L ∨
      ∃ sub, w.Accepts sub ∧ e = Backend.entryOf L sub w.backend.nextOp := by
  cases h with
  | inner hmove => exact hmove.mem_unsubmitted he
  | complete _ hb _ =>
    obtain ⟨e', _, rfl⟩ := map_eq_some_iff.mp hb
    exact .inl he
  | taken ht => cases ht <;> exact .inl he
  | _ => exact .inl he

theorem Effect.mem_kernel {e : Entry Tag}
    (he : e ∈ b.kernel) : e ∈ w.backend.kernel ∨ e ∈ w.backend.unsubmitted := by
  cases h with
  | inner hmove => exact hmove.mem_kernel he
  | @complete _ _ i _ more _ _ hb _ =>
    obtain ⟨e', _, rfl⟩ := map_eq_some_iff.mp hb
    cases more with
    | true => exact .inl he
    | false => exact .inl (List.mem_of_mem_eraseIdx he)
  | taken ht => cases ht <;> exact .inl he
  | _ => exact .inl he

/-- A CQE was there, or is the wake of a peer, or answers an operation of the kernel's. -/
theorem Effect.mem_cq {x : Cqe Tag} (hx : x ∈ b.cq) :
    x ∈ w.backend.cq ∨ x = ⟨.crossCoreWake, 0, false, none, none⟩ ∨
      ∃ e ∈ w.backend.kernel, ∃ res more buffer, w.kernelMay e res more buffer = true ∧
        x = ⟨e.sqe.userData, res, more, buffer, e.op⟩ := by
  cases h with
  | inner hmove =>
    rw [hmove.frame.1] at hx
    exact .inl hx
  | ring =>
    rcases mem_append.mp hx with hold | hnew
    · exact .inl hold
    · exact .inr (.inl (mem_singleton.mp hnew))
  | @complete e _ i res more buffer he hb hmay =>
    obtain ⟨e', he', rfl⟩ := map_eq_some_iff.mp hb
    obtain rfl : e' = e := some.inj (he'.symm.trans he)
    rcases mem_append.mp hx with hold | hnew
    · exact .inl hold
    exact .inr (.inr ⟨e', mem_of_getElem? he, res, more, buffer, hmay, mem_singleton.mp hnew⟩)
  | taken ht =>
    cases ht with
    | reap _ hcq =>
      rw [hcq]
      exact .inl (mem_cons_of_mem _ hx)
    | deferred _ => exact .inl hx
  | _ => exact .inl hx

/-- A deferred completion was there, or is that of a retired entry, or of a cancel request. -/
theorem Effect.mem_pending {p : PendingCompletion Tag}
    (hp : p ∈ b.pendingCompletions ++ b.phase.batch) :
    p ∈ w.backend.pendingCompletions ++ w.backend.phase.batch ∨
      (∃ e ∈ w.backend.unsubmitted, ∃ result, result < 0 ∧ p = ⟨e.sqe.userData, result, e.op⟩) ∨
      ∃ target completion, w.Accepts (.cancel target completion) ∧
        p = ⟨completion, 0, some w.backend.nextOp⟩ := by
  cases h with
  | inner hmove =>
    rcases mem_append.mp hp with hpend | hbatch
    · rcases hmove.mem_pending hpend with hold | hnew
      · exact .inl (mem_append_left _ hold)
      · exact .inr hnew
    rw [hmove.frame.2.1] at hbatch
    exact .inl (mem_append_right _ hbatch)
  | phase phase hbatch =>
    rw [← hbatch]
    exact .inl hp
  | swap hbatch =>
    rw [hbatch, append_nil]
    exact .inl (by simpa using hp)
  | complete _ hb _ =>
    obtain ⟨e', _, rfl⟩ := map_eq_some_iff.mp hb
    exact .inl hp
  | taken ht =>
    cases ht with
    | reap _ _ => exact .inl hp
    | deferred hphase =>
      rw [hphase]
      rcases mem_append.mp hp with hold | hbatch
      · exact .inl (mem_append_left _ hold)
      · exact .inl (mem_append_right _ (mem_cons_of_mem _ hbatch))
  | _ => exact .inl hp

end

end Worker

end Bycorf.Net
