/-
  A descriptor number can be handed out again as soon as it is closed; no operation accepted for
  the OLD socket may reach the kernel afterwards.

  1. **Who may use a number** — `mayUse` ties a tag to the owner of the descriptor: an operation of
     a connection only on that connection's socket, an accept only on its listener's.
  2. **The invariant** (`Descriptors`) — every unsubmitted socket operation may use its descriptor
     and was accepted after the last close of that number; open connections and listeners own
     their descriptors; accepted sockets that were not handed out yet are owned by their listener.
  3. **The crux** (`Change.ownership`) — what a change does to the owner of ONE number: nothing, or
     the number was of no use before, or the application's descriptor gets an owner, or it is
     closed with nothing unsubmitted on it.
-/
import Bycorf.Net.Buffers

namespace Bycorf.Net.Worker

open IoUring Lib
open Function (update update_of_ne update_self)
open Owner (free noConfusion wake)

variable {L : Liburing Tag} {D : (ConnPtr → Option Connection) → Cqe Tag → Prop}

/-! ## Who may use a descriptor -/

/-- May an operation with this tag be on the descriptor? -/
def mayUse (w : Worker) (fd : Int) : UserData Tag → Prop
  | .recv c | .peerDisconnect c | .completion (.write c) => w.owner fd = .connection c
  | .completion (.accept l) => w.owner fd = .listener l
  | _ => (w.owner fd).usable = true

variable {w : Worker} {fd : Int} {data : UserData Tag}

theorem mayUse_of_outside
    (hout : outside data = true) : w.mayUse fd data ↔ (w.owner fd).usable = true := by
  match data, hout with
  | .null, _ | .wakePoll, _ | .crossCoreWake, _ | .peerDisconnectCancel, _ | .cancelRequest, _
  | .completion (.app _), _ => exact .rfl

theorem usable_of_mayUse (h : w.mayUse fd data) : (w.owner fd).usable = true := by
  match data, h with
  | .recv _, h | .peerDisconnect _, h | .completion (.write _), h
  | .completion (.accept _), h =>
    rw [show w.owner fd = _ from h]
    rfl
  | .null, h | .wakePoll, h | .crossCoreWake, h | .peerDisconnectCancel, h | .cancelRequest, h
  | .completion (.app _), h => exact h

/-- A tag of the connection layer is not on a descriptor of the application. -/
theorem outside_of_held
    (hheld : w.owner fd = .held) (h : w.mayUse fd data) : outside data = true := by
  match data, h with
  | .recv _, h | .peerDisconnect _, h | .completion (.write _), h
  | .completion (.accept _), h =>
    rw [show w.owner fd = _ from h] at hheld
    cases hheld
  | .null, _ | .wakePoll, _ | .crossCoreWake, _ | .peerDisconnectCancel, _ | .cancelRequest, _
  | .completion (.app _), _ => rfl

/-! ## Socket operations on raw descriptors -/

open Backend (entryOf nopEntry onRawFd socketOpcode)

theorem onRawFd_nopEntry (fd : Int) : onRawFd fd (nopEntry L).sqe = false := by
  simp [onRawFd, nopEntry, Sqe.setData, Prep.opcode, socketOpcode]

theorem onRawFd_cancel (fd : Int) (target completion : UserData Tag) (op : Nat) :
    onRawFd fd (entryOf L (.cancel target completion) op).sqe = false := by
  simp [onRawFd, entryOf, prepare, Sqe.setData, Prep.opcode, socketOpcode]

/-- The raw descriptor an entry is on is the one its request names. -/
theorem rawFd_of_onRawFd {r : Request Tag} {op : Nat}
    (h : onRawFd fd (entryOf L (.request r) op).sqe = true) :
    rawFd r = some fd := by
  have hflag := (L.flags_prep r.prep).1
  simp only [onRawFd, entryOf, prepare, Sqe.setData, Request.fixedFile_adjust,
    Request.fd_adjust, Request.opcode_adjust, Liburing.fd_prep, Liburing.opcode_prep, hflag,
    Bool.false_or, and_eq_true, Bool.not_eq_true', decide_eq_true_eq] at h
  obtain ⟨⟨hraw, hfd⟩, hsocket⟩ := h
  cases r with
  | send file buffer tag | sendMsg file message tag | peerDisconnectPoll c file =>
    have hfixed : file.isFixed = false := hraw
    simp only [Request.prep, Prep.fd, RegisteredFile.target, hfixed] at hfd
    simpa [rawFd, hfixed] using hfd
  | recv c file useMultishot buffer =>
    have hfixed : file.isFixed = false := hraw
    have hfile : file.fd = fd := by
      cases useMultishot <;> simpa [Request.prep, Prep.fd, RegisteredFile.target, hfixed] using hfd
    simpa [rawFd, hfixed] using hfile
  | wakePoll f | acceptMultishot f tag | connect f address length tag | poll f events tag =>
    exact congrArg some hfd
  | _ => cases hsocket

/-! ## Sockets that wait to be handed out -/

/-- The socket an accept completion of listener `l` brings. -/
def acceptedSocket (l : Nat) (x : Cqe Tag) : Option Int :=
  if x.userData = .completion (.accept l) ∧ 0 ≤ x.res then some x.res else none

/-- The sockets in the queue of a listener. -/
def acceptedOf : Option Listener → List Int
  | some lst => lst.acceptedFds
  | none => []

/-- The accepted sockets of listener `l` that are not handed out: in its queue, and in the CQ. -/
def undelivered (w : Worker) (l : Nat) : List Int :=
  acceptedOf (w.listeners l) ++ w.backend.cq.filterMap (acceptedSocket l)

/-- The accepted sockets of a listener are distinct and wait for it. -/
def Waiting (w : Worker) (l : Nat) : Prop :=
  (w.undelivered l).Nodup ∧ ∀ fd ∈ w.undelivered l, w.owner fd = .queued l

/-- The invariant. -/
structure Descriptors (w : Worker) : Prop where
  unsubmitted : ∀ e ∈ w.backend.unsubmitted, ∀ fd, Backend.onRawFd fd e.sqe = true →
    w.mayUse fd e.sqe.userData ∧ ∀ i, e.op = some i → w.closedAt fd ≤ i
  opened : ∀ c conn, w.connections c = some conn → conn.closed = false → 0 ≤ conn.file.fd
  connection : ∀ c conn, w.connections c = some conn → 0 ≤ conn.file.fd →
    w.owner conn.file.fd = .connection c ∧ validFd conn.file.fd = true
  listener : ∀ l lst, w.listeners l = some lst → 0 ≤ lst.fd →
    w.owner lst.fd = .listener l ∧ validFd lst.fd = true
  queued : ∀ l, w.Waiting l
  closedAt : ∀ fd, w.closedAt fd ≤ w.backend.nextOp
  wake : w.owner w.backend.wakeEventFd = .wake

theorem Descriptors.accepted {l : Nat} {lst : Listener} (hw : w.Descriptors)
    (hl : w.listeners l = some lst) (hmem : fd ∈ lst.acceptedFds) : w.owner fd = .queued l := by
  refine (hw.queued l).2 fd (mem_append_left _ ?_)
  rw [hl]
  exact hmem

/-! ## What a change does to the owner of a number -/

/-- What a change from `w` to `w'` does to the owner of a descriptor number. -/
inductive Ownership (w w' : Worker) (fd : Int) : Prop where
  | same : w'.owner fd = w.owner fd → w'.closedAt fd = w.closedAt fd → Ownership w w' fd
  | unused :
      (w.owner fd).usable = false →
      (w'.closedAt fd = w.closedAt fd ∨ w'.closedAt fd = w.backend.nextOp) → Ownership w w' fd
  | claimed :
      w.owner fd = .held → (w'.owner fd).usable = true → w'.closedAt fd = w.closedAt fd →
      Ownership w w' fd
  | closeConnection {c : ConnPtr} {conn : Connection} :
      w.connections c = some conn → conn.file.fd = fd → 0 ≤ fd →
      (∀ conn', w'.connections c = some conn' → conn'.file.fd < 0) → NoRaw fd w'.backend →
      w'.closedAt fd = w.backend.nextOp → Ownership w w' fd
  | closeListener {l : Nat} {lst : Listener} :
      w.listeners l = some lst → lst.fd = fd → 0 ≤ fd →
      (∀ lst', w'.listeners l = some lst' → lst'.fd < 0) → NoRaw fd w'.backend →
      w'.closedAt fd = w.backend.nextOp → Ownership w w' fd

variable {w' : Worker}

/-- The owner of one number changes. -/
theorem Ownership.of_update {f : Int} {o : Owner}
    (howner : w'.owner = Function.update w.owner fd o) (hclosed : w'.closedAt = w.closedAt)
    (hfd : Ownership w w' fd) : Ownership w w' f := by
  by_cases heq : f = fd
  · rw [heq]
    exact hfd
  refine .same ?_ (congrFun hclosed f)
  rw [howner, update_of_ne heq]

/-- One number is closed. -/
theorem Ownership.of_closeFd {v : Worker} {f : Int} (howner : v.owner = w.owner)
    (hclosed : v.closedAt = w.closedAt) (hfd : Ownership w (v.closeFd fd) fd) :
    Ownership w (v.closeFd fd) f := by
  by_cases heq : f = fd
  · rw [heq]
    exact hfd
  refine .same ?_ ?_
  · show update v.owner fd .free f = w.owner f
    rw [update_of_ne heq, howner]
  · show update v.closedAt fd _ f = w.closedAt f
    rw [update_of_ne heq, hclosed]

theorem not_dpdk (h : validFd fd = true) : isDpdkSocket fd = false := by
  simp only [validFd, and_eq_true, Bool.not_eq_true'] at h
  exact h.2

variable {buffer : Option UInt16}

/-- The kernel accepts under a number that was free. -/
theorem accepted_free {e : Entry Tag} {res : Int} {more : Bool}
    (hmay : w.kernelMay e res more buffer = true) (haccept : e.sqe.opcode = .accept ∧ 0 ≤ res) :
    w.owner res = .free := by
  simp only [kernelMay, and_eq_true, Bool.or_eq_true, Bool.not_eq_true'] at hmay
  rcases hmay.2 with hnot | hvalid
  · simp [haccept.1, haccept.2] at hnot
  · simpa using hvalid.2

/-- **What a change does to the owner of a number.** -/
theorem Change.ownership (h : Change L D w w') (hw : w.Descriptors) (f : Int) :
    Ownership w w' f := by
  cases h with
  | @complete _ i res more buffer hc =>
    obtain ⟨e, b, _, _, hmay, rfl⟩ := kernelComplete_spec hc
    by_cases haccept : e.sqe.opcode = .accept ∧ 0 ≤ res
    · have hfree := accepted_free hmay haccept
      exact .of_update (if_pos haccept) rfl (.unused (by rw [hfree]; rfl) (.inl rfl))
    · exact .same (congrFun (if_neg haccept) f) rfl
  | recvDone now ht =>
    rw [(handleRecv_frame ..).choose_spec]
    exact .same rfl rfl
  | disconnectDone ht | writeDone ht =>
    rw [(modifyConn_frame ..).choose_spec]
    exact .same rfl rfl
  | @acceptDone cqe b l ht hdata =>
    rw [(acceptDone_frame ..).choose_spec]
    exact .same rfl rfl
  | add file mode buffer now hfd howner =>
    rw [addConnection_eq hfd]
    refine .of_update rfl rfl (.claimed howner ?_ rfl)
    show (update w.owner file.fd (.connection _) file.fd).usable = true
    rw [update_self]
    rfl
  | startClose hc =>
    rw [leaveActive_eq]
    exact .same rfl rfl
  | @closeFd c conn hc hfd hraw =>
    have hvalid := (hw.connection c conn hc hfd).2
    refine .of_closeFd rfl rfl ?_
    refine .closeConnection hc rfl hfd ?_ (hraw (not_dpdk hvalid)) (update_self ..)
    intro conn' hc'
    obtain rfl := some.inj ((setConn_self c _ w).symm.trans hc')
    exact Int.negSucc_lt_zero 0
  | @bind fd hfd howner =>
    refine .of_update rfl rfl (.claimed howner ?_ rfl)
    show (update w.owner fd (.listener _) fd).usable = true
    rw [update_self]
    rfl
  | @handOut l lst fd fds hl hfds =>
    have hqueued := hw.accepted hl (hfds ▸ mem_cons_self)
    exact .of_update rfl rfl (.unused (by rw [hqueued]; rfl) (.inl rfl))
  | @closeAccepted l lst hl =>
    rw [foldl_closeFd]
    by_cases hmem : f ∈ lst.acceptedFds
    · have hqueued := hw.accepted hl hmem
      exact .unused (by rw [hqueued]; rfl) (.inr (if_pos hmem))
    · exact .same (if_neg hmem) (if_neg hmem)
  | @closeListenFd l lst hl hfd hraw =>
    have hvalid := (hw.listener l lst hl hfd).2
    refine .of_closeFd rfl rfl ?_
    refine .closeListener hl rfl hfd ?_ (hraw (not_dpdk hvalid)) (update_self ..)
    intro lst' hl'
    obtain rfl := some.inj ((setListener_self l _ w).symm.trans hl')
    exact Int.negSucc_lt_zero 0
  | @environment fd o hstep =>
    refine .of_update rfl rfl (.unused ?_ (.inl rfl))
    rcases hstep with ⟨hfree, _⟩ | ⟨helse, _⟩
    · rw [hfree]
      rfl
    rw [helse]
    rfl
  | _ => exact .same rfl rfl

theorem Ownership.closedAt (h : Ownership w w' fd) :
    w'.closedAt fd = w.closedAt fd ∨ w'.closedAt fd = w.backend.nextOp := by
  cases h with
  | same _ hclosed | claimed _ _ hclosed => exact .inl hclosed
  | unused _ hclosed => exact hclosed
  | closeConnection _ _ _ _ _ hclosed | closeListener _ _ _ _ _ hclosed => exact .inr hclosed

/-- An owner that is neither of no use nor the application itself keeps its number until it closes
    it. -/
theorem Ownership.kept (h : Ownership w w' fd) (hw : w.Descriptors)
    (husable : (w.owner fd).usable = true) (hheld : w.owner fd ≠ .held) :
    w'.owner fd = w.owner fd ∨ (∃ c, w.owner fd = .connection c ∧
        ∀ conn', w'.connections c = some conn' → conn'.file.fd < 0) ∨
      ∃ l, w.owner fd = .listener l ∧ ∀ lst', w'.listeners l = some lst' → lst'.fd < 0 := by
  cases h with
  | same howner _ => exact .inl howner
  | unused hunused _ =>
    rw [hunused] at husable
    cases husable
  | claimed hown _ _ => exact absurd hown hheld
  | @closeConnection c conn hc heq hfd hgone _ _ =>
    subst heq
    exact .inr (.inl ⟨c, (hw.connection c conn hc hfd).1, hgone⟩)
  | @closeListener l lst hl heq hfd hgone _ _ =>
    subst heq
    exact .inr (.inr ⟨l, (hw.listener l lst hl hfd).1, hgone⟩)

/-! ## Every change keeps the descriptors -/

theorem mayUse_congr (h : w'.owner fd = w.owner fd)
    (data : UserData Tag) : w'.mayUse fd data ↔ w.mayUse fd data := by
  unfold mayUse
  split <;> rw [h]

/-- What may be used is kept, as long as something on it is unsubmitted. -/
theorem Ownership.mayUse (h : Ownership w w' fd)
    (hraw : ¬NoRaw fd w'.backend) (hm : w.mayUse fd data) :
    w'.mayUse fd data ∧ w'.closedAt fd = w.closedAt fd := by
  cases h with
  | same howner hclosed => exact ⟨(mayUse_congr howner data).mpr hm, hclosed⟩
  | unused hunused _ =>
    rw [usable_of_mayUse hm] at hunused
    cases hunused
  | claimed hheld husable hclosed =>
    have hout := outside_of_held hheld hm
    exact ⟨(mayUse_of_outside hout).mpr husable, hclosed⟩
  | closeConnection _ _ _ _ hno _ | closeListener _ _ _ _ hno _ => exact absurd hno hraw

/-- A submission names a descriptor that its tag may use. -/
theorem Descriptors.accepts (hw : w.Descriptors) {sub : Submission Tag}
    (hsub : w.Accepts sub) {op : Nat}
    (hraw : onRawFd fd (entryOf L sub op).sqe = true) :
    w.mayUse fd (entryOf L sub op).sqe.userData := by
  have hconn : ∀ {c : ConnPtr} {conn : Connection}, w.connections c = some conn →
      conn.closed = false → (if conn.file.isFixed then none else some conn.file.fd) = some fd →
      w.owner fd = .connection c := by
    intro c conn hc hopen hfile
    obtain ⟨_, hfd⟩ := ite_none_left_eq_some.mp hfile
    cases hfd
    exact (hw.connection c conn hc (hw.opened c conn hc hopen)).1
  rw [userData_entryOf]
  rcases hsub with hharmless | ⟨r, rfl, hr⟩
  · cases sub with
    | request r =>
      refine (mayUse_of_outside hharmless.1).mpr ?_
      rcases hharmless.2 fd (rawFd_of_onRawFd hraw) with husable | rfl
      · exact husable
      rw [hw.wake]
      rfl
    | cancel target completion =>
      rw [onRawFd_cancel] at hraw
      cases hraw
  · have hfd := rawFd_of_onRawFd hraw
    cases hr with
    | recv hc hopen | disconnect hc hopen | send buffer hc hopen | sendMsg message hc hopen =>
      exact hconn hc hopen hfd
    | @accept l lst hl hpos =>
      cases hfd
      exact (hw.listener l lst hl hpos).1

theorem Change.unsubmitted (h : Change L D w w') (hw : w.Descriptors)
    {e : Entry Tag} (he : e ∈ w'.backend.unsubmitted)
    (hraw : onRawFd fd e.sqe = true) :
    w'.mayUse fd e.sqe.userData ∧ ∀ i, e.op = some i → w'.closedAt fd ≤ i := by
  have hsome : ¬NoRaw fd w'.backend := by
    intro hno
    rw [hno e he] at hraw
    cases hraw
  have hbefore : w.mayUse fd e.sqe.userData ∧ ∀ i, e.op = some i → w.closedAt fd ≤ i := by
    rcases h.effect.mem_unsubmitted he with hold | rfl | ⟨sub, hsub, rfl⟩
    · exact hw.unsubmitted e hold fd hraw
    · rw [onRawFd_nopEntry] at hraw
      cases hraw
    · refine ⟨hw.accepts hsub hraw, fun i hi => ?_⟩
      obtain rfl : w.backend.nextOp = i := some.inj hi
      exact hw.closedAt fd
  obtain ⟨hmay, hclosed⟩ := (h.ownership hw fd).mayUse hsome hbefore.1
  rw [hclosed]
  exact ⟨hmay, hbefore.2⟩

variable {c : ConnPtr} {conn' : Connection}

/-- A record keeps its file and its open state, or is closed. -/
theorem Record.file {conn : Connection} (h : Record D w w' c conn conn') :
    (conn'.file = conn.file ∧ (conn'.closed = false → conn.closed = false)) ∨
      (conn'.file.fd < 0 ∧ conn'.closed = true) := by
  cases h with
  | @received cqe now _ _ =>
    have hreceived := conn.handleMultishotRecv_received w.options now cqe
    exact .inl ⟨hreceived.file, fun hopen => hreceived.closed ▸ hopen⟩
  | touch htame => exact .inl ⟨htame.file, fun hopen => htame.closed ▸ hopen⟩
  | closeFd => exact .inr ⟨Int.negSucc_lt_zero 0, rfl⟩
  | markClosed => exact .inl ⟨rfl, nofun⟩
  | _ => exact .inl ⟨rfl, id⟩

section

variable (h : Change L D w w') (hw : w.Descriptors) (hc' : w'.connections c = some conn')
include h hw hc'

theorem Change.opened (hopen : conn'.closed = false) : 0 ≤ conn'.file.fd := by
  rcases h.origin hc' with hc | ⟨conn, hc, hrecord⟩ | ⟨file, mode, buffer, now, rfl, hvalid, -⟩
  · exact hw.opened c conn' hc hopen
  · rcases hrecord.file with ⟨hfile, hclosed⟩ | ⟨_, hclosed⟩
    · rw [hfile]
      exact hw.opened c conn hc (hclosed hopen)
    rw [hclosed] at hopen
    cases hopen
  · simp only [validFd, and_eq_true, decide_eq_true_eq] at hvalid
    exact hvalid.1

theorem Change.connection (hfd : 0 ≤ conn'.file.fd) :
    w'.owner conn'.file.fd = .connection c ∧ validFd conn'.file.fd = true := by
  -- a descriptor that `c` had before is still its own: only `c` closes it
  have hkept : ∀ conn, w.connections c = some conn → conn'.file = conn.file →
      w'.owner conn'.file.fd = .connection c ∧ validFd conn'.file.fd = true := by
    intro conn hc hfile
    obtain ⟨howner, hvalid⟩ := hw.connection c conn hc (hfile ▸ hfd)
    rw [← hfile] at howner hvalid
    refine ⟨?_, hvalid⟩
    rcases (h.ownership hw conn'.file.fd).kept hw (by rw [howner]; rfl)
      (by rw [howner]; exact noConfusion) with hsame | ⟨c', hown, hgone⟩ | ⟨l, hown, _⟩
    · exact hsame.trans howner
    · obtain rfl : c' = c := Owner.connection.inj (hown.symm.trans howner)
      exact absurd hfd (Int.not_le.mpr (hgone conn' hc'))
    · rw [howner] at hown
      cases hown
  rcases h.origin hc' with
    hc | ⟨conn, hc, hrecord⟩ | ⟨file, mode, buffer, now, rfl, hvalid, howner⟩
  · exact hkept conn' hc rfl
  · rcases hrecord.file with ⟨hfile, _⟩ | ⟨hneg, _⟩
    · exact hkept conn hc hfile
    · exact absurd hfd (Int.not_le.mpr hneg)
  · refine ⟨?_, hvalid⟩
    rw [howner]
    exact update_self ..

end

/-! ## Listeners -/

/-- What a change from `w` to `w'` does to listener `l`. -/
inductive AtListener (w w' : Worker) (l : Nat) : Prop where
  | same : w'.listeners l = w.listeners l → AtListener w w' l
  | update {lst lst' : Listener} :
      w.listeners l = some lst → w'.listeners l = some lst' → (lst'.fd = lst.fd ∨ lst'.fd < 0) →
      AtListener w w' l
  | bind {lst' : Listener} :
      w'.listeners l = some lst' → w'.owner lst'.fd = .listener l → validFd lst'.fd = true →
      AtListener w w' l

variable {l : Nat} {lst : Listener}

theorem AtListener.of_setListener {l' : Nat} {lst' : Listener} (hl : w.listeners l = some lst)
    (hlisteners : w'.listeners = Function.update w.listeners l (some lst'))
    (hfd : lst'.fd = lst.fd ∨ lst'.fd < 0) : AtListener w w' l' := by
  by_cases heq : l' = l
  · subst heq
    refine .update hl ?_ hfd
    rw [hlisteners, update_self]
  refine .same ?_
  rw [hlisteners, update_of_ne heq]

theorem acceptResult_fd (res : Int) (lst : Listener) : (acceptResult res lst).fd = lst.fd := by
  unfold acceptResult
  split
  · rfl
  split
  · rfl
  · split <;> rfl

theorem Change.atListener (h : Change L D w w') (l' : Nat) : AtListener w w' l' := by
  cases h with
  | complete hc =>
    obtain ⟨e, b, _, _, _, rfl⟩ := kernelComplete_spec hc
    exact .same rfl
  | recvDone now ht =>
    rw [(handleRecv_frame ..).choose_spec]
    exact .same rfl
  | disconnectDone ht | writeDone ht =>
    rw [(modifyConn_frame ..).choose_spec]
    exact .same rfl
  | @acceptDone cqe b l ht hdata =>
    unfold Worker.acceptDone
    split
    next => exact .same rfl
    next lst hl => exact .of_setListener hl rfl (.inl (acceptResult_fd cqe.res lst))
  | startAccept hl _ | handOut hl _ => exact .of_setListener hl rfl (.inl rfl)
  | add file mode buffer now hfd _ =>
    rw [addConnection_eq hfd]
    exact .same rfl
  | startClose hc =>
    rw [leaveActive_eq]
    exact .same rfl
  | touchListener hl htame => exact .of_setListener hl rfl htame.fd
  | @bind fd hvalid howner =>
    by_cases heq : l' = w.nextListener
    · subst heq
      exact .bind (update_self ..) (update_self ..) hvalid
    · exact .same (update_of_ne heq ..)
  | closeAccepted hl =>
    rw [foldl_closeFd]
    exact .of_setListener hl rfl (.inl rfl)
  | closeListenFd hl _ _ => exact .of_setListener hl rfl (.inr (Int.negSucc_lt_zero 0))
  | _ => exact .same rfl

theorem Change.listener (h : Change L D w w') (hw : w.Descriptors)
    {lst' : Listener} (hl' : w'.listeners l = some lst') (hfd : 0 ≤ lst'.fd) :
    w'.owner lst'.fd = .listener l ∧ validFd lst'.fd = true := by
  have hkept : ∀ lst, w.listeners l = some lst → lst'.fd = lst.fd →
      w'.owner lst'.fd = .listener l ∧ validFd lst'.fd = true := by
    intro lst hl heq
    obtain ⟨howner, hvalid⟩ := hw.listener l lst hl (heq ▸ hfd)
    rw [← heq] at howner hvalid
    refine ⟨?_, hvalid⟩
    rcases (h.ownership hw lst'.fd).kept hw (by rw [howner]; rfl)
      (by rw [howner]; exact noConfusion) with hsame | ⟨c, hown, _⟩ | ⟨l₀, hown, hgone⟩
    · exact hsame.trans howner
    · rw [howner] at hown
      cases hown
    · obtain rfl : l₀ = l := Owner.listener.inj (hown.symm.trans howner)
      exact absurd hfd (Int.not_le.mpr (hgone lst' hl'))
  cases h.atListener l with
  | same hsame => exact hkept lst' (hsame.symm.trans hl') rfl
  | @update lst lst₁ hl hnew hcase =>
    obtain rfl : lst₁ = lst' := some.inj (hnew.symm.trans hl')
    rcases hcase with heq | hneg
    · exact hkept lst hl heq
    · exact absurd hfd (Int.not_le.mpr hneg)
  | @bind lst₁ hnew howner hvalid =>
    obtain rfl : lst₁ = lst' := some.inj (hnew.symm.trans hl')
    exact ⟨howner, hvalid⟩

/-! ## Accepted sockets -/

/-- Sockets leave, and those that stay keep their owner. -/
theorem Waiting.of_sublist (h : w.Waiting l) (hsub : (w'.undelivered l).Sublist (w.undelivered l))
    (howner : ∀ fd ∈ w'.undelivered l, w.owner fd = .queued l → w'.owner fd = .queued l) :
    w'.Waiting l :=
  ⟨h.1.sublist hsub, fun fd hfd => howner fd hfd (h.2 fd (hsub.subset hfd))⟩

variable {b : Backend Tag}

theorem sockets_taken {s : Backend Tag} {cqe : Cqe Tag} (h : Taken s cqe b) (l : Nat) :
    (b.cq.filterMap (acceptedSocket l)).Sublist (s.cq.filterMap (acceptedSocket l)) := by
  cases h with
  | reap _ hcq =>
    rw [hcq]
    exact (List.sublist_cons_self ..).filterMap _
  | deferred _ => exact List.Sublist.refl _

/-- An accept completion moves its socket from the CQ into the queue of the listener. -/
theorem undelivered_acceptDone (htag : Tagged w.backend) {cqe : Cqe Tag}
    (ht : Taken w.backend cqe b)
    (hdata : cqe.userData = .completion (.accept l)) (l' : Nat) :
    ((({ w with backend := b } : Worker).acceptDone l cqe.res cqe.more).undelivered l').Sublist
      (w.undelivered l') := by
  have hrest : (b.cq.filterMap (acceptedSocket l')).Sublist
      (w.backend.cq.filterMap (acceptedSocket l')) := sockets_taken ht l'
  unfold Worker.acceptDone
  split
  next => exact List.Sublist.append_left hrest _
  rename_i lst hl
  by_cases heq : l' = l
  · subst heq
    show List.Sublist (acceptedOf (update w.listeners l' _ l') ++ _)
      (acceptedOf (w.listeners l') ++ _)
    rw [update_self, show w.listeners l' = some lst from hl]
    show List.Sublist ((acceptResult cqe.res lst).acceptedFds ++
      b.cq.filterMap (acceptedSocket l')) (lst.acceptedFds ++ _)
    unfold acceptResult
    split
    next hpos =>
      -- the socket was at the head of the CQ
      cases ht with
      | @reap _ cq _ hcq =>
        rw [hcq, List.filterMap_cons_some (b := cqe.res) (by simp [acceptedSocket, hdata, hpos]),
          append_assoc]
        exact List.Sublist.refl _
      | @deferred c batch hphase =>
        have hmem : c ∈ w.backend.pendingCompletions ++ w.backend.phase.batch := by
          rw [hphase]
          exact mem_append_right _ mem_cons_self
        have hneg := (htag.pending c hmem).result (by
          rw [show c.userData = _ from hdata]
          rfl)
        exact absurd hpos (Int.not_le.mpr hneg)
    next =>
      split
      · exact List.Sublist.append_left hrest _
      · split <;> exact List.Sublist.append_left hrest _
  · show List.Sublist (acceptedOf (update w.listeners l _ l') ++ _) _
    rw [update_of_ne heq]
    exact List.Sublist.append_left hrest _

/-- A socket arrives under a number that nothing was waiting under. -/
theorem Waiting.arrive (h : w.Waiting l) {o : Owner}
    (hfree : w.owner fd = .free) (howner : w'.owner = Function.update w.owner fd o)
    (hsockets : w'.undelivered l = w.undelivered l ∨
      (w'.undelivered l = w.undelivered l ++ [fd] ∧ o = .queued l)) : w'.Waiting l := by
  have hnew : fd ∉ w.undelivered l := by
    intro hmem
    rw [h.2 fd hmem] at hfree
    cases hfree
  have hold : ∀ f ∈ w.undelivered l, w'.owner f = .queued l := by
    intro f hf
    have hne : f ≠ fd := fun heq => hnew (heq ▸ hf)
    rw [howner, update_of_ne hne]
    exact h.2 f hf
  rcases hsockets with hsame | ⟨hmore, rfl⟩
  · unfold Waiting
    rw [hsame]
    exact ⟨h.1, hold⟩
  unfold Waiting
  rw [hmore]
  refine ⟨nodup_append.mpr ⟨h.1, List.nodup_singleton fd, ?_⟩, ?_⟩
  · intro f hf f' hf' heq
    obtain rfl := mem_singleton.mp hf'
    exact hnew (heq ▸ hf)
  · intro f hf
    rcases mem_append.mp hf with hf | hf
    · exact hold f hf
    obtain rfl := mem_singleton.mp hf
    rw [howner, update_self]

/-- The kernel accepts a socket under a number that was free. -/
theorem waiting_complete (htag : Tagged w.backend) (hw : w.Waiting l)
    {i : Nat} {res : Int} {more : Bool}
    (hc : w.kernelComplete i res more buffer = some w') : w'.Waiting l := by
  obtain ⟨e, b, he, hb, hmay, rfl⟩ := kernelComplete_spec hc
  obtain ⟨e', he', rfl⟩ := map_eq_some_iff.mp hb
  obtain rfl : e' = e := some.inj (he'.symm.trans he)
  have htagged := htag.entries e' (mem_append_right _ (mem_of_getElem? he))
  have happend : ∀ x : Cqe Tag, acceptedOf (w.listeners l) ++
      (w.backend.cq ++ [x]).filterMap (acceptedSocket l) =
        w.undelivered l ++ (acceptedSocket l x).toList := by
    intro x
    rw [undelivered, filterMap_append, append_assoc]
    cases hx : acceptedSocket l x <;> simp [hx]
  by_cases haccept : e'.sqe.opcode = .accept ∧ 0 ≤ res
  · refine hw.arrive (accepted_free hmay haccept) (if_pos haccept) ?_
    by_cases hdata : e'.sqe.userData = .completion (.accept l)
    · refine .inr ⟨(happend _).trans ?_, by rw [hdata]⟩
      simp [acceptedSocket, hdata, haccept.2]
    refine .inl ((happend _).trans ?_)
    simp [acceptedSocket, hdata]
  · have hnone : acceptedSocket l ⟨e'.sqe.userData, res, more, buffer, e'.op⟩ = none := by
      refine if_neg ?_
      rintro ⟨hdata, hpos⟩
      have hopcode := htagged.opcode
      rw [show e'.sqe.userData = _ from hdata] at hopcode
      exact haccept ⟨of_decide_eq_true hopcode, hpos⟩
    refine hw.of_sublist ?_ fun fd _ hown => (congrFun (if_neg haccept) fd).trans hown
    have hsame := happend ⟨e'.sqe.userData, res, more, buffer, e'.op⟩
    rw [hnone, Option.toList_none, append_nil] at hsame
    show List.Sublist (acceptedOf (w.listeners l) ++ _) _
    rw [hsame]

/-- The sockets `gone` leave listener `l`, and nothing happens to the others. -/
theorem Descriptors.remove (hw : w.Descriptors) {gone rest : List Int}
    (hsplit : w.undelivered l = gone ++ rest) (hleft : w'.undelivered l = rest)
    (hothers : ∀ l', l' ≠ l → w'.undelivered l' = w.undelivered l')
    (howner : ∀ f, f ∉ gone → w'.owner f = w.owner f) (l' : Nat) : w'.Waiting l' := by
  have hgone : ∀ f ∈ gone, w.owner f = .queued l := by
    intro f hf
    refine (hw.queued l).2 f ?_
    rw [hsplit]
    exact mem_append_left _ hf
  by_cases heq : l' = l
  · subst heq
    have hnodup := (hw.queued l').1
    rw [hsplit, nodup_append] at hnodup
    refine (hw.queued l').of_sublist ?_ ?_
    · rw [hleft, hsplit]
      exact List.sublist_append_right ..
    · intro f hf hown
      rw [hleft] at hf
      rw [howner f fun hmem => hnodup.2.2 f hmem f hf rfl]
      exact hown
  · refine (hw.queued l').of_sublist ?_ ?_
    · rw [hothers l' heq]
    · intro f _ hown
      rw [howner f ?_]
      · exact hown
      intro hmem
      rw [hgone f hmem] at hown
      exact heq (Owner.queued.inj hown).symm

theorem undelivered_setListener_self (l : Nat) (lst : Listener) (w : Worker) :
    (w.setListener l lst).undelivered l =
      lst.acceptedFds ++ w.backend.cq.filterMap (acceptedSocket l) := by
  rw [undelivered, setListener_self]
  rfl

theorem undelivered_setListener_of_ne {l' : Nat} (h : l' ≠ l) (lst : Listener) (w : Worker) :
    (w.setListener l lst).undelivered l' = w.undelivered l' := by
  show acceptedOf (update w.listeners l _ l') ++ _ = _
  rw [update_of_ne h]
  rfl

theorem undelivered_some (hl : w.listeners l = some lst) :
    w.undelivered l = lst.acceptedFds ++ w.backend.cq.filterMap (acceptedSocket l) := by
  rw [undelivered, hl]
  rfl

/-- `ConsumeAcceptedFd` hands the first socket out. -/
theorem waiting_handOut (hw : w.Descriptors)
    {fds : List Int} (hl : w.listeners l = some lst) (hfds : lst.acceptedFds = fd :: fds)
    (l' : Nat) :
    Waiting { w.setListener l { lst with acceptedFds := fds } with
      owner := Function.update w.owner fd .held } l' := by
  have hsplit : w.undelivered l = [fd] ++ (fds ++ w.backend.cq.filterMap (acceptedSocket l)) := by
    rw [undelivered_some hl, hfds]
    rfl
  refine hw.remove hsplit (undelivered_setListener_self l _ w) ?_ ?_ l'
  · exact fun l' hne => undelivered_setListener_of_ne hne _ w
  · intro f hf
    exact update_of_ne (fun heq => hf (mem_singleton.mpr heq)) ..

/-- `CloseAllAcceptedFds`. -/
theorem waiting_closeAccepted (hw : w.Descriptors) (hl : w.listeners l = some lst) (l' : Nat) :
    Waiting ((lst.acceptedFds.foldl (fun w fd => w.closeFd fd) w).setListener l
      { lst with acceptedFds := [] }) l' := by
  rw [foldl_closeFd]
  refine hw.remove (undelivered_some hl) (undelivered_setListener_self l _ _) ?_ ?_ l'
  · exact fun l' hne => undelivered_setListener_of_ne hne _ _
  · exact fun f hf => if_neg hf

theorem Change.waiting (h : Change L D w w') (htag : Tagged w.backend)
    (hw : w.Descriptors) (l' : Nat) : w'.Waiting l' := by
  have hwait : w.Waiting l' := hw.queued l'
  -- nothing but the CQ changes, and it loses sockets at most
  have hkeep : ∀ {v : Worker}, v.listeners = w.listeners →
      (v.backend.cq.filterMap (acceptedSocket l')).Sublist
        (w.backend.cq.filterMap (acceptedSocket l')) →
      (∀ fd, w.owner fd = .queued l' → v.owner fd = .queued l') → v.Waiting l' := by
    intro v hlisteners hsub howner
    refine hwait.of_sublist ?_ fun fd _ => howner fd
    unfold undelivered
    rw [hlisteners]
    exact List.Sublist.append_left hsub _
  have hsame : ∀ {v : Worker}, v.listeners = w.listeners → v.backend.cq = w.backend.cq →
      (∀ fd, w.owner fd = .queued l' → v.owner fd = .queued l') → v.Waiting l' := by
    intro v hlisteners hcq howner
    exact hkeep hlisteners (by rw [hcq]) howner
  -- the owner of a number that was not queued changes
  have hother : ∀ {fd : Int} {o : Owner}, w.owner fd ≠ .queued l' → ∀ f,
      w.owner f = .queued l' → update w.owner fd o f = .queued l' := by
    intro fd o hne f hf
    have hdiff : f ≠ fd := by
      rintro rfl
      exact hne hf
    rw [update_of_ne hdiff]
    exact hf
  -- a listener keeps its queue
  have hlistener : ∀ {v : Worker} {l : Nat} {lst lst' : Listener}, w.listeners l = some lst →
      v.listeners = update w.listeners l (some lst') → v.backend.cq = w.backend.cq →
      lst'.acceptedFds = lst.acceptedFds →
      (∀ fd, w.owner fd = .queued l' → v.owner fd = .queued l') → v.Waiting l' := by
    intro v l lst lst' hl hlisteners hcq hfds howner
    refine hwait.of_sublist ?_ fun fd _ => howner fd
    have haccepted : acceptedOf (v.listeners l') = acceptedOf (w.listeners l') := by
      rw [hlisteners]
      by_cases heq : l' = l
      · rw [heq, update_self, hl]
        exact hfds
      · rw [update_of_ne heq]
    unfold undelivered
    rw [haccepted, hcq]
  have hsubmit : ∀ sub, (w.backend.submitOrQueue L sub).2.cq = w.backend.cq :=
    fun sub => (Backend.submitOrQueue_frame w.backend sub).1
  cases h with
  | backend hmove => exact hsame rfl hmove.frame.1 fun _ => id
  | ring =>
    refine hkeep rfl ?_ fun _ => id
    rw [filterMap_append]
    simp [acceptedSocket]
  | complete hc => exact waiting_complete htag hwait hc
  | recvDone now ht =>
    rw [(handleRecv_frame ..).choose_spec]
    exact hkeep rfl (sockets_taken ht l') fun _ => id
  | disconnectDone ht | writeDone ht =>
    rw [(modifyConn_frame ..).choose_spec]
    exact hkeep rfl (sockets_taken ht l') fun _ => id
  | @acceptDone cqe b l ht hdata =>
    refine hwait.of_sublist (undelivered_acceptDone htag ht hdata l') fun fd _ hown => ?_
    rw [(acceptDone_frame ..).choose_spec]
    exact hown
  | otherDone ht _ => exact hkeep rfl (sockets_taken ht l') fun _ => id
  | startRecv | startDisconnect | startWrite => exact hsame rfl (hsubmit _) fun _ => id
  | startAccept hl _ => exact hlistener hl rfl (hsubmit _) rfl fun _ => id
  | add file mode buffer now hfd hheld =>
    rw [addConnection_eq hfd]
    exact hsame rfl rfl (hother (by rw [hheld]; exact noConfusion))
  | startClose hc =>
    rw [leaveActive_eq]
    exact hsame rfl rfl fun _ => id
  | @closeFd c conn hc hfd _ =>
    have hown := (hw.connection c conn hc hfd).1
    exact hsame rfl rfl (hother (by rw [hown]; exact noConfusion))
  | touchListener hl htame => exact hlistener hl rfl rfl htame.acceptedFds fun _ => id
  | @bind fd _ hheld =>
    refine hwait.of_sublist ?_ fun f _ => hother (by rw [hheld]; exact noConfusion) f
    show List.Sublist (acceptedOf (update w.listeners w.nextListener _ l') ++ _) _
    by_cases heq : l' = w.nextListener
    · rw [heq, update_self]
      exact List.sublist_append_right ..
    rw [update_of_ne heq]
    exact List.Sublist.refl _
  | @handOut l lst fd fds hl hfds => exact waiting_handOut hw hl hfds l'
  | @closeAccepted l lst hl => exact waiting_closeAccepted hw hl l'
  | @closeListenFd l lst hl hfd _ =>
    have hown := (hw.listener l lst hl hfd).1
    exact hlistener hl rfl rfl rfl (hother (by rw [hown]; exact noConfusion))
  | environment hstep =>
    refine hsame rfl rfl (hother ?_)
    rcases hstep with ⟨hfree, _⟩ | ⟨helse, _⟩
    · rw [hfree]
      exact noConfusion
    rw [helse]
    exact noConfusion
  | _ => exact hsame rfl rfl fun _ => id

/-! ## The invariant -/

theorem Effect.wakeEventFd (h : Effect L w b) : b.wakeEventFd = w.backend.wakeEventFd := by
  cases h with
  | inner hmove => exact hmove.frame.2.2
  | complete _ hb _ =>
    obtain ⟨e, _, rfl⟩ := map_eq_some_iff.mp hb
    rfl
  | taken ht => cases ht <;> rfl
  | _ => rfl

theorem Effect.nextOp_le (h : Effect L w b) : w.backend.nextOp ≤ b.nextOp := by
  cases h with
  | inner hmove => exact hmove.nextOp_le
  | complete _ hb _ =>
    obtain ⟨e, _, rfl⟩ := map_eq_some_iff.mp hb
    exact le_rfl
  | taken ht => cases ht <;> exact le_rfl
  | _ => exact le_rfl

/-- **Every change keeps the descriptors.** -/
theorem Change.descriptors (h : Change L D w w') (htag : Tagged w.backend)
    (hw : w.Descriptors) : w'.Descriptors where
  unsubmitted e he fd hraw := h.unsubmitted hw he hraw
  opened c conn hc hopen := h.opened hw hc hopen
  connection c conn hc hfd := h.connection hw hc hfd
  listener l lst hl hfd := h.listener hw hl hfd
  queued l := h.waiting htag hw l
  closedAt fd := by
    rcases (h.ownership hw fd).closedAt with hsame | hnow
    · rw [hsame]
      exact (hw.closedAt fd).trans h.effect.nextOp_le
    rw [hnow]
    exact h.effect.nextOp_le
  wake := by
    rw [h.effect.wakeEventFd]
    rcases (h.ownership hw w.backend.wakeEventFd).kept hw (by rw [hw.wake]; rfl)
      (by rw [hw.wake]; exact noConfusion) with hsame | ⟨c, hown, _⟩ | ⟨l, hown, _⟩
    · exact hsame.trans hw.wake
    · rw [hw.wake] at hown
      cases hown
    · rw [hw.wake] at hown
      cases hown

theorem fresh_descriptors (options : Options) (slots : List (Sqe Tag)) (wakeEventFd : Int) :
    (Worker.fresh options slots wakeEventFd).Descriptors where
  unsubmitted e he := by cases he
  opened c conn hc := by cases hc
  connection c conn hc := by cases hc
  listener l lst hl := by cases hl
  queued l := ⟨nodup_nil, nofun⟩
  closedAt fd := le_rfl
  wake := by
    show update (fun _ => free) wakeEventFd wake wakeEventFd = wake
    exact update_self ..

/-- What a change makes the kernel consume was unsubmitted. -/
theorem Effect.consumed (h : Effect L w b) :
    ∃ new, b.consumed = w.backend.consumed ++ new ∧ ∀ e ∈ new, e ∈ w.backend.unsubmitted := by
  have hsame : ∃ new, w.backend.consumed = w.backend.consumed ++ new ∧
      ∀ e ∈ new, e ∈ w.backend.unsubmitted :=
    ⟨[], (append_nil _).symm, fun e he => by cases he⟩
  cases h with
  | inner hmove => exact hmove.consumed
  | complete _ hb _ =>
    obtain ⟨e, _, rfl⟩ := map_eq_some_iff.mp hb
    exact hsame
  | taken ht => cases ht <;> exact hsame
  | _ => exact hsame

/-! ## Runs -/

theorem reachable_descriptors {ok : Worker → Action → Prop}
    (h : (system L).ReachableUnder ok w) : Tagged w.backend ∧ w.Descriptors := by
  refine reachable_invariant (D := fun _ _ => True) (P := fun w => Tagged w.backend ∧ w.Descriptors)
    (fun _ _ _ _ _ => trivial) ?_ ?_ h
  · intro options slots wakeEventFd
    exact ⟨tagged_fresh slots wakeEventFd, fresh_descriptors options slots wakeEventFd⟩
  · rintro w w' ⟨htag, hw⟩ hchange
    exact ⟨hchange.effect.tagged htag, hchange.descriptors htag hw⟩

end Bycorf.Net.Worker
