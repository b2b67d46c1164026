/-
  The flags and the counter of a connection are true to the operations in flight.

  1. **Uses** — a receive, a disconnect poll or a send of a connection that still owes its terminal
     completion is a USE of the connection.  `uses` counts them with the accounts of the backend.
  2. **Books** — the flags and `inflight_ops_` of a connection count its uses, whether it is active,
     closing or draining (`Counted`); a connection that is not in the table has none.
  3. **Every change keeps the books** (`Change.accounted`): a submission starts one use, a terminal
     completion finishes one, and nothing else touches them.
-/
import Bycorf.IoUring.Completion
import Bycorf.Net.Steps
import Bycorf.Net.Tags

namespace Bycorf.Net

open IoUring Lib
open Multiset (count_add count_singleton)

/-! ## Uses -/

/-- The three uses that a connection counts. -/
inductive UseKind where
  | recv | disconnect | send
deriving DecidableEq, Repr

/-- A use of a connection by an operation. -/
structure Use where
  kind : UseKind
  connection : ConnPtr
deriving DecidableEq, Repr

/-- The use a tag stands for. -/
def useOf : UserData Tag → Option Use
  | .recv c => some ⟨.recv, c⟩
  | .peerDisconnect c => some ⟨.disconnect, c⟩
  | .completion (.write c) => some ⟨.send, c⟩
  | _ => none

/-- Operations are counted by the use they are. -/
def useKey : Backend.Key Tag Use := fun data op => op.bind fun _ => useOf data

theorem useKey_ignoresNop : useKey.IgnoresNop := fun _ => rfl

theorem useOf_outside {data : UserData Tag} (h : outside data = true) : useOf data = none := by
  match data, h with
  | .null, _ | .wakePoll, _ | .crossCoreWake, _ | .peerDisconnectCancel, _ | .cancelRequest, _
  | .completion (.app _), _ => rfl

variable {L : Liburing Tag} {D : (ConnPtr → Option Connection) → Cqe Tag → Prop}

/-- What is accepted without a word in the tables uses no connection. -/
theorem unfinished_harmless {owner : Int → Owner} {fd : Int} {s s' : Backend Tag}
    (h : Backend.Inner L (Harmless owner fd) s s') :
    Backend.unfinished useKey s' = Backend.unfinished useKey s := by
  rcases (h.unfinished useKey_ignoresNop).2 with ⟨_, heq⟩ | ⟨sub, hsub, _, heq⟩
  · exact heq
  have hout : outside sub.userData = true := by
    cases sub with
    | request r => exact hsub.1
    | cancel target completion => exact hsub
  rw [heq, useKey, bind_some, useOf_outside hout, single_none, add_zero]

section

variable {s b : Backend Tag} {cqe : Cqe Tag} (h : Taken s cqe b) (hs : Tagged s)
include h hs

/-- A dispatch finishes the use of a terminal completion. -/
theorem Taken.unfinished : Backend.unfinished useKey s =
      Backend.unfinished useKey b + if cqe.more then 0 else single (useOf cqe.userData) := by
  have hkey : single (Backend.terminalKey useKey cqe) =
      if cqe.more then 0 else single (useOf cqe.userData) := by
    unfold Backend.terminalKey
    split
    · rfl
    cases hop : cqe.op with
    | some op => rfl
    | none =>
      rw [useOf_outside ((h.cqeTagged hs).nop hop)]
      rfl
  rw [← hkey]
  cases h with
  | reap _ hcq => exact (Backend.unfinished_reap hcq _).symm
  | deferred hphase => exact (Backend.unfinished_deferred (by rw [hphase]; rfl) _).symm

/-- A dispatch under another tag finishes no use. -/
theorem Taken.unfinished_eq (hdata : useOf cqe.userData = none) :
    Backend.unfinished useKey b = Backend.unfinished useKey s := by
  rw [h.unfinished hs, hdata]
  simp

end

variable {c : ConnPtr}

/-- A disconnect poll and a send have a single completion. -/
theorem CqeTagged.more_eq_false {x : Cqe Tag} (h : CqeTagged x)
    (hdata : x.userData = .peerDisconnect c ∨ x.userData = .completion (.write c)) :
    x.more = false := by
  cases hmore : x.more
  · rfl
  rcases h.more hmore with ⟨c', heq⟩ | ⟨l, heq⟩ | hout
  · rcases hdata with hd | hd <;> rw [hd] at heq <;> cases heq
  · rcases hdata with hd | hd <;> rw [hd] at heq <;> cases heq
  · rcases hdata with hd | hd <;> rw [hd] at hout <;> cases hout

/-! ## The books of a connection -/

/-- What a connection's record says about its uses: at most one of each kind, and their number. -/
@[ext] structure Books where
  armed : UseKind → Bool
  inflightOps : Nat

namespace Books

/-- What the counter should be. -/
def total (b : Books) : Nat :=
  (b.armed .recv).toNat + (b.armed .disconnect).toNat + (b.armed .send).toNat

/-- An operation is submitted, and gets its terminal completion. -/
def start (kind : UseKind) (b : Books) : Books :=
  ⟨Function.update b.armed kind true, b.inflightOps + 1⟩

/-- A use ends. -/
def finish (kind : UseKind) (b : Books) : Books :=
  ⟨Function.update b.armed kind false, b.inflightOps - 1⟩

variable {kind : UseKind} {b : Books}

theorem total_start (h : b.armed kind = false) : (b.start kind).total = b.total + 1 := by
  cases kind <;> simp [start, total, h] <;> omega

theorem total_finish (h : b.armed kind = true) : (b.finish kind).total = b.total - 1 := by
  cases kind with
  | recv => simp [finish, total, h]; omega
  | disconnect | send => simp [finish, total, h]

end Books

/-- The flags and the counter of a connection. -/
def Connection.books (conn : Connection) : Books where
  armed
    | .recv => conn.recvArmed
    | .disconnect => conn.peerDisconnectPollArmed
    | .send => conn.writeInflight
  inflightOps := conn.inflightOps

/-- A connection that is not in the table has no uses. -/
def booksOf : Option Connection → Books
  | none => ⟨fun _ => false, 0⟩
  | some conn => conn.books

/-- The books of connection `c` are true to its uses. -/
structure Counted (uses : Multiset Use) (c : ConnPtr) (b : Books) : Prop where
  armed : ∀ kind, uses.count ⟨kind, c⟩ = (b.armed kind).toNat
  inflightOps : b.inflightOps = b.total

theorem Counted.start {uses : Multiset Use} (h : Counted uses c b) (hkind : b.armed kind = false) :
    Counted (uses + {⟨kind, c⟩}) c (b.start kind) := by
  refine ⟨?_, by rw [Books.total_start hkind, ← h.inflightOps]; rfl⟩
  intro kind'
  rw [count_add, h.armed, count_singleton]
  by_cases heq : kind' = kind
  · simp [heq, Books.start, hkind]
  · simp [heq, Books.start]

theorem Counted.finish {uses : Multiset Use}
    (h : Counted (uses + {⟨kind, c⟩}) c b) : Counted uses c (b.finish kind) := by
  have hkind : b.armed kind = true := by
    have hcount := h.armed kind
    rw [count_add, Multiset.count_singleton_self] at hcount
    cases hb : b.armed kind with
    | true => rfl
    | false =>
      rw [hb] at hcount
      exact absurd hcount (Nat.succ_ne_zero _)
  refine ⟨?_, by rw [Books.total_finish hkind, ← h.inflightOps]; rfl⟩
  intro kind'
  have hcount := h.armed kind'
  rw [count_add, count_singleton] at hcount
  by_cases heq : kind' = kind
  · rw [heq, hkind] at hcount
    simpa [heq, Books.finish] using hcount
  · simpa [heq, Books.finish] using hcount

namespace Worker

/-- The uses of the worker's connections. -/
def uses (w : Worker) : Multiset Use := Backend.unfinished useKey w.backend

/-- Every connection counts the operations that name it. -/
def Accounted (w : Worker) : Prop := ∀ c, Counted w.uses c (booksOf (w.connections c))

variable {w w' : Worker}

/-- Nothing in the books changes. -/
theorem Accounted.same (h : w.Accounted) (huses : w'.uses = w.uses)
    (hbooks : ∀ c, booksOf (w'.connections c) = booksOf (w.connections c)) : w'.Accounted := by
  intro c
  rw [huses, hbooks]
  exact h c

/-- Only the books of `c` change. -/
theorem Accounted.update (h : w.Accounted) (c : ConnPtr)
    (huses : ∀ u : Use, u.connection ≠ c → w'.uses.count u = w.uses.count u)
    (hothers : ∀ c', c' ≠ c → w'.connections c' = w.connections c')
    (hc : Counted w'.uses c (booksOf (w'.connections c))) : w'.Accounted := by
  intro c'
  by_cases heq : c' = c
  · rw [heq]
    exact hc
  obtain ⟨harmed, hops⟩ := h c'
  rw [hothers c' heq]
  exact ⟨fun kind => (huses ⟨kind, c'⟩ heq).trans (harmed kind), hops⟩

variable {c : ConnPtr} {conn conn' : Connection}

theorem booksOf_setConn
    (hc : w.connections c = some conn) (hbooks : conn'.books = conn.books) (c' : ConnPtr) :
    booksOf ((w.setConn c conn').connections c') = booksOf (w.connections c') := by
  by_cases heq : c' = c
  · rw [heq, setConn_self, hc]
    exact hbooks
  · rw [setConn_of_ne heq]

/-- An operation of the connection is submitted. -/
theorem uses_submitOrQueue (h : w.backend.initialized = true) (r : Request Tag) :
    Backend.unfinished useKey (w.backend.submitOrQueue L (.request r)).2 =
      w.uses + single (useOf r.userData) :=
  Backend.unfinished_submitOrQueue h (.request r)

/-! ## Handlers and the books -/

theorem recvResult_books (o : Options) (now : Int) (cqe : Cqe Tag) (conn : Connection) :
    (conn.recvResult o now cqe).2.books = conn.books := by
  unfold Connection.recvResult
  split
  · rfl
  split
  · rfl
  split
  · rfl
  · split <;> rfl

theorem recvEnd_books (o : Options) (conn : Connection) :
    (conn.recvEnd o).2.books = conn.books.finish .recv := by
  have hsettled : ∀ conn' : Connection, conn'.recvArmed = false →
      conn'.peerDisconnectPollArmed = conn.peerDisconnectPollArmed →
      conn'.writeInflight = conn.writeInflight → conn'.inflightOps = conn.inflightOps - 1 →
      conn'.books = conn.books.finish .recv := by
    intro conn' hrecv hpoll hwrite hops
    ext kind
    · cases kind <;> simp [Connection.books, Books.finish, hrecv, hpoll, hwrite]
    · exact hops
  unfold Connection.recvEnd
  dsimp only
  split
  · split <;> exact hsettled _ rfl rfl rfl rfl
  · split <;> exact hsettled _ rfl rfl rfl rfl

theorem takeReader_books (conn : Connection) : conn.takeReader.2.books = conn.books := by
  unfold Connection.takeReader
  split <;> rfl

/-- `HandleMultishotRecv` settles the receive with its terminal completion. -/
theorem handleMultishotRecv_books (o : Options) (now : Int) (cqe : Cqe Tag) (conn : Connection) :
    (conn.handleMultishotRecv o now cqe).conn.books =
      if cqe.more then conn.books else conn.books.finish .recv := by
  have hresult := recvResult_books o now cqe conn
  have hended : (if cqe.more then (false, (conn.recvResult o now cqe).2)
      else (conn.recvResult o now cqe).2.recvEnd o).2.books =
      if cqe.more then conn.books else conn.books.finish .recv := by
    split
    · exact hresult
    · rw [recvEnd_books, hresult]
  rw [← hended]
  unfold Connection.handleMultishotRecv
  dsimp only
  split
  · exact takeReader_books _
  · rfl

theorem handlePeerDisconnect_books (cqe : Cqe Tag) (conn : Connection) :
    (conn.handlePeerDisconnect cqe).2.books = conn.books.finish .disconnect := by
  ext kind
  · cases kind <;> rfl
  · rfl

theorem writeComplete_books (conn : Connection) :
    conn.writeComplete.books = conn.books.finish .send := by
  ext kind
  · cases kind <;> rfl
  · rfl

/-! ## Every change keeps the books -/

variable {cqe : Cqe Tag} {kind : UseKind}

/-- A completion of connection `c` is dispatched to a handler that settles it. -/
theorem Accounted.dispatch {v : Worker} (h : w.Accounted) (htag : Tagged w.backend)
    (ht : Taken w.backend cqe v.backend)
    (hdata : useOf cqe.userData = some ⟨kind, c⟩)
    (hothers : ∀ c', c' ≠ c → v.connections c' = w.connections c')
    (hnone : w.connections c = none → v.connections c = none)
    (hsome : ∀ conn, w.connections c = some conn → ∃ conn', v.connections c = some conn' ∧
      conn'.books = if cqe.more then conn.books else conn.books.finish kind) : v.Accounted := by
  have huses : w.uses = v.uses + if cqe.more then 0 else {⟨kind, c⟩} := by
    have heq := ht.unfinished htag
    rw [hdata] at heq
    exact heq
  have hold := h c
  refine h.update c ?_ hothers ?_
  · intro u hu
    have hne : u ≠ ⟨kind, c⟩ := fun heq => hu (congrArg Use.connection heq)
    rw [huses, count_add]
    split <;> simp [hne]
  · cases hmore : cqe.more with
    | true =>
      rw [huses, hmore, if_pos rfl, add_zero] at hold
      rcases hc : w.connections c with _ | conn
      · rwa [hnone hc, ← hc]
      obtain ⟨conn', hc', hbooks⟩ := hsome conn hc
      rw [hmore, if_pos rfl] at hbooks
      rw [hc] at hold
      rw [hc']
      show Counted _ c conn'.books
      rw [hbooks]
      exact hold
    | false =>
      rw [huses, hmore, if_neg Bool.false_ne_true] at hold
      cases hc : w.connections c with
      | none =>
        -- an operation in flight has a connection to complete
        rw [hc] at hold
        have hcount := hold.armed kind
        rw [count_add, Multiset.count_singleton_self] at hcount
        exact absurd hcount (Nat.succ_ne_zero _)
      | some conn =>
        obtain ⟨conn', hc', hbooks⟩ := hsome conn hc
        rw [hmore, if_neg Bool.false_ne_true] at hbooks
        rw [hc] at hold
        have hfinished := hold.finish
        rw [hc']
        show Counted _ c conn'.books
        rw [hbooks]
        exact hfinished

/-- An operation of connection `c` is submitted. -/
theorem Accounted.submit (h : w.Accounted) (hinit : w.backend.initialized = true)
    {r : Request Tag} (hb : w'.backend = (w.backend.submitOrQueue L (.request r)).2)
    (hdata : useOf r.userData = some ⟨kind, c⟩) (hc : w.connections c = some conn)
    (hfree : conn.books.armed kind = false)
    (hconns : w'.connections = Function.update w.connections c (some conn'))
    (hbooks : conn'.books = conn.books.start kind) : w'.Accounted := by
  have huses : w'.uses = w.uses + {⟨kind, c⟩} := by
    unfold uses
    rw [hb, uses_submitOrQueue hinit, hdata]
    rfl
  have hold := h c
  rw [hc] at hold
  refine h.update c ?_ (fun c' hne => by rw [hconns, update_of_ne hne]) ?_
  · intro u hu
    have hne : u ≠ ⟨kind, c⟩ := fun heq => hu (congrArg Use.connection heq)
    simp [huses, hne]
  · rw [hconns, update_self, huses]
    show Counted _ c conn'.books
    rw [hbooks]
    exact hold.start hfree

theorem modifyConn_connections (hc : w.connections c = some conn) (f : Connection → Connection) :
    w.modifyConn c f = w.setConn c (f conn) := by
  unfold modifyConn
  rw [hc]

theorem modifyConn_none (hc : w.connections c = none)
    (f : Connection → Connection) : w.modifyConn c f = w := by
  unfold modifyConn
  rw [hc]

/-- A handler that updates one record. -/
theorem Accounted.modifyConn (h : w.Accounted) (htag : Tagged w.backend)
    {b : Backend Tag} {f : Connection → Connection}
    (ht : Taken w.backend cqe b) (hdata : useOf cqe.userData = some ⟨kind, c⟩)
    (hmore : cqe.more = false) (hf : ∀ conn : Connection, (f conn).books = conn.books.finish kind) :
    (({ w with backend := b } : Worker).modifyConn c f).Accounted := by
  rcases hc : w.connections c with _ | conn
  · rw [modifyConn_none (by exact hc)]
    exact h.dispatch htag ht hdata (fun _ _ => rfl) id
      (fun conn hc' => by rw [hc] at hc'; cases hc')
  rw [modifyConn_connections (by exact hc)]
  refine h.dispatch htag ht hdata
    (fun c' hne => setConn_of_ne hne ..) (fun hnone => ?_) (fun conn' hc' => ?_)
  · rw [hc] at hnone
    cases hnone
  · obtain rfl : conn = conn' := some.inj (hc.symm.trans hc')
    refine ⟨f conn, setConn_self .., ?_⟩
    rw [hmore, if_neg Bool.false_ne_true]
    exact hf conn

theorem Accounted.recvDone (h : w.Accounted) (htag : Tagged w.backend)
    {b : Backend Tag} (ht : Taken w.backend cqe b)
    (hdata : cqe.userData = .recv c) (now : Int) :
    (({ w with backend := b } : Worker).handleRecv c now cqe).Accounted := by
  have huse : useOf cqe.userData = some ⟨.recv, c⟩ := by rw [hdata]; rfl
  rcases hc : w.connections c with _ | conn
  · rw [handleRecv_none (by exact hc)]
    exact h.dispatch htag ht huse (fun _ _ => rfl) id
      (fun conn hc' => by rw [hc] at hc'; cases hc')
  rw [handleRecv_some (by exact hc)]
  refine h.dispatch htag ht huse (fun c' hne => update_of_ne hne ..) ?_ ?_
  · intro hnone
    rw [hc] at hnone
    cases hnone
  · intro conn' hc'
    obtain rfl : conn = conn' := some.inj (hc.symm.trans hc')
    exact ⟨_, update_self .., handleMultishotRecv_books ..⟩

theorem acceptDone_connections (l : Nat) (res : Int) (more : Bool) (w : Worker) :
    (w.acceptDone l res more).connections = w.connections := by
  unfold acceptDone
  split <;> rfl

/-- The counters of an active connection, as one update. -/
theorem leaveActive_eq (conn : Connection) (w : Worker) :
    w.leaveActive conn =
      { w with
        activeConnectionCount :=
          if conn.state = .active then w.activeConnectionCount - 1 else w.activeConnectionCount
        gActiveConnections :=
          if conn.state = .active then w.gActiveConnections - 1 else w.gActiveConnections } := by
  unfold leaveActive
  split <;> rfl

/-- `AddConnection` of a connection with a descriptor. -/
theorem addConnection_eq {file : RegisteredFile} (hfd : validFd file.fd = true)
    (mode : RecvMode) (buffer : UInt64) (now : Int) :
    (w.addConnection (Connection.fresh file mode buffer) now).2 =
      { w.setConn w.nextConnectionId
          { Connection.fresh file mode buffer with lastActiveMs := now } with
        nextConnectionId := w.nextConnectionId + 1
        activeConnectionCount := w.activeConnectionCount + 1
        gActiveConnections := w.gActiveConnections + 1
        owner := Function.update w.owner file.fd (.connection w.nextConnectionId) } := by
  have hpos : ¬(Connection.fresh file mode buffer).file.fd < 0 := by
    simp only [validFd, and_eq_true, decide_eq_true_eq] at hfd
    show ¬file.fd < 0
    omega
  unfold addConnection
  rw [if_neg hpos]
  rfl

/-- A connection that can be reclaimed has no uses on its books. -/
theorem books_of_canReclaim {uses : Multiset Use}
    (hcan : conn.canReclaim = true) (h : Counted uses c conn.books) :
    conn.books = booksOf none := by
  simp only [Connection.canReclaim, and_eq_true, decide_eq_true_eq, Bool.not_eq_true'] at hcan
  obtain ⟨⟨⟨⟨⟨⟨⟨_, hops⟩, _⟩, _⟩, _⟩, hwrite⟩, hrecv⟩, _⟩ := hcan
  have htotal := h.inflightOps
  simp only [Connection.books, Books.total, hops, hrecv, hwrite, Bool.toNat_false] at htotal
  have hpoll : conn.peerDisconnectPollArmed = false := by
    cases hp : conn.peerDisconnectPollArmed with
    | false => rfl
    | true => simp [hp] at htotal
  ext kind
  · cases kind
    · exact hrecv
    · exact hpoll
    · exact hwrite
  · exact hops

/-- **Every change keeps the books.** -/
theorem Change.accounted (h : Change L D w w') (hinit : w.backend.initialized = true)
    (htag : Tagged w.backend) (hnew : w.connections w.nextConnectionId = none)
    (hw : w.Accounted) : w'.Accounted := by
  have hset : ∀ {c : ConnPtr} {conn conn' : Connection}, w.connections c = some conn →
      conn'.books = conn.books → (w.setConn c conn').Accounted :=
    fun hc hbooks => hw.same rfl (booksOf_setConn hc hbooks)
  cases h with
  | backend hmove => exact hw.same (unfinished_harmless hmove) fun _ => rfl
  | ring => exact hw.same (Backend.unfinished_ring useKey_ignoresNop w.backend) fun _ => rfl
  | poll hphase | endRearm hphase _ | startRearm hphase =>
    refine hw.same ?_ fun _ => rfl
    simp [uses, Backend.unfinished, hphase, Phase.batch]
  | swap hphase _ =>
    exact hw.same (Backend.unfinished_swap (by rw [hphase]; rfl)) fun _ => rfl
  | complete hc =>
    obtain ⟨e, b, _, hb, _, rfl⟩ := kernelComplete_spec hc
    exact hw.same (Backend.unfinished_complete hb) fun _ => rfl
  | recvDone now ht hdata _ => exact hw.recvDone htag ht hdata now
  | disconnectDone ht hdata =>
    exact hw.modifyConn htag ht (by rw [hdata]; rfl)
      ((ht.cqeTagged htag).more_eq_false (.inl hdata)) (handlePeerDisconnect_books _)
  | writeDone ht hdata =>
    exact hw.modifyConn htag ht (by rw [hdata]; rfl)
      ((ht.cqeTagged htag).more_eq_false (.inr hdata)) writeComplete_books
  | acceptDone ht hdata =>
    refine hw.same ?_ fun c => by rw [acceptDone_connections]
    rw [uses, acceptDone_backend]
    exact ht.unfinished_eq htag (by rw [hdata]; rfl)
  | otherDone ht hout => exact hw.same (ht.unfinished_eq htag (useOf_outside hout)) fun _ => rfl
  | startRecv hc harmed _ _ =>
    refine hw.submit hinit rfl rfl hc harmed rfl ?_
    ext kind
    · cases kind <;> rfl
    · rfl
  | startDisconnect hc harmed _ =>
    refine hw.submit hinit rfl rfl hc harmed rfl ?_
    ext kind
    · cases kind <;> rfl
    · rfl
  | @startWrite c conn r hc harmed _ hr =>
    have hdata : useOf r.userData = some ⟨.send, c⟩ := by
      rcases hr with ⟨buffer, rfl⟩ | ⟨message, rfl⟩ <;> rfl
    refine hw.submit hinit rfl hdata hc harmed rfl ?_
    ext kind
    · cases kind <;> rfl
    · rfl
  | startAccept hl _ =>
    refine hw.same ?_ fun _ => rfl
    exact (uses_submitOrQueue hinit _).trans (add_zero _)
  | touch hc htame =>
    refine hset hc ?_
    simp [Connection.books, htame.recvArmed, htame.pollArmed, htame.writeInflight,
      htame.inflightOps]
  | add file mode buffer now hfd _ =>
    rw [addConnection_eq hfd]
    refine hw.same rfl fun c => ?_
    by_cases heq : c = w.nextConnectionId
    · rw [heq, hnew]
      simp only [setConn, update_self]
      ext kind
      · cases kind <;> rfl
      · rfl
    · simp [setConn, heq]
  | startClose hc =>
    rw [leaveActive_eq]
    exact hset hc rfl
  | closeFd hc _ _ | markClosed hc _ | release hc _ | retire state hc _ _ _ | drain _ hc =>
    exact hset hc rfl
  | @reclaim c conn hphase hc hcan =>
    refine hw.same rfl fun c' => ?_
    by_cases heq : c' = c
    · have hold := hw c
      rw [hc] at hold
      rw [heq, eraseConn_self, hc]
      exact (books_of_canReclaim hcan hold).symm
    · rw [eraseConn_of_ne heq]
  | closeAccepted hl =>
    rw [foldl_closeFd]
    exact hw
  | _ => exact hw

end Worker

end Bycorf.Net
