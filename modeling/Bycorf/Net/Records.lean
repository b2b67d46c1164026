/-
  What a change does to the record of ONE connection.

  `Change` speaks of the whole worker; the invariants about a single connection (is its reader
  registered as a whole, in which mode does it receive, which descriptor does it have) only care
  about its record.  `Change.record` is the inversion they use: a change leaves the record alone,
  makes one `Record` step on it, creates it or erases it.
-/
import Bycorf.Net.References

namespace Bycorf.Net

open IoUring Lib

variable {L : Liburing Tag} {D : (ConnPtr → Option Connection) → Cqe Tag → Prop}

/-! ## Receive completions -/

namespace Connection

/-- The buffer that a receive completion adds to the queue, if any. -/
def recvData (o : Options) (cqe : Cqe Tag) (conn : Connection) : List ReceivedBuffer :=
  if 0 < cqe.res ∧ (cqe.buffer.isSome ∨ conn.useMultishot o = false) then
    [⟨cqe.buffer.getD 0, UInt32.ofNat cqe.res.toNat, 0⟩]
  else []

/-- The record after a receive completion that adds `data` to the queue. -/
structure Received (data : List ReceivedBuffer) (conn conn' : Connection) : Prop where
  file : conn'.file = conn.file := by rfl
  closed : conn'.closed = conn.closed := by rfl
  retired : conn'.retired = conn.retired := by rfl
  recvMode : conn'.recvMode = conn.recvMode := by rfl
  receivedBuffers : conn'.receivedBuffers = conn.receivedBuffers ++ data
  reader :
    conn.readInflight = conn.readWaiter.isSome → conn'.readInflight = conn'.readWaiter.isSome := by
      exact id

theorem Received.trans {data : List ReceivedBuffer} {conn conn' conn'' : Connection}
    (h : Received data conn conn') (h' : Received [] conn' conn'') :
    Received data conn conn'' where
  file := h'.file.trans h.file
  closed := h'.closed.trans h.closed
  retired := h'.retired.trans h.retired
  recvMode := h'.recvMode.trans h.recvMode
  receivedBuffers := by rw [h'.receivedBuffers, h.receivedBuffers, append_nil]
  reader hreader := h'.reader (h.reader hreader)

theorem received_self (conn : Connection) : Received [] conn conn :=
  { receivedBuffers := (append_nil _).symm }

theorem recvResult_received (o : Options) (now : Int) (cqe : Cqe Tag) (conn : Connection) :
    Received (conn.recvData o cqe) conn (conn.recvResult o now cqe).2 := by
  unfold recvResult recvData
  split
  · exact { receivedBuffers := rfl }
  split
  · exact { receivedBuffers := (append_nil _).symm }
  split
  · exact { receivedBuffers := (append_nil _).symm }
  · split <;> exact { receivedBuffers := (append_nil _).symm }

theorem recvEnd_received (o : Options) (conn : Connection) :
    Received [] conn (conn.recvEnd o).2 := by
  unfold recvEnd
  dsimp only
  split
  · split <;> exact { receivedBuffers := (append_nil _).symm }
  · split <;> exact { receivedBuffers := (append_nil _).symm }

theorem takeReader_received (conn : Connection) : Received [] conn conn.takeReader.2 := by
  unfold takeReader
  split
  · exact { receivedBuffers := (append_nil _).symm, reader := fun _ => rfl }
  · exact received_self conn

/-- **`HandleMultishotRecv`, on the record.** -/
theorem handleMultishotRecv_received (o : Options) (now : Int) (cqe : Cqe Tag) (conn : Connection) :
    Received (conn.recvData o cqe) conn (conn.handleMultishotRecv o now cqe).conn := by
  have hresult := conn.recvResult_received o now cqe
  have hended : Received (conn.recvData o cqe) conn
      (if cqe.more then (false, (conn.recvResult o now cqe).2)
        else (conn.recvResult o now cqe).2.recvEnd o).2 := by
    split
    · exact hresult
    · exact hresult.trans (recvEnd_received o _)
  unfold handleMultishotRecv
  dsimp only
  split
  · exact hended.trans (takeReader_received _)
  · exact hended

end Connection

namespace Worker

/-! ## One step of a record -/

variable (D) in
/-- What a change from `w` to `w'` does to the record of connection `c`. -/
inductive Record (w w' : Worker) (c : ConnPtr) : Connection → Connection → Prop where
  | received {conn : Connection} {cqe : Cqe Tag} (now : Int) :
      cqe.userData = .recv c → D w.connections cqe →
      Record w w' c conn (conn.handleMultishotRecv w.options now cqe).conn
  | disconnected {conn : Connection} (cqe : Cqe Tag) :
      Record w w' c conn (conn.handlePeerDisconnect cqe).2
  | written {conn : Connection} : Record w w' c conn conn.writeComplete
  | startRecv {conn : Connection} :
      Record w w' c conn { conn with recvArmed := true, inflightOps := conn.inflightOps + 1 }
  | startDisconnect {conn : Connection} :
      Record w w' c conn { conn with
        peerDisconnectPollArmed := true
        peerDisconnectPollCancelRequested := false
        inflightOps := conn.inflightOps + 1 }
  | startWrite {conn : Connection} :
      Record w w' c conn { conn with writeInflight := true, inflightOps := conn.inflightOps + 1 }
  | touch {conn conn' : Connection} : conn.Tame conn' → Record w w' c conn conn'
  | startClose {conn : Connection} :
      Record w w' c conn { conn with closing := true, state := .closing }
  | closeFd {conn : Connection} :
      Record w w' c conn { conn with file := { conn.file with fd := -1 }, closed := true }
  | markClosed {conn : Connection} : Record w w' c conn { conn with closed := true }
  | release {conn : Connection} {ids : List UInt16} {rest : List ReceivedBuffer} :
      conn.receivedBuffers.map ReceivedBuffer.bufferId = ids ++ rest.map ReceivedBuffer.bufferId →
      Record w w' c conn { conn with receivedBuffers := rest }
  | retire {conn : Connection} (state : ConnectionState) :
      conn.receivedBuffers = [] → c ∈ w'.retiredConnectionIds →
      Record w w' c conn { conn with retired := true, closing := true, state := state }
  | drain {conn : Connection} : Record w w' c conn { conn with state := .draining }

variable (D) in
/-- What a change from `w` to `w'` does to the entry of `c` in the table. -/
inductive AtEntry (w w' : Worker) (c : ConnPtr) : Prop where
  | same : w'.connections c = w.connections c → AtEntry w w' c
  | record {conn conn' : Connection} :
      w.connections c = some conn → w'.connections c = some conn' → Record D w w' c conn conn' →
      AtEntry w w' c
  | add {file : RegisteredFile} (mode : RecvMode) (buffer : UInt64) (now : Int) :
      c = w.nextConnectionId → validFd file.fd = true →
      w'.connections c =
        some { Connection.fresh file mode buffer with lastActiveMs := now } →
      w'.owner = Function.update w.owner file.fd (.connection c) → AtEntry w w' c
  | erase {conn : Connection} :
      w.connections c = some conn → conn.canReclaim = true → w'.connections c = none →
      AtEntry w w' c

variable {w w' : Worker} {c : ConnPtr}

/-- A change that replaces one record. -/
theorem AtEntry.of_update {conn conn' : Connection} (hc : w.connections c = some conn)
    (hconns : w'.connections = Function.update w.connections c (some conn'))
    (hrecord : Record D w w' c conn conn') (c' : ConnPtr) : AtEntry D w w' c' := by
  by_cases heq : c' = c
  · subst heq
    refine .record hc ?_ hrecord
    rw [hconns, update_self]
  refine .same ?_
  rw [hconns, update_of_ne heq]

/-- A handler that replaces the record, if there is one. -/
theorem AtEntry.of_modifyConn {w : Worker} {b : Backend Tag} {f : Connection → Connection}
    (hf : ∀ w' conn, Record D w w' c conn (f conn)) (c' : ConnPtr) :
    AtEntry D w (({ w with backend := b } : Worker).modifyConn c f) c' := by
  rcases hc : w.connections c with _ | conn
  · rw [modifyConn_none (by exact hc)]
    exact .same rfl
  rw [modifyConn_connections (by exact hc)]
  exact .of_update hc rfl (hf _ conn) c'

/-- **What a change does to an entry of the table.** -/
theorem Change.atEntry (h : Change L D w w') (c' : ConnPtr) : AtEntry D w w' c' := by
  cases h with
  | complete hc =>
    obtain ⟨e, b, _, _, _, rfl⟩ := kernelComplete_spec hc
    exact .same rfl
  | @recvDone cqe b c now ht hdata hD =>
    rcases hc : w.connections c with _ | conn
    · rw [handleRecv_none (by exact hc)]
      exact .same rfl
    rw [handleRecv_some (by exact hc)]
    exact .of_update hc rfl (.received now hdata hD) c'
  | @disconnectDone cqe b c ht hdata => exact .of_modifyConn (fun _ _ => .disconnected cqe) c'
  | writeDone ht hdata => exact .of_modifyConn (fun _ _ => .written) c'
  | @acceptDone cqe b l ht hdata => exact .same (congrFun (acceptDone_connections ..) c')
  | startRecv hc _ _ _ => exact .of_update hc rfl .startRecv c'
  | startDisconnect hc _ _ => exact .of_update hc rfl .startDisconnect c'
  | startWrite hc _ _ _ => exact .of_update hc rfl .startWrite c'
  | touch hc htame => exact .of_update hc rfl (.touch htame) c'
  | add file mode buffer now hfd _ =>
    rw [addConnection_eq hfd]
    by_cases heq : c' = w.nextConnectionId
    · subst heq
      exact .add mode buffer now rfl hfd (setConn_self ..) rfl
    · exact .same (setConn_of_ne heq ..)
  | startClose hc =>
    rw [leaveActive_eq]
    exact .of_update hc rfl .startClose c'
  | closeFd hc _ _ => exact .of_update hc rfl .closeFd c'
  | markClosed hc _ => exact .of_update hc rfl .markClosed c'
  | release hc hids => exact .of_update hc rfl (.release hids) c'
  | retire state hc _ _ hempty =>
    exact .of_update hc rfl (.retire state hempty List.mem_concat_self) c'
  | @reclaim c conn _ hc hcan =>
    by_cases heq : c' = c
    · subst heq
      exact .erase hc hcan (eraseConn_self ..)
    · exact .same (eraseConn_of_ne heq ..)
  | drain _ hc => exact .of_update hc rfl .drain c'
  | closeAccepted hl =>
    rw [foldl_closeFd]
    exact .same rfl
  | _ => exact .same rfl

/-- Where a record of the table comes from. -/
theorem Change.origin (h : Change L D w w') {conn' : Connection}
    (hc' : w'.connections c = some conn') : w.connections c = some conn' ∨
    (∃ conn, w.connections c = some conn ∧ Record D w w' c conn conn') ∨
    ∃ file mode buffer now, conn' = { Connection.fresh file mode buffer with lastActiveMs := now } ∧
      validFd file.fd = true ∧ w'.owner = Function.update w.owner file.fd (.connection c) := by
  cases h.atEntry c with
  | same hsame => exact .inl (hsame.symm.trans hc')
  | @record conn conn'' hc hnew hrecord =>
    obtain rfl : conn'' = conn' := Option.some.inj (hnew.symm.trans hc')
    exact .inr (.inl ⟨conn, hc, hrecord⟩)
  | add mode buffer now _ hvalid hnew howner =>
    have heq := Option.some.inj (hc'.symm.trans hnew)
    exact .inr (.inr ⟨_, mode, buffer, now, heq, hvalid, howner⟩)
  | erase _ _ hnone =>
    rw [hnone] at hc'
    cases hc'

end Worker

end Bycorf.Net
