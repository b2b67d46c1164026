/-
  After the close: what keeps a retired connection in the table, and where its buffers go.

  1. **The readers and the lists** — a reader is registered as a whole, and a retired connection is
     on the list that `ReclaimConnections` walks (`Listed`).
  2. **Provided buffers** — every buffer given to a connection has been returned to the buffer ring
     or is in its queue, counted per connection and buffer (`Provided`).
  3. **Late data** — `RetireConnection` empties the queue once.  A receive that is cancelled may
     still deliver data afterwards, and `HandleMultishotRecv` queues it: the connection then stays
     in the table and the buffer is lost to the ring.  `NoLateData` is the condition on a
     run under which that does not happen, and `reachable_retired_is_reclaimed` what holds then.
-/
import Bycorf.Net.Reclaim
import Bycorf.Net.Records

namespace Bycorf.Net.Worker

open IoUring Lib Function
open Connection (useMultishot)
open List (count_append)
open Option (some.inj some_ne_none)
open ReceivedBuffer (bufferId)

variable {L : Liburing Tag} {D : (ConnPtr → Option Connection) → Cqe Tag → Prop}

/-! ## What no handler touches -/

variable {w w' : Worker}

/-- The options never change, and a connection stays on the retired list while it is in the
    table. -/
theorem Change.frame (h : Change L D w w') :
    w'.options = w.options ∧ ∀ c ∈ w.retiredConnectionIds, w'.connections c ≠ none →
      c ∈ w'.retiredConnectionIds := by
  have hkeep : ∀ v : Worker, v.options = w.options →
      v.retiredConnectionIds = w.retiredConnectionIds →
      v.options = w.options ∧ ∀ c ∈ w.retiredConnectionIds, v.connections c ≠ none →
        c ∈ v.retiredConnectionIds := by
    intro v hoptions hids
    refine ⟨hoptions, fun c hc _ => ?_⟩
    rw [hids]
    exact hc
  cases h with
  | complete hc =>
    obtain ⟨e, b, _, _, _, rfl⟩ := kernelComplete_spec hc
    exact hkeep _ rfl rfl
  | recvDone now ht =>
    rw [(handleRecv_frame ..).choose_spec]
    exact hkeep _ rfl rfl
  | disconnectDone ht | writeDone ht =>
    rw [(modifyConn_frame ..).choose_spec]
    exact hkeep _ rfl rfl
  | @acceptDone cqe b l ht hdata =>
    rw [(acceptDone_frame ..).choose_spec]
    exact hkeep _ rfl rfl
  | add file mode buffer now hfd _ =>
    rw [addConnection_eq hfd]
    exact hkeep _ rfl rfl
  | startClose hc =>
    rw [leaveActive_eq]
    exact hkeep _ rfl rfl
  | retire state hc _ _ _ => exact ⟨rfl, fun c hc _ => mem_append_left _ hc⟩
  | keepRetired _ hall => exact ⟨rfl, hall⟩
  | closeAccepted hl =>
    rw [foldl_closeFd]
    exact hkeep _ rfl rfl
  | _ => exact hkeep _ rfl rfl

/-! ## Readers and the retired list -/

/-- A reader is registered as a whole, and a retired connection is on the list that
    `ReclaimConnections` walks. -/
structure Listed (w : Worker) : Prop where
  reader : ∀ c conn, w.connections c = some conn → conn.readInflight = conn.readWaiter.isSome
  retired : ∀ c conn, w.connections c = some conn → conn.retired = true → c ∈ w.retiredConnectionIds

variable {c : ConnPtr} {conn conn' : Connection}

theorem Record.reader
    (h : Record D w w' c conn conn') (hreader : conn.readInflight = conn.readWaiter.isSome) :
    conn'.readInflight = conn'.readWaiter.isSome := by
  cases h with
  | @received cqe now _ _ =>
    exact (conn.handleMultishotRecv_received w.options now cqe).reader hreader
  | touch htame => exact htame.reader hreader
  | _ => exact hreader

/-- Only `RetireConnection` retires. -/
theorem Record.retired (h : Record D w w' c conn conn') (hret : conn'.retired = true) :
    conn.retired = true ∨ (c ∈ w'.retiredConnectionIds ∧ conn'.receivedBuffers = []) := by
  cases h with
  | @received cqe now _ _ =>
    rw [(conn.handleMultishotRecv_received w.options now cqe).retired] at hret
    exact .inl hret
  | touch htame =>
    rw [htame.retired] at hret
    exact .inl hret
  | retire state hempty hmem => exact .inr ⟨hmem, hempty⟩
  | _ => exact .inl hret

theorem Change.listed (h : Change L D w w') (hw : w.Listed) : w'.Listed := by
  constructor
  · intro c conn' hc'
    rcases h.origin hc' with hc | ⟨conn, hc, hrecord⟩ | ⟨file, mode, buffer, now, rfl, -⟩
    · exact hw.reader c conn' hc
    · exact hrecord.reader (hw.reader c conn hc)
    · rfl
  · intro c conn' hc' hret
    have hkept : c ∈ w.retiredConnectionIds → c ∈ w'.retiredConnectionIds :=
      fun hmem => h.frame.2 c hmem (by rw [hc']; exact some_ne_none conn')
    rcases h.origin hc' with hc | ⟨conn, hc, hrecord⟩ | ⟨file, mode, buffer, now, rfl, -⟩
    · exact hkept (hw.retired c conn' hc hret)
    · rcases hrecord.retired hret with hold | ⟨hmem, _⟩
      · exact hkept (hw.retired c conn hc hold)
      · exact hmem
    · cases hret

/-! ## Provided buffers -/

/-- Connection `c` receives into provided buffers. -/
def multishot (w : Worker) (c : ConnPtr) : Prop :=
  ∃ conn, w.connections c = some conn ∧ conn.useMultishot w.options = true

/-- The provided buffers in the queue of a connection. -/
def heldOf (o : Options) : Option Connection → List UInt16
  | some conn =>
    if conn.useMultishot o then conn.receivedBuffers.map ReceivedBuffer.bufferId else []
  | none => []

/-- The ids of the provided buffers that a connection holds. -/
def held (w : Worker) (c : ConnPtr) : List UInt16 := heldOf w.options (w.connections c)

theorem held_some (hc : w.connections c = some conn) : w.held c = heldOf w.options (some conn) := by
  rw [held, hc]

/-- The provided buffers outside the kernel: in the ring and in the queues, and how many were
    given to a connection and returned. -/
structure Stock (w : Worker) : Prop where
  inRing : ∀ b ∈ w.bufferRing, b.toNat < w.options.recvBufferCount
  inQueue : ∀ c, ∀ b ∈ w.held c, b.toNat < w.options.recvBufferCount
  books : ∀ c b, w.given.count (c, b) = w.returned.count (c, b) + (w.held c).count b

/-- Where the provided buffers are: only a connection that receives into them gets one. -/
structure Provided (w : Worker) : Prop where
  stock : w.Stock
  entries : ∀ e ∈ w.backend.unsubmitted ++ w.backend.kernel, ∀ c,
    e.sqe.userData = .recv c → e.sqe.bufferSelect = true → w.multishot c
  cq : ∀ x ∈ w.backend.cq, ∀ c b, x.userData = .recv c → x.buffer = some b →
    w.multishot c ∧ b.toNat < w.options.recvBufferCount

/-- The receive mode changes only while no receive is armed. -/
theorem Record.recvMode (h : Record D w w' c conn conn') :
    conn'.recvMode = conn.recvMode ∨ conn'.recvArmed = false := by
  cases h with
  | @received cqe now _ _ =>
    exact .inl (conn.handleMultishotRecv_received w.options now cqe).recvMode
  | touch htame =>
    rcases htame.mode with hmode | ⟨harmed, _⟩
    · exact .inl hmode
    · exact .inr (htame.recvArmed.trans harmed)
  | _ => exact .inl rfl

theorem Change.multishot (h : Change L D w w')
    (hm : w.multishot c) (hc' : w'.connections c = some conn') (harmed : conn'.recvArmed = true) :
    w'.multishot c := by
  obtain ⟨conn, hc, hmode⟩ := hm
  refine ⟨conn', hc', ?_⟩
  rw [h.frame.1]
  rcases h.origin hc' with hold | ⟨conn₀, hold, hrecord⟩ | ⟨file, mode, buffer, now, rfl, -⟩
  · obtain rfl : conn = conn' := some.inj (hc.symm.trans hold)
    exact hmode
  · obtain rfl : conn₀ = conn := some.inj (hold.symm.trans hc)
    rcases hrecord.recvMode with hsame | hidle
    · rw [useMultishot, hsame]
      exact hmode
    rw [hidle] at harmed
    cases harmed
  · cases harmed

/-- Nothing is given or returned. -/
theorem Stock.same (h : w.Stock) (hopt : w'.options = w.options)
    (hring : ∀ b ∈ w'.bufferRing, b ∈ w.bufferRing) (hgiven : w'.given = w.given)
    (hreturned : w'.returned = w.returned) (hheld : ∀ c, w'.held c = w.held c) : w'.Stock where
  inRing b hb := by
    rw [hopt]
    exact h.inRing b (hring b hb)
  inQueue c b hb := by
    rw [hopt]
    rw [hheld] at hb
    exact h.inQueue c b hb
  books c b := by
    rw [hgiven, hreturned, hheld]
    exact h.books c b

theorem held_update (hopt : w'.options = w.options) (hc : w.connections c = some conn)
    (hconns : w'.connections = update w.connections c (some conn'))
    (hheld : heldOf w.options (some conn') = heldOf w.options (some conn)) (c' : ConnPtr) :
    w'.held c' = w.held c' := by
  unfold held
  rw [hopt, hconns]
  by_cases heq : c' = c
  · rw [heq, update_self, hc, hheld]
  · rw [update_of_ne heq]

theorem count_map_pair (l : List UInt16) (c c' : ConnPtr) (b : UInt16) :
    (l.map fun id => (c, id)).count (c', b) = if c' = c then l.count b else 0 := by
  by_cases heq : c' = c
  · rw [if_pos heq, heq]
    exact List.count_map_of_injective l (fun id => (c, id))
      (fun x y hxy => (Prod.mk.inj hxy).2) b
  rw [if_neg heq, count_eq_zero]
  intro hmem
  obtain ⟨id, _, hid⟩ := mem_map.mp hmem
  exact heq (Prod.mk.inj hid).1.symm

/-- Buffers move between a connection's queue, the ring and the kernel: `fresh` are new, `back`
    are returned. -/
theorem Stock.move (h : w.Stock) (hopt : w'.options = w.options)
    {fresh back : List UInt16} (hring : w'.bufferRing = w.bufferRing ++ back)
    (hgiven : w'.given = w.given ++ fresh.map fun id => (c, id))
    (hreturned : w'.returned = w.returned ++ back.map fun id => (c, id))
    (hfresh : ∀ b ∈ fresh, b.toNat < w.options.recvBufferCount)
    (hothers : ∀ c', c' ≠ c → w'.held c' = w.held c')
    (hheld : (w.held c ++ fresh).Perm (back ++ w'.held c)) : w'.Stock where
  inRing b hb := by
    rw [hopt]
    rw [hring] at hb
    rcases mem_append.mp hb with hold | hback
    · exact h.inRing b hold
    have hmem := hheld.mem_iff.mpr (mem_append_left _ hback)
    rcases mem_append.mp hmem with hq | hf
    · exact h.inQueue c b hq
    · exact hfresh b hf
  inQueue c' b hb := by
    rw [hopt]
    by_cases heq : c' = c
    · subst heq
      have hmem := hheld.mem_iff.mpr (mem_append_right _ hb)
      rcases mem_append.mp hmem with hq | hf
      · exact h.inQueue c' b hq
      · exact hfresh b hf
    rw [hothers c' heq] at hb
    exact h.inQueue c' b hb
  books c' b := by
    have hold := h.books c' b
    rw [hgiven, hreturned, count_append, count_append, count_map_pair, count_map_pair]
    by_cases heq : c' = c
    · subst heq
      have hcount := hheld.count_eq b
      rw [count_append, count_append] at hcount
      rw [if_pos rfl, if_pos rfl]
      omega
    rw [if_neg heq, if_neg heq, hothers c' heq]
    omega

theorem heldOf_received {o : Options} {data : List ReceivedBuffer}
    (h : Connection.Received data conn conn') :
    heldOf o (some conn') = heldOf o (some conn) ++
      if conn.useMultishot o then data.map bufferId else [] := by
  have hmode : conn'.useMultishot o = conn.useMultishot o := by
    rw [useMultishot, h.recvMode, useMultishot]
  rw [heldOf, heldOf, hmode, h.receivedBuffers]
  split
  · rw [map_append]
  · rfl

variable {cqe : Cqe Tag}

/-- A receive completion queues its buffer or gives it straight back. -/
theorem buffer_split (hbuffer : ∀ b, cqe.buffer = some b →
      conn.useMultishot w.options = true ∧ b.toNat < w.options.recvBufferCount) :
    cqe.buffer.toList = w.recycled (if cqe.res ≤ 0 then cqe.buffer else none) ++
        if conn.useMultishot w.options then
          (conn.recvData w.options cqe).map bufferId
        else [] := by
  rcases hb : cqe.buffer with _ | b
  · cases hmode : conn.useMultishot w.options <;> simp [recycled, Connection.recvData, hb, hmode]
  obtain ⟨hmode, hlt⟩ := hbuffer b hb
  have hon : w.options.recvMultishotEnabled = true := by
    rw [useMultishot, and_eq_true] at hmode
    exact hmode.1
  by_cases hres : cqe.res ≤ 0
  · simp [recycled, Connection.recvData, hb, hmode, hon, hlt, hres, Int.not_lt.mpr hres]
  · simp [recycled, Connection.recvData, hb, hmode, hres, Int.not_le.mp hres]

/-- `HandleMultishotRecv`. -/
theorem Stock.recvDone (h : w.Stock) {b : Backend Tag} (hbuffer : ∀ b, cqe.buffer = some b →
      w.multishot c ∧ b.toNat < w.options.recvBufferCount) (now : Int) :
    (({ w with backend := b } : Worker).handleRecv c now cqe).Stock := by
  rcases hc : w.connections c with _ | conn
  · rw [handleRecv_none (by exact hc)]
    exact { h with }
  have hmine : ∀ b, cqe.buffer = some b →
      conn.useMultishot w.options = true ∧ b.toNat < w.options.recvBufferCount := by
    intro b hb
    obtain ⟨⟨conn', hc', hmode⟩, hlt⟩ := hbuffer b hb
    obtain rfl : conn = conn' := some.inj (hc.symm.trans hc')
    exact ⟨hmode, hlt⟩
  have hfresh : ∀ b ∈ cqe.buffer.toList, b.toNat < w.options.recvBufferCount :=
    fun b hb => (hmine b (Option.mem_toList.mp hb)).2
  have hreceived := conn.handleMultishotRecv_received w.options now cqe
  rw [handleRecv_some (by exact hc)]
  refine h.move rfl rfl ?_ rfl hfresh ?_ ?_
  · show _ = w.given ++ cqe.buffer.toList.map fun id => (c, id)
    cases cqe.buffer <;> rfl
  · intro c' hne
    exact congrArg (heldOf w.options) (update_of_ne hne ..)
  · rw [buffer_split hmine]
    show List.Perm _ (w.recycled (if cqe.res ≤ 0 then cqe.buffer else none) ++
      heldOf w.options (update w.connections c _ c))
    rw [update_self, held_some hc, heldOf_received hreceived]
    exact List.perm_append_comm_assoc ..

/-- What a read releases leaves the queue of its connection. -/
theorem Stock.release (h : w.Stock)
    {ids : List UInt16} {rest : List ReceivedBuffer} (hc : w.connections c = some conn)
    (hids : conn.receivedBuffers.map bufferId =
      ids ++ rest.map bufferId) :
    Stock { w.setConn c { conn with receivedBuffers := rest } with
      bufferRing := w.bufferRing ++ w.recyclable conn ids
      returned := w.returned ++ (w.recyclable conn ids).map fun id => (c, id) } := by
  have hheld : w.held c = w.recyclable conn ids ++
      heldOf w.options (some { conn with receivedBuffers := rest }) := by
    rw [held_some hc]
    cases hmode : conn.useMultishot w.options
    · have hmode' : ({ conn with receivedBuffers := rest } : Connection).useMultishot w.options =
        false := hmode
      simp only [heldOf, recyclable, hmode, hmode', Bool.false_eq_true, if_false, append_nil]
    have hall : ∀ b ∈ ids, decide (b.toNat < w.options.recvBufferCount) = true := by
      intro b hb
      refine decide_eq_true (h.inQueue c b ?_)
      rw [held_some hc, heldOf, if_pos hmode, hids]
      exact mem_append_left _ hb
    have hmode' : ({ conn with receivedBuffers := rest } : Connection).useMultishot w.options =
      true := hmode
    rw [heldOf, heldOf, recyclable, if_pos hmode, if_pos hmode', if_pos hmode,
      List.filter_eq_self.mpr hall, hids]
  have hnone : ∀ b ∈ ([] : List UInt16), b.toNat < w.options.recvBufferCount := by
    intro b hb
    cases hb
  refine h.move rfl rfl (append_nil _).symm rfl hnone ?_ ?_
  · intro c' hne
    exact congrArg (heldOf w.options) (update_of_ne hne ..)
  · rw [append_nil, hheld]
    refine List.Perm.of_eq (congrArg _ ?_)
    exact congrArg (heldOf w.options) (setConn_self ..).symm

/-! ## Every change keeps the buffers accounted for -/

/-- The buffer of a receive completion that is dispatched. -/
theorem Provided.taken (hw : w.Provided) {b : Backend Tag}
    (ht : Taken w.backend cqe b) (hdata : cqe.userData = .recv c) (id : UInt16)
    (hid : cqe.buffer = some id) : w.multishot c ∧ id.toNat < w.options.recvBufferCount := by
  cases ht with
  | reap _ hcq => exact hw.cq cqe (by rw [hcq]; exact mem_cons_self) c id hdata hid
  | deferred _ => cases hid

theorem heldOf_tame {o : Options} (h : conn.Tame conn') :
    heldOf o (some conn') = heldOf o (some conn) := by
  rw [heldOf, heldOf, h.receivedBuffers]
  rcases h.mode with hmode | ⟨_, hempty⟩
  · rw [useMultishot, hmode, useMultishot]
  rw [hempty]
  simp

theorem Change.stock (h : Change L D w w') (htable : w.Table) (hw : w.Provided) : w'.Stock := by
  have hstock := hw.stock
  -- one record is replaced by one with the same buffers
  have hupdate : ∀ {v : Worker} {c : ConnPtr} {conn conn' : Connection},
      v.options = w.options → v.bufferRing = w.bufferRing → v.given = w.given →
      v.returned = w.returned → w.connections c = some conn →
      v.connections = update w.connections c (some conn') →
      heldOf w.options (some conn') = heldOf w.options (some conn) → v.Stock := by
    intro v c conn conn' hopt hring hgiven hreturned hc hconns hheld
    exact hstock.same hopt (fun b hb => hring ▸ hb) hgiven hreturned
      (held_update hopt hc hconns hheld)
  have hkeep : ∀ {v : Worker}, v.options = w.options → v.bufferRing = w.bufferRing →
      v.given = w.given → v.returned = w.returned → v.connections = w.connections → v.Stock := by
    intro v hopt hring hgiven hreturned hconns
    refine hstock.same hopt (fun b hb => hring ▸ hb) hgiven hreturned fun c => ?_
    rw [held, held, hopt, hconns]
  have hmodify : ∀ {c : ConnPtr} {b : Backend Tag} {f : Connection → Connection},
      (∀ conn, heldOf w.options (some (f conn)) = heldOf w.options (some conn)) →
      (({ w with backend := b } : Worker).modifyConn c f).Stock := by
    intro c b f hf
    rcases hc : w.connections c with _ | conn
    · rw [modifyConn_none (by exact hc)]
      exact hkeep rfl rfl rfl rfl rfl
    rw [modifyConn_connections (by exact hc)]
    exact hupdate rfl rfl rfl rfl hc rfl (hf conn)
  cases h with
  | complete hc =>
    obtain ⟨e, b, _, _, _, rfl⟩ := kernelComplete_spec hc
    exact hstock.same rfl (fun b hb => (mem_filter.mp hb).1) rfl rfl fun _ => rfl
  | recvDone now ht hdata _ => exact hstock.recvDone (hw.taken ht hdata) now
  | disconnectDone ht hdata | writeDone ht hdata => exact hmodify fun _ => rfl
  | @acceptDone cqe b l ht hdata =>
    rw [(acceptDone_frame ..).choose_spec]
    exact hkeep rfl rfl rfl rfl rfl
  | startRecv hc _ _ _ | startDisconnect hc _ _ | startWrite hc _ _ _ | closeFd hc _ _
  | markClosed hc _ | retire state hc _ _ _ | drain _ hc => exact hupdate rfl rfl rfl rfl hc rfl rfl
  | touch hc htame => exact hupdate rfl rfl rfl rfl hc rfl (heldOf_tame htame)
  | add file mode buffer now hfd _ =>
    rw [addConnection_eq hfd]
    refine hstock.same rfl (fun b hb => hb) rfl rfl fun c => ?_
    by_cases heq : c = w.nextConnectionId
    · rw [heq, held, held, htable.fresh _ le_rfl]
      rw [setConn_self, heldOf]
      simp [Connection.fresh, heldOf]
    · exact congrArg (heldOf w.options) (setConn_of_ne heq ..)
  | startClose hc =>
    rw [leaveActive_eq]
    exact hupdate rfl rfl rfl rfl hc rfl rfl
  | release hc hids => exact hstock.release hc hids
  | @reclaim c conn _ hc hcan =>
    refine hstock.same rfl (fun b hb => hb) rfl rfl fun c' => ?_
    by_cases heq : c' = c
    · have hempty : conn.receivedBuffers = [] := by
        simp only [Connection.canReclaim, and_eq_true] at hcan
        exact List.isEmpty_iff.mp hcan.2
      rw [heq, held_some hc, held, eraseConn_self, heldOf, heldOf, hempty]
      simp
    · exact congrArg (heldOf w.options) (eraseConn_of_ne heq ..)
  | closeAccepted hl =>
    rw [foldl_closeFd]
    exact hkeep rfl rfl rfl rfl rfl
  | _ => exact hkeep rfl rfl rfl rfl rfl

/-- A receive with buffer selection is submitted for a connection in multishot mode. -/
theorem multishot_of_accepts {sub : Submission Tag} (h : w.Accepts sub) {op : Nat}
    (hdata : (Backend.entryOf L sub op).sqe.userData = .recv c)
    (hselect : (Backend.entryOf L sub op).sqe.bufferSelect = true) : w.multishot c := by
  rw [userData_entryOf] at hdata
  rcases h with hharmless | ⟨r, rfl, hr⟩
  · have hout : outside sub.userData = true := by
      cases sub with
      | request r => exact hharmless.1
      | cancel target completion => exact hharmless
    rw [hdata] at hout
    cases hout
  rw [bufferSelect_entryOf] at hselect
  cases hr with
  | @recv c' conn hc _ =>
    obtain rfl : c' = c := UserData.recv.inj hdata
    exact ⟨conn, hc, hselect⟩
  | _ => cases hdata

theorem Change.provided (h : Change L D w w') (hs : w.Sound) (hw : w.Provided) : w'.Provided := by
  have hs' := h.sound hs
  -- what is in flight keeps the mode of its connection
  have hmode : ∀ c, w.multishot c → ⟨.recv, c⟩ ∈ w'.uses → w'.multishot c := by
    intro c hm huse
    obtain ⟨conn', hc', harmed⟩ := hs'.armed huse
    exact h.multishot hm hc' harmed
  refine ⟨h.stock hs.table hw, ?_, ?_⟩
  · intro e he c hdata hselect
    have huse : ⟨.recv, c⟩ ∈ w'.uses := hs'.entry_mem_uses he (by rw [hdata]; rfl)
    refine hmode c ?_ huse
    rcases mem_append.mp he with hu | hk
    · rcases h.effect.mem_unsubmitted hu with hold | rfl | ⟨sub, hsub, rfl⟩
      · exact hw.entries e (mem_append_left _ hold) c hdata hselect
      · cases hdata
      · exact multishot_of_accepts hsub hdata hselect
    rcases h.effect.mem_kernel hk with hold | hold
    · exact hw.entries e (mem_append_right _ hold) c hdata hselect
    · exact hw.entries e (mem_append_left _ hold) c hdata hselect
  · intro x hx c b hdata hb
    have huse : ⟨.recv, c⟩ ∈ w'.uses := hs'.cqe_mem_uses hx (by rw [hdata]; rfl)
    rw [h.frame.1]
    rcases h.effect.mem_cq hx with hold | rfl | ⟨e, he, res, more, buffer, hmay, rfl⟩
    · obtain ⟨hm, hlt⟩ := hw.cq x hold c b hdata hb
      exact ⟨hmode c hm huse, hlt⟩
    · cases hdata
    · obtain rfl : buffer = some b := hb
      simp only [kernelMay, Option.all_some, and_eq_true, List.contains_iff_mem] at hmay
      obtain ⟨⟨_, hselect, hring⟩, _⟩ := hmay
      have hm := hw.entries e (mem_append_right _ he) c hdata hselect
      exact ⟨hmode c hm huse, hw.stock.inRing b hring⟩

/-! ## Late data -/

/-- A receive completion with data for a connection that is already retired. -/
def lateData (connections : ConnPtr → Option Connection) (cqe : Cqe Tag) : Bool :=
  match cqe.userData with
  | .recv c => 0 < cqe.res && (connections c).any fun conn => conn.retired
  | _ => false

/-- A receive completion with data finds its connection not yet retired. -/
def Timely (connections : ConnPtr → Option Connection) (cqe : Cqe Tag) : Prop :=
  lateData connections cqe = false

/-- The step dispatches no data to a retired connection. -/
def NoLateData (w : Worker) (a : Action) : Prop :=
  ∀ cqe ∈ w.dispatched a, Timely w.connections cqe

instance (w : Worker) (a : Action) : Decidable (NoLateData w a) :=
  inferInstanceAs (Decidable (∀ cqe ∈ w.dispatched a, lateData w.connections cqe = false))

/-- The queue of a retired connection is empty. -/
def Drained (w : Worker) : Prop :=
  ∀ c conn, w.connections c = some conn → conn.retired = true → conn.receivedBuffers = []

theorem Record.drained (h : Record Timely w w' c conn conn') (hc : w.connections c = some conn)
    (hempty : conn.retired = true → conn.receivedBuffers = []) (hret : conn'.retired = true) :
    conn'.receivedBuffers = [] := by
  cases h with
  | @received cqe now hdata htimely =>
    have hreceived := conn.handleMultishotRecv_received w.options now cqe
    rw [hreceived.retired] at hret
    have hres : ¬0 < cqe.res := by
      intro hpos
      have hlate : lateData w.connections cqe = true := by
        simp [lateData, hdata, hc, hpos, hret]
      rw [show lateData w.connections cqe = false from htimely] at hlate
      cases hlate
    rw [hreceived.receivedBuffers, hempty hret, Connection.recvData, if_neg fun hand => hres hand.1]
    rfl
  | touch htame =>
    rw [htame.receivedBuffers]
    exact hempty (htame.retired ▸ hret)
  | release hids =>
    rw [hempty hret] at hids
    exact List.map_eq_nil_iff.mp (List.append_eq_nil_iff.mp hids.symm).2
  | retire state hnil _ => exact hnil
  | _ => exact hempty hret

theorem Change.drained (h : Change L Timely w w') (hw : w.Drained) : w'.Drained := by
  intro c conn' hc' hret
  rcases h.origin hc' with hc | ⟨conn, hc, hrecord⟩ | ⟨file, mode, buffer, now, rfl, -⟩
  · exact hw c conn' hc hret
  · exact hrecord.drained hc (hw c conn hc) hret
  · rfl

/-! ## The retired connection is reclaimed -/

theorem reclaimLoop_none (ids still : List ConnPtr)
    (hc : w.connections c = none) : (reclaimLoop ids still w).connections c = none := by
  induction ids generalizing still w with
  | nil => exact hc
  | cons d ids ih =>
    unfold reclaimLoop
    split
    next => exact ih still hc
    rename_i conn hd
    have hne : c ≠ d := by
      rintro rfl
      rw [hc] at hd
      cases hd
    split
    · exact ih still ((eraseConn_of_ne hne w).trans hc)
    · exact ih (still ++ [d]) ((setConn_of_ne hne _ w).trans hc)

/-- What can be reclaimed and is on the list is erased. -/
theorem reclaimLoop_erases (ids still : List ConnPtr)
    (hmem : c ∈ ids) (hc : w.connections c = some conn)
    (hcan : conn.canReclaim = true) : (reclaimLoop ids still w).connections c = none := by
  induction ids generalizing still w with
  | nil => cases hmem
  | cons d ids ih =>
    by_cases heq : c = d
    · subst heq
      unfold reclaimLoop
      rw [hc]
      dsimp only
      rw [if_pos hcan]
      exact reclaimLoop_none ids still (eraseConn_self c w)
    have hrest : c ∈ ids := (mem_cons.mp hmem).resolve_left heq
    unfold reclaimLoop
    split
    next => exact ih still hrest hc
    rename_i other hd
    split
    · exact ih still hrest ((eraseConn_of_ne heq w).trans hc)
    · exact ih (still ++ [d]) hrest ((setConn_of_ne heq _ w).trans hc)

/-- Everything that holds between two changes of a run without late data. -/
structure Closing (w : Worker) : Prop where
  sound : w.Sound
  listed : w.Listed
  provided : w.Provided
  drained : w.Drained

theorem Change.closing (h : Change L Timely w w') (hw : w.Closing) : w'.Closing :=
  ⟨h.sound hw.sound, h.listed hw.listed, h.provided hw.sound hw.provided, h.drained hw.drained⟩

section

variable (options : Options) (slots : List (Sqe Tag)) (wakeEventFd : Int)

theorem fresh_provided : (Worker.fresh options slots wakeEventFd).Provided := by
  refine ⟨⟨?_, ?_, ?_⟩, ?_, ?_⟩
  · intro b hb
    obtain ⟨n, hn, rfl⟩ := mem_map.mp hb
    have hlt : n < options.recvBufferCount := mem_range.mp hn
    exact Nat.lt_of_le_of_lt (Nat.mod_le n _) hlt
  · intro c b hb
    cases hb
  · intro c b
    rfl
  · intro e he
    cases he
  · intro x hx
    cases hx

theorem fresh_closing : (Worker.fresh options slots wakeEventFd).Closing where
  sound := fresh_sound options slots wakeEventFd
  listed := ⟨fun c conn hc => (by cases hc), fun c conn hc => (by cases hc)⟩
  provided := fresh_provided options slots wakeEventFd
  drained c conn hc := by cases hc

end

theorem reachable_closing (h : (system L).ReachableUnder NoLateData w) : w.Closing :=
  reachable_invariant (fun _ _ ha => ha) fresh_closing (fun _ _ hw hchange => hchange.closing hw) h

/-- With no operation, reader or borrow left, a retired connection can be reclaimed. -/
theorem Closing.canReclaim (hw : w.Closing)
    (hc : w.connections c = some conn) (hret : conn.retired = true)
    (hops : ∀ kind, (⟨kind, c⟩ : Use) ∉ w.uses) (hreader : conn.readWaiter = none)
    (hborrows : conn.storageBorrows = 0) : conn.canReclaim = true := by
  have hstate : conn.state ≠ .active := by
    have hinactive := (hw.sound.table.retired c (hw.listed.retired c conn hc hret)).2
    rw [hc] at hinactive
    exact of_decide_eq_false hinactive
  have hcounted := hw.sound.accounted c
  rw [hc] at hcounted
  have hidle : ∀ kind, conn.books.armed kind = false := by
    intro kind
    have hcount : (conn.books.armed kind).toNat = 0 := by
      rw [← Multiset.count_eq_zero.mpr (hops kind)]
      exact (hcounted.armed kind).symm
    exact Bool.toNat_eq_zero.mp hcount
  have hinflight : conn.inflightOps = 0 := by
    have htotal : conn.inflightOps = conn.books.total := hcounted.inflightOps
    rw [htotal, Books.total, hidle, hidle, hidle]
    rfl
  have hread : conn.readInflight = false := by
    rw [hw.listed.reader c conn hc, hreader]
    rfl
  have hrecv : conn.recvArmed = false := hidle .recv
  have hwrite : conn.writeInflight = false := hidle .send
  simp [Connection.canReclaim, hstate, hinflight, hborrows, hreader, hread, hwrite, hrecv,
    hw.drained c conn hc hret]

/-- **A retired connection is reclaimed, and its buffers are back.**  In every state of a run that
    dispatches no data to a connection already retired: a retired connection without an operation
    in flight, a waiting reader or a borrow is erased by `ReclaimConnections`, and every provided
    buffer it was given has been returned to the ring. -/
theorem reachable_retired_is_reclaimed {w : Worker}
    (h : (system L).ReachableUnder NoLateData w) {c : ConnPtr} {conn : Connection}
    (hc : w.connections c = some conn) (hret : conn.retired = true)
    (hops : ∀ kind, (⟨kind, c⟩ : Use) ∉ w.uses) (hreader : conn.readWaiter = none)
    (hborrows : conn.storageBorrows = 0) :
    w.reclaimConnections.connections c = none ∧
      ∀ b, w.returned.count (c, b) = w.given.count (c, b) := by
  have hw := reachable_closing h
  constructor
  · have hcan := hw.canReclaim hc hret hops hreader hborrows
    exact reclaimLoop_erases _ [] (hw.listed.retired c conn hc hret) hc hcan
  · intro b
    have hheld : w.held c = [] := by
      rw [held_some hc, heldOf, hw.drained c conn hc hret]
      simp
    have hbooks := hw.provided.stock.books c b
    rw [hheld] at hbooks
    exact hbooks.symm

/-- A worker with two SQ slots and two provided buffers. -/
def smallWorker : Worker :=
  Worker.fresh ⟨true, 2, 64, 0, fun _ => Status.mk .unknown⟩ [Sqe.zero, Sqe.zero] 3

/-- A connection is opened and its receive reaches the kernel. -/
def openAndReceive : List Action :=
  [.socket 7, .addConnection ⟨7, 0, false⟩ .multishot 0 1, .ensureRecvArmed 1, .submit 1 1]

/-- One pass of `Poll` with `n` completions in the ring and none deferred. -/
def pollPass (n : Nat) : List Action :=
  .poll :: List.replicate (n + 1) (.reap false 2) ++ [.deferred false 2, .rearm]

/-- The kernel cancels the receive and completes the cancel request. -/
def cancelReceive : List Action :=
  [.submit 1 1, .complete 0 (-125) false none, .complete 0 0 false none]

/-- Data arrives and is dispatched, then the connection is closed and the receive is cancelled. -/
def dataThenClose : List Action :=
  openAndReceive ++ [.complete 0 5 true (some 0)] ++ pollPass 1 ++
    [.beginClose 1 Status.okStatus .localClose] ++ cancelReceive ++ pollPass 2

theorem reachable_retired_is_reclaimed_demo :
    ∃ w conn, (system (Liburing.standard Tag)).run smallWorker dataThenClose = some w ∧
      w.connections 1 = some conn ∧ conn.state = .draining ∧ w.given = [(1, 0)] ∧
      w.reclaimConnections.connections 1 = none ∧
      ∀ b, w.returned.count (1, b) = w.given.count (1, b) := by
  have hok : (system (Liburing.standard Tag)).Follows NoLateData smallWorker dataThenClose := by
    decide +kernel
  refine ⟨_, _, rfl, rfl, rfl, rfl, ?_⟩
  refine reachable_retired_is_reclaimed (.run (.init ⟨_, _, _, rfl⟩) _ hok rfl) rfl rfl ?_ rfl rfl
  exact fun kind => Multiset.notMem_zero _

/-- The same, but the connection is closed before the data is dispatched. -/
def closeThenData : List Action :=
  openAndReceive ++ [.complete 0 5 true (some 0)] ++
    [.beginClose 1 Status.okStatus .localClose] ++ pollPass 1 ++ cancelReceive ++ pollPass 2

/-- **Late data keeps a connection in the table.**  The connection is retired, its receive has had
    its terminal completion, nothing else is in flight, no reader waits and nothing is borrowed;
    still `ReclaimConnections` leaves it in the table, and its buffer is not back in the ring. -/
theorem late_data_is_not_reclaimed :
    ∃ w conn, (system (Liburing.standard Tag)).run smallWorker closeThenData = some w ∧
      w.connections 1 = some conn ∧ conn.retired = true ∧
      (∀ kind, (⟨kind, 1⟩ : Use) ∉ w.uses) ∧ conn.readWaiter = none ∧
      conn.storageBorrows = 0 ∧ w.reclaimConnections.connections 1 ≠ none ∧
      w.given.count (1, 0) = 1 ∧ w.returned.count (1, 0) = 0 := by
  refine ⟨_, _, rfl, rfl, rfl, ?_, rfl, rfl, ?_, rfl, rfl⟩
  · intro kind
    exact Multiset.notMem_zero _
  · exact some_ne_none _

end Bycorf.Net.Worker
