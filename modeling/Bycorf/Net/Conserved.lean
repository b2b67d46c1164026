/-
  The provided receive buffers are CONSERVED: each is in one place, and comes back once for each
  time the kernel selects it.

  1. **Balance** — `Balanced`: for every buffer, being in the ring, being selected by a completion
     that is not dispatched, and having been given to a connection are together one more than having
     been returned.  A completion moves it from the first to the second, a dispatch from the second
     to the third, and a return from the third to the first.
  2. **Queues** — the books of `Stock` say for every connection that given is returned plus queued;
     so what is given and not returned is queued somewhere (`Ledger.outstanding`), and one buffer is
     queued at most once.
  3. **Result** — `reachable_buffers`.

  A ring has at most 65536 buffers, because ids have 16 bits (the kernel refuses half of that).
-/
import Bycorf.Lib.Ledger
import Bycorf.Net.Buffers

namespace Bycorf.Net.Worker

open IoUring Lib

variable {L : Liburing Tag} {D : (ConnPtr → Option Connection) → Cqe Tag → Prop}

/-! ## The balance -/

/-- The buffers that completions not yet dispatched have selected. -/
def selected (w : Worker) : List UInt16 := w.backend.cq.filterMap Cqe.buffer

/-- **The balance** of one buffer. -/
def Balanced (w : Worker) (b : UInt16) : Prop :=
  w.bufferRing.count b + w.selected.count b + (w.given.map Prod.snd).count b =
    1 + (w.returned.map Prod.snd).count b

variable {w w' : Worker} {b : UInt16}

theorem Balanced.same (h : w.Balanced b)
    (hring : w'.bufferRing = w.bufferRing) (hselected : w'.selected = w.selected)
    (hgiven : w'.given = w.given) (hreturned : w'.returned = w.returned) : w'.Balanced b := by
  rw [Balanced, hring, hselected, hgiven, hreturned]
  exact h

variable {c : ConnPtr}

/-- Buffers go back to the ring. -/
theorem Balanced.back (h : w.Balanced b)
    {ids : List UInt16} (hring : w'.bufferRing = w.bufferRing ++ ids)
    (hselected : w'.selected = w.selected) (hgiven : w'.given = w.given)
    (hreturned : w'.returned = w.returned ++ ids.map fun id => (c, id)) : w'.Balanced b := by
  have hsnd : (ids.map fun id => (c, id)).map Prod.snd = ids := by
    rw [List.map_map]
    exact List.map_id _
  rw [Balanced] at h ⊢
  rw [hring, hselected, hgiven, hreturned, count_append, map_append, count_append, hsnd]
  omega

/-- A buffer is in the ring at most once. -/
theorem Balanced.ring_le (h : w.Balanced b) (hw : w.Stock) : w.bufferRing.count b ≤ 1 := by
  obtain ⟨rest, -, htotal⟩ := Ledger.outstanding fun c => hw.books c b
  rw [Balanced] at h
  omega

/-- A selected buffer leaves the ring, and no other does. -/
theorem count_filter_selected {ring : List UInt16} {id : UInt16} (hmem : id ∈ ring)
    (hring : ring.count b ≤ 1) :
    (ring.filter fun x => some id ≠ some x).count b + [id].count b = ring.count b := by
  by_cases heq : id = b
  · subst heq
    have hpos := count_pos_iff.mpr hmem
    have hgone : (ring.filter fun x => some id ≠ some x).count id = 0 := by
      refine count_eq_zero.mpr fun hin => ?_
      simpa using (mem_filter.mp hin).2
    rw [hgone, List.count_singleton_self]
    omega
  rw [List.count_filter (by simpa using heq), List.count_singleton, if_neg (by simpa using heq)]
  rfl

/-- The kernel selects a buffer of the ring. -/
theorem Balanced.complete (h : w.Balanced b) (hw : w.Stock) {i : Nat}
    {res : Int} {more : Bool} {buffer : Option UInt16}
    (hc : w.kernelComplete i res more buffer = some w') : w'.Balanced b := by
  obtain ⟨e, backend, -, hb, hmay, rfl⟩ := kernelComplete_spec hc
  obtain ⟨e', -, rfl⟩ := map_eq_some_iff.mp hb
  have hring := h.ring_le hw
  have htotal : (w.bufferRing.filter fun x => buffer ≠ some x).count b + buffer.toList.count b =
      w.bufferRing.count b := by
    cases buffer with
    | none =>
      have hall : (w.bufferRing.filter fun x => none ≠ some x) = w.bufferRing :=
        List.filter_eq_self.mpr fun _ _ => by simp
      rw [hall]
      rfl
    | some id =>
      simp only [kernelMay, Option.all_some, and_eq_true, List.contains_iff_mem] at hmay
      exact count_filter_selected hmay.1.2.2 hring
  rw [Balanced] at h ⊢
  show (w.bufferRing.filter fun x => buffer ≠ some x).count b +
    ((w.backend.cq ++ [(⟨e'.sqe.userData, res, more, buffer, e'.op⟩ : Cqe Tag)]).filterMap
      Cqe.buffer).count b + (w.given.map Prod.snd).count b = 1 + (w.returned.map Prod.snd).count b
  have hlast : ([⟨e'.sqe.userData, res, more, buffer, e'.op⟩] : List (Cqe Tag)).filterMap
      Cqe.buffer = buffer.toList := by
    cases buffer <;> rfl
  rw [filterMap_append, count_append, hlast]
  rw [selected] at h
  omega

variable {cqe : Cqe Tag}

/-- The buffer of a completion that is dispatched is no longer selected. -/
theorem selected_taken {b : Backend Tag} (ht : Taken w.backend cqe b) :
    w.selected = cqe.buffer.toList ++ b.cq.filterMap Cqe.buffer := by
  cases ht with
  | reap _ hcq =>
    rw [selected, hcq, List.filterMap_cons]
    cases cqe.buffer <;> rfl
  | deferred _ => rfl

section

variable (h : w.Balanced b) {backend : Backend Tag} (ht : Taken w.backend cqe backend)
include h ht

/-- A completion is dispatched that has no buffer. -/
theorem Balanced.taken (hnone : cqe.buffer = none)
    (hbackend : w'.backend = backend) (hring : w'.bufferRing = w.bufferRing)
    (hgiven : w'.given = w.given) (hreturned : w'.returned = w.returned) : w'.Balanced b := by
  refine h.same hring ?_ hgiven hreturned
  rw [selected_taken ht, hnone, selected, hbackend]
  rfl

/-- A receive completion is dispatched: its buffer is given to the connection, and comes back at
    once if it holds no data. -/
theorem Balanced.recvDone (hin : ∀ id, cqe.buffer = some id → w.multishot c) (now : Int) :
    (({ w with backend := backend } : Worker).handleRecv c now cqe).Balanced b := by
  have hselected := selected_taken ht
  cases hc : w.connections c with
  | none =>
    rw [handleRecv_none (by exact hc)]
    refine h.same rfl ?_ rfl rfl
    rcases hbuffer : cqe.buffer with _ | id
    · rw [hbuffer] at hselected
      exact hselected.symm
    obtain ⟨conn, hconn, -⟩ := hin id hbuffer
    rw [hc] at hconn
    cases hconn
  | some conn =>
    rw [handleRecv_some (by exact hc)]
    -- first the buffer is given, then it may come back
    have hgiven : ({ w with
        backend := backend
        given := w.given ++ (cqe.buffer.map fun buffer => (c, buffer)).toList } : Worker).Balanced
          b := by
      rw [Balanced] at h ⊢
      rw [hselected, count_append] at h
      show w.bufferRing.count b + (backend.cq.filterMap Cqe.buffer).count b +
        ((w.given ++ (cqe.buffer.map fun buffer => (c, buffer)).toList).map Prod.snd).count b =
          1 + (w.returned.map Prod.snd).count b
      have hsnd : ((cqe.buffer.map fun buffer => (c, buffer)).toList).map Prod.snd =
          cqe.buffer.toList := by
        cases cqe.buffer <;> rfl
      rw [map_append, count_append, hsnd]
      omega
    exact hgiven.back rfl rfl rfl rfl

end

/-! ## Every change -/

theorem modifyConn_balanced {f : Connection → Connection}
    (h : w.Balanced b) : (w.modifyConn c f).Balanced b := by
  rw [(modifyConn_frame ..).choose_spec]
  exact h.same rfl rfl rfl rfl

theorem Change.balanced (h : Change L D w w') (hs : w.Sound)
    (hp : w.Provided) (hw : w.Balanced b) : w'.Balanced b := by
  -- a completion for somebody else has no buffer
  have hother : ∀ {cqe : Cqe Tag} {backend : Backend Tag}, Taken w.backend cqe backend →
      (∀ c, cqe.userData ≠ .recv c) → ({ w with backend := backend } : Worker).Balanced b := by
    intro cqe backend ht hdata
    refine hw.taken ht ?_ rfl rfl rfl rfl
    rcases hbuffer : cqe.buffer with _ | id
    · rfl
    obtain ⟨c, hc⟩ := (ht.cqeTagged hs.tagged).buffer id hbuffer
    exact absurd hc (hdata c)
  have hsame : ∀ {v : Worker}, v.backend.cq = w.backend.cq → v.bufferRing = w.bufferRing →
      v.given = w.given → v.returned = w.returned → v.Balanced b := by
    intro v hcq hring hgiven hreturned
    exact hw.same hring (congrArg (List.filterMap Cqe.buffer) hcq) hgiven hreturned
  cases h with
  | backend hmove => exact hsame hmove.frame.1 rfl rfl rfl
  | ring =>
    refine hw.same rfl ?_ rfl rfl
    exact (filterMap_append ..).trans (append_nil _)
  | complete hc => exact hw.complete hp.stock hc
  | recvDone now ht hdata _ =>
    exact hw.recvDone ht (fun id hid => (hp.taken ht hdata id hid).1) now
  | disconnectDone ht hdata =>
    exact modifyConn_balanced (hother ht fun c heq => by rw [hdata] at heq; cases heq)
  | writeDone ht hdata =>
    exact modifyConn_balanced (hother ht fun c heq => by rw [hdata] at heq; cases heq)
  | @acceptDone cqe backend l ht hdata =>
    rw [(acceptDone_frame ..).choose_spec]
    exact (hother ht fun c heq => by rw [hdata] at heq; cases heq).same rfl rfl rfl rfl
  | otherDone ht hout => exact hother ht fun c heq => by rw [heq] at hout; cases hout
  | startRecv | startDisconnect | startWrite | startAccept =>
    exact hsame (Backend.submitOrQueue_frame ..).1 rfl rfl rfl
  | add file mode buffer now hfd _ =>
    rw [addConnection_eq hfd]
    exact hsame rfl rfl rfl rfl
  | startClose _ =>
    rw [leaveActive_eq]
    exact hsame rfl rfl rfl rfl
  | @release c conn ids rest _ _ => exact hw.back rfl rfl rfl rfl
  | closeAccepted _ =>
    rw [foldl_closeFd]
    exact hsame rfl rfl rfl rfl
  | _ => exact hsame rfl rfl rfl rfl

/-! ## Every run -/

/-- Every buffer is in the ring at the start. -/
theorem fresh_balanced (options : Options) (slots : List (Sqe Tag)) (wakeEventFd : Int)
    (hcount : options.recvBufferCount ≤ 2 ^ 16)
    (hb : b.toNat < options.recvBufferCount) :
    (Worker.fresh options slots wakeEventFd).Balanced b := by
  have hnodup : ((List.range options.recvBufferCount).map UInt16.ofNat).Nodup := by
    refine List.Nodup.map_on ?_ List.nodup_range
    intro x hx y hy heq
    have hx' : x < 2 ^ 16 := Nat.lt_of_lt_of_le (mem_range.mp hx) hcount
    have hy' : y < 2 ^ 16 := Nat.lt_of_lt_of_le (mem_range.mp hy) hcount
    have hnat := congrArg UInt16.toNat heq
    rwa [UInt16.toNat_ofNat_of_lt' hx', UInt16.toNat_ofNat_of_lt' hy'] at hnat
  have hmem : b ∈ (List.range options.recvBufferCount).map UInt16.ofNat :=
    mem_map.mpr ⟨b.toNat, mem_range.mpr hb, UInt16.ofNat_toNat⟩
  rw [Balanced]
  show ((List.range options.recvBufferCount).map UInt16.ofNat).count b + 0 + 0 = 1 + 0
  rw [List.count_eq_one_of_mem hnodup hmem]

/-- Everything that holds between two changes. -/
structure Conserving (w : Worker) : Prop where
  sound : w.Sound
  provided : w.Provided
  balanced : w.options.recvBufferCount ≤ 2 ^ 16 → ∀ b : UInt16,
    b.toNat < w.options.recvBufferCount → w.Balanced b

theorem Change.conserving (h : Change L D w w') (hw : w.Conserving) : w'.Conserving := by
  refine ⟨h.sound hw.sound, h.provided hw.sound hw.provided, fun hcount b hb => ?_⟩
  rw [h.frame.1] at hcount hb
  exact h.balanced hw.sound hw.provided (hw.balanced hcount b hb)

theorem fresh_conserving (options : Options) (slots : List (Sqe Tag)) (wakeEventFd : Int) :
    (Worker.fresh options slots wakeEventFd).Conserving where
  sound := fresh_sound options slots wakeEventFd
  provided := fresh_provided options slots wakeEventFd
  balanced hcount _ hb := fresh_balanced options slots wakeEventFd hcount hb

theorem reachable_conserving (h : (system L).Reachable w) : w.Conserving :=
  reachable_invariant (D := fun _ _ => True) (fun _ _ _ _ _ => trivial) fresh_conserving
    (fun _ _ hw hchange => hchange.conserving hw) h

/-- Buffer `b` is available to the kernel, or selected by one completion that is not dispatched, or
    queued in exactly one connection, and only one of the three. -/
inductive InOnePlace (w : Worker) (b : UInt16) : Prop where
  | ring (hring : w.bufferRing.count b = 1) (hselected : b ∉ w.selected)
      (hqueued : ∀ c, b ∉ w.held c)
  | selected (hring : b ∉ w.bufferRing) (hselected : w.selected.count b = 1)
      (hqueued : ∀ c, b ∉ w.held c)
  | queued (c : ConnPtr) (hring : b ∉ w.bufferRing) (hselected : b ∉ w.selected)
      (hqueued : (w.held c).count b = 1) (hother : ∀ c', c' ≠ c → b ∉ w.held c')

theorem Balanced.inOnePlace (h : w.Balanced b) (hw : w.Stock) : w.InOnePlace b := by
  obtain ⟨rest, hrest, htotal⟩ := Ledger.outstanding fun c => hw.books c b
  have hnowhere : rest.card = 0 → ∀ c, b ∉ w.held c := by
    intro hzero c
    refine count_eq_zero.mp ?_
    rw [← hrest c, Multiset.card_eq_zero.mp hzero]
    exact Multiset.count_zero c
  rw [Balanced] at h
  rcases Nat.eq_zero_or_pos rest.card with hzero | hpos
  · rcases Nat.eq_zero_or_pos (w.bufferRing.count b) with hring | hring
    · exact .selected (count_eq_zero.mp hring) (by omega) (hnowhere hzero)
    · exact .ring (by omega) (count_eq_zero.mp (by omega)) (hnowhere hzero)
  obtain ⟨c, rfl⟩ := Multiset.card_eq_one.mp (show rest.card = 1 by omega)
  refine .queued c (count_eq_zero.mp (by omega)) (count_eq_zero.mp (by omega)) ?_ ?_
  · rw [← hrest c]
    exact Multiset.count_singleton_self c
  · intro c' hne
    refine count_eq_zero.mp ?_
    rw [← hrest c', Multiset.count_singleton, if_neg hne]

/-- How often the kernel has selected buffer `b`: the completions already dispatched to a
    connection, and those still in the CQ. -/
def selections (w : Worker) (b : UInt16) : Nat :=
  (w.given.map Prod.snd).count b + w.selected.count b

/-- How often buffer `b` was handed back to the ring. -/
def handBacks (w : Worker) (b : UInt16) : Nat := (w.returned.map Prod.snd).count b

/-- **Provided receive buffers are conserved.**  In every reachable state of the worker, every
    buffer of the ring is in exactly one place, and was handed back once for each selection, apart
    from the selection it is out for. -/
theorem reachable_buffers {w : Worker} (h : (system L).Reachable w)
    (hcount : w.options.recvBufferCount ≤ 2 ^ 16) (b : UInt16)
    (hb : b.toNat < w.options.recvBufferCount) :
    w.InOnePlace b ∧ w.selections b = w.handBacks b + if b ∈ w.bufferRing then 0 else 1 := by
  have hw := reachable_conserving h
  have hbalanced := hw.balanced hcount b hb
  refine ⟨hbalanced.inOnePlace hw.provided.stock, ?_⟩
  have hring := hbalanced.ring_le hw.provided.stock
  rw [Balanced] at hbalanced
  rw [selections, handBacks]
  split
  case isTrue hmem =>
    have hpos := count_pos_iff.mpr hmem
    omega
  case isFalse hmem =>
    have hzero := count_eq_zero.mpr hmem
    omega

/-- Data arrived in buffer 0 and was dispatched; buffer 1 is still in the ring. -/
def dataArrived : List Action :=
  openAndReceive ++ [.complete 0 5 true (some 0)] ++ pollPass 1

theorem reachable_buffers_dataArrived :
    ∃ w, (system (Liburing.standard Tag)).run smallWorker dataArrived = some w ∧
      w.given = [(1, 0)] ∧ w.bufferRing = [1] ∧ w.InOnePlace 0 ∧ w.InOnePlace 1 ∧
      w.selections 0 = w.handBacks 0 + 1 := by
  have hinit : (system (Liburing.standard Tag)).Reachable smallWorker := .init ⟨_, _, _, rfl⟩
  have hreach := hinit.run dataArrived rfl
  refine ⟨_, rfl, rfl, rfl, ?_, ?_, ?_⟩
  · exact (reachable_buffers hreach (by decide) 0 (by decide)).1
  · exact (reachable_buffers hreach (by decide) 1 (by decide)).1
  · exact (reachable_buffers hreach (by decide) 0 (by decide)).2

end Bycorf.Net.Worker
