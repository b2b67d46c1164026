/-
  Reads return the received bytes EXACTLY, over whole runs.

  1. **Invariant** — `Split`: the deliveries are those USED UP, which were released and whose bytes
     were returned, followed by those UNREAD, which are queued.  Nobody writes a buffer that is
     queued, and `read_buffer_` is armed only while the queue is empty.
  2. **Steps** — a read moves deliveries from the unread to the used ones (`Split.finishRead`), a
     completion with data adds one at the end (`Split.data`), arming changes nothing
     (`Split.arms`), and the rest of the pool does not touch the queued buffers.
  3. **Result** — `reachable_reads`.
-/
import Bycorf.Net.StreamReads

namespace Bycorf.Net.Stream

open IoUring Lib Function
open List (flatMap_append)

variable {o : Options}

/-! ## The invariant -/

/-- The delivery is inside a buffer, so that a view of it is valid. -/
def Fits (o : Options) (conn : Connection) (d : Delivery) : Prop :=
  if conn.useMultishot o then d.id.toNat < o.recvBufferCount ∧ d.bytes.length ≤ o.recvBufferSize
  else d.id = 0 ∧ d.bytes.length ≤ conn.readBuffer.size

/-- The deliveries, split into those used up and those unread. -/
structure Split (o : Options) (s : Stream) (used unread : List Delivery) : Prop where
  deliveries : s.deliveries = used ++ unread
  released : s.released = used.map Delivery.id
  returned : s.returned = used.flatMap Delivery.bytes ++ progress s.conn.receivedBuffers unread
  pending : Pending (content o s.conn s.memory) s.conn.receivedBuffers unread
  fits : ∀ d ∈ unread, Fits o s.conn d
  pool : s.conn.useMultishot o = true → (s.ring ++ s.elsewhere ++ unread.map Delivery.id).Nodup
  ids : ∀ id ∈ s.ring ++ s.elsewhere, id.toNat < o.recvBufferCount
  oneShot : s.conn.useMultishot o = false → s.conn.recvArmed = true → s.conn.receivedBuffers = []

variable {s : Stream} {used unread : List Delivery}

theorem Split.unread_nil (h : Split o s used unread)
    (hqueue : s.conn.receivedBuffers = []) : unread = [] := by
  have hholds := h.pending.holds
  rw [hqueue] at hholds
  exact List.forall₂_nil_left_iff.mp hholds

theorem Initial.split (h : Initial o s) : Split o s [] [] := by
  obtain ⟨file, mode, buffer, hconn⟩ := h.conn
  have hqueue : s.conn.receivedBuffers = [] := by
    rw [hconn]
    rfl
  refine ⟨h.deliveries, h.released, ?_, ?_, ?_, fun _ => ?_, h.ids, fun _ _ => hqueue⟩
  · rw [hqueue]
    exact h.returned
  · rw [hqueue]
    exact ⟨List.Forall₂.nil, nofun⟩
  · intro d hd
    cases hd
  · rw [List.map_nil, append_nil]
    exact h.pool

/-! ## A read -/

variable {ds : List Delivery} {conn conn' : Connection}

/-- The record after a read has the same mode and the same buffer. -/
theorem Reads.mode {m : Memory}
    {answer : Except Status (List UInt8)} {released : List UInt16} {n : Nat} {out : List UInt8}
    (h : Reads o m conn ds answer conn' released n out) :
    conn'.useMultishot o = conn.useMultishot o ∧ conn'.readBuffer = conn.readBuffer ∧
      conn'.recvArmed = conn.recvArmed := by
  rw [h.record]
  exact ⟨rfl, rfl, rfl⟩

theorem content_congr (m : Memory)
    (h : conn'.useMultishot o = conn.useMultishot o) : content o conn' m = content o conn m := by
  unfold content
  rw [h]

variable {d : Delivery}

theorem Fits.congr (h : Fits o conn d) (hmode : conn'.useMultishot o = conn.useMultishot o)
    (hbuffer : conn'.readBuffer = conn.readBuffer) : Fits o conn' d := by
  unfold Fits at h ⊢
  rw [hmode, hbuffer]
  exact h

/-- **A read** moves deliveries from the unread to the used ones. -/
theorem Split.finishRead (h : Split o s used unread)
    (drainBuffered : Bool) (room : Nat) (faults : List Bool) :
    ∃ used' unread', Split o (s.finishRead o drainBuffered room faults) used' unread' := by
  obtain ⟨n, out, hread⟩ := awaitResume_spec h.pending drainBuffered room faults
  unfold Stream.finishRead
  generalize awaitResume o s.memory drainBuffered room faults s.conn = read at hread ⊢
  obtain ⟨hmode, hbuffer, harmed⟩ := hread.mode
  have hout : bytesOf read.1 = out := by
    rcases hread.answer with hok | ⟨⟨status, herror⟩, rfl⟩
    · rw [hok]
      rfl
    rw [herror]
    rfl
  have hsplit : unread.take n ++ unread.drop n = unread := take_append_drop n unread
  -- every buffer released is one of the pool
  have hreturned : s.conn.useMultishot o = true →
      (read.2.2.filter fun id => id.toNat < o.recvBufferCount) =
        (unread.take n).map Delivery.id := by
    intro hmulti
    rw [hread.released]
    refine List.filter_eq_self.mpr fun id hid => ?_
    obtain ⟨d, hd, rfl⟩ := mem_map.mp hid
    have hfits := h.fits d (List.mem_of_mem_take hd)
    rw [Fits, if_pos hmulti] at hfits
    exact decide_eq_true hfits.1
  refine ⟨used ++ unread.take n, unread.drop n, ?_, ?_, ?_, ?_, ?_, ?_, ?_, ?_⟩
  · show s.deliveries = _
    rw [h.deliveries, append_assoc, hsplit]
  · show s.released ++ read.2.2 = _
    rw [h.released, hread.released, map_append]
  · show (s.returned ++ _) = _
    rw [hout, h.returned, append_assoc, hread.bytes, flatMap_append, append_assoc]
    rfl
  · show Pending (content o read.2.1 s.memory) read.2.1.receivedBuffers (unread.drop n)
    rw [content_congr s.memory hmode]
    exact hread.pending
  · intro d hd
    exact (h.fits d (List.mem_of_mem_drop hd)).congr hmode hbuffer
  · intro hmulti
    have hmulti' : s.conn.useMultishot o = true := hmode ▸ hmulti
    have hpool := h.pool hmulti'
    rw [← hsplit, map_append] at hpool
    show ((if read.2.1.useMultishot o then _ else _) ++ s.elsewhere ++
      (unread.drop n).map Delivery.id).Nodup
    rw [if_pos (show read.2.1.useMultishot o = true from hmulti), hreturned hmulti']
    refine (List.Perm.nodup_iff ?_).mp hpool
    rw [append_assoc, append_assoc, append_assoc]
    exact List.Perm.append_left s.ring (List.perm_append_comm_assoc ..)
  · show ∀ id ∈ (if read.2.1.useMultishot o then _ else _) ++ s.elsewhere, _
    split
    next hmulti =>
      intro id hid
      rcases mem_append.mp hid with hring | helsewhere
      · rcases mem_append.mp hring with hold | hnew
        · exact h.ids id (mem_append_left _ hold)
        · simpa using (mem_filter.mp hnew).2
      · exact h.ids id (mem_append_right _ helsewhere)
    next => exact h.ids
  · intro hone harm
    have hnil := h.unread_nil (h.oneShot (hmode ▸ hone) (harmed ▸ harm))
    have hholds := hread.pending.holds
    rw [hnil, List.drop_nil] at hholds
    exact List.forall₂_nil_right_iff.mp hholds

/-! ## Arming -/

/-- What arming may do to the record. -/
structure Arms (o : Options) (conn conn' : Connection) : Prop where
  queue : conn'.receivedBuffers = conn.receivedBuffers := by rfl
  mode : conn'.useMultishot o = conn.useMultishot o := by rfl
  buffer : conn'.readBuffer = conn.readBuffer ∨ conn.receivedBuffers = [] := by exact Or.inl rfl
  armed : conn'.recvArmed = true →
    conn.recvArmed = true ∨ conn.useMultishot o = true ∨ conn.receivedBuffers = [] := by
      exact Or.inl

theorem startRecvMultishot_arms (submitted : Status) (conn : Connection) :
    Arms o conn (startRecvMultishot o submitted conn).2 := by
  unfold startRecvMultishot
  split
  · exact {}
  split
  · exact {}
  rename_i hone
  have hempty : conn.useMultishot o = false → conn.receivedBuffers = [] := by
    intro hmode
    by_contra hne
    exact hone ⟨hmode, hne⟩
  have hmode : conn.useMultishot o = true ∨ conn.receivedBuffers = [] := by
    cases hmulti : conn.useMultishot o with
    | true => exact .inl rfl
    | false => exact .inr (hempty hmulti)
  have halloc : Arms o conn (conn.allocateReadBuffer o) := by
    unfold Connection.allocateReadBuffer
    split
    next hsize => exact { buffer := .inr (hempty hsize.1) }
    next => exact {}
  split
  · exact { queue := halloc.queue, mode := halloc.mode, buffer := halloc.buffer
            armed := fun _ => .inr hmode }
  · exact halloc

theorem awaitSuspend_arms (submitted : Status) (room handle : Nat) (conn : Connection) :
    Arms o conn (awaitSuspend o submitted room handle conn).2 := by
  have harms := startRecvMultishot_arms (o := o) submitted conn
  unfold awaitSuspend
  dsimp only
  split_ifs
  · exact {}
  · exact {}
  · exact {}
  · exact {}
  · exact { queue := harms.queue, mode := harms.mode, buffer := harms.buffer, armed := harms.armed }
  · exact harms

/-- **Arming** changes nothing. -/
theorem Split.arms (h : Split o s used unread) (ha : Arms o s.conn conn) :
    Split o { s with conn := conn } used unread := by
  refine ⟨h.deliveries, h.released, ?_, ?_, ?_, ?_, h.ids, ?_⟩
  · show s.returned = used.flatMap Delivery.bytes ++ progress conn.receivedBuffers unread
    rw [ha.queue]
    exact h.returned
  · show Pending (content o conn s.memory) conn.receivedBuffers unread
    rw [content_congr s.memory ha.mode, ha.queue]
    exact h.pending
  · intro d hd
    rcases ha.buffer with hsame | hempty
    · exact (h.fits d hd).congr ha.mode hsame
    rw [h.unread_nil hempty] at hd
    cases hd
  · exact fun hmulti => h.pool (ha.mode ▸ hmulti)
  · intro hone harmed
    show conn.receivedBuffers = []
    rw [ha.queue]
    have hone' : s.conn.useMultishot o = false := ha.mode ▸ hone
    rcases ha.armed harmed with hold | hmulti | hempty
    · exact h.oneShot hone' hold
    · rw [hone'] at hmulti
      cases hmulti
    · exact hempty

/-! ## A completion -/

/-- `HandleMultishotRecv` leaves `read_buffer_` alone, and a terminal completion disarms. -/
theorem handleMultishotRecv_frame (now : Int) (cqe : Cqe Tag) (conn : Connection) :
    (conn.handleMultishotRecv o now cqe).conn.readBuffer = conn.readBuffer ∧
      (conn.handleMultishotRecv o now cqe).conn.recvArmed = (conn.recvArmed && cqe.more) := by
  have hresult : (conn.recvResult o now cqe).2.readBuffer = conn.readBuffer ∧
      (conn.recvResult o now cqe).2.recvArmed = conn.recvArmed := by
    unfold Connection.recvResult
    split_ifs <;> exact ⟨rfl, rfl⟩
  have hend : ∀ c : Connection,
      (c.recvEnd o).2.readBuffer = c.readBuffer ∧ (c.recvEnd o).2.recvArmed = false := by
    intro c
    unfold Connection.recvEnd
    dsimp only
    split_ifs <;> exact ⟨rfl, rfl⟩
  have hreader : ∀ c : Connection, c.takeReader.2.readBuffer = c.readBuffer ∧
      c.takeReader.2.recvArmed = c.recvArmed := by
    intro c
    unfold Connection.takeReader
    split <;> exact ⟨rfl, rfl⟩
  unfold Connection.handleMultishotRecv
  dsimp only
  cases cqe.more with
  | true =>
    rw [Bool.and_true, if_pos rfl]
    split
    · rw [(hreader _).1, (hreader _).2]
      exact hresult
    · exact hresult
  | false =>
    rw [Bool.and_false, if_neg Bool.false_ne_true]
    split
    · rw [(hreader _).1, (hreader _).2, (hend _).1, (hend _).2]
      exact ⟨hresult.1, rfl⟩
    rw [(hend _).1, (hend _).2]
    exact ⟨hresult.1, rfl⟩

variable {c : UInt16 → Nat → UInt8} {queue : List ReceivedBuffer}

/-- Only the contents of the unread buffers matter. -/
theorem Pending.congr {c' : UInt16 → Nat → UInt8}
    (h : Pending c queue ds) (hsame : ∀ d ∈ ds, c' d.id = c d.id) :
    Pending c' queue ds := by
  refine ⟨?_, h.offsets⟩
  have hholds := h.holds
  induction hholds with
  | nil => exact List.Forall₂.nil
  | @cons r d queue ds hr _ ih =>
    refine List.forall₂_cons.mpr ⟨⟨hr.id, hr.size, hr.offset, ?_⟩,
      ih h.rest fun x hx => hsame x (mem_cons_of_mem d hx)⟩
    rw [hsame d mem_cons_self]
    exact hr.bytes

/-- The bytes of a completion, read back. -/
theorem span_fill (bytes : List UInt8) (old : Nat → UInt8) :
    span (fun i => bytes.getD i (old i)) 0 bytes.length = bytes := by
  refine List.ext_getElem (by simp [span]) fun i h h' => ?_
  simp [span, h']

variable {r : ReceivedBuffer}

theorem progress_push (h : Pending c queue ds) (hzero : r.offset = 0) (d : Delivery) :
    progress (queue ++ [r]) (ds ++ [d]) = progress queue ds := by
  cases h.holds with
  | nil =>
    show d.bytes.take r.offset.toNat = []
    rw [hzero]
    rfl
  | cons => rfl

variable {res : Int} {buffer : Option UInt16} {more : Bool}

theorem kernelMay_armed {bytes : List UInt8} (hmay : s.kernelMay o res buffer more bytes = true) :
    s.conn.recvArmed = true := by
  simp only [kernelMay, and_eq_true] at hmay
  exact hmay.1.1.1

/-- What the kernel's promise says when there is data. -/
structure Data (o : Options) (s : Stream) (res : Int) (buffer : Option UInt16) (more : Bool)
    (bytes : List UInt8) : Prop where
  size : (UInt32.ofNat res.toNat).toNat = bytes.length
  nonempty : 0 < bytes.length
  fits : Fits o s.conn ⟨buffer.getD 0, bytes⟩
  ring : s.conn.useMultishot o = true → buffer.getD 0 ∈ s.ring ∧ buffer = some (buffer.getD 0)
  oneShot : s.conn.useMultishot o = false → more = false

theorem kernelMay_data (h : Split o s used unread) {bytes : List UInt8}
    (hmay : s.kernelMay o res buffer more bytes = true) (hres : 0 < res)
    (hbuffer : buffer.isSome = true ∨ s.conn.useMultishot o = false) :
    Data o s res buffer more bytes := by
  simp only [kernelMay, and_eq_true, decide_eq_true_eq] at hmay
  obtain ⟨⟨⟨harmed, hsmall⟩, hlen⟩, hmode⟩ := hmay
  have hlen' : res.toNat = bytes.length := by omega
  have hsize : (UInt32.ofNat res.toNat).toNat = bytes.length := by
    rw [← hlen']
    refine UInt32.toNat_ofNat_of_lt' ?_
    show res.toNat < 2 ^ 32
    omega
  cases hmulti : s.conn.useMultishot o with
  | true =>
    rw [hmulti] at hbuffer hmode
    obtain ⟨id, rfl⟩ := isSome_iff_exists.mp (hbuffer.resolve_right (by decide))
    simp only [if_true, Option.all_some, and_eq_true, List.contains_iff_mem,
      decide_eq_true_eq] at hmode
    refine ⟨hsize, by omega, ?_, fun _ => ⟨hmode.1, rfl⟩, fun hone => ?_⟩
    · rw [Fits, if_pos hmulti]
      exact ⟨h.ids id (mem_append_left _ hmode.1), hmode.2⟩
    · rw [hmulti] at hone
      cases hone
  | false =>
    rw [hmulti] at hmode
    simp only [Bool.false_eq_true, if_false, and_eq_true, decide_eq_true_eq,
      Bool.not_eq_true'] at hmode
    obtain ⟨⟨rfl, hmore⟩, hfits⟩ := hmode
    refine ⟨hsize, by omega, ?_, fun hone => ?_, fun _ => hmore⟩
    · rw [Fits, if_neg (by rw [hmulti]; decide)]
      exact ⟨rfl, hfits⟩
    · rw [hmulti] at hone
      cases hone

/-- A completion leaves the other buffers alone, and its own holds the data. -/
theorem Data.content {bytes : List UInt8} (h : Data o s res buffer more bytes) :
    span (Stream.content o s.conn (s.fill o buffer bytes) (buffer.getD 0)) 0 bytes.length = bytes ∧
      (s.conn.useMultishot o = true → ∀ id, id ≠ buffer.getD 0 →
        Stream.content o s.conn (s.fill o buffer bytes) id =
          Stream.content o s.conn s.memory id) := by
  unfold Stream.content fill
  cases hmulti : s.conn.useMultishot o with
  | true =>
    rw [(h.ring hmulti).2]
    simp only [if_true, Option.getD_some]
    refine ⟨?_, fun _ id hne => update_of_ne hne _ _⟩
    rw [update_self]
    exact span_fill bytes _
  | false =>
    simp only [Bool.false_eq_true, if_false]
    exact ⟨span_fill bytes _, nofun⟩

/-- An element moves from the first list to the end. -/
theorem nodup_move {ring rest : List UInt16} {id : UInt16} (h : (ring ++ rest).Nodup)
    (hmem : id ∈ ring) : ((ring.filter fun x => some id ≠ some x) ++ (rest ++ [id])).Nodup := by
  have hfilter : (ring.filter fun x => some id ≠ some x) = ring.erase id := by
    rw [(nodup_append.mp h).1.erase_eq_filter]
    exact List.filter_congr fun x _ => by grind
  rw [hfilter, ← append_assoc, (List.perm_append_singleton id _).nodup_iff]
  exact (((List.perm_cons_erase hmem).append_right rest).nodup_iff).mp h

/-- The record after a completion. -/
theorem handleMultishotRecv_mode (now : Int) (cqe : Cqe Tag) (conn : Connection) :
    (conn.handleMultishotRecv o now cqe).conn.useMultishot o = conn.useMultishot o := by
  have hreceived := conn.handleMultishotRecv_received o now cqe
  rw [Connection.useMultishot, hreceived.recvMode, Connection.useMultishot]

/-- **A completion with data** adds a delivery. -/
theorem Split.data (h : Split o s used unread) {now : Int} {bytes : List UInt8}
    (hdata : Data o s res buffer more bytes) (hres : 0 < res)
    (hbuffer : buffer.isSome = true ∨ s.conn.useMultishot o = false)
    (harmed : s.conn.recvArmed = true) :
    Split o (s.complete o now res buffer more bytes) used
      (unread ++ [⟨buffer.getD 0, bytes⟩]) := by
  have hreceived := s.conn.handleMultishotRecv_received o now (cqeOf res buffer more)
  obtain ⟨hreadBuffer, harmed'⟩ :=
    handleMultishotRecv_frame now (cqeOf res buffer more) s.conn
  have hmode := handleMultishotRecv_mode (o := o) now (cqeOf res buffer more) s.conn
  have hrecv : s.conn.recvData o (cqeOf res buffer more) =
      [⟨buffer.getD 0, UInt32.ofNat res.toNat, 0⟩] := if_pos ⟨hres, hbuffer⟩
  rw [hrecv] at hreceived
  have hqueue := hreceived.receivedBuffers
  obtain ⟨hfilled, hothers⟩ := hdata.content
  -- nobody queued is overwritten
  have hkept : ∀ d ∈ unread, content o s.conn (s.fill o buffer bytes) d.id =
      content o s.conn s.memory d.id := by
    intro d hd
    cases hmulti : s.conn.useMultishot o with
    | true =>
      refine hothers hmulti d.id fun heq => ?_
      have hring := mem_append_left s.elsewhere (hdata.ring hmulti).1
      exact (nodup_append.mp (h.pool hmulti)).2.2 _ (heq ▸ hring) _
        (List.mem_map_of_mem hd) rfl
    | false =>
      rw [h.unread_nil (h.oneShot hmulti harmed)] at hd
      cases hd
  have hpending := h.pending.congr hkept
  have hholds : Holds (content o s.conn (s.fill o buffer bytes))
      ⟨buffer.getD 0, UInt32.ofNat res.toNat, 0⟩ ⟨buffer.getD 0, bytes⟩ :=
    ⟨rfl, hdata.size, hdata.nonempty, hfilled⟩
  refine ⟨?_, h.released, ?_, ?_, ?_, ?_, ?_, ?_⟩
  · show s.deliveries ++ (if 0 < res ∧ _ then _ else _) = _
    rw [if_pos ⟨hres, hbuffer⟩, h.deliveries, append_assoc]
  · show s.returned = used.flatMap Delivery.bytes ++ progress
      (s.conn.handleMultishotRecv o now (cqeOf res buffer more)).conn.receivedBuffers _
    rw [hqueue, progress_push h.pending rfl]
    exact h.returned
  · show Pending (content o (s.conn.handleMultishotRecv o now (cqeOf res buffer more)).conn
      (s.fill o buffer bytes))
      (s.conn.handleMultishotRecv o now (cqeOf res buffer more)).conn.receivedBuffers _
    rw [content_congr _ hmode, hqueue]
    exact hpending.push hholds rfl
  · intro d hd
    rcases mem_append.mp hd with hold | hnew
    · exact (h.fits d hold).congr hmode hreadBuffer
    rw [mem_singleton.mp hnew]
    exact hdata.fits.congr hmode hreadBuffer
  · intro hmulti
    have hmulti' : s.conn.useMultishot o = true := hmode ▸ hmulti
    obtain ⟨hring, hsome⟩ := hdata.ring hmulti'
    show ((if 0 < res then s.ring.filter _ else s.ring) ++ s.elsewhere ++ _).Nodup
    rw [if_pos hres, map_append, append_assoc, ← append_assoc s.elsewhere, hsome]
    refine nodup_move ?_ hring
    rw [← append_assoc]
    exact h.pool hmulti'
  · show ∀ id ∈ (if 0 < res then s.ring.filter _ else s.ring) ++ s.elsewhere, _
    rw [if_pos hres]
    intro id hid
    rcases mem_append.mp hid with hin | helsewhere
    · exact h.ids id (mem_append_left _ (mem_filter.mp hin).1)
    · exact h.ids id (mem_append_right _ helsewhere)
  · intro hone harm
    have hmore := hdata.oneShot (hmode ▸ hone)
    rw [show (s.complete o now res buffer more bytes).conn.recvArmed = _ from harmed'] at harm
    rw [show (cqeOf res buffer more).more = more from rfl, hmore, Bool.and_false] at harm
    cases harm

/-- A selected buffer without data is not written. -/
theorem fill_noData {bytes : List UInt8} (hmay : s.kernelMay o res buffer more bytes = true)
    (hmulti : s.conn.useMultishot o = true) (hnone : buffer.isSome = true → ¬0 < res) :
    s.fill o buffer bytes = s.memory := by
  unfold fill
  rw [if_pos hmulti]
  rcases buffer with _ | id
  · rfl
  have hres := hnone rfl
  simp only [kernelMay, and_eq_true, decide_eq_true_eq] at hmay
  have hlen : bytes.length = 0 := by
    omega
  obtain rfl := List.eq_nil_of_length_eq_zero hlen
  have hsame : update s.memory.storage id (s.memory.storage id) = s.memory.storage :=
    update_eq_self id _
  exact congrArg (fun storage => ({ s.memory with storage := storage } : Memory)) hsame

section

variable (h : Split o s used unread)
include h

/-- **A completion without data** changes neither the queue nor the pool. -/
theorem Split.noData {now : Int} {bytes : List UInt8}
    (hmay : s.kernelMay o res buffer more bytes = true)
    (hnone : ¬(0 < res ∧ (buffer.isSome = true ∨ s.conn.useMultishot o = false))) :
    Split o (s.complete o now res buffer more bytes) used unread := by
  have hreceived := s.conn.handleMultishotRecv_received o now (cqeOf res buffer more)
  obtain ⟨hreadBuffer, harmed'⟩ :=
    handleMultishotRecv_frame now (cqeOf res buffer more) s.conn
  have hmode := handleMultishotRecv_mode (o := o) now (cqeOf res buffer more) s.conn
  have hrecv : s.conn.recvData o (cqeOf res buffer more) = [] := if_neg hnone
  have hqueue := hreceived.receivedBuffers
  rw [hrecv, append_nil] at hqueue
  have harmed := kernelMay_armed hmay
  have hkept : ∀ d ∈ unread, content o s.conn (s.fill o buffer bytes) d.id =
      content o s.conn s.memory d.id := by
    intro d hd
    cases hmulti : s.conn.useMultishot o with
    | true => rw [fill_noData hmay hmulti fun hsome hres => hnone ⟨hres, .inl hsome⟩]
    | false =>
      rw [h.unread_nil (h.oneShot hmulti harmed)] at hd
      cases hd
  have hring : (if 0 < res then s.ring.filter fun id => buffer ≠ some id else s.ring) = s.ring := by
    split
    next hres =>
      refine List.filter_eq_self.mpr fun id _ => decide_eq_true fun heq => hnone ⟨hres, .inl ?_⟩
      rw [heq]
      rfl
    next => rfl
  refine ⟨?_, h.released, ?_, ?_, ?_, ?_, ?_, ?_⟩
  · show s.deliveries ++ (if 0 < res ∧ _ then _ else _) = _
    rw [if_neg hnone, append_nil]
    exact h.deliveries
  · show s.returned = used.flatMap Delivery.bytes ++ progress
      (s.conn.handleMultishotRecv o now (cqeOf res buffer more)).conn.receivedBuffers _
    rw [hqueue]
    exact h.returned
  · show Pending (content o (s.conn.handleMultishotRecv o now (cqeOf res buffer more)).conn
      (s.fill o buffer bytes))
      (s.conn.handleMultishotRecv o now (cqeOf res buffer more)).conn.receivedBuffers _
    rw [content_congr _ hmode, hqueue]
    exact h.pending.congr hkept
  · intro d hd
    exact (h.fits d hd).congr hmode hreadBuffer
  · intro hmulti
    show ((if 0 < res then s.ring.filter _ else s.ring) ++ s.elsewhere ++ _).Nodup
    rw [hring]
    exact h.pool (hmode ▸ hmulti)
  · show ∀ id ∈ (if 0 < res then s.ring.filter _ else s.ring) ++ s.elsewhere, _
    rw [hring]
    exact h.ids
  · intro hone _
    show (s.conn.handleMultishotRecv o now (cqeOf res buffer more)).conn.receivedBuffers = []
    rw [hqueue]
    exact h.oneShot (hmode ▸ hone) harmed

/-! ## The rest of the pool -/

/-- Buffers go from the ring to other connections and back. -/
theorem Split.pool_perm
    {ring elsewhere : List UInt16} (hperm : (ring ++ elsewhere).Perm (s.ring ++ s.elsewhere)) :
    Split o { s with ring := ring, elsewhere := elsewhere } used unread :=
  { h with
    pool := fun hmulti => (hperm.append_right _).nodup_iff.mpr (h.pool hmulti)
    ids := fun id hid => h.ids id (hperm.mem_iff.mp hid) }

/-- Whoever writes a buffer that is not queued does not disturb the queue. -/
theorem Split.memory {memory : Memory}
    (hkept : ∀ d ∈ unread, content o s.conn memory d.id = content o s.conn s.memory d.id) :
    Split o { s with memory := memory } used unread :=
  { h with pending := h.pending.congr hkept }

theorem Split.write {id : UInt16} (hid : id ∈ s.ring ∨ id ∈ s.elsewhere) (bytes : Nat → UInt8) :
    Split o { s with memory := { s.memory with
      storage := update s.memory.storage id bytes } } used unread := by
  refine h.memory fun d hd => ?_
  unfold content
  split
  next hmulti =>
    refine update_of_ne (fun heq => ?_) _ _
    exact (nodup_append.mp (h.pool hmulti)).2.2 id (mem_append.mpr hid) d.id
      (List.mem_map_of_mem hd) heq.symm
  next => rfl

end

/-! ## Every run -/

theorem step_split {s' : Stream} {a : Action} (hs : step o s a = some s')
    (h : ∃ used unread, Split o s used unread) : ∃ used unread, Split o s' used unread := by
  obtain ⟨used, unread, h⟩ := h
  cases a with
  | read room handle drainBuffered faults submitted =>
    have harms := h.arms (awaitSuspend_arms submitted room handle s.conn)
    rw [step] at hs
    split at hs
    next conn heq =>
      cases hs
      rw [heq] at harms
      exact ⟨used, unread, harms⟩
    next conn heq =>
      cases hs
      rw [heq] at harms
      exact harms.finishRead drainBuffered room faults
    next conn heq =>
      cases hs
      rw [heq] at harms
      exact ⟨used, unread, { harms with }⟩
  | resume faults =>
    rw [step] at hs
    split at hs
    next handle ready hready =>
      cases hs
      have hready : Split o { s with ready := ready } used unread := { h with }
      exact hready.finishRead _ _ faults
    next => cases hs
  | arm submitted =>
    cases hs
    exact ⟨used, unread, h.arms (startRecvMultishot_arms submitted s.conn)⟩
  | complete now res buffer more bytes =>
    rw [step] at hs
    split at hs
    next hmay =>
      cases hs
      by_cases hdata : 0 < res ∧ (buffer.isSome = true ∨ s.conn.useMultishot o = false)
      · exact ⟨used, _, h.data (kernelMay_data h hmay hdata.1 hdata.2) hdata.1 hdata.2
          (kernelMay_armed hmay)⟩
      · exact ⟨used, unread, h.noData hmay hdata⟩
    next => cases hs
  | take id =>
    rw [step] at hs
    split at hs
    next hid =>
      cases hs
      refine ⟨used, unread, h.pool_perm ?_⟩
      exact List.perm_middle.trans (((List.perm_cons_erase hid).symm).append_right s.elsewhere)
    next => cases hs
  | give id =>
    rw [step] at hs
    split at hs
    next hid =>
      cases hs
      refine ⟨used, unread, h.pool_perm ?_⟩
      rw [append_assoc]
      exact ((List.perm_cons_erase hid).symm).append_left s.ring
    next => cases hs
  | write id bytes =>
    rw [step] at hs
    split at hs
    next hid =>
      cases hs
      exact ⟨used, unread, h.write hid bytes⟩
    next => cases hs
  | receiving bytes =>
    rw [step] at hs
    split at hs
    next hmode =>
      cases hs
      refine ⟨used, unread, h.memory fun d hd => ?_⟩
      rw [h.unread_nil (h.oneShot hmode.1 hmode.2)] at hd
      cases hd
    next => cases hs

theorem reachable_split (h : (streamSystem o).Reachable s) : ∃ used unread, Split o s used unread :=
  Reachable.invariant
    (P := fun s => ∃ used unread, Split o s used unread)
    (fun _ hinit => ⟨[], [], Initial.split hinit⟩) (fun _ _ _ ih hs => step_split hs ih) h

/-! ## What a caller can rely on -/

/-- The bytes in the queue, as reads will return them. -/
def queuedBytes (o : Options) (s : Stream) : List UInt8 :=
  s.conn.receivedBuffers.flatMap fun r =>
    span (content o s.conn s.memory r.bufferId) r.offset.toNat (r.size.toNat - r.offset.toNat)

theorem Holds.rest (h : Holds c r d) :
    Stream.span (c r.bufferId) r.offset.toNat (r.size.toNat - r.offset.toNat) =
      d.bytes.drop r.offset.toNat := by
  rw [h.span le_rfl, h.size, ← length_drop, List.take_length]

/-- What has been read of the first delivery and what is queued are the unread deliveries. -/
theorem Pending.bytes (h : Pending c queue ds) : progress queue ds ++ queue.flatMap (fun r =>
      span (c r.bufferId) r.offset.toNat (r.size.toNat - r.offset.toNat)) =
        ds.flatMap Delivery.bytes := by
  have hholds := h.holds
  induction hholds with
  | nil => rfl
  | @cons r d queue ds hr _ ih =>
    have hrest := ih h.rest
    rw [h.progress_rest, nil_append] at hrest
    rw [List.flatMap_cons, List.flatMap_cons, hrest, hr.rest, ← append_assoc]
    show d.bytes.take r.offset.toNat ++ d.bytes.drop r.offset.toNat ++ _ = _
    rw [take_append_drop]

/-- Reads return what was delivered. -/
structure Exact (o : Options) (s : Stream) : Prop where
  /-- Nothing is lost, duplicated or reordered: what was returned is a prefix, and the rest is
      queued. -/
  returned : s.returned <+: s.deliveries.flatMap Delivery.bytes
  queued : s.returned ++ s.queuedBytes o = s.deliveries.flatMap Delivery.bytes
  /-- Buffers are released in order, each once, when its last byte has been returned. -/
  released : s.released = (s.deliveries.take s.released.length).map Delivery.id
  last (i : Nat) : i < s.deliveries.length → (i < s.released.length ↔
      ((s.deliveries.take (i + 1)).flatMap Delivery.bytes).length ≤ s.returned.length)
  /-- Zero bytes for a nonempty destination: the end of the stream, and everything is returned. -/
  zero (drainBuffered : Bool) (room : Nat) (faults : List Bool) : 0 < room →
    (awaitResume o s.memory drainBuffered room faults s.conn).1 = .ok [] →
    s.conn.recvEof = true ∧ s.returned = s.deliveries.flatMap Delivery.bytes
  /-- With data and no error pending, a read whose views are not made invalid returns bytes. -/
  answers (drainBuffered : Bool) (room : Nat) : 0 < room → s.conn.lastError.isOk = true →
    s.conn.receivedBuffers ≠ [] →
    ∃ bytes, bytes ≠ [] ∧ (awaitResume o s.memory drainBuffered room [] s.conn).1 = .ok bytes
  /-- `ReadSomeBuffered` is successive single reads. -/
  buffered (room : Nat) (faults : List Bool) : 0 < room → s.conn.lastError.isOk = true →
    s.conn.receivedBuffers ≠ [] →
    awaitResume o s.memory true room faults s.conn =
      (readsSome o s.memory s.conn.receivedBuffers.length room faults s.conn).answer
  /-- The kernel has `read_buffer_` only while it holds no unread bytes. -/
  oneShot : s.conn.useMultishot o = false → s.conn.recvArmed = true → s.queuedBytes o = []

theorem Split.queued (h : Split o s used unread) :
    s.returned ++ s.queuedBytes o = s.deliveries.flatMap Delivery.bytes := by
  rw [h.returned, h.deliveries, flatMap_append, append_assoc]
  exact congrArg (used.flatMap Delivery.bytes ++ ·) h.pending.bytes

/-- Less than the first unread delivery has been read. -/
theorem Pending.progress_lt (h : Pending c queue (d :: ds)) :
    (progress queue (d :: ds)).length < d.bytes.length := by
  rcases queue with _ | ⟨r, queue⟩
  · cases h.holds
  have hoffset := (List.forall₂_cons.mp h.holds).1.offset
  show (d.bytes.take r.offset.toNat).length < d.bytes.length
  rw [List.length_take]
  omega

/-- A delivery is used up when its last byte has been returned. -/
theorem Split.last (h : Split o s used unread) {i : Nat} (hi : i < s.deliveries.length) :
    i < s.released.length ↔
      ((s.deliveries.take (i + 1)).flatMap Delivery.bytes).length ≤ s.returned.length := by
  have hlength : s.released.length = used.length := by rw [h.released, List.length_map]
  have hreturned : s.returned.length = (used.flatMap Delivery.bytes).length +
      (progress s.conn.receivedBuffers unread).length := by
    rw [h.returned, length_append]
  rw [hlength, h.deliveries]
  constructor
  · intro hlt
    rw [List.take_append_of_le_length (show i + 1 ≤ used.length from hlt), hreturned]
    have hsub : ((used.take (i + 1)).flatMap Delivery.bytes).length ≤
        (used.flatMap Delivery.bytes).length := by
      conv_rhs => rw [← take_append_drop (i + 1) used, flatMap_append, length_append]
      exact Nat.le_add_right _ _
    omega
  · intro hle
    by_contra hge
    rw [h.deliveries, length_append] at hi
    rcases unread with _ | ⟨d, ds⟩
    · rw [List.length_nil] at hi
      omega
    have hprogress := h.pending.progress_lt
    -- the first unread delivery is among the first `i + 1`
    have htake : (used ++ d :: ds).take (i + 1) = used ++ d :: ds.take (i - used.length) := by
      rw [List.take_append, List.take_of_length_le (by omega),
        show i + 1 - used.length = i - used.length + 1 by omega, List.take_succ_cons]
    rw [htake, flatMap_append, List.flatMap_cons, length_append, length_append] at hle
    omega

/-- A view of an unread delivery is valid. -/
theorem Split.view (h : Split o s used unread) (hr : Holds (content o s.conn s.memory) r d)
    (hd : d ∈ unread) {k : Nat} (hk : k ≤ r.size.toNat - r.offset.toNat) :
    (viewRecvBuffer o s.conn s.memory r k).length = k := by
  have hfits := h.fits d hd
  have hsize := hr.size
  have hoffset := hr.offset
  unfold Fits at hfits
  unfold viewRecvBuffer
  rw [hr.id]
  split at hfits
  next hmulti =>
    rw [if_pos hmulti, if_neg (by omega), length_span]
  rename_i hone
  rw [if_neg hone, if_neg, length_span]
  rintro (hid | hbounds)
  · exact hid hfits.1
  · omega

/-- The first view of a loop is valid: the read returns bytes. -/
theorem copyLoop_ok {view : ReceivedBuffer → Nat → List UInt8}
    (hview : ∀ r k, (view r k).length = k → view r k = span (c r.bufferId) r.offset.toNat k)
    (h : Pending c (r :: queue) (d :: ds))
    (hvalid : ∀ k ≤ r.size.toNat - r.offset.toNat, (view r k).length = k) (drainBuffered : Bool)
    (room : Nat) :
    ∃ bytes, (copyLoop view drainBuffered room [] [] (r :: queue)).result = .ok bytes := by
  have hpos := (List.forall₂_cons.mp h.holds).1.available_pos
  rw [copyLoop]
  generalize hcopy : min (room - ([] : List UInt8).length) (r.size.toNat - r.offset.toNat) = toCopy
  have hlen : (view r toCopy).length = toCopy := hvalid toCopy (hcopy ▸ Nat.min_le_right ..)
  rw [List.headD_nil, if_neg Bool.false_ne_true, if_neg (not_not.mpr hlen)]
  split
  next hall =>
    split
    next =>
      obtain ⟨m, out, he⟩ := copyLoop_spec hview h.rest drainBuffered room
        ([] ++ view r toCopy) [].tail
      rcases he.result with hok | ⟨_, hnil, _⟩
      · exact ⟨_, hok⟩
      rw [nil_append] at hnil
      rw [hnil, List.length_nil] at hlen
      omega
    next => exact ⟨_, rfl⟩
  next => exact ⟨_, rfl⟩

theorem Split.answers (h : Split o s used unread)
    (drainBuffered : Bool) {room : Nat} (hroom : 0 < room) (hok : s.conn.lastError.isOk = true)
    (hqueue : s.conn.receivedBuffers ≠ []) :
    ∃ bytes, bytes ≠ [] ∧ (awaitResume o s.memory drainBuffered room [] s.conn).1 = .ok bytes := by
  obtain ⟨r, queue, hcons⟩ := List.exists_cons_of_ne_nil hqueue
  have hpending := h.pending
  have hzero : (awaitResume o s.memory drainBuffered room [] s.conn).1 = .ok [] →
      s.conn.recvEof = true ∧ s.conn.receivedBuffers = [] := awaitResume_zero h.pending hroom
  rw [awaitResume_loop hok hcons] at hzero ⊢
  rw [hcons] at hpending
  rcases unread with _ | ⟨d, ds⟩
  · cases hpending.holds
  have hr := (List.forall₂_cons.mp hpending.holds).1
  obtain ⟨bytes, hbytes⟩ := copyLoop_ok (fun _ _ => viewRecvBuffer_spec) hpending
    (fun k hk => h.view hr mem_cons_self hk) drainBuffered room
  refine ⟨bytes, ?_, hbytes⟩
  rintro rfl
  exact hqueue (hzero hbytes).2

/-- **Reads return the received bytes exactly.**  In every state of every run of deliveries, errors,
    reads of any size and invalid views, on an open connection in either mode. -/
theorem reachable_reads {s : Stream} (h : (streamSystem o).Reachable s) : s.Exact o := by
  obtain ⟨used, unread, hsplit⟩ := reachable_split h
  have hqueued := hsplit.queued
  refine ⟨⟨_, hqueued⟩, hqueued, ?_, fun _ => hsplit.last, ?_, ?_, ?_, ?_⟩
  · rw [hsplit.released, List.length_map, hsplit.deliveries, List.take_left]
  · intro drainBuffered room faults hroom hzero
    obtain ⟨heof, hempty⟩ := awaitResume_zero hsplit.pending hroom hzero
    refine ⟨heof, ?_⟩
    rw [← hqueued, queuedBytes, hempty]
    exact (append_nil _).symm
  · exact fun drainBuffered room => hsplit.answers drainBuffered
  · exact fun room faults hroom hok hqueue => awaitResume_drain hok hqueue hroom faults
  · intro hone harmed
    rw [queuedBytes, hsplit.oneShot hone harmed]
    rfl

/-- Two provided buffers of four bytes. -/
def smallOptions : Options := ⟨true, 2, 4, 0, fun _ _ => Status.mk .unknown "recv failed"⟩

/-- A new connection with both buffers in the ring. -/
def smallStream : Stream where
  conn := Connection.fresh ⟨7, 0, false⟩ .multishot 0
  memory := ⟨fun _ _ => 0, fun _ => 0⟩
  ring := [0, 1]
  elsewhere := []
  reads := fun _ => (0, false)
  ready := []
  deliveries := []
  returned := []
  released := []

/-- Two buffers arrive; a buffered read meets an invalid view at the second, the next read reports
    it, and the one after returns the rest. -/
def deferredError : List Action :=
  [.arm Status.okStatus, .complete 1 3 (some 0) true [1, 2, 3], .complete 2 2 (some 1) true [4, 5],
    .read 8 0 true [false, true] Status.okStatus, .read 8 1 false [] Status.okStatus,
    .read 8 2 false [] Status.okStatus]

theorem reachable_reads_deferredError :
    ∃ s, (streamSystem smallOptions).run smallStream deferredError = some s ∧
      (s.returned = [1, 2, 3, 4, 5] ∧ s.released = [0, 1]) ∧ s.Exact smallOptions := by
  have hids : ∀ id ∈ smallStream.ring ++ smallStream.elsewhere,
      id.toNat < smallOptions.recvBufferCount := by
    intro id hid
    rcases List.mem_pair.mp hid with rfl | rfl <;> decide
  exact exists_run ⟨⟨_, _, _, rfl⟩, by decide, hids, rfl, rfl, rfl, rfl⟩ reachable_reads
    ⟨_, rfl, by decide, by decide⟩

/-! ## The worker's model -/

theorem length_viewRecvBuffer (o : Options) (conn : Connection) (m : Memory) (r : ReceivedBuffer)
    (k : Nat) : (viewRecvBuffer o conn m r k).length = Worker.viewRecvBuffer o conn r k := by
  unfold viewRecvBuffer Worker.viewRecvBuffer
  dsimp only
  split_ifs
  · rfl
  · exact length_span ..
  · rfl
  · exact length_span ..

/-- The loop without injected faults leaves the queue, the releases and the error that the worker's
    model, which has no bytes, computes. -/
theorem copyLoop_readLoop (o : Options) (conn : Connection) (m : Memory) (drainBuffered : Bool)
    (room : Nat) (copied : List UInt8) (queue : List ReceivedBuffer) :
    Worker.readLoop o conn drainBuffered room copied.length queue =
      let e := copyLoop (viewRecvBuffer o conn m) drainBuffered room copied [] queue
      ⟨e.buffers, e.released, e.error⟩ := by
  induction queue generalizing copied with
  | nil => rfl
  | cons r queue ih =>
    rw [copyLoop, Worker.readLoop]
    generalize min (room - copied.length) (r.size.toNat - r.offset.toNat) = toCopy
    rw [List.headD_nil, if_neg Bool.false_ne_true, length_viewRecvBuffer]
    split_ifs with hinvalid hempty hall hmore
    · rfl
    · rfl
    · have hlen : (copied ++ viewRecvBuffer o conn m r toCopy).length = copied.length + toCopy := by
        rw [length_append, length_viewRecvBuffer, of_not_not hinvalid]
      rw [← hlen, ih]
      rfl
    · rfl
    · rfl

end Bycorf.Net.Stream
