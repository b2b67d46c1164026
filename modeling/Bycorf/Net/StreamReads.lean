/-
  What ONE read does.

  1. **Queue** — `Pending`: the entries of `received_buffers_` stand for the deliveries that are not
     used up, in order; the first may be partly read, and the memory still holds their bytes.
  2. **Loop** — `copyLoop_spec`: a read uses up some deliveries, releases exactly those, and returns
     the bytes from where the queue stood to where it stands (`Consumes`).
  3. **Buffered** — `awaitResume_drain`: `ReadSomeBuffered` is successive single reads.
-/
import Bycorf.Net.Records
import Bycorf.Net.Stream

namespace Bycorf.Net.Stream

open IoUring Lib
open List (length_nil nil_append)
open UInt32 (ofNat size)

/-! ## Spans -/

theorem length_span (bytes : Nat → UInt8) (offset length : Nat) :
    (span bytes offset length).length = length := by
  simp [span]

variable {k : Nat}

theorem span_take (bytes : Nat → UInt8) (offset : Nat) {length : Nat} (h : k ≤ length) :
    (span bytes offset length).take k = span bytes offset k := by
  rw [span, ← List.map_take, List.take_range, Nat.min_eq_left h, span]

theorem span_drop (bytes : Nat → UInt8) (length k : Nat) :
    (span bytes 0 length).drop k = span bytes k (length - k) := by
  refine List.ext_getElem (by simp [span]) fun i h h' => ?_
  simp [span]

variable {o : Options} {conn : Connection} {m : Memory}

/-- A view of the right size is the bytes of the buffer. -/
theorem viewRecvBuffer_spec {buffer : ReceivedBuffer}
    (h : (viewRecvBuffer o conn m buffer k).length = k) :
    viewRecvBuffer o conn m buffer k =
      span (content o conn m buffer.bufferId) buffer.offset.toNat k := by
  have hempty : ∀ bytes : Nat → UInt8, ([] : List UInt8).length = k →
      [] = span bytes buffer.offset.toNat k := by
    rintro bytes rfl
    rfl
  unfold viewRecvBuffer at h ⊢
  unfold content
  dsimp only at h ⊢
  split_ifs at h ⊢
  · exact hempty _ h
  · rfl
  · exact hempty _ h
  · rfl

/-! ## The queue -/

/-- A queue entry stands for a delivery whose bytes are still in the buffer, `c` being the content
    of the buffers; the entry is not used up. -/
structure Holds (c : UInt16 → Nat → UInt8) (r : ReceivedBuffer) (d : Delivery) : Prop where
  id : r.bufferId = d.id
  size : r.size.toNat = d.bytes.length
  offset : r.offset.toNat < d.bytes.length
  bytes : span (c d.id) 0 d.bytes.length = d.bytes

/-- The queue stands for the deliveries `ds`, and only its first entry is partly read. -/
structure Pending (c : UInt16 → Nat → UInt8) (queue : List ReceivedBuffer) (ds : List Delivery) :
    Prop where
  holds : List.Forall₂ (Holds c) queue ds
  offsets : ∀ r ∈ queue.tail, r.offset = 0

/-- What has been read of the first delivery. -/
def progress : List ReceivedBuffer → List Delivery → List UInt8
  | r :: _, d :: _ => d.bytes.take r.offset.toNat
  | _, _ => []

variable {queue : List ReceivedBuffer}

/-- Nothing has been read of a queue behind another entry. -/
theorem progress_eq_nil (h : ∀ r ∈ queue, r.offset = 0)
    (ds : List Delivery) : progress queue ds = [] := by
  rcases queue with _ | ⟨r, queue⟩
  · rfl
  cases ds with
  | nil => rfl
  | cons d ds =>
    rw [progress, h r mem_cons_self]
    rfl

variable {r : ReceivedBuffer} {d : Delivery} {ds : List Delivery}

section

variable {c : UInt16 → Nat → UInt8}

theorem Pending.rest (h : Pending c (r :: queue) (d :: ds)) : Pending c queue ds :=
  ⟨(List.forall₂_cons.mp h.holds).2, fun x hx => h.offsets x (List.mem_of_mem_tail hx)⟩

theorem Pending.progress_rest (h : Pending c (r :: queue) (d :: ds)) : progress queue ds = [] :=
  progress_eq_nil h.offsets ds

/-- A new delivery joins the queue. -/
theorem Pending.push (h : Pending c queue ds) (hr : Holds c r d)
    (hzero : r.offset = 0) : Pending c (queue ++ [r]) (ds ++ [d]) := by
  constructor
  · exact List.rel_append h.holds (List.forall₂_cons.mpr ⟨hr, List.Forall₂.nil⟩)
  · intro x hx
    rcases queue with _ | ⟨y, queue⟩
    · cases hx
    rcases mem_append.mp hx with hold | hnew
    · exact h.offsets x hold
    rw [mem_singleton.mp hnew]
    exact hzero

/-- The bytes of a queued delivery from the offset on. -/
theorem Holds.span (h : Holds c r d) (hk : k ≤ r.size.toNat - r.offset.toNat) :
    Stream.span (c r.bufferId) r.offset.toNat k = (d.bytes.drop r.offset.toNat).take k := by
  rw [h.size] at hk
  have hdrop : d.bytes.drop r.offset.toNat =
      Stream.span (c d.id) r.offset.toNat (d.bytes.length - r.offset.toNat) := by
    rw [← span_drop, h.bytes]
  rw [hdrop, span_take _ _ hk, h.id]

theorem Holds.available_pos (h : Holds c r d) : 0 < r.size.toNat - r.offset.toNat := by
  have hsize := h.size
  have hoffset := h.offset
  omega

end

/-! ## The loop -/

/-- What a run of the loop does: it uses up `m` deliveries and returns `out`. -/
structure Consumes (c : UInt16 → Nat → UInt8) (queue : List ReceivedBuffer) (ds : List Delivery)
    (copied : List UInt8) (e : Copied) (m : Nat) (out : List UInt8) : Prop where
  count : m ≤ ds.length
  pending : Pending c e.buffers (ds.drop m)
  released : e.released = (ds.take m).map Delivery.id
  bytes : progress queue ds ++ out =
    (ds.take m).flatMap Delivery.bytes ++ progress e.buffers (ds.drop m)
  result : e.result = .ok (copied ++ out) ∨ (e.result = .error invalidView ∧ copied = [] ∧ out = [])

section Loop

variable {c : UInt16 → Nat → UInt8} {view : ReceivedBuffer → Nat → List UInt8}
  {queue : List ReceivedBuffer} {ds : List Delivery} {r : ReceivedBuffer}
  {copied chunk : List UInt8} {d : Delivery}

section

variable (h : Pending c (r :: queue) (d :: ds))
include h

/-- One entry and its delivery. -/
theorem Consumes.one (hchunk : chunk = d.bytes.drop r.offset.toNat) :
    Consumes c (r :: queue) (d :: ds) copied ⟨.ok (copied ++ chunk), queue, [r.bufferId], none⟩ 1
      chunk where
  count := Nat.le_add_left 1 ds.length
  pending := h.rest
  released := congrArg (fun id => [id]) (List.forall₂_cons.mp h.holds).1.id
  bytes := by
    show d.bytes.take r.offset.toNat ++ chunk = [d].flatMap Delivery.bytes ++ progress queue ds
    rw [h.progress_rest, hchunk, take_append_drop]
    simp
  result := .inl rfl

/-- One entry, then the rest of the queue. -/
theorem Consumes.next {out : List UInt8}
    (hchunk : chunk = d.bytes.drop r.offset.toNat) (hnonempty : chunk ≠ []) {e : Copied} {m : Nat}
    (he : Consumes c queue ds (copied ++ chunk) e m out) :
    Consumes c (r :: queue) (d :: ds) copied { e with released := r.bufferId :: e.released } (m + 1)
      (chunk ++ out) where
  count := Nat.succ_le_succ he.count
  pending := he.pending
  released := by
    show r.bufferId :: e.released = _
    rw [he.released, (List.forall₂_cons.mp h.holds).1.id]
    rfl
  bytes := by
    have hrest := he.bytes
    rw [h.progress_rest, nil_append] at hrest
    show d.bytes.take r.offset.toNat ++ (chunk ++ out) =
      (d :: ds.take m).flatMap Delivery.bytes ++ progress e.buffers (ds.drop m)
    rw [hrest, hchunk, List.flatMap_cons, ← append_assoc, take_append_drop, append_assoc]
  result := by
    rcases he.result with hok | ⟨_, hnil, _⟩
    · left
      rw [← append_assoc]
      exact hok
    · exact absurd (List.append_eq_nil_iff.mp hnil).2 hnonempty

/-- The destination is full inside an entry. -/
theorem Consumes.part {k : Nat} (hk : k < r.size.toNat - r.offset.toNat)
    (hchunk : chunk = (d.bytes.drop r.offset.toNat).take k) :
    Consumes c (r :: queue) (d :: ds) copied
      ⟨.ok (copied ++ chunk), { r with offset := r.offset + UInt32.ofNat k } :: queue, [], none⟩ 0
      chunk := by
  obtain ⟨hr, hqueue⟩ := List.forall₂_cons.mp h.holds
  have hsize := hr.size
  have hoffset : (r.offset + ofNat k).toNat = r.offset.toNat + k := by
    have hlt : r.size.toNat < 2 ^ 32 := r.size.toNat_lt
    have hsmall : k < size := by
      show k < 2 ^ 32
      omega
    rw [UInt32.toNat_add, UInt32.toNat_ofNat_of_lt' hsmall, Nat.mod_eq_of_lt (by omega)]
  refine ⟨Nat.zero_le _, ⟨?_, h.offsets⟩, rfl, ?_, .inl rfl⟩
  · refine List.forall₂_cons.mpr ⟨⟨hr.id, hr.size, ?_, hr.bytes⟩, hqueue⟩
    show (r.offset + ofNat k).toNat < d.bytes.length
    omega
  · show d.bytes.take r.offset.toNat ++ chunk = [] ++ d.bytes.take (r.offset + ofNat k).toNat
    rw [hoffset, hchunk, nil_append, List.take_add]

end

/-- **The loop consumes the queue from its front.** -/
theorem copyLoop_spec
    (hview : ∀ r k, (view r k).length = k → view r k = span (c r.bufferId) r.offset.toNat k)
    (h : Pending c queue ds)
    (drainBuffered : Bool) (room : Nat) (copied : List UInt8) (faults : List Bool) :
    ∃ m out, Consumes c queue ds copied
      (copyLoop view drainBuffered room copied faults queue) m out := by
  induction queue generalizing ds copied faults with
  | nil =>
    obtain rfl : ds = [] := List.forall₂_nil_left_iff.mp h.holds
    exact ⟨0, [], le_rfl, h, rfl, rfl, .inl (by rw [append_nil]; rfl)⟩
  | cons r queue ih =>
    rcases ds with _ | ⟨d, ds⟩
    · cases h.holds
    have hr := (List.forall₂_cons.mp h.holds).1
    rw [copyLoop]
    generalize hcopy : min (room - copied.length) (r.size.toNat - r.offset.toNat) = toCopy
    have hle : toCopy ≤ r.size.toNat - r.offset.toNat := hcopy ▸ Nat.min_le_right ..
    generalize hchunk : (if faults.headD false then [] else view r toCopy) = chunk
    have hspec : chunk.length = toCopy → chunk = (d.bytes.drop r.offset.toNat).take toCopy := by
      intro hlen
      rw [← hr.span hle]
      split at hchunk
      · obtain rfl := hchunk
        obtain rfl : 0 = toCopy := hlen
        rfl
      rw [← hchunk] at hlen ⊢
      exact hview r toCopy hlen
    have hsize := hr.size
    split
    next hinvalid =>
      split
      next hempty =>
        obtain rfl := List.eq_nil_of_length_eq_zero hempty
        exact ⟨0, [], Nat.zero_le _, h, rfl, append_nil _, .inr ⟨rfl, rfl, rfl⟩⟩
      next =>
        exact ⟨0, [], Nat.zero_le _, h, rfl, append_nil _, .inl (by rw [append_nil])⟩
    next hvalid =>
      have hlen : chunk.length = toCopy := of_not_not hvalid
      have hbytes := hspec hlen
      split
      next hall =>
        have hdrop : chunk = d.bytes.drop r.offset.toNat := by
          rw [hbytes, List.take_of_length_le]
          rw [length_drop]
          omega
        split
        next hmore =>
          obtain ⟨m, out, he⟩ := ih h.rest (copied ++ chunk) faults.tail
          refine ⟨m + 1, chunk ++ out, Consumes.next h hdrop ?_ he⟩
          intro hnil
          have hpos := hr.available_pos
          rw [hnil] at hlen
          rw [← hall, ← hlen] at hpos
          exact absurd hpos (Nat.lt_irrefl 0)
        next => exact ⟨1, chunk, Consumes.one h hdrop⟩
      next hpart => exact ⟨0, chunk, Consumes.part h (by omega) hbytes⟩

variable {drainBuffered : Bool}

/-- Bytes already copied are returned. -/
theorem copyLoop_ok_ne_nil {room : Nat}
    (hcopied : copied ≠ []) (faults : List Bool) (queue : List ReceivedBuffer) :
    (copyLoop view drainBuffered room copied faults queue).result ≠ .ok [] := by
  induction queue generalizing copied faults with
  | nil => exact fun heq => hcopied (Except.ok.inj heq)
  | cons r queue ih =>
    rw [copyLoop]
    generalize min (room - copied.length) (r.size.toNat - r.offset.toNat) = toCopy
    generalize (if faults.headD false then [] else view r toCopy) = chunk
    have hmore : copied ++ chunk ≠ [] := List.append_ne_nil_of_left_ne_nil hcopied chunk
    split_ifs with hinvalid hempty hall hnext
    · exact nofun
    · exact fun heq => hcopied (Except.ok.inj heq)
    · exact ih hmore _
    · exact fun heq => hmore (Except.ok.inj heq)
    · exact fun heq => hmore (Except.ok.inj heq)

/-- A read of a nonempty queue into a nonempty destination returns bytes, or it fails because its
    first view is invalid. -/
theorem copyLoop_answers {room : Nat} (faults : List Bool)
    (havailable : 0 < r.size.toNat - r.offset.toNat) (hroom : 0 < room) :
    (copyLoop view drainBuffered room [] faults (r :: queue)).result ≠ .ok [] := by
  rw [copyLoop]
  rw [length_nil, Nat.sub_zero]
  generalize hcopy : min room (r.size.toNat - r.offset.toNat) = toCopy
  have hpos : 0 < toCopy := by omega
  generalize (if faults.headD false then [] else view r toCopy) = chunk
  have hne : chunk.length = toCopy → [] ++ chunk ≠ [] := by
    rintro hlen rfl
    exact absurd hlen (Nat.ne_of_lt hpos)
  split_ifs with hinvalid hempty hall hmore
  · exact nofun
  · exact absurd rfl hempty
  · exact copyLoop_ok_ne_nil (hne (of_not_not hinvalid)) _ _
  · exact fun heq => hne (of_not_not hinvalid) (Except.ok.inj heq)
  · exact fun heq => hne (of_not_not hinvalid) (Except.ok.inj heq)

end Loop

/-! ## One read -/

/-- What a read does, seen from the caller and the queue. -/
structure Reads (o : Options) (m : Memory) (conn : Connection) (ds : List Delivery)
    (answer : Except Status (List UInt8)) (conn' : Connection) (released : List UInt16) (n : Nat)
    (out : List UInt8) : Prop where
  count : n ≤ ds.length
  record : conn' = { conn with
    receivedBuffers := conn'.receivedBuffers, lastError := conn'.lastError }
  pending : Pending (content o conn m) conn'.receivedBuffers (ds.drop n)
  released : released = (ds.take n).map Delivery.id
  bytes : progress conn.receivedBuffers ds ++ out =
    (ds.take n).flatMap Delivery.bytes ++ progress conn'.receivedBuffers (ds.drop n)
  answer : answer = .ok out ∨ ((∃ status, answer = .error status) ∧ out = [])

/-- **One read.** -/
theorem awaitResume_spec
    (h : Pending (content o conn m) conn.receivedBuffers ds) (drainBuffered : Bool) (room : Nat)
    (faults : List Bool) :
    ∃ n out, Reads o m conn ds (awaitResume o m drainBuffered room faults conn).1
      (awaitResume o m drainBuffered room faults conn).2.1
      (awaitResume o m drainBuffered room faults conn).2.2 n out := by
  unfold awaitResume
  split
  · exact ⟨0, [], Nat.zero_le _, rfl, h, rfl, append_nil _, .inr ⟨⟨_, rfl⟩, rfl⟩⟩
  split
  · exact ⟨0, [], Nat.zero_le _, rfl, h, rfl, append_nil _, .inl rfl⟩
  split
  · exact ⟨0, [], Nat.zero_le _, rfl, h, rfl, append_nil _, .inr ⟨⟨_, rfl⟩, rfl⟩⟩
  have hview : ∀ r k, (viewRecvBuffer o conn m r k).length = k → viewRecvBuffer o conn m r k =
      span (content o conn m r.bufferId) r.offset.toNat k := fun _ _ => viewRecvBuffer_spec
  obtain ⟨n, out, he⟩ := copyLoop_spec hview h drainBuffered room [] faults
  refine ⟨n, out, he.count, rfl, he.pending, he.released, he.bytes, ?_⟩
  rcases he.result with hok | ⟨herror, -, hnil⟩
  · exact .inl hok
  · exact .inr ⟨⟨_, herror⟩, hnil⟩

variable {room : Nat}

/-- Zero bytes for a nonempty destination mean the end of the stream and an empty queue. -/
theorem awaitResume_zero
    (h : Pending (content o conn m) conn.receivedBuffers ds) {faults : List Bool} (hroom : 0 < room)
    (hzero : (awaitResume o m drainBuffered room faults conn).1 = .ok []) :
    conn.recvEof = true ∧ conn.receivedBuffers = [] := by
  unfold awaitResume at hzero
  split at hzero
  · cases hzero
  split at hzero
  next heof => exact heof
  split at hzero
  · cases hzero
  rename_i hqueue
  rcases hr : conn.receivedBuffers with _ | ⟨r, queue⟩
  · exact absurd hr hqueue
  rw [hr] at h hzero
  cases ds with
  | nil => cases h.holds
  | cons d ds =>
    have havailable := (List.forall₂_cons.mp h.holds).1.available_pos
    exact absurd hzero (copyLoop_answers faults havailable hroom)

/-! ## ReadSomeBuffered -/

/-- What a series of reads returned, the record and the buffers released; `failed` is the error that
    ended it. -/
structure Series where
  bytes : List UInt8
  conn : Connection
  released : List UInt16
  failed : Option Status

/-- Successive `ReadSome` calls on the data already queued, at most `count` of them, for `room`
    bytes in total; view call by view call they meet the same faults. -/
def readsSome (o : Options) (m : Memory) : Nat → Nat → List Bool → Connection → Series
  | 0, _, _, conn => ⟨[], conn, [], none⟩
  | count + 1, room, faults, conn =>
    if room = 0 ∨ conn.receivedBuffers = [] then ⟨[], conn, [], none⟩
    else
      let read := awaitResume o m false room faults conn
      match read.1 with
      | .ok bytes =>
        let more := readsSome o m count (room - bytes.length) faults.tail read.2.1
        { more with bytes := bytes ++ more.bytes, released := read.2.2 ++ more.released }
      | .error status => ⟨[], read.2.1, read.2.2, some status⟩

/-- What one read returns when it stands for a series: the error that ended the series waits for the
    next read if there are bytes to return. -/
def Series.answer (series : Series) : Except Status (List UInt8) × Connection × List UInt16 :=
  match series.failed with
  | none => (.ok series.bytes, series.conn, series.released)
  | some status =>
    if series.bytes = [] then (.error status, series.conn, series.released)
    else (.ok series.bytes, { series.conn with lastError := status }, series.released)

theorem readsSome_full (o : Options) (m : Memory) (count : Nat) (faults : List Bool)
    (conn : Connection) : readsSome o m count 0 faults conn = ⟨[], conn, [], none⟩ := by
  cases count with
  | zero => rfl
  | succ count => rw [readsSome, if_pos (.inl rfl)]

/-- The loop of one read, with the queue in its record, before the answer is made of it. -/
def Copied.answer (conn : Connection) (e : Copied) :
    Except Status (List UInt8) × Connection × List UInt16 :=
  (e.result,
    { conn with receivedBuffers := e.buffers, lastError := e.error.getD conn.lastError },
    e.released)

/-- A read without an error pending and with a queue is its loop. -/
theorem awaitResume_loop (hok : conn.lastError.isOk = true)
    (hqueue : conn.receivedBuffers = r :: queue) (drainBuffered : Bool) (room : Nat)
    (faults : List Bool) :
    awaitResume o m drainBuffered room faults conn =
      (copyLoop (viewRecvBuffer o conn m) drainBuffered room [] faults (r :: queue)).answer
        conn := by
  have hne : conn.receivedBuffers ≠ [] := by
    rw [hqueue]
    exact List.cons_ne_nil r queue
  rw [awaitResume, if_neg (by rw [hok]; decide), if_neg fun hand => hne hand.2, if_neg hne, hqueue]
  rfl

/-- One iteration of the loop is all there is without `drainBuffered`. -/
theorem copyLoop_single (view : ReceivedBuffer → Nat → List UInt8) (room : Nat) (faults : List Bool)
    (r : ReceivedBuffer) (queue : List ReceivedBuffer) :
    copyLoop view false room [] faults (r :: queue) =
      let toCopy := min room (r.size.toNat - r.offset.toNat)
      let chunk := if faults.headD false then [] else view r toCopy
      if chunk.length ≠ toCopy then ⟨.error invalidView, r :: queue, [], none⟩
      else if toCopy = r.size.toNat - r.offset.toNat then ⟨.ok chunk, queue, [r.bufferId], none⟩
      else ⟨.ok chunk, { r with offset := r.offset + ofNat toCopy } :: queue, [], none⟩ := by
  rw [copyLoop]
  simp

/-- The loop with `drainBuffered` from `copied` on has done what a series of single reads does. -/
structure Agrees (conn : Connection) (copied : List UInt8) (e : Copied) (series : Series) :
    Prop where
  record : series.conn = { conn with receivedBuffers := e.buffers }
  released : e.released = series.released
  answer : (e.result, e.error) =
    match series.failed with
    | none => (.ok (copied ++ series.bytes), none)
    | some status =>
      if copied ++ series.bytes = [] then (.error status, none)
      else (.ok (copied ++ series.bytes), some status)

section

variable (hok : conn.lastError.isOk = true)
include hok

/-- The first read of a series. -/
theorem readsSome_cons (hroom : 0 < room) (count : Nat)
    (faults : List Bool) (r : ReceivedBuffer) (queue : List ReceivedBuffer) :
    readsSome o m (count + 1) room faults { conn with receivedBuffers := r :: queue } =
      let toCopy := min room (r.size.toNat - r.offset.toNat)
      let chunk := if faults.headD false then [] else viewRecvBuffer o conn m r toCopy
      if chunk.length ≠ toCopy then
        ⟨[], { conn with receivedBuffers := r :: queue }, [], some invalidView⟩
      else if toCopy = r.size.toNat - r.offset.toNat then
        let more := readsSome o m count (room - chunk.length) faults.tail
          { conn with receivedBuffers := queue }
        { more with bytes := chunk ++ more.bytes, released := r.bufferId :: more.released }
      else
        let more := readsSome o m count (room - chunk.length) faults.tail
          { conn with receivedBuffers :=
              { r with offset := r.offset + ofNat toCopy } :: queue }
        { more with bytes := chunk ++ more.bytes } := by
  have hstart : ¬(room = 0 ∨ r :: queue = []) := by
    rintro (rfl | hnil)
    · exact Nat.lt_irrefl 0 hroom
    · cases hnil
  have hview : viewRecvBuffer o { conn with receivedBuffers := r :: queue } m =
      viewRecvBuffer o conn m := rfl
  have hloop := awaitResume_loop (o := o) (m := m)
    (show ({ conn with receivedBuffers := r :: queue } : Connection).lastError.isOk = true from hok)
    rfl false room faults
  rw [readsSome, if_neg hstart, hloop, copyLoop_single, hview]
  dsimp only
  split_ifs <;> rfl

theorem copyLoop_agrees (queue : List ReceivedBuffer)
    {copied : List UInt8} (hroom : copied.length < room) (faults : List Bool) :
    Agrees conn copied (copyLoop (viewRecvBuffer o conn m) true room copied faults queue)
      (readsSome o m queue.length (room - copied.length) faults
        { conn with receivedBuffers := queue }) := by
  induction queue generalizing copied faults with
  | nil => exact ⟨rfl, rfl, by rw [length_nil, readsSome, append_nil]; rfl⟩
  | cons r queue ih =>
    rw [length_cons, readsSome_cons hok (by omega), copyLoop]
    dsimp only
    generalize hcopy : min (room - copied.length) (r.size.toNat - r.offset.toNat) = toCopy
    generalize (if faults.headD false then [] else viewRecvBuffer o conn m r toCopy) = chunk
    split_ifs with hinvalid hempty hall hmore
    · obtain rfl := List.eq_nil_of_length_eq_zero hempty
      exact ⟨rfl, rfl, rfl⟩
    · refine ⟨rfl, rfl, ?_⟩
      have hne : copied ++ [] ≠ [] := by
        rw [append_nil]
        exact fun hnil => hempty (congrArg List.length hnil)
      show _ = if copied ++ [] = [] then _ else _
      rw [if_neg hne, append_nil]
    · have hlen : (copied ++ chunk).length < room := by
        rw [length_append, of_not_not hinvalid]
        exact hmore.2
      have hrest := ih hlen faults.tail
      rw [length_append, ← Nat.sub_sub] at hrest
      refine ⟨hrest.record, congrArg (r.bufferId :: ·) hrest.released, ?_⟩
      have hanswer := hrest.answer
      simp only [append_assoc] at hanswer
      exact hanswer
    · have hfull : room - copied.length - chunk.length = 0 := by
        have hlen := of_not_not hinvalid
        have hnot : ¬copied.length + toCopy < room := fun hlt => hmore ⟨rfl, hlt⟩
        omega
      rw [hfull, readsSome_full]
      exact ⟨rfl, rfl, by rw [append_nil]⟩
    · have hfull : room - copied.length - chunk.length = 0 := by
        omega
      rw [hfull, readsSome_full]
      exact ⟨rfl, rfl, by rw [append_nil]⟩

/-- **`ReadSomeBuffered` is successive single reads** of the data already queued. -/
theorem awaitResume_drain (hqueue : conn.receivedBuffers ≠ [])
    (hroom : 0 < room) (faults : List Bool) :
    awaitResume o m true room faults conn =
      (readsSome o m conn.receivedBuffers.length room faults conn).answer := by
  obtain ⟨r, queue, hcons⟩ := List.exists_cons_of_ne_nil hqueue
  have hagrees := copyLoop_agrees (o := o) (m := m) hok conn.receivedBuffers
    (show ([] : List UInt8).length < room from hroom) faults
  rw [awaitResume_loop hok hcons, ← hcons]
  rw [length_nil, Nat.sub_zero] at hagrees
  generalize readsSome o m conn.receivedBuffers.length room faults conn = series at hagrees ⊢
  generalize copyLoop (viewRecvBuffer o conn m) true room [] faults conn.receivedBuffers = e
    at hagrees ⊢
  obtain ⟨hrecord, hreleased, hanswer⟩ := hagrees
  rw [Copied.answer, Series.answer, hreleased, hrecord]
  cases hfailed : series.failed with
  | none =>
    rw [hfailed] at hanswer
    obtain ⟨hresult, herror⟩ := Prod.mk.inj hanswer
    rw [hresult, herror]
    rfl
  | some status =>
    rw [hfailed] at hanswer
    dsimp only at hanswer ⊢
    rw [nil_append] at hanswer
    split_ifs at hanswer ⊢
    · obtain ⟨hresult, herror⟩ := Prod.mk.inj hanswer
      rw [hresult, herror]
      rfl
    obtain ⟨hresult, herror⟩ := Prod.mk.inj hanswer
    rw [hresult, herror]
    rfl

end

end Bycorf.Net.Stream
