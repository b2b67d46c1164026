/-
  The receive side of ONE open plain-TCP connection, with its BYTES.

  1. **Memory** — the storage of the provided buffers and the connection's own `read_buffer_`.  The
     kernel writes into a provided buffer that is in the ring, or into `read_buffer_` while a
     one-shot receive is armed; other connections write into the buffers they hold.
  2. **Program** — `StartRecvMultishot`, `HandleMultishotRecv` (from `Connection`),
     `ViewRecvBuffer`, and `ReadOperation` with its copy loop.  A view can be made INVALID from
     outside: each view call of a read takes one flag of a list.
  3. **Run** — reads, resumptions, completions and the rest of the pool in any order.  The
     deliveries, the bytes returned and the buffers released are recorded beside the state.

  A completion and its dispatch are one action: between the two nobody else may write the buffer,
  and the connection does not see it.  The connection stays open, and its `recv_mode_` stays as
  it is.
-/
import Mathlib.Algebra.Group.Int.Defs
import Bycorf.Net.Worker

namespace Bycorf.Net

open IoUring Lib

namespace Stream

/-! ## Memory -/

/-- `multishot_ring_.storage_`, one buffer for each id, and `read_buffer_`. -/
structure Memory where
  storage : UInt16 → Nat → UInt8
  readBuffer : Nat → UInt8

/-- `length` bytes from `offset` on. -/
def span (bytes : Nat → UInt8) (offset length : Nat) : List UInt8 :=
  (List.range length).map fun i => bytes (offset + i)

/-- The bytes of a buffer, where `recv` puts them. -/
def content (o : Options) (conn : Connection) (m : Memory) (id : UInt16) : Nat → UInt8 :=
  if conn.useMultishot o then m.storage id else m.readBuffer

/-- `ViewRecvBuffer`; an empty list is the empty span of an invalid view. -/
def viewRecvBuffer (o : Options) (conn : Connection) (m : Memory) (buffer : ReceivedBuffer)
    (length : Nat) : List UInt8 :=
  let offset := buffer.offset.toNat
  if conn.useMultishot o then
    if o.recvBufferCount ≤ buffer.bufferId.toNat ∨ o.recvBufferSize < offset ∨
        o.recvBufferSize - offset < length then []
    else span (m.storage buffer.bufferId) offset length
  else if buffer.bufferId ≠ 0 ∨ conn.readBuffer.size < offset ∨
      conn.readBuffer.size - offset < length then []
  else span m.readBuffer offset length

/-! ## ReadOperation -/

/-- What a read answers for a view that does not fit its buffer. -/
def invalidView : Status := ⟨.internal, "invalid multishot buffer view"⟩

/-- What a read returns, the queue it leaves, the buffers it released, and an error for the next
    read. -/
structure Copied where
  result : Except Status (List UInt8)
  buffers : List ReceivedBuffer
  released : List UInt16
  error : Option Status

/-- The loop of `ReadOperation::await_resume`, for a destination of `room` bytes that already holds
    `copied`.  `faults` says of each view call whether it is made invalid. -/
def copyLoop (view : ReceivedBuffer → Nat → List UInt8) (drainBuffered : Bool) (room : Nat)
    (copied : List UInt8) (faults : List Bool) : List ReceivedBuffer → Copied
  | [] => ⟨.ok copied, [], [], none⟩
  | received :: rest =>
    let available := received.size.toNat - received.offset.toNat
    let toCopy := min (room - copied.length) available
    let chunk := if faults.headD false then [] else view received toCopy
    if chunk.length ≠ toCopy then
      if copied.length = 0 then ⟨.error invalidView, received :: rest, [], none⟩
      -- the valid prefix is returned first, the error by the next read
      else ⟨.ok copied, received :: rest, [], some invalidView⟩
    else if toCopy = available then
      if drainBuffered ∧ copied.length + toCopy < room then
        let more := copyLoop view drainBuffered room (copied ++ chunk) faults.tail rest
        { more with released := received.bufferId :: more.released }
      else
        ⟨.ok (copied ++ chunk), rest, [received.bufferId], none⟩
    else
      ⟨.ok (copied ++ chunk),
        { received with offset := received.offset + UInt32.ofNat toCopy } :: rest, [], none⟩

/-- `ReadOperation::await_resume` without an immediate result: the answer, the record and the
    buffers handed to `ReleaseReceivedBuffer`. -/
def awaitResume (o : Options) (m : Memory) (drainBuffered : Bool) (room : Nat) (faults : List Bool)
    (conn : Connection) : Except Status (List UInt8) × Connection × List UInt16 :=
  if conn.lastError.isOk = false then
    (.error conn.lastError, { conn with lastError := Status.okStatus }, [])
  else if conn.recvEof ∧ conn.receivedBuffers = [] then
    (.ok [], conn, [])
  else if conn.receivedBuffers = [] then
    (.error ⟨.unavailable, "no received data available"⟩, conn, [])
  else
    let copied := copyLoop (viewRecvBuffer o conn m) drainBuffered room [] faults
      conn.receivedBuffers
    (copied.result,
      { conn with
        receivedBuffers := copied.buffers
        lastError := copied.error.getD conn.lastError },
      copied.released)

/-- `StartRecvMultishot` on the record; `submitted` is what `SubmitOrQueue` answers. -/
def startRecvMultishot (o : Options) (submitted : Status) (conn : Connection) :
    Status × Connection :=
  if conn.recvArmed ∨ conn.closed ∨ conn.closing ∨ conn.recvPaused then
    (Status.okStatus, conn)
  else if conn.useMultishot o = false ∧ conn.receivedBuffers ≠ [] then
    (Status.okStatus, conn)
  else
    let conn := conn.allocateReadBuffer o
    if submitted.isOk then
      (Status.okStatus, { conn with recvArmed := true, inflightOps := conn.inflightOps + 1 })
    else (submitted, conn)

/-- What `ReadOperation::await_suspend` decides: an immediate result, to go on with `await_resume`,
    or to suspend. -/
inductive Suspend where
  | immediate (result : Except Status (List UInt8))
  | proceed
  | suspended

/-- `ReadOperation::await_suspend`. -/
def awaitSuspend (o : Options) (submitted : Status) (room handle : Nat) (conn : Connection) :
    Suspend × Connection :=
  if room = 0 then (.immediate (.ok []), conn)
  else if conn.usable = false then
    (.immediate (.error ⟨.failedPrecondition, "read on closed stream"⟩), conn)
  else if conn.receivedBuffers ≠ [] ∨ conn.recvEof ∨ conn.lastError.isOk = false then
    (.proceed, conn)
  else if conn.readInflight ∨ conn.readWaiter.isSome then
    (.immediate (.error ⟨.failedPrecondition, "concurrent read is not allowed"⟩), conn)
  else
    let armed := startRecvMultishot o submitted conn
    if armed.1.isOk then
      (.suspended, { armed.2 with readInflight := true, readWaiter := some handle })
    else (.immediate (.error armed.1), armed.2)

/-! ## The run -/

/-- A receive buffer that was delivered, with its bytes. -/
structure Delivery where
  id : UInt16
  bytes : List UInt8
deriving DecidableEq

end Stream

/-- The connection, the memory, where the provided buffers are (`ring`: the kernel may select them;
    `elsewhere`: other connections have them), the destinations of the suspended reads and the
    readers to resume; then the record of the run. -/
structure Stream where
  conn : Connection
  memory : Stream.Memory
  ring : List UInt16
  elsewhere : List UInt16
  reads : Nat → Nat × Bool
  ready : List Nat
  deliveries : List Stream.Delivery
  returned : List UInt8
  released : List UInt16

namespace Stream

/-- `ReadSome` (without `drainBuffered`) and `ReadSomeBuffered`; a reader resumed by the scheduler;
    the re-arm queue; a receive completion with the bytes it delivers; and the rest of the pool. -/
inductive Action where
  | read (room handle : Nat) (drainBuffered : Bool) (faults : List Bool) (submitted : Status)
  | resume (faults : List Bool)
  | arm (submitted : Status)
  | complete (now res : Int) (buffer : Option UInt16) (more : Bool) (bytes : List UInt8)
  | take (id : UInt16)
  | give (id : UInt16)
  | write (id : UInt16) (bytes : Nat → UInt8)
  | receiving (bytes : Nat → UInt8)

/-- The buffers a read released: `ReleaseRecvBuffer` returns provided ones to the ring. -/
def releaseRecvBuffers (o : Options) (ids : List UInt16) (s : Stream) : Stream :=
  { s with
    released := s.released ++ ids
    ring :=
      if s.conn.useMultishot o then s.ring ++ ids.filter fun id => id.toNat < o.recvBufferCount
      else s.ring }

/-- The bytes a read put into its destination. -/
def bytesOf : Except Status (List UInt8) → List UInt8
  | .ok bytes => bytes
  | .error _ => []

/-- `await_resume`, and what its caller then has. -/
def finishRead (o : Options) (drainBuffered : Bool) (room : Nat) (faults : List Bool) (s : Stream) :
    Stream :=
  let read := awaitResume o s.memory drainBuffered room faults s.conn
  releaseRecvBuffers o read.2.2 { s with
    conn := read.2.1
    returned := s.returned ++ bytesOf read.1 }

/-- What the kernel may complete an armed receive with: a multishot receive selects a buffer that is
    in the ring and fits the data; a one-shot receive fills `read_buffer_`, and is then over. -/
def kernelMay (o : Options) (s : Stream) (res : Int) (buffer : Option UInt16) (more : Bool)
    (bytes : List UInt8) : Bool :=
  s.conn.recvArmed && res < 2 ^ 31 && (bytes.length : Int) = max res 0 &&
    if s.conn.useMultishot o then
      buffer.all fun id => s.ring.contains id && bytes.length ≤ o.recvBufferSize
    else buffer = none && !more && bytes.length ≤ s.conn.readBuffer.size

/-- The bytes of a completion in the buffer it fills. -/
def fill (o : Options) (s : Stream) (buffer : Option UInt16) (bytes : List UInt8) : Memory :=
  if s.conn.useMultishot o then
    match buffer with
    | some id =>
      { s.memory with
        storage := Function.update s.memory.storage id fun i =>
          bytes.getD i (s.memory.storage id i) }
    | none => s.memory
  else { s.memory with readBuffer := fun i => bytes.getD i (s.memory.readBuffer i) }

/-- The completion as `HandleMultishotRecv` sees it. -/
def cqeOf (res : Int) (buffer : Option UInt16) (more : Bool) : Cqe Tag :=
  ⟨.recv 0, res, more, buffer, none⟩

/-- A receive completes and is dispatched.  A buffer that comes with no data goes back to the ring
    at once, so it does not leave it here. -/
def complete (o : Options) (now res : Int) (buffer : Option UInt16) (more : Bool)
    (bytes : List UInt8) (s : Stream) : Stream :=
  let effect := s.conn.handleMultishotRecv o now (cqeOf res buffer more)
  { s with
    conn := effect.conn
    memory := fill o s buffer bytes
    ready := s.ready ++ effect.resume.toList
    ring := if 0 < res then s.ring.filter fun id => buffer ≠ some id else s.ring
    deliveries := s.deliveries ++
      if 0 < res ∧ (buffer.isSome ∨ s.conn.useMultishot o = false) then [⟨buffer.getD 0, bytes⟩]
      else [] }

/-- One step of the stream. -/
def step (o : Options) (s : Stream) : Action → Option Stream
  | .read room handle drainBuffered faults submitted =>
    match awaitSuspend o submitted room handle s.conn with
    | (.immediate _, conn) => some { s with conn := conn }
    | (.proceed, conn) => some (finishRead o drainBuffered room faults { s with conn := conn })
    | (.suspended, conn) =>
      some { s with
        conn := conn
        reads := Function.update s.reads handle (room, drainBuffered) }
  | .resume faults =>
    match s.ready with
    | handle :: ready =>
      let read := s.reads handle
      some (finishRead o read.2 read.1 faults { s with ready := ready })
    | [] => none
  | .arm submitted => some { s with conn := (startRecvMultishot o submitted s.conn).2 }
  | .complete now res buffer more bytes =>
    if s.kernelMay o res buffer more bytes then some (s.complete o now res buffer more bytes)
    else none
  | .take id =>
    if id ∈ s.ring then
      some { s with ring := s.ring.erase id, elsewhere := id :: s.elsewhere }
    else none
  | .give id =>
    if id ∈ s.elsewhere then
      some { s with ring := s.ring ++ [id], elsewhere := s.elsewhere.erase id }
    else none
  | .write id bytes =>
    if id ∈ s.ring ∨ id ∈ s.elsewhere then
      some { s with memory := { s.memory with
        storage := Function.update s.memory.storage id bytes } }
    else none
  | .receiving bytes =>
    if s.conn.useMultishot o = false ∧ s.conn.recvArmed then
      some { s with memory := { s.memory with readBuffer := bytes } }
    else none

/-- A new connection; each id of the pool is in the ring or elsewhere, once. -/
structure Initial (o : Options) (s : Stream) : Prop where
  conn : ∃ file mode buffer, s.conn = Connection.fresh file mode buffer
  pool : (s.ring ++ s.elsewhere).Nodup
  ids : ∀ id ∈ s.ring ++ s.elsewhere, id.toNat < o.recvBufferCount
  ready : s.ready = []
  deliveries : s.deliveries = []
  returned : s.returned = []
  released : s.released = []

/-- All sequences of reads and completions of one stream. -/
def streamSystem (o : Options) : System Stream Action where
  init := Initial o
  step := step o

end Stream

end Bycorf.Net
