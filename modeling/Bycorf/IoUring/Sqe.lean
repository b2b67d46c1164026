/-
  Submission queue entries: what the backend writes into an SQE for each kind of request.

  1. **Tags** — `user_data` is a machine word that the source splits by address: four sentinels, a
     `Connection*` with its two low bits set to 1 or 2, and otherwise an `IoCompletion*`.  Here it
     is the inductive `UserData`; a completion object is any value of the type `T`.
  2. **liburing** — its `io_uring_prep_*` functions are not part of the repository.  They are the
     parameter `Liburing`: the functions, with the documented facts the backend relies on.
  3. **Requests** — `prepare` is the preparation callback of each `Submit*` function, as a function
     on the slot it is given.  The crux is `prepare_reset`: what it writes does not depend on what
     the slot held before, so a descriptor built in a zeroed SQE equals one built in the ring.
-/
import Mathlib.Logic.Basic
import Bycorf.Base.Status

namespace Bycorf.IoUring

/-! ## Words and tags -/

/-- A `Connection*`, identified by the `id_` of the connection it points to. -/
abbrev ConnPtr := Nat

/-- The `user_data` of an SQE or CQE. -/
inductive UserData (T : Type) where
  | null
  | wakePoll              -- `&kWakePollTag`
  | crossCoreWake         -- `&kCrossCoreWakeTag`
  | peerDisconnectCancel  -- `&kPeerDisconnectCancelTag`
  | cancelRequest         -- `&kCancelRequestTag`
  | recv (connection : ConnPtr)            -- `EncodeMultishotData`
  | peerDisconnect (connection : ConnPtr)  -- `EncodePeerDisconnectData`
  | completion (tag : T)                   -- an `IoCompletion*`
deriving DecidableEq, Repr

/-- An `IoCompletion*` used as a tag; it may be null. -/
def UserData.ofTag {T : Type} : Option T → UserData T
  | none => .null
  | some tag => .completion tag

/-- A 64-bit SQE word that is either a plain number or address, or a tag. -/
inductive Word (T : Type) where
  | num (n : UInt64)
  | data (d : UserData T)
deriving DecidableEq, Repr

/-- The opcodes that the backend prepares. -/
inductive Opcode where
  | nop | readFixed | writeFixed | fsync | pollAdd | sendmsg | timeout | accept | asyncCancel
  | connect | openat | close | read | write | send | recv | msgRing
deriving DecidableEq, Repr

/-- `io_uring_sqe`, with the two `IOSQE_*` flag bits the backend uses. -/
structure Sqe (T : Type) where
  opcode : Opcode
  fixedFile : Bool     -- `IOSQE_FIXED_FILE`
  bufferSelect : Bool  -- `IOSQE_BUFFER_SELECT`
  ioprio : UInt16
  fd : Int
  off : Word T
  addr : Word T
  len : UInt32
  opFlags : UInt32
  userData : UserData T
  bufGroup : UInt16
  fileIndex : UInt32
deriving DecidableEq, Repr

/-- `io_uring_sqe sqe{}`. -/
def Sqe.zero {T : Type} : Sqe T :=
  ⟨.nop, false, false, 0, 0, .num 0, .num 0, 0, 0, .null, 0, 0⟩

/-- `io_uring_sqe_set_data`. -/
def Sqe.setData {T : Type} (sqe : Sqe T) (data : UserData T) : Sqe T :=
  { sqe with userData := data }

/-! ## liburing -/

/-- A call of one of the `io_uring_prep_*` functions, with its arguments. -/
inductive Prep (T : Type) where
  | nop
  | openatDirect (dfd : Int) (path : UInt64) (flags mode fileIndex : UInt32)
  | closeDirect (fileIndex : UInt32)
  | readFixed (fd : Int) (buf : UInt64) (nbytes : UInt32) (offset : UInt64) (bufIndex : UInt16)
  | read (fd : Int) (buf : UInt64) (nbytes : UInt32) (offset : UInt64)
  | write (fd : Int) (buf : UInt64) (nbytes : UInt32) (offset : UInt64)
  | writeFixed (fd : Int) (buf : UInt64) (nbytes : UInt32) (offset : UInt64) (bufIndex : UInt16)
  | fsync (fd : Int) (flags : UInt32)
  | timeout (ts : UInt64) (count flags : UInt32)
  | cancel (target : UserData T) (flags : UInt32)
  | pollAdd (fd : Int) (mask : UInt32)
  | send (fd : Int) (buf : UInt64) (len flags : UInt32)
  | sendmsg (fd : Int) (message : UInt64) (flags : UInt32)
  | multishotAccept (fd : Int) (address length : UInt64) (flags : UInt32)
  | connect (fd : Int) (address : UInt64) (length : UInt32)
  | recvMultishot (fd : Int) (buf : UInt64) (len flags : UInt32)
  | recv (fd : Int) (buf : UInt64) (len flags : UInt32)
  | msgRing (fd : Int) (len : UInt32) (data : UserData T) (flags : UInt32)
deriving DecidableEq, Repr

/-- The opcode a preparation function is for. -/
def Prep.opcode {T : Type} : Prep T → Opcode
  | .nop => .nop
  | .openatDirect .. => .openat
  | .closeDirect .. => .close
  | .readFixed .. => .readFixed
  | .read .. => .read
  | .write .. => .write
  | .writeFixed .. => .writeFixed
  | .fsync .. => .fsync
  | .timeout .. => .timeout
  | .cancel .. => .asyncCancel
  | .pollAdd .. => .pollAdd
  | .send .. => .send
  | .sendmsg .. => .sendmsg
  | .multishotAccept .. => .accept
  | .connect .. => .connect
  | .recvMultishot .. => .recv
  | .recv .. => .recv
  | .msgRing .. => .msgRing

/-- The descriptor argument; functions without one write `-1` (a direct close writes `0`). -/
def Prep.fd {T : Type} : Prep T → Int
  | .nop | .timeout .. | .cancel .. => -1
  | .closeDirect .. => 0
  | .openatDirect fd .. | .readFixed fd .. | .read fd .. | .write fd .. | .writeFixed fd ..
  | .fsync fd .. | .pollAdd fd .. | .send fd .. | .sendmsg fd .. | .multishotAccept fd ..
  | .connect fd .. | .recvMultishot fd .. | .recv fd .. | .msgRing fd .. => fd

/-- **liburing, as a parameter.**  `reset` is what `io_uring_get_sqe` does to the slot it hands
    out, `prep` the preparation functions; the fields after them are their documented effects. -/
structure Liburing (T : Type) where
  reset : Sqe T → Sqe T
  prep : Prep T → Sqe T → Sqe T
  /-- A preparation function writes its own opcode. -/
  opcode_prep : ∀ p slot, (prep p slot).opcode = p.opcode
  /-- It writes the descriptor it was given. -/
  fd_prep : ∀ p slot, (prep p slot).fd = p.fd
  /-- `io_uring_prep_cancel` puts the target's `user_data` into `addr`. -/
  cancel_addr : ∀ target flags slot, (prep (.cancel target flags) slot).addr = .data target
  /-- It sets no `IOSQE_*` flag of its own. -/
  flags_prep : ∀ p, (prep p Sqe.zero).fixedFile = false ∧ (prep p Sqe.zero).bufferSelect = false
  /-- In a slot from `io_uring_get_sqe` it writes what it writes in a zeroed SQE: every field but
      `user_data` is reset or overwritten. -/
  prep_reset : ∀ p slot, ∃ data, prep p (reset slot) = (prep p Sqe.zero).setData data

attribute [simp] Liburing.opcode_prep Liburing.fd_prep Liburing.cancel_addr

/-! ### The assumptions hold of an actual liburing -/

/-- `io_uring_prep_rw`, which every preparation function starts with. -/
def prepRw {T : Type} (opcode : Opcode) (fd : Int) (addr : Word T) (len : UInt32) (off : Word T)
    (opFlags : UInt32) (slot : Sqe T) : Sqe T :=
  { slot with opcode := opcode, fd := fd, addr := addr, len := len, off := off, opFlags := opFlags }

/-- The preparation functions, as liburing writes them over `io_uring_prep_rw`. -/
def Prep.apply {T : Type} : Prep T → Sqe T → Sqe T
  | .nop => prepRw .nop (-1) (.num 0) 0 (.num 0) 0
  | .openatDirect dfd path flags mode fileIndex => fun slot =>
    { prepRw .openat dfd (.num path) mode (.num 0) flags slot with fileIndex := fileIndex + 1 }
  | .closeDirect fileIndex => fun slot =>
    { prepRw .close 0 (.num 0) 0 (.num 0) 0 slot with fileIndex := fileIndex + 1 }
  | .readFixed fd buf nbytes offset bufIndex => fun slot =>
    { prepRw .readFixed fd (.num buf) nbytes (.num offset) 0 slot with bufGroup := bufIndex }
  | .read fd buf nbytes offset => prepRw .read fd (.num buf) nbytes (.num offset) 0
  | .write fd buf nbytes offset => prepRw .write fd (.num buf) nbytes (.num offset) 0
  | .writeFixed fd buf nbytes offset bufIndex => fun slot =>
    { prepRw .writeFixed fd (.num buf) nbytes (.num offset) 0 slot with bufGroup := bufIndex }
  | .fsync fd flags => prepRw .fsync fd (.num 0) 0 (.num 0) flags
  | .timeout ts count flags => prepRw .timeout (-1) (.num ts) 1 (.num count.toUInt64) flags
  | .cancel target flags => prepRw .asyncCancel (-1) (.data target) 0 (.num 0) flags
  | .pollAdd fd mask => prepRw .pollAdd fd (.num 0) 0 (.num 0) mask
  | .send fd buf len flags => prepRw .send fd (.num buf) len (.num 0) flags
  | .sendmsg fd message flags => prepRw .sendmsg fd (.num message) 1 (.num 0) flags
  | .multishotAccept fd address length flags => fun slot =>
    { prepRw .accept fd (.num address) 0 (.num length) flags slot with ioprio := slot.ioprio ||| 1 }
  | .connect fd address length => prepRw .connect fd (.num address) 0 (.num length.toUInt64) 0
  | .recvMultishot fd buf len flags => fun slot =>
    { prepRw .recv fd (.num buf) len (.num 0) flags slot with ioprio := slot.ioprio ||| 2 }
  | .recv fd buf len flags => prepRw .recv fd (.num buf) len (.num 0) flags
  | .msgRing fd len data flags => prepRw .msgRing fd (.num 0) len (.data data) flags

/-- liburing with `io_uring_initialize_sqe` in `io_uring_get_sqe`. -/
def Liburing.standard (T : Type) : Liburing T where
  reset slot :=
    { slot with
      fixedFile := false, bufferSelect := false, ioprio := 0, opFlags := 0, bufGroup := 0
      fileIndex := 0 }
  prep := Prep.apply
  opcode_prep p slot := by cases p <;> rfl
  fd_prep p slot := by cases p <;> rfl
  cancel_addr target flags slot := rfl
  flags_prep p := by cases p <;> exact ⟨rfl, rfl⟩
  prep_reset p slot := by cases p <;> exact ⟨slot.userData, rfl⟩

/-! ## Requests -/

/-- `RegisteredFile`: a raw descriptor, or an index of the fixed-file table. -/
structure RegisteredFile where
  fd : Int
  fixedIndex : UInt32
  isFixed : Bool
deriving DecidableEq, Repr

/-- `file.is_fixed_ ? static_cast<int>(file.fixed_index_) : file.fd_`. -/
def RegisteredFile.target (file : RegisteredFile) : Int :=
  if file.isFixed then file.fixedIndex.toNat else file.fd

/-- A `std::span<std::byte>` (or a path): address and size. -/
structure Span where
  data : UInt64
  size : Nat
deriving DecidableEq, Repr

/-- A registered buffer. -/
structure FixedBuffer where
  data : UInt64
  size : Nat
  index : UInt16
deriving DecidableEq, Repr

/-- What the public functions hand to `SubmitOrQueue`: one constructor for each preparation
    callback.  A `FixedFile` is its index. -/
inductive Request (T : Type) where
  | openDirect (path : Span) (flags mode file : UInt32) (tag : Option T)
  | closeDirect (file : UInt32) (tag : Option T)
  | readFixed (file : UInt32) (buffer : FixedBuffer) (offset : UInt64) (tag : Option T)
  | read (file : UInt32) (buffer : Span) (offset : UInt64) (tag : Option T)
  | write (file : UInt32) (buffer : Span) (offset : UInt64) (tag : Option T)
  | writeFixed (file : UInt32) (buffer : FixedBuffer) (offset : UInt64) (tag : Option T)
  | fdatasync (file : UInt32) (tag : Option T)
  | timeout (ts : UInt64) (tag : Option T)
  | wakePoll (fd : Int)
  | send (file : RegisteredFile) (buffer : Span) (tag : Option T)
  | sendMsg (file : RegisteredFile) (message : UInt64) (tag : Option T)
  | acceptMultishot (listenFd : Int) (tag : Option T)
  | connect (fd : Int) (address : UInt64) (length : UInt32) (tag : Option T)
  | recv (connection : ConnPtr) (file : RegisteredFile) (useMultishot : Bool) (buffer : Span)
  | peerDisconnectPoll (connection : ConnPtr) (file : RegisteredFile)
  | poll (fd : Int) (events : UInt32) (tag : Option T)
  | wakeRemote (peerRingFd : Int)
deriving DecidableEq, Repr

/-- Everything `SubmitOrQueue` is called with: a request, or the cancel of `CancelByData`. -/
inductive Submission (T : Type) where
  | request (r : Request T)
  | cancel (target completion : UserData T)
deriving DecidableEq, Repr

/-- The constants of the system headers that the callbacks pass on. -/
def atFdcwd : Int := -100                    -- `AT_FDCWD`
def fsyncDatasync : UInt32 := 1              -- `IORING_FSYNC_DATASYNC`
def pollIn : UInt32 := 0x001                 -- `POLLIN`
def pollErr : UInt32 := 0x008                -- `POLLERR`
def pollHup : UInt32 := 0x010                -- `POLLHUP`
def pollRdHup : UInt32 := 0x2000             -- `POLLRDHUP`
def sockNonblockCloexec : UInt32 := 0x80800  -- `SOCK_NONBLOCK | SOCK_CLOEXEC`
def recvsendPollFirst : UInt16 := 1          -- `IORING_RECVSEND_POLL_FIRST`
def kGroupId : UInt16 := 1                   -- `MultishotBufferRing::kGroupId`

namespace Request

variable {T : Type}

/-- The `io_uring_prep_*` call of the request's callback. -/
def prep : Request T → Prep T
  | openDirect path flags mode file _ => .openatDirect atFdcwd path.data flags mode file
  | closeDirect file _ => .closeDirect file
  | readFixed file buffer offset _ =>
    .readFixed file.toNat buffer.data (UInt32.ofNat buffer.size) offset buffer.index
  | read file buffer offset _ => .read file.toNat buffer.data (UInt32.ofNat buffer.size) offset
  | write file buffer offset _ => .write file.toNat buffer.data (UInt32.ofNat buffer.size) offset
  | writeFixed file buffer offset _ =>
    .writeFixed file.toNat buffer.data (UInt32.ofNat buffer.size) offset buffer.index
  | fdatasync file _ => .fsync file.toNat fsyncDatasync
  | timeout ts _ => .timeout ts 0 0
  | wakePoll fd => .pollAdd fd pollIn
  | send file buffer _ => .send file.target buffer.data (UInt32.ofNat buffer.size) 0
  | sendMsg file message _ => .sendmsg file.target message 0
  | acceptMultishot listenFd _ => .multishotAccept listenFd 0 0 sockNonblockCloexec
  | connect fd address length _ => .connect fd address length
  | recv _ file useMultishot buffer =>
    if useMultishot then .recvMultishot file.target 0 0 0
    else .recv file.target buffer.data (UInt32.ofNat buffer.size) 0
  | peerDisconnectPoll _ file => .pollAdd file.target (pollErr ||| pollHup ||| pollRdHup)
  | poll fd events _ => .pollAdd fd events
  | wakeRemote peerRingFd => .msgRing peerRingFd 0 .crossCoreWake 0

/-- Whether the callback sets `IOSQE_FIXED_FILE`. -/
def fixedFile : Request T → Bool
  | readFixed .. | read .. | write .. | writeFixed .. | fdatasync .. => true
  | send file .. | sendMsg file .. | recv _ file .. | peerDisconnectPoll _ file => file.isFixed
  | _ => false

/-- Whether the callback asks for a provided buffer. -/
def bufferSelect : Request T → Bool
  | recv _ _ useMultishot _ => useMultishot
  | _ => false

/-- The tag the callback stores. -/
def userData : Request T → UserData T
  | openDirect _ _ _ _ tag | closeDirect _ tag | readFixed _ _ _ tag | read _ _ _ tag
  | write _ _ _ tag | writeFixed _ _ _ tag | fdatasync _ tag | timeout _ tag | send _ _ tag
  | sendMsg _ _ tag | acceptMultishot _ tag | connect _ _ _ tag | poll _ _ tag => .ofTag tag
  | wakePoll _ => .wakePoll
  | recv connection .. => .recv connection
  | peerDisconnectPoll connection _ => .peerDisconnect connection
  | wakeRemote _ => .crossCoreWake

/-- What the callback does to the slot between the `prep` call and `io_uring_sqe_set_data`. -/
def adjust (r : Request T) (sqe : Sqe T) : Sqe T :=
  let sqe := { sqe with
    fixedFile := sqe.fixedFile || r.fixedFile
    bufferSelect := sqe.bufferSelect || r.bufferSelect }
  match r with
  | recv _ _ useMultishot _ =>
    { sqe with
      bufGroup := if useMultishot then kGroupId else sqe.bufGroup
      ioprio := sqe.ioprio ||| recvsendPollFirst }
  | _ => sqe

section

variable (r : Request T)

/-- No request is prepared as a `NOP` or as a cancel. -/
theorem prep_opcode_ne : r.prep.opcode ≠ .nop ∧ r.prep.opcode ≠ .asyncCancel := by
  cases r with
  | recv c f useMultishot b => cases useMultishot <;> simp [prep, Prep.opcode]
  | _ => simp [prep, Prep.opcode]

section

variable (sqe : Sqe T)

@[simp] theorem opcode_adjust : (r.adjust sqe).opcode = sqe.opcode := by
  cases r <;> rfl

@[simp] theorem fd_adjust : (r.adjust sqe).fd = sqe.fd := by
  cases r <;> rfl

@[simp] theorem fixedFile_adjust : (r.adjust sqe).fixedFile = (sqe.fixedFile || r.fixedFile) := by
  cases r <;> rfl

@[simp] theorem bufferSelect_adjust :
    (r.adjust sqe).bufferSelect = (sqe.bufferSelect || r.bufferSelect) := by
  cases r <;> rfl

/-- The adjustments neither read nor write the tag. -/
theorem adjust_setData (data : UserData T) :
    r.adjust (sqe.setData data) = (r.adjust sqe).setData data := by
  cases r <;> rfl

end

end

end Request

/-! ## Preparation -/

section Prepare

variable {T : Type} (L : Liburing T)

/-- The tag under which a submission completes. -/
def Submission.userData : Submission T → UserData T
  | .request r => r.userData
  | .cancel _ completion => completion

/-- The preparation callback: what is written into the slot. -/
def prepare : Submission T → Sqe T → Sqe T
  | .request r, slot => (r.adjust (L.prep r.prep slot)).setData r.userData
  | .cancel target completion, slot => (L.prep (.cancel target 0) slot).setData completion

section

variable (sub : Submission T) (slot : Sqe T)

/-- **The crux.**  Preparing in a slot of the ring, whatever it held, gives the descriptor that
    preparing in a zeroed SQE gives. -/
theorem prepare_reset : prepare L sub (L.reset slot) = prepare L sub Sqe.zero := by
  cases sub with
  | request r =>
    obtain ⟨data, h⟩ := L.prep_reset r.prep slot
    simp only [prepare, h, Request.adjust_setData]
    rfl
  | cancel target completion =>
    obtain ⟨data, h⟩ := L.prep_reset (.cancel target 0) slot
    simp only [prepare, h]
    rfl

@[simp] theorem userData_prepare : (prepare L sub slot).userData = sub.userData := by
  cases sub <;> rfl

theorem opcode_prepare_ne_nop : (prepare L sub slot).opcode ≠ .nop := by
  cases sub with
  | request r => simpa [prepare, Sqe.setData] using r.prep_opcode_ne.1
  | cancel target completion => simp [prepare, Sqe.setData, Prep.opcode]

end

/-- Only `CancelByData` prepares an `ASYNC_CANCEL`, and it names its target in `addr`. -/
theorem prepare_asyncCancel {sub : Submission T} {slot : Sqe T}
    (h : (prepare L sub slot).opcode = .asyncCancel) :
    ∃ target completion, sub = .cancel target completion ∧
      (prepare L sub slot).addr = .data target := by
  cases sub with
  | request r =>
    have hop : (prepare L (.request r) slot).opcode = r.prep.opcode := by
      simp [prepare, Sqe.setData]
    exact absurd (hop ▸ h) r.prep_opcode_ne.2
  | cancel target completion =>
    exact ⟨target, completion, rfl, by simp [prepare, Sqe.setData]⟩

end Prepare

end Bycorf.IoUring
