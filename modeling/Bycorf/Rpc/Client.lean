/-
  `RpcClient`: calls, the response reader and the writer of one client connection.

  1. **Frames** — a `Call` that passed its guards owns a `Pending` record until it returns; the map
     `pending_` points at it.  `CallFrame` is that coroutine frame: its record, where it is, and how
     often it was resumed.
  2. **Coroutines** — callers, `ReadLoop` and `WriteLoop` share one thread, so a step is what runs
     between two suspension points.  A caller's registration and its `co_await` are TWO steps: a
     response may be parsed before the caller suspends, and the code has a branch for it.
  3. **Stream** — the client sees the stream through `IsOpen`, through what `ReadSome` and
     `WriteSome` return, and it may close it.  `RpcClient.step` takes the answer of `IsOpen` and
     says whether the step called `Close`; `system` closes this over a stream that anyone may close
     at any time.
  4. **Bookkeeping** — the frames sent in call order, the bytes the socket took, the bytes received
     and the frames parsed from them.  No step reads them.
-/
import Bycorf.Base.Status
import Bycorf.Lib.Transition
import Bycorf.Rpc.Wire

namespace Bycorf.Rpc

open Bycorf.Lib

/-! ## State -/

/-- `RpcClient::Pending`; the handle `waiter_` is set or it is not. -/
structure Pending where
  waiter : Bool
  result : Bytes
  status : Status
  done : Bool
deriving DecidableEq, Repr

/-- The record of a call that was just registered. -/
def Pending.new : Pending := ⟨false, [], Status.okStatus, false⟩

/-- What `Call` returns once its record is done. -/
def Pending.returned (p : Pending) : Except Status Bytes :=
  if p.status.isOk then .ok p.result else .error p.status

/-- The outcome stored in a record, if it has one. -/
def Pending.value (p : Pending) : Option (Except Status Bytes) :=
  if p.done then some p.returned else none

/-- Where a `Call` is that passed its guards. -/
inductive CallStage where
  | registered                    -- in `pending_`, in front of its `co_await`
  | suspended
  | ready                         -- passed to `Enqueue`
  | returned (value : Except Status Bytes)

/-- The frame of a coroutine inside `Call`. -/
structure CallFrame where
  id : UInt64
  pending : Pending
  stage : CallStage
  -- bookkeeping of the model
  resumes : Nat
  since : Nat                     -- the frames parsed before the registration
  orphan : Bool                   -- registered after the reader had finished

/-- `ReadLoop`. -/
inductive Reader where
  | spawned
  | reading                       -- awaiting `ReadSome`
  | finished
deriving DecidableEq, Repr

/-- `WriteLoop`, awaiting `WriteSome` inside `WriteAll(batch)`. -/
inductive Writer where
  | idle
  | spawned
  | writing (batch : Bytes) (written : Nat)
deriving DecidableEq, Repr

/-- `RpcClient`: what is to be written, the calls that wait, the buffer of the reader, and where
    `ReadLoop` and the writer are. -/
structure RpcClient where
  out : List Bytes
  writing : Bool
  pending : List (UInt64 × Nat)   -- `pending_`: the id, and whose frame holds the record
  nextReqId : UInt64
  calls : List CallFrame
  reader : Reader
  buf : Bytes                     -- of `ReadLoop`
  writer : Writer
  -- bookkeeping of the model
  frames : List Bytes
  accepted : Bytes
  writeFailed : Bool
  received : Bytes
  parsed : List (WireHeader × Bytes)

namespace RpcClient

/-- After a successful `Connect`: the reader is spawned. -/
def connected : RpcClient where
  out := []
  writing := false
  pending := []
  nextReqId := 1
  calls := []
  reader := .spawned
  buf := []
  writer := .idle
  frames := []
  accepted := []
  writeFailed := false
  received := []
  parsed := []

/-! ## Call -/

def notConnected : Status := ⟨.failedPrecondition, "rpc client not connected"⟩
def requestTooLarge : Status := ⟨.outOfRange, "rpc request exceeds payload limit"⟩
def connectionClosed : Status := ⟨.unavailable, "rpc connection closed"⟩

/-- `SendFrame`: enqueue, and start the writer unless one is running. -/
def sendFrame (header : WireHeader) (payload : Bytes) (s : RpcClient) : RpcClient :=
  let frame := appendFrame [] header payload
  { s with
    out := s.out ++ [frame]
    frames := s.frames ++ [frame]
    writing := true
    writer := if s.writing then s.writer else .spawned }

/-- The frame of a `Call` that has just taken its id. -/
def newFrame (s : RpcClient) : CallFrame where
  id := s.nextReqId
  pending := Pending.new
  stage := .registered
  resumes := 0
  since := s.parsed.length
  orphan := decide (s.reader = .finished)

/-- `pending_[next_req_id_++] = &pending`. -/
def register (s : RpcClient) : RpcClient :=
  { s with
    nextReqId := s.nextReqId + 1
    pending := (s.nextReqId, s.calls.length) :: s.pending.filter fun e => e.1 ≠ s.nextReqId
    calls := s.calls ++ [s.newFrame] }

/-- `Call` up to its `co_await`, or the error it returns at once. -/
def call (isOpen : Bool) (verb : UInt16) (payload : Bytes) (s : RpcClient) :
    Except Status RpcClient :=
  if isOpen = false then .error notConnected
  else if kMaxPayloadBytes < payload.length then .error requestTooLarge
  else .ok (s.register.sendFrame
    ⟨s.nextReqId, UInt32.ofNat payload.length, verb, kRequest, 0⟩ payload)

/-- A `Call` after its `co_await`. -/
def resumed (c : CallFrame) : CallFrame := { c with stage := .returned c.pending.returned }

/-- The `co_await` of a `Call`: `await_ready`, then `await_suspend`. -/
def awaitPending (c : CallFrame) : CallFrame :=
  if c.pending.done then resumed c
  else { c with stage := .suspended, pending := { c.pending with waiter := true } }

/-! ## ReadLoop -/

/-- Mark a record done and `Enqueue` its waiter, if there is one. -/
def wake (c : CallFrame) : CallFrame :=
  let c := { c with pending := { c.pending with done := true } }
  if c.pending.waiter then { c with stage := .ready, resumes := c.resumes + 1 } else c

/-- A response for the call. -/
def complete (payload : Bytes) (c : CallFrame) : CallFrame :=
  wake { c with pending := { c.pending with result := payload } }

/-- The connection ended under the call. -/
def fail (c : CallFrame) : CallFrame :=
  wake { c with pending := { c.pending with status := connectionClosed } }

/-- One response frame: find the waiter by `req_id`; an unknown id is dropped. -/
def deliver (h : WireHeader) (payload : Bytes) (s : RpcClient) : RpcClient :=
  let s := { s with parsed := s.parsed ++ [(h, payload)] }
  match s.pending.find? fun e => e.1 = h.reqId with
  | some e => { s with
      calls := s.calls.modify e.2 (complete payload)
      pending := s.pending.filter fun e => e.1 ≠ h.reqId }
  | none => s

/-- The header test of `ReadLoop`. -/
def ValidResponse (h : WireHeader) : Prop :=
  h.type = kResponse ∧ h.pad = 0 ∧ h.len.toNat ≤ kMaxPayloadBytes

instance (h : WireHeader) : Decidable (ValidResponse h) :=
  inferInstanceAs (Decidable (_ ∧ _ ∧ _))

/-- The inner `while` of `ReadLoop`, from offset `pos`: the final offset, and whether it closed the
    stream. -/
def parseResponses (buf : Bytes) (pos : Nat) (s : RpcClient) : Nat × Bool × RpcClient :=
  if _hh : kHeader ≤ buf.length - pos then
    let h := decodeHeader (buf.drop pos)
    if ¬ ValidResponse h then (pos, true, s)
    else if buf.length - pos - kHeader < h.len.toNat then (pos, false, s)
    else
      let payload := (buf.drop (pos + kHeader)).take h.len.toNat
      parseResponses buf (pos + kHeader + h.len.toNat) (s.deliver h payload)
  else (pos, false, s)
termination_by buf.length - pos
decreasing_by
  have : kHeader = 16 := rfl
  omega

/-- The end of `ReadLoop`: fail every outstanding call. -/
def finish (s : RpcClient) : RpcClient :=
  { s with
    calls := s.pending.foldl (fun calls e => calls.modify e.2 fail) s.calls
    pending := []
    reader := .finished }

/-- One turn of the outer `while`, up to its `ReadSome`; on a stream that it has just closed, that
    read fails at once. -/
def readTurn (isOpen : Bool) (s : RpcClient) : RpcClient × Bool :=
  if isOpen = false then (s.finish, false)
  else
    let (pos, closes, s) := parseResponses s.buf 0 s
    let s := { s with buf := s.buf.drop pos }
    if closes then (s.finish, true) else ({ s with reader := .reading }, false)

/-- `chunk`. -/
def chunkBytes : Nat := 16384

/-- `ReadSome` returns; an empty read is the peer's end of file. -/
def readResume (isOpen : Bool) (result : Except Status Bytes) (s : RpcClient) : RpcClient × Bool :=
  match result with
  | .error _ => (s.finish, false)
  | .ok [] => (s.finish, false)
  | .ok (b :: bytes) =>
    readTurn isOpen { s with
      buf := s.buf ++ (b :: bytes), received := s.received ++ (b :: bytes) }

/-! ## WriteLoop -/

/-- The head of the loop: take all queued frames in one batch.  `WriteAll` of an empty batch returns
    at once. -/
def writeTurn (s : RpcClient) : RpcClient :=
  let batch := s.out.flatten
  let s := { s with out := [] }
  if batch = [] then { s with writing := false, writer := .idle }
  else { s with writer := .writing batch 0 }

/-- `WriteSome` returns inside `WriteAll`. -/
def writeResume (batch : Bytes) (written : Nat) (result : Except Status Nat) (s : RpcClient) :
    RpcClient :=
  match result with
  | .error _ => { s with writing := false, writer := .idle, writeFailed := true }
  | .ok 0 => { s with writing := false, writer := .idle, writeFailed := true }
  | .ok (n + 1) =>
    let s := { s with accepted := s.accepted ++ (batch.drop written).take (n + 1) }
    if written + (n + 1) < batch.length then { s with writer := .writing batch (written + (n + 1)) }
    else s.writeTurn

/-! ## The system -/

/-- The next step of a call, of the two loops or of the stream. -/
inductive Label where
  | call (verb : UInt16) (payload : Bytes)
  | callSuspend (k : Nat)
  | callResume (k : Nat)
  | readStart
  | readResume (result : Except Status Bytes)
  | writeStart
  | writeResume (result : Except Status Nat)
  | close

/-- A count that an operation may return for a buffer of `size` bytes. -/
def fits (size : Nat) : Except Status Nat → Bool
  | .error _ => true
  | .ok n => decide (n ≤ size)

/-- One step, with the answer of `IsOpen`; the flag says that it called `Close`. -/
def step (isOpen : Bool) (s : RpcClient) : Label → Option (RpcClient × Bool)
  | .call verb payload =>
    match s.call isOpen verb payload with
    | .error _ => some (s, false)
    | .ok s' => some (s', false)
  | .callSuspend k =>
    s.calls[k]?.bind fun c =>
      match c.stage with
      | .registered => some ({ s with calls := s.calls.set k (awaitPending c) }, false)
      | _ => none
  | .callResume k =>
    s.calls[k]?.bind fun c =>
      match c.stage with
      | .ready => some ({ s with calls := s.calls.set k (resumed c) }, false)
      | _ => none
  | .readStart => if s.reader = .spawned then some (s.readTurn isOpen) else none
  | .readResume result =>
    if s.reader = .reading ∧ fits chunkBytes (result.map List.length) then
      some (s.readResume isOpen result)
    else none
  | .writeStart => if s.writer = .spawned then some (s.writeTurn, false) else none
  | .writeResume result =>
    match s.writer with
    | .writing batch written =>
      if fits (batch.length - written) result then
        some (s.writeResume batch written result, false)
      else none
    | _ => none
  | .close => some (s, true)

end RpcClient

/-- A client and whether its stream is open. -/
structure Client where
  rpc : RpcClient
  isOpen : Bool

namespace Client

open RpcClient (Label)

/-- A step of the client; `close` is also the step of whoever else closes the connection (the idle
    timeout, another holder of the stream). -/
def step (s : Client) (a : Label) : Option Client :=
  (s.rpc.step s.isOpen a).map fun (rpc, closes) => ⟨rpc, s.isOpen && !closes⟩

/-- All interleavings on the worker of a connected client. -/
def system : System Client Label where
  init s := s = ⟨RpcClient.connected, true⟩
  step := step

end Client

end Bycorf.Rpc
