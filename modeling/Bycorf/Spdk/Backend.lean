/-
  `SpdkBackend`: one worker's requests to its NVMe controllers, and the polling that completes them.

  1. **Data** — the fixed files, one channel for each controller with its queue pair and its queue
     of deferred requests, the synthetic completions, and the counters.  What the NVMe driver holds
     is `inFlight`: the commands it has accepted and not called back.
  2. **Submissions** — `submitOpenDirect`, `submitCloseDirect`, `submitIo` (all four reads and
     writes) and `submitFdatasync` are functions: the answer, and the state.  None of them
     completes anything.
  3. **Polling** — `Poll` and `RetryDeferred` are program points (`Pc`), cut at every place where
     they run a callback of the caller.  In such a place (`Pc.callsBack`), and while nobody polls,
     the caller may submit.
  4. **Environment** — a label carries what the driver answers: whether a queue pair can be had, the
     result of a command, whether the queue pair has other requests, what `process_completions`
     returns.  A negative error is an errno.

  Identities of accepted operations and of queue pairs are bookkeeping, as are the logs.  A null
  tag or buffer, an unknown path and a path without `O_RDWR` are refused before anything is
  touched; a use of a channel that is not there would leave the model without a step.
  `channel_generation_` counts up without wrapping.
-/
import Bycorf.Lib.Transition
import Bycorf.Spdk.Polling

namespace Bycorf.Spdk

open Lib

/-! ## Data -/

/-- `SpdkDevice`: a namespace of a controller. -/
structure Device where
  controller : Nat
  sectorShift : Nat
  sizeBytes : Nat
deriving DecidableEq, Repr

/-- What does not change: the devices, `vwc.present` of the controllers, and `files_.size()`. -/
structure Hardware where
  device : Nat → Device
  volatileCache : Nat → Bool
  fileCount : Nat

/-- The commands of a namespace. -/
inductive Operation where
  | read
  | write
  | flush
deriving DecidableEq, Repr

/-- What a caller asked for: bytes of a device, or a flush, which has no bytes.  Bookkeeping of the
    model: the backend keeps only the sectors that it computes from it. -/
structure Transfer where
  device : Nat
  operation : Operation
  buffer : Nat
  offset : Nat
  bytes : Nat
deriving DecidableEq, Repr

/-- An operation without a transfer. -/
def Transfer.nothing : Transfer := ⟨0, .flush, 0, 0, 0⟩

/-- A request that waits in a channel, or the one that is being submitted. -/
structure PendingIo where
  id : Nat                         -- bookkeeping of the model
  tag : Nat
  buffer : Nat
  lba : Nat
  count : Nat
  file : Nat
  operation : Operation
  asked : Transfer                 -- bookkeeping of the model
deriving DecidableEq, Repr

/-- A registered file: its namespace, its queue pair and the channel it shares. -/
structure OpenFile where
  device : Nat
  qpair : Nat
  channelIndex : Nat
deriving DecidableEq, Repr

/-- `ControllerChannel` without its queue. -/
structure Entry where
  controller : Nat
  qpair : Nat
  openFiles : Nat
deriving DecidableEq, Repr

/-- A channel: an entry of the table with the requests that wait for its queue pair. -/
structure Channel extends Entry where
  pending : List PendingIo
deriving DecidableEq, Repr

/-- An entry of `pending_completions_`. -/
structure Synthetic where
  id : Nat                         -- bookkeeping of the model
  tag : Nat
  result : Int
deriving DecidableEq, Repr

/-- A command that `TrySubmit` gave to the driver and that it accepted: the operation, the buffer
    and the sectors of the request, for a namespace and on a queue pair, with the tag for the
    callback. -/
structure Command where
  ns : Nat
  qpair : Nat
  request : PendingIo
deriving DecidableEq, Repr

def Command.id (c : Command) : Nat := c.request.id

def Command.tag (c : Command) : Nat := c.request.tag

/-- What `spdk_nvme_ns_cmd_*` returns. -/
inductive Submission where
  | ok
  | noMemory                       -- `-ENOMEM`
  | failed (errno : Nat) (pos : 0 < errno)
deriving DecidableEq, Repr

/-- The result of a request whose command was not accepted. -/
def Submission.result : Submission → Int
  | .ok => 0
  | .noMemory => -12
  | .failed errno _ => -errno

/-- The variables of `Poll` in its loop. -/
structure Pass where
  maxCompletions : Nat
  completions : Nat
  visited : Nat
  channelCount : Nat
  generation : Nat
  firstChannel : Nat
deriving DecidableEq, Repr

/-- The channel of the current round. -/
def Pass.index (p : Pass) : Nat := (p.firstChannel + p.visited) % p.channelCount

/-- Where `Poll` is. -/
inductive Pc where
  | idle
  | synthetic (maxCompletions : Nat) (rest : List Synthetic) (size : Nat)
  | loop (p : Pass)                                             -- the head of the loop
  | processing (p : Pass) (index qpair : Nat)                   -- in `process_completions`
  | retry (p : Pass) (index generation submitted : Nat)   -- the head of the loop of `RetryDeferred`
  | failing (p : Pass) (index generation submitted : Nat)       -- in the callback of an error
deriving DecidableEq, Repr

/-- The caller's code runs: outside of `Poll`, or in a callback. -/
def Pc.callsBack : Pc → Bool
  | .idle | .synthetic .. | .processing .. | .failing .. => true
  | .loop _ | .retry .. => false

/-- The synthetic completions that `Poll` has taken and not delivered. -/
def Pc.taken : Pc → List Synthetic
  | .synthetic _ rest _ => rest
  | _ => []

/-- An index of a channel is used that was computed when the table had the generation `held`. -/
structure Use where
  held : Nat
  generation : Nat
  index : Nat
  size : Nat
deriving DecidableEq, Repr

/-- `SpdkBackend` with the commands that the driver has. -/
structure Backend where
  files : Nat → Option OpenFile
  channels : List Channel
  pendingCompletions : List Synthetic
  outstanding : Nat
  nextPollChannel : Nat
  channelGeneration : Nat
  successResult : Nat → Int        -- of every tag
  inFlight : List Command
  pc : Pc
  nextId : Nat                     -- bookkeeping from here on: accepted operations,
  asked : Nat → Transfer           --   and what an operation was asked to do
  completed : List (Nat × Int)
  nextQpair : Nat                  -- queue pairs that were allocated,
  freed : List Nat                 --   and those given back
  acceptedOn : Nat → List Nat      -- for a queue pair: the requests that the backend accepted,
  submittedOn : Nat → List Nat     --   those that the driver accepted,
  failed : List Nat                --   and those completed with a submission error
  uses : List Use

namespace Backend

/-- The result that an operation should have: its bytes. -/
def expected (s : Backend) (id : Nat) : Int := (s.asked id).bytes

/-- No file is open. -/
def fresh : Backend where
  files _ := none
  channels := []
  pendingCompletions := []
  outstanding := 0
  nextPollChannel := 0
  channelGeneration := 0
  successResult _ := 0
  inFlight := []
  pc := .idle
  nextId := 0
  asked _ := .nothing
  completed := []
  nextQpair := 0
  freed := []
  acceptedOn _ := []
  submittedOn _ := []
  failed := []
  uses := []

/-! ## Submissions -/

/-- `pending_completions_.emplace_back(tag, 0)`. -/
def synthesize (s : Backend) (tag : Nat) : Backend :=
  { s with
    pendingCompletions := s.pendingCompletions ++ [⟨s.nextId, tag, 0⟩]
    nextId := s.nextId + 1
    asked := Function.update s.asked s.nextId .nothing }

def setChannel (s : Backend) (index : Nat) (channel : Channel) : Backend :=
  { s with channels := s.channels.set index channel }

def setFile (s : Backend) (file : Nat) (opened : Option OpenFile) : Backend :=
  { s with files := Function.update s.files file opened }

/-- The file is opened on the channel with this index. -/
def openOn (s : Backend) (file device index : Nat) (channel : Channel) : Backend :=
  (s.setFile file (some ⟨device, channel.qpair, index⟩)).setChannel index
    { channel with openFiles := channel.openFiles + 1 }

/-- `channels_.push_back` with a new queue pair. -/
def pushChannel (s : Backend) (controller : Nat) : Backend :=
  { s with
    channels := s.channels ++ [⟨⟨controller, s.nextQpair, 0⟩, []⟩]
    channelGeneration := s.channelGeneration + 1
    nextQpair := s.nextQpair + 1 }

/-- The file is opened on a new channel. -/
def openNew (s : Backend) (file device controller : Nat) : Backend :=
  (s.pushChannel controller).openOn file device s.channels.length ⟨⟨controller, s.nextQpair, 0⟩, []⟩

/-- `SubmitOpenDirect`; `available`: the driver has a queue pair. -/
def submitOpenDirect (hw : Hardware) (s : Backend) (file device : Nat) (available : Bool)
    (tag : Nat) : Bool × Backend :=
  if hw.fileCount ≤ file then (false, s)
  else if (s.files file).isSome then (false, s)
  else
    let controller := (hw.device device).controller
    match s.channels.findIdx? (fun channel => channel.controller == controller) with
    | some index =>
      match s.channels[index]? with
      | some channel => (true, (s.openOn file device index channel).synthesize tag)
      | none => (false, s)
    | none =>
      if available then (true, (s.openNew file device controller).synthesize tag)
      else (false, s)

/-- `channels_.erase`, with the queue pair given back and the indices behind it corrected. -/
def eraseChannel (s : Backend) (index qpair : Nat) : Backend :=
  let channels := s.channels.eraseIdx index
  { s with
    channels
    freed := s.freed ++ [qpair]
    channelGeneration := s.channelGeneration + 1
    files := fun other => (s.files other).map fun o =>
      if index < o.channelIndex then { o with channelIndex := o.channelIndex - 1 } else o
    nextPollChannel :=
      if channels.isEmpty then 0
      else if channels.length ≤ s.nextPollChannel then s.nextPollChannel % channels.length
      else s.nextPollChannel }

/-- `SubmitCloseDirect`. -/
def submitCloseDirect (s : Backend) (file tag : Nat) : Bool × Backend :=
  match s.files file with
  | none => (false, s)
  | some opened =>
    if s.outstanding ≠ 0 then (false, s)
    else
      match s.channels[opened.channelIndex]? with
      | none => (false, s)
      | some channel =>
        if channel.openFiles - 1 = 0 then
          (true,
            ((s.eraseChannel opened.channelIndex channel.qpair).setFile file none).synthesize tag)
        else
          let channel' := { channel with openFiles := channel.openFiles - 1 }
          (true, ((s.setChannel opened.channelIndex channel').setFile file none).synthesize tag)

/-- A request is accepted: it counts as outstanding. -/
def acceptRequest (s : Backend) (qpair : Nat) (request : PendingIo) : Backend :=
  { s with
    outstanding := s.outstanding + 1
    nextId := s.nextId + 1
    asked := Function.update s.asked s.nextId request.asked
    acceptedOn := Function.update s.acceptedOn qpair (s.acceptedOn qpair ++ [s.nextId]) }

/-- `TrySubmit`, where the driver accepts the command. -/
def issue (s : Backend) (ns qpair : Nat) (request : PendingIo) : Backend :=
  { s with
    inFlight := s.inFlight ++ [⟨ns, qpair, request⟩]
    submittedOn := Function.update s.submittedOn qpair (s.submittedOn qpair ++ [request.id]) }

/-- `QueuePending`; `alloc`: the queue could grow. -/
def queuePending (s : Backend) (request : PendingIo) (index : Nat) (channel : Channel)
    (alloc : Bool) : Bool × Backend :=
  if alloc then
    let channel' := { channel with pending := channel.pending ++ [request] }
    (true, (s.setChannel index channel').acceptRequest channel.qpair request)
  else (false, s)

/-- What the driver answers to one submission, and whether the queue could grow. -/
structure Answer where
  rc : Submission
  busy : Bool                      -- `spdk_nvme_qpair_get_num_outstanding_reqs(qpair) != 0`
  alloc : Bool
deriving DecidableEq, Repr

/-- `SubmitOrDefer`, for a namespace and the channel with this index. -/
def submitOrDefer (s : Backend) (request : PendingIo) (ns index : Nat) (answer : Answer) :
    Bool × Backend :=
  match s.channels[index]? with
  | none => (false, s)
  | some channel =>
    if channel.pending ≠ [] then s.queuePending request index channel answer.alloc
    else
      match answer.rc with
      | .ok => (true, (s.issue ns channel.qpair request).acceptRequest channel.qpair request)
      | .noMemory =>
        if answer.busy then s.queuePending request index channel answer.alloc else (false, s)
      | .failed _ _ => (false, s)

/-- The range and alignment checks of `SubmitIo`. -/
def validRange (device : Device) (bytes offset : Nat) : Prop :=
  bytes ≤ 2147483647 ∧ (offset ||| bytes) &&& (2 ^ device.sectorShift - 1) = 0 ∧
    bytes >>> device.sectorShift ≤ 4294967295 ∧ offset ≤ device.sizeBytes ∧
    bytes ≤ device.sizeBytes - offset

instance (device : Device) (bytes offset : Nat) : Decidable (validRange device bytes offset) :=
  inferInstanceAs (Decidable (_ ∧ _))

/-- The request of an operation: the first sector, and their number as a `uint32_t`. -/
def pendingIo (hw : Hardware) (id tag file : Nat) (asked : Transfer) : PendingIo :=
  let shift := (hw.device asked.device).sectorShift
  ⟨id, tag, asked.buffer, asked.offset >>> shift, (asked.bytes >>> shift) % 2 ^ 32, file,
    asked.operation, asked⟩

/-- `static_cast<int>`. -/
def toInt (bytes : Nat) : Int := Int.bmod bytes (2 ^ 32)

/-- `SubmitIo`. -/
def submitIo (hw : Hardware) (s : Backend) (file buffer bytes offset : Nat) (write : Bool)
    (tag : Nat) (answer : Answer) : Bool × Backend :=
  match s.files file with
  | none => (false, s)
  | some opened =>
    if bytes ≠ 0 ∧ validRange (hw.device opened.device) bytes offset then
      let asked : Transfer :=
        ⟨opened.device, if write then .write else .read, buffer, offset, bytes⟩
      { s with successResult := Function.update s.successResult tag (toInt bytes) }.submitOrDefer
        (pendingIo hw s.nextId tag file asked) opened.device opened.channelIndex answer
    else (false, s)

/-- `SubmitFdatasync`. -/
def submitFdatasync (hw : Hardware) (s : Backend) (file tag : Nat) (answer : Answer) :
    Bool × Backend :=
  match s.files file with
  | none => (false, s)
  | some opened =>
    let s' := { s with successResult := Function.update s.successResult tag 0 }
    if hw.volatileCache (hw.device opened.device).controller then
      s'.submitOrDefer ⟨s.nextId, tag, 0, 0, 0, file, .flush, ⟨opened.device, .flush, 0, 0, 0⟩⟩
        opened.device opened.channelIndex answer
    else (true, s'.synthesize tag)

/-! ## Polling -/

/-- `Poll` begins. -/
def beginPoll (s : Backend) (maxCompletions : Nat) : Backend :=
  { s with
    pc := .synthetic maxCompletions s.pendingCompletions s.pendingCompletions.length
    pendingCompletions := [] }

/-- The loop begins: `channel_count`, `generation` and `first_channel` are read. -/
def beginLoop (s : Backend) (maxCompletions size : Nat) : Backend :=
  { s with pc := .loop ⟨maxCompletions, count32 size, 0, s.channels.length, s.channelGeneration,
    s.nextPollChannel⟩ }

/-- An index is used that was computed at the generation `held`. -/
def record (s : Backend) (held index : Nat) : Backend :=
  { s with uses := s.uses ++ [⟨held, s.channelGeneration, index, s.channels.length⟩] }

/-- The next round of the loop of `Poll`, or its end if the table has changed. -/
def nextRound (s : Backend) (p : Pass) : Backend :=
  if s.channelGeneration ≠ p.generation then { s with pc := .idle }
  else { s with pc := .loop { p with visited := p.visited + 1 } }

/-- The head of the loop of `Poll`. -/
def visit (s : Backend) (p : Pass) : Option Backend :=
  if p.visited < p.channelCount then
    if exhausted p.maxCompletions p.completions then
      some { s with nextPollChannel := p.index, pc := .idle }
    else
      match s.channels[p.index]? with
      | none => none
      | some channel =>
        some { s.record p.generation p.index with
          nextPollChannel := (p.index + 1) % p.channelCount
          pc := .processing p p.index channel.qpair }
  else some { s with pc := .idle }

/-- `CompleteRequest`, up to the callback. -/
def complete (s : Backend) (id : Nat) (result : Int) : Backend :=
  { s with outstanding := s.outstanding - 1, completed := s.completed ++ [(id, result)] }

/-- `CompleteAsync`, for a command of the queue pair that is processed. -/
def completeAsync (s : Backend) (qpair position : Nat) (error : Bool) : Option Backend :=
  match s.inFlight[position]? with
  | none => none
  | some command =>
    if command.qpair = qpair then
      some ({ s with inFlight := s.inFlight.eraseIdx position }.complete command.id
        (if error then -5 else s.successResult command.tag))
    else none

/-- `process_completions` has returned. -/
def processed (s : Backend) (p : Pass) (index : Nat) (completed : Int) : Option Backend :=
  let p' := { p with completions := count32 (p.completions + completed.toNat) }
  if s.channelGeneration ≠ p.generation then some { s with pc := .idle }
  else
    match s.channels[index]? with
    | none => none
    | some channel =>
      let s' := s.record p.generation index
      if channel.pending = [] then some (s'.nextRound p')
      else some { s' with pc := .retry p' index s.channelGeneration 0 }

/-- The head of the loop of `RetryDeferred`. -/
def retryDeferred (s : Backend) (p : Pass) (index generation submitted : Nat) (rc : Submission)
    (busy : Bool) : Option Backend :=
  match s.channels[index]? with
  | none => none
  | some channel =>
    let s' := s.record generation index
    match channel.pending with
    | [] => some (s'.nextRound p)
    | request :: rest =>
      if p.maxCompletions ≠ 0 ∧ p.maxCompletions ≤ submitted then some (s'.nextRound p)
      else
        match s.files request.file with
        | none => none
        | some opened =>
          if rc = .noMemory ∧ busy then some (s'.nextRound p)
          else
            let popped := s'.setChannel index { channel with pending := rest }
            if rc = .ok then
              some { popped.issue opened.device channel.qpair request with
                pc := .retry p index generation (submitted + 1) }
            else
              some { popped.complete request.id rc.result with
                failed := s.failed ++ [request.id]
                pc := .failing { p with completions := count32 (p.completions + 1) }
                  index generation submitted }

/-- The callback of an error has returned to `RetryDeferred`. -/
def retryChecked (s : Backend) (p : Pass) (index generation submitted : Nat) : Backend :=
  if s.channelGeneration ≠ generation then s.nextRound p
  else { s with pc := .retry p index generation (submitted + 1) }

end Backend

/-! ## Steps -/

/-- A submission, or the next step of `Poll` with what the driver answers. -/
inductive Label where
  | openFile (file device : Nat) (available : Bool) (tag : Nat)
  | closeFile (file tag : Nat)
  | io (file buffer bytes offset : Nat) (write : Bool) (tag : Nat) (answer : Backend.Answer)
  | flush (file tag : Nat) (answer : Backend.Answer)
  | poll (maxCompletions : Nat)
  | deliver                                    -- the next synthetic completion, or the loop begins
  | visit
  | callback (position : Nat) (error : Bool)   -- the driver completes a command
  | processed (completed : Int)
  | retry (rc : Submission) (busy : Bool)
  | checked
deriving DecidableEq, Repr

namespace Backend

/-- The submissions. -/
def submit (hw : Hardware) (s : Backend) : Label → Option (Bool × Backend)
  | .openFile file device available tag => some (s.submitOpenDirect hw file device available tag)
  | .closeFile file tag => some (s.submitCloseDirect file tag)
  | .io file buffer bytes offset write tag answer =>
    some (s.submitIo hw file buffer bytes offset write tag answer)
  | .flush file tag answer => some (s.submitFdatasync hw file tag answer)
  | _ => none

/-- A step of `Poll`. -/
def advance (s : Backend) : Label → Option Backend
  | .poll maxCompletions =>
    match s.pc with
    | .idle => some (s.beginPoll maxCompletions)
    | _ => none
  | .deliver =>
    match s.pc with
    | .synthetic maxCompletions [] size => some (s.beginLoop maxCompletions size)
    | .synthetic maxCompletions (entry :: rest) size =>
      some { s with
        completed := s.completed ++ [(entry.id, entry.result)]
        pc := .synthetic maxCompletions rest size }
    | _ => none
  | .visit =>
    match s.pc with
    | .loop p => s.visit p
    | _ => none
  | .callback position error =>
    match s.pc with
    | .processing _ _ qpair => s.completeAsync qpair position error
    | _ => none
  | .processed completed =>
    match s.pc with
    | .processing p index _ => s.processed p index completed
    | _ => none
  | .retry rc busy =>
    match s.pc with
    | .retry p index generation submitted => s.retryDeferred p index generation submitted rc busy
    | _ => none
  | .checked =>
    match s.pc with
    | .failing p index generation submitted => some (s.retryChecked p index generation submitted)
    | _ => none
  | _ => none

/-- One step; a submission needs the caller to run. -/
def step (hw : Hardware) (s : Backend) (label : Label) : Option Backend :=
  match s.submit hw label with
  | some result => if s.pc.callsBack then some result.2 else none
  | none => s.advance label

end Backend

/-- The backend of a worker; the hardware does not change. -/
def backendSystem (hw : Hardware) : System Backend Label where
  init s := s = .fresh
  step := Backend.step hw

end Bycorf.Spdk
