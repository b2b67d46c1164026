/-
  Packet buffers in the DPDK fabric: who holds them, who inputs them, and whom the stack trusts.

  1. **Data** — an `Mbuf` carries its `port` field and its frame.  Its number says which of the
     buffers ever obtained it is, `origin` which received frame it is a copy of, and `nic` whether
     it came from the device; the code has none of the three.
  2. **Program** — every worker runs a STACK of tasks: what its current function, and the functions
     that called it, still have to do with the buffers they hold.  `Input` calls the TCP stack,
     which may call `Transmit` before it returns.  A step says what becomes of the worker's stack,
     of one lane and of the buffers that leave (`Move`).
  3. **Steps** — every worker may take the next step; a ring operation is one step.  Whether a ring
     is full, an allocation or a clone fails, and how many frames a burst moves, is part of the
     label.

  `rte_pktmbuf_clone` copies the `port` field and the frame, and a buffer fresh from the pool has
  the invalid port.  The wake that follows an enqueue is left out: it moves no buffer.
-/
import Bycorf.Dpdk.Steering
import Bycorf.Lib.Holders
import Bycorf.Lib.Transition

namespace Bycorf.Dpdk.Packets

open Lib

/-- `RTE_MBUF_PORT_INVALID`. -/
def portInvalid : Nat := 2 ^ 16 - 1

/-- The longest frame that `Input` gives to the stack. -/
def kMaxFrame : Nat := 1518

/-- The most frames that a burst moves. -/
def kBurst : Nat := 32

/-- A packet buffer; the first three fields are bookkeeping of the model. -/
structure Mbuf where
  id : Nat
  origin : Nat
  nic : Bool
  port : Nat
  frame : List UInt8
deriving DecidableEq, Repr

/-- The two rings of a lane. -/
inductive Ring where
  | rx
  | tx
deriving DecidableEq, Repr

/-- A lane; `open_` until `FreeRing`. -/
structure Lane where
  rx : List Mbuf
  tx : List Mbuf
  open_ : Bool
deriving DecidableEq, Repr

/-- A ring operation that succeeds puts the buffer at the end of its ring. -/
def Lane.push (l : Lane) (p : Mbuf) : Ring → Lane
  | .rx => { l with rx := l.rx ++ [p] }
  | .tx => { l with tx := l.tx ++ [p] }

/-- What a running function still has to do. -/
inductive Task (n : Nat) where
  -- `Packets`: the receive burst, the lane, the TCP stack's timers; then `FlushTx`
  | receive
  | lane
  | bsdPoll
  | flushTx
  -- `FlushTx` with the buffers it took from the ring
  | txBurst (batch : List Mbuf)
  -- `Route`, and its loop over the workers
  | route (p : Mbuf)
  | spread (p : Mbuf) (next : Nat)
  -- `Enqueue`
  | enqueue (ring : Ring) (target : Fin n) (p : Mbuf)
  -- `Input`, before and while the TCP stack has the bytes
  | input (p : Mbuf)
  | inputting (p : Mbuf)
  -- `Transmit` with the buffer it allocated
  | append (p : Mbuf) (source : List UInt8)
deriving DecidableEq, Repr

/-- What does not change while the workers run. -/
structure Config where
  queues : Nat
  port : Nat
  address : List UInt8

/-- The stack of every worker and the lanes; then the buffers the device accepted and those freed,
    how many were obtained, what was handed to the TCP stack (with the worker, and whether through
    `bycorf_bsd_local_input`), and the broadcast frames with the worker that received them. -/
structure Net (n : Nat) where
  tasks : Fin n → List (Task n)
  lanes : Fin n → Lane
  sent : List Nat
  freed : List Nat
  obtained : Nat
  inputs : List (Fin n × Mbuf × Bool)
  broadcasts : List (Fin n × Nat)

/-- What the device, the pool, the application and the tables decide. -/
inductive Choice where
  | packets
  | submit
  | receive (arrived : List (Nat × List UInt8))
  | lane
  | bsdDone
  | flushTx
  | txBurst (count : Nat)
  | route (tables : Tables)
  | clone (ok : Bool)
  | enqueue (full : Bool)
  | input
  | inputDone
  | transmit (source : List UInt8) (alloc : Bool)
  | append (ok : Bool) (tables : Tables)
  | freeRings (lane : Nat)

/-- The effect of a step: the worker's new stack, one lane, and what leaves or is recorded. -/
structure Move (n : Nat) where
  stack : List (Task n)
  target : Fin n
  lane : Lane
  sent : List Nat := []
  freed : List Nat := []
  obtained : Nat := 0
  input : Option (Mbuf × Bool) := none
  broadcast : Option Nat := none

namespace Net

variable {n : Nat}

/-- A step of worker `w` takes effect. -/
def apply (w : Fin n) (m : Move n) (s : Net n) : Net n where
  tasks := Function.update s.tasks w m.stack
  lanes := Function.update s.lanes m.target m.lane
  sent := s.sent ++ m.sent
  freed := s.freed ++ m.freed
  obtained := s.obtained + m.obtained
  inputs := s.inputs ++ (m.input.map fun x => (w, x)).toList
  broadcasts := s.broadcasts ++ (m.broadcast.map fun o => (w, o)).toList

/-- The lanes stay as they are. -/
def keep (w : Fin n) (stack : List (Task n)) (s : Net n) : Move n :=
  ⟨stack, w, s.lanes w, [], [], 0, none, none⟩

/-- `rte_pktmbuf_free`. -/
def free (w : Fin n) (stack : List (Task n)) (p : Mbuf) (s : Net n) : Move n :=
  { s.keep w stack with freed := [p.id] }

/-- The buffers of a receive burst. -/
def arrivals (first : Nat) : List (Nat × List UInt8) → List Mbuf
  | [] => []
  | (port, frame) :: rest => ⟨first, first, true, port, frame⟩ :: arrivals (first + 1) rest

/-- `Route`, once the frame is read and steered. -/
def steer (w : Fin n) (rest : List (Task n)) (p : Mbuf) (target : Int) (s : Net n) :
    Option (Move n) :=
  if target = -2 then
    some { s.keep w (.spread p 0 :: rest) with broadcast := some p.origin }
  else if target = w.val then some (s.keep w (.input p :: rest))
  else if 0 ≤ target then
    if h : target.toNat < n then some (s.keep w (.enqueue .rx ⟨target.toNat, h⟩ p :: rest))
    else none
  else some (s.free w rest p)

/-- `Route`: the frame is stamped with the port it came from, and goes where the placement rules
    say: to one worker, or as clones to all of them. -/
def route (c : Config) (w : Fin n) (rest : List (Task n)) (p : Mbuf) (t : Tables) (s : Net n) :
    Option (Move n) :=
  -- stamp the origin, whatever the driver left there
  let p := { p with port := c.port }
  if p.frame.length ≤ kMaxFrame then
    (destination t p.frame w.val).bind fun target => s.steer w rest p target
  else some (s.free w rest p)

/-- One round of the loop over the workers in `Route`. -/
def clone (w : Fin n) (rest : List (Task n)) (p : Mbuf) (i : Nat) (ok : Bool) (s : Net n) :
    Move n :=
  if h : i < n then
    if i = w.val ∨ ok = false then s.keep w (.spread p (i + 1) :: rest)
    else
      { s.keep w (.enqueue .rx ⟨i, h⟩ { p with id := s.obtained } :: .spread p (i + 1) :: rest) with
        obtained := 1 }
  else s.keep w (.input p :: rest)

/-- `Enqueue`: the buffer goes into a ring of the target, or is freed if that is full.  There is no
    step into a ring that `FreeRing` has freed. -/
def enqueue (w : Fin n) (rest : List (Task n)) (ring : Ring) (target : Fin n) (p : Mbuf)
    (full : Bool) (s : Net n) : Option (Move n) :=
  if (s.lanes target).open_ = false then none
  else if full then some (s.free w rest p)
  else some ⟨rest, target, (s.lanes target).push p ring, [], [], 0, none, none⟩

/-- `Input`: a frame that is too long is freed, any other goes to the TCP stack. -/
def input (w : Fin n) (rest : List (Task n)) (p : Mbuf) (s : Net n) : Move n :=
  if p.frame.length ≤ kMaxFrame then
    { s.keep w (.inputting p :: rest) with input := some (p, p.port = portInvalid) }
  else s.free w rest p

/-- An ARP reply, or an ICMP echo reply. -/
def isReply (frame : List UInt8) : Bool :=
  (42 ≤ frame.length && read16 frame 12 = some 0x0806 && read16 frame 20 = some 2) ||
    (35 ≤ frame.length && read16 frame 12 = some 0x0800 && frame[23]? = some 1 &&
      frame[34]? = some 0)

/-- An IPv4 frame to the interface's own address. -/
def isLocal (c : Config) (frame : List UInt8) : Bool :=
  34 ≤ frame.length && read16 frame 12 = some 0x0800 && destinationAddress frame = c.address

/-- `Transmit` from `rte_pktmbuf_append` on. -/
def append (c : Config) (w : Fin n) (rest : List (Task n)) (p : Mbuf) (source : List UInt8)
    (ok : Bool) (t : Tables) (s : Net n) : Option (Move n) :=
  if ok = false then some (s.free w rest p)
  else
    let p := { p with frame := source }
    if w.val ≠ 0 ∧ isReply source then some (s.free w rest p)
    else if isLocal c source then
      (destination t source w.val).bind fun target =>
        if target < 0 then some (s.free w rest p)
        else if h : target.toNat < n then
          some (s.keep w (.enqueue .rx ⟨target.toNat, h⟩ { p with port := portInvalid } :: rest))
        else none
    else if h : w.val % c.queues < n then
      some (s.keep w (.enqueue .tx ⟨w.val % c.queues, h⟩ p :: rest))
    else none

/-- The TCP stack runs: the application called it, or `Input`, or its timers. -/
def transmits : List (Task n) → Bool
  | [] | .inputting _ :: _ | .bsdPoll :: _ => true
  | _ => false

/-- `Transmit` up to the allocation. -/
def transmit (w : Fin n) (source : List UInt8) (alloc : Bool) (s : Net n) : Move n :=
  if kMaxFrame < source.length ∨ alloc = false then s.keep w (s.tasks w)
  else
    { s.keep w (.append ⟨s.obtained, s.obtained, false, portInvalid, []⟩ source :: s.tasks w) with
      obtained := 1 }

/-- One step of worker `w`. -/
def moveOf (c : Config) (s : Net n) (w : Fin n) : Choice → List (Task n) → Option (Move n)
  | .packets, [] => some (s.keep w [.receive, .lane, .bsdPoll, .flushTx])
  | .submit, [] => some (s.keep w [.flushTx])
  | .receive arrived, .receive :: rest =>
    if (w.val < c.queues ∨ arrived = []) ∧ arrived.length ≤ kBurst then
      some { s.keep w ((arrivals s.obtained arrived).map .route ++ rest) with
        obtained := arrived.length }
    else none
  | .lane, .lane :: rest =>
    if (s.lanes w).open_ then
      some ⟨((s.lanes w).rx.take kBurst).map .input ++ rest, w,
        { s.lanes w with rx := (s.lanes w).rx.drop kBurst }, [], [], 0, none, none⟩
    else none
  | .bsdDone, .bsdPoll :: rest => some (s.keep w rest)
  | .flushTx, .flushTx :: rest =>
    if c.queues ≤ w.val then some (s.keep w rest)
    else if (s.lanes w).open_ then
      some ⟨.txBurst ((s.lanes w).tx.take kBurst) :: rest, w,
        { s.lanes w with tx := (s.lanes w).tx.drop kBurst }, [], [], 0, none, none⟩
    else none
  | .txBurst count, .txBurst batch :: rest =>
    -- what the device does not accept is freed
    some { s.keep w rest with
      sent := (batch.take count).map Mbuf.id, freed := (batch.drop count).map Mbuf.id }
  | .route t, .route p :: rest => s.route c w rest p t
  | .clone ok, .spread p i :: rest => some (s.clone w rest p i ok)
  | .enqueue full, .enqueue ring target p :: rest => s.enqueue w rest ring target p full
  | .input, .input p :: rest => some (s.input w rest p)
  | .inputDone, .inputting p :: rest => some (s.free w rest p)
  | .append ok t, .append p source :: rest => s.append c w rest p source ok t
  | .transmit source alloc, stack =>
    if transmits stack then some (s.transmit w source alloc) else none
  | .freeRings t, stack =>
    if h : t < n then
      let lane := s.lanes ⟨t, h⟩
      some ⟨stack, ⟨t, h⟩, ⟨[], [], false⟩, [], (lane.rx ++ lane.tx).map Mbuf.id, 0, none, none⟩
    else none
  | _, _ => none

/-- The next step of a worker, with the choice it meets. -/
def step (c : Config) (s : Net n) (a : Fin n × Choice) : Option (Net n) :=
  (s.moveOf c a.1 a.2 (s.tasks a.1)).map fun m => s.apply a.1 m

end Net

/-- Nothing is held, and every ring is there. -/
structure Initial {n : Nat} (s : Net n) : Prop where
  tasks : ∀ w, s.tasks w = []
  lanes : ∀ w, s.lanes w = ⟨[], [], true⟩
  sent : s.sent = []
  freed : s.freed = []
  obtained : s.obtained = 0
  inputs : s.inputs = []
  broadcasts : s.broadcasts = []

/-- All interleavings of the steps of the workers. -/
def packetSystem (n : Nat) (c : Config) : System (Net n) (Fin n × Choice) where
  init := Initial
  step := Net.step c

end Bycorf.Dpdk.Packets
