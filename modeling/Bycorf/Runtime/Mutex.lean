/-
  `CrossWorkerMutex`: a FIFO mutex of coroutines that live on different workers.

  1. **Program** — every atomic step of `Lock` and `Unlock` is a program point (`Pc`): the turns of
     the spin loop in `LockQueue`, the body under the queue guard, the store in `UnlockQueue`, and
     the `Enqueue` or `PostNotification` behind it.  A coroutine takes them on its worker's thread,
     which runs one coroutine at a time; other workers interleave freely.
  2. **Data** — the waiters are nodes in the suspended frames, linked through `next_`
     (`Lib.IsQueue`).  A node is named by its coroutine, which awaits one lock at a time.
  3. **History** — `arrivals`, `grants` and `resumes` record the order in which waiters were
     queued, were given the mutex, and ran.  The program never reads them.
-/
import Mathlib.Data.List.Basic
import Bycorf.Lib.IntrusiveQueue
import Bycorf.Lib.Transition

namespace Bycorf.Runtime

open Lib

/-! ## The program -/

/-- `CrossWorkerMutex::Waiter`. -/
structure Waiter where
  worker : Nat
  handle : Option Nat
  next : Option Nat
deriving DecidableEq, Repr

/-- A posted `RemoteNotification` of `ResumeRemote`. -/
structure Notification where
  context : Nat
  value : Option Nat
deriving DecidableEq, Repr

/-- Where a coroutine is in the code of the mutex. -/
inductive Pc where
  | outside                        -- neither in the mutex's code nor its owner
  | lockQueue                      -- `AcquireOrQueue`, in `LockQueue`
  | acquireOrQueue                 -- its body, with the guard
  | leaveOwned                     -- its `UnlockQueue` after `held_ = true`
  | leaveQueued                    -- its `UnlockQueue` after queueing the waiter
  | suspending                     -- `await_suspend` returns true
  | suspended
  | resumed                        -- `await_resume`, in `LockQueue`
  | synchronize                    -- `SynchronizeAcquisition`, in `UnlockQueue`
  | owning                         -- between `await_resume` and `~Guard`
  | unlockLockQueue                -- `Unlock`, in `LockQueue`
  | unlock                         -- its body, with the guard
  | leaveFree                      -- its `UnlockQueue` after `held_ = false`
  | leaveHandoff (wake : Nat)      -- its `UnlockQueue` with a waiter taken off the list
  | dispatch (wake : Nat)          -- the guard is free, the waiter is not woken yet
deriving DecidableEq, Repr

/-- The mutex, the waiter nodes, and what the workers hold of its coroutines. -/
structure Mutex where
  queueLock : Bool
  held : Bool
  waitersHead : Option Nat
  waitersTail : Option Nat
  waiters : Nat → Waiter
  pc : Nat → Pc
  running : Nat → Option Nat          -- the coroutine on a worker's thread
  ready : Nat → List Nat              -- a worker's ready queue
  lanes : Nat → List Notification     -- posted to a worker, not delivered yet
  -- bookkeeping of the model
  arrivals : List Nat
  grants : List Nat
  resumes : List (Nat × Nat)          -- who was resumed, and on which worker

/-- A new mutex; the memory the waiters will live in holds anything. -/
def Mutex.fresh (memory : Nat → Waiter) : Mutex where
  queueLock := false
  held := false
  waitersHead := none
  waitersTail := none
  waiters := memory
  pc := fun _ => .outside
  running := fun _ => none
  ready := fun _ => []
  lanes := fun _ => []
  arrivals := []
  grants := []
  resumes := []

/-! ### What a program point stands for -/

/-- Program points between acquiring and releasing. -/
def Pc.owns : Pc → Bool
  | .leaveOwned | .resumed | .synchronize | .owning | .unlockLockQueue | .unlock => true
  | _ => false

/-- The waiter a releaser is about to wake. -/
def Pc.hands : Pc → Option Nat
  | .leaveHandoff wake | .dispatch wake => some wake
  | _ => none

/-- Program points of a queued waiter. -/
def Pc.waits : Pc → Bool
  | .leaveQueued | .suspending | .suspended => true
  | _ => false

/-- Program points with the queue guard. -/
def Pc.guarded : Pc → Bool
  | .acquireOrQueue | .leaveOwned | .leaveQueued | .synchronize | .unlock | .leaveFree
  | .leaveHandoff _ => true
  | _ => false

/-- Program points a coroutine passes on its worker's thread only. -/
def Pc.onThread : Pc → Bool
  | .outside | .suspended | .owning => false
  | _ => true

namespace Mutex

/-! ## Steps -/

def setPc (c : Nat) (p : Pc) (m : Mutex) : Mutex := { m with pc := Function.update m.pc c p }

def setRunning (w : Nat) (c : Option Nat) (m : Mutex) : Mutex :=
  { m with running := Function.update m.running w c }

/-- `Worker::Enqueue`; a null handle is ignored. -/
def enqueue (w : Nat) (handle : Option Nat) (m : Mutex) : Mutex :=
  { m with ready := Function.update m.ready w (m.ready w ++ handle.toList) }

/-- `PostNotification`. -/
def postNotification (w : Nat) (n : Notification) (m : Mutex) : Mutex :=
  { m with lanes := Function.update m.lanes w (m.lanes w ++ [n]) }

/-- One turn of the loop of `LockQueue`. -/
def lockQueue (c : Nat) (next : Pc) (m : Mutex) : Mutex :=
  if m.queueLock then m else { m.setPc c next with queueLock := true }

/-- `UnlockQueue`. -/
def unlockQueue (c : Nat) (next : Pc) (m : Mutex) : Mutex :=
  { m.setPc c next with queueLock := false }

/-- `LockAwaiter` and `AcquireOrQueue` up to `LockQueue`. -/
def lock (home : Nat → Nat) (c : Nat) (m : Mutex) : Mutex :=
  { m.setPc c .lockQueue with waiters := Function.update m.waiters c ⟨home c, some c, none⟩ }

/-- `AcquireOrQueue` under the guard. -/
def acquireOrQueue (c : Nat) (m : Mutex) : Mutex :=
  if m.held = false then
    { m.setPc c .leaveOwned with held := true }
  else
    { m.setPc c .leaveQueued with
      waiters :=
        match m.waitersTail with
        | none => m.waiters
        | some last => Function.update m.waiters last { m.waiters last with next := some c }
      waitersHead :=
        match m.waitersTail with
        | none => some c
        | some _ => m.waitersHead
      waitersTail := some c
      arrivals := m.arrivals ++ [c] }

/-- `Unlock` under the guard. -/
def unlock (c : Nat) (m : Mutex) : Mutex :=
  match m.waitersHead with
  | none => { m.setPc c .leaveFree with held := false }
  | some wake =>
    -- `held_` stays set, so that a newcomer cannot overtake `wake`
    { m.setPc c (.leaveHandoff wake) with
      waitersHead := (m.waiters wake).next
      waitersTail := if (m.waiters wake).next.isNone then none else m.waitersTail
      grants := m.grants ++ [wake] }

/-- The end of `Unlock`: the waiter is enqueued here, or its worker is notified. -/
def dispatch (home : Nat → Nat) (c wake : Nat) (m : Mutex) : Mutex :=
  let waiter := m.waiters wake
  if waiter.worker = home c then (m.setPc c .outside).enqueue waiter.worker waiter.handle
  else (m.setPc c .outside).postNotification waiter.worker ⟨waiter.worker, waiter.handle⟩

/-- The next atomic step of a coroutine inside the mutex's code. -/
def advance (home : Nat → Nat) (c : Nat) (m : Mutex) : Option Mutex :=
  match m.pc c with
  | .lockQueue => some (m.lockQueue c .acquireOrQueue)
  | .acquireOrQueue => some (m.acquireOrQueue c)
  | .leaveOwned => some (m.unlockQueue c .owning)
  | .leaveQueued => some (m.unlockQueue c .suspending)
  | .suspending => some ((m.setPc c .suspended).setRunning (home c) none)
  | .resumed => some (m.lockQueue c .synchronize)
  | .synchronize => some (m.unlockQueue c .owning)
  | .unlockLockQueue => some (m.lockQueue c .unlock)
  | .unlock => some (m.unlock c)
  | .leaveFree => some (m.unlockQueue c .outside)
  | .leaveHandoff wake => some (m.unlockQueue c (.dispatch wake))
  | .dispatch wake => some (m.dispatch home c wake)
  | .outside | .suspended | .owning => none

/-- Delivery of the `i`-th notification of a worker: `ResumeRemote` runs there. -/
def deliver (w i : Nat) (m : Mutex) : Option Mutex :=
  match (m.lanes w)[i]? with
  | none => none
  | some n =>
    some ({ m with lanes := Function.update m.lanes w ((m.lanes w).eraseIdx i) }.enqueue
      n.context n.value)

/-- The worker's loop resumes the first coroutine of its ready queue. -/
def resume (w : Nat) (m : Mutex) : Option Mutex :=
  match m.ready w with
  | [] => none
  | c :: rest =>
    some { (m.setPc c .resumed).setRunning w (some c) with
      ready := Function.update m.ready w rest
      resumes := m.resumes ++ [(c, w)] }

/-- A worker runs a coroutine, or the coroutine takes its next step. -/
inductive Label where
  | schedule (c : Nat)     -- the worker runs the coroutine for reasons of its own
  | yield (c : Nat)        -- the coroutine suspends in something else
  | lock (c : Nat)
  | unlock (c : Nat)
  | advance (c : Nat)
  | deliver (w i : Nat)
  | resume (w : Nat)

/-- A coroutine that is not inside the mutex's code. -/
def atRest : Pc → Bool
  | .outside | .owning => true
  | _ => false

/-- One step: each access to something shared is one. -/
def step (home : Nat → Nat) (m : Mutex) : Label → Option Mutex
  | .schedule c =>
    if m.running (home c) = none ∧ atRest (m.pc c) then some (m.setRunning (home c) (some c))
    else none
  | .yield c =>
    if m.running (home c) = some c ∧ atRest (m.pc c) then some (m.setRunning (home c) none)
    else none
  | .lock c =>
    if m.running (home c) = some c ∧ m.pc c = .outside then some (m.lock home c) else none
  | .unlock c =>
    if m.running (home c) = some c ∧ m.pc c = .owning then some (m.setPc c .unlockLockQueue)
    else none
  | .advance c => if m.running (home c) = some c then m.advance home c else none
  | .deliver w i => if m.running w = none then m.deliver w i else none
  | .resume w => if m.running w = none then m.resume w else none

/-- Every interleaving, for coroutines whose workers `home` gives. -/
def system (home : Nat → Nat) : System Mutex Label where
  init m := ∃ memory, m = fresh memory
  step := step home

end Mutex

end Bycorf.Runtime
