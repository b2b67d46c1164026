/-
  `Runtime::Impl::Start`: the launching thread, the worker threads it creates, and `RequestStop`.

  1. **Program** — the launcher (`Launcher`) stores `active_workers_`, creates the threads one after
     the other, and counts the latch down; creating a thread may throw, and then the handler makes
     up for the threads that were never created.  A worker thread (`ThreadPc`) pins itself, waits at
     the latch, runs `main_fn` unless pinning failed anywhere, and accounts for its end.
  2. **Counters** — the latch and `active_workers_` are integers here, so that an underflow would
     show as a negative value.
  3. **History** — `log` records what the threads did, in order.  The program never reads it.

  The DPDK teardown behind `main_fn` does not touch any of this and is left out.
-/
import Bycorf.Lib.History
import Bycorf.Lib.Transition

namespace Bycorf.Runtime

open Lib

/-! ## The program -/

/-- Where the launching thread is: in front of the step that is named. -/
inductive Launcher where
  | storeActive                    -- `active_workers_.store(thread_count)`
  | launch                         -- the loop over the threads
  | countDown                      -- `launch->count_down()`
  | failFlag                       -- `catch (...)`: `affinity_failed->store(true)`
  | failActive                     -- `active_workers_.fetch_sub(thread_count - launched)`
  | failLatch                      -- `launch->count_down(thread_count - launched + 1)`
  | returned
  | threw
deriving DecidableEq, Repr

/-- Where a worker thread is. -/
inductive ThreadPc where
  | absent                         -- not created
  | affinity                       -- `pthread_setaffinity_np`
  | storeFailed                    -- `affinity_failed->store(true)`
  | arrive                         -- `launch->arrive_and_wait()`, its arrival
  | wait                           -- and its wait
  | check                          -- `affinity_failed->load()`
  | main                           -- inside `main_fn`
  | close                          -- `accepting_.store(false)`
  | failure                        -- `exit_code_.compare_exchange_strong`
  | requestStop                    -- `RequestStop`, its exchange
  | closeIngress (i : Nat)         -- its loop over `foreign_executors_`
  | stopWorkers (i : Nat)          -- its loop over `states_`
  | decrement                      -- `active_workers_.fetch_sub(1)`
  | write                          -- `write(completion_fd_)`
  | finish (last : Bool)           -- the end under the lock
  | exited
deriving DecidableEq, Repr

/-- What the threads do, in order. -/
inductive StartEvent where
  | pinFailed
  | flagged                        -- stored `affinity_failed`
  | arrived
  | invoked                        -- called `main_fn`
  | skipped                        -- saw `affinity_failed`
  | mainReturned (code : Int)
  | exitCode                       -- tried to store `exit_code_`
  | stopBegun                      -- stored `stop_requested_`
  | decremented
  | wrote
deriving DecidableEq, Repr

/-- The launching function and its threads, with what they share. -/
structure Startup where
  launcher : Launcher
  launched : Nat
  latch : Int
  affinityFailed : Bool
  activeWorkers : Int
  exitCode : Int
  stopRequested : Bool
  accepting : Nat → Bool           -- `ForeignExecutorState::accepting_`
  workerStop : Nat → Bool          -- `Worker::RequestStop` was called
  stopped : Bool
  completionWrites : Nat           -- writes to `completion_fd_`
  pc : Nat → ThreadPc
  localExitCode : Nat → Int
  log : List (Nat × StartEvent)    -- bookkeeping of the model

namespace Startup

/-- The worker table is complete, and the latch is made for `n` threads and the launcher. -/
def fresh (n : Nat) : Startup where
  launcher := .storeActive
  launched := 0
  latch := n + 1
  affinityFailed := false
  activeWorkers := 0
  exitCode := 0
  stopRequested := false
  accepting _ := true
  workerStop _ := false
  stopped := false
  completionWrites := 0
  pc _ := .absent
  localExitCode _ := 0
  log := []

def setPc (w : Nat) (pc : ThreadPc) (s : Startup) : Startup :=
  { s with pc := Function.update s.pc w pc }

def setCode (w : Nat) (code : Int) (s : Startup) : Startup :=
  { s with localExitCode := Function.update s.localExitCode w code }

def record (w : Nat) (e : StartEvent) (s : Startup) : Startup := { s with log := s.log ++ [(w, e)] }

/-- The launcher's next step, where that needs no choice. -/
def launcherStep (n : Nat) (s : Startup) : Option Startup :=
  match s.launcher with
  | .storeActive => some { s with activeWorkers := n, launcher := .launch }
  | .launch => if s.launched < n then none else some { s with launcher := .countDown }
  | .countDown => some { s with latch := s.latch - 1, launcher := .returned }
  | .failFlag => some { s with affinityFailed := true, launcher := .failActive }
  | .failActive =>
    some { s with
      activeWorkers := s.activeWorkers - (n - s.launched : Nat), launcher := .failLatch }
  | .failLatch =>
    some { s with latch := s.latch - (n - s.launched + 1 : Nat), launcher := .threw }
  | .returned | .threw => none

/-- `std::thread(...)` for the next worker; without pinning the thread begins at the latch. -/
def launch (n : Nat) (pinWorkers ok : Bool) (s : Startup) : Option Startup :=
  if s.launcher = .launch ∧ s.launched < n then
    if ok then
      some { s.setPc s.launched (if pinWorkers then .affinity else .arrive) with
        launched := s.launched + 1 }
    else some { s with launcher := .failFlag }
  else none

/-- The next atomic step of the worker thread `w`, where that needs no choice. -/
def advance (n w : Nat) (s : Startup) : Option Startup :=
  match s.pc w with
  | .absent | .affinity | .main | .exited => none
  | .storeFailed =>
    some (({ s with affinityFailed := true }.record w .flagged).setPc w .arrive)
  | .arrive => some (({ s with latch := s.latch - 1 }.record w .arrived).setPc w .wait)
  | .wait => if s.latch = 0 then some (s.setPc w .check) else none
  | .check =>
    if s.affinityFailed then some (((s.setCode w 1).record w .skipped).setPc w .close)
    else some ((s.record w .invoked).setPc w .main)
  | .close =>
    some ({ s with accepting := Function.update s.accepting w false }.setPc w
      (if s.localExitCode w = 0 then .decrement else .failure))
  | .failure =>
    some (({ s with exitCode := if s.exitCode = 0 then s.localExitCode w else s.exitCode }.record w
      .exitCode).setPc w .requestStop)
  | .requestStop =>
    some (({ s with stopRequested := true }.record w .stopBegun).setPc w
      (if s.stopRequested then .decrement else .closeIngress 0))
  | .closeIngress i =>
    if i < n then
      some ({ s with accepting := Function.update s.accepting i false }.setPc w
        (.closeIngress (i + 1)))
    else some (s.setPc w (.stopWorkers 0))
  | .stopWorkers i =>
    if i < n then
      some ({ s with workerStop := Function.update s.workerStop i true }.setPc w
        (.stopWorkers (i + 1)))
    else some (s.setPc w .decrement)
  | .decrement =>
    some (({ s with activeWorkers := s.activeWorkers - 1 }.record w .decremented).setPc w
      (if s.activeWorkers = 1 then .write else .finish false))
  | .write =>
    some (({ s with completionWrites := s.completionWrites + 1 }.record w .wrote).setPc w
      (.finish true))
  | .finish last => some ({ s with stopped := s.stopped || last }.setPc w .exited)

/-- The next step of the launching function or of a thread. -/
inductive Label where
  | launcher
  | launch (ok : Bool)
  | affinity (w : Nat) (ok : Bool)           -- what `pthread_setaffinity_np` answers
  | advance (w : Nat)
  | mainReturns (w : Nat) (code : Int)
  | requestStop                              -- `RequestStop` from another thread, its exchange
  | closeIngress (i : Nat)                   -- and its loops
  | stopWorker (i : Nat)
deriving DecidableEq, Repr

/-- One atomic step with `n` threads to launch. -/
def step (n : Nat) (pinWorkers : Bool) (s : Startup) : Label → Option Startup
  | .launcher => s.launcherStep n
  | .launch ok => s.launch n pinWorkers ok
  | .affinity w ok =>
    if s.pc w = .affinity then
      if ok then some (s.setPc w .arrive)
      else some (((s.setCode w 1).record w .pinFailed).setPc w .storeFailed)
    else none
  | .advance w => s.advance n w
  | .mainReturns w code =>
    if s.pc w = .main then some (((s.setCode w code).record w (.mainReturned code)).setPc w .close)
    else none
  | .requestStop => some { s with stopRequested := true }
  | .closeIngress i =>
    if s.stopRequested then some { s with accepting := Function.update s.accepting i false }
    else none
  | .stopWorker i =>
    if s.stopRequested then some { s with workerStop := Function.update s.workerStop i true }
    else none

/-- All interleavings of these. -/
def system (n : Nat) (pinWorkers : Bool) : System Startup Label where
  init s := s = fresh n
  step := step n pinWorkers

end Startup

end Bycorf.Runtime
