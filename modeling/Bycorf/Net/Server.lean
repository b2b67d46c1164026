/-
  `Server::RunWorker`: what each worker thread does, and the two barriers of the shutdown.

  1. **Program** — every atomic step is a program point (`Pc`).  `Worker::Init` may fail,
     `Worker::Run` may return at any time (stopped, or because its loop gave up), and any thread may
     ask a worker to stop.
  2. **Barriers** — `drained_workers_` and `reclaimed_workers_` count the workers that have passed a
     point; a worker waits until the counter has reached `thread_count_`.  The crux: a counter is
     the number of workers BEHIND its point (`Inv.drained`), a worker that failed `Init` included,
     so a full counter speaks for every worker.
  3. **History** — `log` records what the workers did, in order.  The program never reads it.
-/
import Bycorf.Lib.History
import Bycorf.Lib.Transition

namespace Bycorf.Net

open Lib

/-- `Service`, as far as the server's shutdown looks at it. -/
structure Server.Service where
  id : Nat
  workers : List Nat
deriving DecidableEq, Repr

/-- `Service::RunsOnWorker`: no list means every worker. -/
def Server.Service.runsOnWorker (service : Server.Service) (w : Nat) : Bool :=
  service.workers.isEmpty || service.workers.contains w

/-- The services of a worker in the order in which `RunWorker` finalizes them. -/
def Server.unwinding (services : List Server.Service) (w : Nat) : List Server.Service :=
  services.reverse.filter fun service => service.runsOnWorker w

/-! ## The program -/

/-- Where a worker's thread is in `RunWorker`: in front of the step that is named. -/
inductive Server.Pc where
  | init
  | failDrained                              -- `Init` failed: `drained_workers_.fetch_add`
  | failReclaimed                            -- and `reclaimed_workers_.fetch_add`
  | requestStop (failedInit : Bool)          -- `Runtime::RequestStop`, its exchange
  | stopPass (failedInit : Bool) (i : Nat)   -- `RequestStop` on the worker `i`
  | run                                      -- inside `Worker::Run`
  | left                                     -- `failed = !worker.stop_requested()`
  | drained                                  -- `drained_workers_.fetch_add`
  | awaitDrained
  | shutdown
  | destroyDetachedTasks
  | reclaimed                                -- `reclaimed_workers_.fetch_add`
  | awaitReclaimed
  | finalize (rest : List Server.Service)    -- the loop over the services
  | returned (code : Nat)
deriving DecidableEq, Repr

/-- What the workers do on the way out, in order. -/
inductive Server.Event where
  | initFailed
  | leftRun
  | drained                                  -- one more in `drained_workers_`
  | shutdown
  | destroyDetachedTasks
  | reclaimed                                -- one more in `reclaimed_workers_`
  | finalizeWorker (service : Server.Service)
deriving DecidableEq, Repr

/-- `Server` with its worker threads. -/
structure Server where
  drainedWorkers : Nat
  reclaimedWorkers : Nat
  runtimeStop : Bool                         -- `Runtime::Impl::stop_requested_`
  stopRequested : Nat → Bool                 -- `Worker::stop_requested_`
  failed : Nat → Bool
  pc : Nat → Server.Pc
  log : List (Nat × Server.Event)            -- bookkeeping of the model

namespace Server

/-- Before the workers start. -/
def fresh : Server where
  drainedWorkers := 0
  reclaimedWorkers := 0
  runtimeStop := false
  stopRequested _ := false
  failed _ := false
  pc _ := .init
  log := []

def setPc (w : Nat) (pc : Pc) (s : Server) : Server := { s with pc := Function.update s.pc w pc }

def record (w : Nat) (e : Event) (s : Server) : Server := { s with log := s.log ++ [(w, e)] }

/-- `drained_workers_.fetch_add(1)`. -/
def addDrained (w : Nat) (s : Server) : Server :=
  { s.record w .drained with drainedWorkers := s.drainedWorkers + 1 }

/-- `reclaimed_workers_.fetch_add(1)`. -/
def addReclaimed (w : Nat) (s : Server) : Server :=
  { s.record w .reclaimed with reclaimedWorkers := s.reclaimedWorkers + 1 }

/-- Where `Runtime::RequestStop` returns to. -/
def afterStop (failedInit : Bool) : Pc := if failedInit then .returned 1 else .drained

/-- The next atomic step of the thread of `w`, where that needs no choice. -/
def advance (n : Nat) (services : List Service) (w : Nat) (s : Server) : Option Server :=
  match s.pc w with
  | .init | .run | .returned _ => none
  | .failDrained => some ((s.addDrained w).setPc w .failReclaimed)
  | .failReclaimed => some ((s.addReclaimed w).setPc w (.requestStop true))
  | .requestStop failedInit =>
    some ({ s with runtimeStop := true }.setPc w
      (if s.runtimeStop then afterStop failedInit else .stopPass failedInit 0))
  | .stopPass failedInit i =>
    if i < n then
      some ({ s with stopRequested := Function.update s.stopRequested i true }.setPc w
        (.stopPass failedInit (i + 1)))
    else some (s.setPc w (afterStop failedInit))
  | .left =>
    let failed := !s.stopRequested w
    some ({ s with failed := Function.update s.failed w failed }.setPc w
      (if failed then .requestStop false else .drained))
  | .drained => some ((s.addDrained w).setPc w .awaitDrained)
  | .awaitDrained => some (s.setPc w (if s.drainedWorkers < n then .awaitDrained else .shutdown))
  | .shutdown => some ((s.record w .shutdown).setPc w .destroyDetachedTasks)
  | .destroyDetachedTasks => some ((s.record w .destroyDetachedTasks).setPc w .reclaimed)
  | .reclaimed => some ((s.addReclaimed w).setPc w .awaitReclaimed)
  | .awaitReclaimed =>
    some (s.setPc w
      (if s.reclaimedWorkers < n then .awaitReclaimed else .finalize services.reverse))
  | .finalize [] => some (s.setPc w (.returned (if s.failed w then 1 else 0)))
  | .finalize (service :: rest) =>
    if service.runsOnWorker w then
      some ((s.record w (.finalizeWorker service)).setPc w (.finalize rest))
    else some (s.setPc w (.finalize rest))

/-- The next step of a worker, a service or a thread that stops the server. -/
inductive Label where
  | init (w : Nat) (ok : Bool)               -- `Worker::Init`, and the services are spawned
  | leaveRun (w : Nat)                       -- `Worker::Run` returns
  | advance (w : Nat)
  | stop (w : Nat)                           -- somebody calls `RequestStop` on a worker
deriving DecidableEq, Repr

/-- One atomic step of one of `n` workers. -/
def step (n : Nat) (services : List Service) (s : Server) : Label → Option Server
  | .init w ok =>
    if w < n ∧ s.pc w = .init then
      if ok then some (s.setPc w .run)
      else some ((s.record w .initFailed).setPc w .failDrained)
    else none
  | .leaveRun w =>
    if w < n ∧ s.pc w = .run then some ((s.record w .leftRun).setPc w .left) else none
  | .advance w => if w < n then s.advance n services w else none
  | .stop w => some { s with stopRequested := Function.update s.stopRequested w true }

/-- All interleavings of the workers. -/
def system (n : Nat) (services : List Service) : System Server Label where
  init s := s = fresh
  step := step n services

end Server

end Bycorf.Net
