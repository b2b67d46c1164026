/-
  `SubmitTo` and `SubmitTaskTo`: a call of one worker's coroutine that runs on another worker.

  1. **Program** — the awaiter lives in the caller's frame and travels as a pointer: through the
     request transport, a remote-work queue of the target, `RunRemoteWork`, the reply transport and
     the ready queue of its origin.  `SubmitTaskAwaiter::Start` spawns the coroutine `Run` on the
     target, which sends the reply itself (`reply_deferred_`).
  2. **Threads** — a worker runs one thing at a time (`Thread`); workers interleave freely.  The
     transport delivers in any order, and the scheduler picks either class at any time, so that what
     is proved does not rest on budgets, turns or lanes.
  3. **History** — `invocations`, `resumes` and `posts` record who invoked the user function, who
     resumed a caller and who posted a reply.  The program never reads them.

  Workers that are asked to stop are outside this model: `Spawn` on such a worker destroys `Run`.
-/
import Mathlib.Data.List.Basic
import Bycorf.Lib.Transition

namespace Bycorf.Runtime

open Lib

/-! ## The data -/

/-- The two classes of tasks. -/
inductive TaskClass where
  | foreground
  | background
deriving DecidableEq, Repr

/-- Which awaiter a call is. -/
inductive SubmitKind where
  | submitTo        -- `SubmitAwaiter`
  | submitTaskTo    -- `SubmitTaskAwaiter`
deriving DecidableEq, Repr

/-- `RemoteWork` inside its awaiter. -/
structure Awaiter (α : Type) where
  kind : SubmitKind
  target : Nat
  origin : Nat
  waiter : Bool               -- `waiter_` holds the caller's handle
  taskClass : TaskClass
  replyDeferred : Bool
  result : Option α           -- the result slot, once it has been written
  -- bookkeeping of the model
  caller : Nat                -- the worker that runs the caller
  returned : Option α         -- what the user function, or its Task, returned
  yielded : Option α          -- what `await_resume` gave the caller
deriving DecidableEq, Repr

/-- An awaiter as its constructor leaves it. -/
def Awaiter.make {α : Type} (kind : SubmitKind) (target caller : Nat) : Awaiter α where
  kind := kind
  target := target
  origin := 0
  waiter := false
  taskClass := .foreground
  replyDeferred := false
  result := none
  caller := caller
  returned := none
  yielded := none

/-- The beginning of `await_suspend` on the caller's worker. -/
def Awaiter.suspend {α : Type} (taskClass : TaskClass) (a : Awaiter α) : Awaiter α :=
  { a with waiter := true, origin := a.caller, taskClass := taskClass }

/-- Where a pointer to a call, or a handle of one of its coroutines, can be queued. -/
inductive Queue where
  | request                                -- posted to a worker, not yet scheduled there
  | reply
  | remoteWork (taskClass : TaskClass)     -- `foreground_remote_work_`, `background_remote_work_`
  | ready (taskClass : TaskClass)          -- `ready_`, `background_ready_`
deriving DecidableEq, Repr

/-- What a queue of a worker holds. -/
inductive Item where
  | work (c : Nat)       -- the `RemoteWork` pointer
  | waiter (c : Nat)     -- the caller's handle
  | run (c : Nat)        -- the handle of `SubmitTaskAwaiter::Run`
deriving DecidableEq, Repr

/-- The call an item belongs to. -/
def Item.call : Item → Nat
  | .work c | .waiter c | .run c => c

/-- Where `RunRemoteWork` is. -/
inductive RemotePc where
  | runFn       -- in front of `run_fn_`
  | inFn        -- the user function of a `SubmitTo` runs
  | check       -- in front of `if (!work->reply_deferred_)`
deriving DecidableEq, Repr

/-- What a worker's thread does. -/
inductive Thread where
  | loop                                                    -- its event loop
  | user                                                    -- a coroutine
  | inline (c : Nat)                                        -- the function of a local `SubmitTo`
  | remote (c : Nat) (taskClass : TaskClass) (pc : RemotePc)
  | start (c : Nat)                                         -- `Run`, in front of `std::invoke`
  | reply (c : Nat)                                         -- `Run`, in front of `PostReply`
deriving DecidableEq, Repr

/-- The call whose code of this file the thread is in. -/
def Thread.call : Thread → Option Nat
  | .loop | .user => none
  | .inline c | .remote c _ _ | .start c | .reply c => some c

/-- Where a frame of `Run` is. -/
inductive RunPc where
  | spawned
  | awaiting       -- the Task of the user function runs, or is suspended
  | replying
deriving DecidableEq, Repr

/-- Who posts the reply. -/
inductive Poster where
  | runRemoteWork
  | run
deriving DecidableEq, Repr

/-- Any number of workers and calls. -/
structure Workers (α : Type) where
  call : Nat → Option (Awaiter α)
  queue : Queue → Nat → List Item
  thread : Nat → Thread
  frame : Nat → Option (Nat × RunPc)       -- the frame of `Run`, and the worker it lives on
  -- bookkeeping of the model
  invocations : List (Nat × Nat)           -- which call's function was invoked, and on which worker
  resumes : List (Nat × Nat)               -- which caller was resumed, and on which worker
  posts : List (Nat × Poster)              -- which call's reply was posted, and by whom

namespace Workers

variable {α : Type}

/-- No call has been made. -/
def fresh : Workers α where
  call _ := none
  queue _ _ := []
  thread _ := .loop
  frame _ := none
  invocations := []
  resumes := []
  posts := []

/-! ## The program -/

def setCall (c : Nat) (a : Awaiter α) (s : Workers α) : Workers α :=
  { s with call := Function.update s.call c (some a) }

def setThread (w : Nat) (t : Thread) (s : Workers α) : Workers α :=
  { s with thread := Function.update s.thread w t }

def setFrame (c : Nat) (f : Option (Nat × RunPc)) (s : Workers α) : Workers α :=
  { s with frame := Function.update s.frame c f }

def setQueue (q : Queue) (w : Nat) (items : List Item) (s : Workers α) : Workers α :=
  { s with queue := Function.update s.queue q (Function.update (s.queue q) w items) }

/-- An item goes to the end of a queue. -/
def push (q : Queue) (w : Nat) (i : Item) (s : Workers α) : Workers α :=
  s.setQueue q w (s.queue q w ++ [i])

/-- `PostRequest`. -/
def postRequest (target c : Nat) (s : Workers α) : Workers α := s.push .request target (.work c)

/-- `PostReply`. -/
def postReply (origin c : Nat) (poster : Poster) (s : Workers α) : Workers α :=
  { s.push .reply origin (.work c) with posts := s.posts ++ [(c, poster)] }

/-- The user function is called. -/
def invoke (w c : Nat) (s : Workers α) : Workers α :=
  { s with invocations := s.invocations ++ [(c, w)] }

/-- `SubmitTaskAwaiter::Start` on the worker `w`, whose current class is `taskClass`. -/
def start (w c : Nat) (taskClass : TaskClass) (a : Awaiter α) (s : Workers α) : Workers α :=
  ((s.setCall c { a with replyDeferred := true }).setFrame c (some (w, .spawned))).push
    (.ready taskClass) w (.run c)

/-- The result slot is written. -/
def store (c : Nat) (a : Awaiter α) (v : α) (s : Workers α) : Workers α :=
  s.setCall c { a with result := some v, returned := some v }

/-- `await_resume` on the worker `w`; the caller goes on. -/
def awaitResume (w c : Nat) (a : Awaiter α) (s : Workers α) : Workers α :=
  { (s.setCall c { a with yielded := a.result }).setThread w .user with
    resumes := s.resumes ++ [(c, w)] }

/-- `co_await SubmitTo(target, fn)` in a coroutine on `w`. -/
def submitTo (w c target : Nat) (taskClass : TaskClass) (s : Workers α) : Workers α :=
  let a := Awaiter.make .submitTo target w
  -- `await_ready`: a local call runs inline
  if target = w then ((s.setCall c a).invoke w c).setThread w (.inline c)
  else ((s.setCall c (a.suspend taskClass)).postRequest target c).setThread w .loop

/-- `co_await SubmitTaskTo(target, fn)` in a coroutine on `w`. -/
def submitTaskTo (w c target : Nat) (taskClass : TaskClass) (s : Workers α) : Workers α :=
  let a := (Awaiter.make .submitTaskTo target w).suspend taskClass
  if target = w then (s.start w c taskClass a).setThread w .loop
  else ((s.setCall c a).postRequest target c).setThread w .loop

/-- `run_fn_`: `SubmitAwaiter::RunFn` or `SubmitTaskAwaiter::Start`. -/
def runFn (w c : Nat) (taskClass : TaskClass) (a : Awaiter α) (s : Workers α) : Workers α :=
  match a.kind with
  | .submitTo => (s.invoke w c).setThread w (.remote c taskClass .inFn)
  | .submitTaskTo => (s.start w c taskClass a).setThread w (.remote c taskClass .check)

/-- The end of `RunRemoteWork`. -/
def finishRemoteWork (w c : Nat) (a : Awaiter α) (s : Workers α) : Workers α :=
  if a.replyDeferred = false then (s.postReply a.origin c .runRemoteWork).setThread w .loop
  else s.setThread w .loop

/-- `schedule_request` of `DrainCrossCore`. -/
def scheduleRequest (w c : Nat) (a : Awaiter α) (s : Workers α) : Workers α :=
  s.push (.remoteWork a.taskClass) w (.work c)

/-- `schedule_reply` of `DrainCrossCore`: `Enqueue(work->waiter_)`, which ignores a null handle and
    asks the worker's registry for the handle's class. -/
def scheduleReply (w c : Nat) (taskClass : TaskClass) (a : Awaiter α) (s : Workers α) : Workers α :=
  if a.waiter then s.push (.ready taskClass) w (.waiter c) else s

/-- The next step of a worker. -/
inductive Label (α : Type) where
  | resumeOther (w : Nat)                                   -- some other coroutine runs
  | suspend (w : Nat)                                       -- it suspends
  | submitTo (w c target : Nat) (taskClass : TaskClass)
  | submitTaskTo (w c target : Nat) (taskClass : TaskClass)
  | scheduleRequest (w i : Nat)
  | scheduleReply (w i : Nat) (taskClass : TaskClass)
  | runRemoteWork (w : Nat) (taskClass : TaskClass)
  | runFn (w : Nat)
  | returnFn (w : Nat) (v : α)
  | finishRemoteWork (w : Nat)
  | resumeReady (w : Nat) (taskClass : TaskClass)
  | invokeTask (w : Nat)
  | completeTask (w c : Nat) (v : α)                        -- the Task of a call completes on `w`
  | replyTask (w : Nat)

/-- One step of the thread of one worker. -/
def step (s : Workers α) : Label α → Option (Workers α)
  | .resumeOther w => if s.thread w = .loop then some (s.setThread w .user) else none
  | .suspend w => if s.thread w = .user then some (s.setThread w .loop) else none
  | .submitTo w c target taskClass =>
    if s.thread w = .user ∧ s.call c = none then some (s.submitTo w c target taskClass) else none
  | .submitTaskTo w c target taskClass =>
    if s.thread w = .user ∧ s.call c = none then some (s.submitTaskTo w c target taskClass)
    else none
  | .scheduleRequest w i =>
    if s.thread w = .loop then
      match (s.queue .request w)[i]? with
      | some (.work c) => (s.call c).map fun a =>
          (s.setQueue .request w ((s.queue .request w).eraseIdx i)).scheduleRequest w c a
      | _ => none
    else none
  | .scheduleReply w i taskClass =>
    if s.thread w = .loop then
      match (s.queue .reply w)[i]? with
      | some (.work c) => (s.call c).map fun a =>
          (s.setQueue .reply w ((s.queue .reply w).eraseIdx i)).scheduleReply w c taskClass a
      | _ => none
    else none
  | .runRemoteWork w taskClass =>
    if s.thread w = .loop then
      match s.queue (.remoteWork taskClass) w with
      | .work c :: rest =>
        some ((s.setQueue (.remoteWork taskClass) w rest).setThread w (.remote c taskClass .runFn))
      | _ => none
    else none
  | .runFn w =>
    match s.thread w with
    | .remote c taskClass .runFn => (s.call c).map fun a => s.runFn w c taskClass a
    | _ => none
  | .returnFn w v =>
    match s.thread w with
    | .remote c taskClass .inFn => (s.call c).map fun a =>
        (s.store c a v).setThread w (.remote c taskClass .check)
    | .inline c => (s.call c).map fun a =>
        (s.store c a v).awaitResume w c { a with result := some v, returned := some v }
    | _ => none
  | .finishRemoteWork w =>
    match s.thread w with
    | .remote c _ .check => (s.call c).map fun a => s.finishRemoteWork w c a
    | _ => none
  | .resumeReady w taskClass =>
    if s.thread w = .loop then
      match s.queue (.ready taskClass) w with
      | .waiter c :: rest => (s.call c).map fun a =>
          (s.setQueue (.ready taskClass) w rest).awaitResume w c a
      | .run c :: rest => some ((s.setQueue (.ready taskClass) w rest).setThread w (.start c))
      | _ => none
    else none
  | .invokeTask w =>
    match s.thread w with
    | .start c => some (((s.invoke w c).setFrame c (some (w, .awaiting))).setThread w .user)
    | _ => none
  | .completeTask w c v =>
    -- a coroutine is only ever resumed on its own worker
    if s.thread w = .user ∧ s.frame c = some (w, .awaiting) then
      (s.call c).map fun a =>
        ((s.store c a v).setFrame c (some (w, .replying))).setThread w (.reply c)
    else none
  | .replyTask w =>
    match s.thread w with
    | .reply c => (s.call c).map fun a =>
        ((s.postReply a.origin c .run).setFrame c none).setThread w .loop
    | _ => none

/-- All interleavings of the workers. -/
def system (α : Type) : System (Workers α) (Label α) where
  init s := s = fresh
  step := step

end Workers

end Bycorf.Runtime
