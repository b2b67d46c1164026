/-
  `CoroutineBarrier`: coroutines of several workers wait for one another, or for an `Abort`.

  1. **Program** — the parts of `Arrive`, `Abort` and `status` under the mutex are one step each.
     What follows without it is in steps of its own: the loop of `Wake`, one waiter at a time; the
     delivery of a posted notification (`ResumeRemote`); the resumption of a ready coroutine, and
     the read of the status in its `await_resume`.
  2. **Bookkeeping** — `place` says where each coroutine is and `log` what has happened.  The
     program never reads either.
  3. **Specification** — `Sound`: nobody is released early, and who has suspended is resumed once,
     on its own worker.  `Agree`: all read the same status.
  4. **Results** — `Sound` holds in every reachable state.  `Agree` does NOT: `Abort` only asks
     whether the status is an error already, so it overwrites the status of a barrier that has
     completed.  `reachable_barrier` says exactly when that shows: when an error arrives between two
     reads (`LateAbort`).
-/
import Bycorf.Base.Status
import Bycorf.Lib.History
import Bycorf.Lib.Places
import Bycorf.Lib.Transition

namespace Bycorf.Runtime

open Lib Function
open List (append_of_mem countP_append foldl_cons)

/-! ## The program -/

/-- `CoroutineBarrier::Waiter`; also what a posted notification carries. -/
structure BarrierWaiter where
  worker : Nat
  coroutine : Nat
deriving DecidableEq, Repr

/-- Where the thread of a worker is. -/
inductive BarrierPc where
  | running                        -- outside the barrier
  | waking (rest : List BarrierWaiter)    -- in the loop of `Wake`
  | reading (c : Nat)              -- in `await_resume` of coroutine `c`
deriving DecidableEq, Repr

/-- Where a coroutine that has called `Wait` is; `w` is its worker. -/
inductive BarrierPlace where
  | absent
  | waiting (w : Nat)              -- in `waiters_`
  | waking (w v : Nat)             -- in the list that the thread of `v` is waking
  | posted (w v : Nat)             -- in a notification to `v`
  | ready (w : Nat)                -- in the ready queue of `w`
  | resumed (w : Nat)
  | passed                         -- not suspended at all
deriving DecidableEq, Repr

/-- What the coroutines see of the barrier. -/
inductive BarrierEvent where
  | suspended (w c : Nat)          -- `Arrive` returned true
  | passed (w c : Nat)             -- `Arrive` returned false
  | aborted (status : Status)      -- an `Abort` that was not too late
  | resumed (w c : Nat)
  | observed (c : Nat) (status : Status)
deriving DecidableEq, Repr

/-- The fields of `Barrier`, and where the workers and the coroutines are. -/
structure Barrier where
  arrived : Nat                    -- `unsigned`
  completed : Bool
  status : Status
  waiters : List BarrierWaiter
  pc : Nat → BarrierPc
  ready : Nat → List Nat
  mailbox : Nat → List BarrierWaiter
  nextCoroutine : Nat
  place : Nat → BarrierPlace
  log : List BarrierEvent

namespace Barrier

/-- Nobody has arrived. -/
def fresh : Barrier where
  arrived := 0
  completed := false
  status := .okStatus
  waiters := []
  pc _ := .running
  ready _ := []
  mailbox _ := []
  nextCoroutine := 0
  place _ := .absent
  log := []

def setPc (w : Nat) (pc : BarrierPc) (s : Barrier) : Barrier :=
  { s with pc := Function.update s.pc w pc }

def setPlace (c : Nat) (p : BarrierPlace) (s : Barrier) : Barrier :=
  { s with place := Function.update s.place c p }

def record (e : BarrierEvent) (s : Barrier) : Barrier := { s with log := s.log ++ [e] }

/-- `Worker::Enqueue`. -/
def enqueue (w c : Nat) (s : Barrier) : Barrier :=
  { s with ready := Function.update s.ready w (s.ready w ++ [c]) }.setPlace c (.ready w)

/-- A waiter goes into the mailbox of its worker. -/
def post (x : BarrierWaiter) (s : Barrier) : Barrier :=
  { s with mailbox := Function.update s.mailbox x.worker (s.mailbox x.worker ++ [x]) }.setPlace
    x.coroutine (.posted x.worker x.worker)

end Barrier

/-- Who is in `waiters_` gets into the list that `v` wakes. -/
def BarrierPlace.release (v : Nat) : BarrierPlace → BarrierPlace
  | .waiting w => .waking w v
  | p => p

namespace Barrier

/-- `completed_ = true; wake.swap(waiters_)`, by the thread of `v`. -/
def release (v : Nat) (s : Barrier) : Barrier :=
  { s with
    completed := true
    waiters := []
    pc := Function.update s.pc v (.waking s.waiters)
    place := fun c => (s.place c).release v }

/-- The new waiter of `Arrive`. -/
def push (w : Nat) (s : Barrier) : Barrier :=
  { s with
    waiters := s.waiters ++ [⟨w, s.nextCoroutine⟩]
    arrived := (s.arrived + 1) % 2 ^ 32
    nextCoroutine := s.nextCoroutine + 1
    place := Function.update s.place s.nextCoroutine (.waiting w)
    log := s.log ++ [.suspended w s.nextCoroutine] }

/-- A coroutine that runs on `w` awaits `Wait`: `Arrive` under the mutex. -/
def arrive (participants w : Nat) (s : Barrier) : Option Barrier :=
  if s.pc w = .running then
    if s.completed then
      some ({ s with
        nextCoroutine := s.nextCoroutine + 1 }.setPlace s.nextCoroutine .passed |>.record
          (.passed w s.nextCoroutine) |>.setPc w (.reading s.nextCoroutine))
    else if (s.push w).arrived = participants then some ((s.push w).release w)
    else some (s.push w)
  else none

/-- An `absl::Status` with code `kOk` has no message. -/
def stored (status : Status) : Status := if status.isOk then .okStatus else status

/-- `Abort` under the mutex, called on `w`. -/
def abort (w : Nat) (status : Status) (s : Barrier) : Option Barrier :=
  if s.pc w = .running then
    if s.status.isOk then
      some (({ s with status := stored status }.record (.aborted (stored status))).release w)
    else some s
  else none

/-- One round of the loop of `Wake`. -/
def wake (w : Nat) (s : Barrier) : Option Barrier :=
  match s.pc w with
  | .waking [] => some (s.setPc w .running)
  | .waking (x :: rest) =>
    if x.worker = w then some ((s.enqueue w x.coroutine).setPc w (.waking rest))
    else some ((s.post x).setPc w (.waking rest))
  | _ => none

/-- `v` runs the `i`-th notification of its mailbox: `ResumeRemote`. -/
def deliver (v i : Nat) (s : Barrier) : Option Barrier :=
  if s.pc v = .running then
    match (s.mailbox v)[i]? with
    | some x =>
      some ({ s with mailbox := Function.update s.mailbox v ((s.mailbox v).eraseIdx i) }.enqueue
        x.worker x.coroutine)
    | none => none
  else none

/-- `w` resumes the `i`-th coroutine of its ready queue. -/
def resume (w i : Nat) (s : Barrier) : Option Barrier :=
  if s.pc w = .running then
    match (s.ready w)[i]? with
    | some c =>
      some ({ s with ready := Function.update s.ready w ((s.ready w).eraseIdx i) }.setPlace c
        (.resumed w) |>.record (.resumed w c) |>.setPc w (.reading c))
    | none => none
  else none

/-- `await_resume`: the status, under the mutex. -/
def read (w : Nat) (s : Barrier) : Option Barrier :=
  match s.pc w with
  | .reading c => some ((s.record (.observed c s.status)).setPc w .running)
  | _ => none

/-- The next step of a worker. -/
inductive Label where
  | arrive (w : Nat)
  | abort (w : Nat) (status : Status)
  | wake (w : Nat)
  | deliver (w i : Nat)
  | resume (w i : Nat)
  | read (w : Nat)
deriving DecidableEq, Repr

/-- One step of the barrier. -/
def step (participants : Nat) (s : Barrier) : Label → Option Barrier
  | .arrive w => s.arrive participants w
  | .abort w status => s.abort w status
  | .wake w => s.wake w
  | .deliver w i => s.deliver w i
  | .resume w i => s.resume w i
  | .read w => s.read w

/-- All interleavings of the workers. -/
def system (participants : Nat) : System Barrier Label where
  init s := s = fresh
  step := step participants

end Barrier

/-! ## Where the coroutines are -/

/-- The waiters that a worker has taken and not woken. -/
def BarrierPc.rest : BarrierPc → List BarrierWaiter
  | .waking rest => rest
  | _ => []

theorem BarrierWaiter.ext_of {x y : BarrierWaiter} (hc : x.coroutine = y.coroutine)
    (hw : x.worker = y.worker) : x = y := by
  cases x
  cases y
  cases hc
  cases hw
  rfl

namespace BarrierPlace

/-- The places of a coroutine as shelves: `waiters_`, what a worker is waking, the mailboxes and the
    ready queues. -/
def waitersShelf : Shelf Nat BarrierWaiter BarrierPlace where
  item := BarrierWaiter.coroutine
  loc x := .waiting x.worker
  inj _ _ hc hw := BarrierWaiter.ext_of hc (BarrierPlace.waiting.inj hw)

def wakingShelf (v : Nat) : Shelf Nat BarrierWaiter BarrierPlace where
  item := BarrierWaiter.coroutine
  loc x := .waking x.worker v
  inj _ _ hc hw := BarrierWaiter.ext_of hc (BarrierPlace.waking.inj hw).1

def mailboxShelf (v : Nat) : Shelf Nat BarrierWaiter BarrierPlace where
  item := BarrierWaiter.coroutine
  loc x := .posted x.worker v
  inj _ _ hc hw := BarrierWaiter.ext_of hc (BarrierPlace.posted.inj hw).1

def readyShelf (w : Nat) : Shelf Nat Nat BarrierPlace where
  item := id
  loc _ := .ready w
  inj _ _ hc _ := hc

/-- The worker of a coroutine that has suspended. -/
def owner : BarrierPlace → Option Nat
  | .waiting w | .waking w _ | .posted w _ | .ready w | .resumed w => some w
  | .absent | .passed => none

/-- The coroutine has been released. -/
def released : BarrierPlace → Bool
  | .absent | .waiting _ => false
  | _ => true

@[simp] theorem owner_release (v : Nat) (p : BarrierPlace) : (p.release v).owner = p.owner := by
  cases p <;> rfl

end BarrierPlace

namespace Barrier

open BarrierPlace

variable {participants : Nat} {s s' : Barrier} {v w c : Nat}

/-- The lists and the places say the same. -/
structure Placed (s : Barrier) : Prop where
  waiters : Holds s.place waitersShelf s.waiters
  waking : ∀ v, Holds s.place (wakingShelf v) (s.pc v).rest
  mailbox : ∀ v, Holds s.place (mailboxShelf v) (s.mailbox v)
  ready : ∀ w, Holds s.place (readyShelf w) (s.ready w)
  unused : ∀ c, s.nextCoroutine ≤ c → s.place c = .absent
  home : ∀ c w v, s.place c = .posted w v → v = w

theorem placed_fresh : Placed fresh where
  waiters := Holds.nil_iff.mpr nofun
  waking _ := Holds.nil_iff.mpr nofun
  mailbox _ := Holds.nil_iff.mpr nofun
  ready _ := Holds.nil_iff.mpr nofun
  unused _ _ := rfl
  home _ _ _ h := by cases h

/-- A thread goes from one program point to another that holds the same waiters. -/
theorem Placed.setPc {pc : BarrierPc} (h : Placed s) (hrest : pc.rest = (s.pc w).rest) :
    Placed (s.setPc w pc) := by
  refine { h with waking := fun v => ?_ }
  show Holds s.place (wakingShelf v) (update s.pc w pc v).rest
  by_cases hv : v = w
  · rw [hv, update_self, hrest]
    exact h.waking w
  rw [update_of_ne hv]
  exact h.waking v

/-- A new coroutine, in no list so far. -/
theorem Placed.new (h : Placed s) : s.place s.nextCoroutine = .absent :=
  h.unused s.nextCoroutine le_rfl

variable {p : BarrierPlace}

section

variable (h : Placed s)
include h

theorem Placed.unused_update (hc : s.place c ≠ .absent) :
    ∀ v, s.nextCoroutine ≤ v → update s.place c p v = .absent := by
  intro v hv
  have hne : v ≠ c := by
    intro heq
    exact hc (heq ▸ h.unused v hv)
  rw [update_of_ne hne]
  exact h.unused v hv

theorem Placed.unused_new :
    ∀ v, s.nextCoroutine + 1 ≤ v → update s.place s.nextCoroutine p v = .absent := by
  intro v hv
  rw [update_of_ne (Nat.ne_of_gt hv)]
  exact h.unused v (Nat.le_of_succ_le hv)

theorem Placed.home_update (hp : ∀ w v, p = .posted w v → v = w) :
    ∀ x w v, update s.place c p x = .posted w v → v = w := by
  intro x w v hx
  by_cases hxc : x = c
  · rw [hxc, update_self] at hx
    exact hp w v hx
  rw [update_of_ne hxc] at hx
  exact h.home x w v hx

theorem push_placed : Placed (s.push w) := by
  have hnew := h.new
  refine ⟨?_, fun v => ?_, fun v => ?_, fun v => ?_, h.unused_new, h.home_update (by simp)⟩
  · exact h.waiters.insert (by simp [hnew, waitersShelf]) rfl rfl
  · exact (h.waking v).other (by simp [hnew, wakingShelf]) (by simp [wakingShelf])
  · exact (h.mailbox v).other (by simp [hnew, mailboxShelf]) (by simp [mailboxShelf])
  · exact (h.ready v).other (by simp [hnew, readyShelf]) (by simp [readyShelf])

theorem pass_placed :
    Placed ({ s with nextCoroutine := s.nextCoroutine + 1 }.setPlace s.nextCoroutine .passed) := by
  have hnew := h.new
  refine ⟨?_, fun v => ?_, fun v => ?_, fun v => ?_, h.unused_new, h.home_update (by simp)⟩
  · exact h.waiters.other (by simp [hnew, waitersShelf]) (by simp [waitersShelf])
  · exact (h.waking v).other (by simp [hnew, wakingShelf]) (by simp [wakingShelf])
  · exact (h.mailbox v).other (by simp [hnew, mailboxShelf]) (by simp [mailboxShelf])
  · exact (h.ready v).other (by simp [hnew, readyShelf]) (by simp [readyShelf])

/-- The whole of `waiters_` goes to a thread that has nobody to wake. -/
theorem release_placed (hrest : (s.pc v).rest = []) : Placed (s.release v) := by
  have hnobody : ∀ c w, s.place c ≠ .waking w v := by
    intro c w hc
    have hmem := ((h.waking v).mem ⟨w, c⟩).mpr hc
    rw [hrest] at hmem
    exact not_mem_nil hmem
  refine ⟨?_, fun u => ?_, fun u => ?_, fun u => ?_, fun c hc => ?_, fun c w u hc => ?_⟩
  · refine Holds.nil_iff.mpr fun x hx => ?_
    change (s.place x.coroutine).release v = .waiting x.worker at hx
    cases hp : s.place x.coroutine <;> rw [hp] at hx <;> cases hx
  · show Holds (fun c => (s.place c).release v) (wakingShelf u)
      (update s.pc v (.waking s.waiters) u).rest
    by_cases hu : u = v
    · rw [hu, update_self]
      refine h.waiters.congr fun x => ?_
      show s.place x.coroutine = .waiting x.worker ↔
        (s.place x.coroutine).release v = .waking x.worker v
      cases hp : s.place x.coroutine with
      | waking w u' =>
        have := hnobody x.coroutine w
        simp_all [BarrierPlace.release]
      | _ => simp [BarrierPlace.release]
    · rw [update_of_ne hu]
      refine (h.waking u).congr fun x => ?_
      show s.place x.coroutine = .waking x.worker u ↔
        (s.place x.coroutine).release v = .waking x.worker u
      cases s.place x.coroutine <;> simp [BarrierPlace.release, Ne.symm hu]
  · refine (h.mailbox u).congr fun x => ?_
    show s.place x.coroutine = .posted x.worker u ↔
      (s.place x.coroutine).release v = .posted x.worker u
    cases s.place x.coroutine <;> simp [BarrierPlace.release]
  · refine (h.ready u).congr fun x => ?_
    show s.place x = .ready u ↔ (s.place x).release v = .ready u
    cases s.place x <;> simp [BarrierPlace.release]
  · show (s.place c).release v = .absent
    rw [h.unused c hc]
    rfl
  · refine h.home c w u ?_
    change (s.place c).release v = .posted w u at hc
    cases hp : s.place c <;> rw [hp] at hc <;> simp_all [BarrierPlace.release]

section

variable {x : BarrierWaiter} {rest : List BarrierWaiter} (hpc : s.pc w = .waking (x :: rest))
include hpc

/-- The head of the list that a thread is waking. -/
theorem Placed.head : s.place x.coroutine = .waking x.worker w := by
  have hw := h.waking w
  rw [hpc] at hw
  exact (hw.mem x).mp (mem_cons_self)

/-- What waking the head does to the lists of the threads. -/
theorem Placed.waking_tail (hp : ∀ u u', p ≠ .waking u u') (v : Nat) :
    Holds (update s.place x.coroutine p) (wakingShelf v)
      (update s.pc w (.waking rest) v).rest := by
  by_cases hv : v = w
  · rw [hv, update_self]
    have hw : Holds s.place (wakingShelf w) ([] ++ x :: rest) := by
      have := h.waking w
      rwa [hpc] at this
    exact hw.remove fun b _ => hp _ _
  rw [update_of_ne hv]
  refine (h.waking v).other (fun b _ hb => ?_) fun b _ => hp _ _
  rw [h.head hpc] at hb
  exact hv (BarrierPlace.waking.inj hb).2.symm

end

/-- A coroutine moves into the ready queue of its worker from somewhere else. -/
theorem Placed.ready_insert (hplace : ∀ u, s.place c ≠ .ready u) (v : Nat) :
    Holds (update s.place c (.ready w)) (readyShelf v)
      (update s.ready w (s.ready w ++ [c]) v) := by
  by_cases hv : v = w
  · rw [hv, update_self]
    exact (h.ready w).insert (fun _ _ => hplace w) rfl rfl
  rw [update_of_ne hv]
  exact (h.ready v).other (fun _ _ => hplace v) (by simp [readyShelf, Ne.symm hv])

theorem wake_placed (hstep : s.wake w = some s') : Placed s' := by
  rw [wake] at hstep
  split at hstep
  · next hpc =>
    cases hstep
    exact h.setPc (by rw [hpc]; rfl)
  · next x rest hpc =>
    have hhead := h.head hpc
    have hplaced : s.place x.coroutine ≠ .absent := by rw [hhead]; simp
    split at hstep
    · next hown =>
      cases hstep
      refine ⟨?_, h.waking_tail hpc (by simp), fun v => ?_, h.ready_insert (by simp [hhead]),
        h.unused_update hplaced, h.home_update (by simp)⟩
      · exact h.waiters.other (by simp [hhead, waitersShelf]) (by simp [waitersShelf])
      · exact (h.mailbox v).other (by simp [hhead, mailboxShelf]) (by simp [mailboxShelf])
    rename_i hremote
    cases hstep
    refine ⟨?_, h.waking_tail hpc (by simp), fun v => ?_, fun v => ?_, h.unused_update hplaced,
      h.home_update (by simp)⟩
    · exact h.waiters.other (by simp [hhead, waitersShelf]) (by simp [waitersShelf])
    · show Holds (update s.place x.coroutine (.posted x.worker x.worker)) (mailboxShelf v)
        (update s.mailbox x.worker (s.mailbox x.worker ++ [x]) v)
      by_cases hv : v = x.worker
      · rw [hv, update_self]
        exact (h.mailbox x.worker).insert (by simp [hhead, mailboxShelf]) rfl rfl
      rw [update_of_ne hv]
      exact (h.mailbox v).other (by simp [hhead, mailboxShelf])
        (by simp [mailboxShelf, Ne.symm hv])
    · exact (h.ready v).other (by simp [hhead, readyShelf]) (by simp [readyShelf])
  · cases hstep

variable {i : Nat}

theorem deliver_placed (hstep : s.deliver v i = some s') : Placed s' := by
  rw [deliver] at hstep
  split at hstep
  · split at hstep
    · next x hx =>
      have hplace : s.place x.coroutine = .posted x.worker v :=
        ((h.mailbox v).mem x).mp (mem_of_getElem? hx)
      cases hstep
      refine ⟨?_, fun u => ?_, fun u => ?_, h.ready_insert (by simp [hplace]),
        h.unused_update (by simp [hplace]), h.home_update (by simp)⟩
      · exact h.waiters.other (by simp [hplace, waitersShelf]) (by simp [waitersShelf])
      · exact (h.waking u).other (by simp [hplace, wakingShelf]) (by simp [wakingShelf])
      · show Holds (update s.place x.coroutine (.ready x.worker)) (mailboxShelf u)
          (update s.mailbox v ((s.mailbox v).eraseIdx i) u)
        by_cases hu : u = v
        · rw [hu, update_self]
          exact (h.mailbox v).eraseIdx hx (by simp [mailboxShelf])
        rw [update_of_ne hu]
        exact (h.mailbox u).other (by simp [hplace, mailboxShelf, Ne.symm hu])
          (by simp [mailboxShelf])
    · cases hstep
  · cases hstep

theorem resume_placed (hrunning : s.pc w = .running) (hc : (s.ready w)[i]? = some c) :
    Placed ({ s with ready := update s.ready w ((s.ready w).eraseIdx i) }.setPlace c
      (.resumed w) |>.record (.resumed w c) |>.setPc w (.reading c)) := by
  have hplace : s.place c = .ready w := ((h.ready w).mem c).mp (mem_of_getElem? hc)
  refine Placed.setPc ⟨?_, fun u => ?_, fun u => ?_, fun u => ?_,
    h.unused_update (by simp [hplace]), h.home_update (by simp)⟩ ?_
  · exact h.waiters.other (by simp [hplace, waitersShelf]) (by simp [waitersShelf])
  · exact (h.waking u).other (by simp [hplace, wakingShelf]) (by simp [wakingShelf])
  · exact (h.mailbox u).other (by simp [hplace, mailboxShelf]) (by simp [mailboxShelf])
  · show Holds (update s.place c (.resumed w)) (readyShelf u)
      (update s.ready w ((s.ready w).eraseIdx i) u)
    by_cases hu : u = w
    · rw [hu, update_self]
      exact (h.ready w).eraseIdx hc (by simp [readyShelf])
    rw [update_of_ne hu]
    exact (h.ready u).other (by simp [hplace, readyShelf, Ne.symm hu]) (by simp [readyShelf])
  · show BarrierPc.rest (.reading c) = (s.pc w).rest
    rw [hrunning]
    rfl

end

end Barrier

/-! ## The status a read returns -/

namespace BarrierEvent

/-- What an entry of the log does to the status. -/
def apply (status : Status) : BarrierEvent → Status
  | .aborted st => if status.isOk then Barrier.stored st else status
  | _ => status

/-- An arrival that waits. -/
def isSuspended : BarrierEvent → Bool
  | .suspended _ _ => true
  | _ => false

end BarrierEvent

namespace Barrier

/-- The status behind the log. -/
def statusAfter (log : List BarrierEvent) : Status := log.foldl BarrierEvent.apply .okStatus

/-- A read returns the status of that moment, and only an `Abort` that finds no error counts. -/
def Judged (front : List BarrierEvent) : BarrierEvent → Prop
  | .observed _ status => status = statusAfter front
  | .aborted _ => (statusAfter front).isOk = true
  | _ => True

/-- All reads returned the same status. -/
def Agree (log : List BarrierEvent) : Prop :=
  ∀ c st c' st', .observed c st ∈ log → .observed c' st' ∈ log → st = st'

/-- **An error arrived between two reads.** -/
def LateAbort (log : List BarrierEvent) : Prop :=
  ∃ front st back, log = front ++ .aborted st :: back ∧ st.isOk = false ∧
    (∃ c o, .observed c o ∈ front) ∧ ∃ c o, .observed c o ∈ back

variable {st : Status}

theorem stored_of_error (h : st.isOk = false) : stored st = st := by
  rw [stored, h]
  rfl

theorem stored_of_ok (h : st.isOk = true) : stored st = .okStatus := by
  rw [stored, if_pos h]

theorem statusAfter_concat (log : List BarrierEvent) (e : BarrierEvent) :
    statusAfter (log ++ [e]) = e.apply (statusAfter log) := by
  simp [statusAfter]

open BarrierEvent (apply isSuspended resumed suspended)

/-- An error stays. -/
theorem foldl_of_error (log : List BarrierEvent) (h : st.isOk = false) :
    log.foldl apply st = st := by
  induction log with
  | nil => rfl
  | cons e log ih =>
    have happly : e.apply st = st := by
      cases e with
      | aborted st' =>
        show (if st.isOk then stored st' else st) = st
        rw [h]
        rfl
      | _ => rfl
    rw [foldl_cons, happly]
    exact ih

/-- Without an error the status stays. -/
theorem foldl_of_no_error (log : List BarrierEvent) (h : ∀ st, .aborted st ∈ log → st.isOk = true) :
    log.foldl apply .okStatus = .okStatus := by
  induction log with
  | nil => rfl
  | cons e log ih =>
    have happly : e.apply .okStatus = .okStatus := by
      cases e with
      | aborted st =>
        show (if Status.okStatus.isOk then stored st else .okStatus) = .okStatus
        rw [Status.isOk_okStatus, if_pos rfl]
        exact stored_of_ok (h st mem_cons_self)
      | _ => rfl
    rw [foldl_cons, happly]
    exact ih fun st hst => h st (mem_cons_of_mem e hst)

theorem statusAfter_append (front back : List BarrierEvent) :
    statusAfter (front ++ back) = back.foldl apply (statusAfter front) :=
  List.foldl_append ..

theorem statusAfter_ok_of_append {front back : List BarrierEvent}
    (h : (statusAfter (front ++ back)).isOk = true) : (statusAfter front).isOk = true := by
  by_contra herror
  have hfalse : (statusAfter front).isOk = false := eq_false_iff.mpr herror
  rw [statusAfter_append, foldl_of_error back hfalse, hfalse] at h
  cases h

/-- There is one OK status. -/
theorem statusAfter_eq_ok {log : List BarrierEvent} (h : (statusAfter log).isOk = true) :
    statusAfter log = .okStatus := by
  induction log using List.reverseRecOn with
  | nil => rfl
  | append_singleton log e ih =>
    have hbefore := ih (statusAfter_ok_of_append h)
    rw [statusAfter_concat, hbefore] at h ⊢
    cases e with
    | aborted st =>
      change (if Status.okStatus.isOk then stored st else .okStatus).isOk = true at h
      show (if Status.okStatus.isOk then stored st else .okStatus) = .okStatus
      rw [Status.isOk_okStatus, if_pos rfl] at h ⊢
      cases hst : st.isOk with
      | true => exact stored_of_ok hst
      | false =>
        rw [stored_of_error hst, hst] at h
        cases h
    | _ => rfl

variable {log : List BarrierEvent}

section

variable (hlog : Justified Judged log)
include hlog

theorem not_agree_of_lateAbort (h : LateAbort log) : ¬Agree log := by
  obtain ⟨front, st, back, rfl, hst, ⟨c, o, ho⟩, c', o', ho'⟩ := h
  have hok : (statusAfter front).isOk = true := hlog front (.aborted st) back rfl
  -- the first read is in front of the error
  have hfirst : o.isOk = true := by
    obtain ⟨f₁, f₂, rfl⟩ := append_of_mem ho
    have hread : o = statusAfter f₁ := hlog f₁ (.observed c o) (f₂ ++ .aborted st :: back) (by simp)
    rw [hread]
    exact statusAfter_ok_of_append hok
  -- and the second one is behind it
  have hsecond : o'.isOk = false := by
    obtain ⟨b₁, b₂, rfl⟩ := append_of_mem ho'
    have hread : o' = statusAfter (front ++ .aborted st :: b₁) :=
      hlog (front ++ .aborted st :: b₁) (.observed c' o') b₂ (by simp)
    have happly : apply (statusAfter front) (.aborted st) = st := by
      show (if (statusAfter front).isOk then stored st else _) = st
      rw [if_pos hok, stored_of_error hst]
    rw [hread, statusAfter_append, foldl_cons, happly, foldl_of_error b₁ hst]
    exact hst
  intro hagree
  have heq := hagree c o c' o' (by simp [ho]) (by simp [ho'])
  rw [heq, hsecond] at hfirst
  cases hfirst

/-- Two reads with no error between them. -/
theorem reads_agree (hlate : ¬LateAbort log) {c c' : Nat}
    {o o' : Status} {front middle back : List BarrierEvent}
    (hsplit : log = front ++ .observed c o :: (middle ++ .observed c' o' :: back)) : o = o' := by
  have ho : o = statusAfter front := hlog front (.observed c o) _ hsplit
  have ho' : o' = statusAfter (front ++ .observed c o :: middle) :=
    hlog (front ++ .observed c o :: middle) (.observed c' o') back (by simp [hsplit])
  have hmiddle : o' = middle.foldl apply o := by
    rw [ho', statusAfter_append, foldl_cons, ho]
    rfl
  cases hok : o.isOk
  · rw [hmiddle, foldl_of_error middle hok]
  have hone : o = .okStatus := by
    rw [ho] at hok ⊢
    exact statusAfter_eq_ok hok
  rw [hmiddle, hone, foldl_of_no_error middle]
  intro st hst
  by_contra herror
  obtain ⟨m₁, m₂, rfl⟩ := append_of_mem hst
  exact hlate ⟨front ++ .observed c o :: m₁, st, m₂ ++ .observed c' o' :: back, by simp [hsplit],
    eq_false_iff.mpr herror, ⟨c, o, by simp⟩, c', o', by simp⟩

/-- **Agreement, exactly.** -/
theorem agree_iff : Agree log ↔ ¬LateAbort log := by
  constructor
  · exact fun hagree hlate => not_agree_of_lateAbort hlog hlate hagree
  · intro hlate c o c' o' ho ho'
    obtain ⟨front, back, hsplit⟩ := append_of_mem ho
    rw [hsplit, mem_append, mem_cons] at ho'
    rcases ho' with hfront | heq | hback
    · obtain ⟨f₁, f₂, rfl⟩ := append_of_mem hfront
      have hsplit' : log = f₁ ++ .observed c' o' :: (f₂ ++ .observed c o :: back) := by
        rw [hsplit]
        simp
      exact (reads_agree hlog hlate hsplit').symm
    · cases heq
      rfl
    · obtain ⟨b₁, b₂, rfl⟩ := append_of_mem hback
      exact reads_agree hlog hlate hsplit

end

/-! ## The history -/

/-- How often `Arrive` has counted a participant. -/
def arrivals (s : Barrier) : Nat := s.log.countP BarrierEvent.isSuspended

/-- The log, the fields of the barrier and the places say the same. -/
structure History (participants : Nat) (s : Barrier) : Prop where
  suspended : ∀ w c, .suspended w c ∈ s.log ↔ (s.place c).owner = some w
  resumed : ∀ w c, .resumed w c ∈ s.log ↔ s.place c = .resumed w
  passed : ∀ w c, .passed w c ∈ s.log → s.completed = true
  once : ∀ w c, s.log.count (.resumed w c) ≤ 1
  arrived : s.arrived = s.arrivals % 2 ^ 32
  open_ : s.completed = false → ∀ c, (s.place c).released = false
  emptied : s.completed = true → s.waiters = []
  cause : s.completed = true → participants ≤ s.arrivals ∨ ∃ st, .aborted st ∈ s.log
  status : s.status = statusAfter s.log
  judged : Justified Judged s.log

open BarrierPlace (owner)

theorem history_fresh : History participants fresh where
  suspended w c := by simp [fresh, owner]
  resumed w c := by simp [fresh]
  passed w c h := by simp [fresh] at h
  once w c := by simp [fresh]
  arrived := rfl
  open_ _ _ := rfl
  emptied h := by cases h
  cause h := by cases h
  status := rfl
  judged := justified_nil

/-- Only the thread goes on. -/
theorem History.setPc {pc : BarrierPc} (h : History participants s) :
    History participants (s.setPc w pc) :=
  { h with }

variable {e : BarrierEvent}

section

variable (h : History participants s)
include h

theorem History.arrived_concat (he : e.isSuspended = false) :
    s.arrived = (s.log ++ [e]).countP isSuspended % 2 ^ 32 := by
  have hlast : [e].countP isSuspended = 0 := by simp [he]
  rw [countP_append, hlast]
  exact h.arrived

theorem History.cause_concat (hcompleted : s.completed = true) :
    participants ≤ (s.log ++ [e]).countP isSuspended ∨
      ∃ st, .aborted st ∈ s.log ++ [e] := by
  rcases h.cause hcompleted with hall | ⟨st, hst⟩
  · left
    rw [countP_append]
    exact Nat.le_trans hall (Nat.le_add_right _ _)
  · exact .inr ⟨st, mem_append_left _ hst⟩

theorem History.passed_concat
    (he : ∀ w c, e ≠ .passed w c) (w c : Nat) (hmem : .passed w c ∈ s.log ++ [e]) :
    s.completed = true := by
  rcases mem_append.mp hmem with hold | hlast
  · exact h.passed w c hold
  · exact absurd (mem_singleton.mp hlast).symm (he w c)

/-- An entry that resumes nobody. -/
theorem History.once_concat
    (he : ∀ w c, e ≠ .resumed w c) (w c : Nat) : (s.log ++ [e]).count (.resumed w c) ≤ 1 := by
  have hlast : [e].count (.resumed w c) = 0 :=
    List.count_eq_zero_of_not_mem fun hmem => he w c (mem_singleton.mp hmem).symm
  rw [count_append, hlast]
  exact h.once w c

/-- An entry that is no `Abort`. -/
theorem History.status_concat
    (he : ∀ st, e.apply st = st) : s.status = statusAfter (s.log ++ [e]) := by
  rw [statusAfter_concat, he]
  exact h.status

end

variable {q : BarrierPlace}

section

variable (h : History participants s)
include h

/-- The coroutine `c` gets a place, and an entry is made that suspends nobody else. -/
theorem History.suspended_concat (hothers : ∀ u v, v ≠ c → e ≠ .suspended u v)
    (hself : ∀ u, e = .suspended u c ∨ (s.place c).owner = some u ↔ q.owner = some u) (u v : Nat) :
    .suspended u v ∈ s.log ++ [e] ↔ (update s.place c q v).owner = some u := by
  rw [mem_append, h.suspended u v, mem_singleton, or_comm, eq_comm]
  by_cases hv : v = c
  · rw [hv, update_self]
    exact hself u
  · rw [update_of_ne hv, or_iff_right (hothers u v hv)]

/-- The same for the entries that resume. -/
theorem History.resumed_concat (hothers : ∀ u v, v ≠ c → e ≠ .resumed u v)
    (hself : ∀ u, e = .resumed u c ∨ s.place c = .resumed u ↔ q = .resumed u) (u v : Nat) :
    .resumed u v ∈ s.log ++ [e] ↔ update s.place c q v = .resumed u := by
  rw [mem_append, h.resumed u v, mem_singleton, or_comm, eq_comm]
  by_cases hv : v = c
  · rw [hv, update_self]
    exact hself u
  · rw [update_of_ne hv, or_iff_right (hothers u v hv)]

/-- An entry that moves nobody. -/
theorem History.recorded
    (hsuspended : ∀ u v, e ≠ .suspended u v) (hresumed : ∀ u v, e ≠ .resumed u v) (u v : Nat) :
    (.suspended u v ∈ s.log ++ [e] ↔ (s.place v).owner = some u) ∧
      (.resumed u v ∈ s.log ++ [e] ↔ s.place v = .resumed u) := by
  rw [mem_append, mem_append, mem_singleton, mem_singleton,
    or_iff_left (hsuspended u v).symm, or_iff_left (hresumed u v).symm]
  exact ⟨h.suspended u v, h.resumed u v⟩

/-- A coroutine that has been released goes from one list to another. -/
theorem History.relocate {pc : Nat → BarrierPc} {ready : Nat → List Nat}
    {mailbox : Nat → List BarrierWaiter}
    (hreleased : (s.place c).released = true) (howner : q.owner = (s.place c).owner)
    (hold : ∀ w, s.place c ≠ .resumed w) (hnew : ∀ w, q ≠ .resumed w) :
    History participants
      { s with pc := pc, ready := ready, mailbox := mailbox, place := update s.place c q } := by
  refine { h with
    suspended := fun w v => (h.suspended w v).trans ?_
    resumed := fun w v => (h.resumed w v).trans ?_
    open_ := fun hopen => absurd (h.open_ hopen c) (by simp [hreleased]) }
  · show _ ↔ (update s.place c q v).owner = some w
    by_cases hv : v = c
    · rw [hv, update_self, howner]
    · rw [update_of_ne hv]
  · show _ ↔ update s.place c q v = .resumed w
    by_cases hv : v = c
    · rw [hv, update_self]
      exact iff_of_false (hold w) (hnew w)
    · rw [update_of_ne hv]

theorem wake_history (hplaced : Placed s)
    (hstep : s.wake w = some s') : History participants s' := by
  rw [wake] at hstep
  split at hstep
  · cases hstep
    exact h.setPc
  · next x rest hpc =>
    have hhead := hplaced.head hpc
    split at hstep
    · next hown =>
      cases hstep
      exact h.relocate (by rw [hhead]; rfl) (by rw [hhead, hown]; rfl) (by simp [hhead]) (by simp)
    cases hstep
    exact h.relocate (by rw [hhead]; rfl) (by rw [hhead]; rfl) (by simp [hhead]) (by simp)
  · cases hstep

theorem deliver_history (hplaced : Placed s)
    (hstep : s.deliver v i = some s') : History participants s' := by
  rw [deliver] at hstep
  split at hstep
  · split at hstep
    · next x hx =>
      have hplace : s.place x.coroutine = .posted x.worker v :=
        ((hplaced.mailbox v).mem x).mp (mem_of_getElem? hx)
      cases hstep
      exact h.relocate (by rw [hplace]; rfl) (by rw [hplace]; rfl) (by simp [hplace]) (by simp)
    · cases hstep
  · cases hstep

theorem resume_history (hplaced : Placed s) (hc : (s.ready w)[i]? = some c) :
    History participants ({ s with ready := update s.ready w ((s.ready w).eraseIdx i)
      }.setPlace c (.resumed w) |>.record (.resumed w c) |>.setPc w (.reading c)) := by
  have hplace : s.place c = .ready w := ((hplaced.ready w).mem c).mp (mem_of_getElem? hc)
  have hnever : ∀ u, .resumed u c ∉ s.log := by
    intro u hmem
    have hresumed := (h.resumed u c).mp hmem
    rw [hplace] at hresumed
    cases hresumed
  refine History.setPc ⟨h.suspended_concat (by simp) fun u => ?_, h.resumed_concat ?_ fun u => ?_,
    h.passed_concat (by simp), fun u v => ?_, h.arrived_concat rfl, fun hopen => ?_, h.emptied,
    h.cause_concat, h.status_concat fun _ => rfl, h.judged.concat trivial⟩
  · rw [hplace]
    simp [owner]
  · rintro u v hv ⟨⟩
    exact hv rfl
  · rw [hplace]
    simp
  · show (s.log ++ [resumed w c]).count (resumed u v) ≤ 1
    rw [count_append]
    by_cases heq : resumed u v = .resumed w c
    · rw [heq, List.count_eq_zero_of_not_mem (hnever w), List.count_singleton_self]
    have hother : [resumed w c].count (.resumed u v) = 0 :=
      List.count_eq_zero_of_not_mem fun hmem => heq (mem_singleton.mp hmem)
    rw [hother]
    exact h.once u v
  · have := h.open_ hopen c
    rw [hplace] at this
    cases this

theorem read_history (hstep : s.read w = some s') : History participants s' := by
  rw [read] at hstep
  split at hstep
  · next c hpc =>
    cases hstep
    have hmoved := h.recorded (e := .observed c s.status) (by simp) (by simp)
    exact History.setPc ⟨fun u v => (hmoved u v).1, fun u v => (hmoved u v).2,
      h.passed_concat (by simp), h.once_concat (by simp), h.arrived_concat rfl, h.open_, h.emptied,
      h.cause_concat, h.status_concat fun _ => rfl, h.judged.concat h.status⟩
  · cases hstep

/-- A coroutine that comes too late to suspend. -/
theorem pass_history (hplaced : Placed s) (hcompleted : s.completed = true) :
    History participants ({ s with nextCoroutine := s.nextCoroutine + 1 }.setPlace s.nextCoroutine
      .passed |>.record (.passed w s.nextCoroutine)) := by
  have hnew := hplaced.new
  refine ⟨h.suspended_concat (by simp) fun u => ?_, h.resumed_concat (by simp) fun u => ?_,
    fun _ _ _ => hcompleted, h.once_concat (by simp), h.arrived_concat rfl, fun hopen => ?_,
    h.emptied, h.cause_concat, h.status_concat fun _ => rfl, h.judged.concat trivial⟩
  · rw [hnew]
    simp [owner]
  · rw [hnew]
    simp
  · rw [hcompleted] at hopen
    cases hopen

end

theorem arrivals_push (s : Barrier) (w : Nat) : (s.push w).arrivals = s.arrivals + 1 := by
  show (s.log ++ [suspended w s.nextCoroutine]).countP isSuspended = _
  rw [countP_append]
  rfl

theorem push_history (h : History participants s) (hplaced : Placed s)
    (hopen : s.completed = false) : History participants (s.push w) := by
  have hnew := hplaced.new
  refine ⟨h.suspended_concat ?_ fun u => ?_, h.resumed_concat (by simp) fun u => ?_,
    h.passed_concat (by simp), h.once_concat (by simp), ?_, fun _ v => ?_, fun hc => ?_,
    fun hc => ?_, h.status_concat fun _ => rfl, h.judged.concat trivial⟩
  · rintro u v hv ⟨⟩
    exact hv rfl
  · rw [hnew]
    simp [owner]
  · rw [hnew]
    simp
  · rw [arrivals_push]
    show (s.arrived + 1) % 2 ^ 32 = _
    rw [h.arrived, Nat.mod_add_mod]
  · show (update s.place s.nextCoroutine (.waiting w) v).released = false
    by_cases hv : v = s.nextCoroutine
    · rw [hv, update_self]
      rfl
    rw [update_of_ne hv]
    exact h.open_ hopen v
  · exact absurd (hopen.symm.trans hc) false_ne_true
  · exact absurd (hopen.symm.trans hc) false_ne_true

/-- The release, once there is a reason for it. -/
theorem release_history (h : History participants s)
    (hcause : participants ≤ s.arrivals ∨ ∃ st, .aborted st ∈ s.log) :
    History participants (s.release v) where
  suspended w c := by
    refine (h.suspended w c).trans ?_
    show _ ↔ ((s.place c).release v).owner = some w
    rw [BarrierPlace.owner_release]
  resumed w c := by
    refine (h.resumed w c).trans ?_
    show _ ↔ (s.place c).release v = .resumed w
    cases s.place c <;> simp [BarrierPlace.release]
  passed _ _ _ := rfl
  once := h.once
  arrived := h.arrived
  open_ hopen := by cases hopen
  emptied _ := rfl
  cause _ := hcause
  status := h.status
  judged := h.judged

theorem arrive_history (h : History participants s) (hplaced : Placed s)
    (hstep : s.arrive participants w = some s') : History participants s' := by
  rw [arrive] at hstep
  split at hstep
  · split at hstep
    · next hcompleted =>
      cases hstep
      exact (pass_history h hplaced hcompleted).setPc
    · next hopen =>
      have hpush := push_history (w := w) h hplaced (eq_false_iff.mpr hopen)
      split at hstep
      · next hall =>
        cases hstep
        refine release_history hpush (.inl ?_)
        rw [← hall, hpush.arrived]
        exact Nat.mod_le _ _
      cases hstep
      exact hpush
  · cases hstep

theorem stored_stored (st : Status) : stored (stored st) = stored st := by
  cases h : st.isOk with
  | true =>
    rw [stored_of_ok h]
    rfl
  | false => rw [stored_of_error h, stored_of_error h]

theorem abort_history (h : History participants s)
    (hstep : s.abort w st = some s') : History participants s' := by
  rw [abort] at hstep
  split at hstep
  · split at hstep
    · next hok =>
      cases hstep
      -- the entry comes first: the barrier is released with it in the log
      have hrecorded : History participants
          { s with status := stored st, log := s.log ++ [.aborted (stored st)] } := by
        have hmoved := h.recorded (e := .aborted (stored st)) (by simp) (by simp)
        refine ⟨fun u v => (hmoved u v).1, fun u v => (hmoved u v).2, h.passed_concat (by simp),
          h.once_concat (by simp), h.arrived_concat rfl, h.open_, h.emptied, h.cause_concat, ?_,
          h.judged.concat ?_⟩
        · show stored st = statusAfter (s.log ++ [.aborted (stored st)])
          rw [statusAfter_concat, ← h.status]
          show _ = if s.status.isOk then stored (stored st) else s.status
          rw [if_pos hok, stored_stored]
        · show (statusAfter s.log).isOk = true
          rw [← h.status]
          exact hok
      exact release_history hrecorded (.inr ⟨stored st, mem_append_right _ (mem_singleton.mpr rfl)⟩)
    · cases hstep
      exact h
  · cases hstep

/-! ## Runs -/

theorem step_placed {a : Label} (h : Placed s) (hstep : s.step participants a = some s') :
    Placed s' := by
  cases a with
  | arrive w =>
    simp only [step, arrive] at hstep
    split at hstep
    · next hrunning =>
      have hrest : (s.pc w).rest = [] := by
        rw [hrunning]
        rfl
      split at hstep
      · cases hstep
        have hpass := pass_placed h
        exact Placed.setPc { hpass with } hrest.symm
      split at hstep
      · cases hstep
        exact release_placed (push_placed h) hrest
      cases hstep
      exact push_placed h
    · cases hstep
  | abort w st =>
    simp only [step, abort] at hstep
    split at hstep
    · next hrunning =>
      split at hstep
      · cases hstep
        have hrecorded : Placed
            { s with status := stored st, log := s.log ++ [.aborted (stored st)] } :=
          { h with }
        exact release_placed hrecorded (by show (s.pc w).rest = []; rw [hrunning]; rfl)
      cases hstep
      exact h
    · cases hstep
  | wake w => exact wake_placed h hstep
  | deliver w i => exact deliver_placed h hstep
  | resume w i =>
    simp only [step, resume] at hstep
    split at hstep
    · next hrunning =>
      split at hstep
      · next c hc =>
        cases hstep
        exact resume_placed h hrunning hc
      · cases hstep
    · cases hstep
  | read w =>
    simp only [step, read] at hstep
    split at hstep
    · next c hpc =>
      cases hstep
      have hrecorded : Placed (s.record (.observed c s.status)) :=
        { h with }
      exact hrecorded.setPc (by show _ = (s.pc w).rest; rw [hpc]; rfl)
    · cases hstep

theorem step_history {a : Label} (h : History participants s) (hplaced : Placed s)
    (hstep : s.step participants a = some s') : History participants s' := by
  cases a with
  | arrive w => exact arrive_history h hplaced hstep
  | abort w st => exact abort_history h hstep
  | wake w => exact wake_history h hplaced hstep
  | deliver w i => exact deliver_history h hplaced hstep
  | resume w i =>
    simp only [step, resume] at hstep
    split at hstep
    · split at hstep
      · next c hc =>
        cases hstep
        exact resume_history h hplaced hc
      · cases hstep
    · cases hstep
  | read w => exact read_history h hstep

theorem reachable_inv (hs : (system participants).Reachable s) :
    Placed s ∧ History participants s := by
  refine Reachable.invariant (P := fun s => Placed s ∧ History participants s)
    (fun s hs => ?_) (fun s a s' hinv hstep => ?_) hs
  · cases hs
    exact ⟨placed_fresh, history_fresh⟩
  · exact ⟨step_placed hinv.1 hstep, step_history hinv.2 hinv.1 hstep⟩

/-! ## Results -/

/-- Nobody is released early, and everybody who has suspended is resumed once, at home. -/
structure Sound (participants : Nat) (s : Barrier) : Prop where
  early : ∀ w c, .resumed w c ∈ s.log ∨ .passed w c ∈ s.log →
    participants ≤ s.arrivals ∨ ∃ st, .aborted st ∈ s.log
  once : ∀ w c, s.log.count (.resumed w c) ≤ 1
  ownWorker : ∀ w c, .resumed w c ∈ s.log → .suspended w c ∈ s.log ∧
    ∀ w', .suspended w' c ∈ s.log → w' = w
  /-- Who has suspended is on the way: in `waiters_` while the barrier is closed, in the hands of a
      thread that wakes it, in the mailbox or the ready queue of its own worker, or resumed. -/
  conserved : ∀ w c, .suspended w c ∈ s.log →
    (s.completed = false ∧ ⟨w, c⟩ ∈ s.waiters) ∨ (∃ v, ⟨w, c⟩ ∈ (s.pc v).rest) ∨
      ⟨w, c⟩ ∈ s.mailbox w ∨ c ∈ s.ready w ∨ .resumed w c ∈ s.log
  /-- So once all of these are empty, all have been resumed. -/
  settled : s.completed = true → (∀ v, (s.pc v).rest = [] ∧ s.mailbox v = [] ∧ s.ready v = []) →
    ∀ w c, .suspended w c ∈ s.log → s.log.count (.resumed w c) = 1

theorem conserved_of_inv (hplaced : Placed s) (h : History participants s)
    (hc : .suspended w c ∈ s.log) :
    (s.completed = false ∧ ⟨w, c⟩ ∈ s.waiters) ∨ (∃ v, ⟨w, c⟩ ∈ (s.pc v).rest) ∨
      ⟨w, c⟩ ∈ s.mailbox w ∨ c ∈ s.ready w ∨ .resumed w c ∈ s.log := by
  have howner := (h.suspended w c).mp hc
  cases hplace : s.place c with
  | absent | passed =>
    rw [hplace] at howner
    cases howner
  | waiting u =>
    rw [hplace] at howner
    cases howner
    have hmem := (hplaced.waiters.mem ⟨w, c⟩).mpr hplace
    refine .inl ⟨eq_false_iff.mpr fun hcompleted => ?_, hmem⟩
    rw [h.emptied hcompleted] at hmem
    exact not_mem_nil hmem
  | waking u v =>
    rw [hplace] at howner
    cases howner
    exact .inr (.inl ⟨v, ((hplaced.waking v).mem ⟨w, c⟩).mpr hplace⟩)
  | posted u v =>
    rw [hplace] at howner
    cases howner
    obtain rfl := hplaced.home c w v hplace
    exact .inr (.inr (.inl (((hplaced.mailbox v).mem ⟨v, c⟩).mpr hplace)))
  | ready u =>
    rw [hplace] at howner
    cases howner
    exact .inr (.inr (.inr (.inl (((hplaced.ready w).mem c).mpr hplace))))
  | resumed u =>
    rw [hplace] at howner
    cases howner
    exact .inr (.inr (.inr (.inr ((h.resumed w c).mpr hplace))))

/-- **Main result**: the barrier is sound, and its waiters agree exactly in the runs in which no
    error arrives between two reads. -/
theorem reachable_barrier (hs : (system participants).Reachable s) :
    Sound participants s ∧ (Agree s.log ↔ ¬LateAbort s.log) := by
  obtain ⟨hplaced, h⟩ := reachable_inv hs
  refine ⟨⟨?_, h.once, ?_, ?_, ?_⟩, agree_iff h.judged⟩
  · intro w c hc
    refine h.cause ?_
    rcases hc with hresumed | hpassed
    · by_contra hopen
      have hreleased := h.open_ (eq_false_iff.mpr hopen) c
      rw [(h.resumed w c).mp hresumed] at hreleased
      cases hreleased
    · exact h.passed w c hpassed
  · intro w c hc
    have hplace := (h.resumed w c).mp hc
    refine ⟨(h.suspended w c).mpr (by rw [hplace]; rfl), fun w' hw' => ?_⟩
    have howner := (h.suspended w' c).mp hw'
    rw [hplace] at howner
    exact (some.inj howner).symm
  · exact fun w c hc => conserved_of_inv hplaced h hc
  · intro hcompleted hempty w c hc
    have hresumed : .resumed w c ∈ s.log := by
      rcases conserved_of_inv hplaced h hc with ⟨hopen, _⟩ | ⟨v, hv⟩ | hmail | hready | hdone
      · exact absurd (hopen.symm.trans hcompleted) false_ne_true
      · rw [(hempty v).1] at hv
        exact absurd hv not_mem_nil
      · rw [(hempty w).2.1] at hmail
        exact absurd hmail not_mem_nil
      · rw [(hempty w).2.2] at hready
        exact absurd hready not_mem_nil
      · exact hdone
    exact Nat.le_antisymm (h.once w c) (count_pos_iff.mpr hresumed)

/-- Two participants arrive, the first reads, an error comes, and the second reads. -/
def lateAbortLabels : List Label :=
  [.arrive 0, .arrive 1, .wake 1, .wake 1, .wake 1, .deliver 0 0, .resume 0 0, .read 0,
    .abort 2 ⟨.cancelled, "late"⟩, .resume 1 0, .read 1]

/-- **A late error splits the participants.**  The one that read before the `Abort` keeps OK, the
    one that reads after it gets the error, although both had been released together. -/
theorem late_abort_splits :
    ∃ s, (system 2).Reachable s ∧ .observed 0 .okStatus ∈ s.log ∧
      .observed 1 ⟨.cancelled, "late"⟩ ∈ s.log ∧ ¬Agree s.log := by
  have hrun : ∃ s ∈ (system 2).run fresh lateAbortLabels, .observed 0 .okStatus ∈ s.log ∧
      .observed 1 ⟨.cancelled, "late"⟩ ∈ s.log := by decide +kernel
  obtain ⟨s, hs, hfirst, hsecond⟩ := hrun
  refine ⟨s, Reachable.run (.init rfl) lateAbortLabels hs, hfirst, hsecond, fun hagree => ?_⟩
  exact absurd (hagree _ _ _ _ hfirst hsecond) (by decide)

theorem barrier_on_time :
    ∃ s, (system 2).run fresh (lateAbortLabels.eraseIdx 8) = some s ∧
      (s.log.count (.resumed 0 0) = 1 ∧ s.log.count (.resumed 1 1) = 1) ∧ Sound 2 s ∧
        (Agree s.log ↔ ¬LateAbort s.log) := by
  exact exists_run rfl reachable_barrier (by decide +kernel)

end Barrier

end Bycorf.Runtime
