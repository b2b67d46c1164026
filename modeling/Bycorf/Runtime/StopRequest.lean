/-
  A stop request and the worker it must reach: `RequestStop`, `NotifyWake`, `HandleWakePoll`,
  `Wait`.

  1. **The request** — from any thread and at any time: store the flag, look the wake eventfd up,
     write it.  A request that comes before the worker is bound finds no eventfd and only stores.
  2. **The worker** — `Init` arms the wake poll, `Run` tests the flag ONCE and then only in
     `HandleWakePoll`: there it reads the eventfd empty, and then tests and arms the poll again, in
     two steps that a request may fall between.  The arming touches only what is the worker's own,
     so a request between the test and the arming is one that comes behind both.  `Wait` blocks
     when the backend has nothing pending.
  3. **The argument** — from the write on, the eventfd stays readable until the worker reads it,
     and a worker that reads it is on its way to the test (`Inv.heard`).  A worker that has not
     been told to stop has its poll armed, so a blocked one has it in the kernel or its completion
     in the ring (`WakePolls.placed`).  The backend is the model of `IoUring`, with every action.
-/
import Bycorf.IoUring.WakePoll

namespace Bycorf.Runtime

open Lib IoUring Function

/-- Where a call of `RequestStop` is. -/
inductive RequestPc where
  | idle
  | lookup    -- `stop_requested_` is stored, `cross_core_` is read next
  | write     -- the eventfd is written next
  | returned
deriving DecidableEq, Repr

/-- Where the worker is.  `drain` and `notify` are inside `HandleWakePoll`, with the queue that the
    poll's completion is dispatched from. -/
inductive LoopPc where
  | created                -- before `Init`
  | ready                  -- between `Init` and `Run`
  | enter                  -- the first statement of `Run`
  | test                   -- the condition of the loop
  | round                  -- inside `RunOnce(true)`
  | drain (d : Dispatch)   -- the loop that reads the eventfd
  | notify (d : Dispatch)  -- `NotifyWake`, then `ArmWakePoll`
  | blocked                -- inside `io_uring_wait_cqe`
  | left                   -- past the loop, where `RunOnce(false)` never blocks
deriving DecidableEq, Repr

/-- A worker and the threads that stop it. -/
structure StopRequest (T : Type) where
  backend : Backend T
  crossCore : Option Int   -- the mailbox's `wake_fd_`, once `BindCrossCore` was called
  stopRequested : Bool
  stopping : Bool
  eventfd : Nat            -- the counter of the wake eventfd
  pc : LoopPc
  requests : Nat → RequestPc

/-- Past the test that `Run` starts with. -/
def LoopPc.looping : LoopPc → Bool
  | .created | .ready | .enter => false
  | _ => true

/-- Between the read of the eventfd and the test of the flag. -/
def LoopPc.handling : LoopPc → Bool
  | .drain _ | .notify _ => true
  | _ => false

/-- The counters at which nothing is known of the backend's queues. -/
def LoopPc.free : LoopPc → Bool
  | .drain _ | .notify _ | .blocked => false
  | _ => true

/-- `write` to an eventfd; at its maximum it fails with `EAGAIN` and leaves the counter. -/
def writeEventfd (counter : Nat) : Nat := if counter < 2 ^ 64 - 2 then counter + 1 else counter

theorem writeEventfd_pos (counter : Nat) : 0 < writeEventfd counter := by
  unfold writeEventfd
  split <;> omega

namespace StopRequest

open LoopPc (free handling looping)

variable {T : Type} [DecidableEq T] (L : Liburing T)

/-- A constructed worker, not bound to a runtime and not initialised. -/
def fresh : StopRequest T where
  backend := { Backend.fresh [] (-1) with initialized := false }
  crossCore := none
  stopRequested := false
  stopping := false
  eventfd := 0
  pc := .created
  requests _ := .idle

/-- The next step of the call of `RequestStop` by thread `t`. -/
def requestStop (t : Nat) (s : StopRequest T) : Option (StopRequest T) :=
  match s.requests t with
  | .idle =>
    some { s with stopRequested := true, requests := Function.update s.requests t .lookup }
  | .lookup =>
    match s.crossCore with
    | none => some { s with requests := Function.update s.requests t .returned }
    | some fd =>
      some { s with
        requests := Function.update s.requests t (if fd < 0 then .returned else .write) }
  | .write =>
    some { s with
      eventfd := writeEventfd s.eventfd
      requests := Function.update s.requests t .returned }
  | .returned => none

/-- `NotifyWake`. -/
def notifyWake (s : StopRequest T) : StopRequest T :=
  if s.stopRequested then { s with stopping := true } else s

/-- `IoUringBackend::Init` on the bound eventfd, with an SQ of `slots.length` entries. -/
def initBackend (slots : List (Sqe T)) (fd : Int) : Backend T :=
  ((Backend.fresh slots fd).armWakePoll L).2

/-- The end of `HandleWakePoll`: the flag is tested, and the backend learns the answer. -/
def handleWakePoll (d : Dispatch) (s : StopRequest T) : Option (StopRequest T) :=
  (s.backend.step L (Backend.dispatchAction s.notifyWake.stopping d)).map fun backend =>
    { s.notifyWake with backend := backend, pc := .round }

/-- `DispatchCqe` of the next completion of a queue: the wake poll's handler runs in steps of its
    own, every other one at once. -/
def dispatch (d : Dispatch) (s : StopRequest T) : Option (StopRequest T) :=
  match s.backend.next d with
  | none => none
  | some cqe =>
    if cqe.userData = .wakePoll then some { s with pc := .drain d }
    else (s.backend.step L (Backend.dispatchAction s.stopping d)).map fun backend =>
      { s with backend := backend, pc := .round }

/-- What can happen next. -/
inductive Label (T : Type) where
  | requestStop (t : Nat)                -- a thread inside `RequestStop`
  | wake                                 -- any other write to the wake eventfd
  | kernel (a : Backend.Action T)        -- a CQE arrives
  | bind (fd : Nat)                      -- `BindCrossCore`; the runtime's eventfd is open
  | init (slots : List (Sqe T))          -- `Init`
  | run                                  -- `Run` is called
  | notify                               -- its first `NotifyWake`
  | test                                 -- the condition of the loop
  | act (a : Backend.Action T)           -- `RunOnce` uses the backend
  | dispatch (d : Dispatch)              -- `DispatchCqe`
  | read                                 -- `HandleWakePoll` reads the eventfd
  | readFails                            -- with `EAGAIN`, or with an error it logs
  | handled                              -- `NotifyWake` and `ArmWakePoll` in it
  | wait                                 -- `Wait` is called
  | expire                               -- and ends without a completion
  | again                                -- `RunOnce` returns true
  | fail                                 -- or false
deriving DecidableEq

/-- One step. -/
def step (s : StopRequest T) : Label T → Option (StopRequest T)
  | .requestStop t => s.requestStop t
  | .wake => some { s with eventfd := writeEventfd s.eventfd }
  | .kernel a =>
    if a.ofKernel then (s.backend.step L a).map fun backend => { s with backend := backend }
    else none
  | .bind fd =>
    if s.pc = .created ∧ s.crossCore = none then some { s with crossCore := some fd } else none
  | .init slots =>
    match s.pc, s.crossCore with
    | .created, some fd => some { s with backend := initBackend L slots fd, pc := .ready }
    | _, _ => none
  | .run => if s.pc = .ready then some { s with pc := .enter } else none
  | .notify => if s.pc = .enter then some { s.notifyWake with pc := .test } else none
  | .test =>
    if s.pc = .test then some { s with pc := if s.stopping then .left else .round } else none
  | .act a =>
    if s.pc = .round ∧ a.quiet s.backend then
      (s.backend.step L a).map fun backend => { s with backend := backend }
    else none
  | .dispatch d =>
    if s.pc = .round ∧ d ≠ .wait ∨ s.pc = .blocked ∧ d = .wait then s.dispatch L d else none
  | .read =>
    match s.pc with
    | .drain _ => some { s with eventfd := 0 }
    | _ => none
  | .readFails =>
    match s.pc with
    | .drain d => some { s with pc := .notify d }
    | _ => none
  | .handled =>
    match s.pc with
    | .notify d => s.handleWakePoll L d
    | _ => none
  | .wait =>
    if s.pc = .round ∧ s.backend.phase = .idle then
      some { s with pc := if s.backend.hasPending then .round else .blocked }
    else none
  | .expire => if s.pc = .blocked then some { s with pc := .round } else none
  | .again => if s.pc = .round then some { s with pc := .test } else none
  | .fail => if s.pc = .round then some { s with pc := .left } else none

/-- Every run of a worker, with any number of threads that stop it. -/
def system : System (StopRequest T) (Label T) where
  init s := s = fresh
  step s a := s.step L a

/-- The wake poll of the eventfd that `RequestStop` writes is in the kernel. -/
def InKernel (s : StopRequest T) : Prop :=
  ∃ fd, s.crossCore = some fd ∧ ∃ e ∈ s.backend.kernel, e.sqe = Backend.wakePollSqe L fd

/-- The steps that end a wait and are not another thread's: the kernel posts, the worker returns. -/
def Label.ofWait : Label T → Bool
  | .kernel _ | .dispatch .wait => true
  | _ => false

/-! ## The worker's side -/

/-- The backend and the program counter agree. -/
structure Sound (s : StopRequest T) : Prop where
  bound : ∀ fd, s.crossCore = some fd → 0 ≤ fd
  opened : s.pc ≠ .created → s.crossCore = some s.backend.wakeEventFd
  polls : s.pc ≠ .created → s.backend.WakePolls L
  armed : s.pc ≠ .created → s.stopping = false → s.backend.wakePollArmed = true
  blocked : s.pc = .blocked → s.backend.phase = .idle ∧ s.backend.hasPending = false
  handling : ∀ d, s.pc = .drain d ∨ s.pc = .notify d →
    ∃ cqe, s.backend.next d = some cqe ∧ cqe.userData = .wakePoll

variable {L} {s : StopRequest T}

theorem Sound.nonneg (h : Sound L s) (hpc : s.pc ≠ .created) : 0 ≤ s.backend.wakeEventFd :=
  h.bound _ (h.opened hpc)

variable {s' : StopRequest T}

/-- Nothing here reads the flag, the eventfd or the threads. -/
theorem Sound.congr (h : Sound L s) (hpc : s'.pc = s.pc)
    (hcross : s'.crossCore = s.crossCore) (hbackend : s'.backend = s.backend)
    (hstop : s'.stopping = s.stopping) : Sound L s' where
  bound := hcross ▸ h.bound
  opened hc := by rw [hcross, hbackend]; exact h.opened (hpc ▸ hc)
  polls hc := by rw [hbackend]; exact h.polls (hpc ▸ hc)
  armed hc hs := by rw [hbackend]; exact h.armed (hpc ▸ hc) (hstop ▸ hs)
  blocked hb := by rw [hbackend]; exact h.blocked (hpc ▸ hb)
  handling d hd := by rw [hbackend]; exact h.handling d (hpc ▸ hd)

/-- The worker goes on, perhaps with a new backend, to a counter that says nothing about it. -/
theorem Sound.free (h : Sound L s) {pc : LoopPc} {backend : Backend T}
    {stopping : Bool} (hpc : s.pc ≠ .created) (hfree : pc.free = true)
    (hfd : backend.wakeEventFd = s.backend.wakeEventFd) (hpolls : backend.WakePolls L)
    (harmed : stopping = false → backend.wakePollArmed = true) :
    Sound L { s with backend := backend, stopping := stopping, pc := pc } where
  bound := h.bound
  opened _ := (h.opened hpc).trans (congrArg some hfd.symm)
  polls _ := hpolls
  armed _ := harmed
  blocked hb := by
    obtain rfl : pc = .blocked := hb
    cases hfree
  handling d hd := by
    rcases hd with hd | hd
    · obtain rfl : pc = .drain d := hd
      cases hfree
    obtain rfl : pc = .notify d := hd
    cases hfree

/-! ### Kernel steps -/

variable {b : Backend T} {a : Backend.Action T}

/-- A kernel step appends to the CQ and leaves the worker's queues alone. -/
theorem kernel_frame {b' : Backend T} (ha : a.ofKernel = true) (h : b.step L a = some b') :
    (∃ c, b'.cq = b.cq ++ [c]) ∧ b'.phase = b.phase ∧ b'.hasPending = b.hasPending := by
  cases a with
  | complete i res more buffer =>
    obtain ⟨e, _, rfl⟩ := map_eq_some_iff.mp h
    exact ⟨⟨_, rfl⟩, rfl, rfl⟩
  | ring =>
    cases h
    exact ⟨⟨_, rfl⟩, rfl, rfl⟩
  | _ => cases ha

variable {d : Dispatch}

/-- The completion that is dispatched next stays the next one. -/
theorem kernel_next {b' : Backend T} (ha : a.ofKernel = true)
    (h : b.step L a = some b') {cqe : Cqe T} (hnext : b.next d = some cqe) :
    b'.next d = some cqe := by
  obtain ⟨⟨c, hcq⟩, hphase, hpending⟩ := kernel_frame ha h
  have hhead : b.cq.head? = some cqe → b'.cq.head? = some cqe := by
    intro hold
    rw [hcq, List.head?_append, hold]
    rfl
  cases d with
  | wait =>
    simp only [Backend.next, hphase, hpending] at hnext ⊢
    split at hnext
    next hidle =>
      rw [if_pos hidle]
      exact hhead hnext
    next => cases hnext
  | reap =>
    simp only [Backend.next, hphase] at hnext ⊢
    split at hnext
    next hreap =>
      rw [if_pos hreap]
      exact hhead hnext
    next => cases hnext
  | deferred =>
    simp only [Backend.next, hphase] at hnext ⊢
    exact hnext

theorem Sound.kernel (h : Sound L s) (ha : a.ofKernel = true) (hb : s.backend.step L a = some b) :
    Sound L { s with backend := b } := by
  obtain ⟨hkeep, hflag⟩ := Backend.kernel_wakePolls ha hb
  obtain ⟨_, hphase, hpending⟩ := kernel_frame ha hb
  constructor
  case bound => exact h.bound
  case opened =>
    intro hpc
    exact (h.opened hpc).trans (congrArg some hkeep.fd.symm)
  case polls =>
    intro hpc
    exact hkeep.wakePolls (h.polls hpc) hflag
  case armed =>
    intro hpc hstop
    exact hflag.trans (h.armed hpc hstop)
  case blocked =>
    intro hpc
    exact ⟨hphase.trans (h.blocked hpc).1, hpending.trans (h.blocked hpc).2⟩
  case handling =>
    intro d hd
    obtain ⟨cqe, hnext, hdata⟩ := h.handling d hd
    exact ⟨cqe, kernel_next ha hb hnext, hdata⟩

/-! ### Steps of the worker -/

theorem initBackend_sound (slots : List (Sqe T)) {fd : Int} (hfd : 0 ≤ fd) :
    (initBackend L slots fd).WakePolls L ∧ (initBackend L slots fd).wakePollArmed = true ∧
      (initBackend L slots fd).wakeEventFd = fd := by
  have hfresh : (Backend.fresh slots fd : Backend T).WakePolls L :=
    ⟨rfl, nofun, (by intro e he; cases he)⟩
  exact Backend.armWakePoll_wakePolls hfresh hfd

omit [DecidableEq T] in
/-- `NotifyWake` writes `stopping_` and nothing else. -/
theorem notifyWake_eq (s : StopRequest T) :
    s.notifyWake = { s with stopping := s.stopRequested || s.stopping } := by
  obtain ⟨_, _, requested, _, _, _, _⟩ := s
  cases requested <;> rfl

/-- **A dispatch**: of the wake poll's completion, or of another. -/
theorem dispatch_cases (h : s.dispatch L d = some s') : ∃ cqe, s.backend.next d = some cqe ∧
      ((cqe.userData = .wakePoll ∧ s' = { s with pc := .drain d }) ∨
        (cqe.userData ≠ .wakePoll ∧ ∃ b,
          s.backend.step L (Backend.dispatchAction s.stopping d) = some b ∧
          s' = { s with backend := b, pc := .round })) := by
  unfold dispatch at h
  split at h
  next => cases h
  rename_i cqe hnext
  refine ⟨cqe, hnext, ?_⟩
  split at h
  next hwake =>
    cases h
    exact .inl ⟨hwake, rfl⟩
  next hother =>
    obtain ⟨b, hb, rfl⟩ := map_eq_some_iff.mp h
    exact .inr ⟨hother, b, hb, rfl⟩

theorem Sound.dispatch (h : Sound L s)
    (hpc : s.pc ≠ .created) (hs : s.dispatch L d = some s') : Sound L s' := by
  obtain ⟨cqe, hnext, ⟨hwake, rfl⟩ | ⟨hother, b, hb, rfl⟩⟩ := dispatch_cases hs
  · constructor
    case bound => exact h.bound
    case opened => exact fun _ => h.opened hpc
    case polls => exact fun _ => h.polls hpc
    case armed => exact fun _ => h.armed hpc
    case blocked =>
      intro hb
      cases hb
    case handling =>
      intro d' hd
      obtain rfl : d = d' := by simpa using hd
      exact ⟨cqe, hnext, hwake⟩
  · obtain ⟨b₁, htaken, hstep⟩ := Backend.dispatch_spec (h.polls hpc).initialized hnext
    obtain rfl := some.inj (hb.symm.trans (hstep s.stopping))
    obtain ⟨hpolls, hflag, hfd⟩ := htaken.other (h.polls hpc) hother s.stopping
    exact h.free hpc rfl hfd hpolls fun hstop => hflag.trans (h.armed hpc hstop)

theorem Sound.handled (h : Sound L s)
    (hpc : s.pc = .notify d) (hs : s.handleWakePoll L d = some s') : Sound L s' := by
  have hcreated : s.pc ≠ .created := by simp [hpc]
  obtain ⟨b, hb, rfl⟩ := map_eq_some_iff.mp hs
  obtain ⟨cqe, hnext, hwake⟩ := h.handling d (.inr hpc)
  obtain ⟨b₁, htaken, hstep⟩ := Backend.dispatch_spec (h.polls hcreated).initialized hnext
  obtain rfl := some.inj (hb.symm.trans (hstep _))
  obtain ⟨hpolls, harmed, hfd⟩ :=
    htaken.wake (h.polls hcreated) (h.nonneg hcreated) hwake s.notifyWake.stopping
  rw [notifyWake_eq] at hpolls harmed hfd ⊢
  exact h.free hcreated rfl hfd hpolls harmed

/-! ## The threads' side -/

omit [DecidableEq T] in
/-- **A step of `RequestStop`**: the store, the lookup that finds nothing to write, the one that
    does, or the write. -/
theorem requestStop_cases {t : Nat} (h : s.requestStop t = some s') :
    (s.requests t = .idle ∧ s' = { s with
      stopRequested := true, requests := update s.requests t .lookup }) ∨
    (s.requests t = .lookup ∧ (∀ fd, s.crossCore = some fd → fd < 0) ∧
      s' = { s with requests := update s.requests t .returned }) ∨
    (s.requests t = .lookup ∧ s' = { s with requests := update s.requests t .write }) ∨
    (s.requests t = .write ∧ s' = { s with
      eventfd := writeEventfd s.eventfd
      requests := update s.requests t .returned }) := by
  unfold requestStop at h
  split at h
  next hpc => exact .inl ⟨hpc, (some.inj h).symm⟩
  next hpc =>
    split at h
    next hnone =>
      refine .inr (.inl ⟨hpc, ?_, (some.inj h).symm⟩)
      intro fd hfd
      rw [hnone] at hfd
      cases hfd
    rename_i fd hsome
    by_cases hfd : fd < 0
    · rw [if_pos hfd] at h
      refine .inr (.inl ⟨hpc, ?_, (some.inj h).symm⟩)
      intro fd' hfd'
      rw [hsome] at hfd'
      cases hfd'
      exact hfd
    rw [if_neg hfd] at h
    exact .inr (.inr (.inl ⟨hpc, (some.inj h).symm⟩))
  next hpc => exact .inr (.inr (.inr ⟨hpc, (some.inj h).symm⟩))
  next => cases h

/-- The flag, the eventfd and the threads agree. -/
structure Heard (s : StopRequest T) : Prop where
  stored : ∀ t, s.requests t ≠ .idle → s.stopRequested = true
  heard : ∀ t, s.requests t = .returned → s.pc.looping = true → s.stopping = false →
    0 < s.eventfd ∨ s.pc.handling = true

theorem Heard.requestStop (hsound : Sound L s) (h : Heard s) {t : Nat}
    (hs : s.requestStop t = some s') : Heard s' := by
  obtain ⟨hpc, rfl⟩ | ⟨hpc, hnone, rfl⟩ | ⟨hpc, rfl⟩ | ⟨hpc, rfl⟩ := requestStop_cases hs
  · refine ⟨fun _ _ => rfl, fun t' ht' hloop hstop => ?_⟩
    by_cases heq : t' = t
    · subst heq
      simp at ht'
    · exact h.heard t' (by simpa [heq] using ht') hloop hstop
  · refine ⟨fun _ _ => h.stored t (by simp [hpc]), fun t' _ hloop _ => ?_⟩
    -- a worker that loops is bound, so the lookup cannot have failed
    have hcreated : s.pc ≠ .created := by
      intro hc
      rw [show s.pc = .created from hc] at hloop
      cases hloop
    have hneg := hnone _ (hsound.opened hcreated)
    have hnonneg := hsound.nonneg hcreated
    omega
  · refine ⟨fun _ _ => h.stored t (by simp [hpc]), fun t' ht' hloop hstop => ?_⟩
    by_cases heq : t' = t
    · subst heq
      simp at ht'
    · exact h.heard t' (by simpa [heq] using ht') hloop hstop
  · exact ⟨fun _ _ => h.stored t (by simp [hpc]), fun _ _ _ _ => .inl (writeEventfd_pos s.eventfd)⟩

omit [DecidableEq T] in
/-- The worker goes on: a state in which the request was heard before it is heard after. -/
theorem Heard.goOn (h : Heard s) (hreq : s'.requests = s.requests)
    (hflag : s'.stopRequested = s.stopRequested)
    (hstep : s'.pc.looping = true → s'.stopping = false → s.stopRequested = true →
      s.pc.looping = true ∧ s.stopping = false ∧
        (0 < s.eventfd ∨ s.pc.handling = true → 0 < s'.eventfd ∨ s'.pc.handling = true)) :
    Heard s' := by
  refine ⟨fun t ht => hflag ▸ h.stored t (hreq ▸ ht), fun t ht hloop hstop => ?_⟩
  have hret : s.requests t = .returned := hreq ▸ ht
  obtain ⟨hloop', hstop', himp⟩ := hstep hloop hstop (h.stored t (by simp [hret]))
  exact himp (h.heard t hret hloop' hstop')

/-! ## Every step -/

/-- Both sides. -/
structure Inv (L : Liburing T) (s : StopRequest T) : Prop extends Sound L s, Heard s

theorem fresh_inv : Inv L (fresh : StopRequest T) where
  bound _ h := by cases h
  opened h := absurd rfl h
  polls h := absurd rfl h
  armed h := absurd rfl h
  blocked h := by cases h
  handling d h := by rcases h with h | h <;> cases h
  stored _ h := absurd rfl h
  heard _ h := by cases h

section

variable (h : Inv L s)
include h

/-- The worker moves its counter within the loop, outside `HandleWakePoll`. -/
theorem Inv.move {pc : LoopPc} (hloop : s.pc.looping = true)
    (hhandling : s.pc.handling = false) (hfree : pc.free = true) :
    Inv L { s with pc := pc } := by
  have hcreated : s.pc ≠ .created := by
    intro hc
    rw [hc] at hloop
    cases hloop
  refine ⟨h.toSound.free hcreated hfree rfl (h.polls hcreated) (h.armed hcreated),
    h.toHeard.goOn rfl rfl fun _ hstop _ => ⟨hloop, hstop, ?_⟩⟩
  intro hor
  rw [hhandling] at hor
  exact .inl (hor.resolve_right false_ne_true)

theorem Inv.dispatch
    (hpc : s.pc = .round ∨ s.pc = .blocked) (hs : s.dispatch L d = some s') : Inv L s' := by
  have hcreated : s.pc ≠ .created := by rcases hpc with hpc | hpc <;> simp [hpc]
  have hloop : s.pc.looping = true := by rcases hpc with hpc | hpc <;> simp [hpc, looping]
  have hhandling : s.pc.handling = false := by
    rcases hpc with hpc | hpc <;> simp [hpc, handling]
  refine ⟨h.toSound.dispatch hcreated hs, ?_⟩
  obtain ⟨cqe, _, ⟨_, rfl⟩ | ⟨_, b, _, rfl⟩⟩ := dispatch_cases hs
  · exact h.toHeard.goOn rfl rfl fun _ hstop _ => ⟨hloop, hstop, fun _ => .inr rfl⟩
  refine h.toHeard.goOn rfl rfl fun _ hstop _ => ⟨hloop, hstop, fun hor => ?_⟩
  rw [hhandling] at hor
  exact .inl (hor.resolve_right false_ne_true)

/-- **The crux**: the eventfd is read empty before the flag is tested, so a request whose write
    was read is seen by the test. -/
theorem Inv.handled (hpc : s.pc = .notify d) (hs : s.handleWakePoll L d = some s') : Inv L s' := by
  refine ⟨h.toSound.handled hpc hs, ?_⟩
  obtain ⟨b, _, rfl⟩ := map_eq_some_iff.mp hs
  rw [notifyWake_eq]
  refine h.toHeard.goOn rfl rfl fun _ hstop hreq => ?_
  have hstop' : (s.stopRequested || s.stopping) = false := hstop
  rw [hreq] at hstop'
  cases hstop'

theorem Inv.enter (hpc : s.pc = .enter) : Inv L { s.notifyWake with pc := .test } := by
  have hcreated : s.pc ≠ .created := by simp [hpc]
  rw [notifyWake_eq]
  refine ⟨h.toSound.free hcreated rfl rfl (h.polls hcreated) fun hstop => ?_,
    h.toHeard.goOn rfl rfl fun _ hstop hreq => ?_⟩
  · exact h.armed hcreated (Bool.or_eq_false_iff.mp hstop).2
  · have hstop' : (s.stopRequested || s.stopping) = false := hstop
    rw [hreq] at hstop'
    cases hstop'

theorem Inv.init {slots : List (Sqe T)} {fd : Int} (hcross : s.crossCore = some fd) :
    Inv L { s with backend := initBackend L slots fd, pc := .ready } := by
  obtain ⟨hpolls, harmed, hfd⟩ := initBackend_sound slots (h.bound fd hcross)
  refine ⟨⟨h.bound, ?_, fun _ => hpolls, fun _ _ => harmed, nofun, ?_⟩,
    h.toHeard.goOn rfl rfl nofun⟩
  · intro _
    exact hcross.trans (congrArg some hfd.symm)
  · rintro d (hd | hd) <;> cases hd

theorem Inv.act (hpc : s.pc = .round)
    (ha : a.quiet s.backend = true) (hb : s.backend.step L a = some b) :
    Inv L { s with backend := b } := by
  have hcreated : s.pc ≠ .created := by simp [hpc]
  obtain ⟨hkeep, hflag⟩ := Backend.quiet_wakePolls ha hb
  refine ⟨h.toSound.free hcreated (by simp [hpc, free]) hkeep.fd
    (hkeep.wakePolls (h.polls hcreated) hflag) fun hstop => hflag.trans (h.armed hcreated hstop),
    h.toHeard.goOn rfl rfl fun hloop hstop _ => ⟨hloop, hstop, id⟩⟩

/-- `Wait` blocks with nothing pending, or does not block. -/
theorem Inv.wait (hpc : s.pc = .round) (hidle : s.backend.phase = .idle) :
    Inv L { s with pc := if s.backend.hasPending then .round else .blocked } := by
  cases hpending : s.backend.hasPending with
  | true => exact h.move (by simp [hpc, looping]) (by simp [hpc, handling]) rfl
  | false =>
    have hcreated : s.pc ≠ .created := by simp [hpc]
    refine ⟨⟨h.bound, fun _ => h.opened hcreated, fun _ => h.polls hcreated,
      fun _ => h.armed hcreated, fun _ => ⟨hidle, hpending⟩, ?_⟩,
      h.toHeard.goOn rfl rfl fun _ hstop _ => ⟨by simp [hpc, looping], hstop, ?_⟩⟩
    · rintro d (hd | hd) <;> cases hd
    · intro hor
      rw [show s.pc.handling = false by simp [hpc, handling]] at hor
      exact .inl (hor.resolve_right false_ne_true)

theorem step_inv {a : Label T} (hs : s.step L a = some s') : Inv L s' := by
  cases a with
  | requestStop t =>
    refine ⟨?_, h.toHeard.requestStop h.toSound hs⟩
    obtain ⟨_, rfl⟩ | ⟨_, _, rfl⟩ | ⟨_, rfl⟩ | ⟨_, rfl⟩ := requestStop_cases hs
    all_goals exact h.toSound.congr rfl rfl rfl rfl
  | wake =>
    cases hs
    exact ⟨h.toSound.congr rfl rfl rfl rfl, h.toHeard.goOn rfl rfl fun hloop hstop _ =>
      ⟨hloop, hstop, fun _ => .inl (writeEventfd_pos s.eventfd)⟩⟩
  | kernel a =>
    obtain ⟨ha, hs⟩ := ite_none_right_eq_some.mp hs
    obtain ⟨b, hb, rfl⟩ := map_eq_some_iff.mp hs
    exact ⟨h.toSound.kernel ha hb, h.toHeard.goOn rfl rfl fun hloop hstop _ => ⟨hloop, hstop, id⟩⟩
  | bind fd =>
    refine of_guard hs fun hpc => ?_
    refine ⟨⟨?_, absurd hpc.1, absurd hpc.1,
      absurd hpc.1, h.blocked, h.handling⟩,
      h.toHeard.goOn rfl rfl fun hloop hstop _ => ⟨hloop, hstop, id⟩⟩
    intro fd' hfd'
    obtain rfl : (fd : Int) = fd' := some.inj hfd'
    exact Int.natCast_nonneg fd
  | init slots =>
    simp only [step] at hs
    split at hs
    next fd _ hcross =>
      cases hs
      exact h.init hcross
    next => cases hs
  | run =>
    refine of_guard hs fun hpc => ?_
    have hcreated : s.pc ≠ .created := by simp [hpc]
    exact ⟨h.toSound.free hcreated rfl rfl (h.polls hcreated) (h.armed hcreated),
      h.toHeard.goOn rfl rfl nofun⟩
  | notify =>
    refine of_guard hs fun hpc => ?_
    exact h.enter hpc
  | test =>
    refine of_guard hs fun hpc => ?_
    refine h.move (by simp [hpc, looping]) (by simp [hpc, handling]) ?_
    split <;> rfl
  | act a =>
    obtain ⟨hpc, hs⟩ := ite_none_right_eq_some.mp hs
    obtain ⟨b, hb, rfl⟩ := map_eq_some_iff.mp hs
    exact h.act hpc.1 hpc.2 hb
  | dispatch d =>
    obtain ⟨hpc, hs⟩ := ite_none_right_eq_some.mp hs
    exact h.dispatch (hpc.imp And.left And.left) hs
  | read =>
    simp only [step] at hs
    split at hs
    next d hpc =>
      cases hs
      refine ⟨h.toSound.congr rfl rfl rfl rfl, h.toHeard.goOn rfl rfl fun hloop hstop _ =>
        ⟨hloop, hstop, fun _ => .inr ?_⟩⟩
      simp [hpc, handling]
    next => cases hs
  | readFails =>
    simp only [step] at hs
    split at hs
    next d hpc =>
      cases hs
      have hcreated : s.pc ≠ .created := by simp [hpc]
      refine ⟨⟨h.bound, fun _ => h.opened hcreated, fun _ => h.polls hcreated,
        fun _ => h.armed hcreated, nofun, ?_⟩,
        h.toHeard.goOn rfl rfl fun _ hstop _ =>
          ⟨by simp [hpc, looping], hstop, fun _ => .inr rfl⟩⟩
      intro d' hd
      obtain rfl : d = d' := by simpa using hd
      exact h.handling d (.inl hpc)
    next => cases hs
  | handled =>
    simp only [step] at hs
    split at hs
    next d hpc => exact h.handled hpc hs
    next => cases hs
  | wait =>
    refine of_guard hs fun hpc => ?_
    exact h.wait hpc.1 hpc.2
  | expire | again | fail =>
    refine of_guard hs fun hpc => ?_
    exact h.move (by simp [hpc, looping]) (by simp [hpc, handling]) rfl

end

theorem reachable_inv (h : (system L).Reachable s) : Inv L s := by
  refine Reachable.invariant ?_ ?_ h
  · rintro s rfl
    exact fresh_inv
  · intro s a s' hinv hs
    exact step_inv hinv hs

/-! ## A stop request is never lost -/

/-- A blocked worker with a CQE in the ring returns from its wait. -/
theorem Inv.returns (h : Inv L s) (hpc : s.pc = .blocked) (hcq : s.backend.cq ≠ []) :
    ∃ t, (system L).run s [.dispatch .wait] = some t ∧ t.pc ≠ .blocked := by
  obtain ⟨cqe, hhead⟩ : ∃ cqe, s.backend.cq.head? = some cqe := by
    cases hs : s.backend.cq with
    | nil => exact absurd hs hcq
    | cons c cq => exact ⟨c, rfl⟩
  have hnext : s.backend.next .wait = some cqe := by
    rw [Backend.next, if_pos (h.blocked hpc)]
    exact hhead
  have hcreated : s.pc ≠ .created := by simp [hpc]
  obtain ⟨b₁, _, hstep⟩ := Backend.dispatch_spec (h.polls hcreated).initialized hnext
  have hrun : (system L).run s [.dispatch .wait] = s.dispatch L .wait := by
    show (s.step L (.dispatch .wait)).bind some = _
    rw [Option.bind_fun_some]
    exact if_pos (.inr ⟨hpc, rfl⟩)
  rw [hrun, StopRequest.dispatch, hnext]
  dsimp only
  split
  · exact ⟨_, rfl, LoopPc.noConfusion⟩
  rw [hstep]
  exact ⟨_, rfl, LoopPc.noConfusion⟩

/-- A blocked worker whose poll is in the kernel returns once the kernel posts its completion. -/
theorem Inv.wakes (h : Inv L s) (hpc : s.pc = .blocked) {e : Entry T} (he : e ∈ s.backend.kernel) :
    ∃ i t, (system L).run s [.kernel (.complete i 1 false none), .dispatch .wait] = some t ∧
      t.pc ≠ .blocked := by
  obtain ⟨i, hi⟩ := List.mem_iff_getElem?.mp he
  let b : Backend T := { s.backend with
    kernel := s.backend.kernel.eraseIdx i
    cq := s.backend.cq ++ [⟨e.sqe.userData, 1, false, none, e.op⟩] }
  have hb : s.backend.step L (.complete i 1 false none) = some b := by
    show s.backend.complete i 1 false none = _
    rw [Backend.complete, hi]
    rfl
  have hstep : s.step L (.kernel (.complete i 1 false none)) = some { s with backend := b } := by
    show Option.map _ (s.backend.step L (.complete i 1 false none)) = _
    rw [hb]
    rfl
  have hinv : Inv L { s with backend := b } := step_inv h hstep
  obtain ⟨t, hrun, ht⟩ := hinv.returns hpc (by simp [b])
  refine ⟨i, t, ?_, ht⟩
  show (s.step L (.kernel (.complete i 1 false none))).bind _ = _
  rw [hstep]
  exact hrun

/-- **A stop request is never lost.**  Whenever `RequestStop` has returned and `stopping_` is still
    false, inside `Run` or before it, the worker is not blocked, or its wake poll is in the kernel
    with the eventfd readable, or a completion of the poll waits for its dispatch; and a blocked
    worker is released by the completion of that poll, with no further step of any thread. -/
theorem reachable_heard {s : StopRequest T} (h : (system L).Reachable s) {t : Nat}
    (hreturned : s.requests t = .returned) (hstop : s.stopping = false) :
    (s.pc ≠ .blocked ∨ (s.InKernel L ∧ 0 < s.eventfd) ∨ s.backend.wakeUndispatched = true) ∧
      (s.pc = .blocked → ∃ labels t, (∀ l ∈ labels, l.ofWait = true) ∧
        (system L).run s labels = some t ∧ t.pc ≠ .blocked) := by
  have hinv := reachable_inv h
  by_cases hpc : s.pc = .blocked
  case neg => exact ⟨.inl hpc, fun hb => absurd hb hpc⟩
  case pos =>
    have hcreated : s.pc ≠ .created := by simp [hpc]
    have hreadable : 0 < s.eventfd := by
      have hheard := hinv.heard t hreturned (by simp [hpc, looping]) hstop
      exact hheard.resolve_right (by simp [hpc, handling])
    rcases (hinv.polls hcreated).placed (hinv.armed hcreated hstop) (hinv.blocked hpc).1
      (hinv.blocked hpc).2 with ⟨e, he, hsqe⟩ | ⟨c, hc, hdata⟩
    · obtain ⟨i, t, hlabels, ht⟩ := hinv.wakes hpc he
      refine ⟨.inr (.inl ⟨⟨_, hinv.opened hcreated, e, he, hsqe⟩, hreadable⟩),
        fun _ => ⟨_, t, ?_, hlabels, ht⟩⟩
      intro l hl
      simp only [mem_cons, not_mem_nil, or_false] at hl
      rcases hl with rfl | rfl <;> rfl
    obtain ⟨t, hlabels, ht⟩ := hinv.returns hpc (List.ne_nil_of_mem hc)
    refine ⟨.inr (.inr ?_), fun _ => ⟨_, t, ?_, hlabels, ht⟩⟩
    · have hany : s.backend.cq.any (fun c => c.userData = .wakePoll) = true :=
        List.any_eq_true.mpr ⟨c, hc, by simpa using hdata⟩
      simp [Backend.wakeUndispatched, hany]
    · intro l hl
      obtain rfl := mem_singleton.mp hl
      rfl

/-- The request comes while the worker is blocked with its poll in the kernel. -/
def stopWhileParked : List (Label Nat) :=
  [.bind 7, .init [Sqe.zero, Sqe.zero], .run, .notify, .test, .act (.submit 1 1), .wait,
    .requestStop 0, .requestStop 0, .requestStop 0]

theorem heard_while_parked : ∃ s ∈ (system (Liburing.standard Nat)).run fresh stopWhileParked,
      s.pc = .blocked ∧ s.InKernel (Liburing.standard Nat) ∧ 0 < s.eventfd := by
  have hrun : ∃ s ∈ (system (Liburing.standard Nat)).run fresh stopWhileParked,
      s.requests 0 = .returned ∧ s.pc = .blocked ∧ s.stopping = false ∧
        s.backend.wakeUndispatched = false := by
    decide +kernel
  obtain ⟨s, hs, hreturned, hpc, hstop, hnone⟩ := hrun
  have hreach := Reachable.run (.init rfl) stopWhileParked hs
  have hheard := (reachable_heard hreach hreturned hstop).1
  rcases hheard with hnot | hkernel | hcqe
  · exact absurd hpc hnot
  · exact ⟨s, hs, hpc, hkernel⟩
  · rw [hnone] at hcqe
    cases hcqe

end StopRequest

end Bycorf.Runtime
