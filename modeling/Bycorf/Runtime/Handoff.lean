/-
  `CrossWorkerMutex` is a FIFO mutex: the invariant behind it, and what holds in every run.

  1. **The token** — ownership is ONE token (`Token`): with a coroutine, with a releaser that has
     taken a waiter off the list, in a notification, or in a ready queue.  `Ownership` says that
     the program points, the lanes and the ready queues agree with the token.
  2. **The list** — `Waiting` says that head, tail and links spell the list of the queued waiters,
     and that a waiter is in the list or has been given the token, never both.
  3. **The crux (`Inv.handoff`)** — a releaser moves the token to the head of the list WITHOUT
     clearing `held_`; the head has left the queue guard by then, because the releaser holds it.
  4. **Every run** — `step_inv` goes through the steps; `Passes` says who can be the next owner.
-/
import Bycorf.Runtime.Mutex

namespace Bycorf.Runtime.Mutex

open Lib Function
open Pc (hands owns waits)

/-! ## The token -/

/-- Who has the mutex. -/
inductive Token where
  | holder (c : Nat)        -- a coroutine between acquiring and releasing
  | carried (d c : Nat)     -- `d` has taken `c` off the list and has not woken it yet
  | posted (c : Nat)        -- a notification for `c` is on its way
  | ready (c : Nat)         -- `c` is in its worker's ready queue
deriving DecidableEq

/-- The waiter the mutex is on its way to. -/
def handed : Option Token → Option Nat
  | some (.carried _ c) | some (.posted c) | some (.ready c) => some c
  | _ => none

/-- Who has the mutex, or is about to. -/
def ownerOf : Option Token → Option Nat
  | some (.holder c) | some (.carried _ c) | some (.posted c) | some (.ready c) => some c
  | none => none

/-- The next owner is the old one, or nobody, or takes a mutex that was free, or is the first of
    the list. -/
def Passes (t : Option Token) (l : List Nat) (t' : Option Token) : Prop :=
  ownerOf t' = ownerOf t ∨ t' = none ∨ t = none ∨ ownerOf t' = l.head?

/-- The notification that a posted hand-over is. -/
def lanesOf (home : Nat → Nat) (t : Option Token) (w : Nat) : List Notification :=
  match t with
  | some (.posted c) => if w = home c then [⟨home c, some c⟩] else []
  | _ => []

/-- The coroutine that a hand-over has made ready. -/
def readyOf (home : Nat → Nat) (t : Option Token) (w : Nat) : List Nat :=
  match t with
  | some (.ready c) => if w = home c then [c] else []
  | _ => []

/-! ## The invariant -/

/-- The queue guard is a lock. -/
structure Guard (m : Mutex) : Prop where
  locked : ∀ c, (m.pc c).guarded = true → m.queueLock = true
  unique : ∀ c d, (m.pc c).guarded = true → (m.pc d).guarded = true → c = d

/-- Coroutines run on their own worker. -/
structure Threads (home : Nat → Nat) (m : Mutex) : Prop where
  runs : ∀ c, (m.pc c).onThread = true → m.running (home c) = some c
  thread : ∀ w c, m.running w = some c → home c = w ∧ m.pc c ≠ .suspended

/-- Program points, lanes and ready queues agree on who has the mutex. -/
structure Ownership (home : Nat → Nat) (m : Mutex) (t : Option Token) : Prop where
  owns : ∀ c, (m.pc c).owns = true ↔ t = some (.holder c)
  hands : ∀ d c, (m.pc d).hands = some c ↔ t = some (.carried d c)
  lanes : ∀ w, m.lanes w = lanesOf home t w
  ready : ∀ w, m.ready w = readyOf home t w
  held : m.held = t.isSome

/-- The queued waiters `l`, and the one the mutex is on its way to. -/
structure Waiting (home : Nat → Nat) (m : Mutex) (t : Option Token) (l : List Nat) : Prop where
  queue : IsQueue (fun c => (m.waiters c).next) m.waitersHead m.waitersTail l
  idle : t = none → l = []
  waits : ∀ c, (m.pc c).waits = true ↔ c ∈ l ∨ handed t = some c
  apart : ∀ c ∈ l, handed t ≠ some c
  left : ∀ c, handed t = some c → m.pc c ≠ .leaveQueued
  node : ∀ c, (m.pc c).waits = true ∨ m.pc c = .lockQueue ∨ m.pc c = .acquireOrQueue →
    (m.waiters c).worker = home c ∧ (m.waiters c).handle = some c
  unlinked : ∀ c, m.pc c = .lockQueue ∨ m.pc c = .acquireOrQueue → (m.waiters c).next = none

/-- Waiters are given the mutex, and resumed, in the order in which they were queued. -/
structure History (home : Nat → Nat) (m : Mutex) (t : Option Token) (l : List Nat) : Prop where
  arrivals : m.arrivals = m.grants ++ l
  grants : m.grants = m.resumes.map Prod.fst ++ (handed t).toList
  resumes : ∀ x ∈ m.resumes, x.2 = home x.1

/-- The lock of the queue, the threads, and who owns the mutex. -/
structure Inv (home : Nat → Nat) (m : Mutex) (t : Option Token) (l : List Nat) : Prop where
  guard : Guard m
  threads : Threads home m
  ownership : Ownership home m t
  waiting : Waiting home m t l
  history : History home m t l

theorem fresh_inv (home : Nat → Nat) (memory : Nat → Waiter) : Inv home (fresh memory) none [] := by
  refine ⟨⟨?_, ?_⟩, ⟨?_, ?_⟩, ⟨?_, ?_, fun w => rfl, fun w => rfl, rfl⟩,
    ⟨IsQueue.empty _, fun _ => rfl, ?_, ?_, ?_, ?_, ?_⟩, ⟨rfl, rfl, ?_⟩⟩
  all_goals intros
  all_goals simp_all [fresh, Pc.guarded, Pc.onThread, owns, hands, waits, handed]

section Steps

variable {home : Nat → Nat} {m m' : Mutex} {t t' : Option Token} {l l' : List Nat}
  {c : Nat} {p : Pc}

/-! ### The guard -/

theorem Guard.enter (h : Guard m) (hfree : m.queueLock = false) (hlock : m'.queueLock = true)
    (hpc : m'.pc = update m.pc c p) : Guard m' := by
  have hnone : ∀ d, (m.pc d).guarded = true → False := by
    intro d hd
    have := h.locked d hd
    rw [hfree] at this
    cases this
  have honly : ∀ d, (m'.pc d).guarded = true → d = c := by
    intro d hd
    by_contra hne
    rw [hpc, update_of_ne hne] at hd
    exact hnone d hd
  exact ⟨fun _ _ => hlock, fun d e hd he => (honly d hd).trans (honly e he).symm⟩

theorem Guard.leave (h : Guard m) (hc : (m.pc c).guarded = true) (hp : p.guarded = false)
    (hpc : m'.pc = update m.pc c p) : Guard m' := by
  have hnone : ∀ d, (m'.pc d).guarded = true → False := by
    intro d hd
    rw [hpc] at hd
    by_cases hdc : d = c
    · rw [hdc, update_self, hp] at hd
      cases hd
    rw [update_of_ne hdc] at hd
    exact hdc (h.unique d c hd hc)
  exact ⟨fun d hd => (hnone d hd).elim, fun d e hd _ => (hnone d hd).elim⟩

theorem Guard.keep (h : Guard m) (hp : p.guarded = (m.pc c).guarded)
    (hlock : m'.queueLock = m.queueLock) (hpc : m'.pc = update m.pc c p) : Guard m' := by
  have hsame : ∀ d, (m'.pc d).guarded = (m.pc d).guarded := by
    intro d
    rw [hpc]
    by_cases hdc : d = c
    · rw [hdc, update_self, hp]
    · rw [update_of_ne hdc]
  refine ⟨fun d hd => ?_, fun d e hd he => ?_⟩
  · rw [hlock]
    exact h.locked d (hsame d ▸ hd)
  · exact h.unique d e (hsame d ▸ hd) (hsame e ▸ he)

/-! ### The threads -/

/-- The coroutine moves to `p`, and its thread runs `o` then. -/
theorem Threads.set {o : Option Nat} (h : Threads home m)
    (hrun : ∀ d, m.running (home c) = some d → d = c) (hon : p.onThread = true → o = some c)
    (ho : ∀ d, o = some d → d = c ∧ p ≠ .suspended)
    (hrunning : m'.running = update m.running (home c) o) (hpc : m'.pc = update m.pc c p) :
    Threads home m' := by
  refine ⟨fun d hd => ?_, fun w d hd => ?_⟩
  · by_cases hdc : d = c
    · rw [hdc, hpc, update_self] at hd
      rw [hdc, hrunning, update_self]
      exact hon hd
    rw [hpc, update_of_ne hdc] at hd
    have hrun' := h.runs d hd
    have hw : home d ≠ home c := fun heq => hdc (hrun d (heq ▸ hrun'))
    rw [hrunning, update_of_ne hw]
    exact hrun'
  · by_cases hw : w = home c
    · rw [hw, hrunning, update_self] at hd
      obtain ⟨rfl, hp⟩ := ho d hd
      rw [hpc, update_self]
      exact ⟨hw.symm, hp⟩
    rw [hrunning, update_of_ne hw] at hd
    have hdc : d ≠ c := by
      rintro rfl
      exact hw (h.thread w d hd).1.symm
    rw [hpc, update_of_ne hdc]
    exact h.thread w d hd

/-- A step on the thread that does not leave it. -/
theorem Threads.keep (h : Threads home m) (hrun : m.running (home c) = some c)
    (hp : p ≠ .suspended) (hrunning : m'.running = m.running)
    (hpc : m'.pc = update m.pc c p) : Threads home m' := by
  refine h.set (fun d hd => some.inj (hd.symm.trans hrun)) (fun _ => rfl)
    (fun d hd => ⟨(some.inj hd).symm, hp⟩) ?_ hpc
  rw [hrunning, ← hrun, update_eq_self]

/-- The coroutine leaves its thread. -/
theorem Threads.stop (h : Threads home m) (hrun : m.running (home c) = some c)
    (hp : p.onThread = false) (hrunning : m'.running = update m.running (home c) none)
    (hpc : m'.pc = update m.pc c p) : Threads home m' :=
  h.set (fun d hd => some.inj (hd.symm.trans hrun))
    (fun hon => absurd (hp.symm.trans hon) Bool.false_ne_true) (by rintro d ⟨⟩) hrunning hpc

/-- A free thread takes up the coroutine. -/
theorem Threads.start (h : Threads home m) (hrun : m.running (home c) = none)
    (hp : p ≠ .suspended) (hrunning : m'.running = update m.running (home c) (some c))
    (hpc : m'.pc = update m.pc c p) : Threads home m' :=
  h.set (fun d hd => by rw [hrun] at hd; cases hd) (fun _ => rfl)
    (fun d hd => ⟨(some.inj hd).symm, hp⟩) hrunning hpc

/-! ### Steps that move no token -/

theorem Ownership.quiet (h : Ownership home m t) (howns : p.owns = (m.pc c).owns)
    (hhands : p.hands = (m.pc c).hands) (hpc : m'.pc = update m.pc c p) (hheld : m'.held = m.held)
    (hlanes : m'.lanes = m.lanes) (hready : m'.ready = m.ready) : Ownership home m' t := by
  have hsame : ∀ d, (m'.pc d).owns = (m.pc d).owns ∧ (m'.pc d).hands = (m.pc d).hands := by
    intro d
    rw [hpc]
    by_cases hdc : d = c
    · rw [hdc, update_self]
      exact ⟨howns, hhands⟩
    rw [update_of_ne hdc]
    exact ⟨rfl, rfl⟩
  refine ⟨fun d => ?_, fun d e => ?_, fun w => ?_, fun w => ?_, ?_⟩
  · rw [(hsame d).1]
    exact h.owns d
  · rw [(hsame d).2]
    exact h.hands d e
  · rw [hlanes]
    exact h.lanes w
  · rw [hready]
    exact h.ready w
  · rw [hheld]
    exact h.held

theorem Waiting.quiet (h : Waiting home m t l) (hwaits : p.waits = (m.pc c).waits)
    (hpc : m'.pc = update m.pc c p) (hhead : m'.waitersHead = m.waitersHead)
    (htail : m'.waitersTail = m.waitersTail) (hwaiters : m'.waiters = m.waiters)
    (hp : p = .lockQueue ∨ p = .acquireOrQueue → m.pc c = .lockQueue ∨ m.pc c = .acquireOrQueue)
    (hleft : p = .leaveQueued → m.pc c = .leaveQueued) : Waiting home m' t l := by
  have hpoint : ∀ d, (m'.pc d).waits = (m.pc d).waits ∧
      (m'.pc d = .lockQueue ∨ m'.pc d = .acquireOrQueue →
        m.pc d = .lockQueue ∨ m.pc d = .acquireOrQueue) ∧
      (m'.pc d = .leaveQueued → m.pc d = .leaveQueued) := by
    intro d
    rw [hpc]
    by_cases hdc : d = c
    · rw [hdc, update_self]
      exact ⟨hwaits, hp, hleft⟩
    rw [update_of_ne hdc]
    exact ⟨rfl, id, id⟩
  refine ⟨?_, h.idle, fun d => ?_, h.apart, fun d hd hleave => ?_, fun d hd => ?_, fun d hd => ?_⟩
  · rw [hwaiters, hhead, htail]
    exact h.queue
  · rw [(hpoint d).1]
    exact h.waits d
  · exact h.left d hd ((hpoint d).2.2 hleave)
  · rw [hwaiters]
    refine h.node d ?_
    rw [← (hpoint d).1]
    rcases hd with hd | hd
    · exact .inl hd
    · exact .inr ((hpoint d).2.1 hd)
  · rw [hwaiters]
    exact h.unlinked d ((hpoint d).2.1 hd)

theorem History.same (h : History home m t l) (harr : m'.arrivals = m.arrivals)
    (hgrants : m'.grants = m.grants) (hres : m'.resumes = m.resumes) : History home m' t l := by
  refine ⟨?_, ?_, ?_⟩
  · rw [harr, hgrants]
    exact h.arrivals
  · rw [hgrants, hres]
    exact h.grants
  · rw [hres]
    exact h.resumes

/-! ### Steps that move the token -/

theorem Ownership.move (h : Ownership home m t) (hpc : m'.pc = update m.pc c p)
    (howns : p.owns = true ↔ t' = some (.holder c))
    (hhands : ∀ e, p.hands = some e ↔ t' = some (.carried c e))
    (hothers : ∀ d, d ≠ c → (t = some (.holder d) ↔ t' = some (.holder d)) ∧
      ∀ e, t = some (.carried d e) ↔ t' = some (.carried d e))
    (hlanes : ∀ w, m'.lanes w = lanesOf home t' w) (hready : ∀ w, m'.ready w = readyOf home t' w)
    (hheld : m'.held = t'.isSome) : Ownership home m' t' := by
  refine ⟨fun d => ?_, fun d e => ?_, hlanes, hready, hheld⟩
  · rw [hpc]
    by_cases hd : d = c
    · rw [hd, update_self]
      exact howns
    rw [update_of_ne hd, h.owns d]
    exact (hothers d hd).1
  · rw [hpc]
    by_cases hd : d = c
    · rw [hd, update_self]
      exact hhands e
    rw [update_of_ne hd, h.hands d e]
    exact (hothers d hd).2 e

/-- `c` arrives at a point where it neither waits nor is about to. -/
theorem Waiting.move (h : Waiting home m t l) (hpc : m'.pc = update m.pc c p)
    (hp : p.waits = false ∧ p ≠ .lockQueue ∧ p ≠ .acquireOrQueue)
    (hwaiters : m'.waiters = m.waiters)
    (hqueue : IsQueue (fun c => (m.waiters c).next) m'.waitersHead m'.waitersTail l')
    (hidle : t' = none → l' = []) (hc : ¬ (c ∈ l' ∨ handed t' = some c))
    (hothers : ∀ d, d ≠ c → (d ∈ l ∨ handed t = some d ↔ d ∈ l' ∨ handed t' = some d))
    (hapart : ∀ d ∈ l', handed t' ≠ some d)
    (hleft : ∀ d, handed t' = some d → m.pc d ≠ .leaveQueued) : Waiting home m' t' l' := by
  have hself : m'.pc c = p := by rw [hpc, update_self]
  have hpoint : ∀ d, d ≠ c → m'.pc d = m.pc d := by
    intro d hd
    rw [hpc, update_of_ne hd]
  refine ⟨?_, hidle, fun d => ?_, hapart, fun d hd => ?_, fun d hd => ?_, fun d hd => ?_⟩
  · rw [hwaiters]
    exact hqueue
  · by_cases hd : d = c
    · rw [hd, hself, hp.1]
      simpa using hc
    · rw [hpoint d hd, h.waits d]
      exact hothers d hd
  · have hne : d ≠ c := by
      rintro rfl
      exact hc (.inr hd)
    rw [hpoint d hne]
    exact hleft d hd
  · have hne : d ≠ c := by
      rintro rfl
      rw [hself, hp.1] at hd
      rcases hd with hd | hd | hd
      · cases hd
      · exact hp.2.1 hd
      · exact hp.2.2 hd
    rw [hwaiters]
    rw [hpoint d hne] at hd
    exact h.node d hd
  · have hne : d ≠ c := by
      rintro rfl
      rw [hself] at hd
      rcases hd with hd | hd
      · exact hp.2.1 hd
      · exact hp.2.2 hd
    rw [hwaiters]
    rw [hpoint d hne] at hd
    exact h.unlinked d hd

/-- What `p` and `p'` have in common when no token moves between them. -/
structure Quiet (p p' : Pc) : Prop where
  owns : p'.owns = p.owns
  hands : p'.hands = p.hands
  waits : p'.waits = p.waits
  enters : p' = .lockQueue ∨ p' = .acquireOrQueue → p = .lockQueue ∨ p = .acquireOrQueue
  leaves : p' = .leaveQueued → p = .leaveQueued
  runs : p' ≠ .suspended

section

variable (h : Inv home m t l)
include h

section

variable (hrun : m.running (home c) = some c)
include hrun

theorem Inv.lockQueue (hq : Quiet (m.pc c) p) : Inv home (m.lockQueue c p) t l := by
  unfold Mutex.lockQueue
  split
  next => exact h
  rename_i hfree
  exact ⟨h.guard.enter (by simpa using hfree) rfl rfl, h.threads.keep hrun hq.runs rfl rfl,
    h.ownership.quiet hq.owns hq.hands rfl rfl rfl rfl,
    h.waiting.quiet hq.waits rfl rfl rfl rfl hq.enters hq.leaves, h.history.same rfl rfl rfl⟩

theorem Inv.unlockQueue
    (hq : Quiet (m.pc c) p) (hc : (m.pc c).guarded = true) (hp : p.guarded = false) :
    Inv home (m.unlockQueue c p) t l :=
  ⟨h.guard.leave hc hp rfl, h.threads.keep hrun hq.runs rfl rfl,
    h.ownership.quiet hq.owns hq.hands rfl rfl rfl rfl,
    h.waiting.quiet hq.waits rfl rfl rfl rfl hq.enters hq.leaves, h.history.same rfl rfl rfl⟩

/-- `Unlock` is called. -/
theorem Inv.callUnlock (hc : m.pc c = .owning) : Inv home (m.setPc c .unlockLockQueue) t l :=
  ⟨h.guard.keep (by rw [hc]; rfl) rfl rfl, h.threads.keep hrun (by decide) rfl rfl,
    h.ownership.quiet (by rw [hc]; rfl) (by rw [hc]; rfl) rfl rfl rfl rfl,
    h.waiting.quiet (by rw [hc]; rfl) rfl rfl rfl rfl (by simp) (by simp),
    h.history.same rfl rfl rfl⟩

/-- `await_suspend` has returned true. -/
theorem Inv.suspend (hc : m.pc c = .suspending) :
    Inv home ((m.setPc c .suspended).setRunning (home c) none) t l :=
  ⟨h.guard.keep (by rw [hc]; rfl) rfl rfl,
    h.threads.stop hrun rfl rfl rfl,
    h.ownership.quiet (by rw [hc]; rfl) (by rw [hc]; rfl) rfl rfl rfl rfl,
    h.waiting.quiet (by rw [hc]; rfl) rfl rfl rfl rfl (by simp)
      (by simp),
    h.history.same rfl rfl rfl⟩

/-! ### Calling `Lock` -/

theorem Inv.callLock (hc : m.pc c = .outside) : Inv home (m.lock home c) t l := by
  have hidle : ¬ ((m.pc c).waits = true) := by rw [hc]; decide
  have hnode : ∀ d, d ≠ c → (m.lock home c).waiters d = m.waiters d :=
    fun d hd => update_of_ne hd ..
  have hself : (m.lock home c).waiters c = ⟨home c, some c, none⟩ := update_self ..
  have hpc : ∀ d, d ≠ c → (m.lock home c).pc d = m.pc d := fun d hd => update_of_ne hd ..
  have hpcself : (m.lock home c).pc c = .lockQueue := update_self ..
  refine ⟨h.guard.keep (by rw [hc]; rfl) rfl rfl,
    h.threads.keep hrun (by decide) rfl rfl,
    h.ownership.quiet (by rw [hc]; rfl) (by rw [hc]; rfl) rfl rfl rfl rfl,
    ⟨?_, h.waiting.idle, fun d => ?_, h.waiting.apart, fun d hd => ?_, fun d hd => ?_,
      fun d hd => ?_⟩,
    h.history.same rfl rfl rfl⟩
  · -- the node that is initialised is not in the queue
    refine h.waiting.queue.frame fun d hd => ?_
    have hne : d ≠ c := by
      rintro rfl
      exact hidle ((h.waiting.waits d).mpr (.inl hd))
    rw [hnode d hne]
  · by_cases hne : d = c
    · subst hne
      rw [hpcself, ← h.waiting.waits d, hc]
      decide
    · rw [hpc d hne]
      exact h.waiting.waits d
  · by_cases hne : d = c
    · rw [hne, hpcself]
      decide
    · rw [hpc d hne]
      exact h.waiting.left d hd
  · by_cases hne : d = c
    · rw [hne, hself]
      exact ⟨rfl, rfl⟩
    · rw [hnode d hne]
      rw [hpc d hne] at hd
      exact h.waiting.node d hd
  · by_cases hne : d = c
    · rw [hne, hself]
    · rw [hnode d hne]
      rw [hpc d hne] at hd
      exact h.waiting.unlinked d hd

end

/-! ### `AcquireOrQueue` -/

theorem Inv.token_of_free (hheld : m.held = false) : t = none := by
  have := h.ownership.held
  rw [hheld] at this
  cases t with
  | none => rfl
  | some _ => cases this

/-- A free mutex is taken: there is no token, and nobody waits. -/
theorem Inv.acquire (hrun : m.running (home c) = some c)
    (hc : m.pc c = .acquireOrQueue) (hheld : m.held = false) :
    Inv home { m.setPc c .leaveOwned with held := true } (some (.holder c)) l := by
  have ht := h.token_of_free hheld
  subst ht
  have hnil := h.waiting.idle rfl
  subst hnil
  exact ⟨h.guard.keep (by rw [hc]; rfl) rfl rfl,
    h.threads.keep hrun (by decide) rfl rfl,
    h.ownership.move rfl (by simp [owns]) (by simp [hands])
      (fun d hd => by simp [hd.symm]) h.ownership.lanes h.ownership.ready rfl,
    h.waiting.move rfl (by decide) rfl h.waiting.queue (by simp)
      (by simp [handed]) (by simp [handed]) (by simp) (by simp [handed]),
    { h.history with }⟩

end

/-- Linking a new last node changes nothing but one `next`. -/
theorem link_frame (waiters : Nat → Waiter) (tail : Option Nat) (c d : Nat) :
    let linked := match tail with
      | none => waiters
      | some last => update waiters last { waiters last with next := some c }
    (linked d).worker = (waiters d).worker ∧ (linked d).handle = (waiters d).handle ∧
      (tail ≠ some d → (linked d).next = (waiters d).next) := by
  rcases tail with _ | last
  · exact ⟨rfl, rfl, fun _ => rfl⟩
  by_cases hd : d = last
  · subst hd
    simp
  · simp [update_of_ne hd]

section

variable (h : Inv home m t l)
include h

/-- A waiter is queued behind the others. -/
theorem Inv.enqueue (hrun : m.running (home c) = some c)
    (hc : m.pc c = .acquireOrQueue) (hheld : m.held = true) :
    Inv home (m.acquireOrQueue c) t (l ++ [c]) := by
  have hout : ¬ (c ∈ l ∨ handed t = some c) := by
    rw [← h.waiting.waits c, hc]
    decide
  have hmem : c ∉ l := fun hl => hout (.inl hl)
  have hframe := link_frame m.waiters m.waitersTail c
  have hpc : ∀ d, d ≠ c → (m.acquireOrQueue c).pc d = m.pc d := by
    intro d hd
    simp [acquireOrQueue, hheld, setPc, update_of_ne hd]
  have hpcself : (m.acquireOrQueue c).pc c = .leaveQueued := by
    simp [acquireOrQueue, hheld, setPc]
  have hwaiters : ∀ d, (m.acquireOrQueue c).waiters d = (match m.waitersTail with
      | none => m.waiters
      | some last => update m.waiters last { m.waiters last with next := some c }) d := by
    intro d
    unfold acquireOrQueue
    rewrite [if_neg (by simp [hheld])]
    cases m.waitersTail <;> rfl
  have hupdate : (m.acquireOrQueue c).pc = update m.pc c .leaveQueued := by
    simp [acquireOrQueue, hheld, setPc]
  refine ⟨h.guard.keep (by rw [hc]; rfl) (by simp [acquireOrQueue, hheld, setPc]) hupdate,
    h.threads.keep hrun (by decide) (by simp [acquireOrQueue, hheld, setPc]) hupdate,
    h.ownership.quiet (by rw [hc]; rfl) (by rw [hc]; rfl) hupdate
      (by simp [acquireOrQueue, hheld, setPc]) (by simp [acquireOrQueue, hheld, setPc])
      (by simp [acquireOrQueue, hheld, setPc]),
    ⟨?_, fun ht => ?_, fun d => ?_, fun d hd => ?_, fun d hd => ?_, fun d hd => ?_, fun d hd => ?_⟩,
    ⟨?_, ?_, ?_⟩⟩
  · have hqueue := h.waiting.queue
    have hnext := h.waiting.unlinked c (.inr hc)
    unfold acquireOrQueue
    rw [if_neg (by simp [hheld])]
    rcases htail : m.waitersTail with _ | last
    · rw [htail] at hqueue
      exact hqueue.push_first hnext
    rw [htail] at hqueue
    have hcomp : (fun d => ((update m.waiters last
        { m.waiters last with next := some c }) d).next) =
        update (fun d => (m.waiters d).next) last (some c) :=
      comp_update Waiter.next m.waiters last _
    rw [hcomp]
    exact hqueue.push_last hmem hnext
  · have := h.ownership.held
    rw [ht, hheld] at this
    cases this
  · by_cases hd : d = c
    · subst hd
      simp [hpcself, waits]
    · rw [hpc d hd, h.waiting.waits d]
      simp [hd]
  · rcases mem_append.mp hd with hd | hd
    · exact h.waiting.apart d hd
    · rw [mem_singleton.mp hd]
      exact fun hh => hout (.inr hh)
  · have hne : d ≠ c := by
      rintro rfl
      exact hout (.inr hd)
    rw [hpc d hne]
    exact h.waiting.left d hd
  · rw [hwaiters d, (hframe d).1, (hframe d).2.1]
    by_cases hne : d = c
    · subst hne
      exact h.waiting.node d (.inr (.inr hc))
    rw [hpc d hne] at hd
    exact h.waiting.node d hd
  · have hne : d ≠ c := by
      rintro rfl
      rw [hpcself] at hd
      simp at hd
    rw [hpc d hne] at hd
    -- the last node waits, this one does not
    have hlast : m.waitersTail ≠ some d := by
      intro heq
      have hl : d ∈ l := List.mem_of_getLast? (h.waiting.queue.tail ▸ heq)
      have hw := (h.waiting.waits d).mpr (.inl hl)
      rcases hd with hd | hd <;> rw [hd] at hw <;> cases hw
    rw [hwaiters d, (hframe d).2.2 hlast]
    exact h.waiting.unlinked d hd
  · have := h.history.arrivals
    simp [acquireOrQueue, hheld, setPc, this]
  · have := h.history.grants
    simpa [acquireOrQueue, hheld, setPc] using this
  · have := h.history.resumes
    simpa [acquireOrQueue, hheld, setPc] using this

/-! ### `Unlock` -/

/-- The releaser has the token. -/
theorem Inv.token_of_owns (hc : (m.pc c).owns = true) : t = some (.holder c) :=
  (h.ownership.owns c).mp hc

section

variable (hrun : m.running (home c) = some c)
include hrun

/-- Nobody waits: the mutex becomes free. -/
theorem Inv.release (hc : m.pc c = .unlock) (hhead : m.waitersHead = none) :
    Inv home { m.setPc c .leaveFree with held := false } none l := by
  have ht := h.token_of_owns (by rw [hc]; rfl)
  subst ht
  have hnil : l = [] := by
    have hqueue := h.waiting.queue
    rw [hhead] at hqueue
    exact hqueue.eq_nil_of_head
  subst hnil
  exact ⟨h.guard.keep (by rw [hc]; rfl) rfl rfl,
    h.threads.keep hrun (by decide) rfl rfl,
    h.ownership.move rfl (by simp [owns]) (by simp [hands])
      (fun d hd => by simp [hd.symm]) h.ownership.lanes h.ownership.ready rfl,
    h.waiting.move rfl (by decide) rfl h.waiting.queue (fun _ => rfl)
      (by simp [handed]) (by simp [handed]) (by simp) (by simp [handed]),
    { h.history with }⟩

/-- The first waiter is taken off the list; the token is its, on the way. -/
theorem Inv.handoff (hc : m.pc c = .unlock) {wake : Nat} (hhead : m.waitersHead = some wake) :
    ∃ l', Inv home
      { m.setPc c (.leaveHandoff wake) with
        waitersHead := (m.waiters wake).next
        waitersTail := if (m.waiters wake).next.isNone then none else m.waitersTail
        grants := m.grants ++ [wake] } (some (.carried c wake)) l' := by
  have ht := h.token_of_owns (by rw [hc]; rfl)
  subst ht
  have hqueue := h.waiting.queue
  rw [hhead] at hqueue
  obtain ⟨l', hl, hqueue'⟩ := hqueue.pop
  subst hl
  have hnodup := nodup_cons.mp hqueue.nodup
  have hout : c ∉ wake :: l' := by
    intro hmem
    have hwaits := (h.waiting.waits c).mpr (.inl hmem)
    rw [hc] at hwaits
    cases hwaits
  have hne : wake ≠ c := fun heq => hout (heq ▸ mem_cons_self ..)
  -- a waiter that has not left `UnlockQueue` yet would share the guard with `c`
  have hleft : m.pc wake ≠ .leaveQueued := fun hleave =>
    hne (h.guard.unique wake c (by rw [hleave]; rfl) (by rw [hc]; rfl))
  refine ⟨l', h.guard.keep (by rw [hc]; rfl) rfl rfl,
    h.threads.keep hrun (by simp) rfl rfl,
    h.ownership.move rfl (by simp [owns]) (by simp [hands])
      (fun d hd => by simp [hd.symm]) h.ownership.lanes h.ownership.ready h.ownership.held,
    h.waiting.move rfl (by simp [waits]) rfl hqueue' (by simp) ?_ ?_ ?_ ?_,
    ⟨?_, ?_, h.history.resumes⟩⟩
  · rintro (hmem | hwake)
    · exact hout (mem_cons_of_mem _ hmem)
    · exact hne (some.inj hwake)
  · intro d _
    simp [handed, eq_comm, or_comm]
  · intro d hd hw
    exact hnodup.1 (some.inj hw ▸ hd)
  · intro d hd
    rw [← some.inj hd]
    exact hleft
  · show m.arrivals = m.grants ++ [wake] ++ l'
    rw [h.history.arrivals, append_assoc]
    rfl
  · show m.grants ++ [wake] = m.resumes.map Prod.fst ++ [wake]
    rw [h.history.grants]
    simp [handed]

/-- The waiter is woken: through its worker's ready queue, or through a notification. -/
theorem Inv.dispatch {wake : Nat} (hc : m.pc c = .dispatch wake) :
    ∃ t', Inv home (m.dispatch home c wake) t' l ∧ ownerOf t' = ownerOf t := by
  have ht : t = some (.carried c wake) := (h.ownership.hands c wake).mp (by rw [hc]; rfl)
  subst ht
  obtain ⟨hworker, hhandle⟩ := h.waiting.node wake (.inl ((h.waiting.waits wake).mpr (.inr rfl)))
  have hlanes : ∀ w, m.lanes w = [] := h.ownership.lanes
  have hready : ∀ w, m.ready w = [] := h.ownership.ready
  have hout : ¬ (c ∈ l ∨ some wake = some c) := by
    have := h.waiting.waits c
    rw [hc] at this
    simpa [waits, handed] using this
  have hpoint : m.dispatch home c wake = if home wake = home c
      then (m.setPc c .outside).enqueue (home wake) (some wake)
      else (m.setPc c .outside).postNotification (home wake) ⟨home wake, some wake⟩ := by
    unfold Mutex.dispatch
    simp only [hworker, hhandle]
  rw [hpoint]
  by_cases hlocal : home wake = home c
  · rw [if_pos hlocal]
    refine ⟨some (.ready wake), ⟨h.guard.keep (by rw [hc]; rfl) rfl rfl,
      h.threads.keep hrun (by decide) rfl rfl,
      h.ownership.move rfl (by simp [owns]) (by simp [hands])
        (fun d hd => by simp [hd.symm]) hlanes ?_ h.ownership.held,
      h.waiting.move rfl (by decide) rfl h.waiting.queue (by simp) hout
        (fun d _ => .rfl) h.waiting.apart h.waiting.left,
      { h.history with }⟩, rfl⟩
    intro w
    show update m.ready (home wake) (m.ready (home wake) ++ [wake]) w = _
    by_cases hw : w = home wake
    · simp [hw, readyOf, hready]
    · simp [readyOf, hready, hw]
  · rw [if_neg hlocal]
    refine ⟨some (.posted wake), ⟨h.guard.keep (by rw [hc]; rfl) rfl rfl,
      h.threads.keep hrun (by decide) rfl rfl,
      h.ownership.move rfl (by simp [owns]) (by simp [hands])
        (fun d hd => by simp [hd.symm]) ?_ hready h.ownership.held,
      h.waiting.move rfl (by decide) rfl h.waiting.queue (by simp) hout
        (fun d _ => .rfl) h.waiting.apart h.waiting.left,
      { h.history with }⟩, rfl⟩
    intro w
    show update m.lanes (home wake) (m.lanes (home wake) ++ [⟨home wake, some wake⟩]) w = _
    by_cases hw : w = home wake
    · simp [hw, lanesOf, hlanes]
    · simp [lanesOf, hlanes, hw]

end

/-! ### The way to the waiter -/

/-- A notification is delivered: it is the token's. -/
theorem Inv.deliver {w i : Nat} (hs : m.deliver w i = some m') :
    ∃ t', Inv home m' t' l ∧ ownerOf t' = ownerOf t := by
  have hown := h.ownership
  have hwait := h.waiting
  have hhist := h.history
  unfold Mutex.deliver at hs
  split at hs
  next => cases hs
  rename_i n hn
  rw [hown.lanes w] at hn
  obtain ⟨d, rfl⟩ : ∃ d, t = some (.posted d) := by
    rcases t with _ | tk
    · simp [lanesOf] at hn
    cases tk with
    | posted d => exact ⟨d, rfl⟩
    | _ => simp [lanesOf] at hn
  have hw : w = home d := by
    by_contra hne
    simp [lanesOf, hne] at hn
  subst hw
  have hi : i = 0 := by
    by_contra hne
    obtain ⟨j, rfl⟩ := Nat.exists_eq_succ_of_ne_zero hne
    simp [lanesOf] at hn
  subst hi
  have hn' : n = ⟨home d, some d⟩ := by simpa [lanesOf, eq_comm] using hn
  subst hn'
  cases hs
  refine ⟨some (.ready d), ⟨{ h.guard with }, { h.threads with },
    ⟨?_, ?_, ?_, ?_, hown.held⟩,
    { hwait with idle := nofun },
    { hhist with }⟩, rfl⟩
  · intro c
    show (m.pc c).owns = true ↔ _
    simp [hown.owns c]
  · intro c e
    show (m.pc c).hands = some e ↔ _
    simp [hown.hands c e]
  · intro w
    show update m.lanes (home d) ((m.lanes (home d)).eraseIdx 0) w = []
    by_cases hw : w = home d
    · simp [hw, hown.lanes, lanesOf]
    · simp [hown.lanes, lanesOf, hw]
  · intro w
    show update m.ready (home d) (m.ready (home d) ++ [d]) w = _
    by_cases hw : w = home d
    · simp [hw, hown.ready, readyOf]
    · simp [hown.ready, readyOf, hw]

/-- What a ready queue holds is the waiter the token is on its way to, asleep on that worker. -/
theorem Inv.ready_head {w d : Nat} {rest : List Nat}
    (hrun : m.running w = none) (hready : m.ready w = d :: rest) :
    t = some (.ready d) ∧ w = home d ∧ rest = [] ∧ m.pc d = .suspended := by
  rw [h.ownership.ready w] at hready
  obtain ⟨e, rfl⟩ : ∃ e, t = some (.ready e) := by
    rcases t with _ | tk
    · simp [readyOf] at hready
    cases tk with
    | ready e => exact ⟨e, rfl⟩
    | _ => simp [readyOf] at hready
  have hw : w = home e := by
    by_contra hne
    simp [readyOf, hne] at hready
  subst hw
  obtain ⟨hed, hrest⟩ : e = d ∧ rest = [] := by simpa [readyOf, eq_comm] using hready
  subst hed
  refine ⟨rfl, rfl, hrest, ?_⟩
  have hwaits : (m.pc e).waits = true := (h.waiting.waits e).mpr (.inr rfl)
  have hleft : m.pc e ≠ .leaveQueued := h.waiting.left e rfl
  have hoff : (m.pc e).onThread ≠ true := by
    intro hon
    rw [h.threads.runs e hon] at hrun
    cases hrun
  cases hpc : m.pc e with
  | suspended => rfl
  | leaveQueued => exact absurd hpc hleft
  | suspending => exact absurd (by rw [hpc]; rfl) hoff
  | _ =>
    rw [hpc] at hwaits
    cases hwaits

/-- The waiter runs again, on its own worker, and has the mutex. -/
theorem Inv.resume {w : Nat} (hrun : m.running w = none)
    (hs : m.resume w = some m') : ∃ t', Inv home m' t' l ∧ ownerOf t' = ownerOf t := by
  unfold Mutex.resume at hs
  split at hs
  next => cases hs
  rename_i d rest hready
  obtain ⟨rfl, rfl, rfl, hd⟩ := h.ready_head hrun hready
  cases hs
  refine ⟨some (.holder d), ⟨h.guard.keep (by rw [hd]; rfl) rfl rfl,
    h.threads.start hrun (by decide) rfl rfl,
    h.ownership.move rfl (by simp [owns]) (by simp [hands])
      (fun e he => by simp [he.symm]) h.ownership.lanes ?_ h.ownership.held,
    h.waiting.move rfl (by decide) rfl h.waiting.queue (by simp)
      ?_ (fun e he => by simp [handed, he.symm]) (nofun)
      (nofun),
    ⟨h.history.arrivals, ?_, ?_⟩⟩, rfl⟩
  · intro v
    show update m.ready (home d) [] v = []
    by_cases hv : v = home d
    · simp [hv]
    · simp [h.ownership.ready, readyOf, hv]
  · rintro (hmem | hhanded)
    · exact h.waiting.apart d hmem rfl
    · cases hhanded
  · show m.grants = (m.resumes ++ [(d, home d)]).map Prod.fst ++ []
    rw [h.history.grants]
    simp [handed]
  · intro x hx
    rcases mem_append.mp hx with hx | hx
    · exact h.history.resumes x hx
    · rw [mem_singleton.mp hx]

end

end Steps

/-! ## Every run -/

variable {home : Nat → Nat}

/-- Which coroutine a worker runs matters to `threads` only. -/
theorem Inv.reschedule {m : Mutex} {t : Option Token} {l : List Nat}
    (h : Inv home m t l) (running : Nat → Option Nat)
    (hthreads : Threads home { m with running := running }) :
    Inv home { m with running := running } t l :=
  ⟨{ h.guard with }, hthreads,
    { h.ownership with },
    { h.waiting with },
    h.history.same rfl rfl rfl⟩

/-- **One step keeps the invariant.** -/
theorem step_inv {m m' : Mutex} {a : Label} {t : Option Token} {l : List Nat}
    (h : Inv home m t l) (hs : step home m a = some m') :
    ∃ t' l', Inv home m' t' l' ∧ Passes t l t' := by
  cases a with
  | schedule c =>
    refine of_guard hs fun ⟨hrun, hrest⟩ => ?_
    have hsusp : m.pc c ≠ .suspended := by
      intro hpc
      rw [hpc] at hrest
      cases hrest
    exact ⟨t, l, h.reschedule _ (h.threads.start hrun hsusp rfl (update_eq_self c m.pc).symm),
      .inl rfl⟩
  | yield c =>
    refine of_guard hs fun ⟨hrun, hrest⟩ => ?_
    have hoff : (m.pc c).onThread = false := by
      cases hpc : m.pc c with
      | outside => rfl
      | owning => rfl
      | _ =>
        rw [hpc] at hrest
        cases hrest
    exact ⟨t, l, h.reschedule _ (h.threads.stop hrun hoff rfl (update_eq_self c m.pc).symm),
      .inl rfl⟩
  | lock c =>
    refine of_guard hs fun ⟨hrun, hpc⟩ => ?_
    exact ⟨t, l, h.callLock hrun hpc, .inl rfl⟩
  | unlock c =>
    refine of_guard hs fun ⟨hrun, hpc⟩ => ?_
    exact ⟨t, l, h.callUnlock hrun hpc, .inl rfl⟩
  | advance c =>
    obtain ⟨hrun, hadv⟩ := ite_none_right_eq_some.mp hs
    unfold advance at hadv
    split at hadv
    case h_1 hpc | h_6 hpc | h_8 hpc =>
      cases hadv
      exact ⟨t, l, h.lockQueue hrun (by rw [hpc]; exact ⟨rfl, rfl, rfl, by simp, by simp, by simp⟩),
        .inl rfl⟩
    case h_3 hpc | h_4 hpc | h_7 hpc | h_10 hpc | h_11 _ hpc =>
      cases hadv
      exact ⟨t, l, h.unlockQueue hrun
        (by rw [hpc]; exact ⟨rfl, rfl, rfl, by simp, by simp, by simp⟩) (by rw [hpc]; rfl) rfl,
        .inl rfl⟩
    case h_2 hpc =>
      cases hadv
      cases hheld : m.held with
      | false =>
        unfold acquireOrQueue
        rw [if_pos hheld]
        exact ⟨_, l, h.acquire hrun hpc hheld, .inr (.inr (.inl (h.token_of_free hheld)))⟩
      | true => exact ⟨t, _, h.enqueue hrun hpc hheld, .inl rfl⟩
    case h_5 hpc =>
      cases hadv
      exact ⟨t, l, h.suspend hrun hpc, .inl rfl⟩
    case h_9 hpc =>
      cases hadv
      unfold Mutex.unlock
      split
      next hhead => exact ⟨none, l, h.release hrun hpc hhead, .inr (.inl rfl)⟩
      next wake hhead =>
        obtain ⟨l', hl'⟩ := h.handoff hrun hpc hhead
        exact ⟨_, l', hl', .inr (.inr (.inr (hhead.symm.trans h.waiting.queue.head)))⟩
    case h_12 _ hpc =>
      cases hadv
      obtain ⟨t', ht', howner⟩ := h.dispatch hrun hpc
      exact ⟨t', l, ht', .inl howner⟩
    all_goals cases hadv
  | deliver w i =>
    obtain ⟨_, hdel⟩ := ite_none_right_eq_some.mp hs
    obtain ⟨t', ht', howner⟩ := h.deliver hdel
    exact ⟨t', l, ht', .inl howner⟩
  | resume w =>
    obtain ⟨hrun, hres⟩ := ite_none_right_eq_some.mp hs
    obtain ⟨t', ht', howner⟩ := h.resume hrun hres
    exact ⟨t', l, ht', .inl howner⟩

theorem reachable_inv {m : Mutex} (h : (system home).Reachable m) : ∃ t l, Inv home m t l := by
  refine h.invariant (P := fun m => ∃ t l, Inv home m t l) ?_ ?_
  · rintro m ⟨memory, rfl⟩
    exact ⟨none, [], fresh_inv home memory⟩
  · rintro m a m' ⟨t, l, hinv⟩ hs
    obtain ⟨t', l', hinv', _⟩ := step_inv hinv hs
    exact ⟨t', l', hinv'⟩

/-! ## The mutex -/

/-- The mutex is on its way to a queued waiter. -/
def InTransit (m : Mutex) (c : Nat) : Prop :=
  (∃ d, (m.pc d).hands = some c) ∨ (∃ w, ∃ n ∈ m.lanes w, n.value = some c) ∨ ∃ w, c ∈ m.ready w

/-- The coroutine is between acquiring and releasing, or is being handed the mutex. -/
def Owns (m : Mutex) (c : Nat) : Prop := (m.pc c).owns = true ∨ m.InTransit c

section Owner

variable {home : Nat → Nat} {m : Mutex} {t : Option Token} {l : List Nat}

theorem Inv.inTransit_iff (h : Inv home m t l) (c : Nat) : m.InTransit c ↔ handed t = some c := by
  have hown := h.ownership
  constructor
  · rintro (⟨d, hd⟩ | ⟨w, n, hn, hval⟩ | ⟨w, hw⟩)
    · rw [(hown.hands d c).mp hd]
      rfl
    · rw [hown.lanes w] at hn
      rcases t with _ | tk
      · cases hn
      cases tk with
      | posted d =>
        unfold lanesOf at hn
        dsimp only at hn
        split at hn
        · rw [mem_singleton.mp hn] at hval
          exact hval
        · cases hn
      | _ => cases hn
    · rw [hown.ready w] at hw
      rcases t with _ | tk
      · cases hw
      cases tk with
      | ready d =>
        unfold readyOf at hw
        dsimp only at hw
        split at hw
        · rw [mem_singleton.mp hw]
          rfl
        · cases hw
      | _ => cases hw
  · intro hhanded
    rcases t with _ | tk
    · cases hhanded
    cases tk with
    | holder d => cases hhanded
    | carried d e =>
      obtain rfl : e = c := some.inj hhanded
      exact .inl ⟨d, (hown.hands d e).mpr rfl⟩
    | posted e =>
      obtain rfl : e = c := some.inj hhanded
      refine .inr (.inl ⟨home e, ⟨home e, some e⟩, ?_, rfl⟩)
      rw [hown.lanes]
      simp [lanesOf]
    | ready e =>
      obtain rfl : e = c := some.inj hhanded
      refine .inr (.inr ⟨home e, ?_⟩)
      rw [hown.ready]
      simp [readyOf]

theorem Inv.owns_iff (h : Inv home m t l) (c : Nat) : m.Owns c ↔ ownerOf t = some c := by
  unfold Owns
  rw [h.inTransit_iff c, h.ownership.owns c]
  cases t with
  | none => simp [handed, ownerOf]
  | some tk => cases tk <;> simp [handed, ownerOf]

theorem Inv.held_iff (h : Inv home m t l) : m.held = true ↔ ∃ c, m.Owns c := by
  rw [h.ownership.held]
  constructor
  · intro ht
    cases t with
    | none => cases ht
    | some tk => cases tk <;> exact ⟨_, (h.owns_iff _).mpr rfl⟩
  · rintro ⟨c, hc⟩
    have howner := (h.owns_iff c).mp hc
    cases t with
    | none => cases howner
    | some tk => rfl

end Owner

/-- What a FIFO mutex across workers guarantees, of a state `m`. -/
structure FifoMutex (home : Nat → Nat) (m : Mutex) : Prop where
  /-- At most one coroutine has the mutex or is being handed it. -/
  exclusive : ∀ c d, m.Owns c → m.Owns d → c = d
  /-- `held_` is set as long as there is one. -/
  held : m.held = true ↔ ∃ c, m.Owns c
  /-- Head, tail and links describe one list of waiters; a waiter that was queued has been resumed,
      is being handed the mutex, or is in that list, in the order in which they were queued. -/
  fifo : ∃ transit waiting,
    IsQueue (fun c => (m.waiters c).next) m.waitersHead m.waitersTail waiting ∧
    (∀ c, c ∈ transit ↔ m.InTransit c) ∧ transit.length ≤ 1 ∧
    (∀ c ∈ waiting, (m.pc c).waits = true) ∧
    m.arrivals = m.resumes.map Prod.fst ++ transit ++ waiting
  /-- Whoever comes to own it finds it free with nobody waiting, or is the first of the list. -/
  next : ∀ a m' c, step home m a = some m' → m'.Owns c → ¬ m.Owns c →
    (m.held = false ∧ m.waitersHead = none) ∨ m.waitersHead = some c
  /-- Waiters are resumed on their own worker, and only from their suspension in `Lock`. -/
  resumed : ∀ x ∈ m.resumes, x.2 = home x.1
  resumable : ∀ w c rest, m.running w = none → m.ready w = c :: rest →
    m.pc c = .suspended ∧ home c = w
  /-- A mutex that is not held has no owner and no waiter: all who were queued have been resumed. -/
  free : m.held = false → (∀ c, ¬ m.Owns c) ∧ m.waitersHead = none ∧ m.waitersTail = none ∧
    m.arrivals = m.resumes.map Prod.fst

/-- **`CrossWorkerMutex` is a FIFO mutex across workers**, in every state of every interleaving of
    any coroutines on any workers. -/
theorem reachable_fifoMutex {home : Nat → Nat} {m : Mutex} (h : (system home).Reachable m) :
    FifoMutex home m := by
  obtain ⟨t, l, hinv⟩ := reachable_inv h
  have hhist := hinv.history
  refine ⟨?_, hinv.held_iff, ?_, ?_, hhist.resumes, ?_, ?_⟩
  · intro c d hc hd
    have h1 := (hinv.owns_iff c).mp hc
    rw [(hinv.owns_iff d).mp hd] at h1
    exact (some.inj h1).symm
  · refine ⟨(handed t).toList, l, hinv.waiting.queue, fun c => ?_, ?_, fun c hc => ?_, ?_⟩
    · rw [hinv.inTransit_iff c, Option.mem_toList]
    · cases handed t <;> simp
    · exact (hinv.waiting.waits c).mpr (.inl hc)
    · rw [hhist.arrivals, hhist.grants]
  · intro a m' c hs hc' hc
    obtain ⟨t', l', hinv', hpass⟩ := step_inv hinv hs
    have howner := (hinv'.owns_iff c).mp hc'
    rcases hpass with hsame | hnone | hfree | hhead
    · rw [hsame] at howner
      exact absurd ((hinv.owns_iff c).mpr howner) hc
    · rw [hnone] at howner
      cases howner
    · left
      have hnil := hinv.waiting.idle hfree
      have hqueue := hinv.waiting.queue
      rw [hnil] at hqueue
      exact ⟨by rw [hinv.ownership.held, hfree]; rfl, hqueue.head⟩
    · right
      rw [hinv.waiting.queue.head, ← hhead, howner]
  · intro w c rest hrun hready
    obtain ⟨_, hw, _, hpc⟩ := hinv.ready_head hrun hready
    exact ⟨hpc, hw.symm⟩
  · intro hheld
    have ht := hinv.token_of_free hheld
    subst ht
    have hnil := hinv.waiting.idle rfl
    subst hnil
    refine ⟨fun c hc => ?_, hinv.waiting.queue.head, hinv.waiting.queue.tail, ?_⟩
    · have := (hinv.owns_iff c).mp hc
      cases this
    · rw [hhist.arrivals, hhist.grants]
      simp [handed]

/-- Coroutine `c` lives on worker `c`. -/
def handoffLabels : List Label :=
  [.schedule 0, .lock 0, .advance 0, .advance 0, .advance 0,           -- 0 takes the free mutex
    .schedule 1, .lock 1, .advance 1, .advance 1, .advance 1, .advance 1,   -- 1 queues and suspends
    .unlock 0, .advance 0, .advance 0, .advance 0, .advance 0,         -- 0 hands over and notifies
    .deliver 1 0, .resume 1]

/-- The mutex passes from worker 0 to a waiter on worker 1. -/
theorem fifoMutex_handoff :
    ∃ m, (system id).run (fresh fun _ => ⟨0, none, none⟩) handoffLabels = some m ∧
      m.resumes = [(1, 1)] ∧ FifoMutex id m := by
  exact exists_run ⟨_, rfl⟩ reachable_fifoMutex (by decide)

end Bycorf.Runtime.Mutex
