/-
  `ForeignExecutor`: threads that are no workers deliver callables (`Notify`) and coroutines
  (`Resume`) to a worker, and `pending_` counts what is on its way.

  1. **Program** — every call of `Notify` or `Resume` has a program counter (`CallPc`) and goes one
     atomic step at a time; the worker takes what has been queued, runs it and accounts for it in
     the order of `Invoke` and `EnqueueContinuation`.  Allocations and enqueues may fail at will,
     calls begin at will, and `accepting_` may be cleared at any time.
  2. **Notifications** — a call makes ONE notification, so where it is (`ForeignStage`) is a field
     of the call.  The mailbox is a bag here: the worker may take any notification that is queued
     for it.
  3. **Counter** — `pending_` is an integer, so that an underflow would show.
  4. **Results** — the counter is EXACT (`reachable_exact`): it is what is queued or taken and not
     run, plus the calls between `fetch_add` and the outcome of their enqueue, plus the notification
     the worker is just completing.

  The wake of the worker (`overflow_pending_`, `wake_seq_`) does not touch the accounting; its two
  steps appear as program points, since the notification can overtake them.
-/
import Bycorf.Lib.History
import Bycorf.Lib.Transition

namespace Bycorf.Runtime

open Lib Function

/-! ## The program -/

/-- The two entry points of a foreign thread. -/
inductive ForeignKind where
  | notify
  | resume
deriving DecidableEq, Repr

/-- Where a call is: in front of the step that is named. -/
inductive CallPc where
  | outside                        -- not begun
  | check                          -- the guards and `accepting_.load()`
  | allocate                       -- `new (std::nothrow) Envelope` (`Notify`)
  | raise                          -- `pending_.fetch_add(1)`
  | enqueue                        -- `PostForeignNotification`: `notifications_.enqueue`
  | storePending                   -- `overflow_pending_.store(true)`
  | wake                           -- `WakeForeign`
  | complete                       -- `CompleteForeignNotification` of a failed post
  | returned (ok : Bool)
deriving DecidableEq, Repr

/-- Where the notification of a call is. -/
inductive ForeignStage where
  | absent                         -- not accepted
  | queued                         -- in the mailbox
  | taken                          -- dequeued by the drain
  | ran                            -- the callable has run, the coroutine has been enqueued
  | completed                      -- and `CompleteForeignNotification` too
deriving DecidableEq, Repr

/-- A call from a foreign thread, and where its notification is. -/
structure ForeignCall where
  kind : ForeignKind
  valid : Bool                     -- `state_ != nullptr`
  target : Nat                     -- `state_->worker_id_`
  handle : Bool                    -- the continuation is not null (`Resume`)
  pc : CallPc
  stage : ForeignStage
deriving DecidableEq, Repr

/-- Where a caller of `WaitUntilIdle` is. -/
inductive IdleWait where
  | outside
  | load (target : Nat)            -- `pending_.load()`
  | wait (target : Nat) (seen : Int)
  | returned (target : Nat)
deriving DecidableEq, Repr

/-- The executors of all workers, each with the state of its own. -/
structure ForeignExecutor where
  pending : Nat → Int
  accepting : Nat → Bool
  calls : Nat → ForeignCall
  nextCall : Nat
  running : Nat → Option Nat       -- the notification a worker is inside, behind the callable
  waits : Nat → IdleWait
  runs : List (Nat × Nat)          -- bookkeeping of the model: which worker ran which call's

namespace ForeignExecutor

/-- A call that has not begun. -/
def idleCall : ForeignCall := ⟨.notify, false, 0, false, .outside, .absent⟩

/-- No call has begun. -/
def fresh : ForeignExecutor where
  pending _ := 0
  accepting _ := true
  calls _ := idleCall
  nextCall := 0
  running _ := none
  waits _ := .outside
  runs := []

def setCall (c : Nat) (call : ForeignCall) (s : ForeignExecutor) : ForeignExecutor :=
  { s with calls := Function.update s.calls c call }

def setPc (c : Nat) (pc : CallPc) (s : ForeignExecutor) : ForeignExecutor :=
  s.setCall c { s.calls c with pc := pc }

/-- `fetch_add` on the counter of a worker. -/
def addPending (w : Nat) (δ : Int) (s : ForeignExecutor) : ForeignExecutor :=
  { s with pending := Function.update s.pending w (s.pending w + δ) }

/-- The next atomic step of call `c` with `size` mailboxes; `ok` is what an allocation or an enqueue
    answers. -/
def advance (size c : Nat) (ok : Bool) (s : ForeignExecutor) : Option ForeignExecutor :=
  match (s.calls c).pc with
  | .outside | .returned _ => none
  | .check =>
    if (s.calls c).valid ∧ s.accepting (s.calls c).target ∧
        ((s.calls c).kind = .resume → (s.calls c).handle) then
      some (s.setPc c (if (s.calls c).kind = .notify then .allocate else .raise))
    else some (s.setPc c (.returned false))
  | .allocate => some (s.setPc c (if ok then .raise else .returned false))
  | .raise => some ((s.addPending (s.calls c).target 1).setPc c .enqueue)
  | .enqueue =>
    if (s.calls c).target < size ∧ ok then
      some (s.setCall c { s.calls c with pc := .storePending, stage := .queued })
    else some (s.setPc c .complete)
  | .storePending => some (s.setPc c .wake)
  | .wake => some (s.setPc c (.returned true))
  | .complete => some ((s.addPending (s.calls c).target (-1)).setPc c (.returned false))

/-- The drain of worker `w` dequeues the notification of call `c`. -/
def dequeue (w c : Nat) (s : ForeignExecutor) : Option ForeignExecutor :=
  if s.running w = none ∧ (s.calls c).target = w ∧ (s.calls c).stage = .queued then
    some (s.setCall c { s.calls c with stage := .taken })
  else none

/-- The first half of `run_fn_`: the callable, or `Enqueue` of the coroutine. -/
def invoke (w c : Nat) (s : ForeignExecutor) : Option ForeignExecutor :=
  if s.running w = none ∧ (s.calls c).target = w ∧ (s.calls c).stage = .taken then
    some { s.setCall c { s.calls c with stage := .ran } with
      running := Function.update s.running w (some c)
      runs := s.runs ++ [(w, c)] }
  else none

/-- The second half: `CompleteForeignNotification` of the state that the notification carries. -/
def completeNotification (w : Nat) (s : ForeignExecutor) : Option ForeignExecutor :=
  match s.running w with
  | none => none
  | some c =>
    some { (s.addPending (s.calls c).target (-1)).setCall c
        { s.calls c with stage := .completed } with
      running := Function.update s.running w none }

/-- The next step of a caller of `WaitUntilIdle`. -/
def waitUntilIdle (i : Nat) (s : ForeignExecutor) : Option ForeignExecutor :=
  match s.waits i with
  | .outside | .returned _ => none
  | .load w =>
    let next : IdleWait := if s.pending w = 0 then .returned w else .wait w (s.pending w)
    some { s with waits := Function.update s.waits i next }
  | .wait w seen =>
    if s.pending w = seen then none
    else some { s with waits := Function.update s.waits i (.load w) }

/-- The next step of a call, of a worker or of `WaitUntilIdle`. -/
inductive Label where
  | call (kind : ForeignKind) (valid : Bool) (target : Nat) (handle : Bool)
  | advance (c : Nat) (ok : Bool)
  | dequeue (w c : Nat)
  | invoke (w c : Nat)
  | complete (w : Nat)
  | stop (w : Nat)                 -- `accepting_.store(false)`
  | beginWait (i w : Nat)
  | waitUntilIdle (i : Nat)
deriving DecidableEq, Repr

/-- One atomic step. -/
def step (size : Nat) (s : ForeignExecutor) : Label → Option ForeignExecutor
  | .call kind valid target handle =>
    some { s.setCall s.nextCall ⟨kind, valid, target, handle, .check, .absent⟩ with
      nextCall := s.nextCall + 1 }
  | .advance c ok => s.advance size c ok
  | .dequeue w c => s.dequeue w c
  | .invoke w c => s.invoke w c
  | .complete w => s.completeNotification w
  | .stop w => some { s with accepting := Function.update s.accepting w false }
  | .beginWait i w =>
    if s.waits i = .outside then some { s with waits := Function.update s.waits i (.load w) }
    else none
  | .waitUntilIdle i => s.waitUntilIdle i

/-- All interleavings of any threads. -/
def system (size : Nat) : System ForeignExecutor Label where
  init s := s = fresh
  step := step size

/-! ## What is counted -/

end ForeignExecutor

/-- The call is inside `Notify` or `Resume`. -/
def CallPc.inside : CallPc → Bool
  | .outside | .returned _ => false
  | _ => true

/-- The call has raised the counter, and its notification is not accepted. -/
def CallPc.posting : CallPc → Bool
  | .enqueue | .complete => true
  | _ => false

/-- The call has been rejected, or is yet to be accepted. -/
def CallPc.unaccepted : CallPc → Bool
  | .storePending | .wake | .returned true => false
  | _ => true

/-- Accepted, and not run. -/
def ForeignStage.waiting : ForeignStage → Bool
  | .queued | .taken => true
  | _ => false

/-- The callable has run. -/
def ForeignStage.hasRun : ForeignStage → Bool
  | .ran | .completed => true
  | _ => false

theorem CallPc.inside_of_posting {pc : CallPc} (h : pc.posting = true) : pc.inside = true := by
  cases pc with
  | enqueue | complete => rfl
  | _ => cases h

namespace ForeignExecutor

/-- The calls on the executor of worker `w` whose call satisfies `p`. -/
def number (p : ForeignCall → Bool) (w : Nat) (s : ForeignExecutor) : Nat :=
  Nat.count (fun c => (decide ((s.calls c).target = w) && p (s.calls c)) = true) s.nextCall

/-- The notifications accepted for `w` that have not run. -/
def notRun (w : Nat) (s : ForeignExecutor) : Nat := s.number (fun call => call.stage.waiting) w

/-- The calls inside `Notify` or `Resume` that have raised the counter without an acceptance. -/
def posting (w : Nat) (s : ForeignExecutor) : Nat := s.number (fun call => call.pc.posting) w

/-- The calls for a worker that are inside `Notify` or `Resume`. -/
def insideCalls (w : Nat) (s : ForeignExecutor) : Nat := s.number (fun call => call.pc.inside) w

/-- The notifications that have run and whose completion is still to come. -/
def completing (w : Nat) (s : ForeignExecutor) : Nat :=
  s.number (fun call => decide (call.stage = .ran)) w

theorem posting_le_insideCalls (w : Nat) (s : ForeignExecutor) : s.posting w ≤ s.insideCalls w := by
  refine Nat.count_mono_left fun c _ h => ?_
  rw [and_eq_true] at h ⊢
  exact ⟨h.1, CallPc.inside_of_posting h.2⟩

/-- What a call contributes to the counter of its executor. -/
def share (call : ForeignCall) : Nat :=
  call.stage.waiting.toNat + call.pc.posting.toNat + (decide (call.stage = .ran)).toNat

variable {size : Nat} {s s' : ForeignExecutor} {c w : Nat} {call : ForeignCall}

theorem number_setCall (p : ForeignCall → Bool) (hc : c < s.nextCall)
    (ht : call.target = (s.calls c).target) (w : Nat) :
    (s.setCall c call).number p w + (if (s.calls c).target = w then (p (s.calls c)).toNat else 0) =
      s.number p w + if (s.calls c).target = w then (p call).toNat else 0 := by
  have hcount : (s.setCall c call).number p w +
      (decide ((s.calls c).target = w) && p (s.calls c)).toNat =
        s.number p w + (decide (call.target = w) && p call).toNat :=
    count_update (fun x : ForeignCall => decide (x.target = w) && p x) s.calls call hc
  rw [ht] at hcount
  by_cases hw : (s.calls c).target = w
  · rw [if_pos hw, if_pos hw]
    simpa only [hw, decide_true, Bool.true_and] using hcount
  rw [if_neg hw, if_neg hw]
  simpa only [hw, decide_false, Bool.false_and, Bool.toNat_false] using hcount

/-! ## The invariant -/

/-- Where the call and its notification are, together. -/
def CallOk (call : ForeignCall) : Prop := call.pc.unaccepted = true ↔ call.stage = .absent

/-- The counters, in terms of where the calls and their notifications are. -/
structure Inv (s : ForeignExecutor) : Prop where
  unused : ∀ c, s.nextCall ≤ c → s.calls c = idleCall
  calls : ∀ c, CallOk (s.calls c)
  pending : ∀ w, s.pending w = (s.notRun w + s.posting w + s.completing w : Nat)
  running : ∀ w c, s.running w = some c ↔ (s.calls c).target = w ∧ (s.calls c).stage = .ran
  runs : ∀ w c, (w, c) ∈ s.runs ↔ (s.calls c).target = w ∧ (s.calls c).stage.hasRun = true
  once : (s.runs.map Prod.snd).Nodup

open ForeignStage (hasRun waiting)

theorem inv_fresh : Inv fresh where
  unused _ _ := rfl
  calls _ := by simp [CallOk, fresh, idleCall, CallPc.unaccepted]
  pending w := by simp [fresh, notRun, posting, completing, number]
  running w c := by simp [fresh, idleCall]
  runs w c := by simp [fresh, idleCall, hasRun]
  once := nodup_nil

theorem Inv.begun (hinv : Inv s) (hc : (s.calls c).pc ≠ .outside ∨ (s.calls c).stage ≠ .absent) :
    c < s.nextCall := by
  by_contra hge
  rw [hinv.unused c (by omega)] at hc
  rcases hc with h | h <;> exact h rfl

variable {δ : Int}

/-- **A call moves**, and the counter of its executor changes by what that changes in its share. -/
theorem pending_move {s₁ : ForeignExecutor} (hinv : Inv s) (call : ForeignCall)
    (hc : c < s.nextCall)
    (ht : call.target = (s.calls c).target) (hδ : share (s.calls c) + δ = share call)
    (hcalls : s₁.calls = update s.calls c call) (hnext : s₁.nextCall = s.nextCall)
    (hpending : s₁.pending =
      update s.pending (s.calls c).target (s.pending (s.calls c).target + δ)) (w : Nat) :
    s₁.pending w = (s₁.notRun w + s₁.posting w + s₁.completing w : Nat) := by
  have hsame : ∀ p, s₁.number p w = (s.setCall c call).number p w := by
    intro p
    rw [number, hcalls, hnext]
    rfl
  have hwaiting := number_setCall (fun x : ForeignCall => x.stage.waiting) hc ht w
  have hposting := number_setCall (fun x : ForeignCall => x.pc.posting) hc ht w
  have hran := number_setCall (fun x : ForeignCall => decide (x.stage = .ran)) hc ht w
  rw [notRun, posting, completing, hsame, hsame, hsame, hpending]
  have hold := hinv.pending w
  simp only [notRun, posting, completing] at hold
  simp only [share] at hδ
  by_cases hw : (s.calls c).target = w
  · rw [if_pos hw, if_pos hw] at hwaiting hposting hran
    rw [hw, update_self, hold]
    omega
  rw [if_neg hw, if_neg hw] at hwaiting hposting hran
  rw [update_of_ne (Ne.symm hw), hold]
  omega

theorem Inv.unused_update (hinv : Inv s) (hc : c < s.nextCall) :
    ∀ v, s.nextCall ≤ v → update s.calls c call v = idleCall := by
  intro v hv
  have hne : v ≠ c := Nat.ne_of_gt (Nat.lt_of_lt_of_le hc hv)
  rw [update_of_ne hne]
  exact hinv.unused v hv

theorem Inv.calls_update (hinv : Inv s) (hok : CallOk call) :
    ∀ v, CallOk (update s.calls c call v) := by
  intro v
  by_cases hv : v = c
  · rw [hv, update_self]
    exact hok
  rw [update_of_ne hv]
  exact hinv.calls v

/-- The notification of a call keeps its stage, and so does what the worker knows of it. -/
theorem Inv.call_moves (hinv : Inv s) (call : ForeignCall) (hc : c < s.nextCall)
    (ht : call.target = (s.calls c).target) (hok : CallOk call)
    (hδ : share (s.calls c) + δ = share call)
    (hran : call.stage = .ran ↔ (s.calls c).stage = .ran)
    (hhas : call.stage.hasRun = (s.calls c).stage.hasRun) :
    Inv ((s.addPending (s.calls c).target δ).setCall c call) where
  unused := hinv.unused_update hc
  calls := hinv.calls_update hok
  pending := pending_move hinv call hc ht hδ rfl rfl rfl
  running w v := by
    show s.running w = some v ↔ (update s.calls c call v).target = w ∧
      (update s.calls c call v).stage = .ran
    by_cases hv : v = c
    · rw [hv, update_self, ht, hran]
      exact hinv.running w c
    rw [update_of_ne hv]
    exact hinv.running w v
  runs w v := by
    show (w, v) ∈ s.runs ↔ (update s.calls c call v).target = w ∧
      (update s.calls c call v).stage.hasRun = true
    by_cases hv : v = c
    · rw [hv, update_self, ht, hhas]
      exact hinv.runs w c
    rw [update_of_ne hv]
    exact hinv.runs w v
  once := hinv.once

/-! ## The steps -/

/-- What a call does at a program point, but for the enqueue that is accepted: where it gets, and
    what it adds to the counter. -/
inductive Moves : CallPc → Int → CallPc → Prop where
  | allocate : Moves .check 0 .allocate
  | resume : Moves .check 0 .raise
  | refused : Moves .check 0 (.returned false)
  | allocated : Moves .allocate 0 .raise
  | noMemory : Moves .allocate 0 (.returned false)
  | raise : Moves .raise 1 .enqueue
  | notQueued : Moves .enqueue 0 .complete
  | storePending : Moves .storePending 0 .wake
  | wake : Moves .wake 0 (.returned true)
  | complete : Moves .complete (-1) (.returned false)

theorem addPending_zero (w : Nat) (s : ForeignExecutor) : s.addPending w 0 = s := by
  rw [addPending, Int.add_zero, update_eq_self]

variable {ok : Bool}

theorem advance_cases (h : s.advance size c ok = some s') : (∃ δ pc, Moves (s.calls c).pc δ pc ∧
      s' = (s.addPending (s.calls c).target δ).setCall c { s.calls c with pc := pc }) ∨
    ((s.calls c).pc = .enqueue ∧ (s.calls c).target < size ∧
      s' = s.setCall c { s.calls c with pc := .storePending, stage := .queued }) := by
  have hmoves : ∀ pc, Moves (s.calls c).pc 0 pc → some (s.setPc c pc) = some s' →
      ∃ δ pc, Moves (s.calls c).pc δ pc ∧
        s' = (s.addPending (s.calls c).target δ).setCall c { s.calls c with pc := pc } := by
    intro pc hmove hs
    refine ⟨0, pc, hmove, ?_⟩
    rw [addPending_zero]
    exact (some.inj hs).symm
  cases hpc : (s.calls c).pc with
  | outside | returned _ => simp [advance, hpc] at h
  | check =>
    simp only [advance, hpc] at h
    rw [hpc] at hmoves
    left
    split at h
    · split at h
      · exact hmoves _ .allocate h
      · exact hmoves _ .resume h
    · exact hmoves _ .refused h
  | allocate =>
    simp only [advance, hpc] at h
    rw [hpc] at hmoves
    left
    split at h
    · exact hmoves _ .allocated h
    · exact hmoves _ .noMemory h
  | raise =>
    simp only [advance, hpc] at h
    exact .inl ⟨1, _, .raise, (some.inj h).symm⟩
  | enqueue =>
    simp only [advance, hpc] at h
    rw [hpc] at hmoves
    split at h
    · next hguard => exact .inr ⟨rfl, hguard.1, (some.inj h).symm⟩
    · exact .inl (hmoves _ .notQueued h)
  | storePending =>
    simp only [advance, hpc] at h
    rw [hpc] at hmoves
    exact .inl (hmoves _ .storePending h)
  | wake =>
    simp only [advance, hpc] at h
    rw [hpc] at hmoves
    exact .inl (hmoves _ .wake h)
  | complete =>
    simp only [advance, hpc] at h
    exact .inl ⟨-1, _, .complete, (some.inj h).symm⟩

variable {pc pc' : CallPc}

theorem Moves.begun (h : Moves pc δ pc') : pc ≠ .outside := by
  cases h <;> simp

/-- Only the enqueue itself makes an acceptance. -/
theorem Moves.unaccepted_eq (h : Moves pc δ pc') : pc'.unaccepted = pc.unaccepted := by
  cases h <;> rfl

theorem Moves.posting_eq (h : Moves pc δ pc') :
    (pc.posting.toNat : Int) + δ = pc'.posting.toNat := by
  cases h <;> rfl

theorem advance_inv (hinv : Inv s) (h : s.advance size c ok = some s') : Inv s' := by
  have hcall := hinv.calls c
  rcases advance_cases h with ⟨δ, pc, hmove, rfl⟩ | ⟨hpc, _, rfl⟩
  · refine hinv.call_moves _ (hinv.begun (.inl hmove.begun)) rfl ?_ ?_ .rfl rfl
    · show pc.unaccepted = true ↔ _
      rw [hmove.unaccepted_eq]
      exact hcall
    · have hposting := hmove.posting_eq
      simp only [share]
      omega
  have habsent : (s.calls c).stage = .absent := hcall.mp (by rw [hpc]; rfl)
  have hbegun : c < s.nextCall := hinv.begun (.inl (by rw [hpc]; decide))
  have hmoves := hinv.call_moves { s.calls c with pc := .storePending, stage := .queued }
    (δ := 0) hbegun rfl (by simp [CallOk, CallPc.unaccepted])
    (by simp [share, hpc, habsent, CallPc.posting, waiting])
    (by simp [habsent]) (by simp [habsent, hasRun])
  rwa [addPending_zero] at hmoves

theorem dequeue_inv {c : Nat} (hinv : Inv s) (h : s.dequeue w c = some s') : Inv s' := by
  rw [dequeue] at h
  split at h
  · next hguard =>
    obtain ⟨_, _, hqueued⟩ := hguard
    cases h
    have hcall := hinv.calls c
    rw [CallOk, hqueued] at hcall
    have hmoves := hinv.call_moves { s.calls c with stage := .taken } (δ := 0)
      (hinv.begun (.inr (by rw [hqueued]; decide))) rfl (by simpa [CallOk] using hcall)
      (by simp [share, hqueued, waiting])
      (by simp [hqueued]) (by simp [hqueued, hasRun])
    rwa [addPending_zero] at hmoves
  · cases h

/-- The worker runs a notification: nobody else is at it, and it was never run before. -/
theorem invoke_inv {c : Nat} (hinv : Inv s) (h : s.invoke w c = some s') : Inv s' := by
  rw [invoke] at h
  split at h
  · next hguard =>
    obtain ⟨hidle, htarget, htaken⟩ := hguard
    have hcall := hinv.calls c
    rw [CallOk, htaken] at hcall
    have hbegun : c < s.nextCall := hinv.begun (.inr (by rw [htaken]; decide))
    cases h
    refine ⟨hinv.unused_update hbegun, hinv.calls_update (by simpa [CallOk] using hcall), ?_, ?_,
      ?_, ?_⟩
    · refine pending_move hinv { s.calls c with stage := .ran } hbegun rfl (δ := 0)
        (by simp [share, htaken, waiting]; omega) rfl rfl ?_
      rw [Int.add_zero, update_eq_self]
      rfl
    · intro w' v
      show update s.running w (some c) w' = some v ↔
        (update s.calls c _ v).target = w' ∧ (update s.calls c _ v).stage = .ran
      by_cases hv : v = c
      · rw [hv, update_self]
        by_cases hw : w' = w
        · rw [hw, update_self]
          simp [htarget]
        rw [update_of_ne hw, hinv.running w' c, htaken]
        simp [htarget, Ne.symm hw]
      rw [update_of_ne hv, ← hinv.running w' v]
      by_cases hw : w' = w
      · rw [hw, update_self, hidle]
        simp [Ne.symm hv]
      · rw [update_of_ne hw]
    · intro w' v
      show (w', v) ∈ s.runs ++ [(w, c)] ↔ (update s.calls c _ v).target = w' ∧
        (update s.calls c _ v).stage.hasRun = true
      rw [mem_append, hinv.runs w' v]
      by_cases hv : v = c
      · rw [hv, update_self, htaken]
        simp [htarget, hasRun, eq_comm]
      rw [update_of_ne hv]
      simp [hv]
    · show ((s.runs ++ [(w, c)]).map Prod.snd).Nodup
      rw [map_append]
      refine nodup_append.mpr ⟨hinv.once, by simp, ?_⟩
      intro v hv v' hv' heq
      obtain ⟨⟨w', x⟩, hmem, hx⟩ := mem_map.mp hv
      have hxc : x = c := by
        rw [← hx] at heq
        exact heq.trans (mem_singleton.mp hv')
      have hrun := ((hinv.runs w' x).mp hmem).2
      rw [hxc, htaken] at hrun
      cases hrun
  · cases h

/-- The worker completes the notification it has run, on the counter of its own executor. -/
theorem completeNotification_inv (hinv : Inv s) (h : s.completeNotification w = some s') :
    Inv s' := by
  rw [completeNotification] at h
  split at h
  · cases h
  rename_i c hrunning
  obtain ⟨htarget, hran⟩ := (hinv.running w c).mp hrunning
  have hcall := hinv.calls c
  rw [CallOk, hran] at hcall
  have hbegun : c < s.nextCall := hinv.begun (.inr (by rw [hran]; decide))
  have hbefore : share (s.calls c) = (s.calls c).pc.posting.toNat + 1 := by
    simp [share, hran, waiting]
  have hafter : share { s.calls c with stage := .completed } = (s.calls c).pc.posting.toNat := by
    simp [share, waiting]
  cases h
  refine ⟨hinv.unused_update hbegun, hinv.calls_update (by simpa [CallOk] using hcall), ?_, ?_, ?_,
    hinv.once⟩
  · exact pending_move hinv { s.calls c with stage := .completed } hbegun rfl
      (by rw [hbefore, hafter]; omega) rfl rfl rfl
  · intro w' v
    show update s.running w none w' = some v ↔
      (update s.calls c _ v).target = w' ∧ (update s.calls c _ v).stage = .ran
    by_cases hw : w' = w
    · rw [hw, update_self]
      by_cases hv : v = c
      · rw [hv, update_self]
        simp
      rw [update_of_ne hv, ← hinv.running w v, hrunning]
      simp [Ne.symm hv]
    rw [update_of_ne hw, hinv.running w' v]
    by_cases hv : v = c
    · rw [hv, update_self]
      simp [htarget, Ne.symm hw]
    · rw [update_of_ne hv]
  · intro w' v
    show (w', v) ∈ s.runs ↔ (update s.calls c _ v).target = w' ∧
      (update s.calls c _ v).stage.hasRun = true
    rw [hinv.runs w' v]
    by_cases hv : v = c
    · rw [hv, update_self, hran]
      simp [hasRun]
    · rw [update_of_ne hv]

/-- A new call has no share yet. -/
theorem call_inv (hinv : Inv s) (kind : ForeignKind) (valid : Bool) (target : Nat) (handle : Bool)
    (h : s.step size (.call kind valid target handle) = some s') : Inv s' := by
  cases h
  have hlast := hinv.unused s.nextCall le_rfl
  have hstage : ∀ v, (update s.calls s.nextCall
      ⟨kind, valid, target, handle, .check, .absent⟩ v).stage = (s.calls v).stage := by
    intro v
    by_cases hv : v = s.nextCall
    · rw [hv, update_self, hlast]
      rfl
    · rw [update_of_ne hv]
  have htarget : ∀ v, (s.calls v).stage ≠ .absent → (update s.calls s.nextCall
      ⟨kind, valid, target, handle, .check, .absent⟩ v).target = (s.calls v).target := by
    intro v hne
    have hv : v ≠ s.nextCall := by
      intro hv
      rw [hv, hlast] at hne
      exact hne rfl
    rw [update_of_ne hv]
  have hnumber : ∀ (p : ForeignCall → Bool) (w : Nat),
      p ⟨kind, valid, target, handle, .check, .absent⟩ = false →
      number p w { s.setCall s.nextCall ⟨kind, valid, target, handle, .check, .absent⟩ with
        nextCall := s.nextCall + 1 } = s.number p w := by
    intro p w hp
    rw [number, Nat.count_succ, if_neg]
    · refine count_congr fun i hi => ?_
      show (decide ((update s.calls s.nextCall _ i).target = w) &&
        p (update s.calls s.nextCall _ i)) = true ↔ _
      rw [update_of_ne (Nat.ne_of_lt hi)]
    show ¬(decide ((update s.calls s.nextCall _ s.nextCall).target = w) &&
      p (update s.calls s.nextCall _ s.nextCall)) = true
    rw [update_self, hp, Bool.and_false]
    exact false_ne_true
  refine ⟨?_, hinv.calls_update (by simp [CallOk, CallPc.unaccepted]), ?_, ?_, ?_, hinv.once⟩
  · intro v hv
    have hne : v ≠ s.nextCall := Nat.ne_of_gt hv
    exact (update_of_ne hne _ _).trans (hinv.unused v (Nat.le_of_succ_le hv))
  · intro w
    rw [notRun, posting, completing, hnumber _ w rfl, hnumber _ w rfl, hnumber _ w rfl]
    exact hinv.pending w
  · intro w v
    refine (hinv.running w v).trans ?_
    show _ ↔ (update s.calls s.nextCall _ v).target = w ∧
      (update s.calls s.nextCall _ v).stage = .ran
    rw [hstage v]
    refine and_congr_left fun hran => ?_
    rw [htarget v (by rw [hran]; decide)]
  · intro w v
    refine (hinv.runs w v).trans ?_
    show _ ↔ (update s.calls s.nextCall _ v).target = w ∧
      (update s.calls s.nextCall _ v).stage.hasRun = true
    rw [hstage v]
    refine and_congr_left fun hrun => ?_
    have hne : (s.calls v).stage ≠ .absent := by
      intro habsent
      rw [habsent] at hrun
      cases hrun
    rw [htarget v hne]

theorem step_inv {a : Label} (hinv : Inv s) (h : s.step size a = some s') : Inv s' := by
  have hkeep : ∀ accepting waits, Inv { s with accepting := accepting, waits := waits } :=
    fun _ _ => { hinv with }
  cases a with
  | call kind valid target handle => exact call_inv hinv kind valid target handle h
  | advance c ok => exact advance_inv hinv h
  | dequeue w c => exact dequeue_inv hinv h
  | invoke w c => exact invoke_inv hinv h
  | complete w => exact completeNotification_inv hinv h
  | stop w =>
    cases h
    exact hkeep _ _
  | beginWait i w =>
    simp only [step] at h
    refine of_guard h fun _ => ?_
    exact hkeep _ _
  | waitUntilIdle i =>
    simp only [step, waitUntilIdle] at h
    split at h
    · cases h
    · cases h
    · cases h
      exact hkeep _ _
    · split at h
      · cases h
      · cases h
        exact hkeep _ _

theorem reachable_inv (hs : (system size).Reachable s) : Inv s := by
  refine Reachable.invariant (fun s hs => ?_) (fun s a s' hinv h => ?_) hs
  · cases hs
    exact inv_fresh
  · exact step_inv hinv h

/-! ## Results -/

/-- A worker is behind one callable at most. -/
theorem Inv.completing_eq (hinv : Inv s) (w : Nat) :
    s.completing w = (s.running w).isSome.toNat := by
  cases hrunning : s.running w with
  | none =>
    refine Nat.count_iff_forall_not.mpr fun c _ hc => ?_
    rw [and_eq_true, decide_eq_true_iff, decide_eq_true_iff] at hc
    rw [(hinv.running w c).mpr hc] at hrunning
    cases hrunning
  | some c =>
    have hc := (hinv.running w c).mp hrunning
    have hbegun : c < s.nextCall := hinv.begun (.inr (by rw [hc.2]; decide))
    have hone := count_update id (fun _ => false) true hbegun
    have hnone : Nat.count (fun _ => id false = true) s.nextCall = 0 :=
      Nat.count_iff_forall_not.mpr fun _ _ => false_ne_true
    rw [hnone] at hone
    refine (count_congr fun v _ => ?_).trans hone
    rw [and_eq_true, decide_eq_true_iff, decide_eq_true_iff, ← hinv.running w v, hrunning]
    by_cases hv : v = c
    · simp [hv]
    · simp [hv, Ne.symm hv]

/-- The accounting of the executors in one state. -/
structure Exact (size : Nat) (s : ForeignExecutor) : Prop where
  /-- The counter is what is accepted and not run, the calls between their increment and the outcome
      of their enqueue, and the notification the worker is completing; so it never underflows. -/
  pending : ∀ w, s.pending w = s.notRun w + s.posting w + (s.running w).isSome.toNat
  inside : ∀ w, s.posting w ≤ s.insideCalls w
  /-- What is running is behind its callable, and the next step of the worker completes it. -/
  running : ∀ w c, s.running w = some c → (w, c) ∈ s.runs ∧
    ∃ s', s.step size (.complete w) = some s' ∧ s'.pending w = s.pending w - 1 ∧ s'.running w = none
  /-- A call that returned false reaches no worker. -/
  rejected : ∀ c, (s.calls c).pc = .returned false →
    (s.calls c).stage = .absent ∧ ∀ w, (w, c) ∉ s.runs
  accepted : ∀ c, (s.calls c).pc = .returned true → (s.calls c).stage ≠ .absent
  once : (s.runs.map Prod.snd).Nodup
  onTarget : ∀ w c, (w, c) ∈ s.runs → (s.calls c).target = w ∧ (s.calls c).stage ≠ .absent
  /-- With no call on it inside `Notify` or `Resume`, `WaitUntilIdle` returns when all has run. -/
  idle : ∀ i w s', s.step size (.waitUntilIdle i) = some s' → s'.waits i = .returned w →
    s.insideCalls w = 0 → ∀ c, (s.calls c).target = w → (s.calls c).stage ≠ .absent →
      (w, c) ∈ s.runs

theorem waitUntilIdle_returns {i : Nat} (h : s.step size (.waitUntilIdle i) = some s')
    (hreturned : s'.waits i = .returned w) : s.pending w = 0 := by
  simp only [step, waitUntilIdle] at h
  split at h
  · cases h
  · cases h
  · next w' _ =>
    cases h
    simp only [update_self] at hreturned
    split at hreturned
    · next hzero =>
      cases hreturned
      exact hzero
    · cases hreturned
  · split at h
    · cases h
    · cases h
      simp at hreturned

/-- **The counters of foreign calls are exact**, in every interleaving of any threads that post and
    workers that run: what a worker counts as pending is what it has not run, what is being posted
    and the callable it is inside of. -/
theorem reachable_exact (hs : (system size).Reachable s) : Exact size s := by
  have hinv := reachable_inv hs
  have hpending : ∀ w, s.pending w = s.notRun w + s.posting w + (s.running w).isSome.toNat := by
    intro w
    have h := hinv.pending w
    rw [hinv.completing_eq] at h
    omega
  refine ⟨hpending, fun w => posting_le_insideCalls w s, ?_, ?_, ?_, hinv.once, ?_, ?_⟩
  · intro w c hrunning
    obtain ⟨htarget, hran⟩ := (hinv.running w c).mp hrunning
    refine ⟨(hinv.runs w c).mpr ⟨htarget, by rw [hran]; rfl⟩, ?_⟩
    simp only [step, completeNotification, hrunning]
    refine ⟨_, rfl, ?_, update_self _ _ _⟩
    show Function.update s.pending (s.calls c).target _ w = _
    rw [htarget, update_self]
    omega
  · intro c hpc
    have habsent : (s.calls c).stage = .absent := (hinv.calls c).mp (by rw [hpc]; rfl)
    refine ⟨habsent, fun w hmem => ?_⟩
    have hrun := ((hinv.runs w c).mp hmem).2
    rw [habsent] at hrun
    cases hrun
  · intro c hpc habsent
    have hun := (hinv.calls c).mpr habsent
    rw [hpc] at hun
    cases hun
  · intro w c hmem
    obtain ⟨htarget, hrun⟩ := (hinv.runs w c).mp hmem
    refine ⟨htarget, fun habsent => ?_⟩
    rw [habsent] at hrun
    cases hrun
  · intro i w s' hstep hreturned hinside c htarget haccepted
    have hzero := waitUntilIdle_returns hstep hreturned
    rw [hpending w] at hzero
    have hnone : s.notRun w = 0 := by omega
    have hbegun : c < s.nextCall := hinv.begun (.inr haccepted)
    have hc := Nat.count_iff_forall_not.mp hnone c hbegun
    refine (hinv.runs w c).mpr ⟨htarget, ?_⟩
    cases hstage : (s.calls c).stage with
    | absent => exact absurd hstage haccepted
    | queued | taken => exact absurd (by simp [htarget, hstage, waiting]) hc
    | ran | completed => rfl

/-- One call is accepted and its callable runs; another one finds no memory in the queue. -/
def deliveryLabels : List Label :=
  [.call .notify true 0 true, .call .resume true 0 true, .advance 0 true, .advance 0 true,
    .advance 0 true, .advance 0 true, .advance 1 true, .advance 1 true, .advance 1 false,
    .dequeue 0 0, .advance 1 true, .advance 0 true, .advance 0 true, .invoke 0 0]

theorem exact_delivery :
    ∃ s, (system 1).run fresh deliveryLabels = some s ∧ ((s.calls 0).pc = .returned true ∧
      (s.calls 1).pc = .returned false ∧ s.runs = [(0, 0)]) ∧ Exact 1 s := by
  exact exists_run rfl reachable_exact (by decide +kernel)

/-- Behind the callable and in front of `CompleteForeignNotification`, the counter exceeds what has
    not run although no call is inside `Notify` or `Resume`. -/
theorem pending_exceeds :
    ∃ s, (system 1).Reachable s ∧ s.pending 0 = 1 ∧ s.notRun 0 = 0 ∧ s.insideCalls 0 = 0 := by
  exact exists_reachable fresh deliveryLabels rfl (by decide +kernel)

end ForeignExecutor

end Bycorf.Runtime
