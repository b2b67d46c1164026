/-
  `TcpService`: `Stop`, called from any threads, against `Run` on every worker.

  1. **Program** — a thread in `Stop` (`StopPc`) goes through the exchange of `stopping_` and its
     pass over the workers, one load of `ready_`, one `Notify` or one `RequestStop` at a time.  A
     worker's `Run` (`RunPc`) publishes `ready_`, loads `stopping_`, binds its listeners one by one
     without a suspension, and suspends in its accept loop.
  2. **Threads** — a worker's thread runs a posted notification, or destroys the frame of `Run`,
     only from its event loop: while `Run` is suspended, has not begun or is over.
  3. **Invariant** — `Accounted` for a worker the pass has gone by: its `Run` has yet to load
     `stopping_` (and will find it set), has found it set, or has been notified or asked to stop.
     The load of `ready_` behind the exchange and the load of `stopping_` behind the publication
     make it true, and nothing undoes it.
  4. **Results** — `reachable_stops`.
-/
import Bycorf.Lib.Transition

namespace Bycorf.Net

open Lib Function

/-! ## The program -/

/-- Where `Run` of a worker is: in front of the step that is named. -/
inductive RunPc where
  | idle                           -- not begun
  | publish                        -- `ready_.store(true)`
  | check                          -- `stopping_.load()`
  | binding                        -- the loop over the endpoints and addresses
  | accepting                      -- suspended in `AcceptLoop`
  | cleanup                        -- leaving: `CloseListeners` of the cleanup object
  | returned
  | destroyed                      -- the frame was destroyed while suspended
deriving DecidableEq, Repr

/-- A worker as the service sees it. -/
structure ServiceWorker where
  pc : RunPc
  ready : Bool                     -- `WorkerControl::ready_`
  mail : Nat                       -- `CloseListeners` notifications posted and not run
  listeners : List Bool            -- the bound listeners: is it open?
  -- bookkeeping of the model
  posted : Bool                    -- `Stop` has posted `CloseListeners`
  delivered : Bool                 -- and it has run
  requested : Bool                 -- `Stop` has called `RequestStop`
  observed : Bool                  -- `Run` has found `stopping_` set
  closes : List RunPc              -- where `Run` was when `CloseListeners` ran
deriving DecidableEq, Repr

/-- Where a thread in `Stop` is. -/
inductive StopPc where
  | outside
  | exchange                       -- `stopping_.exchange(true)`
  | pass (i : Nat)                 -- the head of the loop: `ready_.load()` of worker `i`
  | notify (i : Nat)               -- `Notify`
  | request (i : Nat)              -- `RequestStop`
  | finished                       -- returned behind its pass
  | second                         -- returned since `stopping_` was set
deriving DecidableEq, Repr

/-- `TcpService`: the flag, its workers and the calls of `Stop`. -/
structure TcpService where
  stopping : Bool
  workers : Nat → ServiceWorker
  stoppers : Nat → StopPc

namespace ServiceWorker

def fresh : ServiceWorker where
  pc := .idle
  ready := false
  mail := 0
  listeners := []
  posted := false
  delivered := false
  requested := false
  observed := false
  closes := []

/-- `CloseListeners`. -/
def closeListeners (x : ServiceWorker) : ServiceWorker :=
  { x with listeners := x.listeners.map fun _ => false, closes := x.closes ++ [x.pc] }

/-- The next step of `Run`, where that needs no choice. -/
def advance (stopping : Bool) (x : ServiceWorker) : Option ServiceWorker :=
  match x.pc with
  | .idle => some { x with pc := .publish }
  | .publish => some { x with ready := true, pc := .check }
  | .check =>
    if stopping then some { x with observed := true, pc := .returned }
    else some { x with pc := .binding }
  | .cleanup => some { x.closeListeners with pc := .returned }
  | _ => none

/-- One listener is bound, or an address cannot be resolved or bound. -/
def bind (ok : Bool) (x : ServiceWorker) : Option ServiceWorker :=
  match x.pc with
  | .binding =>
    if ok then some { x with listeners := x.listeners ++ [true] }
    else some { x with pc := .cleanup }
  | _ => none

/-- All is bound: the accept loop, or an error where there is nothing to accept on. -/
def bound (x : ServiceWorker) : Option ServiceWorker :=
  match x.pc with
  | .binding => some { x with pc := if x.listeners = [] then .cleanup else .accepting }
  | _ => none

/-- The accept loop ends. -/
def leave (x : ServiceWorker) : Option ServiceWorker :=
  match x.pc with
  | .accepting => some { x with pc := .cleanup }
  | _ => none

/-- The frame is destroyed on its thread, and its cleanup object with it. -/
def destroy (x : ServiceWorker) : Option ServiceWorker :=
  match x.pc with
  | .accepting => some { x.closeListeners with pc := .destroyed }
  | _ => none

/-- The thread is in its event loop, not inside `Run`. -/
def inLoop (x : ServiceWorker) : Bool :=
  match x.pc with
  | .idle | .accepting | .returned | .destroyed => true
  | _ => false

/-- A posted notification runs. -/
def deliver (x : ServiceWorker) : Option ServiceWorker :=
  if x.inLoop ∧ 0 < x.mail then
    some { x.closeListeners with mail := x.mail - 1, delivered := true }
  else none

end ServiceWorker

namespace TcpService

def fresh : TcpService where
  stopping := false
  workers _ := .fresh
  stoppers _ := .outside

def setWorker (w : Nat) (x : ServiceWorker) (s : TcpService) : TcpService :=
  { s with workers := Function.update s.workers w x }

def setStopper (t : Nat) (pc : StopPc) (s : TcpService) : TcpService :=
  { s with stoppers := Function.update s.stoppers t pc }

/-- The next step of thread `t` in `Stop`; `ok` is what `Notify` answers. -/
def stop (threadCount t : Nat) (ok : Bool) (s : TcpService) : Option TcpService :=
  match s.stoppers t with
  | .outside => some (s.setStopper t .exchange)
  | .exchange =>
    some ({ s with stopping := true }.setStopper t (if s.stopping then .second else .pass 0))
  | .pass i =>
    if i < threadCount then
      some (s.setStopper t (if (s.workers i).ready then .notify i else .pass (i + 1)))
    else some (s.setStopper t .finished)
  | .notify i =>
    if ok then
      some ((s.setWorker i
        { s.workers i with mail := (s.workers i).mail + 1, posted := true }).setStopper t
          (.pass (i + 1)))
    else some (s.setStopper t (.request i))
  | .request i =>
    some ((s.setWorker i { s.workers i with requested := true }).setStopper t (.pass (i + 1)))
  | .finished | .second => none

/-- The next step of a call of `Stop`, of a worker or of a notification. -/
inductive Label where
  | stop (t : Nat) (ok : Bool)
  | advance (w : Nat)
  | bind (w : Nat) (ok : Bool)
  | bound (w : Nat)
  | leave (w : Nat)
  | destroy (w : Nat)
  | deliver (w : Nat)
deriving DecidableEq, Repr

/-- One step of the service. -/
def step (threadCount : Nat) (s : TcpService) : Label → Option TcpService
  | .stop t ok => s.stop threadCount t ok
  | .advance w => ((s.workers w).advance s.stopping).map (s.setWorker w ·)
  | .bind w ok => ((s.workers w).bind ok).map (s.setWorker w ·)
  | .bound w => (s.workers w).bound.map (s.setWorker w ·)
  | .leave w => (s.workers w).leave.map (s.setWorker w ·)
  | .destroy w => (s.workers w).destroy.map (s.setWorker w ·)
  | .deliver w => (s.workers w).deliver.map (s.setWorker w ·)

/-- All interleavings of these. -/
def system (threadCount : Nat) : System TcpService Label where
  init s := s = fresh
  step := step threadCount

end TcpService

/-! ## What one worker can do -/

/-- A step of a worker, or of a thread in `Stop` on that worker's record. -/
inductive ServiceMove (stopping : Bool) : ServiceWorker → ServiceWorker → Prop where
  | begin_ {x} (h : x.pc = .idle) : ServiceMove stopping x { x with pc := .publish }
  | publish {x} (h : x.pc = .publish) :
      ServiceMove stopping x { x with ready := true, pc := .check }
  | observe {x} (h : x.pc = .check) (hstop : stopping = true) :
      ServiceMove stopping x { x with observed := true, pc := .returned }
  | startBinding {x} (h : x.pc = .check) (hstop : stopping = false) :
      ServiceMove stopping x { x with pc := .binding }
  | cleanup {x} (h : x.pc = .cleanup) :
      ServiceMove stopping x { x.closeListeners with pc := .returned }
  | bind {x} (h : x.pc = .binding) :
      ServiceMove stopping x { x with listeners := x.listeners ++ [true] }
  | bindFails {x} (h : x.pc = .binding) : ServiceMove stopping x { x with pc := .cleanup }
  | accepting {x} (h : x.pc = .binding) : ServiceMove stopping x { x with pc := .accepting }
  | leave {x} (h : x.pc = .accepting) : ServiceMove stopping x { x with pc := .cleanup }
  | destroy {x} (h : x.pc = .accepting) :
      ServiceMove stopping x { x.closeListeners with pc := .destroyed }
  | deliver {x} (h : x.inLoop = true) (hmail : 0 < x.mail) :
      ServiceMove stopping x { x.closeListeners with mail := x.mail - 1, delivered := true }
  | post {x} (h : x.ready = true) :
      ServiceMove stopping x { x with mail := x.mail + 1, posted := true }
  | request {x} : ServiceMove stopping x { x with requested := true }

/-- `Run` has not loaded `stopping_` yet. -/
def RunPc.beforeCheck : RunPc → Bool
  | .idle | .publish | .check => true
  | _ => false

/-- `Run` is behind its binding phase. -/
def RunPc.behindBinding : RunPc → Bool
  | .accepting | .cleanup | .returned | .destroyed => true
  | _ => false

/-- The frame of `Run` is gone. -/
def RunPc.gone : RunPc → Bool
  | .returned | .destroyed => true
  | _ => false

variable {pc : RunPc}

theorem RunPc.of_gone (h : pc.gone = true) : pc.behindBinding = true ∧ pc.beforeCheck = false := by
  revert h
  cases pc <;> decide

namespace ServiceWorker

variable {stopping : Bool} {x x' : ServiceWorker}

/-- No listener is open. -/
def allClosed (x : ServiceWorker) : Prop := ∀ isOpen ∈ x.listeners, isOpen = false

theorem allClosed_closeListeners (x : ServiceWorker) : x.closeListeners.allClosed := by
  intro isOpen h
  obtain ⟨_, _, rfl⟩ := mem_map.mp h
  rfl

/-- The invariant of one worker. -/
structure Ok (x : ServiceWorker) : Prop where
  published : x.ready = true ↔ x.pc ≠ .idle ∧ x.pc ≠ .publish
  mail : 0 < x.mail → x.posted = true
  posted : x.posted = true → x.ready = true
  hasRun : x.posted = true → x.mail = 0 → x.delivered = true
  delivered : x.delivered = true → x.pc.behindBinding = true ∧ x.allClosed
  gone : x.pc.gone = true → x.allClosed
  unbound : x.pc.beforeCheck = true → x.listeners = []
  observed : x.observed = true → x.pc = .returned ∧ x.listeners = []
  closes : ∀ pc ∈ x.closes, pc ≠ .binding

theorem ok_fresh : Ok fresh where
  published := by decide
  mail h := absurd h (by decide)
  posted h := by cases h
  hasRun h := by cases h
  delivered h := by cases h
  gone h := by cases h
  unbound _ := rfl
  observed h := by cases h
  closes _ h := absurd h not_mem_nil

section

variable (hx : Ok x)
include hx

theorem closes_closeListeners (h : x.pc ≠ .binding) :
    ∀ pc ∈ x.closeListeners.closes, pc ≠ .binding := by
  intro pc hpc
  rcases mem_append.mp hpc with hold | hnew
  · exact hx.closes pc hold
  rw [mem_singleton.mp hnew]
  exact h

/-- A worker that has published itself and is in its loop is behind the binding. -/
theorem Ok.behindBinding_of_inLoop (hready : x.ready = true) (h : x.inLoop = true) :
    x.pc.behindBinding = true := by
  have hpublished := hx.published.mp hready
  cases hpc : x.pc with
  | accepting | cleanup | returned | destroyed => rfl
  | idle => exact absurd hpc hpublished.1
  | publish => exact absurd hpc hpublished.2
  | check | binding =>
    rw [inLoop, hpc] at h
    cases h

theorem deliver_ok (h : x.inLoop = true) (hmail : 0 < x.mail) :
    Ok { x.closeListeners with mail := x.mail - 1, delivered := true } := by
  have hready := hx.posted (hx.mail hmail)
  have hbehind := hx.behindBinding_of_inLoop hready h
  have hbinding : x.pc ≠ .binding := by
    intro hpc
    rw [hpc] at hbehind
    cases hbehind
  refine ⟨hx.published, fun _ => hx.mail hmail, hx.posted, fun _ _ => rfl, fun _ => ?_, fun _ => ?_,
    fun hbefore => ?_, fun hobserved => ?_, closes_closeListeners hx hbinding⟩
  · exact ⟨hbehind, allClosed_closeListeners x⟩
  · exact allClosed_closeListeners x
  · show x.listeners.map _ = []
    rw [hx.unbound hbefore]
    rfl
  · obtain ⟨hpc, hnone⟩ := hx.observed hobserved
    refine ⟨hpc, ?_⟩
    show x.listeners.map _ = []
    rw [hnone]
    rfl

/-- `Run` goes on, and its frame is not gone. -/
theorem Ok.goto (hready : x.ready = true ↔ pc ≠ .idle ∧ pc ≠ .publish)
    (hbehind : x.delivered = true → pc.behindBinding = true) (hgone : pc.gone = false)
    (hbefore : pc.beforeCheck = true → x.listeners = []) (hobserved : x.pc ≠ .returned) :
    Ok { x with pc := pc } where
  published := hready
  mail := hx.mail
  posted := hx.posted
  hasRun := hx.hasRun
  delivered h := ⟨hbehind h, (hx.delivered h).2⟩
  gone h := by
    change pc.gone = true at h
    rw [hgone] at h
    cases h
  unbound := hbefore
  observed h := absurd (hx.observed h).1 hobserved
  closes := hx.closes

/-- `CloseListeners` as the frame goes. -/
theorem Ok.goes (hpc : x.pc.behindBinding = true) (hne : x.pc ≠ .returned)
    (hgone : pc.gone = true) : Ok { x.closeListeners with pc := pc } := by
  have hbinding : x.pc ≠ .binding := by
    intro h
    rw [h] at hpc
    cases hpc
  have hready : x.ready = true := hx.published.mpr (by
    constructor <;> intro h <;> rw [h] at hpc <;> cases hpc)
  refine ⟨⟨fun _ => ?_, fun _ => hready⟩, hx.mail, hx.posted, hx.hasRun,
    fun _ => ⟨?_, ?_⟩, fun _ => ?_,
    fun hbefore => ?_, fun h => absurd (hx.observed h).1 hne, closes_closeListeners hx hbinding⟩
  · show pc ≠ .idle ∧ pc ≠ .publish
    constructor <;> intro h <;> rw [h] at hgone <;> cases hgone
  · exact (RunPc.of_gone hgone).1
  · exact allClosed_closeListeners x
  · exact allClosed_closeListeners x
  · exact absurd ((RunPc.of_gone hgone).2.symm.trans hbefore) false_ne_true

/-- Nothing has been delivered in front of the binding or in the middle of it. -/
theorem Ok.not_delivered (hpc : x.pc.behindBinding = false) : x.delivered ≠ true := by
  intro h
  have := (hx.delivered h).1
  rw [hpc] at this
  cases this

theorem move_ok (h : ServiceMove stopping x x') : Ok x' := by
  cases h with
  | begin_ hpc =>
    have hready : x.ready ≠ true := fun h => (hx.published.mp h).1 hpc
    refine hx.goto (iff_of_false hready (by simp)) (fun h => ?_) rfl (fun _ => ?_) (by simp [hpc])
    · exact absurd h (hx.not_delivered (by rw [hpc]; rfl))
    · exact hx.unbound (by rw [hpc]; rfl)
  | publish hpc =>
    have hun := hx.unbound (by rw [hpc]; rfl)
    have hnot := hx.not_delivered (by rw [hpc]; rfl)
    exact ⟨by simp, hx.mail, fun _ => rfl, hx.hasRun, fun h => absurd h hnot, nofun,
      fun _ => hun, fun h => (by simpa [hpc] using (hx.observed h).1),
      hx.closes⟩
  | observe hpc hstop =>
    have hun := hx.unbound (by rw [hpc]; rfl)
    have hready : x.ready = true := hx.published.mpr (by simp [hpc])
    have hclosed : x.allClosed := by
      intro isOpen h
      rw [hun] at h
      exact absurd h not_mem_nil
    exact ⟨by simp [hready], hx.mail, hx.posted, hx.hasRun, fun _ => ⟨rfl, hclosed⟩,
      fun _ => hclosed, nofun, fun _ => ⟨rfl, hun⟩, hx.closes⟩
  | startBinding hpc hstop =>
    have hready : x.ready = true := hx.published.mpr (by simp [hpc])
    refine hx.goto (by simp [hready]) (fun h => ?_) rfl (nofun) (by simp [hpc])
    exact absurd h (hx.not_delivered (by rw [hpc]; rfl))
  | cleanup hpc | destroy hpc => exact hx.goes (by rw [hpc]; rfl) (by simp [hpc]) rfl
  | bind hpc =>
    have hnot := hx.not_delivered (by rw [hpc]; rfl)
    refine ⟨hx.published, hx.mail, hx.posted, hx.hasRun, fun h => absurd h hnot, fun h => ?_,
      fun h => ?_, fun h => ?_, hx.closes⟩
    · change x.pc.gone = true at h
      rw [hpc] at h
      cases h
    · change x.pc.beforeCheck = true at h
      rw [hpc] at h
      cases h
    · have := (hx.observed h).1
      rw [hpc] at this
      cases this
  | bindFails hpc | accepting hpc =>
    have hready : x.ready = true := hx.published.mpr (by simp [hpc])
    refine hx.goto (by simp [hready]) (fun h => ?_) rfl (nofun) (by simp [hpc])
    rfl
  | leave hpc =>
    have hready : x.ready = true := hx.published.mpr (by simp [hpc])
    exact hx.goto (by simp [hready]) (fun _ => rfl) rfl (nofun) (by simp [hpc])
  | deliver hloop hmail => exact deliver_ok hx hloop hmail
  | post hready =>
    exact { hx with
      mail := fun _ => rfl
      posted := fun _ => hready
      hasRun := fun _ h => absurd h (Nat.succ_ne_zero _) }
  | request =>
    exact { hx with }

end

/-- **Nobody is missed**: `Run` has yet to look, has seen the stop, or has been told. -/
def Accounted (x : ServiceWorker) : Prop :=
  x.pc.beforeCheck = true ∨ x.observed = true ∨ x.posted = true ∨ x.requested = true

/-- Once the stop is there, nobody gets from the check to the binding. -/
theorem move_accounted (hx : x.Accounted) (h : ServiceMove true x x') : x'.Accounted := by
  have hother : x'.observed = x.observed → x'.posted = x.posted → x'.requested = x.requested →
      (x.pc.beforeCheck = true → x'.Accounted) → x'.Accounted := by
    intro hobserved hposted hrequested hbefore
    rcases hx with hcheck | htold
    · exact hbefore hcheck
    rw [Accounted, hobserved, hposted, hrequested]
    exact .inr htold
  cases h with
  | begin_ hpc | publish hpc => exact .inl rfl
  | observe hpc hstop => exact .inr (.inl rfl)
  | startBinding hpc hstop => cases hstop
  | cleanup hpc | bind hpc | bindFails hpc | accepting hpc | leave hpc | destroy hpc =>
    refine hother rfl rfl rfl fun hbefore => ?_
    rw [hpc] at hbefore
    cases hbefore
  | deliver hloop hmail => exact hother rfl rfl rfl .inl
  | post hready => exact .inr (.inr (.inl rfl))
  | request => exact .inr (.inr (.inr rfl))

theorem move_ready (h : ServiceMove stopping x x') (hready : x.ready = true) : x'.ready = true := by
  cases h <;> first | exact hready | rfl

end ServiceWorker

namespace TcpService

open ServiceWorker

variable {threadCount t w : Nat} {s s' : TcpService} {a : Label}

/-! ## The invariant -/

/-- What a thread in `Stop` has achieved where it is. -/
def StopOk (threadCount : Nat) (s : TcpService) : StopPc → Prop
  | .outside | .exchange | .second => True
  | .pass i => s.stopping = true ∧ ∀ w < i, (s.workers w).Accounted
  | .notify i | .request i =>
    s.stopping = true ∧ (s.workers i).ready = true ∧ ∀ w < i, (s.workers w).Accounted
  | .finished => s.stopping = true ∧ ∀ w < threadCount, (s.workers w).Accounted

/-- What holds for each worker and for each call of `Stop`. -/
structure Inv (threadCount : Nat) (s : TcpService) : Prop where
  workers : ∀ w, (s.workers w).Ok
  stoppers : ∀ t, StopOk threadCount s (s.stoppers t)

theorem inv_fresh : Inv threadCount fresh := ⟨fun _ => ok_fresh, fun _ => trivial⟩

/-- The records a step leaves better off. -/
structure Grows (s s' : TcpService) : Prop where
  stopping : s.stopping = true → s'.stopping = true
  ready : ∀ w, (s.workers w).ready = true → (s'.workers w).ready = true
  accounted : s.stopping = true → ∀ w, (s.workers w).Accounted → (s'.workers w).Accounted

theorem StopOk.grows {pc : StopPc} (hgrows : Grows s s') (h : StopOk threadCount s pc) :
    StopOk threadCount s' pc := by
  cases pc with
  | outside | exchange | second => trivial
  | pass i =>
    exact ⟨hgrows.stopping h.1, fun w hw => hgrows.accounted h.1 w (h.2 w hw)⟩
  | notify i | request i =>
    exact ⟨hgrows.stopping h.1, hgrows.ready i h.2.1,
      fun w hw => hgrows.accounted h.1 w (h.2.2 w hw)⟩
  | finished =>
    exact ⟨hgrows.stopping h.1, fun w hw => hgrows.accounted h.1 w (h.2 w hw)⟩

theorem setWorker_grows {x : ServiceWorker} (h : ServiceMove s.stopping (s.workers w) x) :
    Grows s (s.setWorker w x) where
  stopping := id
  ready v hv := by
    show (update s.workers w x v).ready = true
    by_cases hvw : v = w
    · rw [hvw] at hv
      rw [hvw, update_self]
      exact move_ready h hv
    rw [update_of_ne hvw]
    exact hv
  accounted hstop v hv := by
    show (update s.workers w x v).Accounted
    by_cases hvw : v = w
    · rw [hvw] at hv
      rw [hstop] at h
      rw [hvw, update_self]
      exact move_accounted hv h
    rw [update_of_ne hvw]
    exact hv

theorem setWorker_inv {x : ServiceWorker} (hinv : Inv threadCount s)
    (h : ServiceMove s.stopping (s.workers w) x) : Inv threadCount (s.setWorker w x) where
  workers v := by
    show (update s.workers w x v).Ok
    by_cases hvw : v = w
    · rw [hvw, update_self]
      exact move_ok (hinv.workers w) h
    rw [update_of_ne hvw]
    exact hinv.workers v
  stoppers t := (hinv.stoppers t).grows (setWorker_grows h)

theorem setStopper_inv {pc : StopPc} (hinv : Inv threadCount s) (h : StopOk threadCount s pc) :
    Inv threadCount (s.setStopper t pc) where
  workers := hinv.workers
  stoppers u := by
    show StopOk threadCount s (update s.stoppers t pc u)
    by_cases hu : u = t
    · rw [hu, update_self]
      exact h
    rw [update_of_ne hu]
    exact hinv.stoppers u

/-- One more worker is accounted for. -/
theorem accounted_succ {i : Nat} (h : ∀ w < i, (s.workers w).Accounted)
    (hi : (s.workers i).Accounted) : ∀ w < i + 1, (s.workers w).Accounted := by
  intro w hw
  rcases Nat.lt_succ_iff_lt_or_eq.mp hw with hlt | rfl
  · exact h w hlt
  · exact hi

theorem stop_inv {ok : Bool} (hinv : Inv threadCount s) (h : s.stop threadCount t ok = some s') :
    Inv threadCount s' := by
  have hok := hinv.stoppers t
  rw [stop] at h
  split at h
  · cases h
    exact setStopper_inv hinv trivial
  · cases h
    have hgrows : Grows s { s with stopping := true } :=
      ⟨fun _ => rfl, fun _ h => h, fun _ _ h => h⟩
    have hset : Inv threadCount { s with stopping := true } :=
      ⟨hinv.workers, fun u => (hinv.stoppers u).grows hgrows⟩
    refine setStopper_inv hset ?_
    split
    · trivial
    · exact ⟨rfl, fun w hw => absurd hw (Nat.not_lt_zero w)⟩
  · next i hpc =>
    rw [hpc] at hok
    split at h
    · cases h
      refine setStopper_inv hinv ?_
      split
      · next hready => exact ⟨hok.1, hready, hok.2⟩
      rename_i hnot
      -- not published: its load of `stopping_` is still to come
      have hbefore : (s.workers i).pc.beforeCheck = true := by
        have hpub := (hinv.workers i).published
        cases hcase : (s.workers i).pc with
        | idle | publish | check => rfl
        | _ => exact absurd (hpub.mpr (by simp [hcase])) hnot
      exact ⟨hok.1, accounted_succ hok.2 (.inl hbefore)⟩
    · next hall =>
      cases h
      exact setStopper_inv hinv ⟨hok.1, fun w hw => hok.2 w (by omega)⟩
  · next i hpc =>
    rw [hpc] at hok
    split at h
    · cases h
      have hmove : ServiceMove s.stopping (s.workers i) _ := .post hok.2.1
      refine setStopper_inv (setWorker_inv hinv hmove) ⟨hok.1, accounted_succ ?_ ?_⟩
      · exact fun w hw => (setWorker_grows hmove).accounted hok.1 w (hok.2.2 w hw)
      · show (update s.workers i _ i).Accounted
        rw [update_self]
        exact .inr (.inr (.inl rfl))
    cases h
    exact setStopper_inv hinv ⟨hok.1, hok.2.1, hok.2.2⟩
  · next i hpc =>
    rw [hpc] at hok
    cases h
    have hmove : ServiceMove s.stopping (s.workers i) _ := .request
    refine setStopper_inv (setWorker_inv hinv hmove) ⟨hok.1, accounted_succ ?_ ?_⟩
    · exact fun w hw => (setWorker_grows hmove).accounted hok.1 w (hok.2.2 w hw)
    · show (update s.workers i _ i).Accounted
      rw [update_self]
      exact .inr (.inr (.inr rfl))
  · cases h
  · cases h

/-- Every other step is a step of one worker. -/
theorem worker_moves {f : ServiceWorker → Option ServiceWorker}
    (hf : ∀ x', f (s.workers w) = some x' → ServiceMove s.stopping (s.workers w) x')
    (hinv : Inv threadCount s) (h : (f (s.workers w)).map (s.setWorker w ·) = some s') :
    Inv threadCount s' := by
  obtain ⟨x', hx', rfl⟩ := map_eq_some_iff.mp h
  exact setWorker_inv hinv (hf x' hx')

section

variable {x x' : ServiceWorker}

theorem advance_moves {stopping : Bool}
    (h : x.advance stopping = some x') : ServiceMove stopping x x' := by
  rw [ServiceWorker.advance] at h
  split at h
  · next hpc =>
    cases h
    exact .begin_ hpc
  · next hpc =>
    cases h
    exact .publish hpc
  · next hpc =>
    split at h
    · next hstop =>
      cases h
      exact .observe hpc hstop
    rename_i hstop
    cases h
    exact .startBinding hpc (eq_false_iff.mpr hstop)
  · next hpc =>
    cases h
    exact .cleanup hpc
  · cases h

theorem bind_moves {stopping ok : Bool} (h : x.bind ok = some x') : ServiceMove stopping x x' := by
  rw [ServiceWorker.bind] at h
  split at h
  · next hpc =>
    split at h
    · cases h
      exact .bind hpc
    cases h
    exact .bindFails hpc
  · cases h

section

variable {stopping : Bool}

theorem bound_moves (h : x.bound = some x') : ServiceMove stopping x x' := by
  rw [ServiceWorker.bound] at h
  split at h
  · next hpc =>
    cases h
    split
    · exact .bindFails hpc
    · exact .accepting hpc
  · cases h

theorem leave_moves (h : x.leave = some x') : ServiceMove stopping x x' := by
  rw [ServiceWorker.leave] at h
  split at h
  · next hpc =>
    cases h
    exact .leave hpc
  · cases h

theorem destroy_moves (h : x.destroy = some x') : ServiceMove stopping x x' := by
  rw [ServiceWorker.destroy] at h
  split at h
  · next hpc =>
    cases h
    exact .destroy hpc
  · cases h

theorem deliver_moves (h : x.deliver = some x') : ServiceMove stopping x x' := by
  rw [ServiceWorker.deliver] at h
  refine of_guard h fun hguard => ?_
  exact .deliver hguard.1 hguard.2

end

end

theorem reachable_inv (hs : (system threadCount).Reachable s) : Inv threadCount s := by
  refine Reachable.invariant (fun s hs => ?_) (fun s a s' hinv hstep => ?_) hs
  · cases hs
    exact inv_fresh
  · cases a with
    | stop t ok => exact stop_inv hinv hstep
    | advance w => exact worker_moves (fun _ => advance_moves) hinv hstep
    | bind w ok => exact worker_moves (fun _ => bind_moves) hinv hstep
    | bound w => exact worker_moves (fun _ => bound_moves) hinv hstep
    | leave w => exact worker_moves (fun _ => leave_moves) hinv hstep
    | destroy w => exact worker_moves (fun _ => destroy_moves) hinv hstep
    | deliver w => exact worker_moves (fun _ => deliver_moves) hinv hstep

/-! ## Results -/

/-- `Stop` misses no worker. -/
structure Stops (threadCount : Nat) (s : TcpService) : Prop where
  /-- Behind the pass of `Stop`, each worker has yet to look (and has bound nothing), has seen the
      stop before it bound anything, or has been told. -/
  noMiss : (∃ t, s.stoppers t = .finished) → ∀ w < threadCount,
    ((s.workers w).pc.beforeCheck = true ∧ s.stopping = true ∧ (s.workers w).listeners = []) ∨
      ((s.workers w).observed = true ∧ (s.workers w).listeners = []) ∨
        (s.workers w).posted = true ∨ (s.workers w).requested = true
  /-- Who looks when the stop is there sees it. -/
  sees : s.stopping = true → ∀ w s', (s.workers w).pc = .check →
    s.step threadCount (.advance w) = some s' → (s'.workers w).observed = true
  notBinding : ∀ w, ∀ pc ∈ (s.workers w).closes, pc ≠ .binding
  /-- A worker's listeners are closed once its notification has run or its frame is gone. -/
  closed : ∀ w, ((s.workers w).posted = true ∧ (s.workers w).mail = 0) ∨
    (s.workers w).pc.gone = true → (s.workers w).allClosed

/-- **`Stop` misses no worker**, in every run of workers that start, bind and leave and of calls of
    `Stop` from any thread: whoever is not told looks at the flag later and binds nothing. -/
theorem reachable_stops (hs : (system threadCount).Reachable s) : Stops threadCount s := by
  have hinv := reachable_inv hs
  refine ⟨?_, ?_, fun w => (hinv.workers w).closes, ?_⟩
  · rintro ⟨t, ht⟩ w hw
    have hok := hinv.stoppers t
    rw [ht] at hok
    rcases hok.2 w hw with hbefore | hobserved | htold
    · exact .inl ⟨hbefore, hok.1, (hinv.workers w).unbound hbefore⟩
    · exact .inr (.inl ⟨hobserved, ((hinv.workers w).observed hobserved).2⟩)
    · exact .inr (.inr htold)
  · intro hstop w s' hpc hstep
    simp only [step, ServiceWorker.advance, hpc, hstop, if_true, Option.map_some] at hstep
    cases hstep
    show (Function.update s.workers w _ w).observed = true
    rw [update_self]
  · rintro w (⟨hposted, hmail⟩ | hgone)
    · exact ((hinv.workers w).delivered ((hinv.workers w).hasRun hposted hmail)).2
    · exact (hinv.workers w).gone hgone

/-- Worker 0 accepts on one listener, and `Stop` is called; `ok` is what its `Notify` answers. -/
def stopLabels (ok : Bool) : List Label :=
  [.advance 0, .advance 0, .advance 0, .bind 0 true, .bound 0, .stop 0 true, .stop 0 true,
    .stop 0 true, .stop 0 ok, .stop 0 true, .stop 0 true]

theorem stops_two_workers :
    ∃ s, (system 2).run fresh (stopLabels true ++
      [.deliver 0, .advance 1, .advance 1, .advance 1]) =
      some s ∧ ((s.workers 0).listeners = [false] ∧ (s.workers 1).observed = true) ∧ Stops 2 s := by
  exact exists_run rfl reachable_stops (by decide +kernel)

/-- **`Notify` fails**: `Stop` is through, no notification is on its way, and the worker that was
    only asked to stop still has its listener open. -/
theorem open_without_notification :
    ∃ s, (system 1).Reachable s ∧ s.stoppers 0 = .finished ∧ (s.workers 0).mail = 0 ∧
      (s.workers 0).requested = true ∧ (s.workers 0).pc = .accepting ∧
        (s.workers 0).listeners = [true] := by
  exact exists_reachable fresh (stopLabels false) rfl (by decide +kernel)

end TcpService

end Bycorf.Net
