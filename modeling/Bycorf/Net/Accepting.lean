/-
  One `TcpListener` from its owning worker's side: accepted sockets are conserved, and what happens
  to those that arrive after `Close`.

  1. **Program** — the functions of `ListenerAcceptState` and of the awaitable on the record of ONE
     listener; what `SubmitAcceptMultishot` answers is a parameter.  `acceptComplete_listener`,
     `consumeAcceptedFd_listener` and `closeListener_listener` say that the worker's functions do
     the same to the record in its table.
  2. **Runs** — completions come while an accept is armed (also behind `Close`: an accept in the
     kernel outlives the descriptor), acceptors call `AcceptUnregistered`, and a waiter that has
     been enqueued runs later.  Sockets are numbered in the order of acceptance, since a number of
     the kernel's comes back once it is closed.
  3. **Results** — every socket is handed out once, closed, or still queued, always.  Nothing is
     handed out behind `Close`, and nothing is left behind, exactly when no accept succeeds behind
     `Close` (`reachable_accepting`): `Complete` queues a socket without a look at `closed_`.
-/
import Bycorf.Net.Worker

namespace Bycorf.Net

open IoUring Lib
open List (count_nil filterMap_map)
open Worker (acceptResult closeFd setListener_self)

/-! ## The program, for one listener -/

namespace Listener

/-- `Arm`, where `SubmitAcceptMultishot` answers `submit`. -/
def arm (submit : Status) (lst : Listener) : Status × Listener :=
  if lst.armed then (Status.okStatus, lst)
  else if lst.fd < 0 then (Worker.listenerClosed, lst)
  else if submit.isOk then (Status.okStatus, { lst with armed := true })
  else (submit, lst)

/-- The re-arm of `Complete`. -/
def rearm (submit : Status) (lst : Listener) : Listener :=
  if (lst.arm submit).1.isOk then (lst.arm submit).2
  else { (lst.arm submit).2 with lastError := (lst.arm submit).1 }

/-- `Complete`, but for the waiter it enqueues. -/
def complete (submit : Status) (res : Int) (more : Bool) (lst : Listener) : Listener :=
  let done := { Worker.acceptResult res lst with waiter := none, armed := lst.armed && more }
  if more ∨ lst.closed then done else done.rearm submit

/-- `ConsumeAcceptedFd`. -/
def consume (lst : Listener) : Option Int × Listener :=
  match lst.acceptedFds with
  | fd :: fds => (some fd, { lst with acceptedFds := fds })
  | [] => (none, if lst.lastError.isOk then lst else { lst with lastError := Status.okStatus })

/-- `Close`: what is left of the listener. -/
def close (lst : Listener) : Listener :=
  if lst.closed then lst else { lst with closed := true, fd := -1, acceptedFds := [] }

end Listener

/-! ## The worker's table -/

section Table

variable (L : Liburing Tag) {w : Worker} {l : Nat} {lst : Listener}

section

variable (h : w.listeners l = some lst)
include h

theorem armListener_listener :
    ∃ submit, (w.armListener L l).1 = (lst.arm submit).1 ∧
      (w.armListener L l).2.listeners l = some (lst.arm submit).2 := by
  refine ⟨(w.backend.submitAcceptMultishot L lst.fd (some (.accept l))).1, ?_⟩
  simp only [Worker.armListener, h, Listener.arm]
  by_cases harmed : lst.armed = true
  · simp only [if_pos harmed]
    exact ⟨trivial, h⟩
  by_cases hfd : lst.fd < 0
  · simp only [if_neg harmed, if_pos hfd]
    exact ⟨trivial, h⟩
  by_cases hok : (w.backend.submitAcceptMultishot L lst.fd (some (.accept l))).1.isOk = true
  · simp only [if_neg harmed, if_neg hfd, if_pos hok]
    exact ⟨trivial, setListener_self _ _ _⟩
  simp only [if_neg harmed, if_neg hfd, if_neg hok]
  exact ⟨trivial, h⟩

theorem rearmListener_listener :
    ∃ submit, (w.rearmListener L l).listeners l = some (lst.rearm submit) := by
  obtain ⟨submit, hstatus, hlst⟩ := armListener_listener L h
  refine ⟨submit, ?_⟩
  simp only [Worker.rearmListener, Listener.rearm, hstatus, hlst]
  by_cases hok : (lst.arm submit).1.isOk = true
  · simp only [hok, if_true]
    exact hlst
  simp only [not_eq_true _ ▸ hok, Bool.false_eq_true, if_false]
  exact setListener_self _ _ _

/-- `Complete`, in the table and on the record. -/
theorem acceptComplete_listener (res : Int) (more : Bool) :
    ∃ submit, (w.acceptComplete L l res more).listeners l =
      some (lst.complete submit res more) := by
  have hdone : (w.acceptDone l res more).listeners l =
      some { acceptResult res lst with waiter := none, armed := lst.armed && more } := by
    simp only [Worker.acceptDone, h]
    exact setListener_self _ _ _
  obtain ⟨submit, hrearm⟩ := rearmListener_listener L hdone
  refine ⟨submit, ?_⟩
  simp only [Worker.acceptComplete, h, Listener.complete]
  by_cases hstop : more = true ∨ lst.closed = true
  · rw [if_pos hstop, if_pos hstop]
    exact hdone
  rw [if_neg hstop, if_neg hstop]
  exact hrearm

theorem consumeAcceptedFd_listener :
    (w.consumeAcceptedFd l).1 = lst.consume.1 ∧
      (w.consumeAcceptedFd l).2.listeners l = some lst.consume.2 := by
  simp only [Worker.consumeAcceptedFd, h, Listener.consume]
  cases hfds : lst.acceptedFds with
  | cons fd fds => exact ⟨rfl, setListener_self _ _ _⟩
  | nil =>
    cases hok : lst.lastError.isOk with
    | true => simp [h]
    | false => simp [setListener_self]

theorem closeListener_listener : (w.closeListener L l).listeners l = some lst.close := by
  simp only [Worker.closeListener, h, Listener.close]
  by_cases hclosed : lst.closed = true
  · rw [if_pos hclosed, if_pos hclosed]
    exact h
  rw [if_neg hclosed, if_neg hclosed]
  by_cases hfd : 0 ≤ lst.fd
  · by_cases hdpdk : isDpdkSocket lst.fd = true
    · simp [hfd, hdpdk, closeFd, setListener_self]
    · simp [hfd, hdpdk, closeFd, setListener_self]
  · simp [hfd, setListener_self]

end

end Table

/-! ## Runs -/

/-- What happens to an accepted socket, and the `Close`. -/
inductive AcceptEvent where
  | accepted (fd : Int)            -- an accept completed with a socket
  | handed (a : Nat) (fd : Int)    -- `ConsumeAcceptedFd` gave it to acceptor `a`
  | discarded (fd : Int)           -- `CloseAllAcceptedFds` closed it
  | closed                         -- `Close` ran
deriving DecidableEq, Repr

/-- A listener on its worker. -/
structure Accepting where
  lst : Listener
  ready : List Nat                 -- waiters enqueued and not yet run
  nextSocket : Nat
  nextAcceptor : Nat
  log : List AcceptEvent           -- bookkeeping of the model

namespace Accepting

/-- A listener that has been bound. -/
def fresh : Accepting where
  lst := ⟨7, false, false, [], none, Status.okStatus⟩
  ready := []
  nextSocket := 0
  nextAcceptor := 0
  log := []

/-- What `Complete` got: a socket, or an error. -/
inductive Result where
  | socket
  | error (errno : Nat)
deriving DecidableEq, Repr

/-- The accept completes with `result`; a re-arm is answered with `submit`. -/
def complete (result : Result) (more : Bool) (submit : Status) (s : Accepting) : Option Accepting :=
  if s.lst.armed then
    match result with
    | .socket =>
      some { s with
        lst := s.lst.complete submit s.nextSocket more
        ready := s.ready ++ s.lst.waiter.toList
        nextSocket := s.nextSocket + 1
        log := s.log ++ [.accepted s.nextSocket] }
    | .error errno =>
      some { s with
        lst := s.lst.complete submit (-(errno + 1 : Nat)) more
        ready := s.ready ++ s.lst.waiter.toList }
  else none

/-- `await_resume` of acceptor `a`, behind its guards. -/
def resume (a : Nat) (s : Accepting) : Accepting :=
  match s.lst.consume.1 with
  | some fd => { s with lst := s.lst.consume.2, log := s.log ++ [.handed a fd] }
  | none => { s with lst := s.lst.consume.2 }

/-- `AcceptUnregistered` by the next acceptor: `await_suspend`, and `await_resume` where it does not
    suspend.  An immediate status does not touch the listener. -/
def accept (submit : Status) (s : Accepting) : Accepting :=
  let next := { s with nextAcceptor := s.nextAcceptor + 1 }
  if s.lst.fd < 0 ∨ s.lst.closed then next
  else if s.lst.acceptedFds ≠ [] ∨ s.lst.lastError.isOk = false then next.resume s.nextAcceptor
  else if s.lst.waiter.isSome then next
  else if (s.lst.arm submit).1.isOk then
    { next with lst := { (s.lst.arm submit).2 with waiter := some s.nextAcceptor } }
  else next

/-- A waiter that has been enqueued runs. -/
def runWaiter (i : Nat) (s : Accepting) : Option Accepting :=
  match s.ready[i]? with
  | some a => some ({ s with ready := s.ready.eraseIdx i }.resume a)
  | none => none

/-- `Close`. -/
def close (s : Accepting) : Accepting :=
  if s.lst.closed then s
  else { s with
    lst := s.lst.close
    log := s.log ++ s.lst.acceptedFds.map .discarded ++ [.closed] }

/-- What happens next to the listener: a completion, or a call of its owner. -/
inductive Label where
  | complete (result : Result) (more : Bool) (submit : Status)
  | accept (submit : Status)
  | runWaiter (i : Nat)
  | close
deriving DecidableEq, Repr

/-- One step on the owning worker. -/
def step (s : Accepting) : Label → Option Accepting
  | .complete result more submit => s.complete result more submit
  | .accept submit => some (s.accept submit)
  | .runWaiter i => s.runWaiter i
  | .close => some s.close

/-- All sequences of these. -/
def system : System Accepting Label where
  init s := s = fresh
  step := step

end Accepting

/-! ## What a step does to the queue -/

namespace Listener

@[simp] theorem arm_acceptedFds (submit : Status) (lst : Listener) :
    (lst.arm submit).2.acceptedFds = lst.acceptedFds ∧ (lst.arm submit).2.closed = lst.closed := by
  simp only [arm]
  split
  · exact ⟨rfl, rfl⟩
  split
  · exact ⟨rfl, rfl⟩
  · split <;> exact ⟨rfl, rfl⟩

theorem rearm_acceptedFds (submit : Status) (lst : Listener) :
    (lst.rearm submit).acceptedFds = lst.acceptedFds ∧ (lst.rearm submit).closed = lst.closed := by
  have harm := arm_acceptedFds submit lst
  simp only [rearm]
  split <;> exact harm

theorem complete_acceptedFds (submit : Status) (res : Int) (more : Bool) (lst : Listener) :
    (lst.complete submit res more).acceptedFds =
        lst.acceptedFds ++ (if 0 ≤ res then [res] else []) ∧
      (lst.complete submit res more).closed = lst.closed := by
  have hresult : (acceptResult res lst).acceptedFds =
        lst.acceptedFds ++ (if 0 ≤ res then [res] else []) ∧
      (acceptResult res lst).closed = lst.closed := by
    simp only [acceptResult]
    by_cases hres : 0 ≤ res
    · simp only [if_pos hres]
      exact ⟨trivial, trivial⟩
    simp only [if_neg hres, append_nil]
    split
    · exact ⟨rfl, rfl⟩
    · split <;> exact ⟨rfl, rfl⟩
  simp only [complete]
  split
  · exact hresult
  have hrearm := rearm_acceptedFds submit
    { acceptResult res lst with waiter := none, armed := lst.armed && more }
  exact ⟨hrearm.1.trans hresult.1, hrearm.2.trans hresult.2⟩

theorem consume_cons {lst : Listener} {fd : Int} {fds : List Int}
    (h : lst.acceptedFds = fd :: fds) :
    lst.consume = (some fd, { lst with acceptedFds := fds }) := by
  rw [consume, h]

theorem consume_nil {lst : Listener} (h : lst.acceptedFds = []) : lst.consume =
    (none, if lst.lastError.isOk then lst else { lst with lastError := Status.okStatus }) := by
  rw [consume, h]

end Listener

namespace AcceptEvent

def isAccepted : AcceptEvent → Bool
  | .accepted _ => true
  | _ => false

def isHanded : AcceptEvent → Bool
  | .handed _ _ => true
  | _ => false

def acceptedFd : AcceptEvent → Option Int
  | .accepted fd => some fd
  | _ => none

def handedFd : AcceptEvent → Option Int
  | .handed _ fd => some fd
  | _ => none

def discardedFd : AcceptEvent → Option Int
  | .discarded fd => some fd
  | _ => none

end AcceptEvent

namespace Accepting

open AcceptEvent

variable {s s' : Accepting}

/-- An event of this kind came behind `Close`. -/
def Late (kind : AcceptEvent → Bool) (log : List AcceptEvent) : Prop :=
  ∃ front back, log = front ++ .closed :: back ∧ ∃ e ∈ back, kind e = true

section Log

variable {kind : AcceptEvent → Bool} {log : List AcceptEvent} {e : AcceptEvent}

theorem Late.closed_mem (h : Late kind log) : .closed ∈ log := by
  obtain ⟨front, back, rfl, _⟩ := h
  exact mem_append_right front (.head back)

theorem late_concat : Late kind (log ++ [e]) ↔ Late kind log ∨ (.closed ∈ log ∧ kind e = true) := by
  constructor
  · rintro ⟨front, back, heq, x, hx, hkind⟩
    rcases List.eq_nil_or_concat back with rfl | ⟨back', z, rfl⟩
    · exact absurd hx not_mem_nil
    have hassoc : log ++ [e] = (front ++ .closed :: back') ++ [z] := by
      rw [heq]
      simp
    obtain ⟨hlog, hlast⟩ := List.append_inj' hassoc rfl
    cases hlast
    rw [List.concat_eq_append] at hx
    rcases mem_append.mp hx with hback | hlast
    · exact .inl ⟨front, back', hlog, x, hback, hkind⟩
    rw [mem_singleton.mp hlast] at hkind
    exact .inr ⟨hlog ▸ mem_append_right front (.head back'), hkind⟩
  · rintro (⟨front, back, rfl, x, hx, hkind⟩ | ⟨hclosed, hkind⟩)
    · exact ⟨front, back ++ [e], by simp, x, mem_append_left _ hx, hkind⟩
    · obtain ⟨front, back, rfl⟩ := List.append_of_mem hclosed
      exact ⟨front, back ++ [e], by simp, e, by simp, hkind⟩

theorem filterMap_concat (f : AcceptEvent → Option Int) (log : List AcceptEvent) (e : AcceptEvent) :
    (log ++ [e]).filterMap f = log.filterMap f ++ (f e).toList := by
  rw [filterMap_append]
  cases hfe : f e <;> simp [hfe]

end Log

/-! ## The invariant -/

/-- How often the socket `fd` is in the log in this way. -/
def times (f : AcceptEvent → Option Int) (fd : Int) (log : List AcceptEvent) : Nat :=
  (log.filterMap f).count fd

/-- Each socket that was accepted has been handed out, discarded or is still queued. -/
structure Inv (s : Accepting) : Prop where
  closed : s.lst.closed = true ↔ .closed ∈ s.log
  balance : ∀ fd, times acceptedFd fd s.log =
    times handedFd fd s.log + times discardedFd fd s.log + s.lst.acceptedFds.count fd
  numbered : ∀ fd ∈ s.log.filterMap acceptedFd, fd < s.nextSocket
  distinct : (s.log.filterMap acceptedFd).Nodup
  /-- A closed listener has sockets queued only behind a late accept. -/
  emptied : s.lst.closed = true → s.lst.acceptedFds ≠ [] → Late isAccepted s.log
  /-- What came late is still there, unless something was handed out late. -/
  late : Late isAccepted s.log → s.lst.acceptedFds ≠ [] ∨ Late isHanded s.log
  handed : Late isHanded s.log → Late isAccepted s.log

theorem inv_fresh : Inv fresh where
  closed := by decide
  balance _ := rfl
  numbered _ h := absurd h not_mem_nil
  distinct := nodup_nil
  emptied h := by cases h
  late h := absurd h.closed_mem not_mem_nil
  handed h := absurd h.closed_mem not_mem_nil

section

variable (hinv : Inv s)
include hinv

/-- The listener changes without its queue, and nothing is recorded. -/
theorem Inv.same (hlog : s'.log = s.log) (hsocket : s'.nextSocket = s.nextSocket)
    (hfds : s'.lst.acceptedFds = s.lst.acceptedFds) (hclosed : s'.lst.closed = s.lst.closed) :
    Inv s' where
  closed := by rw [hlog, hclosed]; exact hinv.closed
  balance := by rw [hlog, hfds]; exact hinv.balance
  numbered := by rw [hlog, hsocket]; exact hinv.numbered
  distinct := by rw [hlog]; exact hinv.distinct
  emptied := by rw [hlog, hfds, hclosed]; exact hinv.emptied
  late := by rw [hlog, hfds]; exact hinv.late
  handed := by rw [hlog]; exact hinv.handed

/-- A socket is accepted and queued. -/
theorem Inv.accepts (hlog : s'.log = s.log ++ [.accepted s.nextSocket])
    (hsocket : s'.nextSocket = s.nextSocket + 1)
    (hfds : s'.lst.acceptedFds = s.lst.acceptedFds ++ [(s.nextSocket : Int)])
    (hclosed : s'.lst.closed = s.lst.closed) : Inv s' where
  closed := by
    rw [hlog, hclosed, hinv.closed]
    simp
  balance fd := by
    have hold := hinv.balance fd
    simp only [times, hlog, hfds, filterMap_concat, count_append, acceptedFd, handedFd,
      discardedFd, Option.toList_some, Option.toList_none, count_nil] at hold ⊢
    omega
  numbered fd hfd := by
    rw [hlog, filterMap_concat] at hfd
    rw [hsocket]
    rcases mem_append.mp hfd with hold | hnew
    · have := hinv.numbered fd hold
      omega
    have : fd = s.nextSocket := by simpa [acceptedFd] using hnew
    omega
  distinct := by
    rw [hlog, filterMap_concat]
    refine nodup_append.mpr ⟨hinv.distinct, by simp [acceptedFd], ?_⟩
    intro x hx y hy hxy
    have hlt := hinv.numbered x hx
    have : y = s.nextSocket := by simpa [acceptedFd] using hy
    omega
  emptied hc _ := by
    rw [hclosed] at hc
    rw [hlog, late_concat]
    exact .inr ⟨hinv.closed.mp hc, rfl⟩
  late _ := by
    rw [hfds]
    exact .inl (by simp)
  handed h := by
    rw [hlog, late_concat] at h ⊢
    rcases h with hold | ⟨_, hkind⟩
    · exact .inl (hinv.handed hold)
    · cases hkind

/-- The head of the queue is handed out. -/
theorem Inv.hands {a : Nat} {fd : Int} {fds : List Int}
    (hqueue : s.lst.acceptedFds = fd :: fds) (hlog : s'.log = s.log ++ [.handed a fd])
    (hsocket : s'.nextSocket = s.nextSocket) (hfds : s'.lst.acceptedFds = fds)
    (hclosed : s'.lst.closed = s.lst.closed) : Inv s' := by
  have hnonempty : s.lst.acceptedFds ≠ [] := by
    rw [hqueue]
    exact List.cons_ne_nil fd fds
  refine ⟨?_, fun x => ?_, ?_, ?_, fun hc _ => ?_, fun h => ?_, fun h => ?_⟩
  · rw [hlog, hclosed, hinv.closed]
    simp
  · have hold := hinv.balance x
    rw [hqueue, ← List.singleton_append, count_append] at hold
    simp only [times, hlog, hfds, filterMap_concat, count_append, acceptedFd, handedFd,
      discardedFd, Option.toList_some, Option.toList_none, count_nil] at hold ⊢
    omega
  · rw [hlog, hsocket, filterMap_concat]
    simpa [acceptedFd] using hinv.numbered
  · rw [hlog, filterMap_concat]
    simpa [acceptedFd] using hinv.distinct
  · rw [hclosed] at hc
    rw [hlog, late_concat]
    exact .inl (hinv.emptied hc hnonempty)
  · rw [hlog, late_concat] at h ⊢
    rcases h with hold | ⟨_, hkind⟩
    · exact .inr (.inr ⟨hold.closed_mem, rfl⟩)
    · cases hkind
  · rw [hlog, late_concat] at h ⊢
    rcases h with hold | ⟨hc, _⟩
    · exact .inl (hinv.handed hold)
    · exact .inl (hinv.emptied (hinv.closed.mpr hc) hnonempty)

theorem resume_inv (a : Nat) : Inv (s.resume a) := by
  cases hqueue : s.lst.acceptedFds with
  | cons fd fds =>
    rw [resume, Listener.consume_cons hqueue]
    exact hinv.hands hqueue rfl rfl rfl rfl
  | nil =>
    rw [resume, Listener.consume_nil hqueue]
    refine hinv.same rfl rfl ?_ ?_
    · show (if _ then _ else _ : Listener).acceptedFds = _
      split <;> rfl
    · show (if _ then _ else _ : Listener).closed = _
      split <;> rfl

theorem complete_inv {result : Result} {more : Bool} {submit : Status}
    (h : s.complete result more submit = some s') : Inv s' := by
  simp only [complete] at h
  split at h
  · split at h
    · cases h
      have hqueue := Listener.complete_acceptedFds submit s.nextSocket more s.lst
      rw [if_pos (Int.natCast_nonneg s.nextSocket)] at hqueue
      exact hinv.accepts rfl rfl hqueue.1 hqueue.2
    · next errno =>
      cases h
      have hqueue := Listener.complete_acceptedFds submit (-(errno + 1 : Nat)) more s.lst
      rw [if_neg (by omega), append_nil] at hqueue
      exact hinv.same rfl rfl hqueue.1 hqueue.2
  · cases h

theorem accept_inv (submit : Status) : Inv (s.accept submit) := by
  have hnext : Inv { s with nextAcceptor := s.nextAcceptor + 1 } := hinv.same rfl rfl rfl rfl
  rw [accept]
  split
  · exact hnext
  split
  · exact resume_inv hnext s.nextAcceptor
  split
  · exact hnext
  split
  · have harm := Listener.arm_acceptedFds submit s.lst
    exact hinv.same rfl rfl harm.1 harm.2
  · exact hnext

theorem runWaiter_inv {i : Nat} (h : s.runWaiter i = some s') : Inv s' := by
  rw [runWaiter] at h
  split at h
  · next a _ =>
    cases h
    have hpopped : Inv { s with ready := s.ready.eraseIdx i } := hinv.same rfl rfl rfl rfl
    exact resume_inv hpopped a
  · cases h

/-- `Close` discards the queue. -/
theorem close_inv : Inv s.close := by
  rw [close]
  split
  · exact hinv
  rename_i hopen
  have hnot : AcceptEvent.closed ∉ s.log ++ s.lst.acceptedFds.map .discarded := by
    intro hmem
    rcases mem_append.mp hmem with hlog | hmap
    · exact hopen (hinv.closed.mpr hlog)
    obtain ⟨_, _, hne⟩ := mem_map.mp hmap
    cases hne
  have hnever : ∀ kind, ¬Late kind (s.log ++ s.lst.acceptedFds.map .discarded ++ [.closed]) := by
    intro kind h
    rcases late_concat.mp h with hold | ⟨hmem, _⟩
    · exact hnot hold.closed_mem
    · exact hnot hmem
  have hclose : s.lst.close = { s.lst with closed := true, fd := -1, acceptedFds := [] } := by
    rw [Listener.close, if_neg hopen]
  have haccepted : (s.lst.acceptedFds.map AcceptEvent.discarded).filterMap acceptedFd = [] := by
    simp [filterMap_map, Function.comp_def, acceptedFd]
  have hhanded : (s.lst.acceptedFds.map AcceptEvent.discarded).filterMap handedFd = [] := by
    simp [filterMap_map, Function.comp_def, handedFd]
  have hdiscarded : (s.lst.acceptedFds.map AcceptEvent.discarded).filterMap discardedFd =
      s.lst.acceptedFds := by
    simp [filterMap_map, Function.comp_def, discardedFd]
  rw [hclose]
  refine ⟨?_, fun fd => ?_, ?_, ?_, fun _ h => absurd rfl h, fun h => absurd h (hnever _),
    fun h => absurd h (hnever _)⟩
  · simp
  · have hold := hinv.balance fd
    rw [times, times, times, filterMap_concat, filterMap_concat, filterMap_concat]
    simp only [times, filterMap_append, count_append, haccepted, hhanded, hdiscarded,
      acceptedFd, handedFd, discardedFd, Option.toList_none, count_nil] at hold ⊢
    omega
  · rw [filterMap_concat, filterMap_append, haccepted]
    simpa [acceptedFd] using hinv.numbered
  · rw [filterMap_concat, filterMap_append, haccepted]
    simpa [acceptedFd] using hinv.distinct

end

theorem reachable_inv (hs : system.Reachable s) : Inv s := by
  refine Reachable.invariant (fun s hs => ?_) (fun s a s' hinv hstep => ?_) hs
  · cases hs
    exact inv_fresh
  · cases a with
    | complete result more submit => exact complete_inv hinv hstep
    | accept submit =>
      cases hstep
      exact accept_inv hinv submit
    | runWaiter i => exact runWaiter_inv hinv hstep
    | close =>
      cases hstep
      exact close_inv hinv

/-! ## Results -/

/-- Every accepted socket has been handed out once, or closed by the listener, or is queued. -/
structure Conserved (s : Accepting) : Prop where
  distinct : (s.log.filterMap acceptedFd).Nodup
  places : (s.log.filterMap acceptedFd).Perm
    (s.log.filterMap handedFd ++ s.log.filterMap discardedFd ++ s.lst.acceptedFds)

/-- Nothing is handed out behind `Close`, and with no task pending nothing is left in a closed
    listener. -/
structure Clean (s : Accepting) : Prop where
  handed : ¬Late isHanded s.log
  emptied : s.lst.closed = true → s.ready = [] → s.lst.acceptedFds = []

theorem Inv.conserved (hinv : Inv s) : Conserved s where
  distinct := hinv.distinct
  places := by
    refine List.perm_iff_count.mpr fun fd => ?_
    rw [count_append, count_append]
    exact hinv.balance fd

/-- **Main result**: a listener is clean as long as no accept succeeds behind its `Close`; and when
    one has, it is not clean once the tasks have run. -/
theorem reachable_accepting (hs : system.Reachable s) :
    Conserved s ∧ (¬Late isAccepted s.log → Clean s) ∧
      (s.ready = [] → (Clean s ↔ ¬Late isAccepted s.log)) := by
  have hinv := reachable_inv hs
  have hclean : ¬Late isAccepted s.log → Clean s := by
    intro hlate
    refine ⟨fun h => hlate (hinv.handed h), fun hclosed _ => ?_⟩
    by_contra hqueue
    exact hlate (hinv.emptied hclosed hqueue)
  refine ⟨hinv.conserved, hclean, fun hready => ⟨fun h hlate => ?_, hclean⟩⟩
  rcases hinv.late hlate with hqueue | hhanded
  · exact hqueue (h.emptied (hinv.closed.mpr hlate.closed_mem) hready)
  · exact h.handed hhanded

/-- An acceptor waits while the listener is closed; the accept in the kernel then succeeds. -/
def lateLabels : List Label :=
  [.accept Status.okStatus, .close, .complete .socket true Status.okStatus]

/-- **The socket is handed out behind `Close`**, and one more stays in the closed listener. -/
theorem accepted_behind_close :
    (∃ s, system.Reachable s ∧ Late isHanded s.log) ∧
      ∃ s, system.Reachable s ∧ s.lst.closed = true ∧ s.ready = [] ∧ s.lst.waiter = none ∧
        s.lst.armed = false ∧ s.lst.acceptedFds = [1] := by
  have hrun : ∃ s ∈ system.run fresh (lateLabels ++ [.runWaiter 0]),
      s.log = [.closed, .accepted 0, .handed 0 0] := by decide +kernel
  obtain ⟨s, hs, hlog⟩ := hrun
  refine ⟨⟨s, Reachable.run (.init rfl) _ hs, ?_⟩, exists_reachable fresh (lateLabels ++
    [.runWaiter 0, .complete .socket false Status.okStatus]) rfl (by decide +kernel)⟩
  rw [hlog]
  exact ⟨[], [.accepted 0, .handed 0 0], rfl, .handed 0 0, by simp, rfl⟩

theorem accepting_in_time :
    ∃ s, system.run fresh [.accept Status.okStatus, .complete .socket true Status.okStatus,
      .complete .socket true Status.okStatus, .runWaiter 0, .close,
      .complete (.error 124) false Status.okStatus] = some s ∧
        s.log = [.accepted 0, .accepted 1, .handed 0 0, .discarded 1, .closed] ∧
          Conserved s ∧ (¬Late isAccepted s.log → Clean s) ∧
            (s.ready = [] → (Clean s ↔ ¬Late isAccepted s.log)) := by
  exact exists_run rfl reachable_accepting (by decide +kernel)

end Accepting

end Bycorf.Net
