/-
  Starting the runtime is all-or-none, and its accounting closes.

  1. **Moves** — `Move` says what a worker thread can do at each program point, and `Moved` what
     that does to the shared state; the launcher has six steps of its own.
  2. **The latch** — the crux is `Inv.opened`: the latch is down only when the launcher is through
     and every thread it created has arrived.  From then on nobody writes `affinity_failed`, so all
     threads read the same value.
  3. **Result** — `reachable_accounted`.
-/
import Bycorf.Runtime.Start

namespace Bycorf.Runtime

open Lib Function
open Nat (count count_le)
open StartEvent (arrived decremented mainReturned pinFailed)

namespace Startup

variable {n : Nat} {pinWorkers : Bool}

/-! ## Moves -/

/-- The steps of a worker thread: where it gets, and what is recorded. -/
inductive Move (s : Startup) (w : Nat) : ThreadPc → Option StartEvent → ThreadPc → Prop where
  | pinned : Move s w .affinity none .arrive
  | pinFails : Move s w .affinity (some .pinFailed) .storeFailed
  | storeFailed : Move s w .storeFailed (some .flagged) .arrive
  | arrive : Move s w .arrive (some .arrived) .wait
  | wait (h : s.latch = 0) : Move s w .wait none .check
  | skip (h : s.affinityFailed = true) : Move s w .check (some .skipped) .close
  | invoke (h : s.affinityFailed = false) : Move s w .check (some .invoked) .main
  | mainReturns (code : Int) : Move s w .main (some (.mainReturned code)) .close
  | close (h : s.localExitCode w = 0) : Move s w .close none .decrement
  | closeFailed (h : s.localExitCode w ≠ 0) : Move s w .close none .failure
  | failure : Move s w .failure (some .exitCode) .requestStop
  | stopAgain : Move s w .requestStop (some .stopBegun) .decrement
  | requestStop : Move s w .requestStop (some .stopBegun) (.closeIngress 0)
  | closeIngress (i : Nat) : Move s w (.closeIngress i) none (.closeIngress (i + 1))
  | ingressClosed (i : Nat) : Move s w (.closeIngress i) none (.stopWorkers 0)
  | stopWorkers (i : Nat) : Move s w (.stopWorkers i) none (.stopWorkers (i + 1))
  | workersStopped (i : Nat) : Move s w (.stopWorkers i) none .decrement
  | last (h : s.activeWorkers = 1) : Move s w .decrement (some .decremented) .write
  | decrement (h : s.activeWorkers ≠ 1) : Move s w .decrement (some .decremented) (.finish false)
  | write : Move s w .write (some .wrote) (.finish true)
  | finish (last : Bool) : Move s w (.finish last) none .exited

/-- One, if this is the event. -/
def occurs (e : Option StartEvent) (x : StartEvent) : Nat := if e = some x then 1 else 0

/-- `local_exit_code` after an event. -/
def codeAfter (code : Int) : Option StartEvent → Int
  | some .pinFailed | some .skipped => 1
  | some (.mainReturned c) => c
  | _ => code

/-- A move of the thread `w`, and what it does to the shared state. -/
structure Moved (s s' : Startup) (w : Nat) (e : Option StartEvent) (pc : ThreadPc) : Prop where
  move : Move s w (s.pc w) e pc
  pc_eq : s'.pc = Function.update s.pc w pc
  log_eq : s'.log = s.log ++ e.toList.map fun x => (w, x)
  launcher_eq : s'.launcher = s.launcher
  launched_eq : s'.launched = s.launched
  latch_eq : s'.latch = s.latch - occurs e .arrived
  active_eq : s'.activeWorkers = s.activeWorkers - occurs e .decremented
  writes_eq : s'.completionWrites = s.completionWrites + occurs e .wrote
  flag_eq : s'.affinityFailed = (s.affinityFailed || decide (e = some .flagged))
  exit_eq : s'.exitCode =
    if e = some .exitCode ∧ s.exitCode = 0 then s.localExitCode w else s.exitCode
  stop_eq : s'.stopRequested = (s.stopRequested || decide (e = some .stopBegun))
  code_eq : s'.localExitCode = Function.update s.localExitCode w (codeAfter (s.localExitCode w) e)

/-- Another thread has asked for a stop, and nothing else happens that matters here. -/
structure Stopped (s s' : Startup) : Prop where
  pc_eq : s'.pc = s.pc
  log_eq : s'.log = s.log
  launcher_eq : s'.launcher = s.launcher
  launched_eq : s'.launched = s.launched
  latch_eq : s'.latch = s.latch
  active_eq : s'.activeWorkers = s.activeWorkers
  writes_eq : s'.completionWrites = s.completionWrites
  flag_eq : s'.affinityFailed = s.affinityFailed
  exit_eq : s'.exitCode = s.exitCode
  stop_le : s.stopRequested = true → s'.stopRequested = true
  code_eq : s'.localExitCode = s.localExitCode

section Steps

variable {s s' : Startup} {w : Nat}

/-- A move that records nothing. -/
theorem quiet_moved {u : Startup} {pc : ThreadPc} (hmove : Move s w (s.pc w) none pc)
    (hu : ∃ accepting workerStop stopped, u = { s with
      accepting := accepting, workerStop := workerStop, stopped := stopped }) :
    Moved s (u.setPc w pc) w none pc := by
  obtain ⟨accepting, workerStop, stopped, rfl⟩ := hu
  refine ⟨hmove, rfl, ?_, rfl, rfl, ?_, ?_, rfl, ?_, ?_, ?_, ?_⟩
  · simp [setPc]
  · simp [occurs, setPc]
  · simp [occurs, setPc]
  · simp [setPc]
  · simp [setPc]
  · simp [setPc]
  · exact (update_eq_self w s.localExitCode).symm

/-- A move that only records. -/
theorem record_moved {pc : ThreadPc} {e : StartEvent} (hmove : Move s w (s.pc w) (some e) pc)
    (he : e = .pinFailed ∨ e = .skipped ∨ e = .invoked ∨ ∃ c, e = .mainReturned c) :
    Moved s (((s.setCode w (codeAfter (s.localExitCode w) (some e))).record w e).setPc w pc) w
      (some e) pc := by
  refine ⟨hmove, rfl, rfl, rfl, rfl, ?_, ?_, ?_, ?_, ?_, ?_, rfl⟩
  all_goals rcases he with rfl | rfl | rfl | ⟨c, rfl⟩ <;> simp [occurs, setPc, record, setCode]

theorem setCode_self (w : Nat) (s : Startup) : s.setCode w (s.localExitCode w) = s := by
  unfold setCode
  rw [update_eq_self]

theorem advance_cases (hs : s.advance n w = some s') : ∃ e pc, Moved s s' w e pc := by
  have hself : update s.localExitCode w (s.localExitCode w) = s.localExitCode :=
    update_eq_self w s.localExitCode
  obtain ⟨p, hpc⟩ : ∃ p, s.pc w = p := ⟨_, rfl⟩
  have hat : ∀ {e pc}, Move s w p e pc → Move s w (s.pc w) e pc := fun h => hpc ▸ h
  rw [advance, hpc] at hs
  cases p with
  | absent | affinity | main | exited =>
    cases hs
  | storeFailed =>
    cases hs
    refine ⟨some .flagged, .arrive, hat .storeFailed, rfl, rfl, rfl, rfl, ?_, ?_, rfl,
      ?_, ?_, ?_, hself.symm⟩
    all_goals simp [occurs, setPc, record]
  | arrive =>
    cases hs
    refine ⟨some .arrived, .wait, hat .arrive, rfl, rfl, rfl, rfl, rfl, ?_, rfl, ?_,
      ?_, ?_, hself.symm⟩
    all_goals simp [occurs, setPc, record]
  | wait =>
    refine of_guard hs fun hlatch => ?_
    exact ⟨none, .check, quiet_moved (hat (.wait hlatch)) ⟨_, _, _, rfl⟩⟩
  | check =>
    dsimp only at hs
    split at hs
    · next hflag =>
      cases hs
      exact ⟨_, _, record_moved (hat (.skip hflag)) (.inr (.inl rfl))⟩
    rename_i hflag
    cases hs
    have hmoved := record_moved
      (hat (.invoke (eq_false_iff.mpr hflag))) (.inr (.inr (.inl rfl)))
    have hcode : s.setCode w (codeAfter (s.localExitCode w) (some .invoked)) = s :=
      setCode_self w s
    rw [hcode] at hmoved
    exact ⟨_, _, hmoved⟩
  | close =>
    cases hs
    refine ⟨none, _, quiet_moved ?_ ⟨_, _, _, rfl⟩⟩
    rw [hpc]
    split
    · next h => exact .close h
    · next h => exact .closeFailed h
  | failure =>
    cases hs
    refine ⟨some .exitCode, .requestStop, hat .failure, rfl, rfl, rfl, rfl, ?_, ?_, rfl,
      ?_, ?_, ?_, hself.symm⟩
    all_goals simp [occurs, setPc, record]
  | requestStop =>
    cases hs
    refine ⟨some .stopBegun, _, ?_, rfl, rfl, rfl, rfl, ?_, ?_, rfl, ?_, ?_, ?_, hself.symm⟩
    · rw [hpc]
      split
      · exact .stopAgain
      · exact .requestStop
    all_goals simp [occurs, setPc, record]
  | closeIngress i =>
    dsimp only at hs
    split at hs
    · cases hs
      exact ⟨none, _, quiet_moved (hat (.closeIngress i)) ⟨_, _, _, rfl⟩⟩
    cases hs
    exact ⟨none, _, quiet_moved (hat (.ingressClosed i)) ⟨_, _, _, rfl⟩⟩
  | stopWorkers i =>
    dsimp only at hs
    split at hs
    · cases hs
      exact ⟨none, _, quiet_moved (hat (.stopWorkers i)) ⟨_, _, _, rfl⟩⟩
    cases hs
    exact ⟨none, _, quiet_moved (hat (.workersStopped i)) ⟨_, _, _, rfl⟩⟩
  | decrement =>
    cases hs
    refine ⟨some .decremented, _, ?_, rfl, rfl, rfl, rfl, ?_, rfl, rfl, ?_, ?_, ?_, hself.symm⟩
    · rw [hpc]
      split
      · next h => exact .last h
      · next h => exact .decrement h
    all_goals simp [occurs, setPc, record]
  | write =>
    cases hs
    refine ⟨some .wrote, _, hat .write, rfl, rfl, rfl, rfl, ?_, ?_, rfl, ?_, ?_, ?_, hself.symm⟩
    all_goals simp [occurs, setPc, record]
  | finish last =>
    cases hs
    exact ⟨none, _, quiet_moved (hat (.finish last)) ⟨_, _, _, rfl⟩⟩

/-- **What a step does**: a thread moves, the launcher goes on, or somebody asks for a stop. -/
theorem step_cases {a : Label} (hs : s.step n pinWorkers a = some s') :
    (∃ w e pc, Moved s s' w e pc) ∨ s.launcherStep n = some s' ∨
      (∃ ok, s.launch n pinWorkers ok = some s') ∨ Stopped s s' := by
  cases a with
  | launcher => exact .inr (.inl hs)
  | launch ok => exact .inr (.inr (.inl ⟨ok, hs⟩))
  | affinity w ok =>
    obtain ⟨hpc, hs⟩ := ite_none_right_eq_some.mp hs
    left
    split at hs
    · cases hs
      exact ⟨w, none, _, quiet_moved (by rw [hpc]; exact .pinned) ⟨_, _, _, rfl⟩⟩
    cases hs
    exact ⟨w, _, _, record_moved (by rw [hpc]; exact .pinFails) (.inl rfl)⟩
  | advance w => exact .inl ⟨w, advance_cases hs⟩
  | mainReturns w code =>
    refine of_guard hs fun hpc => ?_
    exact .inl ⟨w, _, _, record_moved (by rw [hpc]; exact .mainReturns code)
      (.inr (.inr (.inr ⟨code, rfl⟩)))⟩
  | requestStop =>
    cases hs
    exact .inr (.inr (.inr ⟨rfl, rfl, rfl, rfl, rfl, rfl, rfl, rfl, rfl, fun _ => rfl, rfl⟩))
  | closeIngress | stopWorker =>
    refine of_guard hs fun _ => ?_
    exact .inr (.inr (.inr ⟨rfl, rfl, rfl, rfl, rfl, rfl, rfl, rfl, rfl, id, rfl⟩))

end Steps

end Startup

/-! ## The invariant -/

/-- The thread has counted the latch down. -/
def ThreadPc.arrived : ThreadPc → Bool
  | .absent | .affinity | .storeFailed | .arrive => false
  | _ => true

/-- It has passed the latch. -/
def ThreadPc.pastLatch (pc : ThreadPc) : Bool := pc.arrived && decide (pc ≠ .wait)

/-- It has tested the flag. -/
def ThreadPc.pastCheck (pc : ThreadPc) : Bool := pc.pastLatch && decide (pc ≠ .check)

/-- It has returned from the worker function, or skipped it. -/
def ThreadPc.pastMain (pc : ThreadPc) : Bool := pc.pastCheck && decide (pc ≠ .main)

/-- It has taken itself off `active_workers`. -/
def ThreadPc.decremented : ThreadPc → Bool
  | .write | .finish _ | .exited => true
  | _ => false

/-- The thread reports its failure. -/
def ThreadPc.reports : ThreadPc → Bool
  | .requestStop | .closeIngress _ | .stopWorkers _ => true
  | _ => false

/-- The thread stops the others. -/
def ThreadPc.stops : ThreadPc → Bool
  | .closeIngress _ | .stopWorkers _ => true
  | _ => false

/-- What the launcher has taken off the latch. -/
def Launcher.counted (n launched : Nat) : Launcher → Nat
  | .returned => 1
  | .threw => n - launched + 1
  | _ => 0

/-- The handler has made up for the threads that were not created. -/
def Launcher.compensated : Launcher → Bool
  | .failLatch | .threw => true
  | _ => false

open Launcher (compensated counted)

/-- How many threads the launcher has created where it is. -/
def Launcher.Fits (n launched : Nat) : Launcher → Prop
  | .storeActive => launched = 0
  | .launch => launched ≤ n
  | .countDown | .returned => launched = n
  | .failFlag | .failActive | .failLatch | .threw => launched < n

/-- The launching thread is out of the function. -/
def Launcher.finished (l : Launcher) : Bool := decide (l = .returned ∨ l = .threw)

namespace Startup

variable {n : Nat} {pinWorkers : Bool}

/-- What a thread's program point says about the log and the shared state. -/
structure ThreadOk (s : Startup) (v : Nat) (pc : ThreadPc) : Prop where
  absent : pc = .absent → ∀ e, (v, e) ∉ s.log
  arrived : pc.arrived = true ↔ (v, StartEvent.arrived) ∈ s.log
  decided : pc.pastCheck = true ↔ (v, StartEvent.invoked) ∈ s.log ∨ (v, StartEvent.skipped) ∈ s.log
  ended : pc.pastMain = true ↔
    (v, StartEvent.skipped) ∈ s.log ∨ ∃ c, (v, StartEvent.mainReturned c) ∈ s.log
  decremented : pc.decremented = true ↔ (v, StartEvent.decremented) ∈ s.log
  skipped : (v, StartEvent.skipped) ∈ s.log → s.localExitCode v = 1
  returned : ∀ c, (v, StartEvent.mainReturned c) ∈ s.log → s.localExitCode v = c
  pinFailed : (v, StartEvent.pinFailed) ∈ s.log → pc = .storeFailed ∨ s.affinityFailed = true
  fails : pc = .failure ∨ pc.reports = true → s.localExitCode v ≠ 0
  reports : pc.reports = true → s.exitCode ≠ 0
  stops : pc.stops = true → s.stopRequested = true
  ends : pc = .decrement ∨ pc.decremented = true → s.localExitCode v ≠ 0 →
    s.exitCode ≠ 0 ∧ s.stopRequested = true

/-- The latch, the flag and the counters, in terms of where the threads are. -/
structure Inv (n : Nat) (s : Startup) : Prop where
  created : ∀ v, s.pc v = .absent ↔ s.launched ≤ v
  fits : s.launcher.Fits n s.launched
  latch : s.latch + Nat.count (fun v => (s.pc v).arrived = true) n +
    s.launcher.counted n s.launched = n + 1
  active : s.launcher ≠ .storeActive →
    s.activeWorkers + Nat.count (fun v => (s.pc v).decremented = true) n =
      if s.launcher.compensated then (s.launched : Int) else n
  opened : ∀ v, (s.pc v).pastLatch = true → s.latch = 0
  flag : s.launcher = .failActive ∨ s.launcher.compensated = true → s.affinityFailed = true
  invoked : ∀ v, (v, StartEvent.invoked) ∈ s.log → s.affinityFailed = false
  skipped : ∀ v, (v, StartEvent.skipped) ∈ s.log → s.affinityFailed = true
  writes : Nat.count (fun v => decide (s.pc v = .write) = true) n + s.completionWrites =
    if s.launcher ≠ .storeActive ∧ s.activeWorkers = 0 ∧ 0 < s.launched then 1 else 0
  threads : ∀ v, ThreadOk s v (s.pc v)

/-! ### What the latch says -/

section Latch

variable {s : Startup}

theorem Inv.le (hinv : Inv n s) : s.launched ≤ n := by
  have hfits := hinv.fits
  unfold Launcher.Fits at hfits
  split at hfits <;> omega

theorem pastLatch_of_pastCheck {pc : ThreadPc} (h : pc.pastCheck = true) : pc.pastLatch = true :=
  (Bool.and_eq_true_iff.mp h).1

theorem pastLatch_of_decremented {pc : ThreadPc} (h : pc.decremented = true) :
    pc.pastLatch = true := by
  cases pc with
  | write | finish _ | exited => rfl
  | _ => cases h

section

variable (hinv : Inv n s)
include hinv

/-- Only created threads count. -/
theorem Inv.count_launched (counted : ThreadPc → Bool) (habsent : counted .absent = false) :
    Nat.count (fun v => counted (s.pc v) = true) n =
      Nat.count (fun v => counted (s.pc v) = true) s.launched := by
  refine count_of_le hinv.le fun i hi => ?_
  rw [(hinv.created i).mpr hi, habsent]
  simp

/-- **An open latch**: the launcher is through, and all its threads have arrived. -/
theorem Inv.of_open (hopen : s.latch = 0) :
    s.launcher.finished = true ∧ ∀ v < s.launched, (s.pc v).arrived = true := by
  have hlatch := hinv.latch
  have hle := hinv.le
  have hcount := hinv.count_launched ThreadPc.arrived rfl
  have hcount_le := count_le (fun v => (s.pc v).arrived = true) (n := s.launched)
  have hfits := hinv.fits
  rw [hopen, hcount] at hlatch
  cases hlauncher : s.launcher with
  | returned =>
    rw [hlauncher] at hlatch hfits
    refine ⟨rfl, Nat.count_iff_forall.mp ?_⟩
    simp only [counted] at hlatch
    omega
  | threw =>
    rw [hlauncher] at hlatch hfits
    refine ⟨rfl, Nat.count_iff_forall.mp ?_⟩
    simp only [counted] at hlatch
    omega
  | _ =>
    rw [hlauncher] at hlatch
    simp only [counted] at hlatch
    omega

theorem Inv.latch_nonneg : 0 ≤ s.latch := by
  have hlatch := hinv.latch
  have hle := hinv.le
  have hcount := hinv.count_launched ThreadPc.arrived rfl
  have hcount_le := count_le (fun v => (s.pc v).arrived = true) (n := s.launched)
  rw [hcount] at hlatch
  cases hlauncher : s.launcher with
  | _ =>
    rw [hlauncher] at hlatch
    simp only [counted] at hlatch
    omega

/-- While the launcher is at work nobody is past the latch. -/
theorem Inv.closed (hlauncher : s.launcher.finished = false) (v : Nat) :
    (s.pc v).pastLatch = false := by
  cases hpast : (s.pc v).pastLatch
  · rfl
  have hfinished := (hinv.of_open (hinv.opened v hpast)).1
  rw [hlauncher] at hfinished
  cases hfinished

end

end Latch

/-! ### One move -/

section Moves

variable {s s' : Startup} {w : Nat} {e : Option StartEvent} {pc pc' : ThreadPc}

section

variable (h : Move s w pc e pc')
include h

theorem Move.arrived : pc'.arrived.toNat = pc.arrived.toNat + occurs e .arrived := by
  cases h <;> simp [ThreadPc.arrived, occurs]

theorem Move.decremented :
    pc'.decremented.toNat = pc.decremented.toNat + occurs e .decremented := by
  cases h <;> simp [ThreadPc.decremented, occurs]

theorem Move.created : pc ≠ .absent ∧ pc' ≠ .absent := by
  cases h <;> simp

theorem Move.pastLatch (hpast : pc'.pastLatch = true) : pc.pastLatch = true ∨ s.latch = 0 := by
  cases h with
  | wait hlatch => exact .inr hlatch
  | _ => simp_all [ThreadPc.pastLatch, ThreadPc.arrived]

/-- Nobody behind the latch arrives or flags a failure. -/
theorem Move.of_pastLatch (he : e = some .arrived ∨ e = some .flagged) : pc.arrived = false := by
  cases h <;> simp_all [ThreadPc.arrived]

end

/-- A mark that is set by one event. -/
theorem marked_iff {old new : Bool} {x : StartEvent} (h : new.toNat = old.toNat + occurs e x) :
    new = true ↔ old = true ∨ e = some x := by
  unfold occurs at h
  split at h <;> cases old <;> cases new <;> simp_all

section

variable (h : Move s w pc e pc')
include h

theorem Move.pastCheck_iff :
    pc'.pastCheck = true ↔ pc.pastCheck = true ∨ e = some .invoked ∨ e = some .skipped := by
  cases h <;> simp [ThreadPc.pastCheck, ThreadPc.pastLatch, ThreadPc.arrived]

theorem Move.pastMain_iff : pc'.pastMain = true ↔
      pc.pastMain = true ∨ e = some .skipped ∨ ∃ c, e = some (.mainReturned c) := by
  cases h <;> simp [ThreadPc.pastMain, ThreadPc.pastCheck, ThreadPc.pastLatch, ThreadPc.arrived]

/-- Only the countdown leads to the write, and the write is recorded. -/
theorem Move.writes (he : e ≠ some .decremented) :
    (decide (pc' = .write)).toNat + occurs e .wrote = (decide (pc = .write)).toNat := by
  cases h <;> simp_all [occurs]

theorem Move.counts (he : e = some .decremented) : pc = .decrement ∧
      (pc' = .write ∧ s.activeWorkers = 1 ∨ pc' = .finish false ∧ s.activeWorkers ≠ 1) := by
  cases h <;> simp_all

end

section

variable (h : Moved s s' w e pc)
include h

theorem Moved.mem_log (v : Nat) (x : StartEvent) :
    (v, x) ∈ s'.log ↔ (v, x) ∈ s.log ∨ v = w ∧ e = some x := by
  rw [h.log_eq]
  cases e <;> simp [eq_comm]

theorem Moved.exit_ne (hexit : s.exitCode ≠ 0) : s'.exitCode ≠ 0 := by
  rw [h.exit_eq, if_neg (fun hboth => hexit hboth.2)]
  exact hexit

theorem Moved.stop_le (hstop : s.stopRequested = true) : s'.stopRequested = true := by
  rw [h.stop_eq, hstop]
  rfl

theorem Moved.flag_le (hflag : s.affinityFailed = true) : s'.affinityFailed = true := by
  rw [h.flag_eq, hflag]
  rfl

/-- The events of the thread that moves. -/
theorem Moved.thread_events (hok : ThreadOk s w (s.pc w)) :
    (pc.arrived = true ↔ (w, arrived) ∈ s'.log) ∧ (pc.pastCheck = true ↔
        (w, StartEvent.invoked) ∈ s'.log ∨ (w, StartEvent.skipped) ∈ s'.log) ∧
      (pc.pastMain = true ↔
        (w, StartEvent.skipped) ∈ s'.log ∨ ∃ c, (w, mainReturned c) ∈ s'.log) ∧
      (pc.decremented = true ↔ (w, decremented) ∈ s'.log) := by
  refine ⟨?_, ?_, ?_, ?_⟩
  · rw [marked_iff h.move.arrived, hok.arrived, h.mem_log]
    simp only [true_and]
  · rw [h.move.pastCheck_iff, hok.decided, h.mem_log, h.mem_log]
    simp only [true_and]
    exact or_or_or_comm
  · rw [h.move.pastMain_iff, hok.ended]
    simp only [h.mem_log, true_and, exists_or]
    exact or_or_or_comm
  · rw [marked_iff h.move.decremented, hok.decremented, h.mem_log]
    simp only [true_and]

theorem Moved.code_self : s'.localExitCode w = codeAfter (s.localExitCode w) e := by
  rw [h.code_eq, update_self]

end

/-- The events that set `local_exit_code`. -/
def SetsCode (e : Option StartEvent) : Prop :=
  e = some .pinFailed ∨ e = some .skipped ∨ ∃ c, e = some (.mainReturned c)

theorem Move.setsCode (h : Move s w pc e pc') (he : SetsCode e) : pc.pastMain = false := by
  cases h with
  | pinFails | skip _ | mainReturns _ => rfl
  | _ => simp [SetsCode] at he

theorem codeAfter_of_not (code : Int) (he : ¬SetsCode e) : codeAfter code e = code := by
  unfold codeAfter
  split
  · exact absurd (.inl rfl) he
  · exact absurd (.inr (.inl rfl)) he
  · exact absurd (.inr (.inr ⟨_, rfl⟩)) he
  · rfl

/-- The exit code of the thread that moves. -/
theorem Moved.thread_codes (h : Moved s s' w e pc) (hok : ThreadOk s w (s.pc w)) :
    ((w, StartEvent.skipped) ∈ s'.log → s'.localExitCode w = 1) ∧
      ∀ c, (w, mainReturned c) ∈ s'.log → s'.localExitCode w = c := by
  simp only [h.mem_log, h.code_self]
  by_cases he : SetsCode e
  · -- nothing was set before
    have hnone : ¬((w, StartEvent.skipped) ∈ s.log ∨
        ∃ c, (w, mainReturned c) ∈ s.log) := by
      rw [← hok.ended, h.move.setsCode he]
      simp
    constructor
    · rintro (hin | ⟨_, rfl⟩)
      · exact absurd (.inl hin) hnone
      · rfl
    · rintro c (hin | ⟨_, rfl⟩)
      · exact absurd (.inr ⟨c, hin⟩) hnone
      · rfl
  · rw [codeAfter_of_not _ he]
    constructor
    · rintro (hin | ⟨_, rfl⟩)
      · exact hok.skipped hin
      · exact absurd (.inr (.inl rfl)) he
    · rintro c (hin | ⟨_, rfl⟩)
      · exact hok.returned c hin
      · exact absurd (.inr (.inr ⟨c, rfl⟩)) he

section

variable (h : Move s w pc e pc')
include h

/-- Only a thread whose main failed gets to the report. -/
theorem Move.fails (hpc : pc' = .failure ∨ pc'.reports = true) :
    ¬SetsCode e ∧ (s.localExitCode w ≠ 0 ∨ pc = .failure ∨ pc.reports = true) := by
  cases h <;> simp_all [SetsCode, ThreadPc.reports]

theorem Move.reports (hpc : pc'.reports = true) :
    pc.reports = true ∨ pc = .failure ∧ e = some .exitCode := by
  cases h <;> simp_all [ThreadPc.reports]

theorem Move.stops (hpc : pc'.stops = true) : pc.stops = true ∨ e = some .stopBegun := by
  cases h <;> simp_all [ThreadPc.stops]

/-- A thread gets to the countdown with code 0, or behind its report. -/
theorem Move.ends (hpc : pc' = .decrement ∨ pc'.decremented = true) :
    ¬SetsCode e ∧ ((pc = .decrement ∨ pc.decremented = true) ∨ s.localExitCode w = 0 ∨
      pc.reports = true ∧ (pc.stops = true ∨ e = some .stopBegun)) := by
  cases h <;> simp_all [SetsCode, ThreadPc.reports, ThreadPc.stops, ThreadPc.decremented]

end

/-- A failed thread reports before it counts down. -/
theorem Moved.thread_reports (h : Moved s s' w e pc) (hok : ThreadOk s w (s.pc w)) :
    (pc = .failure ∨ pc.reports = true → s'.localExitCode w ≠ 0) ∧
      (pc.reports = true → s'.exitCode ≠ 0) ∧ (pc.stops = true → s'.stopRequested = true) ∧
      (pc = .decrement ∨ pc.decremented = true → s'.localExitCode w ≠ 0 →
        s'.exitCode ≠ 0 ∧ s'.stopRequested = true) := by
  have hstopped : e = some .stopBegun → s'.stopRequested = true := by
    intro he
    rw [h.stop_eq, decide_eq_true he, Bool.or_true]
  refine ⟨fun hpc => ?_, fun hpc => ?_, fun hpc => ?_, fun hpc hne => ?_⟩
  · obtain ⟨hkeeps, hcode⟩ := h.move.fails hpc
    rw [h.code_self, codeAfter_of_not _ hkeeps]
    exact hcode.elim id hok.fails
  · rcases h.move.reports hpc with hreports | ⟨hfailure, he⟩
    · exact h.exit_ne (hok.reports hreports)
    · rw [h.exit_eq]
      split
      · exact hok.fails (.inl hfailure)
      · next hset => exact fun hzero => hset ⟨he, hzero⟩
  · rcases h.move.stops hpc with hstops | he
    · exact h.stop_le (hok.stops hstops)
    · exact hstopped he
  · obtain ⟨hkeeps, hends⟩ := h.move.ends hpc
    rw [h.code_self, codeAfter_of_not _ hkeeps] at hne
    rcases hends with hends | hzero | ⟨hreports, hstops⟩
    · obtain ⟨hexit, hstop⟩ := hok.ends hends hne
      exact ⟨h.exit_ne hexit, h.stop_le hstop⟩
    · exact absurd hzero hne
    · exact ⟨h.exit_ne (hok.reports hreports),
        hstops.elim (fun hstops => h.stop_le (hok.stops hstops)) hstopped⟩

theorem Moved.thread_pin (h : Moved s s' w e pc) (hok : ThreadOk s w (s.pc w)) :
    (w, pinFailed) ∈ s'.log → pc = .storeFailed ∨ s'.affinityFailed = true := by
  have hpin := hok.pinFailed
  have hmove := h.move
  rw [h.mem_log, h.flag_eq]
  generalize s.pc w = old at hmove hpin
  cases hmove <;> simp_all

/-- The thread that moves. -/
theorem ThreadOk.move (hok : ThreadOk s w (s.pc w)) (h : Moved s s' w e pc) : ThreadOk s' w pc := by
  obtain ⟨harrived, hdecided, hended, hdecremented⟩ := h.thread_events hok
  obtain ⟨hskipped, hreturned⟩ := h.thread_codes hok
  obtain ⟨hfails, hreports, hstops, hends⟩ := h.thread_reports hok
  exact ⟨fun habsent => absurd habsent h.move.created.2, harrived, hdecided, hended, hdecremented,
    hskipped, hreturned, h.thread_pin hok, hfails, hreports, hstops, hends⟩

variable {v : Nat}

/-- The others. -/
theorem ThreadOk.others (hok : ThreadOk s v pc) (hv : v ≠ w) (h : Moved s s' w e pc') :
    ThreadOk s' v pc := by
  have hmem : ∀ x, (v, x) ∈ s'.log ↔ (v, x) ∈ s.log := by
    intro x
    rw [h.mem_log]
    simp [hv]
  have hcode : s'.localExitCode v = s.localExitCode v := by
    rw [h.code_eq, update_of_ne hv]
  constructor <;> try simp only [hmem, hcode]
  · exact hok.absent
  · exact hok.arrived
  · exact hok.decided
  · exact hok.ended
  · exact hok.decremented
  · exact hok.skipped
  · exact hok.returned
  · intro hpin
    rcases hok.pinFailed hpin with hpc | hflag
    · exact .inl hpc
    · exact .inr (h.flag_le hflag)
  · exact hok.fails
  · exact fun hpc => h.exit_ne (hok.reports hpc)
  · exact fun hpc => h.stop_le (hok.stops hpc)
  · intro hpc hne
    obtain ⟨hexit, hstop⟩ := hok.ends hpc hne
    exact ⟨h.exit_ne hexit, h.stop_le hstop⟩

section

variable (hinv : Inv n s) (h : Moved s s' w e pc)
include hinv h

/-- The thread that moves has been created. -/
theorem Inv.lt_of_moved : w < s.launched := by
  by_contra hle
  exact h.move.created.1 ((hinv.created w).mpr (Nat.le_of_not_lt hle))

/-- Behind the latch `affinity_failed` does not change any more. -/
theorem Inv.frozen (hopen : s.latch = 0) : s'.affinityFailed = s.affinityFailed := by
  rw [h.flag_eq]
  by_cases he : e = some .flagged
  · have harrived := (hinv.of_open hopen).2 w (hinv.lt_of_moved h)
    rw [h.move.of_pastLatch (.inr he)] at harrived
    cases harrived
  · simp [he]

/-- An open latch stays open. -/
theorem Inv.stays_open (hopen : s.latch = 0) : s'.latch = 0 := by
  rw [h.latch_eq, hopen, occurs]
  split
  · next he =>
    have harrived := (hinv.of_open hopen).2 w (hinv.lt_of_moved h)
    rw [h.move.of_pastLatch (.inl he)] at harrived
    cases harrived
  · rfl

end

/-- While a created thread has not counted down yet, the counter is not 0. -/
theorem Inv.active_pos (hinv : Inv n s) (hstarted : s.launcher ≠ .storeActive)
    (hlt : w < s.launched) (hpc : s.pc w = .decrement) : s.activeWorkers ≠ 0 := by
  intro hzero
  have hactive := hinv.active hstarted
  have hfront := hinv.count_launched ThreadPc.decremented rfl
  have hfull : ¬count (fun v => (s.pc v).decremented = true) s.launched = s.launched := by
    intro hall
    have hthis := Nat.count_iff_forall.mp hall w hlt
    rw [hpc] at hthis
    cases hthis
  have hle := count_le (fun v => (s.pc v).decremented = true) (n := s.launched)
  have hlaunched := hinv.le
  split at hactive <;> omega

/-- The last decrement is followed by one write. -/
theorem Moved.writes (h : Moved s s' w e pc) (hinv : Inv n s) :
    Nat.count (fun v => decide (s'.pc v = .write) = true) n + s'.completionWrites =
      if s'.launcher ≠ .storeActive ∧ s'.activeWorkers = 0 ∧ 0 < s'.launched then 1 else 0 := by
  have hlt := hinv.lt_of_moved h
  have hw : w < n := lt_of_lt_of_le hlt hinv.le
  have hold := hinv.writes
  have hstarted : s.launcher ≠ .storeActive := by
    intro hstore
    have hfits := hinv.fits
    rw [hstore] at hfits
    change s.launched = 0 at hfits
    omega
  have hcount := count_update (fun x => decide (x = .write)) s.pc pc hw
  rw [h.pc_eq, h.writes_eq, h.launcher_eq, h.active_eq, h.launched_eq]
  by_cases he : e = some .decremented
  · have hwrote : occurs e .wrote = 0 := by rw [he]; rfl
    have hone : occurs e .decremented = 1 := by rw [he]; rfl
    obtain ⟨hpc, hlast⟩ := h.move.counts he
    have hpos := hinv.active_pos hstarted hlt hpc
    rw [if_neg (fun hzero => hpos hzero.2.1)] at hold
    rw [hpc] at hcount
    rw [hwrote, hone]
    rcases hlast with ⟨rfl, hlast⟩ | ⟨rfl, hlast⟩
    · rw [if_pos ⟨hstarted, by omega, Nat.zero_lt_of_lt hlt⟩]
      simp only [reduceCtorEq, decide_true, decide_false, Bool.toNat_true, Bool.toNat_false]
        at hcount
      omega
    rw [if_neg (fun hzero => hlast (by omega))]
    simp only [reduceCtorEq, decide_false, Bool.toNat_false] at hcount
    omega
  · have hmark := h.move.writes he
    have hnone : occurs e .decremented = 0 := if_neg he
    rw [hnone, Int.natCast_zero, Int.sub_zero, ← hold]
    omega

/-- **One move keeps the invariant.** -/
theorem Moved.inv (h : Moved s s' w e pc) (hinv : Inv n s) : Inv n s' := by
  have hlt := hinv.lt_of_moved h
  have hw : w < n := lt_of_lt_of_le hlt hinv.le
  have hat : ∀ v, s'.pc v = if v = w then pc else s.pc v := by
    intro v
    rw [h.pc_eq, update_apply]
  have hopen : ∀ v, (s'.pc v).pastLatch = true → s.latch = 0 := by
    intro v hpast
    rw [hat] at hpast
    split at hpast
    · rcases h.move.pastLatch hpast with hold | hzero
      · exact hinv.opened w hold
      · exact hzero
    · exact hinv.opened v hpast
  constructor
  · intro v
    rw [hat, h.launched_eq]
    split
    · next hv =>
      subst hv
      exact ⟨fun habsent => absurd habsent h.move.created.2, fun hle => absurd hlt (by omega)⟩
    · exact hinv.created v
  · rw [h.launcher_eq, h.launched_eq]
    exact hinv.fits
  · have hcount := count_update ThreadPc.arrived s.pc pc hw
    have harrived := h.move.arrived
    have hlatch := hinv.latch
    rw [h.pc_eq, h.latch_eq, h.launcher_eq, h.launched_eq]
    omega
  · rw [h.launcher_eq]
    intro hstarted
    have hcount := count_update ThreadPc.decremented s.pc pc hw
    have hdecremented := h.move.decremented
    have hactive := hinv.active hstarted
    rw [h.pc_eq, h.active_eq, h.launched_eq, ← hactive]
    omega
  · exact fun v hpast => hinv.stays_open h (hopen v hpast)
  · rw [h.launcher_eq]
    exact fun hfail => h.flag_le (hinv.flag hfail)
  · intro v hinvoked
    rw [h.mem_log] at hinvoked
    rcases hinvoked with hold | ⟨rfl, rfl⟩
    · have hpast := pastLatch_of_pastCheck ((hinv.threads v).decided.mpr (.inl hold))
      rw [hinv.frozen h (hinv.opened v hpast)]
      exact hinv.invoked v hold
    rw [h.flag_eq]
    have hmove := h.move
    generalize s.pc v = old at hmove
    cases hmove with
    | invoke hflag => simp [hflag]
  · intro v hskipped
    rw [h.mem_log] at hskipped
    rcases hskipped with hold | ⟨rfl, rfl⟩
    · exact h.flag_le (hinv.skipped v hold)
    have hmove := h.move
    generalize s.pc v = old at hmove
    cases hmove with
    | skip hflag => exact h.flag_le hflag
  · exact h.writes hinv
  · intro v
    rw [hat]
    split
    · next hv =>
      subst hv
      exact (hinv.threads v).move h
    · next hv => exact (hinv.threads v).others hv h

end Moves

/-! ### The launcher and the others -/

section Others

variable {s s' : Startup}

/-- A thread whose part of the state has not changed. -/
theorem ThreadOk.congr {pc : ThreadPc} (hok : ThreadOk s v pc) (hlog : s'.log = s.log)
    (hcode : s'.localExitCode = s.localExitCode)
    (hflag : s.affinityFailed = true → s'.affinityFailed = true) (hexit : s'.exitCode = s.exitCode)
    (hstop : s.stopRequested = true → s'.stopRequested = true) : ThreadOk s' v pc := by
  obtain ⟨⟩ := s'
  subst hlog hcode hexit
  exact { hok with
    pinFailed := fun hpin => (hok.pinFailed hpin).imp id hflag
    stops := fun hpc => hstop (hok.stops hpc)
    ends := fun hpc hne => ⟨(hok.ends hpc hne).1, hstop (hok.ends hpc hne).2⟩ }

theorem Stopped.inv (h : Stopped s s') (hinv : Inv n s) : Inv n s' := by
  obtain ⟨⟩ := s'
  obtain ⟨rfl, rfl, rfl, rfl, rfl, rfl, rfl, rfl, rfl, hstop, rfl⟩ := h
  exact { hinv with threads := fun v => (hinv.threads v).congr rfl rfl id rfl hstop }

section

variable (hinv : Inv n s) (hlauncher : s.launcher.finished = false)
include hinv hlauncher

/-- While the launcher is at work nobody has counted down or called `main_fn`. -/
theorem Inv.none_decremented : Nat.count (fun v => (s.pc v).decremented = true) n = 0 := by
  refine Nat.count_iff_forall_not.mpr fun v _ hdecremented => ?_
  have hclosed := hinv.closed hlauncher v
  rw [pastLatch_of_decremented hdecremented] at hclosed
  cases hclosed

theorem Inv.none_invoked (v : Nat) : (v, StartEvent.invoked) ∉ s.log := by
  intro hinvoked
  have hclosed := hinv.closed hlauncher v
  rw [pastLatch_of_pastCheck ((hinv.threads v).decided.mpr (.inl hinvoked))] at hclosed
  cases hclosed

/-- No thread is about to write, and none has written. -/
theorem Inv.none_written :
    Nat.count (fun v => decide (s.pc v = .write) = true) n = 0 ∧ s.completionWrites = 0 := by
  have hnone : count (fun v => decide (s.pc v = .write) = true) n = 0 := by
    refine Nat.count_iff_forall_not.mpr fun v _ hwrite => ?_
    have hclosed := hinv.closed hlauncher v
    rw [of_decide_eq_true hwrite] at hclosed
    cases hclosed
  refine ⟨hnone, ?_⟩
  have hwrites := hinv.writes
  have hdecremented := hinv.none_decremented hlauncher
  have hfits := hinv.fits
  rw [hnone] at hwrites
  split at hwrites
  · next hzero =>
    have hactive := hinv.active hzero.1
    rw [hdecremented, hzero.2.1] at hactive
    cases hl : s.launcher with
    | storeActive => exact absurd hl hzero.1
    | returned | threw =>
      rw [hl] at hlauncher
      cases hlauncher
    | _ =>
      rw [hl] at hactive hfits
      simp only [compensated, Launcher.Fits] at hactive hfits
      simp at hactive
      omega
  · omega

end

/-- The launcher goes on, and the counter stays. -/
theorem Inv.turn (hinv : Inv n s) {l : Launcher} {latch : Int} {failed : Bool}
    (hl : s.launcher ≠ .storeActive ∧ l ≠ .storeActive ∧ l.compensated = s.launcher.compensated)
    (hfits : l.Fits n s.launched)
    (hlatch : latch + Nat.count (fun v => (s.pc v).arrived = true) n +
      l.counted n s.launched = n + 1)
    (hopened : ∀ v, (s.pc v).pastLatch = true → latch = 0)
    (hflag : l = .failActive ∨ l.compensated = true → failed = true)
    (hinvoked : ∀ v, (v, StartEvent.invoked) ∈ s.log → failed = false)
    (hskipped : ∀ v, (v, StartEvent.skipped) ∈ s.log → failed = true)
    (hfailed : s.affinityFailed = true → failed = true) :
    Inv n { s with launcher := l, latch := latch, affinityFailed := failed } := by
  obtain ⟨hold, hnew, hcompensated⟩ := hl
  refine ⟨hinv.created, hfits, hlatch, fun _ => ?_, hopened, hflag, hinvoked, hskipped, ?_,
    fun v => (hinv.threads v).congr rfl rfl hfailed rfl id⟩
  · rw [hcompensated]
    exact hinv.active hold
  · rw [hinv.writes]
    exact if_congr (and_congr_left fun _ => ⟨fun _ => hnew, fun _ => hold⟩) rfl rfl

/-- **The launcher's steps keep the invariant.** -/
theorem launcherStep_inv (hs : s.launcherStep n = some s') (hinv : Inv n s) : Inv n s' := by
  have hfits := hinv.fits
  have hlatch := hinv.latch
  have hactive := hinv.active
  unfold launcherStep at hs
  cases hl : s.launcher with
  | returned | threw =>
    rw [hl] at hs
    cases hs
  | storeActive =>
    have hfinished : s.launcher.finished = false := by rw [hl]; rfl
    obtain ⟨hnone, hwritten⟩ := hinv.none_written hfinished
    rw [hl] at hs hfits hlatch
    cases hs
    have hzero : s.launched = 0 := hfits
    refine ⟨hinv.created, ?_, hlatch, ?_, hinv.opened, ?_, hinv.invoked, hinv.skipped, ?_, ?_⟩
    · show s.launched ≤ n
      omega
    · intro _
      have := hinv.none_decremented hfinished
      show (n : Int) + count (fun v => (s.pc v).decremented = true) n = n
      omega
    · rintro (h | h) <;> cases h
    · show count (fun v => decide (s.pc v = .write) = true) n + s.completionWrites = _
      rw [hnone, hwritten, if_neg (by simp [hzero])]
    · exact fun v => (hinv.threads v).congr rfl rfl id rfl id
  | launch =>
    rw [hl] at hs hfits hlatch
    dsimp only at hs
    split at hs
    · cases hs
    rename_i hge
    cases hs
    have hle : s.launched ≤ n := hfits
    have hall : s.launched = n := by omega
    exact hinv.turn (by simp [hl, compensated]) hall hlatch hinv.opened
      (by rintro (h | h) <;> cases h) hinv.invoked hinv.skipped id
  | countDown =>
    have hclosed := hinv.closed (by rw [hl]; rfl)
    rw [hl] at hs hfits hlatch
    cases hs
    refine hinv.turn (by simp [hl, compensated]) hfits ?_ ?_
      (by rintro (h | h) <;> cases h) hinv.invoked hinv.skipped id
    · simp only [counted] at hlatch ⊢
      omega
    · intro v hpast
      rw [hclosed v] at hpast
      cases hpast
  | failFlag =>
    have hnone := hinv.none_invoked (by rw [hl]; rfl)
    rw [hl] at hs hfits hlatch
    cases hs
    exact hinv.turn (by simp [hl, compensated]) hfits hlatch hinv.opened (fun _ => rfl)
      (fun v hinvoked => absurd hinvoked (hnone v)) (fun _ _ => rfl) fun _ => rfl
  | failActive =>
    have hfinished : s.launcher.finished = false := by rw [hl]; rfl
    have hflag := hinv.flag (.inl hl)
    obtain ⟨hnone, hwritten⟩ := hinv.none_written hfinished
    have hdecremented := hinv.none_decremented hfinished
    have hcounter := hactive (by rw [hl]; simp)
    rw [hl] at hs hfits hlatch hcounter
    cases hs
    have hlt : s.launched < n := hfits
    simp only [compensated] at hcounter
    refine ⟨hinv.created, hfits, hlatch, ?_, hinv.opened,
      fun _ => hflag, hinv.invoked, hinv.skipped, ?_, ?_⟩
    · intro _
      show s.activeWorkers - ((n - s.launched : Nat) : Int) +
        count (fun v => (s.pc v).decremented = true) n = (s.launched : Int)
      simp at hcounter
      omega
    · show count (fun v => decide (s.pc v = .write) = true) n + s.completionWrites =
        if _ ∧ s.activeWorkers - ((n - s.launched : Nat) : Int) = 0 ∧ 0 < s.launched then 1 else 0
      rw [hnone, hwritten, if_neg]
      rintro ⟨_, hzero, hpos⟩
      simp at hcounter
      omega
    · exact fun v => (hinv.threads v).congr rfl rfl id rfl id
  | failLatch =>
    have hflag := hinv.flag (.inr (by rw [hl]; rfl))
    have hclosed := hinv.closed (by rw [hl]; rfl)
    rw [hl] at hs hfits hlatch
    cases hs
    refine hinv.turn (by simp [hl, compensated]) hfits ?_ ?_ (fun _ => hflag) hinv.invoked
      hinv.skipped id
    · simp only [counted] at hlatch ⊢
      omega
    · intro v hpast
      rw [hclosed v] at hpast
      cases hpast

/-- A new thread. -/
theorem ThreadOk.create (hok : ThreadOk s v .absent) (hlog : s'.log = s.log)
    {pc : ThreadPc} (hpc : pc = .affinity ∨ pc = .arrive) : ThreadOk s' v pc := by
  have hnone : ∀ e, (v, e) ∉ s'.log := by
    rw [hlog]
    exact hok.absent rfl
  rcases hpc with rfl | rfl <;> constructor <;>
    simp [hnone, ThreadPc.arrived, ThreadPc.pastLatch, ThreadPc.pastCheck, ThreadPc.pastMain,
      ThreadPc.decremented, ThreadPc.reports, ThreadPc.stops]

/-- **Creating a thread keeps the invariant**, whether it succeeds or throws. -/
theorem launch_inv {ok : Bool} (hs : s.launch n pinWorkers ok = some s') (hinv : Inv n s) :
    Inv n s' := by
  obtain ⟨⟨hl, hlt⟩, hs⟩ := ite_none_right_eq_some.mp hs
  have hlatch := hinv.latch
  have hactive := hinv.active (by rw [hl]; simp)
  split at hs
  · cases hs
    generalize hpc' : (if pinWorkers then ThreadPc.affinity else .arrive) = pc
    have hpc : pc = .affinity ∨ pc = .arrive := by
      rw [← hpc']
      split
      · exact .inl rfl
      · exact .inr rfl
    have habsent : s.pc s.launched = .absent := (hinv.created _).mpr le_rfl
    have hat : ∀ v, update s.pc s.launched pc v = if v = s.launched then pc else s.pc v :=
      fun v => update_apply _ _ _ _
    -- the new thread counts nowhere
    have hcount : ∀ counted : ThreadPc → Bool, counted .absent = false → counted .affinity = false →
        counted .arrive = false →
        count (fun v => counted (update s.pc s.launched pc v) = true) n =
          count (fun v => counted (s.pc v) = true) n := by
      intro counted h h' h''
      have hadd := count_update counted s.pc pc hlt
      have hnew : counted pc = false := by
        rcases hpc with rfl | rfl
        · exact h'
        · exact h''
      rw [habsent, h, hnew] at hadd
      exact hadd
    have hpast : ∀ v, (update s.pc s.launched pc v).pastLatch = true →
        (s.pc v).pastLatch = true := by
      intro v h
      rw [hat] at h
      split at h
      · rcases hpc with rfl | rfl <;> cases h
      · exact h
    refine ⟨?_, ?_, ?_, ?_, fun v h => hinv.opened v (hpast v h), ?_, hinv.invoked,
      hinv.skipped, ?_, ?_⟩
    · intro v
      show update s.pc s.launched pc v = .absent ↔ s.launched + 1 ≤ v
      rw [hat]
      split
      · next hv =>
        refine ⟨fun h => ?_, fun h => (by omega)⟩
        rcases hpc with rfl | rfl <;> cases h
      rw [hinv.created v]
      omega
    · show s.launcher.Fits n (s.launched + 1)
      rw [hl]
      exact hlt
    · show s.latch + count (fun v => (update s.pc s.launched pc v).arrived = true) n +
        s.launcher.counted n (s.launched + 1) = n + 1
      rw [hcount ThreadPc.arrived rfl rfl rfl, hl]
      rw [hl] at hlatch
      exact hlatch
    · intro _
      show s.activeWorkers +
        count (fun v => (update s.pc s.launched pc v).decremented = true) n =
          if s.launcher.compensated then ((s.launched + 1 : Nat) : Int) else n
      rw [hcount ThreadPc.decremented rfl rfl rfl, hl]
      rw [hl] at hactive
      exact hactive
    · show s.launcher = .failActive ∨ s.launcher.compensated = true → _
      rw [hl]
      rintro (h | h) <;> cases h
    · have hfinished : s.launcher.finished = false := by rw [hl]; rfl
      obtain ⟨hnone, hwritten⟩ := hinv.none_written hfinished
      have hdecremented := hinv.none_decremented hfinished
      have hcounted := hcount (fun x => decide (x = .write)) rfl rfl rfl
      show count (fun v => decide (update s.pc s.launched pc v = .write) = true) n +
        s.completionWrites = if s.launcher ≠ .storeActive ∧ s.activeWorkers = 0 ∧
          0 < s.launched + 1 then 1 else 0
      rw [hcounted, hnone, hwritten, if_neg]
      rintro ⟨_, hzero, _⟩
      rw [hl] at hactive
      simp only [compensated] at hactive
      simp at hactive
      omega
    · intro v
      show ThreadOk _ v (update s.pc s.launched pc v)
      rw [hat]
      split
      · next hv =>
        have hok := hinv.threads v
        rw [hv, habsent] at hok
        rw [hv]
        refine hok.create ?_ hpc
        rfl
      · exact (hinv.threads v).congr rfl rfl id rfl id
  · cases hs
    rw [hl] at hlatch
    exact hinv.turn (by simp [hl, compensated]) hlt hlatch hinv.opened
      (by rintro (h | h) <;> cases h) hinv.invoked hinv.skipped id

theorem fresh_inv (n : Nat) : Inv n (fresh n) where
  created _ := ⟨fun _ => Nat.zero_le _, fun _ => rfl⟩
  fits := rfl
  latch := by
    have hnone : count (fun v => ((fresh n).pc v).arrived = true) n = 0 :=
      Nat.count_iff_forall_not.mpr nofun
    rw [hnone]
    simp [fresh, counted]
  active h := absurd rfl h
  opened _ h := by cases h
  flag := by rintro (h | h) <;> cases h
  invoked _ h := by cases h
  skipped _ h := by cases h
  writes := by
    have hnone : count (fun v => decide ((fresh n).pc v = .write) = true) n = 0 :=
      Nat.count_iff_forall_not.mpr nofun
    rw [hnone]
    rfl
  threads v := by
    constructor <;>
      simp [fresh, ThreadPc.arrived, ThreadPc.pastLatch, ThreadPc.pastCheck, ThreadPc.pastMain,
        ThreadPc.decremented, ThreadPc.reports, ThreadPc.stops]

theorem reachable_inv (hs : (system n pinWorkers).Reachable s) : Inv n s := by
  refine Reachable.invariant ?_ ?_ hs
  · rintro _ rfl
    exact fresh_inv n
  · intro s a s' hinv hstep
    rcases step_cases hstep with ⟨w, e, pc, hmoved⟩ | hlauncher | ⟨ok, hlaunch⟩ | hstopped
    · exact hmoved.inv hinv
    · exact launcherStep_inv hlauncher hinv
    · exact launch_inv hlaunch hinv
    · exact hstopped.inv hinv

end Others

/-! ## The accounting -/

/-- The affinity step or `main_fn` of a thread has failed. -/
def Failed (log : List (Nat × StartEvent)) (v : Nat) : Prop :=
  (v, StartEvent.pinFailed) ∈ log ∨ ∃ c, c ≠ 0 ∧ (v, StartEvent.mainReturned c) ∈ log

/-- **Start is all-or-none, and its accounting closes.** -/
structure Accounted (n : Nat) (pinWorkers : Bool) (s : Startup) : Prop where
  /-- Where one thread has called `main_fn`, all `n` are there, and none passes it by. -/
  invoked : ∀ v, (v, StartEvent.invoked) ∈ s.log → s.launched = n ∧
    (∀ w < n, (w, StartEvent.arrived) ∈ s.log) ∧ ∀ w, (w, StartEvent.skipped) ∉ s.log
  allOrNone : (∀ v < s.launched, s.pc v = .exited) →
    (∀ v < n, (v, StartEvent.invoked) ∈ s.log) ∨ ∀ v, (v, StartEvent.invoked) ∉ s.log
  /-- The latch is counted down `n + 1` times, and everybody gets past it. -/
  latch : 0 ≤ s.latch
  latchOpens : s.launcher.finished = true →
    (∀ v < s.launched, (v, StartEvent.arrived) ∈ s.log) → s.latch = 0
  passes : s.launcher.finished = true → (∀ v < s.launched, (v, StartEvent.arrived) ∈ s.log) →
    ∀ w, s.pc w = .wait → ∃ s', s.step n pinWorkers (.advance w) = some s' ∧ s'.pc w = .check
  /-- `active_workers_` counts the threads that are still to count down. -/
  active : s.launcher ≠ .storeActive → s.activeWorkers =
    Nat.count (fun v => v < s.launched ∧ (v, StartEvent.decremented) ∉ s.log) n +
      if s.launcher.compensated then 0 else (n - s.launched : Nat)
  drained : s.launcher ≠ .storeActive → (s.activeWorkers = 0 ↔
    (s.launcher.compensated = true ∨ s.launched = n) ∧
      ∀ v < s.launched, (v, StartEvent.decremented) ∈ s.log)
  /-- The completion descriptor is written once, after the last decrement. -/
  writesOnce : s.completionWrites ≤ 1
  written : s.completionWrites ≠ 0 → s.launcher.finished = true ∧ 0 < s.launched ∧
    ∀ v < s.launched, (v, StartEvent.decremented) ∈ s.log
  writes : s.launcher.finished = true → 0 < s.launched → (∀ v < s.launched, s.pc v = .exited) →
    s.completionWrites = 1
  /-- A thread that failed has reported it before it counts down. -/
  reported : ∀ v, (v, StartEvent.decremented) ∈ s.log → Failed s.log v →
    s.exitCode ≠ 0 ∧ s.stopRequested = true

section Results

variable {s : Startup}

theorem Inv.launched_of_invoked (hinv : Inv n s) (h : (v, StartEvent.invoked) ∈ s.log) :
    s.launched = n ∧ (∀ w < n, (w, arrived) ∈ s.log) ∧
      ∀ w, (w, StartEvent.skipped) ∉ s.log := by
  have hflag := hinv.invoked v h
  have hpast := pastLatch_of_pastCheck ((hinv.threads v).decided.mpr (.inl h))
  obtain ⟨hfinished, harrived⟩ := hinv.of_open (hinv.opened v hpast)
  have hreturned : s.launched = n := by
    have hfits := hinv.fits
    rcases of_decide_eq_true hfinished with hl | hl
    · rw [hl] at hfits
      exact hfits
    have := hinv.flag (.inr (by rw [hl]; rfl))
    rw [hflag] at this
    cases this
  refine ⟨hreturned, fun w hw => (hinv.threads w).arrived.mp (harrived w (by omega)), ?_⟩
  intro w hskipped
  have := hinv.skipped w hskipped
  rw [hflag] at this
  cases this

section

variable (hinv : Inv n s)
include hinv

theorem Inv.latch_eq_zero (hfinished : s.launcher.finished = true)
    (harrived : ∀ v < s.launched, (v, arrived) ∈ s.log) : s.latch = 0 := by
  have hlatch := hinv.latch
  have hfits := hinv.fits
  have hall : count (fun v => (s.pc v).arrived = true) s.launched = s.launched :=
    Nat.count_iff_forall.mpr fun v hv => (hinv.threads v).arrived.mpr (harrived v hv)
  rw [hinv.count_launched ThreadPc.arrived rfl, hall] at hlatch
  rcases of_decide_eq_true hfinished with hl | hl
  · rw [hl] at hlatch hfits
    simp only [counted, Launcher.Fits] at hlatch hfits
    omega
  rw [hl] at hlatch hfits
  simp only [counted, Launcher.Fits] at hlatch hfits
  omega

/-- The threads that have counted down, and those that have not. -/
theorem Inv.count_split : Nat.count (fun v => v < s.launched ∧ (v, decremented) ∉ s.log) n +
      Nat.count (fun v => (s.pc v).decremented = true) n = s.launched := by
  have hfront : count (fun v => v < s.launched ∧ (v, decremented) ∉ s.log) n =
      count (fun v => ¬(s.pc v).decremented = true) s.launched := by
    rw [count_of_le hinv.le fun i hi h => by omega]
    refine count_congr fun i hi => ?_
    rw [(hinv.threads i).decremented]
    exact ⟨fun h => h.2, fun h => ⟨hi, h⟩⟩
  rw [hfront, hinv.count_launched ThreadPc.decremented rfl, Nat.add_comm]
  exact count_add_count_not _ _

theorem Inv.drained_iff (hstarted : s.launcher ≠ .storeActive) :
    s.activeWorkers = 0 ↔ (s.launcher.compensated = true ∨ s.launched = n) ∧
      ∀ v < s.launched, (v, decremented) ∈ s.log := by
  have hactive := hinv.active hstarted
  have hle := hinv.le
  have hcount := count_le (fun v => (s.pc v).decremented = true) (n := s.launched)
  have hall : count (fun v => (s.pc v).decremented = true) s.launched = s.launched ↔
      ∀ v < s.launched, (v, decremented) ∈ s.log := by
    rw [Nat.count_iff_forall]
    exact forall₂_congr fun v _ => (hinv.threads v).decremented
  rw [hinv.count_launched ThreadPc.decremented rfl] at hactive
  rw [← hall]
  cases hcomp : s.launcher.compensated with
  | true | false =>
    rw [hcomp] at hactive
    simp at hactive ⊢
    omega

end

/-- **The start of the runtime, in every run.** -/
theorem reachable_accounted (hs : (system n pinWorkers).Reachable s) :
    Accounted n pinWorkers s := by
  have hinv := reachable_inv hs
  refine ⟨fun v h => hinv.launched_of_invoked h, ?_, hinv.latch_nonneg, hinv.latch_eq_zero, ?_, ?_,
    hinv.drained_iff, ?_, ?_, ?_, ?_⟩
  · intro hexited
    by_cases hsome : ∃ v, (v, StartEvent.invoked) ∈ s.log
    · obtain ⟨v, hv⟩ := hsome
      obtain ⟨hlaunched, _, hnone⟩ := hinv.launched_of_invoked hv
      left
      intro w hw
      have hdecided := (hinv.threads w).decided.mp (by rw [hexited w (by omega)]; rfl)
      exact hdecided.resolve_right (hnone w)
    · exact .inr fun v hv => hsome ⟨v, hv⟩
  · intro hfinished harrived w hpc
    have hzero := hinv.latch_eq_zero hfinished harrived
    refine ⟨s.setPc w .check, ?_, update_self _ _ _⟩
    simp [step, advance, hpc, hzero]
  · intro hstarted
    have hactive := hinv.active hstarted
    have hsplit := hinv.count_split
    have hle := hinv.le
    split at hactive
    · next hcomp =>
      rw [if_pos hcomp]
      omega
    rename_i hcomp
    rw [if_neg hcomp]
    omega
  · have hwrites := hinv.writes
    split at hwrites <;> omega
  · intro hne
    have hwrites := hinv.writes
    split at hwrites
    · next hzero =>
      obtain ⟨hstarted, hactive, hpos⟩ := hzero
      obtain ⟨_, hall⟩ := (hinv.drained_iff hstarted).mp hactive
      have hpast := pastLatch_of_decremented ((hinv.threads 0).decremented.mpr (hall 0 hpos))
      exact ⟨(hinv.of_open (hinv.opened 0 hpast)).1, hpos, hall⟩
    · omega
  · intro hfinished hpos hexited
    have hnone : count (fun v => decide (s.pc v = .write) = true) n = 0 := by
      rw [hinv.count_launched (fun x => decide (x = .write)) rfl]
      refine Nat.count_iff_forall_not.mpr fun v hv => ?_
      rw [hexited v hv]
      simp
    have hstarted : s.launcher ≠ .storeActive := by
      intro h
      rw [h] at hfinished
      cases hfinished
    have hall : ∀ v < s.launched, (v, StartEvent.decremented) ∈ s.log := fun v hv =>
      (hinv.threads v).decremented.mp (by rw [hexited v hv]; rfl)
    have hdone : s.launcher.compensated = true ∨ s.launched = n := by
      have hfits := hinv.fits
      rcases of_decide_eq_true hfinished with hl | hl
      · rw [hl] at hfits
        exact .inr hfits
      rw [hl]
      exact .inl rfl
    have hwrites := hinv.writes
    rw [hnone, if_pos ⟨hstarted, (hinv.drained_iff hstarted).mpr ⟨hdone, hall⟩, hpos⟩] at hwrites
    omega
  · intro v hdecremented hfailed
    have hok := hinv.threads v
    have hpc := hok.decremented.mpr hdecremented
    refine hok.ends (.inr hpc) ?_
    rcases hfailed with hpin | ⟨c, hc, hreturned⟩
    · -- the thread set `affinity_failed`, so it cannot have called `main_fn`
      have hflag : s.affinityFailed = true := by
        refine (hok.pinFailed hpin).resolve_left fun h => ?_
        rw [h] at hpc
        cases hpc
      have hchecked : (s.pc v).pastCheck = true := by
        cases hcase : s.pc v with
        | write | finish _ | exited => rfl
        | _ =>
          rw [hcase] at hpc
          cases hpc
      rcases hok.decided.mp hchecked with hinvoked | hskipped
      · have := hinv.invoked v hinvoked
        rw [hflag] at this
        cases this
      rw [hok.skipped hskipped]
      decide
    · rw [hok.returned c hreturned]
      exact hc

end Results

/-- Creating the second of two threads throws, and the first ends. -/
def failedLaunchLabels : List Label :=
  [.launcher, .launch true, .launch false, .affinity 0 true, .advance 0, .launcher, .launcher,
    .launcher, .advance 0, .advance 0, .advance 0, .advance 0, .advance 0, .advance 0, .advance 0,
    .advance 0, .advance 0, .advance 0, .advance 0, .advance 0, .advance 0, .advance 0]

theorem accounted_failed_launch :
    ∃ s, (system 2 true).run (fresh 2) failedLaunchLabels = some s ∧ (s.pc 0 = .exited ∧
      s.launched = 1 ∧ s.completionWrites = 1) ∧ Accounted 2 true s := by
  exact exists_run rfl reachable_accounted (by decide +kernel)

end Startup

end Bycorf.Runtime
