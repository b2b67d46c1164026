/-
  The two-phase shutdown of `Server::RunWorker` is safe.

  1. **Moves** — `Move` says once what a thread can do at each program point, and which event it
     records; `step_cases` reads a step of the system as a move of one thread.
  2. **Invariant** — each counter is the number of workers behind its point, and each program point
     has its events in the log (`Inv`).
  3. **Result** — `reachable_twoPhase`: in the log of every run the teardown comes after the last
     loop and the finalizers after the last teardown, every worker counts once at each barrier, and
     nobody waits at one that all others have reached.
-/
import Bycorf.Net.Server

namespace Bycorf.Net.Server

open Lib

variable {n : Nat} {services : List Service}

/-! ## Moves -/

/-- The thread of `w` goes from one program point to another, and records an event or nothing. -/
inductive Move (n : Nat) (services : List Service) (s : Server) (w : Nat) :
    Pc → Option Event → Pc → Prop where
  | init : Move n services s w .init none .run
  | initFails : Move n services s w .init (some .initFailed) .failDrained
  | failDrained : Move n services s w .failDrained (some .drained) .failReclaimed
  | failReclaimed : Move n services s w .failReclaimed (some .reclaimed) (.requestStop true)
  | requestStop (b : Bool) : Move n services s w (.requestStop b) none (.stopPass b 0)
  | stopAgain (b : Bool) : Move n services s w (.requestStop b) none (afterStop b)
  | stopPass (b : Bool) (i : Nat) : Move n services s w (.stopPass b i) none (.stopPass b (i + 1))
  | stopped (b : Bool) (i : Nat) : Move n services s w (.stopPass b i) none (afterStop b)
  | leaveRun : Move n services s w .run (some .leftRun) .left
  | failed : Move n services s w .left none (.requestStop false)
  | left : Move n services s w .left none .drained
  | drained : Move n services s w .drained (some .drained) .awaitDrained
  | awaitDrained : Move n services s w .awaitDrained none .awaitDrained
  | allDrained (h : n ≤ s.drainedWorkers) : Move n services s w .awaitDrained none .shutdown
  | shutdown : Move n services s w .shutdown (some .shutdown) .destroyDetachedTasks
  | destroyDetachedTasks :
      Move n services s w .destroyDetachedTasks (some .destroyDetachedTasks) .reclaimed
  | reclaimed : Move n services s w .reclaimed (some .reclaimed) .awaitReclaimed
  | awaitReclaimed : Move n services s w .awaitReclaimed none .awaitReclaimed
  | allReclaimed (h : n ≤ s.reclaimedWorkers) :
      Move n services s w .awaitReclaimed none (.finalize services.reverse)
  | finalized (code : Nat) : Move n services s w (.finalize []) none (.returned code)
  | finalize (service : Service) (rest : List Service) (h : service.runsOnWorker w = true) :
      Move n services s w (.finalize (service :: rest)) (some (.finalizeWorker service))
        (.finalize rest)
  | skip (service : Service) (rest : List Service) (h : service.runsOnWorker w = false) :
      Move n services s w (.finalize (service :: rest)) none (.finalize rest)

/-- One more, if the event says so. -/
def bump (e counted : Option Event) : Nat := if e = counted then 1 else 0

/-- A move of the thread of `w`, and what it does to the shared state. -/
structure Moved (n : Nat) (services : List Service) (s s' : Server) (w : Nat) (e : Option Event)
    (pc : Pc) : Prop where
  lt : w < n
  move : Move n services s w (s.pc w) e pc
  pc_eq : s'.pc = Function.update s.pc w pc
  log_eq : s'.log = s.log ++ e.toList.map fun x => (w, x)
  drained_eq : s'.drainedWorkers = s.drainedWorkers + bump e (some .drained)
  reclaimed_eq : s'.reclaimedWorkers = s.reclaimedWorkers + bump e (some .reclaimed)

/-- Nothing happens that the shutdown looks at. -/
structure Same (s s' : Server) : Prop where
  pc_eq : s'.pc = s.pc
  log_eq : s'.log = s.log
  drained_eq : s'.drainedWorkers = s.drainedWorkers
  reclaimed_eq : s'.reclaimedWorkers = s.reclaimedWorkers

section Steps

variable {s s' : Server} {w : Nat}

theorem quiet_moved {u : Server} {pc : Pc} (hw : w < n)
    (hmove : Move n services s w (s.pc w) none pc)
    (hu : Same s u) : Moved n services s (u.setPc w pc) w none pc where
  lt := hw
  move := hmove
  pc_eq := by rw [← hu.pc_eq]; rfl
  log_eq := by rw [Option.toList_none, List.map_nil, append_nil]; exact hu.log_eq
  drained_eq := hu.drained_eq
  reclaimed_eq := hu.reclaimed_eq

theorem record_moved {pc : Pc} {e : Event} (hw : w < n)
    (hmove : Move n services s w (s.pc w) (some e) pc) (hdrained : e ≠ .drained)
    (hreclaimed : e ≠ .reclaimed) : Moved n services s ((s.record w e).setPc w pc) w (some e)
      pc where
  lt := hw
  move := hmove
  pc_eq := rfl
  log_eq := rfl
  drained_eq := by simp [bump, hdrained, setPc, record]
  reclaimed_eq := by simp [bump, hreclaimed, setPc, record]

theorem advance_cases (hw : w < n) (hs : s.advance n services w = some s') :
    ∃ e pc, Moved n services s s' w e pc := by
  have hmoves : ∀ {u : Server} {pc : Pc}, Move n services s w (s.pc w) none pc → Same s u →
      ∃ e pc', Moved n services s (u.setPc w pc) w e pc' :=
    fun hmove hu => ⟨none, _, quiet_moved hw hmove hu⟩
  obtain ⟨p, hpc⟩ : ∃ p, s.pc w = p := ⟨_, rfl⟩
  have hat : ∀ {e pc}, Move n services s w p e pc → Move n services s w (s.pc w) e pc :=
    fun h => hpc ▸ h
  rw [advance, hpc] at hs
  cases p with
  | init | run | returned _ =>
    cases hs
  | failDrained =>
    cases hs
    exact ⟨some .drained, _, hw, hat .failDrained, rfl, rfl, rfl, rfl⟩
  | failReclaimed =>
    cases hs
    exact ⟨some .reclaimed, _, hw, hat .failReclaimed, rfl, rfl, rfl, rfl⟩
  | requestStop b =>
    cases hs
    refine hmoves ?_ ⟨rfl, rfl, rfl, rfl⟩
    rw [hpc]
    split
    · exact .stopAgain b
    · exact .requestStop b
  | stopPass b i =>
    dsimp only at hs
    split at hs
    · cases hs
      exact hmoves (hat (.stopPass b i)) ⟨rfl, rfl, rfl, rfl⟩
    cases hs
    exact hmoves (hat (.stopped b i)) ⟨rfl, rfl, rfl, rfl⟩
  | left =>
    cases hs
    refine hmoves ?_ ⟨rfl, rfl, rfl, rfl⟩
    rw [hpc]
    split
    · exact .failed
    · exact .left
  | drained =>
    cases hs
    exact ⟨some .drained, _, hw, hat .drained, rfl, rfl, rfl, rfl⟩
  | awaitDrained =>
    cases hs
    refine hmoves ?_ ⟨rfl, rfl, rfl, rfl⟩
    rw [hpc]
    split
    · exact .awaitDrained
    · exact .allDrained (by omega)
  | shutdown =>
    cases hs
    exact ⟨_, _, record_moved hw (hat .shutdown) (by simp) (by simp)⟩
  | destroyDetachedTasks =>
    cases hs
    exact ⟨_, _, record_moved hw (hat .destroyDetachedTasks) (by simp) (by simp)⟩
  | reclaimed =>
    cases hs
    exact ⟨some .reclaimed, _, hw, hat .reclaimed, rfl, rfl, rfl, rfl⟩
  | awaitReclaimed =>
    cases hs
    refine hmoves ?_ ⟨rfl, rfl, rfl, rfl⟩
    rw [hpc]
    split
    · exact .awaitReclaimed
    · exact .allReclaimed (by omega)
  | finalize rest =>
    rcases rest with _ | ⟨service, rest⟩
    · cases hs
      exact hmoves (hat (.finalized _)) ⟨rfl, rfl, rfl, rfl⟩
    dsimp only at hs
    split at hs
    · next hruns =>
      cases hs
      exact ⟨_, _, record_moved hw (hat (.finalize service rest hruns)) (by simp)
        (by simp)⟩
    rename_i hskip
    cases hs
    refine hmoves ?_ ⟨rfl, rfl, rfl, rfl⟩
    rw [hpc]
    exact .skip service rest (eq_false_iff.mpr hskip)

/-- **What a step does**: one thread moves, or nothing happens that matters here. -/
theorem step_cases {a : Label} (hs : s.step n services a = some s') :
    (∃ w e pc, Moved n services s s' w e pc) ∨ Same s s' := by
  cases a with
  | init w ok =>
    obtain ⟨⟨hw, hpc⟩, hs⟩ := ite_none_right_eq_some.mp hs
    left
    split at hs
    · cases hs
      exact ⟨w, none, _, quiet_moved hw (by rw [hpc]; exact .init) ⟨rfl, rfl, rfl, rfl⟩⟩
    cases hs
    exact ⟨w, _, _, record_moved hw (by rw [hpc]; exact .initFails) (by simp) (by simp)⟩
  | leaveRun w =>
    refine of_guard hs fun ⟨hw, hpc⟩ => ?_
    exact .inl ⟨w, _, _, record_moved hw (by rw [hpc]; exact .leaveRun) (by simp) (by simp)⟩
  | advance w =>
    obtain ⟨hw, hs⟩ := ite_none_right_eq_some.mp hs
    exact .inl ⟨w, advance_cases hw hs⟩
  | stop w =>
    cases hs
    exact .inr ⟨rfl, rfl, rfl, rfl⟩

end Steps

/-! ## The invariant -/

/-- The thread has counted in `drained_workers_`. -/
def Pc.countedDrained : Pc → Bool
  | .init | .failDrained | .run | .left | .drained => false
  | .requestStop failedInit | .stopPass failedInit _ => failedInit
  | _ => true

/-- The thread has counted in `reclaimed_workers_`. -/
def Pc.countedReclaimed : Pc → Bool
  | .requestStop failedInit | .stopPass failedInit _ => failedInit
  | .awaitReclaimed | .finalize _ | .returned _ => true
  | _ => false

/-- The thread is behind the first barrier. -/
def Pc.tearsDown : Pc → Bool
  | .shutdown | .destroyDetachedTasks | .reclaimed | .awaitReclaimed | .finalize _ => true
  | _ => false

/-- The thread is behind the second barrier. -/
def Pc.unwinds : Pc → Bool
  | .finalize _ => true
  | _ => false

/-- The thread is on the path of a failed `Init`. -/
def Pc.failing : Pc → Bool
  | .failDrained | .failReclaimed => true
  | .requestStop failedInit | .stopPass failedInit _ => failedInit
  | _ => false

/-- No coroutine frame of the worker is left. -/
def Pc.framesGone (pc : Pc) : Bool :=
  pc.failing || match pc with
    | .reclaimed | .awaitReclaimed | .finalize _ | .returned _ => true
    | _ => false

/-- What has to stand in the log before an event may be recorded. -/
def Allowed (n : Nat) (front : List (Nat × Event)) : Nat × Event → Prop
  | (_, .shutdown) | (_, .destroyDetachedTasks) =>
    ∀ v < n, (v, Event.leftRun) ∈ front ∨ (v, Event.initFailed) ∈ front
  | (_, .finalizeWorker _) =>
    ∀ v < n, (v, Event.destroyDetachedTasks) ∈ front ∨ (v, Event.initFailed) ∈ front
  | (w, .drained) => (w, Event.drained) ∉ front
  | (w, .reclaimed) => (w, Event.reclaimed) ∉ front
  | _ => True

/-- The services that `w` has finalized, in order. -/
def finalizedOn (w : Nat) (log : List (Nat × Event)) : List Service :=
  log.filterMap fun
    | (v, .finalizeWorker service) => if v = w then some service else none
    | _ => none

/-- What is left to finalize at a program point. -/
def Pc.toFinalize (services : List Service) : Pc → List Service
  | .finalize rest => rest
  | .returned _ => []
  | _ => services.reverse

/-- What a thread's program point says about the log. -/
structure ThreadOk (services : List Service) (log : List (Nat × Event)) (w : Nat) (pc : Pc) :
    Prop where
  drained : pc.countedDrained = true ↔ (w, Event.drained) ∈ log
  reclaimed : pc.countedReclaimed = true ↔ (w, Event.reclaimed) ∈ log
  out : pc ≠ .init → pc ≠ .run → (w, Event.leftRun) ∈ log ∨ (w, Event.initFailed) ∈ log
  inLoop : pc = .init ∨ pc = .run ∨ pc.failing = true → (w, Event.leftRun) ∉ log
  frames : pc.framesGone = true →
    (w, Event.destroyDetachedTasks) ∈ log ∨ (w, Event.initFailed) ∈ log
  services : finalizedOn w log ++ (pc.toFinalize services).filter (fun x => x.runsOnWorker w) =
      unwinding services w ∨
    (∃ code, pc = .returned code) ∧ (w, Event.leftRun) ∉ log ∧ finalizedOn w log = []

/-- The two counters, in terms of where the workers are. -/
structure Inv (n : Nat) (services : List Service) (s : Server) : Prop where
  drained : s.drainedWorkers = Nat.count (fun v => (s.pc v).countedDrained = true) n
  reclaimed : s.reclaimedWorkers = Nat.count (fun v => (s.pc v).countedReclaimed = true) n
  threads : ∀ w < n, ThreadOk services s.log w (s.pc w)
  tearsDown : ∀ w < n, (s.pc w).tearsDown = true → n ≤ s.drainedWorkers
  unwinds : ∀ w < n, (s.pc w).unwinds = true → n ≤ s.reclaimedWorkers
  log : Justified (Allowed n) s.log

/-! ### One move -/

section Moves

variable {s s' : Server} {w : Nat} {e : Option Event} {pc pc' : Pc}

section

variable (h : Move n services s w pc e pc')
include h

theorem Move.countedDrained :
    (pc'.countedDrained = true ↔ pc.countedDrained = true ∨ e = some .drained) ∧
      (e = some .drained → pc.countedDrained = false) := by
  cases h with
  | stopAgain b | stopped b _ => cases b <;> simp [Pc.countedDrained, afterStop]
  | _ => simp [Pc.countedDrained]

theorem Move.countedReclaimed :
    (pc'.countedReclaimed = true ↔ pc.countedReclaimed = true ∨ e = some .reclaimed) ∧
      (e = some .reclaimed → pc.countedReclaimed = false) := by
  cases h with
  | stopAgain b | stopped b _ => cases b <;> simp [Pc.countedReclaimed, afterStop]
  | _ => simp [Pc.countedReclaimed]

theorem Move.tearsDown (h' : pc'.tearsDown = true) :
    pc.tearsDown = true ∨ n ≤ s.drainedWorkers := by
  cases h with
  | allDrained hle => exact .inr hle
  | stopAgain b | stopped b _ => cases b <;> simp [Pc.tearsDown, afterStop] at h'
  | _ => simp_all [Pc.tearsDown]

theorem Move.unwinds (h' : pc'.unwinds = true) : pc.unwinds = true ∨ n ≤ s.reclaimedWorkers := by
  cases h with
  | allReclaimed hle => exact .inr hle
  | stopAgain b | stopped b _ => cases b <;> simp [Pc.unwinds, afterStop] at h'
  | _ => simp_all [Pc.unwinds]

end

variable {log : List (Nat × Event)}

/-- A move into a point needs the events that `ThreadOk` asks for there. -/
theorem Move.events (h : Move n services s w pc e pc') (hok : ThreadOk services log w pc) :
    let log' := log ++ e.toList.map fun x => (w, x)
    (pc' ≠ .init → pc' ≠ .run → (w, Event.leftRun) ∈ log' ∨ (w, Event.initFailed) ∈ log') ∧
      (pc' = .init ∨ pc' = .run ∨ pc'.failing = true → (w, Event.leftRun) ∉ log') ∧
      (pc'.framesGone = true →
        (w, Event.destroyDetachedTasks) ∈ log' ∨ (w, Event.initFailed) ∈ log') := by
  have hout := hok.out
  have hloop := hok.inLoop
  have hframes := hok.frames
  cases h with
  | stopAgain b | stopped b _ =>
    cases b <;> simp_all [Pc.failing, Pc.framesGone, afterStop]
  | requestStop b | stopPass b _ => cases b <;> simp_all [Pc.failing, Pc.framesGone]
  | _ => simp_all [Pc.failing, Pc.framesGone]

theorem finalizedOn_concat (w : Nat) (log : List (Nat × Event)) (v : Nat) (x : Event) :
    finalizedOn w (log ++ [(v, x)]) = finalizedOn w log ++
      match x with
      | .finalizeWorker service => if v = w then [service] else []
      | _ => [] := by
  unfold finalizedOn
  rw [filterMap_append]
  cases x with
  | finalizeWorker service =>
    by_cases hv : v = w <;> simp [hv]
  | _ => simp

/-- The loop over the services goes on. -/
theorem Move.finalizing (h : Move n services s w pc e pc') (hok : ThreadOk services log w pc) :
    let log' := log ++ e.toList.map fun x => (w, x)
    finalizedOn w log' ++ (pc'.toFinalize services).filter (fun x => x.runsOnWorker w) =
        unwinding services w ∨
      (∃ code, pc' = .returned code) ∧ (w, Event.leftRun) ∉ log' ∧ finalizedOn w log' = [] := by
  have hloop := hok.inLoop
  rcases hok.services with hold | ⟨⟨code, rfl⟩, _⟩
  · cases h with
    | finalize service rest hruns =>
      left
      rw [Option.toList_some, List.map_singleton, finalizedOn_concat, ← hold]
      simp [Pc.toFinalize, hruns]
    | skip service rest hskip =>
      left
      rw [← hold]
      simp [Pc.toFinalize, hskip]
    | finalized code =>
      left
      rw [← hold]
      simp [Pc.toFinalize]
    | stopAgain b | stopped b _ =>
      cases b
      · left
        simpa [Pc.toFinalize, afterStop] using hold
      -- the worker failed `Init`: it finalizes nothing
      have hnone : finalizedOn w log = [] := by
        have hsame : finalizedOn w log ++ unwinding services w = unwinding services w := hold
        simpa using hsame
      right
      refine ⟨⟨1, rfl⟩, ?_, ?_⟩
      · simpa using hloop (.inr (.inr rfl))
      · simpa using hnone
    | _ =>
      left
      simpa [finalizedOn_concat, Pc.toFinalize] using hold
  · cases h

/-- The thread that moves. -/
theorem ThreadOk.move (hok : ThreadOk services log w pc) (h : Move n services s w pc e pc') :
    ThreadOk services (log ++ e.toList.map fun x => (w, x)) w pc' := by
  obtain ⟨hout, hloop, hframes⟩ := h.events hok
  refine ⟨?_, ?_, hout, hloop, hframes, h.finalizing hok⟩
  · rw [h.countedDrained.1, hok.drained]
    cases e <;> simp [eq_comm]
  · rw [h.countedReclaimed.1, hok.reclaimed]
    cases e <;> simp [eq_comm]

variable {v : Nat}

/-- The others. -/
theorem ThreadOk.others (hok : ThreadOk services log v pc) (hv : v ≠ w) (e : Option Event) :
    ThreadOk services (log ++ e.toList.map fun x => (w, x)) v pc := by
  have hmem : ∀ x, (v, x) ∈ log ++ e.toList.map (fun x => (w, x)) ↔ (v, x) ∈ log := by
    intro x
    cases e <;> simp [hv]
  have hfinal : finalizedOn v (log ++ e.toList.map fun x => (w, x)) = finalizedOn v log := by
    rcases e with _ | x
    · simp
    rw [Option.toList_some, List.map_singleton, finalizedOn_concat]
    cases x <;> simp [Ne.symm hv]
  constructor
  · rw [hmem]
    exact hok.drained
  · rw [hmem]
    exact hok.reclaimed
  · rw [hmem, hmem]
    exact hok.out
  · rw [hmem]
    exact hok.inLoop
  · rw [hmem, hmem]
    exact hok.frames
  · rw [hmem, hfinal]
    exact hok.services

/-- Everybody has left its loop once the first counter is full. -/
theorem Inv.all_out (hinv : Inv n services s) (hfull : n ≤ s.drainedWorkers) (hv : v < n) :
    (v, Event.leftRun) ∈ s.log ∨ (v, Event.initFailed) ∈ s.log := by
  have hcount : Nat.count (fun v => (s.pc v).countedDrained = true) n = n :=
    le_antisymm (Nat.count_le _) (hinv.drained ▸ hfull)
  have hcounted := Nat.count_iff_forall.mp hcount v hv
  refine (hinv.threads v hv).out ?_ ?_
  · rintro h
    rw [h] at hcounted
    cases hcounted
  · rintro h
    rw [h] at hcounted
    cases hcounted

theorem framesGone_of_counted (h : pc.countedReclaimed = true) : pc.framesGone = true := by
  cases pc with
  | requestStop b | stopPass b _ =>
    cases b with
    | false => cases h
    | true => rfl
  | awaitReclaimed | finalize _ | returned _ => rfl
  | _ => cases h

/-- Nobody has frames once the second counter is full. -/
theorem Inv.all_gone (hinv : Inv n services s) (hfull : n ≤ s.reclaimedWorkers)
    (hv : v < n) : (v, Event.destroyDetachedTasks) ∈ s.log ∨ (v, Event.initFailed) ∈ s.log := by
  have hcount : Nat.count (fun v => (s.pc v).countedReclaimed = true) n = n :=
    le_antisymm (Nat.count_le _) (hinv.reclaimed ▸ hfull)
  exact (hinv.threads v hv).frames (framesGone_of_counted (Nat.count_iff_forall.mp hcount v hv))

/-- The event of a move is allowed. -/
theorem Inv.allowed (hinv : Inv n services s) (hw : w < n) {x : Event}
    (h : Move n services s w (s.pc w) (some x) pc') : Allowed n s.log (w, x) := by
  have hthread := hinv.threads w hw
  generalize hpc : s.pc w = pc at h hthread
  cases h with
  | initFails | leaveRun => trivial
  | failDrained | drained =>
    intro hmem
    cases hthread.drained.mpr hmem
  | failReclaimed | reclaimed =>
    intro hmem
    cases hthread.reclaimed.mpr hmem
  | shutdown | destroyDetachedTasks =>
    intro v hv
    exact hinv.all_out (hinv.tearsDown w hw (by rw [hpc]; rfl)) hv
  | finalize service rest hruns =>
    intro v hv
    exact hinv.all_gone (hinv.unwinds w hw (by rw [hpc]; rfl)) hv

end Moves

/-! ### Runs -/

section Runs

variable {s s' : Server} {w : Nat} {e : Option Event} {pc : Pc}

theorem fresh_inv (n : Nat) (services : List Service) : Inv n services fresh where
  drained := (Nat.count_iff_forall_not.mpr nofun).symm
  reclaimed := (Nat.count_iff_forall_not.mpr nofun).symm
  threads w _ := by
    refine ⟨?_, ?_, absurd rfl, fun _ => by simp [fresh], nofun, ?_⟩
    · simp [fresh, Pc.countedDrained]
    · simp [fresh, Pc.countedReclaimed]
    · exact .inl rfl
  tearsDown _ _ h := by cases h
  unwinds _ _ h := by cases h
  log := justified_nil

/-- A counter follows the program points. -/
theorem Moved.count (h : Moved n services s s' w e pc) {counted : Pc → Bool} {x : Event}
    (hcounted : (counted pc = true ↔ counted (s.pc w) = true ∨ e = some x) ∧
      (e = some x → counted (s.pc w) = false)) :
    Nat.count (fun v => counted (s'.pc v) = true) n =
      Nat.count (fun v => counted (s.pc v) = true) n + bump e (some x) := by
  obtain ⟨hiff, hnew⟩ := hcounted
  have hcount := count_update counted s.pc pc h.lt
  rw [h.pc_eq]
  by_cases he : e = some x
  · rw [hnew he, hiff.mpr (.inr he)] at hcount
    rw [bump, if_pos he]
    exact hcount
  have hsame : counted pc = counted (s.pc w) := by
    rw [Bool.eq_iff_iff, hiff]
    simp [he]
  rw [hsame] at hcount
  rw [bump, if_neg he]
  omega

/-- **One move keeps the invariant.** -/
theorem Moved.inv (h : Moved n services s s' w e pc) (hinv : Inv n services s) :
    Inv n services s' := by
  have hle : s.drainedWorkers ≤ s'.drainedWorkers := by
    rw [h.drained_eq]
    omega
  have hle' : s.reclaimedWorkers ≤ s'.reclaimedWorkers := by
    rw [h.reclaimed_eq]
    omega
  have hat : ∀ v, s'.pc v = if v = w then pc else s.pc v := by
    intro v
    rw [h.pc_eq, Function.update_apply]
  constructor
  · rw [h.count h.move.countedDrained, h.drained_eq, hinv.drained]
  · rw [h.count h.move.countedReclaimed, h.reclaimed_eq, hinv.reclaimed]
  · intro v hv
    rw [hat, h.log_eq]
    split
    · next hvw =>
      subst hvw
      exact (hinv.threads v hv).move h.move
    · next hvw => exact (hinv.threads v hv).others hvw e
  · intro v hv htears
    rw [hat] at htears
    split at htears
    · rcases h.move.tearsDown htears with hold | hfull
      · exact (hinv.tearsDown w h.lt hold).trans hle
      · exact hfull.trans hle
    · exact (hinv.tearsDown v hv htears).trans hle
  · intro v hv hunwinds
    rw [hat] at hunwinds
    split at hunwinds
    · rcases h.move.unwinds hunwinds with hold | hfull
      · exact (hinv.unwinds w h.lt hold).trans hle'
      · exact hfull.trans hle'
    · exact (hinv.unwinds v hv hunwinds).trans hle'
  · rw [h.log_eq]
    cases e with
    | none => simpa using hinv.log
    | some x => exact hinv.log.concat (hinv.allowed h.lt h.move)

theorem Same.inv (h : Same s s') (hinv : Inv n services s) : Inv n services s' := by
  constructor
  · rw [h.drained_eq, h.pc_eq]
    exact hinv.drained
  · rw [h.reclaimed_eq, h.pc_eq]
    exact hinv.reclaimed
  · rw [h.pc_eq, h.log_eq]
    exact hinv.threads
  · rw [h.pc_eq, h.drained_eq]
    exact hinv.tearsDown
  · rw [h.pc_eq, h.reclaimed_eq]
    exact hinv.unwinds
  · rw [h.log_eq]
    exact hinv.log

theorem reachable_inv (hs : (system n services).Reachable s) : Inv n services s := by
  refine Reachable.invariant ?_ ?_ hs
  · rintro _ rfl
    exact fresh_inv n services
  · intro s a s' hinv hstep
    rcases step_cases hstep with ⟨w, e, pc, hmoved⟩ | hsame
    · exact hmoved.inv hinv
    · exact hsame.inv hinv

end Runs

/-! ## The shutdown -/

/-- **The two-phase shutdown.** -/
structure TwoPhase (n : Nat) (services : List Service) (s : Server) : Prop where
  /-- No worker shuts down or destroys frames before every worker has left its loop or failed. -/
  teardown : ∀ front w back x, x = Event.shutdown ∨ x = Event.destroyDetachedTasks →
    s.log = front ++ (w, x) :: back →
    ∀ v < n, (v, Event.leftRun) ∈ front ∨ (v, Event.initFailed) ∈ front
  /-- No finalizer runs before every worker has destroyed its frames or failed. -/
  finalizers : ∀ front w service back, s.log = front ++ (w, .finalizeWorker service) :: back →
    ∀ v < n, (v, Event.destroyDetachedTasks) ∈ front ∨ (v, Event.initFailed) ∈ front
  /-- Every worker counts once in each counter. -/
  once : ∀ w < n, s.log.count (w, .drained) ≤ 1 ∧ s.log.count (w, .reclaimed) ≤ 1
  returned : ∀ w < n, ∀ code, s.pc w = .returned code →
    s.log.count (w, .drained) = 1 ∧ s.log.count (w, .reclaimed) = 1
  drained : s.drainedWorkers ≤ n ∧ (s.drainedWorkers = n ↔ ∀ w < n, (w, Event.drained) ∈ s.log)
  reclaimed : s.reclaimedWorkers ≤ n ∧
    (s.reclaimedWorkers = n ↔ ∀ w < n, (w, Event.reclaimed) ∈ s.log)
  /-- A worker at a barrier that all others have reached goes on. -/
  released : ∀ w < n, s.pc w = .awaitDrained → (∀ v < n, v ≠ w → (v, Event.drained) ∈ s.log) →
    ∃ s', s.step n services (.advance w) = some s' ∧ s'.pc w = .shutdown
  released' : ∀ w < n, s.pc w = .awaitReclaimed → (∀ v < n, v ≠ w → (v, Event.reclaimed) ∈ s.log) →
    ∃ s', s.step n services (.advance w) = some s' ∧ s'.pc w = .finalize services.reverse
  /-- Services are finalized in reverse order of registration, and all of them in the end. -/
  order : ∀ w < n, finalizedOn w s.log <+: unwinding services w
  finalized : ∀ w < n, ∀ code, s.pc w = .returned code → (w, Event.leftRun) ∈ s.log →
    finalizedOn w s.log = unwinding services w

theorem Inv.drained_eq_iff {s : Server} (hinv : Inv n services s) :
    s.drainedWorkers = n ↔ ∀ w < n, (w, Event.drained) ∈ s.log := by
  rw [hinv.drained, Nat.count_iff_forall]
  exact forall₂_congr fun w hw => (hinv.threads w hw).drained

theorem Inv.reclaimed_eq_iff {s : Server} (hinv : Inv n services s) :
    s.reclaimedWorkers = n ↔ ∀ w < n, (w, Event.reclaimed) ∈ s.log := by
  rw [hinv.reclaimed, Nat.count_iff_forall]
  exact forall₂_congr fun w hw => (hinv.threads w hw).reclaimed

/-- **The two-phase shutdown is safe in every run.** -/
theorem reachable_twoPhase {s : Server} (hs : (system n services).Reachable s) :
    TwoPhase n services s := by
  have hinv := reachable_inv hs
  have honce : ∀ w, s.log.count (w, .drained) ≤ 1 ∧ s.log.count (w, .reclaimed) ≤ 1 :=
    fun w => ⟨hinv.log.count_le_one fun _ h => h, hinv.log.count_le_one fun _ h => h⟩
  refine ⟨?_, ?_, fun w _ => honce w, ?_, ?_, ?_, ?_, ?_, ?_, ?_⟩
  · rintro front w back x (rfl | rfl) hlog
    · exact hinv.log front _ back hlog
    · exact hinv.log front _ back hlog
  · intro front w service back hlog
    exact hinv.log front _ back hlog
  · intro w hw code hpc
    have hthread := hinv.threads w hw
    rw [hpc] at hthread
    have hdrained := count_pos_iff.mpr (hthread.drained.mp rfl)
    have hreclaimed := count_pos_iff.mpr (hthread.reclaimed.mp rfl)
    have := honce w
    omega
  · exact ⟨hinv.drained ▸ Nat.count_le _, hinv.drained_eq_iff⟩
  · exact ⟨hinv.reclaimed ▸ Nat.count_le _, hinv.reclaimed_eq_iff⟩
  · intro w hw hpc hpeers
    have hown := (hinv.threads w hw).drained.mp (by rw [hpc]; rfl)
    have hfull : s.drainedWorkers = n := hinv.drained_eq_iff.mpr fun v hv => by
      by_cases hvw : v = w
      · rw [hvw]
        exact hown
      · exact hpeers v hv hvw
    refine ⟨s.setPc w .shutdown, ?_, update_self _ _ _⟩
    simp [step, hw, advance, hpc, hfull]
  · intro w hw hpc hpeers
    have hown := (hinv.threads w hw).reclaimed.mp (by rw [hpc]; rfl)
    have hfull : s.reclaimedWorkers = n := hinv.reclaimed_eq_iff.mpr fun v hv => by
      by_cases hvw : v = w
      · rw [hvw]
        exact hown
      · exact hpeers v hv hvw
    refine ⟨s.setPc w (.finalize services.reverse), ?_, update_self _ _ _⟩
    simp [step, hw, advance, hpc, hfull]
  · intro w hw
    rcases (hinv.threads w hw).services with h | ⟨_, _, h⟩
    · exact ⟨_, h⟩
    rw [h]
    exact List.nil_prefix
  · intro w hw code hpc hleft
    rcases (hinv.threads w hw).services with h | ⟨_, hnot, _⟩
    · rw [hpc] at h
      simpa [Pc.toFinalize] using h
    · exact absurd hleft hnot

/-- Two workers and two services: one worker fails `Init`, the other leaves its loop by itself. -/
def failedInitLabels : List Label :=
  [.init 0 false, .init 1 true, .advance 0, .leaveRun 1, .advance 1, .advance 1, .advance 1,
    .advance 1, .advance 1, .advance 1, .advance 1, .advance 1, .advance 1, .advance 0, .advance 1,
    .advance 1, .advance 1, .advance 1, .advance 1]

theorem twoPhase_failed_init :
    ∃ s, (system 2 [⟨0, []⟩, ⟨1, [1]⟩]).run fresh failedInitLabels = some s ∧
      finalizedOn 1 s.log = [⟨1, [1]⟩, ⟨0, []⟩] ∧ TwoPhase 2 [⟨0, []⟩, ⟨1, [1]⟩] s := by
  exact exists_run rfl reachable_twoPhase (by decide +kernel)

end Bycorf.Net.Server
