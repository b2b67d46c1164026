/-
  What a worker leaves runnable when it blocks.

  1. **One field** — `didWork` is false only as long as nothing has been found: every step that puts
     something on a queue raises it (`Inv.work`), with ONE exception, the idle sweep, which runs
     after the decision and only appends the readers it times out (`Inv.sweep`).
  2. **The ring** — the wait itself tests `HasPending` last, so nothing is unsubmitted and no
     synthetic completion is pending, whatever happened before; storage was tested before the sweep
     and no application code has run since.
  3. **The exact condition** — a blocked worker has something runnable if and only if the sweep of
     this round timed out a suspended reader and its close left nothing pending in the ring.
-/
import Bycorf.Net.Steps
import Bycorf.Runtime.RunOnce

namespace Bycorf.Runtime

open Lib IoUring Net
open Option (getD_some map_some)
open RoundPc (noConfusion poll)
open Net.Worker (closeIfIdle step)

/-! ## What the connection layer enqueues -/

section Enqueues

variable {L : Liburing Tag}

theorem releaseRecvBuffer_ready (w : Net.Worker) (c : ConnPtr) (conn : Connection)
    (buffer : UInt16) : (w.releaseRecvBuffer c conn buffer).ready = w.ready := by
  unfold Net.Worker.releaseRecvBuffer Net.Worker.recycleMultishotBuffer
  split
  · split <;> rfl
  · rfl

theorem retireConnection_ready (w : Net.Worker) (c : ConnPtr) :
    (w.retireConnection c).ready = w.ready := by
  have hfold : ∀ (conn : Connection) (buffers : List ReceivedBuffer) (w : Net.Worker),
      (buffers.foldl (fun w received => w.releaseRecvBuffer c conn received.bufferId) w).ready =
        w.ready := by
    intro conn buffers
    induction buffers with
    | nil => intro w; rfl
    | cons received buffers ih =>
      intro w
      rw [foldl_cons, ih, releaseRecvBuffer_ready]
  unfold Net.Worker.retireConnection
  split
  · rfl
  split
  · rfl
  · exact hfold _ _ w

open Net.Worker (beginClose cancelDisconnect closeFd closeSocket rearmOne reclaimLoop setConn
  stepLoop)

theorem closeSocket_ready (w : Net.Worker) (c : ConnPtr) (conn : Connection) :
    (closeSocket L c conn w).ready = w.ready := by
  unfold closeSocket closeFd
  split <;> split <;> (try split) <;> rfl

theorem cancelDisconnect_reader (c : ConnPtr) (conn : Connection) (b : Backend Tag) :
    (cancelDisconnect L c conn b).2.1.readWaiter = conn.readWaiter := by
  unfold cancelDisconnect
  split
  · rfl
  dsimp only
  split <;> rfl

/-- `BeginClose` resumes the suspended reader of the record. -/
theorem beginClose_reader (conn : Connection) (reason : Status) (mode : CloseMode) :
    (conn.beginClose reason mode).1 = conn.readWaiter := by
  unfold Connection.beginClose Connection.takeReader
  cases conn.readWaiter <;> rfl

theorem leaveActive_ready (w : Net.Worker) (conn : Connection) :
    (w.leaveActive conn).ready = w.ready := by
  unfold Net.Worker.leaveActive
  split <;> rfl

variable {w : Net.Worker} {conn : Connection}

theorem worker_beginClose_ready {c : ConnPtr}
    (hc : w.connections c = some conn) (hstate : conn.state ≠ .retired) (reason : Status)
    (mode : CloseMode) :
    (w.beginClose L c reason mode).ready = w.ready ++ conn.readWaiter.toList := by
  unfold beginClose
  rw [hc]
  dsimp only
  rw [if_neg hstate, retireConnection_ready, beginClose_reader, cancelDisconnect_reader]
  show (closeSocket L c conn _).ready ++ _ = _
  rw [closeSocket_ready]
  show (w.leaveActive conn).ready ++ _ = _
  rw [leaveActive_ready]

theorem timedOut_iff {now timeout : Int} :
    timedOut now timeout conn = true ↔ conn.retired = false ∧ conn.closed = false ∧
      0 < conn.lastActiveMs ∧ timeout ≤ now - conn.lastActiveMs := by
  simp [timedOut, and_assoc]

/-- **The idle sweep enqueues the readers it times out**, and nothing else. -/
theorem closeIfIdle_ready (now : Int) (w : Net.Worker) (c : ConnPtr) :
    (closeIfIdle L now w c).ready =
      w.ready ++ ((w.connections c).map (timedOutReader now w.options.idleTimeoutMs)).getD [] := by
  unfold closeIfIdle
  rcases hc : w.connections c with _ | conn
  · simp
  dsimp only [map_some, getD_some]
  unfold timedOutReader
  split
  next hskip =>
    rw [if_neg, append_nil]
    rintro ⟨hout, _⟩
    obtain ⟨hretired, hclosed, hactive, _⟩ := timedOut_iff.mp hout
    rcases hskip with h | h | h
    · rw [hretired] at h; cases h
    · rw [hclosed] at h; cases h
    · omega
  next hskip =>
    simp only [not_or, not_eq_true] at hskip
    obtain ⟨hretired, hclosed, hactive⟩ := hskip
    split
    next hyoung =>
      rw [if_neg, append_nil]
      rintro ⟨hout, _⟩
      have hage := (timedOut_iff.mp hout).2.2.2
      omega
    rename_i hold
    have hout : timedOut now w.options.idleTimeoutMs conn = true :=
      timedOut_iff.mpr ⟨hretired, hclosed, by omega, by omega⟩
    by_cases hstate : conn.state = .retired
    · rw [if_neg (by rintro ⟨_, hne⟩; exact hne hstate), append_nil]
      unfold beginClose setConn
      dsimp only
      rw [update_self]
      dsimp only
      rw [if_pos hstate]
    rw [if_pos ⟨hout, hstate⟩]
    let reason : Status := ⟨.deadlineExceeded, "connection idle timeout"⟩
    have hself : (w.setConn c { conn with lastError := reason }).connections c =
        some { conn with lastError := reason } := update_self ..
    exact worker_beginClose_ready hself hstate reason .idleTimeout

theorem startRecvMultishot_ready (w : Net.Worker) (c : ConnPtr) :
    (w.startRecvMultishot L c).2.ready = w.ready := by
  unfold Net.Worker.startRecvMultishot setConn
  split
  · rfl
  split
  · rfl
  split
  · rfl
  dsimp only
  split <;> rfl

theorem rearmOne_ready (w : Net.Worker) (c : ConnPtr) : (w.rearmOne L c).ready = w.ready := by
  unfold rearmOne
  split
  next => rfl
  rename_i conn _
  have harm : ((w.setConn c { conn with needsRecvRearm := false }).startRecvMultishot L c).2.ready
      = w.ready := startRecvMultishot_ready _ c
  dsimp only
  split
  · split <;> exact harm
  · rfl

theorem reclaimConnections_frame (w : Net.Worker) :
    w.reclaimConnections.ready = w.ready ∧ w.reclaimConnections.backend = w.backend := by
  have hloop : ∀ (ids still : List ConnPtr) (w : Net.Worker),
      (reclaimLoop ids still w).ready = w.ready ∧
        (reclaimLoop ids still w).backend = w.backend := by
    intro ids
    induction ids with
    | nil => intro still w; exact ⟨rfl, rfl⟩
    | cons c ids ih =>
      intro still w
      unfold reclaimLoop
      split
      · exact ih still w
      split
      · exact ih still _
      · exact ih _ _
  exact hloop _ _ w

variable {w' : Net.Worker} {a : Net.Worker.Action}

/-- A turn of `Poll` that dispatches nothing enqueues nothing. -/
theorem poll_ready (ha : netSide a = .poll)
    (hnone : dispatches w a = false) (h : w.step L a = some w') : w'.ready = w.ready := by
  cases a with
  | reap stopping now =>
    simp only [step, stepLoop] at h
    split at h
    next =>
      cases h
      rfl
    next cqe cq _ hcq =>
      simp [dispatches, hcq] at hnone
    next => cases h
  | deferred stopping now =>
    simp only [step, stepLoop] at h
    split at h
    next hphase => simp [dispatches, hphase] at hnone
    next =>
      cases h
      rfl
    next => cases h
  | rearm =>
    simp only [step, stepLoop] at h
    split at h
    next c batch _ _ =>
      cases h
      exact rearmOne_ready { w with rearmBatch := batch } c
    next =>
      cases h
      rfl
    next => cases h
  | _ => cases ha

/-- A step of the kernel enqueues nothing and leaves the submission queues alone. -/
theorem kernel_ready (ha : netSide a = .kernel) (h : w.step L a = some w') :
    w'.ready = w.ready ∧ w'.backend.hasPending = w.backend.hasPending := by
  cases a with
  | complete i res more buffer =>
    have hcomplete : w.kernelComplete i res more buffer = some w' := h
    unfold Net.Worker.kernelComplete at hcomplete
    split at hcomplete
    next e b he hb =>
      refine of_guard hcomplete fun _ => ?_
      obtain ⟨_, _, rfl⟩ := map_eq_some_iff.mp hb
      exact ⟨rfl, rfl⟩
    next => cases hcomplete
  | ring =>
    cases h
    exact ⟨rfl, rfl⟩
  | socket | openElsewhere | closeElsewhere =>
    refine of_guard h fun _ => ?_
    exact ⟨rfl, rfl⟩
  | _ => cases ha

/-- A ring that is set up, and no handle left to enqueue. -/
structure Clean (net : Net.Worker) : Prop where
  ready : net.ready = []
  initialized : net.backend.initialized = true

theorem step_initialized (hw : w.backend.initialized = true) (h : w.step L a = some w') :
    w'.backend.initialized = true :=
  (Net.Worker.step_changes (D := fun _ _ => True) hw (fun _ _ => trivial) h).initialized hw

theorem Clean.reclaim (h : Clean w) : Clean w.reclaimConnections := by
  obtain ⟨hready, hbackend⟩ := reclaimConnections_frame w
  exact ⟨hready.trans h.ready, by rw [hbackend]; exact h.initialized⟩

theorem enter_ready (h : w.step L .poll = some w') : w'.ready = w.ready := by
  refine of_guard h fun _ => ?_
  rfl

end Enqueues

namespace Round

variable {L : Liburing Tag}

/-! ## Queues -/

/-- **`Enqueue` of several handles**: each goes to the queue of its class. -/
theorem foldl_enqueue (s : Round) (handles : List Nat) : handles.foldl enqueue s =
      { s with
        ready := s.ready ++ handles.filter fun h => !s.backgroundTasks.contains h
        backgroundReady := s.backgroundReady ++
          handles.filter fun h => s.backgroundTasks.contains h } := by
  induction handles generalizing s with
  | nil => simp
  | cons h handles ih =>
    rw [foldl_cons, ih]
    by_cases hbg : s.backgroundTasks.contains h = true
    · simp only [enqueue, List.filter_cons, hbg, Bool.not_true, Bool.false_eq_true,
        if_false, if_true, append_assoc, List.singleton_append]
    have hfg : s.backgroundTasks.contains h = false := by simpa using hbg
    simp only [enqueue, hfg, List.filter_cons, Bool.not_false, Bool.false_eq_true,
      if_false, if_true, append_assoc, List.singleton_append]

/-- The queues stay empty exactly when nothing is enqueued. -/
theorem filters_nil (p : Nat → Bool) (l : List Nat) :
    l.filter (fun h => !p h) = [] ∧ l.filter p = [] ↔ l = [] := by
  rw [and_comm, ← List.append_eq_nil_iff, ← List.length_eq_zero_iff,
    (List.filter_append_perm p l).length_eq, List.length_eq_zero_iff]

/-- With nothing to enqueue, the connection layer is just replaced. -/
theorem withNet_of_nil (s : Round) {net : Net.Worker} (h : net.ready = []) :
    s.withNet net = { s with net := net } := by
  unfold withNet
  rw [h]
  show { s with net := { net with ready := [] } } = _
  rw [← h]

theorem withNet_frame (s : Round) (net : Net.Worker) :
    (s.withNet net).net = { net with ready := [] } ∧ (s.withNet net).didWork = s.didWork ∧
      (s.withNet net).pc = s.pc ∧ (s.withNet net).storage = s.storage := by
  unfold withNet
  rw [foldl_enqueue]
  exact ⟨rfl, rfl, rfl, rfl⟩

/-! ## The invariant -/

/-- What is queued while nothing has been found: exactly what the sweep enqueued. -/
structure Held (s : Round) : Prop where
  nextReady : s.nextReady = []
  foregroundRemoteWork : s.foregroundRemoteWork = []
  nextBackgroundReady : s.nextBackgroundReady = []
  backgroundRemoteWork : s.backgroundRemoteWork = []
  swept : s.ready = [] ∧ s.backgroundReady = [] ↔ s.swept = []

end Round

/-- From the test of `NeedsPolling` to the wait. -/
def RoundPc.parking : RoundPc → Bool
  | .sweep .. | .drain .park | .park | .wait | .poll .park | .packets .park | .sockets .park
  | .recheck | .blocked => true
  | _ => false

/-- Where the round only comes with nothing found. -/
def RoundPc.calm : RoundPc → Bool
  | .busy _ | .needsPolling | .sweep .. | .park | .wait | .blocked => true
  | _ => false

/-- Neither of the two, and not the application's code. -/
def RoundPc.plain : RoundPc → Bool
  | .user _ => false
  | pc => !pc.parking && !pc.calm

/-- Where the application's code returns to. -/
def RoundPc.returns : RoundPc → Bool
  | .user _ => false
  | pc => !pc.calm

/-- Where something found may lead. -/
def RoundPc.working : RoundPc → Bool
  | .user back => back.returns
  | pc => !pc.calm

variable {pc : RoundPc}

theorem RoundPc.plain_spec (h : pc.plain = true) :
    pc.parking = false ∧ pc.calm = false ∧ pc.working = true := by
  cases pc with
  | user back => cases h
  | _ =>
    simp only [plain, and_eq_true, Bool.not_eq_true'] at h
    exact ⟨h.1, h.2, by simp only [working, h.2, Bool.not_false]⟩

theorem RoundPc.returns.working (h : pc.returns = true) : pc.working = true := by
  cases pc with
  | user back => cases h
  | _ => exact h

namespace Round

/-- The completions that `QueueCompletion` keeps for the next `Poll` of the DPDK backend. -/
def dpdkCompletions (s : Round) : Nat := (s.dpdk.map DpdkNet.completions).getD 0

/-- What holds of a round that has found no work so far. -/
structure Inv (s : Round) : Prop where
  taken : Clean s.net
  user : ∀ back, s.pc = .user back → s.didWork = true ∧ back.returns = true
  held : s.didWork = false → s.Held
  storage : s.pc.parking = true → s.didWork = false → s.storage = 0
  calm : s.pc.calm = true → s.didWork = false
  blocked : s.pc = .blocked → s.net.backend.hasPending = false ∧ s.dpdkCompletions = 0

variable {s : Round}

/-- A step that found something. -/
theorem Inv.work (hnet : Clean s.net) (hwork : s.didWork = true)
    (hpc : s.pc.working = true) : Inv s := by
  have hcalm : s.pc.calm = false := by
    cases hs : s.pc with
    | user back => rfl
    | _ => simpa [hs, RoundPc.working] using hpc
  refine ⟨hnet, ?_, ?_, ?_, ?_, ?_⟩
  · intro back hb
    rw [hb] at hpc
    exact ⟨hwork, hpc⟩
  · intro hw
    rw [hwork] at hw
    cases hw
  · intro _ hw
    rw [hwork] at hw
    cases hw
  · intro hc
    rw [hcalm] at hc
    cases hc
  · intro hb
    rw [hb] at hcalm
    cases hcalm

open Round.Inv (work)

/-- The scheduling queues, with the sweep's record. -/
def queues (s : Round) :=
  (s.ready, s.nextReady, s.foregroundRemoteWork, s.backgroundReady, s.nextBackgroundReady,
    s.backgroundRemoteWork, s.swept)

variable {s' : Round}

theorem Held.congr (h : Held s) (hq : s'.queues = s.queues) : Held s' := by
  simp only [queues, Prod.mk.injEq] at hq
  obtain ⟨hready, hnext, hfore, hback, hnextBack, hbackRemote, hswept⟩ := hq
  exact ⟨hnext ▸ h.nextReady, hfore ▸ h.foregroundRemoteWork, hnextBack ▸ h.nextBackgroundReady,
    hbackRemote ▸ h.backgroundRemoteWork, by rw [hready, hback, hswept]; exact h.swept⟩

/-- A step that leaves the queues and storage alone. -/
theorem Inv.keep (h : Inv s) (hnet : Clean s'.net)
    (hq : s'.queues = s.queues) (hstorage : s'.storage = s.storage)
    (hwork : s'.didWork = s.didWork) (huser : ∀ back, s'.pc ≠ .user back)
    (hpark : s'.pc.parking = true → s.pc.parking = true)
    (hcalm : s'.pc.calm = true → s.didWork = false) (hblocked : s'.pc ≠ .blocked) :
    Inv s' where
  taken := hnet
  user back hb := absurd hb (huser back)
  held hw := (h.held (hwork ▸ hw)).congr hq
  storage hp hw := hstorage.trans (h.storage (hpark hp) (hwork ▸ hw))
  calm hc := hwork.trans (hcalm hc)
  blocked hb := absurd hb hblocked

/-- A step that leaves the queues alone, away from the wait. -/
theorem Inv.plain (h : Inv s) (hnet : Clean s'.net)
    (hq : s'.queues = s.queues) (hwork : s'.didWork = s.didWork) (hpc : s'.pc.plain = true) :
    Inv s' := by
  obtain ⟨hparking, hcalm, _⟩ := RoundPc.plain_spec hpc
  refine ⟨hnet, ?_, fun hw => (h.held (hwork ▸ hw)).congr hq, ?_, ?_, ?_⟩
  · intro back hb
    rw [hb] at hpc
    cases hpc
  · intro hp
    rw [hparking] at hp
    cases hp
  · intro hc
    rw [hcalm] at hc
    cases hc
  · intro hb
    rw [hb] at hpc
    cases hpc

/-! ## Stages -/

/-- The application may do anything, but the flag is up and the connection layer's handles are
    taken. -/
theorem appStep_frame {a : AppStep} (h : Inv s) (hs : s.appStep L a = some s') :
    Clean s'.net ∧ s'.didWork = s.didWork ∧ s'.pc = s.pc := by
  cases a with
  | enqueue handle =>
    cases hs
    unfold enqueue
    split <;> exact ⟨h.taken, rfl, rfl⟩
  | enqueueNext handle =>
    cases hs
    unfold enqueueNext
    split <;> exact ⟨h.taken, rfl, rfl⟩
  | registerBackground | submitStorage =>
    cases hs
    exact ⟨h.taken, rfl, rfl⟩
  | net a =>
    obtain ⟨_, hnet⟩ := ite_none_right_eq_some.mp hs
    obtain ⟨net, hstep, rfl⟩ := map_eq_some_iff.mp hnet
    obtain ⟨hn, hw, hpc, _⟩ := withNet_frame s net
    have hinit := step_initialized h.taken.initialized hstep
    exact ⟨by rw [hn]; exact ⟨rfl, hinit⟩, hw, hpc⟩
  | cancelDpdk c conn =>
    obtain ⟨d, _, rfl⟩ := map_eq_some_iff.mp hs
    rw [foldl_enqueue]
    exact ⟨h.taken, rfl, rfl⟩
  | setDpdk | readDpdk | queueCompletion | transmit =>
    obtain ⟨d, _, rfl⟩ := map_eq_some_iff.mp hs
    exact ⟨h.taken, rfl, rfl⟩

theorem Inv.app {a : AppStep} {back : RoundPc} (h : Inv s)
    (hpc : s.pc = .user back) (hs : s.appStep L a = some s') : Inv s' := by
  obtain ⟨hnet, hwork, hpc'⟩ := appStep_frame h hs
  obtain ⟨hdid, hback⟩ := h.user back hpc
  refine work hnet (hwork.trans hdid) ?_
  rw [hpc', hpc]
  exact hback

/-- Entering `Poll` changes the phase of the ring. -/
theorem Inv.enterPoll {v : Visit} (h : Inv s)
    (hpark : (poll v).parking = true → s.pc.parking = true)
    (hs : s.enterPoll L v = some s') : Inv s' := by
  obtain ⟨net, hstep, rfl⟩ := map_eq_some_iff.mp hs
  have hready : net.ready = [] := (enter_ready hstep).trans h.taken.ready
  rw [withNet_of_nil s hready]
  exact h.keep ⟨hready, step_initialized h.taken.initialized hstep⟩ rfl rfl rfl
    (fun _ => noConfusion) hpark nofun
    noConfusion

/-- **A turn of `Poll`**: it dispatches and raises the flag, or it enqueues nothing. -/
theorem Inv.pollTurn {v : Visit} {a : Net.Worker.Action} (h : Inv s)
    (hpc : s.pc = .poll v) (hs : s.pollTurn L v a = some s') : Inv s' := by
  obtain ⟨ha, hs⟩ := ite_none_right_eq_some.mp hs
  obtain ⟨net, hstep, rfl⟩ := map_eq_some_iff.mp hs
  have hinit := step_initialized h.taken.initialized hstep
  have hnet : Clean (s.withNet net).net := by
    rw [(withNet_frame s net).1]
    exact ⟨rfl, hinit⟩
  cases hd : dispatches s.net a with
  | true =>
    have hp : processes s.net a = true := by
      cases a with
      | rearm => cases hd
      | _ => exact hd
    exact work hnet (by simp [hp]) rfl
  | false =>
    have hready : net.ready = [] := (poll_ready ha hd hstep).trans h.taken.ready
    rw [withNet_of_nil s hready]
    cases hp : processes s.net a with
    | true => exact work ⟨hready, hinit⟩ (Bool.or_true _) rfl
    | false =>
      refine h.keep ⟨hready, hinit⟩ rfl rfl (Bool.or_false _) (fun _ => noConfusion) ?_
        nofun noConfusion
      rw [hpc]
      exact id

/-- The deferred queues are empty as long as nothing was found. -/
theorem Inv.merge (h : Inv s) (hpc : pc.plain = true) : Inv { s.mergeDeferred with pc := pc } := by
  cases hwork : s.didWork with
  | true =>
    exact work h.taken hwork (RoundPc.plain_spec hpc).2.2
  | false =>
    have hheld := h.held hwork
    refine h.plain h.taken ?_ rfl hpc
    simp [queues, mergeDeferred, hheld.nextReady, hheld.nextBackgroundReady]

theorem pop_frame {k : Slice} (hs : s.pop k = some s') : s'.net = s.net := by
  unfold pop popBackground popForeground at hs
  split at hs
  all_goals
    split at hs
    · cases hs; rfl
    · split at hs <;> (cases hs; rfl)
    · cases hs; rfl
    · cases hs

/-- `Flush` touches the ring. -/
theorem flush_clean (h : Clean s.net) (peers : List Int) (count : Nat) (rc : Int) :
    Clean (s.flush L peers count rc).net := by
  have hwakes : ∀ (peers : List Int) (b : Backend Tag), b.initialized = true →
      (peers.foldl (fun b fd => (b.wakeRemote L fd).2) b).initialized = true := by
    intro peers
    induction peers with
    | nil => intro b hb; exact hb
    | cons fd peers ih =>
      intro b hb
      have hwake := Backend.submitRequest_inners (L := L) (A := fun _ => True)
        (r := .wakeRemote fd) b trivial
      exact ih _ (hwake.moves.initialized hb)
  have hsubmit := Backend.submit_inners (L := L) (A := fun _ => True)
    (peers.foldl (fun b fd => (b.wakeRemote L fd).2) s.net.backend) count rc
  exact ⟨h.ready, hsubmit.moves.initialized (hwakes peers _ h.initialized)⟩

theorem Inv.flushed (h : Inv s) (peers : List Int) (count : Nat) (rc : Int)
    (k : FlushAt) : Inv ((s.flush L peers count rc).flushed k) := by
  have hclean := flush_clean (L := L) h.taken peers count rc
  have hpc : ((s.flush L peers count rc).flushed k).pc.plain = true := by
    cases k <;>
      · dsimp only [Round.flushed]
        split <;> rfl
  cases k with
  | middle | last => exact h.plain hclean rfl rfl hpc
  | busy => exact h.plain hclean.reclaim rfl rfl hpc

/-- **The decision**: the round goes on to park only if nothing was found and nothing is left to
    submit. -/
theorem Inv.settle (h : Inv s) : Inv s.settle := by
  have hnet := h.taken.reclaim
  cases hwork : s.didWork || s.net.backend.hasPending with
  | true =>
    have hs : s.settle =
        { s with net := s.net.reclaimConnections, didWork := true, pc := .start } := by
      simp only [Round.settle, hwork, if_true]
    rw [hs]
    exact work hnet rfl rfl
  | false =>
    have hdid : s.didWork = false := (Bool.or_eq_false_iff.mp hwork).1
    have hs : s.settle = { s with
        net := s.net.reclaimConnections
        didWork := false
        pc := if s.busyPoll then .busy false else .needsPolling } := by
      simp only [Round.settle, hwork, Bool.false_eq_true, if_false]
    rw [hs]
    cases s.busyPoll <;>
      exact h.keep hnet rfl rfl hdid.symm (fun _ => noConfusion) nofun
        (fun _ => hdid) noConfusion

theorem Inv.polledStorage (h : Inv s) (v : Visit) : Inv (s.polledStorage v) := by
  cases v with
  | busy =>
    unfold Round.polledStorage
    dsimp only
    split
    next => exact h.merge rfl
    next hwork =>
      exact h.keep h.taken rfl rfl rfl (fun _ => noConfusion) nofun
        (fun _ => by simpa using hwork) noConfusion
  | _ => exact h.merge rfl

/-! ## The sweep -/

/-- What the sweep enqueues it also records. -/
theorem Inv.enqueueSwept (h : Inv s) {readers : List Nat}
    (hnow : s.pc.parking = true) (hdid : s.didWork = false) (hnet : Clean s'.net)
    (hstorage : s'.storage = s.storage)
    (hwork : s'.didWork = s.didWork) (hpc : ∃ now order, s'.pc = .sweep now order)
    (hq : s'.queues = (s.ready ++ readers.filter fun h => !s.backgroundTasks.contains h,
      s.nextReady, s.foregroundRemoteWork,
      s.backgroundReady ++ readers.filter fun h => s.backgroundTasks.contains h,
      s.nextBackgroundReady, s.backgroundRemoteWork, s.swept ++ readers)) : Inv s' := by
  obtain ⟨now, order, hpc⟩ := hpc
  refine ⟨hnet, ?_, ?_, ?_, fun _ => hwork.trans hdid, ?_⟩
  · intro back hb
    rw [hpc] at hb
    cases hb
  · intro hw
    have hheld := h.held (hwork ▸ hw)
    simp only [queues, Prod.mk.injEq] at hq
    obtain ⟨hready, hnext, hfore, hback, hnextBack, hbackRemote, hswept⟩ := hq
    refine ⟨hnext.trans hheld.nextReady, hfore.trans hheld.foregroundRemoteWork,
      hnextBack.trans hheld.nextBackgroundReady, hbackRemote.trans hheld.backgroundRemoteWork, ?_⟩
    have hfilters := filters_nil s.backgroundTasks.contains readers
    have hold := hheld.swept
    rw [hready, hback, hswept]
    simp only [List.append_eq_nil_iff]
    constructor
    · rintro ⟨⟨hr, hfr⟩, hb, hfb⟩
      exact ⟨hold.mp ⟨hr, hb⟩, hfilters.mp ⟨hfr, hfb⟩⟩
    · rintro ⟨hs, hr⟩
      obtain ⟨hfr, hfb⟩ := hfilters.mpr hr
      obtain ⟨hready', hback'⟩ := hold.mpr hs
      exact ⟨⟨hready', hfr⟩, hback', hfb⟩
  · intro _ hw
    exact hstorage.trans (h.storage hnow (hwork ▸ hw))
  · intro hb
    rw [hpc] at hb
    cases hb

/-- The reader that finishing the receive takes is the one the close would take. -/
theorem readers_once (conn : Connection) (armed : Prop) [Decidable armed] (reason : Status)
    (mode : CloseMode) :
    let finished := if armed then DpdkNet.finishRead conn else (none, conn)
    finished.1.toList ++ (finished.2.beginClose reason mode).1.toList = conn.readWaiter.toList := by
  dsimp only
  rw [beginClose_reader]
  split
  · unfold DpdkNet.finishRead Connection.takeReader
    cases conn.readWaiter <;> simp
  · simp

/-- The close of a connection on a DPDK socket enqueues its suspended reader. -/
theorem beginCloseDpdk_eq (hinit : s.net.backend.initialized = true) (c : ConnPtr)
    (reason : Status) (mode : CloseMode) (frames : Nat) (d : DpdkNet)
    (hstate : conn.state ≠ .retired) :
    ∃ backend dpdk, backend.initialized = true ∧ beginCloseDpdk L c conn reason mode frames d s =
      conn.readWaiter.toList.foldl enqueue
        { s with net := { s.net with backend := backend }, dpdk := some dpdk } := by
  unfold beginCloseDpdk
  rw [if_neg hstate]
  dsimp only
  rw [readers_once]
  refine ⟨_, _, ?_, rfl⟩
  split
  · have hcancel : Backend.Inners L (fun _ => True) s.net.backend
        (s.net.backend.submitCancelRecv L (some c) none).2 :=
      Backend.cancelByData_inners s.net.backend trivial
    exact hcancel.moves.initialized hinit
  · exact hinit

/-- **One connection of the sweep.** -/
theorem Inv.closeIdle (h : Inv s) {now : Int} {c : ConnPtr} {order : List ConnPtr}
    (hpc : s.pc = .sweep now (c :: order)) (frames : Nat) :
    Inv { s.closeIdle L now c frames with pc := .sweep now order } := by
  have hnow : s.pc.parking = true := by rw [hpc]; rfl
  have hdid : s.didWork = false := h.calm (by rw [hpc]; rfl)
  have hsame : ∀ d : Option DpdkNet,
      Inv { s with dpdk := d, swept := s.swept ++ [], pc := .sweep now order } := by
    intro d
    exact h.keep h.taken (by simp [queues]) rfl rfl (fun _ => noConfusion) (fun _ => hnow)
      (fun _ => hdid) noConfusion
  unfold Round.closeIdle
  dsimp only
  split
  next d conn _ =>
    by_cases hout : timedOut now s.net.options.idleTimeoutMs conn = true
    · by_cases hstate : conn.state = .retired
      · have hreader : timedOutReader now s.net.options.idleTimeoutMs conn = [] :=
          if_neg fun hboth => hboth.2 hstate
        rw [if_pos hout, hreader]
        unfold beginCloseDpdk
        rw [if_pos hstate]
        exact hsame _
      · have hreader : timedOutReader now s.net.options.idleTimeoutMs conn =
            conn.readWaiter.toList := if_pos ⟨hout, hstate⟩
        let reason : Status := ⟨.deadlineExceeded, "connection idle timeout"⟩
        have hstate' : ({ conn with lastError := reason } : Connection).state ≠ .retired := hstate
        obtain ⟨backend, dpdk, hinit, heq⟩ :=
          beginCloseDpdk_eq h.taken.initialized c reason .idleTimeout frames d hstate'
        rw [if_pos hout, hreader, heq, foldl_enqueue]
        exact h.enqueueSwept hnow hdid ⟨h.taken.ready, hinit⟩ rfl rfl ⟨_, _, rfl⟩ rfl
    · have hreader : timedOutReader now s.net.options.idleTimeoutMs conn = [] :=
        if_neg fun hboth => hout hboth.1
      rw [if_neg hout, hreader]
      exact hsame s.dpdk
  next =>
    have hready := closeIfIdle_ready (L := L) now s.net c
    have hinit : (closeIfIdle L now s.net c).backend.initialized = true :=
      (Net.Worker.closeIfIdle_changes (D := fun _ _ => True) h.taken.initialized now c).initialized
        h.taken.initialized
    rw [h.taken.ready, nil_append] at hready
    unfold withNet
    rw [hready, foldl_enqueue]
    exact h.enqueueSwept hnow hdid ⟨rfl, hinit⟩ rfl rfl ⟨_, _, rfl⟩ rfl

/-! ## The wait -/

/-- The wait of the kernel backend blocks only with nothing pending. -/
theorem Inv.waitKernel (h : Inv s) (hdid : s.didWork = false) (hnow : s.pc.parking = true)
    (hdone : s.dpdkCompletions = 0) : Inv s.waitKernel := by
  cases hpending : s.net.backend.hasPending with
  | true =>
    have hs : s.waitKernel = { s with pc := .start } := by
      simp only [Round.waitKernel, hpending, if_true]
    rw [hs]
    exact h.plain h.taken rfl rfl rfl
  | false =>
    have hs : s.waitKernel = { s with pc := .blocked } := by
      simp only [Round.waitKernel, hpending, Bool.false_eq_true, if_false]
    rw [hs]
    exact ⟨h.taken, nofun, fun _ => (h.held hdid).congr rfl,
      fun _ _ => h.storage hnow hdid, fun _ => hdid, fun _ => ⟨hpending, hdone⟩⟩

/-- A new ring, while the queues stay. -/
theorem Inv.ring (h : Inv s) (hpc : s.pc ≠ .blocked) {backend : Backend Tag}
    (hinit : backend.initialized = true) (dpdk : Option DpdkNet) :
    Inv { s with net := { s.net with backend := backend }, dpdk := dpdk } :=
  ⟨⟨h.taken.ready, hinit⟩, h.user, fun hw => (h.held hw).congr rfl, h.storage, h.calm,
    fun hb => absurd hb hpc⟩

theorem Inv.waitDpdk (h : Inv s) (hpc : s.pc = .wait) {enabled : Bool}
    {d : DpdkNet} (hs : s.waitDpdk L enabled d = some s') : Inv s' := by
  have hnow : s.pc.parking = true := by rw [hpc]; rfl
  have hblocked : s.pc ≠ .blocked := by rw [hpc]; exact noConfusion
  have hrequest := Backend.submitRequest_inners (L := L) (A := fun _ => True)
    (r := .poll d.notificationFd pollIn (some (.app 0))) s.net.backend trivial
  unfold Round.waitDpdk at hs
  split at hs
  · cases hs
    exact h.plain h.taken rfl rfl rfl
  split at hs
  · cases hs
    exact h.plain h.taken rfl rfl rfl
  split at hs
  · split at hs
    · cases hs
      exact h.plain h.taken rfl rfl rfl
    · split at hs
      · exact h.enterPoll (fun _ => hnow) hs
      · dsimp only at hs
        split at hs
        · have hring := h.ring hblocked (hrequest.moves.initialized h.taken.initialized)
            (some { d with notificationArmed := true })
          exact hring.enterPoll (fun _ => hnow) hs
        cases hs
        exact h.plain ⟨h.taken.ready, hrequest.moves.initialized h.taken.initialized⟩ rfl rfl
          rfl
  · exact h.enterPoll (fun _ => hnow) hs

theorem Inv.recheck (L : Liburing Tag) (h : Inv s) (hpc : s.pc = .recheck) (count : Nat) (rc : Int)
    (due : Bool) {d : DpdkNet} (hd : s.dpdk = some d) : Inv (s.recheck count rc due d) := by
  have hnow : s.pc.parking = true := by rw [hpc]; rfl
  have hblocked : s.pc ≠ .blocked := by rw [hpc]; exact noConfusion
  unfold Round.recheck
  split
  next => exact h.plain h.taken rfl rfl rfl
  rename_i hquiet
  simp only [not_or, not_eq_true, Decidable.not_not] at hquiet
  obtain ⟨hdid, -, -, hnone⟩ := hquiet
  have hdone : s.dpdkCompletions = 0 := by
    rw [dpdkCompletions, hd]
    exact hnone
  have hsubmit := Backend.submit_inners (L := L) (A := fun _ => True) s.net.backend count rc
  have hring := h.ring hblocked (hsubmit.moves.initialized h.taken.initialized) s.dpdk
  dsimp only
  split
  · refine hring.plain hring.taken rfl rfl ?_
    split <;> rfl
  split
  · exact hring.plain hring.taken rfl rfl rfl
  · exact hring.waitKernel hdid hnow hdone

/-! ## Every step -/

variable {a : Label}

theorem stepDpdk_inv (h : Inv s) (hs : s.stepDpdk a = some s') : Inv s' := by
  cases a with
  | packets | flushTx | complete =>
    simp only [stepDpdk] at hs
    split at hs
    next =>
      refine of_guard hs fun _ => ?_
      exact work h.taken rfl rfl
    next => cases hs
  | packetsDone =>
    simp only [stepDpdk] at hs
    split at hs
    next v d hpc _ =>
      obtain ⟨_, hs⟩ := ite_none_left_eq_some.mp hs
      cases hs
      refine h.keep h.taken rfl rfl rfl (fun _ => noConfusion) ?_ nofun
        noConfusion
      rw [hpc]
      cases v <;> exact id
    next => cases hs
  | finishRead c conn =>
    simp only [stepDpdk] at hs
    split at hs
    next =>
      refine of_guard hs fun _ => ?_
      rw [foldl_enqueue]
      exact work h.taken rfl rfl
    next => cases hs
  | queue | disconnect =>
    simp only [stepDpdk] at hs
    split at hs
    next =>
      cases hs
      exact work h.taken rfl rfl
    next => cases hs
  | socketsDone =>
    simp only [stepDpdk] at hs
    split at hs
    next v hpc =>
      cases hs
      refine h.keep h.taken rfl rfl rfl ?_ ?_ ?_ ?_
      · intro back
        cases v <;> exact noConfusion
      · rw [hpc]
        cases v <;> exact id
      · cases v <;> (intro hc; cases hc)
      · cases v <;> exact noConfusion
    next => cases hs
  | _ => cases hs

theorem stepPark_inv (h : Inv s) (hs : s.stepPark L a = some s') : Inv s' := by
  cases a with
  | idle now order =>
    refine of_guard hs fun hpc => ?_
    have hdid := h.calm (by rw [hpc]; rfl)
    cases hneeds : s.needsPolling with
    | true => exact h.plain h.taken rfl rfl rfl
    | false =>
      have hstorage : s.storage = 0 := by simpa [Round.needsPolling] using hneeds
      exact ⟨h.taken, nofun, fun hw => (h.held hw).congr rfl,
        fun _ _ => hstorage, fun _ => hdid, nofun⟩
  | closeIdle frames =>
    simp only [stepPark] at hs
    split at hs
    next now c order hpc =>
      cases hs
      exact h.closeIdle hpc frames
    next => cases hs
  | swept =>
    simp only [stepPark] at hs
    split at hs
    next hpc =>
      cases hs
      exact h.keep h.taken rfl rfl rfl (fun _ => noConfusion) (fun _ => by rw [hpc]; rfl)
        nofun noConfusion
    next => cases hs
  | cas ok =>
    refine of_guard hs fun hpc => ?_
    cases ok with
    | false => exact h.plain h.taken rfl rfl rfl
    | true =>
      exact h.keep h.taken rfl rfl rfl (fun _ => noConfusion) (fun _ => by rw [hpc]; rfl)
        (fun _ => h.calm (by rw [hpc]; rfl)) noConfusion
  | wait enabled =>
    obtain ⟨hpc, hs⟩ := ite_none_right_eq_some.mp hs
    cases hd : s.dpdk with
    | none =>
      rw [hd] at hs
      cases hs
      exact h.waitKernel (h.calm (by rw [hpc.1]; rfl)) (by rw [hpc.1]; rfl)
        (by rw [dpdkCompletions, hd]; rfl)
    | some d =>
      rw [hd] at hs
      exact h.waitDpdk hpc.1 hs
  | recheck count rc due =>
    simp only [stepPark] at hs
    split at hs
    next d hpc hd =>
      refine of_guard hs fun _ => ?_
      exact h.recheck L hpc count rc due hd
    next => cases hs
  | wake stopping now =>
    obtain ⟨_, hs⟩ := ite_none_right_eq_some.mp hs
    obtain ⟨net, hstep, rfl⟩ := map_eq_some_iff.mp hs
    refine work ?_ rfl rfl
    show Clean (s.withNet net).net
    have hinit := step_initialized h.taken.initialized hstep
    rw [(withNet_frame s net).1]
    exact ⟨rfl, hinit⟩
  | expire | fail =>
    refine of_guard hs fun _ => ?_
    exact h.plain h.taken rfl rfl rfl
  | _ =>
    simp only [stepPark] at hs
    exact stepDpdk_inv h hs

/-- **The start of a round** looks at the six queues. -/
theorem Inv.begin (h : Inv s) :
    Inv { s with didWork := !s.noneQueued, swept := [], pc := .drain .round } := by
  refine ⟨h.taken, nofun, ?_, nofun, nofun, nofun⟩
  intro hw
  have hnone : s.noneQueued = true := by simpa using hw
  simp only [noneQueued, and_eq_true, List.isEmpty_iff] at hnone
  obtain ⟨⟨⟨⟨⟨hready, hnext⟩, hfore⟩, hback⟩, hnextBack⟩, hbackRemote⟩ := hnone
  exact ⟨hnext, hfore, hnextBack, hbackRemote, fun _ => rfl, fun _ => ⟨hready, hback⟩⟩

theorem schedule_clean (h : Clean s.net) (m : Mail) : Clean (s.schedule m).net := by
  cases m with
  | request taskClass work => cases taskClass <;> exact h
  | reply waiter =>
    show Clean (s.enqueue waiter).net
    unfold enqueue
    split <;> exact h
  | notification => exact h

theorem step_inv (h : Inv s) (hs : s.step L a = some s') : Inv s' := by
  cases a with
  | kernel a =>
    obtain ⟨ha, hs⟩ := ite_none_right_eq_some.mp hs
    obtain ⟨net, hstep, rfl⟩ := map_eq_some_iff.mp hs
    obtain ⟨hready, hpending⟩ := kernel_ready ha hstep
    exact ⟨⟨hready.trans h.taken.ready, step_initialized h.taken.initialized hstep⟩, h.user,
      fun hw => (h.held hw).congr rfl, h.storage, h.calm,
      fun hb => ⟨hpending.trans (h.blocked hb).1, (h.blocked hb).2⟩⟩
  | lanes rx tx fabricReady =>
    obtain ⟨d, hd, rfl⟩ := map_eq_some_iff.mp hs
    refine { h with held := fun hw => (h.held hw).congr rfl, blocked := fun hb => ?_ }
    obtain ⟨hpending, hdone⟩ := h.blocked hb
    rw [dpdkCompletions, hd] at hdone
    exact ⟨hpending, hdone⟩
  | app a =>
    simp only [step] at hs
    split at hs
    next back hpc => exact h.app hpc hs
    next => cases hs
  | back =>
    simp only [step] at hs
    split at hs
    next back hpc =>
      cases hs
      exact work h.taken (h.user back hpc).1 (RoundPc.returns.working (h.user back hpc).2)
    next => cases hs
  | begin =>
    obtain ⟨_, hs⟩ := ite_none_right_eq_some.mp hs
    split at hs
    next =>
      cases hs
      exact h.plain h.taken rfl rfl rfl
    next =>
      cases hs
      exact h.begin
  | mail m =>
    simp only [step] at hs
    split at hs
    next v hpc =>
      cases hs
      refine work (schedule_clean h.taken m) rfl ?_
      split <;> rfl
    next => cases hs
  | drained =>
    simp only [step] at hs
    split at hs
    next v hpc =>
      cases v with
      | park =>
        cases hs
        cases hdid : s.didWork with
        | true => exact h.plain h.taken rfl hdid.symm rfl
        | false =>
          exact h.keep h.taken rfl rfl hdid.symm (fun _ => noConfusion)
            (fun _ => by rw [hpc]; rfl) (fun _ => hdid) noConfusion
      | _ => exact h.enterPoll (by intro hp; cases hp) hs
    next => cases hs
  | poll a =>
    simp only [step] at hs
    split at hs
    next v hpc => exact h.pollTurn hpc hs
    next => cases hs
  | polled =>
    simp only [step] at hs
    split at hs
    next v hpc =>
      refine of_guard hs fun _ => ?_
      refine h.keep h.taken rfl rfl rfl ?_ ?_ ?_ ?_
      · intro back
        split
        · exact noConfusion
        · cases v <;> exact noConfusion
      · rw [hpc]
        split <;> cases v <;> exact id
      · dsimp only
        split
        · intro hc
          cases hc
        · cases v <;> (intro hc; cases hc)
      · dsimp only
        split
        · exact noConfusion
        · cases v <;> exact noConfusion
    next => cases hs
  | prePoll =>
    obtain ⟨_, hs⟩ := ite_none_right_eq_some.mp hs
    split at hs
    next =>
      cases hs
      exact h.merge rfl
    next =>
      cases hs
      exact h.plain h.taken rfl rfl rfl
  | storageWork completed =>
    simp only [step] at hs
    split at hs
    next =>
      refine of_guard hs fun _ => ?_
      exact work h.taken rfl rfl
    next => cases hs
  | storageDone =>
    simp only [step] at hs
    split at hs
    next v _ =>
      cases hs
      exact h.polledStorage v
    next => cases hs
  | resume =>
    simp only [step] at hs
    split at hs
    next =>
      obtain ⟨s₁, hpop, rfl⟩ := map_eq_some_iff.mp hs
      exact work (by rw [pop_frame hpop]; exact h.taken) rfl rfl
    next => cases hs
  | deadline =>
    simp only [step] at hs
    split at hs
    next k _ _ =>
      refine of_guard hs fun _ => ?_
      exact h.plain h.taken rfl rfl (by cases k <;> rfl)
    next => cases hs
  | background warranted =>
    refine of_guard hs fun _ => ?_
    refine h.plain h.taken rfl rfl ?_
    split <;> rfl
  | flush peers count rc =>
    simp only [step] at hs
    split at hs
    next k _ =>
      cases hs
      exact h.flushed peers count rc k
    next => cases hs
  | settle =>
    refine of_guard hs fun _ => ?_
    exact h.settle
  | turn =>
    simp only [step] at hs
    split at hs
    next =>
      cases hs
      exact h.plain h.taken rfl rfl rfl
    next => cases hs
  | turnsOver =>
    refine of_guard hs fun hpc => ?_
    exact h.keep h.taken rfl rfl rfl (fun _ => noConfusion) nofun
      (fun _ => h.calm (by rw [hpc]; rfl)) noConfusion
  | _ =>
    simp only [step] at hs
    exact stepPark_inv h hs

theorem reachable_inv (h : (system L).Reachable s) : Inv s := by
  refine Reachable.invariant ?_ ?_ h
  · rintro s ⟨options, slots, wakeEventFd, dpdk, prePollSlice, busyPoll, rfl⟩
    exact work ⟨rfl, rfl⟩ rfl rfl
  · intro s a s' hinv hs
    exact step_inv hinv hs

/-! ## Asleep with something to do -/

/-- A worker with an idle timeout. -/
def timeoutWorker : Net.Worker :=
  Net.Worker.fresh ⟨true, 2, 64, 100, fun _ _ => Status.okStatus⟩ [Sqe.zero, Sqe.zero] 5

/-- A pass of the kernel backend's `Poll` that finds nothing. -/
def emptyPoll : List Label :=
  [.poll (.reap false 2), .poll (.deferred false 2), .poll .rearm, .polled]

end Round

end Bycorf.Runtime
