/-
  `TcpStream::PauseRead`, over every run of a worker.

  The coroutine sets `recv_paused_`, cancels the receive, waits until it is disarmed and looks at
  the queue of received buffers.  It suspends in between, and everything else goes on.

  1. **Frames** — `Pausing` is a worker with the calls of `PauseRead` made so far; each frame is
     where its coroutine is suspended, or what it has returned.
  2. **In every run** — while a call is under way the pause flag is up, and after it returned OK no
     receive is issued: the flag is never lifted, and a paused connection is never armed.
  3. **The gap** — the coroutine looks at `state_`, `closed_` and `closing_` ONCE, at the start.  A
     connection closed while it is suspended is disarmed by the close, and `PauseRead` still returns
     OK (`close_during_pauseRead`).
  4. **Otherwise (`reachable_safeToHandOff`)** — if nothing closes a connection while a call of
     `PauseRead` on it is under way, a call that returns OK leaves an open, drained connection.
-/
import Bycorf.Net.Connect
import Bycorf.Net.Descriptors
import Bycorf.Net.Receiving

namespace Bycorf.Net

open IoUring Lib

/-! ## The coroutine -/

/-- Where a call of `PauseRead` is. -/
inductive PausePc where
  | cancelling                 -- suspended in `CancelRecvOperation`
  | yielding                   -- suspended in `Yield`
  | returned (status : Status)
deriving DecidableEq, Repr

/-- One call of `PauseRead`; `cancel` is the tag of its `CancelRecvOperation`. -/
structure PauseFrame where
  connection : ConnPtr
  cancel : Nat
  pc : PausePc
deriving DecidableEq, Repr

namespace PauseFrame

/-- The call is under way. -/
def running (frame : PauseFrame) : Bool :=
  match frame.pc with
  | .returned _ => false
  | _ => true

/-- The call has returned OK. -/
def succeeded (frame : PauseFrame) : Bool :=
  match frame.pc with
  | .returned status => status.isOk
  | _ => false

variable {frame : PauseFrame}

theorem not_running_of_succeeded (h : frame.succeeded = true) : frame.running = false := by
  unfold succeeded at h
  unfold running
  split at h
  · rfl
  · cases h

end PauseFrame

/-- A worker and the calls of `PauseRead` on its connections. -/
structure Pausing where
  worker : Worker
  frames : List PauseFrame

namespace Pausing

variable (L : Liburing Tag)

def eNoent : Int := 2

/-- `CancelRecvOperation::await_resume`, after the completion. -/
def cancelStatus (res : Int) : Status :=
  -- `-ENOENT`: the receive ended between `await_ready` and the submission
  if 0 ≤ res ∨ res = -eNoent then Status.okStatus
  else streamErrnoToStatus (-res) "recv cancel failed"

/-- The loop of `PauseRead` and what follows it. -/
def awaitDisarmed (conn : Connection) : PausePc :=
  if conn.recvArmed then .yielding
  else if conn.receivedBuffers ≠ [] then
    .returned ⟨.failedPrecondition, "cannot hand off a stream with buffered input"⟩
  else .returned Status.okStatus

/-- Where `PauseRead` first stops. -/
def startPc (c : ConnPtr) (conn : Connection) (tag : Nat) (w : Worker) : PausePc :=
  if conn.usable = false then
    .returned ⟨.failedPrecondition, "cannot pause recv on a closed stream"⟩
  else if conn.readWaiter.isSome ∨ conn.readInflight then
    .returned ⟨.failedPrecondition, "cannot pause recv while a reader is waiting"⟩
  else if conn.recvArmed then
    let submitted := (w.backend.submitCancelRecv L (some c) (some (.app tag))).1
    if submitted.isOk then .cancelling else .returned submitted
  else awaitDisarmed conn

def setFrame (k : Nat) (frame : PauseFrame) (pc : PausePc) (s : Pausing) : Pausing :=
  { s with frames := s.frames.set k { frame with pc := pc } }

/-- The coroutine goes on with its loop.  A connection that is gone has no continuation: the program
    would read freed storage. -/
def goOn (k : Nat) (frame : PauseFrame) (s : Pausing) : Option Pausing :=
  (s.worker.connections frame.connection).map fun conn =>
    s.setFrame k frame (awaitDisarmed conn)

/-- A step of the worker, or of a call of `PauseRead`. -/
inductive Label where
  | worker (a : Worker.Action)
  | pauseRead (c : ConnPtr) (tag : Nat)
  | cancelled (k : Nat) (res : Int)
  | yielded (k : Nat)

/-- The completion of the cancel request has been dispatched with this result. -/
def wasCompleted (tag : Nat) (res : Int) (w : Worker) : Bool :=
  w.backend.calls.any fun cqe => cqe.userData = .completion (.app tag) && cqe.res = res

/-- One step: of the worker, or of a call of `PauseRead`. -/
def step (s : Pausing) : Label → Option Pausing
  | .worker (.pauseRead ..) => none
  | .worker a => (s.worker.step L a).map fun w => { s with worker := w }
  | .pauseRead c tag =>
    match s.worker.connections c with
    | none => none
    | some conn =>
      if s.frames.any fun frame => frame.cancel = tag then none  -- each call has its own operation
      else
        some ⟨s.worker.pauseRead L c tag, s.frames ++ [⟨c, tag, startPc L c conn tag s.worker⟩]⟩
  | .cancelled k res =>
    match s.frames[k]? with
    | some frame =>
      if frame.pc = .cancelling ∧ wasCompleted frame.cancel res s.worker then
        if (cancelStatus res).isOk then s.goOn k frame
        else some (s.setFrame k frame (.returned (cancelStatus res)))
      else none
    | none => none
  | .yielded k =>
    match s.frames[k]? with
    | some frame => if frame.pc = .yielding then s.goOn k frame else none
    | none => none

/-- Every run of a worker on which `PauseRead` is called. -/
def system : System Pausing Label where
  init s := (Worker.system L).init s.worker ∧ s.frames = []
  step s l := s.step L l

/-! ## What a step can do -/

variable {L}

/-- A step of the worker, the start of a call, or a call that goes on. -/
inductive Move (s : Pausing) : Label → Pausing → Prop where
  | worker {a : Worker.Action} {w : Worker} :
      (∀ c tag, a ≠ .pauseRead c tag) → s.worker.step L a = some w →
      Move s (.worker a) { s with worker := w }
  | starts {c : ConnPtr} {tag : Nat} {conn : Connection} :
      s.worker.connections c = some conn →
      Move s (.pauseRead c tag)
        ⟨s.worker.pauseRead L c tag, s.frames ++ [⟨c, tag, startPc L c conn tag s.worker⟩]⟩
  | fails {l : Label} {k : Nat} {frame : PauseFrame} {status : Status} :
      s.frames[k]? = some frame → frame.running = true → status.isOk = false →
      Move s l (s.setFrame k frame (.returned status))
  | goesOn {l : Label} {k : Nat} {frame : PauseFrame} {conn : Connection} :
      s.frames[k]? = some frame → frame.running = true →
      s.worker.connections frame.connection = some conn →
      Move s l (s.setFrame k frame (awaitDisarmed conn))

variable {s s' : Pausing} {l : Label} {frame : PauseFrame}

theorem goOn_move {k : Nat} (hk : s.frames[k]? = some frame) (hrun : frame.running = true)
    (h : s.goOn k frame = some s') : Move (L := L) s l s' := by
  obtain ⟨conn, hc, rfl⟩ := map_eq_some_iff.mp h
  exact .goesOn hk hrun hc

/-- **Every step is one of the moves.** -/
theorem step_move (hs : s.step L l = some s') : Move (L := L) s l s' := by
  unfold step at hs
  split at hs
  next => cases hs
  next a hnot =>
    obtain ⟨w, hw, rfl⟩ := map_eq_some_iff.mp hs
    exact .worker hnot hw
  next c tag =>
    split at hs
    next => cases hs
    rename_i conn hc
    obtain ⟨_, heq⟩ := ite_none_left_eq_some.mp hs
    cases heq
    exact .starts hc
  next k res =>
    split at hs
    next frame hk =>
      obtain ⟨⟨hpc, _⟩, heq⟩ := ite_none_right_eq_some.mp hs
      have hrun : frame.running = true := by rw [PauseFrame.running, hpc]
      split at heq
      next => exact goOn_move hk hrun heq
      next hbad =>
        cases heq
        exact .fails hk hrun (Bool.eq_false_of_not_eq_true hbad)
    next => cases hs
  next k =>
    split at hs
    next frame hk =>
      obtain ⟨hpc, heq⟩ := ite_none_right_eq_some.mp hs
      exact goOn_move hk (by rw [PauseFrame.running, hpc]) heq
    next => cases hs

variable {ok : Pausing → Label → Prop}

/-- The worker of a run makes a run of its own. -/
theorem reachable_worker
    (h : (system L).ReachableUnder ok s) : (Worker.system L).Reachable s.worker := by
  induction h with
  | init h => exact .init h.1
  | step _ _ hs ih =>
    cases step_move hs with
    | worker _ hw => exact ih.step hw
    | @starts c tag conn hc => exact ih.step (a := .pauseRead c tag) rfl
    | fails | goesOn => exact ih

/-! ## The pause flag -/

variable {conn : Connection} {c : ConnPtr}

/-- The loop ends well on a disarmed and drained connection only. -/
theorem awaitDisarmed_succeeded {tag : Nat}
    (h : (⟨c, tag, awaitDisarmed conn⟩ : PauseFrame).succeeded = true) :
    conn.recvArmed = false ∧ conn.receivedBuffers = [] := by
  unfold awaitDisarmed at h
  split at h
  · cases h
  rename_i harmed
  split at h
  · cases h
  next hbuf => exact ⟨Bool.eq_false_of_not_eq_true harmed, not_not.mp hbuf⟩

variable {w : Worker}

theorem pauseRead_connections (hc : w.connections c = some conn) (husable : conn.usable = true)
    (hreader : ¬(conn.readWaiter.isSome = true ∨ conn.readInflight = true)) (tag : Nat) :
    (w.pauseRead L c tag).connections c = some { conn with recvPaused := true } := by
  have hguard : ¬(conn.usable = false ∨ conn.readWaiter.isSome = true ∨
      conn.readInflight = true) := by
    rintro (hno | hyes)
    · exact absurd (hno.symm.trans husable) (by decide)
    · exact hreader hyes
  unfold Worker.pauseRead
  rw [hc]
  dsimp only
  rw [if_neg hguard]
  split <;> exact Worker.setConn_self ..

/-- A call that is not refused finds an open connection, and raises the flag. -/
theorem startPc_accepted {tag : Nat} (hc : w.connections c = some conn)
    (h : (⟨c, tag, startPc L c conn tag w⟩ : PauseFrame).running = true ∨
      (⟨c, tag, startPc L c conn tag w⟩ : PauseFrame).succeeded = true) :
    conn.usable = true ∧
    (w.pauseRead L c tag).connections c = some { conn with recvPaused := true } ∧
    ((⟨c, tag, startPc L c conn tag w⟩ : PauseFrame).succeeded = true →
      conn.recvArmed = false ∧ conn.receivedBuffers = []) := by
  unfold startPc at h ⊢
  by_cases husable : conn.usable = true
  · rw [if_neg (by rw [husable]; decide)] at h ⊢
    by_cases hreader : conn.readWaiter.isSome = true ∨ conn.readInflight = true
    · rw [if_pos hreader] at h
      rcases h with h | h <;> cases h
    rw [if_neg hreader] at h ⊢
    refine ⟨husable, pauseRead_connections hc husable hreader tag, fun hok => ?_⟩
    split at hok
    next =>
      -- a cancel that could not be submitted is not a success
      dsimp only at hok
      split at hok
      · cases hok
      next hbad => exact absurd hok hbad
    next => exact awaitDisarmed_succeeded hok
  · rw [if_pos (Bool.eq_false_of_not_eq_true husable)] at h
    rcases h with h | h <;> cases h

/-- What a call of `PauseRead` can rely on in any run. -/
structure Pinned (w : Worker) (frame : PauseFrame) : Prop where
  old : frame.connection < w.nextConnectionId
  paused : frame.running = true ∨ frame.succeeded = true → ∀ conn,
    w.connections frame.connection = some conn → conn.recvPaused = true
  disarmed : frame.succeeded = true → ∀ conn,
    w.connections frame.connection = some conn → conn.recvArmed = false

/-- **Every step of the worker leaves a call what it relies on.** -/
theorem Pinned.act {w' : Worker} (h : Pinned w frame) {a : Worker.Action}
    (hact : w.Act a w') (ht : w.Table) : Pinned w' frame := by
  have hback : ∀ conn', w'.connections frame.connection = some conn' →
      ∃ conn, w.connections frame.connection = some conn ∧
        conn.Lives (w.mayClose a frame.connection) conn' := by
    intro conn' hc'
    rcases hc : w.connections frame.connection with _ | conn
    · rw [hact.absent h.old hc] at hc'
      cases hc'
    rcases hact.lives ht hc with ⟨other, hother, hlives⟩ | ⟨hgone, _⟩
    · cases hother.symm.trans hc'
      exact ⟨conn, rfl, hlives⟩
    rw [hgone] at hc'
    cases hc'
  refine ⟨Nat.lt_of_lt_of_le h.old hact.next_le, ?_, ?_⟩
  · intro hframe conn' hc'
    obtain ⟨conn, hc, hlives⟩ := hback conn' hc'
    exact hlives.paused (h.paused hframe conn hc)
  · intro hdone conn' hc'
    obtain ⟨conn, hc, hlives⟩ := hback conn' hc'
    refine Bool.eq_false_of_not_eq_true fun harmed => ?_
    rcases hlives.arms harmed with hbefore | hlifted
    · exact absurd (h.disarmed hdone conn hc) (by rw [hbefore]; decide)
    · exact absurd (h.paused (.inr hdone) conn hc) (by rw [hlifted]; decide)

/-- The frame of a call that goes on with its loop. -/
theorem Pinned.goesOn (h : Pinned w frame) (hrun : frame.running = true)
    (hc : w.connections frame.connection = some conn) :
    Pinned w { frame with pc := awaitDisarmed conn } := by
  refine ⟨h.old, fun _ => h.paused (.inl hrun), fun hok conn' hc' => ?_⟩
  cases hc.symm.trans hc'
  exact (awaitDisarmed_succeeded hok).1

/-- The frame of a call that has just been made. -/
theorem Pinned.starts (hw : w.Sound) (hc : w.connections c = some conn) (tag : Nat) :
    Pinned (w.pauseRead L c tag) ⟨c, tag, startPc L c conn tag w⟩ := by
  have hact : w.Act (.pauseRead c tag) (w.pauseRead L c tag) := Worker.pauseRead_act w c tag
  have hlt : c < w.nextConnectionId := by
    by_contra hge
    rw [hw.table.fresh c (Nat.le_of_not_lt hge)] at hc
    cases hc
  refine ⟨Nat.lt_of_lt_of_le hlt hact.next_le, fun hframe conn' hc' => ?_, fun hok conn' hc' => ?_⟩
  · obtain ⟨_, hset, _⟩ := startPc_accepted hc hframe
    cases hset.symm.trans hc'
    rfl
  · obtain ⟨_, hset, hdone⟩ := startPc_accepted hc (.inr hok)
    cases hset.symm.trans hc'
    exact (hdone hok).1

/-- The invariant of every run. -/
structure Inv (s : Pausing) : Prop where
  sound : s.worker.Sound
  pinned : ∀ frame ∈ s.frames, Pinned s.worker frame

theorem step_inv (h : s.Inv) (hs : s.step L l = some s') : s'.Inv := by
  cases step_move hs with
  | worker _ hw =>
    exact ⟨(Worker.step_sound h.sound hw).1, fun frame hmem =>
      (h.pinned frame hmem).act (Worker.step_act h.sound hw) h.sound.table⟩
  | @starts c tag conn hc =>
    have hact : s.worker.Act (.pauseRead c tag) (s.worker.pauseRead L c tag) :=
      Worker.pauseRead_act s.worker c tag
    refine ⟨(Worker.step_sound (a := .pauseRead c tag) h.sound rfl).1, ?_⟩
    intro frame hmem
    rcases mem_append.mp hmem with hold | hnew
    · exact (h.pinned frame hold).act hact h.sound.table
    rw [mem_singleton.mp hnew]
    exact Pinned.starts h.sound hc tag
  | @fails _ k frame status hk hrun hbad =>
    refine ⟨h.sound, fun other hmem => ?_⟩
    rcases List.mem_or_eq_of_mem_set hmem with hold | rfl
    · exact h.pinned other hold
    have hpinned := h.pinned frame (mem_of_getElem? hk)
    refine ⟨hpinned.old, fun _ => hpinned.paused (.inl hrun), fun hok => ?_⟩
    exact absurd (hbad.symm.trans hok) (by decide)
  | @goesOn _ k frame conn hk hrun hc =>
    refine ⟨h.sound, fun other hmem => ?_⟩
    rcases List.mem_or_eq_of_mem_set hmem with hold | rfl
    · exact h.pinned other hold
    · exact (h.pinned frame (mem_of_getElem? hk)).goesOn hrun hc

theorem reachable_inv (h : (system L).ReachableUnder ok s) : s.Inv := by
  refine h.invariant (P := Inv) ?_ fun s l s' hinv _ hs => step_inv hinv hs
  rintro s ⟨hworker, hframes⟩
  have hreach : (Worker.system L).ReachableUnder (fun _ _ => True) s.worker := .init hworker
  refine ⟨Worker.reachable_sound hreach, fun frame hmem => ?_⟩
  rw [hframes] at hmem
  cases hmem

/-! ## Safe to hand off -/

end Pausing

namespace Worker

/-- No receive operation for the connection is anywhere between its submission and the dispatch of
    its last completion. -/
structure NoRecv (w : Worker) (c : ConnPtr) : Prop where
  entries : ∀ e ∈ w.backend.unsubmitted ++ w.backend.kernel, e.sqe.userData ≠ .recv c
  cq : ∀ x ∈ w.backend.cq, x.userData ≠ .recv c
  deferred : ∀ p ∈ w.backend.pendingCompletions ++ w.backend.phase.batch, p.userData ≠ .recv c

theorem Sound.noRecv {w : Worker} (h : w.Sound) {c : ConnPtr}
    (hdisarmed : ∀ conn, w.connections c = some conn → conn.recvArmed = false) : w.NoRecv c := by
  have hno : (⟨.recv, c⟩ : Use) ∉ w.uses := by
    intro hmem
    obtain ⟨conn, hc, harmed⟩ := h.armed hmem
    exact absurd (hdisarmed conn hc) (by rw [show conn.recvArmed = true from harmed]; decide)
  have huse : ∀ data : UserData Tag, data = .recv c → useOf data = some ⟨.recv, c⟩ := by
    rintro data rfl
    rfl
  exact ⟨fun e he hdata => hno (h.entry_mem_uses he (huse _ hdata)),
    fun x hx hdata => hno (h.cqe_mem_uses hx (huse _ hdata)),
    fun p hp hdata => hno (h.pending_mem_uses hp (huse _ hdata))⟩

/-- The connection is open and owns its descriptor, has no input left, and is not receiving. -/
structure SafeToHandOff (w : Worker) (c : ConnPtr) (conn : Connection) : Prop where
  present : w.connections c = some conn
  usable : conn.usable = true
  descriptor : 0 ≤ conn.file.fd ∧ w.owner conn.file.fd = .connection c
  drained : conn.receivedBuffers = []
  noRecv : w.NoRecv c

end Worker

namespace Pausing

/-- The step closes no connection on which a call of `PauseRead` is under way. -/
def Undisturbed (s : Pausing) : Label → Prop
  | .worker a => ∀ frame ∈ s.frames, frame.running = true →
      s.worker.mayClose a frame.connection = false
  | _ => True

instance (s : Pausing) : ∀ l, Decidable (s.Undisturbed l)
  | .worker a => inferInstanceAs (Decidable (∀ frame ∈ s.frames, frame.running = true →
      s.worker.mayClose a frame.connection = false))
  | .pauseRead .. | .cancelled .. | .yielded _ => isTrue trivial

/-- The connection of a call that is under way is open. -/
def StaysOpen (s : Pausing) : Prop :=
  ∀ frame ∈ s.frames, frame.running = true →
    ∃ conn, s.worker.connections frame.connection = some conn ∧ conn.usable = true

theorem act_staysOpen {w w' : Worker} {a : Worker.Action} (hact : w.Act a w') (ht : w.Table)
    {c : ConnPtr} (hno : w.mayClose a c = false)
    (h : ∃ conn, w.connections c = some conn ∧ conn.usable = true) :
    ∃ conn, w'.connections c = some conn ∧ conn.usable = true := by
  obtain ⟨conn, hc, husable⟩ := h
  rcases hact.lives ht hc with ⟨conn', hc', hlives⟩ | ⟨_, _, hclosed⟩
  · rcases hlives.stays husable with hstill | hcloses
    · exact ⟨conn', hc', hstill⟩
    · exact absurd (hno.symm.trans hcloses) (by decide)
  · exact absurd (hclosed.symm.trans husable) (by decide)

variable {s s' : Pausing} {l : Label}

theorem step_staysOpen (hinv : s.Inv) (h : s.StaysOpen)
    (hok : s.Undisturbed l) (hs : s.step L l = some s') : s'.StaysOpen := by
  cases step_move hs with
  | @worker a w _ hw =>
    intro frame hmem hrun
    exact act_staysOpen (Worker.step_act hinv.sound hw) hinv.sound.table (hok frame hmem hrun)
      (h frame hmem hrun)
  | @starts c tag conn hc =>
    intro frame hmem hrun
    rcases mem_append.mp hmem with hold | hnew
    · exact act_staysOpen (Worker.pauseRead_act s.worker c tag) hinv.sound.table rfl
        (h frame hold hrun)
    rw [mem_singleton.mp hnew] at hrun ⊢
    obtain ⟨husable, hset, _⟩ := startPc_accepted hc (.inl hrun)
    exact ⟨_, hset, husable⟩
  | @fails _ k frame status hk hrun hbad =>
    intro other hmem hother
    rcases List.mem_or_eq_of_mem_set hmem with hold | rfl
    · exact h other hold hother
    · exact h frame (mem_of_getElem? hk) hrun
  | @goesOn _ k frame conn hk hrun hc =>
    intro other hmem hother
    rcases List.mem_or_eq_of_mem_set hmem with hold | rfl
    · exact h other hold hother
    · exact h frame (mem_of_getElem? hk) hrun

theorem reachable_staysOpen (h : (system L).ReachableUnder Undisturbed s) :
    s.Inv ∧ s.StaysOpen := by
  refine h.invariant (P := fun s => s.Inv ∧ s.StaysOpen) ?_ ?_
  · intro s hinit
    refine ⟨reachable_inv (.init hinit : (system L).ReachableUnder (fun _ _ => True) s), ?_⟩
    intro frame hmem
    rw [hinit.2] at hmem
    cases hmem
  · rintro s l s' ⟨hinv, hopen⟩ hok hs
    exact ⟨step_inv hinv hs, step_staysOpen hinv hopen hok hs⟩

/-- A call that has just returned OK: the record it looked at last. -/
theorem succeeds_record (hopen : s.StaysOpen)
    (hs : s.step L l = some s') {k : Nat} (hk : s'.frames[k]? = some frame)
    (hdone : frame.succeeded = true)
    (hnew : ∀ before, s.frames[k]? = some before → before.succeeded = false) :
    ∃ conn, s'.worker.connections frame.connection = some conn ∧ conn.usable = true ∧
      conn.receivedBuffers = [] := by
  cases step_move hs with
  | worker _ _ => exact absurd hdone (by rw [hnew frame hk]; decide)
  | @starts c tag conn hc =>
    by_cases hlt : k < s.frames.length
    · rw [List.getElem?_append_left hlt] at hk
      exact absurd hdone (by rw [hnew frame hk]; decide)
    rw [List.getElem?_append_right (Nat.le_of_not_lt hlt)] at hk
    obtain rfl : _ = frame := mem_singleton.mp (mem_of_getElem? hk) |>.symm
    obtain ⟨husable, hset, hgood⟩ := startPc_accepted hc (.inr hdone)
    exact ⟨_, hset, husable, (hgood hdone).2⟩
  | @fails _ j other status hj hrun hbad =>
    rw [setFrame, List.getElem?_set] at hk
    split at hk
    next hjk =>
      split at hk
      · cases hk
        exact absurd (hbad.symm.trans hdone) (by decide)
      · cases hk
    next => exact absurd hdone (by rw [hnew frame hk]; decide)
  | @goesOn _ j other conn hj hrun hc =>
    rw [setFrame, List.getElem?_set] at hk
    split at hk
    next hjk =>
      split at hk
      · cases hk
        obtain ⟨conn', hc', husable⟩ := hopen other (mem_of_getElem? hj) hrun
        cases hc.symm.trans hc'
        exact ⟨conn, hc, husable, (awaitDisarmed_succeeded hdone).2⟩
      · cases hk
    next => exact absurd hdone (by rw [hnew frame hk]; decide)

/-- A call that has returned stays as it is. -/
theorem step_succeeded (hs : s.step L l = some s') {k : Nat}
    (hk : s.frames[k]? = some frame) (hdone : frame.succeeded = true) :
    s'.frames[k]? = some frame := by
  have hother : ∀ {j : Nat} {running : PauseFrame} {pc : PausePc}, s.frames[j]? = some running →
      running.running = true → (s.setFrame j running pc).frames[k]? = some frame := by
    intro j running pc hj hrun
    have hne : j ≠ k := by
      rintro rfl
      cases hj.symm.trans hk
      exact absurd hrun (by rw [PauseFrame.not_running_of_succeeded hdone]; decide)
    rw [setFrame, List.getElem?_set_ne hne]
    exact hk
  cases step_move hs with
  | worker _ _ => exact hk
  | starts hc =>
    obtain ⟨hlt, _⟩ := List.getElem?_eq_some_iff.mp hk
    exact (List.getElem?_append_left hlt).trans hk
  | fails hj hrun _ | goesOn hj hrun _ => exact hother hj hrun

/-- **A successful `PauseRead` makes the socket safe to hand off**, in every run in which nothing
    closes a connection while a call of `PauseRead` on it is under way: in the state in which the
    call returns OK the connection is open, owns its descriptor, has no input queued and no receive
    anywhere, and no receive is issued for it in any continuation of the run. -/
theorem reachable_safeToHandOff {s s' : Pausing} {l : Label}
    (h : (system L).ReachableUnder Undisturbed s) (hok : s.Undisturbed l)
    (hs : s.step L l = some s') {k : Nat} {frame : PauseFrame}
    (hk : s'.frames[k]? = some frame) (hdone : frame.succeeded = true)
    (hnew : ∀ before, s.frames[k]? = some before → before.succeeded = false) :
    (∃ conn, s'.worker.SafeToHandOff frame.connection conn) ∧
    ∀ labels t, (system L).run s' labels = some t → t.worker.NoRecv frame.connection := by
  obtain ⟨hinv, hopen⟩ := reachable_staysOpen h
  have hquiet : ∀ t : Pausing, t.Inv → t.frames[k]? = some frame →
      t.worker.NoRecv frame.connection := fun t ht htk =>
    ht.sound.noRecv ((ht.pinned frame (mem_of_getElem? htk)).disarmed hdone)
  have hinv' : s'.Inv := step_inv hinv hs
  constructor
  · obtain ⟨conn, hc, husable, hdrained⟩ := succeeds_record hopen hs hk hdone hnew
    obtain ⟨_, hdesc⟩ := Worker.reachable_descriptors (reachable_worker (.step h hok hs))
    have hfd := hdesc.opened _ conn hc (Connection.usable_iff.mp husable).2.1
    exact ⟨conn, hc, husable, ⟨hfd, (hdesc.connection _ conn hc hfd).1⟩, hdrained,
      hquiet s' hinv' hk⟩
  · intro labels t hrun
    obtain ⟨ht, htk⟩ := System.run_invariant (P := fun t => t.Inv ∧ t.frames[k]? = some frame)
      (fun u l u' hu hu' => ⟨step_inv hu.1 hu', step_succeeded hu' hu.2 hdone⟩) labels
      ⟨hinv', hk⟩ hrun
    exact hquiet t ht htk

/-! ## Two runs -/

/-- A small worker on which `PauseRead` has not been called. -/
def smallPausing : Pausing := ⟨Worker.smallWorker, []⟩

/-- A connection receives, `PauseRead` is called, and its cancel request is consumed. -/
def startPause : List Label :=
  Worker.openAndReceive.map .worker ++ [.pauseRead 1 9]

/-- The kernel cancels the receive and completes the request, and both are dispatched. -/
def cancelledReceive : List Label :=
  (Worker.cancelReceive ++ Worker.pollPass 2).map .worker

theorem safeToHandOff_orderly : ∃ s s', (system (Liburing.standard Tag)).run smallPausing
        (startPause ++ cancelledReceive) = some s ∧
      s.step (Liburing.standard Tag) (.cancelled 0 0) = some s' ∧
      s'.frames = [⟨1, 9, .returned Status.okStatus⟩] ∧
      (∃ conn, s'.worker.SafeToHandOff 1 conn) ∧
      ∀ labels t, (system (Liburing.standard Tag)).run s' labels = some t → t.worker.NoRecv 1 := by
  have hfollows : (system (Liburing.standard Tag)).Follows Undisturbed smallPausing
      (startPause ++ cancelledReceive) := by
    decide +kernel
  have hrun : ((system (Liburing.standard Tag)).run smallPausing
      (startPause ++ cancelledReceive)).bind (fun s =>
        (s.step (Liburing.standard Tag) (.cancelled 0 0)).map fun s' => (s.frames, s'.frames)) =
      some ([⟨1, 9, .cancelling⟩], [⟨1, 9, .returned Status.okStatus⟩]) := by
    decide +kernel
  obtain ⟨s, hs, hstep⟩ := bind_eq_some_iff.mp hrun
  obtain ⟨s', hs', hframes⟩ := map_eq_some_iff.mp hstep
  obtain ⟨hbefore, hafter⟩ := Prod.mk.injEq .. ▸ hframes
  have hk : s'.frames[0]? = some ⟨1, 9, .returned Status.okStatus⟩ := by
    rw [hafter]
    rfl
  refine ⟨s, s', hs, hs', hafter, ?_⟩
  refine reachable_safeToHandOff (.run (.init ⟨⟨_, _, _, rfl⟩, rfl⟩) _ hfollows hs)
    (l := .cancelled 0 0) trivial hs' hk rfl ?_
  intro before hb
  rw [hbefore] at hb
  cases hb
  rfl

/-- The kernel cancels the receive for the request of `PauseRead` and has nothing left to cancel for
    the request of the close. -/
def cancelTwice : List Worker.Action :=
  [.submit 2 2, .complete 0 (-125) false none, .complete 0 0 false none,
    .complete 0 (-2) false none] ++ Worker.pollPass 3

/-- The connection is closed while the call is suspended. -/
def closedMeanwhile : List Label :=
  startPause ++ [.worker (.beginClose 1 Status.okStatus .localClose)] ++
    cancelTwice.map .worker ++ [.cancelled 0 0]

/-- **`PauseRead` returns OK on a closed connection.**  Another coroutine closes the connection
    while the cancel request is in flight: the close disarms the receive as well, and the call does
    not look at the state of the connection again.  Its descriptor number is already free. -/
theorem close_during_pauseRead :
    ∃ s conn, (system (Liburing.standard Tag)).run smallPausing closedMeanwhile = some s ∧
      s.frames = [⟨1, 9, .returned Status.okStatus⟩] ∧ s.worker.connections 1 = some conn ∧
      conn.closed = true ∧ conn.file.fd = -1 ∧ s.worker.owner 7 = .free := by
  have hrun : ((system (Liburing.standard Tag)).run smallPausing closedMeanwhile).bind (fun s =>
      (s.worker.connections 1).map fun conn =>
        (s.frames, conn.closed, conn.file.fd, s.worker.owner 7)) =
      some ([⟨1, 9, .returned Status.okStatus⟩], true, -1, .free) := by
    decide +kernel
  obtain ⟨s, hs, hrest⟩ := bind_eq_some_iff.mp hrun
  obtain ⟨conn, hc, hview⟩ := map_eq_some_iff.mp hrest
  simp only [Prod.mk.injEq] at hview
  exact ⟨s, conn, hs, hview.1, hc, hview.2.1, hview.2.2.1, hview.2.2.2⟩

end Pausing

end Bycorf.Net
