/-
  What a step of the backend can do, said once.

  Every function of the backend changes its state by a few elementary MOVES: an accepted operation
  is pushed into the SQ or the software queue, matching entries are retired, queued descriptors are
  drained into the SQ, the kernel consumes or completes, a completion is taken for dispatch.
  `step_moves` decomposes every step of a run into moves; an invariant of the backend is then
  proved by one case analysis over `Move`, here and in the layers above that embed a backend.
-/
import Mathlib.Logic.Relation
import Bycorf.IoUring.Backend

namespace Bycorf.IoUring

open Lib

/-- The deferred completions a phase still has to dispatch. -/
def Phase.batch {T : Type} : Phase T → List (PendingCompletion T)
  | .deferred batch => batch
  | _ => []

@[simp] theorem Phase.batch_deferred {T : Type} (batch : List (PendingCompletion T)) :
    (Phase.deferred batch).batch = batch := rfl

/-- The submission is a cancel request. -/
def Submission.isCancel {T : Type} : Submission T → Bool
  | .cancel .. => true
  | .request _ => false

namespace Backend

variable {T : Type} [DecidableEq T] (L : Liburing T)

/-- The entry that the accepted submission number `op` becomes, in either queue. -/
def entryOf (sub : Submission T) (op : Nat) : Entry T := ⟨prepare L sub Sqe.zero, some op⟩

/-- The moves inside a public function, `Submit` or the head of `DispatchCqe`; what they accept
    satisfies `A`. -/
inductive Inner (A : Submission T → Prop) : Backend T → Backend T → Prop where
  | pushSq {s : Backend T} (sub : Submission T) {slot : Sqe T} {slots : List (Sqe T)} :
      A sub → s.pendingIo = [] → s.slots = slot :: slots →
      Inner A s { s.accept sub with
        sq := s.sq ++ [entryOf L sub s.nextOp]
        slots := slots
        mayHaveUnsubmittedCancels := s.mayHaveUnsubmittedCancels || sub.isCancel }
  | pushQueue {s : Backend T} (sub : Submission T) :
      A sub →
      Inner A s { s.accept sub with
        pendingIo := s.pendingIo ++ [entryOf L sub s.nextOp]
        mayHaveUnsubmittedCancels := s.mayHaveUnsubmittedCancels || sub.isCancel }
  | retire {s : Backend T} (hit : Sqe T → Bool) (result : Int) :
      result < 0 → Inner A s (s.retireMatching L hit result)
  | retireCancels {s : Backend T} (target : UserData T) :
      Inner A s { s.retireMatching L (isCancelOf target) (-eNoent) with
        mayHaveUnsubmittedCancels :=
          s.unsubmitted.any fun e => isCancel e.sqe && !isCancelOf target e.sqe }
  | completeCancel {s : Backend T} (target completion : UserData T) :
      A (.cancel target completion) → Inner A s (s.completeCancel completion)
  | drain {s : Backend T} : Inner A s s.drainPending
  | enter {s : Backend T} (count : Nat) : Inner A s (s.enter count)
  | flags {s : Backend T} (armed registered : Bool) :
      Inner A s { s with wakePollArmed := armed, fixedFilesRegistered := registered }

/-- The elementary moves: an inner one, the kernel's, or the taking of a completion. -/
inductive Move : Backend T → Backend T → Prop where
  | inner {s s' : Backend T} : Inner L (fun _ => True) s s' → Move s s'
  | complete {s s' : Backend T} {i : Nat} {res : Int} {more : Bool} {buffer : Option UInt16} :
      s.complete i res more buffer = some s' → Move s s'
  | ring {s : Backend T} : Move s { s with cq := s.cq ++ [⟨.crossCoreWake, 0, false, none, none⟩] }
  | reap {s : Backend T} {cqe : Cqe T} {cq : List (Cqe T)} :
      s.cq = cqe :: cq → Move s { s with cq := cq, calls := s.calls ++ [cqe] }
  | swap {s : Backend T} :
      s.phase.batch = [] →
      Move s { s with phase := .deferred s.pendingCompletions, pendingCompletions := [] }
  | deferred {s : Backend T} {c : PendingCompletion T} {batch : List (PendingCompletion T)} :
      s.phase.batch = c :: batch →
      Move s { s with phase := .deferred batch, calls := s.calls ++ [c.cqe] }
  | phase {s : Backend T} (phase : Phase T) :
      phase.batch = s.phase.batch → Move s { s with phase := phase }

/-- Sequences of moves. -/
def Inners (A : Submission T → Prop) : Backend T → Backend T → Prop :=
  Relation.ReflTransGen (Inner L A)

/-- Any number of moves. -/
def Moves : Backend T → Backend T → Prop := Relation.ReflTransGen (Move L)

variable {L} {A : Submission T → Prop} {s s' : Backend T}

theorem Inner.inners (h : Inner L A s s') : Inners L A s s' := Relation.ReflTransGen.single h

theorem Move.moves (h : Move L s s') : Moves L s s' := Relation.ReflTransGen.single h

theorem Inners.refl (s : Backend T) : Inners L A s s := Relation.ReflTransGen.refl

variable {s'' : Backend T}

theorem Inners.trans (h : Inners L A s s') (h' : Inners L A s' s'') : Inners L A s s'' :=
  Relation.ReflTransGen.trans h h'

theorem Moves.trans (h : Moves L s s') (h' : Moves L s' s'') : Moves L s s'' :=
  Relation.ReflTransGen.trans h h'

/-- A weaker condition on what is accepted. -/
theorem Inner.mono {B : Submission T → Prop} (hAB : ∀ sub, A sub → B sub)
    (h : Inner L A s s') : Inner L B s s' := by
  cases h with
  | pushSq sub hsub hp hs => exact .pushSq sub (hAB sub hsub) hp hs
  | pushQueue sub hsub => exact .pushQueue sub (hAB sub hsub)
  | retire hit result hneg => exact .retire hit result hneg
  | retireCancels target => exact .retireCancels target
  | completeCancel target completion hsub => exact .completeCancel target completion (hAB _ hsub)
  | drain => exact .drain
  | enter count => exact .enter count
  | flags armed registered => exact .flags armed registered

theorem Inner.move (h : Inner L A s s') : Move L s s' := .inner (h.mono fun _ _ => trivial)

/-- An inner move leaves the CQ, the phase and the wake descriptor alone. -/
theorem Inner.frame (h : Inner L A s s') :
    s'.cq = s.cq ∧ s'.phase = s.phase ∧ s'.wakeEventFd = s.wakeEventFd := by
  cases h with
  | drain =>
    unfold drainPending
    split <;> exact ⟨rfl, rfl, rfl⟩
  | _ => exact ⟨rfl, rfl, rfl⟩

theorem Inners.moves (h : Inners L A s s') : Moves L s s' :=
  Relation.ReflTransGen.mono (fun _ _ hmove => Inner.move hmove) _ _ h

variable {P : Backend T → Prop}

/-- A property kept by every move is kept by a sequence of them. -/
theorem Moves.induct (hmove : ∀ s s', P s → Move L s s' → P s')
    (h : Moves L s s') (hs : P s) : P s' := by
  induction h with
  | refl => exact hs
  | tail _ hlast ih => exact hmove _ _ ih hlast

/-! ## Submission -/

section

omit [DecidableEq T]

/-- **`SubmitOrQueue`, as a whole**: an initialised backend accepts, and the new entry is the same
    on both paths. -/
theorem submitOrQueue_spec (h : s.initialized = true) (sub : Submission T) :
    (s.submitOrQueue L sub).1 = Status.okStatus ∧
      ((∃ slot slots, s.pendingIo = [] ∧ s.slots = slot :: slots ∧ (s.submitOrQueue L sub).2 =
            { s.accept sub with sq := s.sq ++ [entryOf L sub s.nextOp], slots := slots }) ∨
        (s.submitOrQueue L sub).2 =
          { s.accept sub with pendingIo := s.pendingIo ++ [entryOf L sub s.nextOp] }) := by
  unfold submitOrQueue acquireSqe queuePrepared
  rw [h]
  cases hp : s.pendingIo with
  | cons e pending => exact ⟨rfl, .inr rfl⟩
  | nil =>
    rcases hs : s.slots with _ | ⟨slot, slots⟩
    · exact ⟨rfl, .inr rfl⟩
    refine ⟨rfl, .inl ⟨slot, slots, rfl, rfl, ?_⟩⟩
    simp only [prepare_reset]
    rfl

theorem submitOrQueue_of_not_initialized (h : s.initialized = false)
    (sub : Submission T) : s.submitOrQueue L sub = (notInitialized, s) := by
  unfold submitOrQueue acquireSqe queuePrepared
  rw [h]
  cases s.pendingIo <;> rfl

/-- Both paths append to the unsubmitted entries. -/
theorem unsubmitted_submitOrQueue (h : s.initialized = true) (sub : Submission T) :
    (s.submitOrQueue L sub).2.unsubmitted = s.unsubmitted ++ [entryOf L sub s.nextOp] := by
  rcases (submitOrQueue_spec h sub).2 with ⟨slot, slots, hp, _, heq⟩ | heq
  · rw [heq]
    simp [unsubmitted, accept, hp]
  rw [heq]
  simp [unsubmitted, accept]

/-- Only the two submission queues change. -/
theorem submitOrQueue_frame (s : Backend T) (sub : Submission T) :
    (s.submitOrQueue L sub).2.cq = s.cq ∧ (s.submitOrQueue L sub).2.phase = s.phase ∧
      (s.submitOrQueue L sub).2.kernel = s.kernel ∧
      (s.submitOrQueue L sub).2.pendingCompletions = s.pendingCompletions := by
  unfold submitOrQueue queuePrepared
  split
  · exact ⟨rfl, rfl, rfl, rfl⟩
  · split <;> exact ⟨rfl, rfl, rfl, rfl⟩

end

variable {r : Request T}

theorem submitOrQueue_request_inner (h : s.initialized = true)
    (hok : A (.request r)) : Inner L A s (s.submitOrQueue L (.request r)).2 := by
  rcases (submitOrQueue_spec h (.request r)).2 with ⟨slot, slots, hp, hs, heq⟩ | heq
  · rw [heq]
    simpa [accept, Submission.isCancel] using Inner.pushSq (.request r) hok hp hs
  rw [heq]
  simpa [accept, Submission.isCancel] using Inner.pushQueue (.request r) hok

theorem submitOrQueue_request_inners (s : Backend T) (hok : A (.request r)) :
    Inners L A s (s.submitOrQueue L (.request r)).2 := by
  cases h : s.initialized with
  | false =>
    rw [submitOrQueue_of_not_initialized h]
    exact .refl s
  | true => exact (submitOrQueue_request_inner h hok).inners

variable {target completion : UserData T}

/-- The cancel of `CancelByData` enters the queue together with the flag. -/
theorem submitOrQueue_cancel_inner (h : s.initialized = true)
    (hok : A (.cancel target completion)) :
    Inner L A s { (s.submitOrQueue L (.cancel target completion)).2 with
      mayHaveUnsubmittedCancels := true } := by
  rcases (submitOrQueue_spec h (.cancel target completion)).2 with
    ⟨slot, slots, hp, hs, heq⟩ | heq
  · rw [heq]
    simpa [accept, Submission.isCancel] using Inner.pushSq (.cancel target completion) hok hp hs
  rw [heq]
  simpa [accept, Submission.isCancel] using Inner.pushQueue (.cancel target completion) hok

theorem submitRequest_inners (s : Backend T) (hok : A (.request r)) :
    Inners L A s (s.submitRequest L r).2 := by
  unfold submitRequest
  split
  · exact submitOrQueue_request_inners s hok
  · exact .refl s

theorem armWakePoll_inners (s : Backend T) (hok : A (.request (.wakePoll s.wakeEventFd))) :
    Inners L A s (s.armWakePoll L).2 := by
  unfold armWakePoll
  split
  · exact .refl s
  have hsub := submitOrQueue_request_inners (L := L) s hok
  dsimp only
  split
  · exact hsub.trans (Inner.flags true _).inners
  · exact hsub

/-! ## Cancellation -/

omit [DecidableEq T] in
theorem cancelUnsubmittedMatching_of_initialized (h : s.initialized = true)
    (hit : Sqe T → Bool) (result : Int) :
    s.cancelUnsubmittedMatching L hit result =
      (s.unsubmitted.any fun e => hit e.sqe, s.retireMatching L hit result) :=
  if_pos h

/-- **`CancelByData`, as a whole**: an initialised backend accepts the request, and either the
    target was unsubmitted and is retired here, or a cancel is queued for the kernel. -/
theorem cancelByData_spec (h : s.initialized = true) (target completion : UserData T) :
    (s.cancelByData L target completion).1 = Status.okStatus ∧
      (s.cancelByData L target completion).2 =
        (let retired := s.retireMatching L (fun sqe => sqe.userData = target) (-eCanceled)
        if s.unsubmitted.any fun e => e.sqe.userData = target then
          retired.completeCancel completion
        else
          { (retired.submitOrQueue L (.cancel target completion)).2 with
            mayHaveUnsubmittedCancels := true }) := by
  unfold cancelByData
  rw [if_neg (by simp [h]), cancelUnsubmittedMatching_of_initialized h]
  dsimp only
  split
  · exact ⟨rfl, rfl⟩
  have hinit : (s.retireMatching L (fun sqe => sqe.userData = target)
      (-eCanceled)).initialized = true := h
  rw [(submitOrQueue_spec hinit (.cancel target completion)).1]
  exact ⟨rfl, rfl⟩

theorem cancelByData_inners (s : Backend T) (hok : A (.cancel target completion)) :
    Inners L A s (s.cancelByData L target completion).2 := by
  cases h : s.initialized
  · unfold cancelByData
    rw [if_pos h]
    exact .refl s
  have hretire : Inner L A s
      (s.retireMatching L (fun sqe => sqe.userData = target) (-eCanceled)) :=
    Inner.retire _ _ (by decide)
  rw [(cancelByData_spec h target completion).2]
  split
  · exact hretire.inners.trans (Inner.completeCancel target completion hok).inners
  exact hretire.inners.trans
    (submitOrQueue_cancel_inner (s := s.retireMatching L _ _) h hok).inners

theorem cancelUnsubmittedForFd_inners (s : Backend T) (fd : Int) :
    Inners L A s (s.cancelUnsubmittedForFd L fd) := by
  unfold cancelUnsubmittedForFd cancelUnsubmittedMatching
  split
  · exact .refl s
  split
  · exact (Inner.retire _ _ (by decide)).inners
  · exact .refl s

theorem registerFixedFiles_inners (s : Backend T) (count : Nat) (rc : Int) :
    Inners L A s (s.registerFixedFiles count rc).2 := by
  unfold registerFixedFiles
  split
  · exact .refl s
  split
  · exact .refl s
  · exact (Inner.flags _ true).inners

/-- What a call can accept. -/
def Call.accepts (s : Backend T) : Call T → Submission T → Prop
  | .request r, sub => sub = .request r
  | .submitCancel target, sub =>
    ∃ tag, target = some tag ∧ sub = .cancel (.completion tag) .cancelRequest
  | .submitCancelRecv connection tag, sub =>
    ∃ c, connection = some c ∧ sub = .cancel (.recv c) (cancelTag tag)
  | .cancelPeerDisconnect c, sub => sub = .cancel (.peerDisconnect c) .peerDisconnectCancel
  | .armWakePoll, sub => sub = .request (.wakePoll s.wakeEventFd)
  | .cancelUnsubmittedForFd _, _ | .registerFixedFiles .., _ => False

theorem call_inners (s : Backend T) {c : Call T} (hok : ∀ sub, c.accepts s sub → A sub) :
    Inners L A s (s.call L c).2 := by
  cases c with
  | request r => exact submitRequest_inners s (hok _ rfl)
  | submitCancel target =>
    cases target with
    | none => exact .refl s
    | some tag => exact cancelByData_inners s (hok _ ⟨tag, rfl, rfl⟩)
  | submitCancelRecv connection tag =>
    cases connection with
    | none => exact .refl s
    | some c => exact cancelByData_inners s (hok _ ⟨c, rfl, rfl⟩)
  | cancelPeerDisconnect c => exact cancelByData_inners s (hok _ rfl)
  | cancelUnsubmittedForFd fd => exact cancelUnsubmittedForFd_inners s fd
  | armWakePoll => exact armWakePoll_inners s (hok _ rfl)
  | registerFixedFiles count rc => exact registerFixedFiles_inners s count rc

/-! ## Submitting and dispatching -/

theorem submit_inners (s : Backend T) (count : Nat) (rc : Int) :
    Inners L A s (s.submit count rc).2 := by
  unfold submit submitSlow
  split
  · exact (Inner.enter count).inners
  split
  · exact (Inner.drain.inners.trans (Inner.enter count).inners).trans Inner.drain.inners
  · exact .refl s

theorem beforeHandler_inners (h : s.initialized = true) (cqe : Cqe T) :
    Inners L A s (s.beforeHandler L cqe) := by
  unfold beforeHandler
  split
  · have hmove := Inner.retireCancels (L := L) (A := A) (s := s) cqe.userData
    rw [retireUnsubmittedCancels, cancelUnsubmittedMatching_of_initialized h, h, Bool.true_and]
    exact hmove.inners
  · exact .refl s

theorem handle_inners (s : Backend T) (hok : A (.request (.wakePoll s.wakeEventFd)))
    (stopping : Bool) (cqe : Cqe T) : Inners L A s (s.handle L stopping cqe) := by
  unfold handle
  split
  · unfold handleWakePoll
    split
    · exact (Inner.flags false _).inners
    · exact (Inner.flags false s.fixedFilesRegistered).inners.trans (armWakePoll_inners _ hok)
  · exact .refl s

/-- What runs before the handler leaves the CQ, the phase and the call log alone. -/
theorem beforeHandler_frame (s : Backend T) (cqe : Cqe T) :
    (s.beforeHandler L cqe).cq = s.cq ∧ (s.beforeHandler L cqe).phase = s.phase ∧
      (s.beforeHandler L cqe).calls = s.calls := by
  unfold beforeHandler retireUnsubmittedCancels cancelUnsubmittedMatching
  split
  · split <;> exact ⟨rfl, rfl, rfl⟩
  · exact ⟨rfl, rfl, rfl⟩

section

variable (h : s.initialized = true)
include h

theorem startHandler_reap_moves {cqe : Cqe T} {cq : List (Cqe T)} (hcq : s.cq = cqe :: cq) :
    Moves L s (s.startHandler L cqe cq s.phase) := by
  obtain ⟨hq, hp, hc⟩ := beforeHandler_frame s cqe
  have htake := Move.reap (L := L) (hq.trans hcq)
  rw [hc] at htake
  have heq : s.startHandler L cqe cq s.phase =
      { s.beforeHandler L cqe with cq := cq, calls := s.calls ++ [cqe] } := by
    rw [startHandler, ← hp]
  rw [heq]
  exact (beforeHandler_inners (A := fun _ => True) h cqe).moves.trans htake.moves

theorem startHandler_deferred_moves {c : PendingCompletion T} {batch : List (PendingCompletion T)}
    (hphase : s.phase.batch = c :: batch) :
    Moves L s (s.startHandler L c.cqe s.cq (.deferred batch)) := by
  obtain ⟨hq, hp, hc⟩ := beforeHandler_frame s c.cqe
  have htake := Move.deferred (L := L) (hp ▸ hphase)
  rw [hc] at htake
  have heq : s.startHandler L c.cqe s.cq (.deferred batch) =
      { s.beforeHandler L c.cqe with
        phase := .deferred batch, calls := s.calls ++ [c.cqe] } := by
    rw [startHandler, ← hq]
  rw [heq]
  exact (beforeHandler_inners (A := fun _ => True) h c.cqe).moves.trans htake.moves

theorem reapOne_moves {stopping : Bool} (hs : s.reapOne L stopping = some s') : Moves L s s' := by
  unfold reapOne at hs
  split at hs
  next => cases hs
  next cqe cq hcq =>
    cases hs
    exact (startHandler_reap_moves h hcq).trans
      (handle_inners (A := fun _ => True) _ trivial stopping cqe).moves

/-- **Every step is a sequence of moves.** -/
theorem step_moves {a : Action T} (hs : s.step L a = some s') : Moves L s s' := by
  cases a with
  | call c =>
    cases hs
    exact (call_inners s fun _ _ => trivial).moves
  | submit count rc =>
    cases hs
    exact (submit_inners (A := fun _ => True) s count rc).moves
  | complete i res more buffer => exact (Move.complete hs).moves
  | ring =>
    cases hs
    exact Move.ring.moves
  | poll =>
    refine of_guard hs fun hidle => ?_
    exact (Move.phase .reap (by rw [hidle.1]; rfl)).moves
  | wait stopping =>
    obtain ⟨hidle, heq⟩ := ite_none_right_eq_some.mp hs
    have hstart : Move L s { s with phase := .reap } := Move.phase .reap (by rw [hidle.1]; rfl)
    exact hstart.moves.trans (reapOne_moves h heq)
  | reap stopping =>
    simp only [step] at hs
    split at hs
    next hphase _ =>
      -- the CQ is empty: detach this round's deferred completions
      cases hs
      exact (Move.swap (by rw [hphase]; rfl)).moves
    next => exact reapOne_moves h hs
    next => cases hs
  | deferred stopping =>
    simp only [step] at hs
    split at hs
    next c batch hphase =>
      cases hs
      have hbatch : s.phase.batch = c :: batch := by rw [hphase]; rfl
      exact (startHandler_deferred_moves h hbatch).trans
        (handle_inners (A := fun _ => True) _ trivial stopping c.cqe).moves
    next hphase =>
      cases hs
      exact (Move.phase .rearm (by rw [hphase]; rfl)).moves
    next => cases hs
  | finish =>
    simp only [step] at hs
    split at hs
    next hphase =>
      cases hs
      refine (Move.inner Inner.drain).moves.trans (Move.phase .idle ?_).moves
      simp only [drainPending]
      split <;> rw [hphase] <;> rfl
    next => cases hs

end

/-! ## Invariants -/

/-- No move shuts the backend down. -/
theorem Move.initialized (h : Move L s s') (hs : s.initialized = true) : s'.initialized = true := by
  cases h with
  | inner h =>
    cases h with
    | drain => simp [drainPending, hs]
    | _ => exact hs
  | complete hc =>
    obtain ⟨e, _, rfl⟩ := map_eq_some_iff.mp hc
    exact hs
  | _ => exact hs

theorem Moves.initialized (h : Moves L s s') (hs : s.initialized = true) : s'.initialized = true :=
  h.induct (fun _ _ h hm => hm.initialized h) hs

theorem reachable_initialized (h : (system L).Reachable s) : s.initialized = true := by
  refine Reachable.invariant (P := fun s => s.initialized = true) ?_ ?_ h
  · rintro s ⟨slots, fd, rfl⟩
    rfl
  · intro s a s' hinit hs
    exact (step_moves hinit hs).initialized hinit

/-- **The invariant rule of the backend**: what holds of a fresh ring and is kept by every move
    holds in every reachable state. -/
theorem reachable_invariant (hfresh : ∀ slots wakeEventFd, P (Backend.fresh slots wakeEventFd))
    (hmove : ∀ s s', P s → Move L s s' → P s') (h : (system L).Reachable s) :
    P s := by
  induction h with
  | init h =>
    obtain ⟨slots, fd, rfl⟩ := h
    exact hfresh slots fd
  | step hprev _ hs ih => exact (step_moves (reachable_initialized hprev) hs).induct hmove ih

end Backend

end Bycorf.IoUring
