/-
  The wake poll: the poll of the worker's eventfd that `Init` arms and `HandleWakePoll` arms again.

  1. **Where it is** — `wakeKey` counts the wake polls that still owe a completion, with the
     accounts of `Completion`.  An armed flag means that there is one (`WakePolls.armed`): the poll
     is in the SQ, in the software queue, in the kernel, or its completion has not been dispatched.
  2. **What it polls** — an entry tagged as wake poll is the `POLLIN` poll of the backend's own
     descriptor (`WakePolls.polls`), wherever it waits.
  3. **What moves it** — every action but the dispatch of its completion keeps it and the flag
     (`step_wakePolls`).  The dispatch drops the flag and arms again, unless the worker stops
     (`handleWakePoll_wakePolls`).  Retiring it unsubmitted only defers its completion.
-/
import Bycorf.IoUring.Contents
import Bycorf.IoUring.Completion

namespace Bycorf.IoUring

open Lib

/-- Where the next call of `DispatchCqe` takes its completion from. -/
inductive Dispatch where
  | wait      -- the CQE that ended the wait
  | reap      -- `ReapCompletions`
  | deferred  -- `DrainPendingCompletions`
deriving DecidableEq, Repr

/-- Only `Init` and `HandleWakePoll` prepare a wake poll; every other call is ordinary. -/
def Backend.Call.ordinary {T : Type} : Backend.Call T → Bool
  | .request (.wakePoll _) | .armWakePoll => false
  | _ => true

namespace Backend

variable {T : Type} [DecidableEq T]

/-- The actions of the worker inside a round that dispatch nothing. -/
def Action.quiet (s : Backend T) : Action T → Bool
  | .call c => c.ordinary
  | .submit .. | .poll | .finish => true
  | .reap _ => s.cq.isEmpty
  | .deferred _ => s.phase.batch.isEmpty
  | .wait _ | .complete .. | .ring => false

/-- The two steps that are not the worker's: a CQE of the kernel, a `MSG_RING` of a peer. -/
def Action.ofKernel : Action T → Bool
  | .complete .. | .ring => true
  | _ => false

/-- The completion that is dispatched next. -/
def next (s : Backend T) : Dispatch → Option (Cqe T)
  | .wait => if s.phase = .idle ∧ s.hasPending = false then s.cq.head? else none
  | .reap => if s.phase = .reap then s.cq.head? else none
  | .deferred => s.phase.batch.head?.map PendingCompletion.cqe

/-- The action that dispatches it; `stopping` is what `NotifyWake` answers. -/
def dispatchAction (stopping : Bool) : Dispatch → Action T
  | .wait => .wait stopping
  | .reap => .reap stopping
  | .deferred => .deferred stopping

/-- The poll that `ArmWakePoll` prepares. -/
def wakePollSqe (L : Liburing T) (fd : Int) : Sqe T := prepare L (.request (.wakePoll fd)) Sqe.zero

/-- Is a completion of the wake poll waiting for its dispatch? -/
def wakeUndispatched (s : Backend T) : Bool :=
  (s.cq.any fun c => c.userData = .wakePoll) ||
    (s.pendingCompletions ++ s.phase.batch).any fun c => c.userData = .wakePoll

/-- Every wake poll has the one key. -/
def wakeKey : Key T Unit := fun data op =>
  if data = .wakePoll ∧ op.isSome = true then some () else none

theorem wakeKey_ignoresNop : (wakeKey : Key T Unit).IgnoresNop := by
  intro data
  simp [wakeKey]

theorem wakeKey_eq_some {data : UserData T} {op : Option Nat} (h : wakeKey data op = some ()) :
    data = .wakePoll := by
  unfold wakeKey at h
  split at h
  next hwake => exact hwake.1
  next => cases h

/-- What the wake poll needs of a backend. -/
structure WakePolls (L : Liburing T) (s : Backend T) : Prop where
  initialized : s.initialized = true
  armed : s.wakePollArmed = true → () ∈ unfinished wakeKey s
  polls : ∀ e ∈ s.unsubmitted ++ s.kernel, e.sqe.userData = .wakePoll →
    e.sqe = wakePollSqe L s.wakeEventFd

variable {L : Liburing T}

/-! ## Inner moves -/

/-- A wake poll is only accepted for the descriptor `fd`. -/
def OwnPoll (fd : Int) (sub : Submission T) : Prop :=
  sub.userData = .wakePoll → sub = .request (.wakePoll fd)

/-- What a sequence of moves keeps, the flag apart. -/
structure KeepsWake (L : Liburing T) (s s' : Backend T) : Prop where
  fd : s'.wakeEventFd = s.wakeEventFd
  initialized : s.initialized = true → s'.initialized = true
  owed : () ∈ unfinished wakeKey s → () ∈ unfinished wakeKey s'
  polls : (∀ e ∈ s.unsubmitted ++ s.kernel, e.sqe.userData = .wakePoll →
      e.sqe = wakePollSqe L s.wakeEventFd) →
    ∀ e ∈ s'.unsubmitted ++ s'.kernel, e.sqe.userData = .wakePoll →
      e.sqe = wakePollSqe L s'.wakeEventFd

theorem KeepsWake.refl (s : Backend T) : KeepsWake L s s :=
  ⟨rfl, id, id, id⟩

variable {s s' : Backend T}

theorem KeepsWake.trans {s'' : Backend T} (h : KeepsWake L s s') (h' : KeepsWake L s' s'') :
    KeepsWake L s s'' :=
  ⟨h'.fd.trans h.fd, fun hs => h'.initialized (h.initialized hs), fun hs => h'.owed (h.owed hs),
    fun hs => h'.polls (h.polls hs)⟩

/-- With the flag, the moves keep the property. -/
theorem KeepsWake.wakePolls (h : KeepsWake L s s') (hs : WakePolls L s)
    (hflag : s'.wakePollArmed = s.wakePollArmed) : WakePolls L s' :=
  ⟨h.initialized hs.initialized, fun harmed => h.owed (hs.armed (hflag ▸ harmed)), h.polls hs.polls⟩

theorem Inner.keepsWake (h : Inner L (OwnPoll s.wakeEventFd) s s') : KeepsWake L s s' := by
  have hfd := h.frame.2.2
  refine ⟨hfd, h.move.initialized, ?_, ?_⟩
  · intro howed
    rcases (h.unfinished wakeKey_ignoresNop).2 with ⟨_, heq⟩ | ⟨sub, _, _, heq⟩
    · exact heq ▸ howed
    · exact heq ▸ Multiset.mem_add.mpr (.inl howed)
  · intro hpolls e he hdata
    have hold : e ∈ s.unsubmitted ++ s.kernel → e.sqe = wakePollSqe L s'.wakeEventFd := by
      intro hmem
      rw [hfd]
      exact hpolls e hmem hdata
    rcases mem_append.mp he with hun | hker
    · rcases h.mem_unsubmitted hun with hun' | rfl | ⟨sub, hsub, rfl⟩
      · exact hold (mem_append_left _ hun')
      · cases hdata
      · have hdata' : sub.userData = .wakePoll := by simpa [entryOf] using hdata
        rw [hfd, hsub hdata']
        rfl
    rcases h.mem_kernel hker with hker' | hun'
    · exact hold (mem_append_right _ hker')
    · exact hold (mem_append_left _ hun')

theorem Inners.keepsWake {fd : Int} (h : Inners L (OwnPoll fd) s s')
    (hs : s.wakeEventFd = fd) : KeepsWake L s s' := by
  induction h with
  | refl => exact KeepsWake.refl s
  | tail _ hlast ih =>
    have hfd := ih.fd.trans hs
    exact ih.trans (Inner.keepsWake (hfd ▸ hlast))

/-! ## The flag -/

theorem beforeHandler_wakePollArmed (s : Backend T) (cqe : Cqe T) :
    (s.beforeHandler L cqe).wakePollArmed = s.wakePollArmed := by
  unfold beforeHandler retireUnsubmittedCancels
  split
  · exact (cancelUnsubmittedMatching_untouched s _ _).2
  · rfl

/-! ## Quiet actions and the kernel -/

section

omit [DecidableEq T]

theorem ofTag_ne_wakePoll (tag : Option T) : UserData.ofTag tag ≠ .wakePoll := by
  cases tag <;> simp [UserData.ofTag]

/-- Only the callback of `ArmWakePoll` stores the wake poll's tag. -/
theorem request_eq_wakePoll {r : Request T} (h : r.userData = .wakePoll) :
    ∃ fd, r = .wakePoll fd := by
  cases r with
  | wakePoll fd => exact ⟨fd, rfl⟩
  | recv | peerDisconnectPoll | wakeRemote => cases h
  | _ => exact absurd h (ofTag_ne_wakePoll _)

/-- An ordinary call accepts no wake poll. -/
theorem Call.ordinary_accepts {c : Call T} (hc : c.ordinary = true) (fd : Int)
    (sub : Submission T) (h : c.accepts s sub) : OwnPoll fd sub := by
  intro hdata
  cases c with
  | request r =>
    obtain rfl : sub = .request r := h
    obtain ⟨fd', rfl⟩ := request_eq_wakePoll hdata
    cases hc
  | submitCancel target =>
    obtain ⟨tag, _, rfl⟩ := h
    cases hdata
  | submitCancelRecv connection tag =>
    obtain ⟨c, _, rfl⟩ := h
    cases tag <;> cases hdata
  | cancelPeerDisconnect c =>
    obtain rfl : sub = _ := h
    cases hdata
  | armWakePoll => cases hc
  | cancelUnsubmittedForFd fd => exact h.elim
  | registerFixedFiles count rc => exact h.elim

end

/-- A change of phase with the same deferred completions. -/
theorem keepsWake_phase (s : Backend T) {phase : Phase T} (h : phase.batch = s.phase.batch) :
    KeepsWake L s { s with phase := phase } := by
  refine ⟨rfl, id, ?_, id⟩
  intro howed
  have heq : unfinished wakeKey { s with phase := phase } = unfinished wakeKey s := by
    simp only [unfinished, h]
  rw [heq]
  exact howed

theorem complete_keepsWake {i : Nat} {res : Int} {more : Bool}
    {buffer : Option UInt16} (h : s.complete i res more buffer = some s') :
    KeepsWake L s s' ∧ s'.wakePollArmed = s.wakePollArmed := by
  have howed : unfinished wakeKey s' = unfinished wakeKey s := unfinished_complete h
  obtain ⟨e, he, rfl⟩ := map_eq_some_iff.mp h
  refine ⟨⟨rfl, id, fun hs => howed ▸ hs, ?_⟩, rfl⟩
  intro hpolls e' he' hdata
  refine hpolls e' ?_ hdata
  rcases mem_append.mp he' with hun | hker
  · exact mem_append_left _ hun
  refine mem_append_right _ ?_
  cases more with
  | true => exact hker
  | false => exact List.mem_of_mem_eraseIdx hker

/-- **A step of the kernel** moves the poll at most into the CQ. -/
theorem kernel_wakePolls {a : Action T} (ha : a.ofKernel = true)
    (h : s.step L a = some s') : KeepsWake L s s' ∧ s'.wakePollArmed = s.wakePollArmed := by
  cases a with
  | complete i res more buffer => exact complete_keepsWake h
  | ring =>
    cases h
    refine ⟨⟨rfl, id, fun hs => ?_, id⟩, rfl⟩
    rw [unfinished_ring wakeKey_ignoresNop]
    exact hs
  | _ => cases ha

/-- **A quiet action of the worker** keeps the poll and the flag. -/
theorem quiet_wakePolls {a : Action T} (ha : a.quiet s = true)
    (h : s.step L a = some s') : KeepsWake L s s' ∧ s'.wakePollArmed = s.wakePollArmed := by
  cases a with
  | call c =>
    cases h
    exact ⟨(call_inners s (Call.ordinary_accepts ha s.wakeEventFd)).keepsWake rfl,
      (call_untouched s (by rintro rfl; cases ha)).2⟩
  | submit count rc =>
    cases h
    exact ⟨(submit_inners s count rc).keepsWake rfl, (submit_untouched s count rc).2⟩
  | poll =>
    simp only [step] at h
    split at h
    next hidle =>
      cases h
      exact ⟨keepsWake_phase s (by rw [hidle.1]; rfl), rfl⟩
    next => cases h
  | reap stopping =>
    simp only [step] at h
    split at h
    next hphase _ =>
      cases h
      refine ⟨⟨rfl, id, fun hs => ?_, id⟩, rfl⟩
      rw [unfinished_swap (by rw [hphase]; rfl)]
      exact hs
    next hcq => exact absurd (List.isEmpty_iff.mp ha) hcq
    next => cases h
  | deferred stopping =>
    simp only [step] at h
    split at h
    next hphase =>
      rw [Action.quiet, hphase] at ha
      cases ha
    next hphase =>
      cases h
      exact ⟨keepsWake_phase s (by rw [hphase]; rfl), rfl⟩
    next => cases h
  | finish =>
    simp only [step] at h
    split at h
    next hphase =>
      cases h
      have hdrain : KeepsWake L s s.drainPending := (Inner.drain).keepsWake
      have hbatch : (Phase.idle : Phase T).batch = s.drainPending.phase.batch := by
        rw [(Inner.drain (L := L) (A := OwnPoll s.wakeEventFd)).frame.2.1, hphase]
        rfl
      exact ⟨hdrain.trans (keepsWake_phase _ hbatch), (drainPending_untouched s).2⟩
    next => cases h
  | _ => cases ha

/-! ## Dispatch -/

/-- The state the handler of the completion `cqe` starts in. -/
structure Taken (L : Liburing T) (s s' : Backend T) (cqe : Cqe T) : Prop where
  fd : s'.wakeEventFd = s.wakeEventFd
  initialized : s.initialized = true → s'.initialized = true
  flag : s'.wakePollArmed = s.wakePollArmed
  owed : () ∈ unfinished wakeKey s → () ∈ unfinished wakeKey s' ∨ cqe.userData = .wakePoll
  polls : (∀ e ∈ s.unsubmitted ++ s.kernel, e.sqe.userData = .wakePoll →
      e.sqe = wakePollSqe L s.wakeEventFd) →
    ∀ e ∈ s'.unsubmitted ++ s'.kernel, e.sqe.userData = .wakePoll →
      e.sqe = wakePollSqe L s'.wakeEventFd

variable {cqe : Cqe T}

/-- A completion taken out of the accounts was owed, or is the wake poll's. -/
theorem owed_of_taken
    (heq : unfinished wakeKey s' + single (terminalKey wakeKey cqe) = unfinished wakeKey s)
    (howed : () ∈ unfinished wakeKey s) :
    () ∈ unfinished wakeKey s' ∨ cqe.userData = .wakePoll := by
  rw [← heq] at howed
  rcases Multiset.mem_add.mp howed with hrest | hcqe
  · exact .inl hrest
  refine .inr ?_
  unfold terminalKey at hcqe
  split at hcqe
  · cases hcqe
  cases hkey : wakeKey cqe.userData cqe.op with
  | none => rw [hkey] at hcqe; cases hcqe
  | some u => exact wakeKey_eq_some hkey

/-- The head of `DispatchCqe`, then the completion leaves its queue. -/
theorem startHandler_taken (hinit : s.initialized = true) {cq : List (Cqe T)} {phase : Phase T}
    (htake : ∀ t : Backend T, t.cq = s.cq → t.phase = s.phase →
      unfinished wakeKey { t with cq := cq, phase := phase, calls := s.calls ++ [cqe] } +
        single (terminalKey wakeKey cqe) = unfinished wakeKey t) :
    Taken L s (s.startHandler L cqe cq phase) cqe := by
  have hbefore : KeepsWake L s (s.beforeHandler L cqe) :=
    (beforeHandler_inners hinit cqe).keepsWake rfl
  obtain ⟨hcq, hphase, _⟩ := beforeHandler_frame s cqe
  exact ⟨hbefore.fd, hbefore.initialized, beforeHandler_wakePollArmed s cqe,
    fun howed => owed_of_taken (htake _ hcq hphase) (hbefore.owed howed), hbefore.polls⟩

/-- **One dispatch**: the completion is taken, then its handler runs. -/
theorem dispatch_spec (hinit : s.initialized = true) {d : Dispatch}
    (h : s.next d = some cqe) : ∃ s₁, Taken L s s₁ cqe ∧
      ∀ stopping, s.step L (dispatchAction stopping d) = some (s₁.handle L stopping cqe) := by
  have hreap : ∀ {s : Backend T}, s.initialized = true → s.cq.head? = some cqe →
      ∃ s₁, Taken L s s₁ cqe ∧
        ∀ stopping, s.reapOne L stopping = some (s₁.handle L stopping cqe) := by
    intro s hinit hhead
    obtain ⟨cq, hcq⟩ : ∃ cq, s.cq = cqe :: cq := by
      rcases hs : s.cq with _ | ⟨c, cq⟩
      · rw [hs] at hhead; cases hhead
      rw [hs] at hhead
      cases hhead
      exact ⟨cq, rfl⟩
    refine ⟨s.startHandler L cqe cq s.phase, startHandler_taken hinit ?_, ?_⟩
    · intro t htcq htphase
      rw [← htphase]
      exact unfinished_reap (htcq.trans hcq) _
    · intro stopping
      rw [reapOne, hcq]
  cases d with
  | wait =>
    simp only [next] at h
    split at h
    next hidle =>
      obtain ⟨s₁, htaken, hstep⟩ := hreap (s := { s with phase := .reap }) hinit h
      have hkeep : KeepsWake L s { s with phase := .reap } :=
        keepsWake_phase s (by rw [hidle.1]; rfl)
      refine ⟨s₁, { htaken with owed := ?_ }, ?_⟩
      · intro howed
        exact htaken.owed (hkeep.owed howed)
      · intro stopping
        simp only [dispatchAction, step]
        rw [if_pos hidle]
        exact hstep stopping
    next => cases h
  | reap =>
    simp only [next] at h
    split at h
    next hphase =>
      obtain ⟨s₁, htaken, hstep⟩ := hreap hinit h
      refine ⟨s₁, htaken, fun stopping => ?_⟩
      rw [← hstep stopping]
      simp only [dispatchAction, step]
      cases hcq : s.cq with
      | nil => rw [hcq] at h; cases h
      | cons c cq => rw [hphase]
    next => cases h
  | deferred =>
    obtain ⟨c, hc, rfl⟩ := map_eq_some_iff.mp h
    obtain ⟨batch, hbatch⟩ : ∃ batch, s.phase = .deferred (c :: batch) := by
      cases hphase : s.phase with
      | deferred batch =>
        rw [hphase] at hc
        cases batch with
        | nil => cases hc
        | cons c' batch =>
          cases hc
          exact ⟨batch, rfl⟩
      | _ => rw [hphase] at hc; cases hc
    refine ⟨s.startHandler L c.cqe s.cq (.deferred batch), startHandler_taken hinit ?_, ?_⟩
    · intro t htcq htphase
      rw [← htcq]
      exact unfinished_deferred (by rw [htphase, hbatch]; rfl) _
    · intro stopping
      simp only [dispatchAction, step]
      rw [hbatch]

/-- The handler of any other completion changes nothing here. -/
theorem Taken.other {s₁ : Backend T} (h : Taken L s s₁ cqe) (hs : WakePolls L s)
    (hcqe : cqe.userData ≠ .wakePoll) (stopping : Bool) :
    WakePolls L (s₁.handle L stopping cqe) ∧
      (s₁.handle L stopping cqe).wakePollArmed = s.wakePollArmed ∧
      (s₁.handle L stopping cqe).wakeEventFd = s.wakeEventFd := by
  have hhandle : s₁.handle L stopping cqe = s₁ := by
    unfold handle
    split
    next hdata => exact absurd hdata hcqe
    next => rfl
  rw [hhandle]
  refine ⟨⟨h.initialized hs.initialized, fun harmed => ?_, h.polls hs.polls⟩, h.flag, h.fd⟩
  rcases h.owed (hs.armed (h.flag ▸ harmed)) with howed | hwake
  · exact howed
  · exact absurd hwake hcqe

/-- `ArmWakePoll` of an initialised backend with a descriptor: the flag is up and a poll is owed. -/
theorem armWakePoll_wakePolls (hs : WakePolls L s) (hfd : 0 ≤ s.wakeEventFd) :
    WakePolls L (s.armWakePoll L).2 ∧ (s.armWakePoll L).2.wakePollArmed = true ∧
      (s.armWakePoll L).2.wakeEventFd = s.wakeEventFd := by
  have hkeep : KeepsWake L s (s.armWakePoll L).2 :=
    (armWakePoll_inners s fun _ => rfl).keepsWake rfl
  by_cases harmed : s.wakePollArmed = true
  · have heq : (s.armWakePoll L).2 = s := by
      rw [armWakePoll, if_pos (.inr harmed)]
    rw [heq]
    exact ⟨hs, harmed, rfl⟩
  have hcond : ¬(s.wakeEventFd < 0 ∨ s.wakePollArmed = true) := by
    rintro (hneg | harm)
    · omega
    · exact harmed harm
  have hok := (submitOrQueue_spec (L := L) hs.initialized
    (.request (.wakePoll s.wakeEventFd))).1
  have heq : (s.armWakePoll L).2 =
      { (s.submitOrQueue L (.request (.wakePoll s.wakeEventFd))).2 with
        wakePollArmed := true } := by
    rw [armWakePoll, if_neg hcond]
    dsimp only
    rw [hok]
    rfl
  have howed : () ∈ unfinished wakeKey (s.armWakePoll L).2 := by
    rw [heq]
    show () ∈ unfinished wakeKey (s.submitOrQueue L (.request (.wakePoll s.wakeEventFd))).2
    rw [unfinished_submitOrQueue hs.initialized]
    exact Multiset.mem_add.mpr (.inr (Multiset.mem_singleton_self ()))
  refine ⟨⟨hkeep.initialized hs.initialized, fun _ => howed, hkeep.polls hs.polls⟩, ?_, hkeep.fd⟩
  rw [heq]

/-- **The handler of the wake poll** arms it again, unless the worker stops. -/
theorem Taken.wake {s₁ : Backend T} (h : Taken L s s₁ cqe) (hs : WakePolls L s)
    (hfd : 0 ≤ s.wakeEventFd) (hcqe : cqe.userData = .wakePoll) (stopping : Bool) :
    WakePolls L (s₁.handle L stopping cqe) ∧
      (stopping = false → (s₁.handle L stopping cqe).wakePollArmed = true) ∧
      (s₁.handle L stopping cqe).wakeEventFd = s.wakeEventFd := by
  have hdown : WakePolls L { s₁ with wakePollArmed := false } :=
    ⟨h.initialized hs.initialized, nofun, h.polls hs.polls⟩
  have hhandle : s₁.handle L stopping cqe = s₁.handleWakePoll L stopping := by
    rw [handle, hcqe]
  rw [hhandle]
  cases stopping with
  | true => exact ⟨hdown, nofun, h.fd⟩
  | false =>
    obtain ⟨hpolls, harmed, hfd'⟩ := armWakePoll_wakePolls hdown (h.fd ▸ hfd)
    exact ⟨hpolls, fun _ => harmed, hfd'.trans h.fd⟩

/-- **With nothing left to submit or to dispatch locally**, an armed wake poll is in the kernel or
    its CQE is in the ring. -/
theorem WakePolls.placed (hs : WakePolls L s) (harmed : s.wakePollArmed = true)
    (hidle : s.phase = .idle) (hpending : s.hasPending = false) :
    (∃ e ∈ s.kernel, e.sqe = wakePollSqe L s.wakeEventFd) ∨ ∃ c ∈ s.cq, c.userData = .wakePoll := by
  have hempty : s.pendingIo = [] ∧ s.pendingCompletions = [] ∧ s.sq = [] := by
    simpa [hasPending, hs.initialized, and_assoc] using hpending
  obtain ⟨hio, hcomp, hsq⟩ := hempty
  have howed := hs.armed harmed
  simp only [unfinished, hio, hcomp, hsq, hidle, Phase.batch, carried_nil, zero_add, add_zero,
    Multiset.mem_add, mem_carried] at howed
  rcases howed with ⟨e, he, hkey⟩ | ⟨c, hc, hkey⟩
  · refine .inl ⟨e, he, hs.polls e (mem_append_right _ he) ?_⟩
    exact wakeKey_eq_some hkey
  refine .inr ⟨c, hc, ?_⟩
  unfold terminalKey at hkey
  split at hkey
  · cases hkey
  · exact wakeKey_eq_some hkey

end Backend

end Bycorf.IoUring
