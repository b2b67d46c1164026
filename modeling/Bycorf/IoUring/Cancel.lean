/-
  A cancel can only hit its own target, although tag addresses are reused.

  1. **The flag** — while an `ASYNC_CANCEL` is unsubmitted, `may_have_unsubmitted_cancels_` is set
     (`FlagCovers`): it is set with every cancel that enters a queue, and cleared only by a scan
     that found no other one.
  2. **Before the handler** — the handler of a terminal completion for a tag may free the tag, so
     `DispatchCqe` retires every unsubmitted cancel for it first (`step_noCancel`).
  3. **In the kernel** — the kernel executes a cancel when it consumes it, and it can find only
     what it consumed before.  By the FIFO order that was accepted before the cancel was requested.
-/
import Bycorf.IoUring.Completion
import Bycorf.IoUring.Fifo

namespace Bycorf.IoUring.Backend

open Lib

variable {T : Type} {L : Liburing T}

/-! ## The flag -/

/-- An unsubmitted cancel is covered by the flag. -/
def FlagCovers (s : Backend T) : Prop :=
  ∀ e ∈ s.unsubmitted, isCancel e.sqe = true → s.mayHaveUnsubmittedCancels = true

theorem isCancel_entryOf (sub : Submission T) (op : Nat)
    (h : isCancel (entryOf L sub op).sqe = true) : sub.isCancel = true := by
  obtain ⟨target, completion, rfl, _⟩ := prepare_asyncCancel L (of_decide_eq_true h)
  rfl

theorem isCancel_nopEntry : isCancel (nopEntry L).sqe = false := by
  simp [isCancel, nopEntry, Sqe.setData, Prep.opcode]

variable {s s' : Backend T}

/-- Pushing an entry: a cancel brings the flag with it. -/
theorem FlagCovers.push (hs : s.FlagCovers) (sub : Submission T)
    (hunsub : ∀ e ∈ s'.unsubmitted, e ∈ s.unsubmitted ∨ e = entryOf L sub s.nextOp)
    (hflag : s'.mayHaveUnsubmittedCancels = (s.mayHaveUnsubmittedCancels || sub.isCancel)) :
    s'.FlagCovers := by
  intro e he hcancel
  rw [hflag]
  rcases hunsub e he with hold | rfl
  · rw [hs e hold hcancel, Bool.true_or]
  · rw [isCancel_entryOf sub s.nextOp hcancel, Bool.or_true]

/-- Dropping entries keeps the flag sufficient. -/
theorem FlagCovers.mono (hs : s.FlagCovers)
    (hunsub : ∀ e ∈ s'.unsubmitted, isCancel e.sqe = true → e ∈ s.unsubmitted)
    (hflag : s'.mayHaveUnsubmittedCancels = s.mayHaveUnsubmittedCancels) : s'.FlagCovers := by
  intro e he hcancel
  rw [hflag]
  exact hs e (hunsub e he hcancel) hcancel

variable [DecidableEq T]

theorem Move.flagCovers (h : Move L s s') (hs : s.FlagCovers) :
    s'.FlagCovers := by
  cases h with
  | inner h =>
    cases h with
    | pushSq sub _ hp _ =>
      refine hs.push sub (L := L) ?_ rfl
      intro e he
      simpa [accept, unsubmitted, hp] using he
    | pushQueue sub _ =>
      refine hs.push sub (L := L) ?_ rfl
      intro e he
      simpa [accept, unsubmitted, or_assoc] using he
    | retire hit result _ =>
      refine hs.mono ?_ rfl
      intro e he hcancel
      rcases mem_retireMatching he with ⟨hold, _⟩ | rfl
      · exact hold
      rw [isCancel_nopEntry] at hcancel
      cases hcancel
    | retireCancels target =>
      -- the scan saw every cancel that is left
      intro e he hcancel
      have he' : e ∈ (s.retireMatching L (isCancelOf target) (-eNoent)).unsubmitted := he
      rcases mem_retireMatching he' with ⟨hold, hmiss⟩ | rfl
      · exact List.any_eq_true.mpr ⟨e, hold, by rw [hcancel, hmiss]; rfl⟩
      rw [isCancel_nopEntry] at hcancel
      cases hcancel
    | drain =>
      refine hs.mono ?_ ?_
      · intro e he _
        rwa [unsubmitted_drainPending] at he
      · unfold drainPending
        split <;> rfl
    | enter count =>
      refine hs.mono ?_ rfl
      intro e he _
      rcases mem_append.mp he with hsq | hp
      · exact mem_append_left _ (List.mem_of_mem_drop hsq)
      · exact mem_append_right _ hp
    | _ => exact hs
  | complete hc =>
    obtain ⟨e, _, rfl⟩ := map_eq_some_iff.mp hc
    exact hs
  | _ => exact hs

variable {s : Backend T}

theorem reachable_flagCovers (h : (system L).Reachable s) : s.FlagCovers := by
  refine reachable_invariant ?_ (fun _ _ h hm => hm.flagCovers h) h
  intro slots wakeEventFd e he
  simp [Backend.fresh, unsubmitted] at he

/-! ## Before the handler -/

/-- No unsubmitted cancel targets `target`. -/
def NoCancel (target : UserData T) (s : Backend T) : Prop :=
  ∀ e ∈ s.unsubmitted, isCancelOf target e.sqe = false

variable {cqe : Cqe T}

/-- The head of `DispatchCqe` retires the cancels of a finished operation. -/
theorem beforeHandler_noCancel (hinit : s.initialized = true)
    (hflag : s.FlagCovers) (hterminal : cqe.more = false) :
    NoCancel cqe.userData (s.beforeHandler L cqe) := by
  intro e he
  unfold beforeHandler at he
  split at he
  next =>
    rw [retireUnsubmittedCancels, cancelUnsubmittedMatching_of_initialized hinit] at he
    have he' : e ∈ (s.retireMatching L (isCancelOf cqe.userData) (-eNoent)).unsubmitted := he
    rcases mem_retireMatching he' with ⟨_, hmiss⟩ | rfl
    · exact hmiss
    · rw [isCancelOf, isCancel_nopEntry, Bool.false_and]
  next hclear =>
    -- the flag is clear, so there is no unsubmitted cancel at all
    have hnone : ¬isCancel e.sqe = true := fun hcancel => hclear ⟨hflag e he hcancel, hterminal⟩
    rw [isCancelOf, eq_false_iff.mpr hnone, Bool.false_and]

variable {target : UserData T}

theorem armWakePoll_noCancel (hs : NoCancel target s) : NoCancel target (s.armWakePoll L).2 := by
  have hsub : NoCancel target
      (s.submitOrQueue L (.request (.wakePoll s.wakeEventFd))).2 := by
    have hnew : ∀ op, isCancelOf target
        (entryOf L (.request (.wakePoll s.wakeEventFd)) op).sqe = false := by
      intro op
      simp [isCancelOf, isCancel, entryOf, prepare, Sqe.setData, Request.prep, Prep.opcode]
    cases h : s.initialized
    · rw [submitOrQueue_of_not_initialized h]
      exact hs
    intro e he
    rw [unsubmitted_submitOrQueue h, mem_append, mem_singleton] at he
    rcases he with hold | rfl
    · exact hs e hold
    · exact hnew _
  unfold armWakePoll
  split
  · exact hs
  dsimp only
  split <;> exact hsub

theorem handle_noCancel (hs : NoCancel target s)
    (stopping : Bool) (cqe : Cqe T) : NoCancel target (s.handle L stopping cqe) := by
  unfold handle
  split
  · unfold handleWakePoll
    split
    · exact hs
    · exact armWakePoll_noCancel hs
  · exact hs

section

variable (hinit : s.initialized = true) (hflag : s.FlagCovers)
include hinit hflag

/-- The state in which a handler has just been started. -/
theorem startHandler_noCancel {cqe cqe' : Cqe T} (stopping : Bool) (cq : List (Cqe T))
    (phase : Phase T)
    (hcall : ((s.startHandler L cqe cq phase).handle L stopping cqe).calls = s.calls ++ [cqe'])
    (hterminal : cqe'.more = false) :
    NoCancel cqe'.userData ((s.startHandler L cqe cq phase).handle L stopping cqe) := by
  rw [handle_calls] at hcall
  obtain rfl : cqe = cqe' := List.singleton_inj.mp (List.append_cancel_left hcall)
  have hstart : NoCancel cqe.userData (s.startHandler L cqe cq phase) :=
    beforeHandler_noCancel hinit hflag hterminal
  exact handle_noCancel hstart stopping cqe

theorem reapOne_noCancel {stopping : Bool} (hs : s.reapOne L stopping = some s')
    (hcall : s'.calls = s.calls ++ [cqe]) (hterminal : cqe.more = false) :
    NoCancel cqe.userData s' := by
  unfold reapOne at hs
  split at hs
  next => cases hs
  next first cq _ =>
    cases hs
    exact startHandler_noCancel hinit hflag stopping cq s.phase hcall hterminal

/-- **When a handler starts for a terminal completion, no cancel for its tag is left
    unsubmitted.** -/
theorem step_noCancel {a : Action T} (hs : s.step L a = some s')
    (hcall : s'.calls = s.calls ++ [cqe]) (hterminal : cqe.more = false) :
    NoCancel cqe.userData s' := by
  -- a step that starts no handler leaves the log as it was
  have hlog : s'.calls ≠ s.calls := by
    rw [hcall]
    simp
  cases a with
  | call c =>
    cases hs
    exact absurd (call_calls s c) hlog
  | submit count rc =>
    cases hs
    exact absurd (submit_untouched s count rc).1 hlog
  | complete i res more buffer =>
    obtain ⟨e, _, rfl⟩ := map_eq_some_iff.mp hs
    exact absurd rfl hlog
  | ring =>
    cases hs
    exact absurd rfl hlog
  | poll =>
    obtain ⟨_, heq⟩ := ite_none_right_eq_some.mp hs
    cases heq
    exact absurd rfl hlog
  | wait stopping =>
    obtain ⟨_, heq⟩ := ite_none_right_eq_some.mp hs
    exact reapOne_noCancel (s := { s with phase := .reap }) hinit hflag heq hcall hterminal
  | reap stopping =>
    simp only [step] at hs
    split at hs
    next =>
      cases hs
      exact absurd rfl hlog
    next => exact reapOne_noCancel hinit hflag hs hcall hterminal
    next => cases hs
  | deferred stopping =>
    simp only [step] at hs
    split at hs
    next c batch _ =>
      cases hs
      exact startHandler_noCancel hinit hflag stopping s.cq (.deferred batch) hcall hterminal
    next =>
      cases hs
      exact absurd rfl hlog
    next => cases hs
  | finish =>
    simp only [step] at hs
    split at hs
    next =>
      cases hs
      exact absurd (drainPending_untouched s).1 hlog
    next => cases hs

end

/-! ## In the kernel -/

/-- The numbers of two operations, if both have one, are in order. -/
def Earlier (e e' : Entry T) : Prop := ∀ i j, e.op = some i → e'.op = some j → i < j

/-- The history is in order: acceptances are numbered upwards, and the kernel owns only what it
    consumed. -/
structure Ordered (s : Backend T) : Prop where
  below : s.NumbersBelow
  accepted : s.accepted.Pairwise fun a b => a.1 < b.1
  kernel : ∀ e ∈ s.kernel, e ∈ s.consumed

omit [DecidableEq T] in
/-- Acceptance takes the next number. -/
theorem Ordered.accept (h : Ordered s) (sub : Submission T) :
    (s.accepted ++ [(s.nextOp, sub)]).Pairwise fun a b => a.1 < b.1 := by
  refine List.pairwise_append.mpr ⟨h.accepted, List.pairwise_singleton _ _, ?_⟩
  intro a ha b hb
  obtain rfl := mem_singleton.mp hb
  exact h.below a ha

theorem Move.ordered (h : Move L s s') (hs : Ordered s) : Ordered s' := by
  have hbelow := h.numbersBelow hs.below
  cases h with
  | inner h =>
    cases h with
    | pushSq sub _ _ _ | pushQueue sub _ => exact ⟨hbelow, hs.accept sub, hs.kernel⟩
    | drain =>
      have hfields : s.drainPending.accepted = s.accepted ∧ s.drainPending.kernel = s.kernel ∧
          s.drainPending.consumed = s.consumed := by
        unfold drainPending
        split <;> exact ⟨rfl, rfl, rfl⟩
      refine ⟨hbelow, hfields.1 ▸ hs.accepted, ?_⟩
      rw [hfields.2.1, hfields.2.2]
      exact hs.kernel
    | enter count =>
      refine ⟨hbelow, hs.accepted, ?_⟩
      intro e he
      rcases mem_append.mp he with hk | hnew
      · exact mem_append_left _ (hs.kernel e hk)
      · exact mem_append_right _ hnew
    | _ => exact ⟨hbelow, hs.accepted, hs.kernel⟩
  | @complete _ _ _ more _ hc =>
    obtain ⟨e, _, rfl⟩ := map_eq_some_iff.mp hc
    refine ⟨hbelow, hs.accepted, ?_⟩
    intro e' he'
    cases more with
    | true => exact hs.kernel e' he'
    | false => exact hs.kernel e' (List.mem_of_mem_eraseIdx he')
  | _ => exact ⟨hbelow, hs.accepted, hs.kernel⟩

section

variable {s : Backend T} (h : (system L).Reachable s)
include h

theorem reachable_ordered : Ordered s := by
  refine reachable_invariant ?_ (fun _ _ h hm => hm.ordered h) h
  intro slots wakeEventFd
  refine ⟨?_, List.Pairwise.nil, ?_⟩ <;> simp [NumbersBelow, Backend.fresh]

/-- What the kernel consumed is a part of what was accepted, in the same order. -/
theorem consumed_sublist : (live s.consumed).Sublist (s.acceptedEntries L) := by
  have horder : live s.consumed ++ live s.unsubmitted =
      (s.acceptedEntries L).filter fun e => e ∉ s.retired :=
    CancelQueue.reachable_order (reachable_asFifo h)
  exact (horder ▸ List.sublist_append_left _ _).trans List.filter_sublist

/-- **Consumption order is acceptance order.** -/
theorem consumed_earlier {pre post : List (Entry T)}
    {c e : Entry T} (hsplit : s.consumed = pre ++ c :: post) (he : e ∈ pre) : Earlier e c := by
  intro i j hi hj
  have hpair : (live s.consumed).Pairwise Earlier := by
    refine List.Pairwise.sublist (consumed_sublist h) (List.pairwise_map.mpr ?_)
    refine (reachable_ordered h).accepted.imp ?_
    intro a b hab i j hi hj
    cases hi
    cases hj
    exact hab
  rw [hsplit, live_append] at hpair
  have hlive : live (c :: post) = c :: live post := List.filter_cons_of_pos (by simp [hj])
  rw [hlive] at hpair
  exact (List.pairwise_append.mp hpair).2.2 e (mem_filter.mpr ⟨he, by simp [hi]⟩) c
    mem_cons_self i j hi hj

/-- A consumed cancel was requested through `CancelByData`, with its target. -/
theorem consumed_cancel {c : Entry T}
    (hc : c ∈ s.consumed) (hcancel : isCancelOf target c.sqe = true) :
    ∃ j completion, c.op = some j ∧ (j, Submission.cancel target completion) ∈ s.accepted := by
  obtain ⟨hop, haddr⟩ : c.sqe.opcode = .asyncCancel ∧ c.sqe.addr = .data target := by
    simpa [isCancelOf, isCancel] using hcancel
  have hsome : c.op.isSome = true := by
    refine (reachable_kindsMatch h c (mem_append_left _ hc)).mpr ?_
    rw [hop]
    exact Opcode.noConfusion
  have hmem : c ∈ s.acceptedEntries L :=
    (consumed_sublist h).subset (mem_filter.mpr ⟨hc, hsome⟩)
  obtain ⟨a, ha, rfl⟩ := mem_map.mp hmem
  obtain ⟨target', completion, hsub, haddr'⟩ := prepare_asyncCancel L hop
  obtain rfl : target' = target := Word.data.inj (haddr'.symm.trans haddr)
  exact ⟨a.1, completion, rfl, hsub ▸ ha⟩

end

/-- **A cancel can only hit its own target.**  (a) An unsubmitted cancel is covered by the flag; (b)
    when a handler starts for a terminal completion, no cancel for its tag is unsubmitted; (c) when
    the kernel consumes, and so executes, a cancel for a tag, every operation with that tag among
    those it owns or has consumed just before was accepted before the cancel. -/
theorem reachable_cancel_hits_own_target {s : Backend T} (h : (system L).Reachable s) :
    (∀ e ∈ s.unsubmitted, isCancel e.sqe = true → s.mayHaveUnsubmittedCancels = true) ∧
    (∀ a s' cqe, s.step L a = some s' → s'.calls = s.calls ++ [cqe] → cqe.more = false →
      ∀ e ∈ s'.unsubmitted, isCancelOf cqe.userData e.sqe = false) ∧
    (∀ a s' pre c post target, s.step L a = some s' →
      s'.consumed = s.consumed ++ (pre ++ c :: post) → isCancelOf target c.sqe = true →
      ∃ j completion, c.op = some j ∧ (j, Submission.cancel target completion) ∈ s'.accepted ∧
        ∀ e ∈ s.kernel ++ pre, e.sqe.userData = target → ∀ i, e.op = some i → i < j) := by
  have hflag := reachable_flagCovers h
  refine ⟨hflag, ?_, ?_⟩
  · intro a s' cqe hs hcall hterminal
    exact step_noCancel (reachable_initialized h) hflag hs hcall hterminal
  · intro a s' pre c post target hs hconsumed hcancel
    have hreach : (system L).Reachable s' := h.step hs
    have hsplit : s'.consumed = (s.consumed ++ pre) ++ c :: post := by
      rw [hconsumed, append_assoc]
    obtain ⟨j, completion, hj, hmem⟩ :=
      consumed_cancel hreach (hsplit ▸ mem_append_right _ mem_cons_self) hcancel
    refine ⟨j, completion, hj, hmem, ?_⟩
    intro e he _ i hi
    have hbefore : e ∈ s.consumed ++ pre := by
      rcases mem_append.mp he with hk | hp
      · exact mem_append_left _ ((reachable_ordered h).kernel e hk)
      · exact mem_append_right _ hp
    exact consumed_earlier hreach hsplit hbefore i j hi hj

/-- A timer whose tag is cancelled while it is already in the kernel: the cancel waits in the SQ and
    the flag is set. -/
def cancelIssuedTimer : List (Action Nat) :=
  [.call (.request (.timeout 0 (some 7))), .submit 1 1, .call (.submitCancel (some 7))]

theorem reachable_cancel_hits_own_target_demo :
    ∃ s, (system (Liburing.standard Nat)).run (Backend.fresh [Sqe.zero] 3) cancelIssuedTimer =
        some s ∧ s.unsubmitted.any (fun e => isCancel e.sqe) = true ∧
      (∀ e ∈ s.unsubmitted, isCancel e.sqe = true → s.mayHaveUnsubmittedCancels = true) := by
  exact exists_run ⟨[Sqe.zero], 3, rfl⟩ (fun h => (reachable_cancel_hits_own_target h).1)
    ⟨_, rfl, rfl⟩

end Bycorf.IoUring.Backend
