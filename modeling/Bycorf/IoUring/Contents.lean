/-
  Where the contents of the queues come from.

  An inner move accepts, retires, drains or consumes; whatever is in a queue afterwards was in one
  before, or is a `NOP` that replaced a retired entry, or is the entry of a submission just
  accepted.  The invariants about single entries and completions need no more than that, so each
  of them is proved from the membership lemmas here and never unfolds a queue.
-/
import Bycorf.IoUring.Moves

namespace Bycorf.IoUring.Backend

variable {T : Type} {L : Liburing T}

/-! ## Draining, retiring, entering -/

/-- Draining moves entries across the border between the two queues and keeps their order. -/
theorem drainLoop_order (slots : List (Sqe T)) (pending sq : List (Entry T)) :
    (drainLoop slots pending sq).2.2 ++ (drainLoop slots pending sq).2.1 = sq ++ pending := by
  induction slots generalizing pending sq with
  | nil => rfl
  | cons slot slots ih =>
    cases pending with
    | nil => rfl
    | cons e pending =>
      rw [drainLoop, ih, List.append_assoc, List.singleton_append]

theorem unsubmitted_drainPending (s : Backend T) : s.drainPending.unsubmitted = s.unsubmitted := by
  unfold drainPending
  split
  · exact drainLoop_order s.slots s.pendingIo s.sq
  · rfl

/-- Draining touches nothing but the two queues. -/
theorem drainPending_frame (s : Backend T) :
    s.drainPending.kernel = s.kernel ∧ s.drainPending.consumed = s.consumed ∧
      s.drainPending.pendingCompletions = s.pendingCompletions ∧
      s.drainPending.nextOp = s.nextOp := by
  unfold drainPending
  split <;> exact ⟨rfl, rfl, rfl, rfl⟩

variable {s : Backend T} {e : Entry T}

/-- Retiring leaves old entries and `NOP`s. -/
theorem mem_retireMatching {hit : Sqe T → Bool} {result : Int}
    (he : e ∈ (s.retireMatching L hit result).unsubmitted) :
    (e ∈ s.unsubmitted ∧ hit e.sqe = false) ∨ e = nopEntry L := by
  rcases List.mem_append.mp he with hsq | hp
  · obtain ⟨e₀, he₀, rfl⟩ := List.mem_map.mp hsq
    cases hhit : hit e₀.sqe with
    | true => exact .inr (if_pos rfl)
    | false =>
      rw [if_neg Bool.false_ne_true]
      exact .inl ⟨List.mem_append_left _ he₀, hhit⟩
  obtain ⟨hmem, hhit⟩ := List.mem_filter.mp hp
  exact .inl ⟨List.mem_append_right _ hmem, by simpa using hhit⟩

/-- What entering the kernel takes was unsubmitted. -/
theorem mem_unsubmitted_of_take {count : Nat} (he : e ∈ s.sq.take count) : e ∈ s.unsubmitted :=
  List.mem_append_left _ (List.mem_of_mem_take he)

/-! ## Inner moves -/

variable [DecidableEq T] {A : Submission T → Prop} {s' : Backend T}

section

variable (h : Inner L A s s')
include h

theorem Inner.nextOp_le : s.nextOp ≤ s'.nextOp := by
  cases h with
  | drain => exact Nat.le_of_eq (drainPending_frame s).2.2.2.symm
  | pushSq sub _ _ _ | pushQueue sub _ | completeCancel target completion _ => exact Nat.le_succ _
  | _ => exact Nat.le_refl _

theorem Inner.mem_unsubmitted (he : e ∈ s'.unsubmitted) :
    e ∈ s.unsubmitted ∨ e = nopEntry L ∨ ∃ sub, A sub ∧ e = entryOf L sub s.nextOp := by
  cases h with
  | pushSq sub hsub hp _ =>
    simp only [accept, unsubmitted, hp, List.append_nil, List.mem_append, List.mem_singleton]
      at he ⊢
    rcases he with hq | rfl
    · exact .inl hq
    · exact .inr (.inr ⟨sub, hsub, rfl⟩)
  | pushQueue sub hsub =>
    simp only [accept, unsubmitted, List.mem_append, List.mem_singleton] at he ⊢
    rcases he with hq | hq | rfl
    · exact .inl (.inl hq)
    · exact .inl (.inr hq)
    · exact .inr (.inr ⟨sub, hsub, rfl⟩)
  | retire hit result _ =>
    rcases mem_retireMatching he with ⟨hold, _⟩ | hnop
    · exact .inl hold
    · exact .inr (.inl hnop)
  | retireCancels target =>
    have hret : e ∈ (s.retireMatching L (isCancelOf target) (-eNoent)).unsubmitted := he
    rcases mem_retireMatching hret with ⟨hold, _⟩ | hnop
    · exact .inl hold
    · exact .inr (.inl hnop)
  | drain =>
    rw [unsubmitted_drainPending] at he
    exact .inl he
  | enter count =>
    rcases List.mem_append.mp he with hq | hp
    · exact .inl (List.mem_append_left _ (List.mem_of_mem_drop hq))
    · exact .inl (List.mem_append_right _ hp)
  | _ => exact .inl he

theorem Inner.mem_kernel (he : e ∈ s'.kernel) : e ∈ s.kernel ∨ e ∈ s.unsubmitted := by
  cases h with
  | drain =>
    rw [(drainPending_frame s).1] at he
    exact .inl he
  | enter count =>
    rcases List.mem_append.mp he with hk | ht
    · exact .inl hk
    · exact .inr (mem_unsubmitted_of_take ht)
  | _ => exact .inl he

/-- What the kernel has consumed after an inner move: what it had, and entries that were waiting. -/
theorem Inner.consumed : ∃ new, s'.consumed = s.consumed ++ new ∧ ∀ e ∈ new, e ∈ s.unsubmitted := by
  cases h with
  | drain => exact ⟨[], by simp [(drainPending_frame s).2.1], fun e he => by cases he⟩
  | enter count => exact ⟨s.sq.take count, rfl, fun e he => mem_unsubmitted_of_take he⟩
  | _ => exact ⟨[], (List.append_nil _).symm, fun e he => by cases he⟩

/-- A new deferred completion is that of a retired entry, or of a cancel request. -/
theorem Inner.mem_pending {p : PendingCompletion T} (hp : p ∈ s'.pendingCompletions) :
    p ∈ s.pendingCompletions ∨
      (∃ e ∈ s.unsubmitted, ∃ result, result < 0 ∧ p = ⟨e.sqe.userData, result, e.op⟩) ∨
      ∃ target completion, A (.cancel target completion) ∧ p = ⟨completion, 0, some s.nextOp⟩ := by
  have hretire : ∀ hit result, result < 0 →
      p ∈ (s.retireMatching L hit result).pendingCompletions → p ∈ s.pendingCompletions ∨
        ∃ e ∈ s.unsubmitted, ∃ result, result < 0 ∧ p = ⟨e.sqe.userData, result, e.op⟩ := by
    intro hit result hneg hmem
    rcases List.mem_append.mp hmem with hold | hnew
    · exact .inl hold
    obtain ⟨e, he, rfl⟩ := List.mem_map.mp hnew
    exact .inr ⟨e, (List.mem_filter.mp he).1, result, hneg, rfl⟩
  cases h with
  | retire hit result hneg =>
    rcases hretire hit result hneg hp with hold | hnew
    · exact .inl hold
    · exact .inr (.inl hnew)
  | retireCancels target =>
    rcases hretire (isCancelOf target) (-eNoent) (by decide) hp with hold | hnew
    · exact .inl hold
    · exact .inr (.inl hnew)
  | completeCancel target completion hsub =>
    rcases List.mem_append.mp hp with hold | hnew
    · exact .inl hold
    · exact .inr (.inr ⟨target, completion, hsub, List.mem_singleton.mp hnew⟩)
  | drain =>
    rw [(drainPending_frame s).2.2.1] at hp
    exact .inl hp
  | _ => exact .inl hp

end

end Bycorf.IoUring.Backend
