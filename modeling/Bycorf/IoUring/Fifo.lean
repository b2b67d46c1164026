/-
  The software queue is invisible: the SQ and `pending_io_` together are ONE unbounded FIFO.

  1. **Abstraction** — `asFifo` reads the abstract queue of `Lib.CancelQueue` off a backend: the
     live entries of the SQ, then those of `pending_io_`, wait; what the kernel consumed was taken;
     what `CancelUnsubmittedMatching` retired was removed.
  2. **Refinement** — every move is one operation of the abstract queue or none
     (`asFifo_move`), so every run of the backend is a run of the queue (`reachable_asFifo`).
  3. **Fields** — an entry is, on both paths, the descriptor that preparing the request in any
     slot of the ring gives (`prepare_reset`).
-/
import Bycorf.Lib.CancelQueue
import Bycorf.IoUring.Contents

namespace Bycorf.IoUring.Backend

open Lib

variable {T : Type} {L : Liburing T}

/-! ## The abstraction -/

/-- The entries that carry an operation. -/
def live (l : List (Entry T)) : List (Entry T) := l.filter fun e => e.op.isSome

@[simp] theorem live_append (l l' : List (Entry T)) : live (l ++ l') = live l ++ live l' :=
  filter_append ..

@[simp] theorem live_entryOf (sub : Submission T) (op : Nat) :
    live [entryOf L sub op] = [entryOf L sub op] := rfl

/-- Neutralised entries are no longer live. -/
theorem live_neutralise (hit : Sqe T → Bool) (l : List (Entry T)) :
    live (l.map fun e => if hit e.sqe then nopEntry L else e) =
      (live l).filter fun e => !hit e.sqe := by
  induction l with
  | nil => rfl
  | cons e l ih =>
    unfold live at ih ⊢
    rw [map_cons, List.filter_cons, ih, List.filter_cons]
    cases hhit : hit e.sqe with
    | true => cases e.op <;> simp [nopEntry, hhit]
    | false => cases hop : e.op <;> simp [hop, hhit]

/-- The accepted submissions as the entries they became, in acceptance order. -/
def acceptedEntries (L : Liburing T) (s : Backend T) : List (Entry T) :=
  s.accepted.map fun a => entryOf L a.2 a.1

/-- The abstract queue a backend stands for. -/
def asFifo (L : Liburing T) (s : Backend T) : CancelQueue (Entry T) where
  accepted := s.acceptedEntries L
  queue := live s.unsubmitted
  taken := live s.consumed
  removed := s.retired

/-! ## Refinement -/

/-- Accepted numbers lie below the next one. -/
def NumbersBelow (s : Backend T) : Prop := ∀ a ∈ s.accepted, a.1 < s.nextOp

variable [DecidableEq T] {s s' : Backend T}

theorem Move.numbersBelow (h : Move L s s') (hs : s.NumbersBelow) : s'.NumbersBelow := by
  have haccept : ∀ sub, (s.accept sub).NumbersBelow := by
    intro sub a ha
    rcases mem_append.mp ha with ha | ha
    · exact Nat.lt_succ_of_lt (hs a ha)
    obtain rfl := mem_singleton.mp ha
    exact Nat.lt_succ_self _
  cases h with
  | inner h =>
    cases h with
    | pushSq sub _ _ _ | pushQueue sub _ => exact haccept sub
    | completeCancel target completion _ => exact fun a ha => Nat.lt_succ_of_lt (hs a ha)
    | drain =>
      unfold drainPending
      split <;> exact hs
    | _ => exact hs
  | complete hc =>
    obtain ⟨e, _, rfl⟩ := map_eq_some_iff.mp hc
    exact hs
  | _ => exact hs

omit [DecidableEq T] in
theorem fresh_entry (h : s.NumbersBelow) (sub : Submission T) :
    entryOf L sub s.nextOp ∉ s.acceptedEntries L := by
  intro hmem
  obtain ⟨a, ha, heq⟩ := mem_map.mp hmem
  have hop : a.1 = s.nextOp := some.inj (congrArg Entry.op heq)
  exact absurd (h a ha) (by omega)

/-- Accepting an entry at the end of the unsubmitted ones is accepting it in the queue. -/
theorem asFifo_accept (h : s.NumbersBelow) (sub : Submission T)
    (haccepted : s'.accepted = s.accepted ++ [(s.nextOp, sub)])
    (hunsub : s'.unsubmitted = s.unsubmitted ++ [entryOf L sub s.nextOp])
    (hconsumed : s'.consumed = s.consumed) (hretired : s'.retired = s.retired) :
    (s.asFifo L).step (.accept (entryOf L sub s.nextOp)) = some (s'.asFifo L) := by
  refine (if_neg (fresh_entry h sub)).trans (congrArg some ?_)
  simp [asFifo, acceptedEntries, haccepted, hunsub, hconsumed, hretired]

/-- Retiring the matching entries is withdrawing them from the queue. -/
theorem asFifo_retire (s : Backend T) (hit : Sqe T → Bool) (result : Int) :
    (s.asFifo L).step (.remove fun e => hit e.sqe) =
      some ((s.retireMatching L hit result).asFifo L) := by
  refine congrArg some ?_
  simp only [asFifo, retireMatching, acceptedEntries, unsubmitted, live_append, live_neutralise,
    filter_append]
  congr 1
  · simp only [live, List.filter_filter, Bool.and_comm]
  · simp only [live, List.filter_filter, Bool.and_comm]

/-- The kernel takes the live ones among the first `count` SQEs. -/
theorem asFifo_enter (s : Backend T) (count : Nat) :
    (s.asFifo L).step (.take (live (s.sq.take count)).length) =
      some ((s.enter count).asFifo L) := by
  have hsplit : live s.unsubmitted =
      live (s.sq.take count) ++ live (s.sq.drop count ++ s.pendingIo) := by
    rw [unsubmitted, ← live_append, ← append_assoc, take_append_drop]
  refine congrArg some ?_
  simp only [asFifo, hsplit, List.drop_left, List.take_left]
  simp [enter, acceptedEntries, unsubmitted]

/-- **Every move is one operation of the abstract queue, or none.** -/
theorem asFifo_move (hs : s.NumbersBelow) (h : Move L s s') :
    s'.asFifo L = s.asFifo L ∨ ∃ op, (s.asFifo L).step op = some (s'.asFifo L) := by
  cases h with
  | inner h =>
    cases h with
    | pushSq sub _ hp _ =>
      refine .inr ⟨_, asFifo_accept hs sub rfl ?_ rfl rfl⟩
      simp [unsubmitted, accept, hp]
    | pushQueue sub _ =>
      refine .inr ⟨_, asFifo_accept hs sub rfl ?_ rfl rfl⟩
      simp [unsubmitted, accept]
    | retire hit result _ => exact .inr ⟨_, asFifo_retire s hit result⟩
    | retireCancels target => exact .inr ⟨_, asFifo_retire s (isCancelOf target) (-eNoent)⟩
    | completeCancel target completion _ | flags armed registered => exact .inl rfl
    | drain =>
      left
      have hfields : s.drainPending.accepted = s.accepted ∧ s.drainPending.consumed = s.consumed ∧
          s.drainPending.retired = s.retired := by
        unfold drainPending
        split <;> exact ⟨rfl, rfl, rfl⟩
      simp only [asFifo, acceptedEntries, unsubmitted_drainPending, hfields.1, hfields.2.1,
        hfields.2.2]
    | enter count => exact .inr ⟨_, asFifo_enter s count⟩
  | complete hc =>
    obtain ⟨e, _, rfl⟩ := map_eq_some_iff.mp hc
    exact .inl rfl
  | _ => exact .inl rfl

/-- **Refinement**: every run of the backend is a run of one unbounded FIFO. -/
theorem reachable_asFifo (h : (system L).Reachable s) :
    (CancelQueue.system (Entry T)).Reachable (s.asFifo L) := by
  have hboth : s.NumbersBelow ∧ (CancelQueue.system (Entry T)).Reachable (s.asFifo L) := by
    refine reachable_invariant (P := fun s => s.NumbersBelow ∧
      (CancelQueue.system (Entry T)).Reachable (s.asFifo L)) ?_ ?_ h
    · intro slots wakeEventFd
      exact ⟨by simp [NumbersBelow, Backend.fresh], System.ReachableUnder.init rfl⟩
    · rintro s s' ⟨hnum, hreach⟩ hmove
      refine ⟨hmove.numbersBelow hnum, ?_⟩
      rcases asFifo_move hnum hmove with heq | ⟨op, hop⟩
      · rw [heq]
        exact hreach
      · exact hreach.step hop
  exact hboth.2

/-! ## What the kernel sees -/

/-- An entry carries an operation exactly when it is not a `NOP`. -/
def KindsMatch (s : Backend T) : Prop :=
  ∀ e ∈ s.consumed ++ s.unsubmitted, e.op.isSome = true ↔ e.sqe.opcode ≠ .nop

section

omit [DecidableEq T]

theorem kind_nopEntry : (nopEntry L).op.isSome = true ↔ (nopEntry L).sqe.opcode ≠ .nop := by
  simp [nopEntry, Sqe.setData, Prep.opcode]

theorem kind_entryOf (sub : Submission T) (op : Nat) :
    (entryOf L sub op).op.isSome = true ↔ (entryOf L sub op).sqe.opcode ≠ .nop := by
  simp [entryOf, opcode_prepare_ne_nop]

/-- A list whose entries are old ones, new `NOP`s or one newly accepted entry. -/
theorem KindsMatch.of_subset (hs : s.KindsMatch)
    (h : ∀ e ∈ s'.consumed ++ s'.unsubmitted, e ∈ s.consumed ++ s.unsubmitted ∨
      e = nopEntry L ∨ ∃ sub op, e = entryOf L sub op) : s'.KindsMatch := by
  intro e he
  rcases h e he with hold | rfl | ⟨sub, op, rfl⟩
  · exact hs e hold
  · exact kind_nopEntry
  · exact kind_entryOf sub op

end

theorem Move.kindsMatch (h : Move L s s') (hs : s.KindsMatch) : s'.KindsMatch := by
  cases h with
  | inner h =>
    obtain ⟨new, hconsumed, hnew⟩ := h.consumed
    refine hs.of_subset (L := L) ?_
    intro e he
    rw [hconsumed] at he
    rcases mem_append.mp he with hc | hu
    · rcases mem_append.mp hc with hold | htaken
      · exact .inl (mem_append_left _ hold)
      · exact .inl (mem_append_right _ (hnew e htaken))
    rcases h.mem_unsubmitted hu with hold | hnop | ⟨sub, _, heq⟩
    · exact .inl (mem_append_right _ hold)
    · exact .inr (.inl hnop)
    · exact .inr (.inr ⟨sub, s.nextOp, heq⟩)
  | complete hc =>
    obtain ⟨e, _, rfl⟩ := map_eq_some_iff.mp hc
    exact hs
  | _ => exact hs

theorem reachable_kindsMatch (h : (system L).Reachable s) : s.KindsMatch := by
  refine reachable_invariant ?_ (fun _ _ h hm => hm.kindsMatch h) h
  intro slots wakeEventFd
  simp [KindsMatch, Backend.fresh, unsubmitted]

/-- **The software queue is invisible.**  In every reachable state the two queues stand for a
    state of one unbounded FIFO; the SQEs consumed so far and then those still waiting, without
    the `NOP` replacements, are the accepted submissions in acceptance order without the locally
    cancelled ones; and each has the fields that preparing it in a slot of the SQ gives. -/
theorem reachable_software_queue_invisible {s : Backend T} (h : (system L).Reachable s) :
    (CancelQueue.system (Entry T)).Reachable (s.asFifo L) ∧
    ((s.consumed ++ s.unsubmitted).filter fun e => e.sqe.opcode ≠ .nop) =
      (s.acceptedEntries L).filter (fun e => e ∉ s.retired) ∧
    ∀ a ∈ s.accepted, ∀ slot, (entryOf L a.2 a.1).sqe = prepare L a.2 (L.reset slot) := by
  have hfifo := reachable_asFifo h
  have hkinds := reachable_kindsMatch h
  refine ⟨hfifo, ?_, fun a _ slot => (prepare_reset L a.2 slot).symm⟩
  have hlive : ((s.consumed ++ s.unsubmitted).filter fun e => e.sqe.opcode ≠ .nop) =
      live (s.consumed ++ s.unsubmitted) := by
    apply List.filter_congr
    intro e he
    rw [Bool.eq_iff_iff, hkinds e he]
    exact decide_eq_true_iff
  rw [hlive, live_append]
  exact CancelQueue.reachable_order hfifo

/-- One SQ slot and three timers; the second is cancelled in the software queue, and the kernel
    gets the first and the third. -/
def cancelMiddleTimer : List (Action Nat) :=
  [.call (.request (.timeout 0 (some 7))), .call (.request (.timeout 0 (some 8))),
    .call (.request (.timeout 0 (some 9))), .call (.submitCancel (some 8)),
    .submit 1 1, .submit 1 1]

theorem reachable_software_queue_invisible_demo :
    ∃ s, (system (Liburing.standard Nat)).run (Backend.fresh [Sqe.zero] 3) cancelMiddleTimer =
        some s ∧ s.consumed.map Entry.op = [some 0, some 2] ∧
      ((s.consumed ++ s.unsubmitted).filter fun e => e.sqe.opcode ≠ .nop) =
        (s.acceptedEntries (Liburing.standard Nat)).filter (fun e => e ∉ s.retired) := by
  exact exists_run ⟨[Sqe.zero], 3, rfl⟩ (fun h => (reachable_software_queue_invisible h).2.1)
    ⟨_, rfl, rfl⟩

end Bycorf.IoUring.Backend
