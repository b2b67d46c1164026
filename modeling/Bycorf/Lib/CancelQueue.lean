/-
  An unbounded FIFO queue from which waiting items may be withdrawn.

  The abstract queue accepts fresh items at its end, withdraws the waiting items that satisfy a
  predicate, and hands items out from its front.  Whatever the interleaving, what was handed out
  followed by what still waits is what was accepted, in order, without the withdrawn items.
-/
import Mathlib.Data.List.Nodup
import Bycorf.Lib.Transition

namespace Bycorf.Lib

/-- The queue, with everything that ever happened to it. -/
structure CancelQueue (α : Type) where
  accepted : List α
  queue : List α
  taken : List α
  removed : List α
deriving DecidableEq, Repr

namespace CancelQueue

variable {α : Type} [DecidableEq α]

/-- What happens to the queue: an entry is accepted, entries are cancelled, the first are taken. -/
inductive Op (α : Type) where
  | accept (x : α)
  | remove (p : α → Bool)
  | take (n : Nat)

/-- One operation; an item is accepted once. -/
def step (q : CancelQueue α) : Op α → Option (CancelQueue α)
  | .accept x =>
    if x ∈ q.accepted then none
    else some { q with accepted := q.accepted ++ [x], queue := q.queue ++ [x] }
  | .remove p =>
    some { q with
      queue := q.queue.filter fun x => !p x
      removed := q.removed ++ q.queue.filter p }
  | .take n =>
    some { q with queue := q.queue.drop n, taken := q.taken ++ q.queue.take n }

def empty : CancelQueue α := ⟨[], [], [], []⟩

/-- All sequences of these from an empty queue. -/
def system (α : Type) [DecidableEq α] : System (CancelQueue α) (Op α) where
  init q := q = empty
  step := step

/-- What every operation keeps. -/
structure Inv (q : CancelQueue α) : Prop where
  nodup : q.accepted.Nodup
  removed : ∀ x ∈ q.removed, x ∈ q.accepted
  order : q.taken ++ q.queue = q.accepted.filter fun x => x ∉ q.removed

variable {q : CancelQueue α}

theorem Inv.accept (h : Inv q) {x : α} (hx : x ∉ q.accepted) :
    Inv { q with accepted := q.accepted ++ [x], queue := q.queue ++ [x] } where
  nodup := nodup_append.mpr ⟨h.nodup, List.nodup_singleton x, by
    intro a ha b hb hab
    rw [mem_singleton] at hb
    exact hx (hb ▸ hab ▸ ha)⟩
  removed y hy := mem_append_left _ (h.removed y hy)
  order := by
    have hfresh : x ∉ q.removed := fun hr => hx (h.removed x hr)
    rw [filter_append, ← h.order, append_assoc]
    simp [hfresh]

/-- **The crux**: withdrawing by a predicate is filtering out the withdrawn items, because an item
    that waits was not handed out as well. -/
theorem Inv.remove (h : Inv q) (p : α → Bool) :
    Inv { q with
      queue := q.queue.filter fun x => !p x, removed := q.removed ++ q.queue.filter p } where
  nodup := h.nodup
  removed x hx := by
    rcases mem_append.mp hx with hr | hq
    · exact h.removed x hr
    have hmem : x ∈ q.taken ++ q.queue := mem_append_right _ (mem_filter.mp hq).1
    rw [h.order] at hmem
    exact (mem_filter.mp hmem).1
  order := by
    have hnodup : (q.taken ++ q.queue).Nodup := h.order ▸ h.nodup.filter _
    have hdisj : ∀ x ∈ q.taken, x ∉ q.queue :=
      fun x hx hq => List.disjoint_of_nodup_append hnodup hx hq
    have hsplit : (q.accepted.filter fun x => x ∉ q.removed ++ q.queue.filter p) =
        (q.taken ++ q.queue).filter fun x => x ∉ q.queue.filter p := by
      rw [h.order, List.filter_filter]
      apply List.filter_congr
      intro x _
      simp [Bool.and_comm]
    have htaken : (q.taken.filter fun x => x ∉ q.queue.filter p) = q.taken := by
      apply List.filter_eq_self.mpr
      intro x hx
      simp [hdisj x hx]
    have hqueue : (q.queue.filter fun x => x ∉ q.queue.filter p) =
      q.queue.filter fun x => !p x := by
      apply List.filter_congr
      intro x hx
      simp [hx]
    show q.taken ++ (q.queue.filter fun x => !p x) = _
    rw [hsplit, filter_append, htaken, hqueue]

theorem Inv.take (h : Inv q) (n : Nat) :
    Inv { q with queue := q.queue.drop n, taken := q.taken ++ q.queue.take n } where
  nodup := h.nodup
  removed := h.removed
  order := by
    show q.taken ++ q.queue.take n ++ q.queue.drop n = _
    rw [append_assoc, take_append_drop]
    exact h.order

theorem reachable_inv (h : (system α).Reachable q) : Inv q := by
  refine Reachable.invariant ?_ ?_ h
  · rintro q rfl
    exact ⟨List.nodup_nil, fun x hx => hx, rfl⟩
  · intro q op q' hq hs
    cases op with
    | accept x =>
      obtain ⟨hx, heq⟩ := ite_none_left_eq_some.mp hs
      cases heq
      exact hq.accept hx
    | remove p =>
      cases hs
      exact hq.remove p
    | take n =>
      cases hs
      exact hq.take n

/-- **Order is acceptance order**, with exactly the withdrawn items missing. -/
theorem reachable_order (h : (system α).Reachable q) :
    q.taken ++ q.queue = q.accepted.filter fun x => x ∉ q.removed :=
  (reachable_inv h).order

end CancelQueue

end Bycorf.Lib
