/-
  Intrusive FIFO queues: nodes linked through a `next` pointer of their own, with a pointer to the
  first and to the last node.

  1. **Data** — `next : α → Option α` is the link field of every node there is, in the queue or not.
  2. **Specification** — `IsQueue next head tail l`: the two pointers and the links spell the
     duplicate-free list `l`, and the link of its last node is null.
  3. **Operations** — `IsQueue.push_first`, `IsQueue.push_last` and `IsQueue.pop` are its updates;
     `IsQueue.frame` says that links of other nodes do not matter.
-/
import Mathlib.Logic.Function.Basic

namespace Bycorf.Lib

open Function

variable {α : Type}

/-- Every node's link names the node behind it. -/
def Linked (next : α → Option α) : List α → Prop
  | [] => True
  | a :: l => next a = l.head? ∧ Linked next l

/-- The pointers describe `l`. -/
structure IsQueue (next : α → Option α) (head tail : Option α) (l : List α) : Prop where
  head : head = l.head?
  tail : tail = l.getLast?
  nodup : l.Nodup
  linked : Linked next l

theorem IsQueue.empty (next : α → Option α) : IsQueue next none none [] :=
  ⟨rfl, rfl, List.nodup_nil, trivial⟩

variable {next : α → Option α} {l : List α} {next' : α → Option α}

theorem Linked.frame (h : Linked next l)
    (heq : ∀ a ∈ l, next' a = next a) : Linked next' l := by
  induction l with
  | nil => trivial
  | cons a l ih =>
    refine ⟨?_, ih h.2 fun b hb => heq b (List.mem_cons_of_mem a hb)⟩
    rw [heq a (List.mem_cons_self ..)]
    exact h.1

variable {head tail : Option α}

theorem IsQueue.frame
    (h : IsQueue next head tail l) (heq : ∀ a ∈ l, next' a = next a) : IsQueue next' head tail l :=
  ⟨h.head, h.tail, h.nodup, h.linked.frame heq⟩

theorem IsQueue.eq_nil_of_head (h : IsQueue next none tail l) : l = [] :=
  List.head?_eq_none_iff.mp h.head.symm

theorem IsQueue.eq_nil_of_tail (h : IsQueue next head none l) : l = [] :=
  List.getLast?_eq_none_iff.mp h.tail.symm

variable {a : α}

/-- Linking the last node to `a` appends it.  Induction on the list: only the last node's link
    changes, and it is not one of the nodes before it. -/
theorem Linked.concat [DecidableEq α] {last : α}
    (h : Linked next l) (hlast : l.getLast? = some last) (hnodup : l.Nodup) (ha : next a = none)
    (hne : last ≠ a) : Linked (update next last (some a)) (l ++ [a]) := by
  induction l with
  | nil => cases hlast
  | cons b l ih =>
    cases l with
    | nil =>
      have hb : b = last := Option.some.inj hlast
      subst hb
      refine ⟨update_self .., ?_, trivial⟩
      rw [update_of_ne hne.symm]
      exact ha
    | cons c l =>
      have hlast' : (c :: l).getLast? = some last := by rwa [List.getLast?_cons_cons] at hlast
      have hmem : last ∈ c :: l := List.mem_of_getLast? hlast'
      have hb : b ≠ last := fun heq => (List.nodup_cons.mp hnodup).1 (heq ▸ hmem)
      refine ⟨?_, ih h.2 hlast' (List.nodup_cons.mp hnodup).2⟩
      rw [update_of_ne hb]
      exact h.1

/-- **Push into an empty queue.** -/
theorem IsQueue.push_first (h : IsQueue next head none l) (ha : next a = none) :
    IsQueue next (some a) (some a) (l ++ [a]) := by
  have hnil := h.eq_nil_of_tail
  subst hnil
  exact ⟨rfl, rfl, by simp, ha, trivial⟩

/-- **Push behind the last node.** -/
theorem IsQueue.push_last [DecidableEq α]
    {last : α} (h : IsQueue next head (some last) l) (hmem : a ∉ l) (ha : next a = none) :
    IsQueue (update next last (some a)) head (some a) (l ++ [a]) := by
  have hnodup : (l ++ [a]).Nodup :=
    List.nodup_append.mpr ⟨h.nodup, by simp, by
      intro x hx y hy
      rw [List.mem_singleton.mp hy]
      exact fun heq => hmem (heq ▸ hx)⟩
  have hlast : last ∈ l := List.mem_of_getLast? h.tail.symm
  have hne : last ≠ a := fun heq => hmem (heq ▸ hlast)
  refine ⟨?_, by simp, hnodup, h.linked.concat h.tail.symm h.nodup ha hne⟩
  cases l with
  | nil => cases hlast
  | cons b l => exact h.head

/-- **Pop at the front.** -/
theorem IsQueue.pop (h : IsQueue next (some a) tail l) :
    ∃ l', l = a :: l' ∧ IsQueue next (next a) (if (next a).isNone then none else tail) l' := by
  rcases l with _ | ⟨b, l'⟩
  · cases h.head
  have hb : a = b := Option.some.inj h.head
  subst hb
  refine ⟨l', rfl, h.linked.1, ?_, (List.nodup_cons.mp h.nodup).2, h.linked.2⟩
  rw [h.linked.1]
  cases l' with
  | nil => rfl
  | cons c l' => exact h.tail

end Bycorf.Lib
