/-
  Conservation accounting: which keys a list of carriers carries, as a multiset.

  An item moves from container to container (a queue, a batch, a log) without being lost or
  duplicated exactly when the SUM of what the containers carry does not change.  `carried f l` is
  the multiset of keys `f x` over the elements `x` of `l` that have one; the lemmas say what the
  list operations of a container do to it.
-/
import Mathlib.Algebra.Order.Group.Multiset

namespace Bycorf.Lib

variable {α β κ : Type}

/-- The keys carried by the elements of a list. -/
def carried (f : α → Option κ) (l : List α) : Multiset κ := (l.filterMap f : List κ)

section

variable (f : α → Option κ)

@[simp] theorem carried_nil : carried f [] = 0 := rfl

theorem carried_cons (x : α) (l : List α) : carried f (x :: l) = carried f [x] + carried f l := by
  simp only [carried, Multiset.coe_add, ← List.filterMap_append, List.singleton_append]

@[simp] theorem carried_append (l l' : List α) :
    carried f (l ++ l') = carried f l + carried f l' := by
  simp only [carried, Multiset.coe_add, List.filterMap_append]

end

/-- The multiset of an optional key. -/
def single : Option κ → Multiset κ
  | none => 0
  | some k => {k}

@[simp] theorem single_none : single (none : Option κ) = 0 := rfl
@[simp] theorem single_some (k : κ) : single (some k) = {k} := rfl

@[simp] theorem carried_singleton (f : α → Option κ) (x : α) : carried f [x] = single (f x) := by
  cases h : f x <;> simp [carried, h]

theorem carried_map (f : β → Option κ) (g : α → β) (l : List α) :
    carried f (l.map g) = carried (fun x => f (g x)) l := by
  simp [carried, List.filterMap_map]

variable {f : α → Option κ}

theorem mem_carried {l : List α} {k : κ} :
    k ∈ carried f l ↔ ∃ x ∈ l, f x = some k := by
  simp [carried]

theorem carried_perm (f : α → Option κ) {l l' : List α} (h : l.Perm l') :
    carried f l = carried f l' :=
  Multiset.coe_eq_coe.mpr (h.filterMap f)

/-- Splitting a container by a predicate loses nothing. -/
theorem carried_filter_add (f : α → Option κ) (p : α → Bool) (l : List α) :
    carried f (l.filter p) + carried f (l.filter fun x => !p x) = carried f l := by
  rw [← carried_append]
  exact carried_perm f (List.filter_append_perm p l)

/-- Overwriting the chosen elements with a blank is the same as removing them. -/
theorem carried_blank {blank : α} (hblank : f blank = none) (p : α → Bool)
    (l : List α) :
    carried f (l.map fun x => if p x then blank else x) = carried f (l.filter fun x => !p x) := by
  induction l with
  | nil => rfl
  | cons x l ih =>
    rw [List.map_cons, carried_cons, ih]
    cases hp : p x with
    | true =>
      rw [if_pos rfl, carried_singleton, hblank, single_none, zero_add,
        List.filter_cons_of_neg (by simp [hp])]
    | false =>
      rw [if_neg Bool.false_ne_true, List.filter_cons_of_pos (by simp [hp]), ← carried_cons]

/-- Taking out one element. -/
theorem carried_eraseIdx (f : α → Option κ) {l : List α} {i : Nat} {x : α} (h : l[i]? = some x) :
    carried f l = carried f [x] + carried f (l.eraseIdx i) := by
  obtain ⟨hi, rfl⟩ := List.getElem?_eq_some_iff.mp h
  rw [← carried_append]
  exact carried_perm f (List.getElem_cons_eraseIdx_perm hi).symm

theorem carried_take_add_drop (f : α → Option κ) (n : Nat) (l : List α) :
    carried f (l.take n) + carried f (l.drop n) = carried f l := by
  rw [← carried_append, List.take_append_drop]

end Bycorf.Lib
