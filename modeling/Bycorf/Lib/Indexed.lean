/-
  Lists as tables that are addressed by an index: what stands where after one row is written, and
  what the rows carry together.

  `h : l[i]? = some a` is the row that is written over or taken out.
-/
import Bycorf.Lib.Accounting

namespace Bycorf.Lib

variable {α β κ : Type} {l : List α} {i j : Nat} {a b x : α}

/-- What a row is after one is written. -/
theorem getElem?_set_cases (h : l[i]? = some a) (hj : (l.set i b)[j]? = some x) :
    (j = i ∧ x = b) ∨ (j ≠ i ∧ l[j]? = some x) := by
  have hlt := (List.getElem?_eq_some_iff.mp h).1
  by_cases hji : j = i
  · subst hji
    rw [List.getElem?_set_self hlt] at hj
    exact .inl ⟨rfl, (Option.some.inj hj).symm⟩
  rw [List.getElem?_set_ne (Ne.symm hji)] at hj
  exact .inr ⟨hji, hj⟩

/-- What a column is after a row is written that agrees with the old one in it. -/
theorem map_set_of_eq (h : l[i]? = some a) {f : α → β} (heq : f b = f a) :
    (l.set i b).map f = l.map f := by
  rw [List.map_set, heq]
  refine List.ext_getElem? fun k => ?_
  have hi : (l.map f)[i]? = some (f a) := by
    rw [List.getElem?_map, h]
    rfl
  by_cases hk : k = i
  · subst hk
    rw [List.getElem?_set_self (List.getElem?_eq_some_iff.mp hi).1, hi]
  · rw [List.getElem?_set_ne (Ne.symm hk)]

section

variable (f : β → Option κ) (g : α → List β) (h : l[i]? = some a)
include h

/-- One row less. -/
theorem carried_flatMap_eraseIdx :
    carried f (l.flatMap g) = carried f (g a) + carried f ((l.eraseIdx i).flatMap g) := by
  obtain ⟨hi, rfl⟩ := List.getElem?_eq_some_iff.mp h
  rw [← carried_append]
  exact carried_perm f ((List.getElem_cons_eraseIdx_perm hi).symm.flatMap_right g)

/-- One row is written. -/
theorem carried_flatMap_set (b : α) : carried f ((l.set i b).flatMap g) + carried f (g a) =
      carried f (l.flatMap g) + carried f (g b) := by
  have hset : (l.set i b)[i]? = some b :=
    List.getElem?_set_self (List.getElem?_eq_some_iff.mp h).1
  rw [carried_flatMap_eraseIdx f g h, carried_flatMap_eraseIdx f g hset, List.eraseIdx_set_eq]
  ac_rfl

end

theorem card_carried_some (k : α → κ) (l : List α) :
    (carried (fun x => some (k x)) l).card = l.length := by
  rw [carried, Multiset.coe_card, List.filterMap_eq_map', List.length_map]

end Bycorf.Lib
