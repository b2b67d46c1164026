/-
  Items that are each in ONE place, and the lists that are to hold exactly what is in a place.

  A `Shelf` is a list's reading: the item an entry stands for, and the place that item is then in.
  `Holds` says that the list has an entry for every item in such a place, once, and no other entry.
  Moving one item is `Function.update`; a list whose places are not involved stays as it is, and the
  two that are involved lose and gain one entry.
-/
import Mathlib.Data.List.Nodup

namespace Bycorf.Lib

open Function

variable {α β π : Type}

/-- How to read a list: an entry stands for an item, and says in which place it is. -/
structure Shelf (α β π : Type) where
  item : β → α
  loc : β → π
  inj : ∀ b b', item b = item b' → loc b = loc b' → b = b'

/-- The list has exactly the entries that are true. -/
structure Holds (place : α → π) (A : Shelf α β π) (l : List β) : Prop where
  nodup : l.Nodup
  mem : ∀ b, b ∈ l ↔ place (A.item b) = A.loc b

namespace Holds

variable {place : α → π} {A : Shelf α β π} {l : List β}

theorem nil_iff : Holds place A [] ↔ ∀ b, place (A.item b) ≠ A.loc b := by
  constructor
  · intro h b hb
    exact List.not_mem_nil ((h.mem b).mpr hb)
  · intro h
    exact ⟨List.nodup_nil, fun b => iff_of_false List.not_mem_nil (h b)⟩

/-- The places are read in another way, and the true entries are the same. -/
theorem congr {place' : α → π} {A' : Shelf α β π} (h : Holds place A l)
    (hiff : ∀ b, place (A.item b) = A.loc b ↔ place' (A'.item b) = A'.loc b) : Holds place' A' l :=
  ⟨h.nodup, fun b => (h.mem b).trans (hiff b)⟩

variable [DecidableEq α] {a : α} {q : π} {b : β}

section

variable (h : Holds place A l) (hold : ∀ b, A.item b = a → place a ≠ A.loc b)
include h hold

/-- An item moves between two other places. -/
theorem other (hnew : ∀ b, A.item b = a → q ≠ A.loc b) : Holds (update place a q) A l := by
  refine h.congr fun b => ?_
  by_cases hb : A.item b = a
  · rw [hb, update_self]
    exact iff_of_false (hold b hb) (hnew b hb)
  · rw [update_of_ne hb]

/-- An item moves in. -/
theorem insert (hitem : A.item b = a) (hloc : A.loc b = q) :
    Holds (update place a q) A (l ++ [b]) := by
  refine ⟨?_, fun b' => ?_⟩
  · refine List.nodup_append.mpr ⟨h.nodup, List.nodup_singleton b, ?_⟩
    intro x hx y hy hxy
    rw [hxy, List.mem_singleton.mp hy] at hx
    exact hold b hitem (hitem ▸ (h.mem b).mp hx)
  · rw [List.mem_append, List.mem_singleton]
    by_cases hb : A.item b' = a
    · rw [hb, update_self, ← hloc]
      constructor
      · rintro (hmem | rfl)
        · exact absurd (hb ▸ (h.mem b').mp hmem) (hold b' hb)
        · rfl
      · intro heq
        exact .inr (A.inj b' b (hb.trans hitem.symm) heq.symm)
    rw [update_of_ne hb, h.mem b']
    refine or_iff_left fun heq => ?_
    rw [heq] at hb
    exact hb hitem

end

/-- An item moves out. -/
theorem remove {front back : List β} (h : Holds place A (front ++ b :: back))
    (hnew : ∀ b', A.item b' = A.item b → q ≠ A.loc b') :
    Holds (update place (A.item b) q) A (front ++ back) := by
  have hsplit : b ∉ front ++ back ∧ (front ++ back).Nodup :=
    List.nodup_cons.mp (List.nodup_middle.mp h.nodup)
  refine ⟨hsplit.2, fun b' => ?_⟩
  by_cases hb : A.item b' = A.item b
  · rw [hb, update_self]
    refine iff_of_false (fun hmem => ?_) (hnew b' hb)
    have hfull : b' ∈ front ++ b :: back :=
      List.perm_middle.mem_iff.mpr (List.mem_cons_of_mem b hmem)
    have hin : b ∈ front ++ b :: back := List.mem_append_right front (.head back)
    have heq : b' = b := by
      refine A.inj b' b hb ?_
      rw [← (h.mem b').mp hfull, ← (h.mem b).mp hin, hb]
    exact hsplit.1 (heq ▸ hmem)
  · rw [update_of_ne hb, ← h.mem b', List.perm_middle.mem_iff, List.mem_cons]
    refine (or_iff_right fun heq => ?_).symm
    exact hb (by rw [heq])

theorem eraseIdx {i : Nat} (h : Holds place A l) (hi : l[i]? = some b)
    (hnew : ∀ b', A.item b' = A.item b → q ≠ A.loc b') :
    Holds (update place (A.item b) q) A (l.eraseIdx i) := by
  obtain ⟨hlt, hget⟩ := List.getElem?_eq_some_iff.mp hi
  have hsplit : l = l.take i ++ b :: l.drop (i + 1) := by
    rw [← hget, ← List.drop_eq_getElem_cons hlt, List.take_append_drop]
  rw [List.eraseIdx_eq_take_drop_succ]
  rw [hsplit] at h
  exact h.remove hnew

end Holds

end Bycorf.Lib
