/-
  Going round `n` places: `cyclic n start m` are the `m` places from `start` on.

  Two stretches that follow each other are one stretch (`cyclic_append`); `n` visits reach every
  place (`mem_cyclic`), and fewer miss the place that would be next (`next_not_mem_cyclic`).
-/
import Mathlib.Data.List.Basic

namespace Bycorf.Lib

/-- The `m` numbers from `start` on, counted around a cycle of `n`. -/
def cyclic (n start m : Nat) : List Nat := (List.range m).map fun k => (start + k) % n

variable {n start m : Nat}

@[simp] theorem cyclic_zero : cyclic n start 0 = [] := rfl

@[simp] theorem length_cyclic : (cyclic n start m).length = m := by simp [cyclic]

theorem cyclic_append (m' : Nat) :
    cyclic n start m ++ cyclic n ((start + m) % n) m' = cyclic n start (m + m') := by
  rw [cyclic, cyclic, cyclic, List.range_add, List.map_append, List.map_map]
  refine congrArg _ (List.map_congr_left fun k _ => ?_)
  show ((start + m) % n + k) % n = (start + (m + k)) % n
  rw [Nat.mod_add_mod, Nat.add_assoc]

theorem mem_cyclic (hstart : start < n) (hm : n ≤ m) {c : Nat} (hc : c < n) :
    c ∈ cyclic n start m := by
  refine List.mem_map.mpr ?_
  by_cases hle : start ≤ c
  · refine ⟨c - start, List.mem_range.mpr (by omega), ?_⟩
    rw [Nat.add_sub_cancel' hle, Nat.mod_eq_of_lt hc]
  refine ⟨n + c - start, List.mem_range.mpr (by omega), ?_⟩
  rw [Nat.add_sub_cancel' (by omega), Nat.add_mod_left, Nat.mod_eq_of_lt hc]

theorem next_not_mem_cyclic (hm : m < n) : (start + m) % n ∉ cyclic n start m := by
  intro hmem
  obtain ⟨k, hk, heq⟩ := List.mem_map.mp hmem
  have hlt : k < m := List.mem_range.mp hk
  -- equal remainders of numbers less than `n` apart
  have hzero : (start + m - (start + k)) % n = 0 := Nat.sub_mod_eq_zero_of_mod_eq heq.symm
  rw [Nat.mod_eq_of_lt (by omega)] at hzero
  omega

end Bycorf.Lib
