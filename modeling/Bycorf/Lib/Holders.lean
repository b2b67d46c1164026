/-
  Things held by MANY holders: what an update of one holder does to the sum over all.
-/
import Mathlib.Algebra.BigOperators.Group.Finset.Basic

namespace Bycorf.Lib

open Function

variable {ι α κ : Type} [Fintype ι] [DecidableEq ι]

/-- One holder gives up what it has and holds something else. -/
theorem sum_update_add (f : ι → α → Multiset κ) (g : ι → α) (w : ι) (x : α) :
    (∑ i, f i (update g w x i)) + f w (g w) = (∑ i, f i (g i)) + f w x := by
  have hrest : ∑ i ∈ Finset.univ.erase w, f i (update g w x i) =
      ∑ i ∈ Finset.univ.erase w, f i (g i) := by
    refine Finset.sum_congr rfl fun i hi => ?_
    rw [update_of_ne (Finset.ne_of_mem_erase hi)]
  rw [← Finset.add_sum_erase _ _ (Finset.mem_univ w),
    ← Finset.add_sum_erase _ (fun i => f i (g i)) (Finset.mem_univ w), hrest, update_self]
  ac_rfl

end Bycorf.Lib
