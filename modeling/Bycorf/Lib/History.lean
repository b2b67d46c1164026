/-
  Two ways to say what a run has done so far.

  1. **Counting** — how many of the first `n` parties satisfy a predicate (`Nat.count`), when one of
     them changes.
  2. **Logs** — a log is JUSTIFIED when each of its entries was allowed by those in front of it.  An
     entry is judged once, when it is written; so a claim about the order of events in every run
     reduces to one fact about each step.
-/
import Mathlib.Data.Nat.Count

namespace Bycorf.Lib

open Function
open Nat (count count_succ)

/-! ## Counting -/

section Counting

variable {p q : Nat → Prop} [DecidablePred p] [DecidablePred q] {w n : Nat}

theorem count_congr (h : ∀ i < n, (q i ↔ p i)) : count q n = count p n :=
  le_antisymm (Nat.count_mono_left fun i hi hq => (h i hi).mp hq)
    (Nat.count_mono_left fun i hi hp => (h i hi).mpr hp)

/-- Nobody behind the first `m` satisfies the predicate. -/
theorem count_of_le {m : Nat} (hle : m ≤ n) (h : ∀ i, m ≤ i → ¬p i) :
    count p n = count p m := by
  obtain ⟨k, rfl⟩ := Nat.exists_eq_add_of_le hle
  have hrest : count (fun i => p (m + i)) k = 0 :=
    Nat.count_iff_forall_not.mpr fun i _ => h (m + i) (Nat.le_add_right m i)
  rw [Nat.count_add, hrest, Nat.add_zero]

theorem count_add_count_not (p : Nat → Prop) [DecidablePred p] (n : Nat) :
    count p n + count (fun i => ¬p i) n = n := by
  induction n with
  | zero => simp
  | succ n ih =>
    rw [count_succ, count_succ]
    by_cases hp : p n
    · rw [if_pos hp, if_neg (not_not.mpr hp)]
      omega
    rw [if_neg hp, if_pos hp]
    omega

/-- **One party moves**: the count changes by what the move changes. -/
theorem count_update {π : Type} (counted : π → Bool) (place : Nat → π) (x : π) (hw : w < n) :
    count (fun v => counted (update place w x v) = true) n + (counted (place w)).toNat =
      count (fun v => counted (place v) = true) n + (counted x).toNat := by
  induction n with
  | zero => omega
  | succ n ih =>
    rw [count_succ, count_succ]
    by_cases hn : w = n
    · subst hn
      have hsame : count (fun v => counted (update place w x v) = true) w =
          count (fun v => counted (place v) = true) w :=
        count_congr fun i hi => by rw [update_of_ne (Nat.ne_of_lt hi)]
      rw [hsame, update_self]
      cases counted (place w) <;> cases counted x <;> rfl
    rw [update_of_ne (Ne.symm hn)]
    have := ih (by omega)
    omega

end Counting

/-! ## Logs -/

section Logs

variable {α : Type} {ok : List α → α → Prop} {log : List α}

/-- Every entry was allowed by the entries in front of it. -/
def Justified (ok : List α → α → Prop) (log : List α) : Prop :=
  ∀ front x back, log = front ++ x :: back → ok front x

theorem justified_nil : Justified ok [] := by
  intro front x back h
  exact absurd h (by simp)

/-- **An entry is judged when it is written.** -/
theorem Justified.concat (h : Justified ok log) {x : α} (hx : ok log x) :
    Justified ok (log ++ [x]) := by
  intro front y back heq
  rcases List.eq_nil_or_concat back with rfl | ⟨back', z, rfl⟩
  · obtain ⟨rfl, hxy⟩ := List.append_inj' heq rfl
    cases hxy
    exact hx
  have hlog : log = front ++ y :: back' := by
    have hassoc : log ++ [x] = (front ++ y :: back') ++ [z] := by
      rw [heq]
      simp
    exact (List.append_inj' hassoc rfl).1
  exact h front y back' hlog

/-- An entry that is never allowed twice occurs once at most. -/
theorem Justified.count_le_one [BEq α] [LawfulBEq α] (h : Justified ok log) {x : α}
    (hx : ∀ front, ok front x → x ∉ front) : log.count x ≤ 1 := by
  by_cases hmem : x ∈ log
  · obtain ⟨front, back, rfl⟩ := List.append_of_mem hmem
    have hfront : x ∉ front := hx front (h front x back rfl)
    have hback : x ∉ back := by
      intro hin
      obtain ⟨middle, rest, rfl⟩ := List.append_of_mem hin
      have hlater := hx (front ++ x :: middle) (h (front ++ x :: middle) x rest (by simp))
      exact hlater (by simp)
    rw [List.count_append, List.count_cons_self, List.count_eq_zero_of_not_mem hfront,
      List.count_eq_zero_of_not_mem hback]
  · rw [List.count_eq_zero_of_not_mem hmem]
    exact Nat.zero_le _

end Logs

end Bycorf.Lib
