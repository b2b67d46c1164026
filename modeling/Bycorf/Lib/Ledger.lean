/-
  A LEDGER of things handed out and taken back, by key.

  Each line of the two lists is a key with the thing that was handed to it, or came back from it.
  If the books balance under every key, they balance in total, and what is still out is spread over
  the keys as the books say.
-/
import Mathlib.Algebra.Order.Group.Multiset

namespace Bycorf.Lib.Ledger

variable {κ β : Type} [DecidableEq κ] [DecidableEq β]

/-- The keys under which `b` stands in a list of pairs. -/
def keysOf (l : List (κ × β)) (b : β) : Multiset κ :=
  ((l.filter fun x => x.2 = b).map Prod.fst : List κ)

theorem count_keysOf (l : List (κ × β)) (b : β) (c : κ) :
    (keysOf l b).count c = l.count (c, b) := by
  rw [keysOf, Multiset.coe_count]
  induction l with
  | nil => rfl
  | cons x l ih =>
    obtain ⟨c', b'⟩ := x
    rw [List.count_cons, ← ih]
    by_cases hb : b' = b
    · subst hb
      simp [List.count_cons]
    · simp [hb]

omit [DecidableEq κ] in
theorem card_keysOf (l : List (κ × β)) (b : β) : (keysOf l b).card = (l.map Prod.snd).count b := by
  rw [keysOf, Multiset.coe_card, List.length_map]
  induction l with
  | nil => rfl
  | cons x l ih =>
    rw [List.map_cons, List.count_cons, ← ih]
    by_cases hb : x.2 = b
    · simp [hb]
    · simp [hb]

/-- Books that balance under every key balance in total: the rest is spread over the keys. -/
theorem outstanding {given returned : List (κ × β)} {queued : κ → Nat} {b : β}
    (hbooks : ∀ c, given.count (c, b) = returned.count (c, b) + queued c) :
    ∃ rest : Multiset κ, (∀ c, rest.count c = queued c) ∧
      (given.map Prod.snd).count b = (returned.map Prod.snd).count b + rest.card := by
  have hle : keysOf returned b ≤ keysOf given b := by
    rw [Multiset.le_iff_count]
    intro c
    rw [count_keysOf, count_keysOf, hbooks c]
    exact Nat.le_add_right _ _
  refine ⟨keysOf given b - keysOf returned b, fun c => ?_, ?_⟩
  · rw [Multiset.count_sub, count_keysOf, count_keysOf, hbooks c]
    omega
  · have hcard := Multiset.card_le_card hle
    rw [Multiset.card_sub hle, ← card_keysOf, ← card_keysOf]
    omega

end Bycorf.Lib.Ledger
