/-
  `SpdkBackend::Poll` over a channel table that does not change: which queue pairs it processes.

  1. **Program** — `pollLoop` is the loop over the channels with its cursor and its budget, `poll`
     one call and `polls` successive calls.  A call is given what is outside of it: how many
     synthetic completions it finds, and for each channel what the device delivers for a limit and
     how many deferred requests fail in `RetryDeferred`.
  2. **Order** — `polls_cyclic`: whatever is delivered, the channels are processed in cyclic order,
     from one call to the next.
  3. **Progress** — the budget is SHARED with the synthetic completions: a call that has delivered
     `max_completions` of them processes no queue pair.  `polls_reach_iff` says exactly when as many
     calls as there are channels reach every channel for certain.

  `completions_` is a `uint32_t`.
-/
import Bycorf.Lib.Cyclic
import Mathlib.Algebra.Group.Nat.Defs

namespace Bycorf.Spdk

open Lib

/-! ## The program -/

/-- The completions that a call may still deliver; zero also stands for no limit. -/
def remaining (maxCompletions completions : Nat) : Nat :=
  if maxCompletions = 0 then 0
  else if maxCompletions ≤ completions then 0
  else maxCompletions - completions

/-- `max_completions != 0 && remaining == 0`. -/
def exhausted (maxCompletions completions : Nat) : Prop :=
  maxCompletions ≠ 0 ∧ remaining maxCompletions completions = 0

instance (maxCompletions completions : Nat) : Decidable (exhausted maxCompletions completions) :=
  inferInstanceAs (Decidable (_ ∧ _))

/-- `result.completions_`. -/
def count32 (completions : Nat) : Nat := completions % 2 ^ 32

/-- What happens at one channel. -/
structure Visit where
  completed : Nat → Int            -- what `process_completions` returns for a limit
  le : ∀ limit, 0 < limit → completed limit ≤ limit
  retryErrors : Nat                -- completions by `RetryDeferred`

/-- What one call of `Poll` meets. -/
structure Turn where
  synthetic : Nat                  -- `completions.size()`
  visit : Nat → Visit

/-- The loop of `Poll`, with `left` channels to visit: the channels it processes and the cursor it
    leaves. -/
def pollLoop (maxCompletions channelCount firstChannel : Nat) (visit : Nat → Visit) :
    (left visited completions cursor : Nat) → List Nat × Nat
  | 0, _, _, cursor => ([], cursor)
  | left + 1, visited, completions, _ =>
    let index := (firstChannel + visited) % channelCount
    if exhausted maxCompletions completions then ([], index)
    else
      let v := visit index
      let completed := v.completed (remaining maxCompletions completions)
      let rest := pollLoop maxCompletions channelCount firstChannel visit left (visited + 1)
        (count32 (completions + completed.toNat + v.retryErrors)) ((index + 1) % channelCount)
      (index :: rest.1, rest.2)

/-- `Poll`, with the cursor `next_poll_channel_`. -/
def poll (maxCompletions channelCount : Nat) (turn : Turn) (cursor : Nat) : List Nat × Nat :=
  pollLoop maxCompletions channelCount cursor turn.visit channelCount 0
    (count32 turn.synthetic) cursor

/-- Successive calls: the channels each of them processes. -/
def polls (maxCompletions channelCount : Nat) : List Turn → Nat → List (List Nat)
  | [], _ => []
  | turn :: turns, cursor =>
    let pass := poll maxCompletions channelCount turn cursor
    pass.1 :: polls maxCompletions channelCount turns pass.2

/-! ## The order of the channels -/

variable {channelCount cursor maxCompletions : Nat}

/-- The loop goes on where it is, and the cursor is the channel behind the last one it processed. -/
theorem pollLoop_cyclic {firstChannel : Nat} (visit : Nat → Visit) (left visited completions : Nat)
    (hcursor : cursor = (firstChannel + visited) % channelCount) :
    ∃ m ≤ left, pollLoop maxCompletions channelCount firstChannel visit left visited completions
      cursor = (cyclic channelCount cursor m, (cursor + m) % channelCount) := by
  induction left generalizing visited completions cursor with
  | zero =>
    refine ⟨0, Nat.le_refl 0, ?_⟩
    rw [pollLoop, cyclic_zero, Nat.add_zero, hcursor, Nat.mod_mod]
  | succ left ih =>
    rw [pollLoop]
    dsimp only
    split
    · refine ⟨0, Nat.zero_le _, ?_⟩
      rw [cyclic_zero, Nat.add_zero, hcursor, Nat.mod_mod]
    have hnext : ((firstChannel + visited) % channelCount + 1) % channelCount =
        (firstChannel + (visited + 1)) % channelCount := by
      rw [Nat.mod_add_mod, Nat.add_assoc]
    obtain ⟨m, hm, heq⟩ := ih (visited + 1) _ hnext
    refine ⟨m + 1, Nat.succ_le_succ hm, ?_⟩
    rw [heq, ← hcursor]
    refine Prod.ext ?_ ?_
    · have hone : cyclic channelCount cursor 1 = [cursor] := by
        simp [cyclic, hcursor]
      rw [Nat.add_comm m 1, ← cyclic_append, hone]
      rfl
    · show ((cursor + 1) % channelCount + m) % channelCount = (cursor + (m + 1)) % channelCount
      rw [Nat.mod_add_mod, Nat.add_assoc, Nat.add_comm 1 m]

theorem poll_cyclic (maxCompletions : Nat) (turn : Turn)
    (hcursor : cursor % channelCount = cursor) :
    ∃ m ≤ channelCount, poll maxCompletions channelCount turn cursor =
      (cyclic channelCount cursor m, (cursor + m) % channelCount) :=
  pollLoop_cyclic turn.visit channelCount 0 _ (by rw [Nat.add_zero, hcursor])

/-- **Cyclic order**: the calls process one stretch of the cycle, that starts at the cursor. -/
theorem polls_cyclic (maxCompletions : Nat) (turns : List Turn)
    (hcursor : cursor % channelCount = cursor) :
    ∃ m, (polls maxCompletions channelCount turns cursor).flatten =
      cyclic channelCount cursor m := by
  induction turns generalizing cursor with
  | nil => exact ⟨0, rfl⟩
  | cons turn turns ih =>
    obtain ⟨m, -, hpass⟩ := poll_cyclic maxCompletions turn hcursor
    obtain ⟨m', hrest⟩ := ih (Nat.mod_mod (cursor + m) channelCount)
    refine ⟨m + m', ?_⟩
    rw [polls, hpass, List.flatten_cons, hrest, cyclic_append]

/-! ## Which channels are reached -/

theorem exhausted_iff (completions : Nat) :
    exhausted maxCompletions completions ↔ maxCompletions ≠ 0 ∧ maxCompletions ≤ completions := by
  rw [exhausted, remaining]
  refine and_congr_right fun hne => ?_
  rw [if_neg hne]
  split <;> omega

/-- A call whose synthetic completions leave something of the budget processes a channel. -/
theorem poll_length_pos {turn : Turn} (hturn : ¬exhausted maxCompletions (count32 turn.synthetic))
    (hcount : 0 < channelCount) (cursor : Nat) :
    0 < (poll maxCompletions channelCount turn cursor).1.length := by
  obtain ⟨left, rfl⟩ := Nat.exists_eq_succ_of_ne_zero (Nat.ne_of_gt hcount)
  rw [poll, pollLoop]
  rw [if_neg hturn, List.length_cons]
  exact Nat.succ_pos _

theorem polls_length_ge {turns : List Turn}
    (hturns : ∀ turn ∈ turns, ¬exhausted maxCompletions (count32 turn.synthetic))
    (hcount : 0 < channelCount) (cursor : Nat) :
    turns.length ≤ (polls maxCompletions channelCount turns cursor).flatten.length := by
  induction turns generalizing cursor with
  | nil => exact Nat.le_refl 0
  | cons turn turns ih =>
    have hfirst := poll_length_pos (hturns turn (List.mem_cons_self ..)) hcount cursor
    have hrest := ih (fun t ht => hturns t (List.mem_cons_of_mem turn ht))
      (poll maxCompletions channelCount turn cursor).2
    rw [polls, List.flatten_cons, List.length_append, List.length_cons]
    omega

/-- A device that has more than anybody asks for. -/
def Visit.busy : Visit := ⟨fun limit => limit, fun _ _ => Int.le_refl _, 0⟩

section

variable (channelCount : Nat) (hmax : maxCompletions ≠ 0) (h32 : maxCompletions < 2 ^ 32)
include hmax h32

/-- With a limit that `completions_` can hold, a busy device ends the call at its first channel. -/
theorem poll_busy_le_one (synthetic cursor : Nat) :
    (poll maxCompletions channelCount ⟨synthetic, fun _ => .busy⟩ cursor).1.length ≤ 1 ∧
      (exhausted maxCompletions (count32 synthetic) →
        (poll maxCompletions channelCount ⟨synthetic, fun _ => .busy⟩ cursor).1 = []) := by
  rcases channelCount with _ | left
  · exact ⟨Nat.zero_le _, fun _ => rfl⟩
  rw [poll, pollLoop]
  dsimp only
  split
  · exact ⟨Nat.zero_le _, fun _ => rfl⟩
  rename_i hbudget
  refine ⟨?_, fun h => absurd h hbudget⟩
  have hleft : ¬maxCompletions ≤ count32 synthetic :=
    fun h => hbudget ((exhausted_iff _).mpr ⟨hmax, h⟩)
  have hused : exhausted maxCompletions (count32 (count32 synthetic +
      (Visit.busy.completed (remaining maxCompletions (count32 synthetic))).toNat +
      Visit.busy.retryErrors)) := by
    rw [exhausted_iff, remaining, if_neg hmax, if_neg hleft]
    refine ⟨hmax, ?_⟩
    have hsum : count32 synthetic + (((maxCompletions - count32 synthetic : Nat) : Int)).toNat +
        0 = maxCompletions := by
      rw [Int.toNat_natCast]
      omega
    show maxCompletions ≤ count32 _
    exact Nat.le_of_eq (by rw [Visit.busy, hsum, count32, Nat.mod_eq_of_lt h32])
  rcases left with _ | left
  · simp [pollLoop]
  rw [pollLoop]
  rw [if_pos hused]
  simp

theorem polls_busy_le (synthetics : List Nat) (cursor : Nat) :
    (polls maxCompletions channelCount (synthetics.map fun k => ⟨k, fun _ => .busy⟩)
      cursor).flatten.length ≤
      synthetics.countP fun k => !decide (exhausted maxCompletions (count32 k)) := by
  induction synthetics generalizing cursor with
  | nil => exact Nat.le_refl 0
  | cons k synthetics ih =>
    obtain ⟨hone, hnone⟩ := poll_busy_le_one channelCount hmax h32 k cursor
    rw [List.map_cons, polls, List.flatten_cons, List.length_append, List.countP_cons]
    have hrest := ih (poll maxCompletions channelCount ⟨k, fun _ => .busy⟩ cursor).2
    by_cases hk : exhausted maxCompletions (count32 k)
    · rw [hnone hk]
      simp only [hk, List.length_nil, decide_true, Bool.not_true, Bool.false_eq_true, if_false]
      omega
    simp only [hk, decide_false, Bool.not_false, if_true]
    omega

end

/-- Every channel is processed by calls that find these synthetic completions, whatever the devices
    deliver and wherever the cursor is. -/
def Reaches (maxCompletions channelCount : Nat) (synthetics : List Nat) : Prop :=
  ∀ turns : List Turn, turns.map Turn.synthetic = synthetics →
    ∀ cursor < channelCount, ∀ channel < channelCount,
      channel ∈ (polls maxCompletions channelCount turns cursor).flatten

variable {synthetics : List Nat}

theorem reaches_of_budget (hlength : synthetics.length = channelCount)
    (hbudget : ∀ k ∈ synthetics, ¬exhausted maxCompletions (count32 k)) :
    Reaches maxCompletions channelCount synthetics := by
  rintro turns rfl cursor hcursor channel hchannel
  obtain ⟨m, hm⟩ := polls_cyclic maxCompletions turns (Nat.mod_eq_of_lt hcursor)
  have hturns : ∀ turn ∈ turns, ¬exhausted maxCompletions (count32 turn.synthetic) :=
    fun turn ht => hbudget _ (List.mem_map_of_mem ht)
  have hpos : 0 < channelCount := by omega
  have hlen := polls_length_ge hturns hpos cursor
  rw [hm, length_cyclic] at hlen
  rw [List.length_map] at hlength
  rw [hm]
  exact mem_cyclic hcursor (by omega) hchannel

theorem budget_of_reaches (h32 : maxCompletions < 2 ^ 32)
    (hlength : synthetics.length = channelCount)
    (hreaches : Reaches maxCompletions channelCount synthetics) :
    ∀ k ∈ synthetics, ¬exhausted maxCompletions (count32 k) := by
  intro k hk hexhausted
  have hmax : maxCompletions ≠ 0 := hexhausted.1
  have hpos : 0 < channelCount := by
    rw [← hlength]
    exact List.length_pos_of_mem hk
  -- with busy devices the calls process fewer channels than there are
  have hlt : (synthetics.countP fun k => !decide (exhausted maxCompletions (count32 k))) <
      synthetics.length := by
    refine Nat.lt_of_le_of_ne List.countP_le_length fun heq => ?_
    have hall := List.countP_eq_length.mp heq k hk
    simp [hexhausted] at hall
  have hle := polls_busy_le channelCount hmax h32 synthetics 0
  obtain ⟨m, hm⟩ := polls_cyclic maxCompletions (synthetics.map fun k => ⟨k, fun _ => .busy⟩)
    (Nat.zero_mod channelCount)
  rw [hm, length_cyclic] at hle
  have hmap : (synthetics.map fun k => (⟨k, fun _ => .busy⟩ : Turn)).map Turn.synthetic =
      synthetics := by
    rw [List.map_map]
    exact List.map_id _
  have hmem := hreaches _ hmap 0 hpos ((0 + m) % channelCount) (Nat.mod_lt _ hpos)
  rw [hm] at hmem
  exact next_not_mem_cyclic (by omega) hmem

/-- **When every queue pair is polled**: as many calls as there are channels process each of them,
    for all that devices may deliver, exactly when there is no limit or no call finds its whole
    budget used by synthetic completions.  In every case the order is cyclic. -/
theorem polls_reach_iff (maxCompletions channelCount : Nat) (h32 : maxCompletions < 2 ^ 32)
    (synthetics : List Nat) (hlength : synthetics.length = channelCount) :
    (Reaches maxCompletions channelCount synthetics ↔
      maxCompletions = 0 ∨ ∀ k ∈ synthetics, k % 2 ^ 32 < maxCompletions) ∧
    ∀ (turns : List Turn), ∀ cursor < channelCount, ∃ m,
      (polls maxCompletions channelCount turns cursor).flatten = cyclic channelCount cursor m := by
  refine ⟨?_, fun turns cursor hcursor => polls_cyclic _ turns (Nat.mod_eq_of_lt hcursor)⟩
  have hiff : Reaches maxCompletions channelCount synthetics ↔
      ∀ k ∈ synthetics, ¬exhausted maxCompletions (count32 k) :=
    ⟨budget_of_reaches h32 hlength, reaches_of_budget hlength⟩
  rw [hiff]
  simp only [exhausted_iff, count32, not_and_or, not_not, Nat.not_le]
  by_cases hmax : maxCompletions = 0
  · simp [hmax]
  · simp [hmax]

theorem polls_reach_iff_two : Reaches 3 2 [0, 2] :=
  (polls_reach_iff 3 2 (by decide) [0, 2] rfl).1.mpr (.inr (by decide))

/-- One channel, a limit of one, and one synthetic completion: the call processes no channel. -/
theorem poll_starved : ¬Reaches 1 1 [1] ∧ polls 1 1 [⟨1, fun _ => .busy⟩] 0 = [[]] := by
  refine ⟨fun h => ?_, by decide⟩
  have hmem := h [⟨1, fun _ => .busy⟩] rfl 0 (by decide) 0 (by decide)
  exact absurd hmem (by decide)

end Bycorf.Spdk
