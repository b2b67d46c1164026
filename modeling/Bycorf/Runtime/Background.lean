/-
  The share of the cycles that the background class gets.

  1. **Program** — `RunOnce` with its two counters: the foreground slices, `ShouldRunBackground`,
     the background slice and `MaybeResetRuntimeWindow`.  What a round finds in the queues and how
     long its slices take is given to it.
  2. **Result** (`background_warranted`) — as long as foreground work is left, the background share
     exceeds its weight by one slice at most.
  3. **Link** — a turn of a slice of `Round` takes one item as here (`Round.popForeground_items`),
     and it is this window that answers for its counters (`Round.shouldRunBackground_window`).
-/
import Bycorf.Runtime.RunOnce

namespace Bycorf.Runtime

open Lib

/-- `foreground_runtime_cycles_` and `background_runtime_cycles_`, with what was run as bookkeeping:
    `false` for a foreground dispatch, `true` for a background slice. -/
structure Window where
  foreground : Nat
  background : Nat
  log : List Bool

/-- What a round of `RunOnce` finds and takes. -/
structure RoundCost where
  prePoll : Nat                      -- cycles that the pre-poll slice accounts, 0 without one
  queued : Nat                       -- foreground items before the slice
  turns : List (Nat × Bool)          -- for each dispatch: items it adds, and whether time is up
  foreground : Nat                   -- cycles of the foreground slice
  backgroundQueued : Bool
  background : Nat                   -- cycles of the background slice

/-- `DrainReadyUntil`: how many items it dispatches, and how many it leaves. -/
def drainReadyUntil : Nat → List (Nat × Bool) → Nat × Nat
  | 0, _ => (0, 0)
  | queued + 1, [] => (1, queued)
  | queued + 1, (added, late) :: rest =>
    if late then (1, queued + added)
    else
      let later := drainReadyUntil (queued + added) rest
      (later.1 + 1, later.2)

namespace Window

/-- The cycles of the window. -/
def total (s : Window) : Nat := s.foreground + s.background

/-- `ShouldRunBackground`, with `left` items in the foreground queues. -/
def shouldRunBackground (w left : Nat) (queued : Bool) (s : Window) : Bool :=
  if queued = false then false
  else if left = 0 then true
  else if s.foreground = 0 then true
  else s.background ≤ s.total * w / 100

/-- `MaybeResetRuntimeWindow`. -/
def maybeReset (W : Nat) (s : Window) : Window :=
  if W ≤ s.total ∧ (s.background ≤ s.foreground ∨ 5 * W ≤ s.total) then
    { s with foreground := 0, background := 0 }
  else s

/-- The foreground slices of a round. -/
def runForeground (r : RoundCost) (s : Window) : Window :=
  let resumes := (drainReadyUntil r.queued r.turns).1
  { s with
    foreground := s.foreground + r.prePoll + if resumes = 0 then 0 else r.foreground
    log := s.log ++ List.replicate resumes false }

/-- All slices of a round. -/
def slices (w : Nat) (r : RoundCost) (s : Window) : Window :=
  let s := s.runForeground r
  if s.shouldRunBackground w (drainReadyUntil r.queued r.turns).2 r.backgroundQueued then
    { s with background := s.background + r.background, log := s.log ++ [true] }
  else s

/-- One round: its slices, then the reset. -/
def runOnce (w W : Nat) (s : Window) (r : RoundCost) : Window := (s.slices w r).maybeReset W

end Window

/-- Foreground work is left behind each foreground slice, which takes time, and no background slice
    takes more than `B`. -/
def RoundCost.Busy (B : Nat) (r : RoundCost) : Prop :=
  (drainReadyUntil r.queued r.turns).2 ≠ 0 ∧ 0 < r.foreground ∧ r.background ≤ B

instance (B : Nat) (r : RoundCost) : Decidable (r.Busy B) :=
  inferInstanceAs (Decidable (_ ∧ _))

namespace Window

variable {w W B : Nat} {s : Window} {r : RoundCost}

/-- A slice that leaves work has dispatched some: nothing is added while it does not run. -/
theorem resumes_pos : ∀ {queued : Nat} {turns : List (Nat × Bool)},
    (drainReadyUntil queued turns).2 ≠ 0 → (drainReadyUntil queued turns).1 ≠ 0
  | 0, [], h | 0, _ :: _, h => absurd rfl h
  | queued + 1, [], _ => Nat.one_ne_zero
  | queued + 1, (added, late) :: rest, _ => by
    rw [drainReadyUntil]
    split
    · exact Nat.one_ne_zero
    · exact Nat.succ_ne_zero _

/-- Each background slice comes right behind a foreground dispatch. -/
def Alternates (log : List Bool) : Prop :=
  log[0]? ≠ some true ∧ ∀ k, log[k + 1]? = some true → log[k]? = some false

/-- What holds between two rounds. -/
structure Warranted (w W B : Nat) (s : Window) : Prop where
  share : s.background ≤ s.total * w / 100 + B
  window : s.total ≤ 5 * W
  turns : Alternates s.log

theorem slices_share (h : s.background ≤ s.total * w / 100 + B) (hr : r.Busy B) :
    (s.slices w r).background ≤ (s.slices w r).total * w / 100 + B := by
  obtain ⟨hleft, hcycles, hB⟩ := hr
  have hresumes := resumes_pos hleft
  have hmore : ∀ n m, n ≤ m → n * w / 100 ≤ m * w / 100 := fun n m hle =>
    Nat.div_le_div_right (Nat.mul_le_mul_right w hle)
  unfold slices
  dsimp only
  split
  · next hrun =>
    have hshare : (s.runForeground r).background ≤ (s.runForeground r).total * w / 100 := by
      have hpos : (s.runForeground r).foreground ≠ 0 := by
        simp [runForeground, hresumes, Nat.ne_of_gt hcycles]
      grind [shouldRunBackground]
    have := hmore (s.runForeground r).total ((s.runForeground r).total + r.background) (by omega)
    grind [total]
  have := hmore s.total (s.runForeground r).total (by simp only [total, runForeground]; omega)
  have : (s.runForeground r).background = s.background := rfl
  omega

theorem slices_total :
    (s.slices w r).total ≤ s.total + r.prePoll + r.foreground + r.background := by
  grind [slices, runForeground, total]

theorem slices_log (h : Alternates s.log) (hr : r.Busy B) : Alternates (s.slices w r).log := by
  have hresumes := resumes_pos hr.1
  have hadd : Alternates (s.runForeground r).log := by
    constructor <;> grind [runForeground, Alternates]
  have hlast : (s.runForeground r).log.getLast? = some false := by grind [runForeground]
  unfold slices
  dsimp only
  split
  · constructor <;> grind [Alternates]
  · exact hadd

theorem maybeReset_warranted (hshare : s.background ≤ s.total * w / 100 + B)
    (hturns : Alternates s.log) :
    (s.maybeReset W).Warranted w W B := by
  unfold maybeReset
  split
  · exact ⟨Nat.zero_le _, Nat.zero_le _, hturns⟩
  rename_i hkeep
  refine ⟨hshare, ?_, hturns⟩
  grind

theorem run_warranted : ∀ (rounds : List RoundCost) {s : Window}, s.Warranted w W B →
    (∀ r ∈ rounds, r.Busy B) → (rounds.foldl (runOnce w W) s).Warranted w W B
  | [], _, h, _ => h
  | r :: rounds, _, h, hbusy => by
    have hr := hbusy r mem_cons_self
    exact run_warranted rounds
      (maybeReset_warranted (slices_share h.share hr) (slices_log h.turns hr))
      fun r' hr' => hbusy r' (mem_cons_of_mem _ hr')

/-- **Background work keeps to its warrant.**  After any rounds and in the next one `r`, before the
    window is reset: the share of background work, the foreground dispatches between background
    slices, and the window. -/
theorem background_warranted {rounds : List RoundCost} (hbusy : ∀ r ∈ rounds, r.Busy B)
    (hr : r.Busy B) :
    let s := rounds.foldl (runOnce w W) ⟨0, 0, []⟩
    let s' := s.slices w r
    s.background ≤ s.total * w / 100 + B ∧ s'.background ≤ s'.total * w / 100 + B ∧
      (∀ i j : Nat, i < j → s'.log[i]? = some true → s'.log[j]? = some true →
        ∃ k, i < k ∧ k < j ∧ s'.log[k]? = some false) ∧
      s'.total ≤ 5 * W + (r.prePoll + r.foreground + r.background) := by
  have h := run_warranted (w := w) (W := W) rounds (s := ⟨0, 0, []⟩)
    ⟨Nat.zero_le _, Nat.zero_le _, nofun, nofun⟩ hbusy
  have hturns := slices_log (w := w) h.turns hr
  refine ⟨h.share, slices_share h.share hr, fun i j hij hi hj => ?_, ?_⟩
  · obtain ⟨k, rfl⟩ := Nat.exists_eq_add_of_lt (Nat.zero_lt_of_lt hij)
    have hk := hturns.2 (0 + k) hj
    refine ⟨0 + k, Nat.lt_of_le_of_ne (Nat.le_of_lt_succ hij) ?_, Nat.lt_succ_self _, hk⟩
    rintro rfl
    rw [hk] at hi
    cases hi
  · have := slices_total (s := rounds.foldl (runOnce w W) ⟨0, 0, []⟩) (w := w) (r := r)
    have := h.window
    omega

/-- A tenth for background slices of up to 50 cycles: the second round has none. -/
theorem background_warranted_tenth : let r : RoundCost := ⟨0, 2, [(0, true)], 30, true, 50⟩
    let s := [r].foldl (runOnce 10 100) ⟨0, 0, []⟩
    (s.slices 10 r).log = [false, true, false] ∧ s.background ≤ s.total * 10 / 100 + 50 :=
  ⟨rfl, (background_warranted (r := ⟨0, 2, [(0, true)], 30, true, 50⟩)
    (List.forall_mem_singleton.mpr (by decide)) (by decide)).1⟩

end Window

/-! ## The rounds of a worker -/

namespace Round

/-- The foreground items that a slice may dispatch. -/
def foregroundItems (s : Round) : Nat := s.ready.length + s.foregroundRemoteWork.length

/-- A turn of a foreground slice takes one item, as `drainReadyUntil` counts; it fails with none. -/
theorem popForeground_items (s : Round) :
    s.popForeground.map foregroundItems =
      if s.foregroundItems = 0 then none else some (s.foregroundItems - 1) := by
  unfold popForeground foregroundItems
  cases s.foregroundRemoteWork <;> cases s.ready
  · simp
  · simp
  · simp
  · cases s.foregroundRemoteTurn <;> simp
    omega

/-- The round asks the counters, and gets the answer of the window. -/
theorem shouldRunBackground_window (s : Round) (w : Nat) (c : Window) :
    s.shouldRunBackground (c.foreground = 0 ∨ c.background ≤ c.total * w / 100) =
      c.shouldRunBackground w s.foregroundItems
        (!(s.backgroundReady.isEmpty && s.backgroundRemoteWork.isEmpty)) := by
  have hitems : (s.ready.isEmpty && s.foregroundRemoteWork.isEmpty) =
      decide (s.foregroundItems = 0) := by
    unfold foregroundItems
    cases s.ready <;> cases s.foregroundRemoteWork <;> simp
  unfold Round.shouldRunBackground Window.shouldRunBackground
  rw [hitems]
  cases s.backgroundReady.isEmpty && s.backgroundRemoteWork.isEmpty
  · by_cases hzero : s.foregroundItems = 0
    · simp [hzero]
    · by_cases hfirst : c.foreground = 0 <;> simp [hzero, hfirst]
  · rfl

end Round

end Bycorf.Runtime
