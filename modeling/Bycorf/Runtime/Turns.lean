/-
  How the two queues of a class take turns: `DrainReadyUntil` and `DrainBackgroundUntil`.

  1. **Program** — a class of tasks has a queue of coroutines that are ready and one of work that
     other workers sent.  EVERY dispatch toggles the turn flag of the class, and between two of them
     anything may be added.
  2. **Result** (`shared_fairly`) — the queues alternate while both have items, so an item waits for
     at most twice as many dispatches as there are items ahead of it.
  3. **Link** (`Round.pop_shared`) — the slices of a round dispatch this way.
-/
import Bycorf.Runtime.RunOnce

namespace Bycorf.Runtime

open Lib

/-- The queues of one class. -/
structure Shared where
  ready : List Nat
  remote : List Nat
  turn : Bool

namespace Shared

variable {s : Shared} {b : Bool} {x : Nat}

/-- One of the two queues; `true` is the remote one. -/
def queue (s : Shared) (b : Bool) : List Nat := if b then s.remote else s.ready

/-- `run_remote`. -/
def runRemote (s : Shared) : Bool := !s.remote.isEmpty && (s.ready.isEmpty || s.turn)

/-- One turn of the loop: which queue it serves, the item, and what is left. -/
def dispatch (s : Shared) : Option ((Bool × Nat) × Shared) :=
  match s.queue s.runRemote with
  | [] => none
  | x :: rest =>
    some ((s.runRemote, x), if s.runRemote then { s with remote := rest, turn := !s.turn }
      else { s with ready := rest, turn := !s.turn })

/-- Items are added to both. -/
def enqueue (ready remote : List Nat) (s : Shared) : Shared :=
  { s with ready := s.ready ++ ready, remote := s.remote ++ remote }

/-- A dispatch, or what is added between two. -/
inductive Event where
  | dispatch
  | enqueue (ready remote : List Nat)

/-- What a run dispatches. -/
def served : Shared → List Event → List (Bool × Nat)
  | _, [] => []
  | s, .enqueue ready remote :: rest => served (s.enqueue ready remote) rest
  | s, .dispatch :: rest =>
    match s.dispatch with
    | none => served s rest
    | some (item, s') => item :: served s' rest

/-- A queue with items is passed over only when it is the other one's turn. -/
theorem turn_of_passed (hne : s.queue b ≠ []) (h : s.runRemote ≠ b) : s.turn = !b := by
  cases b <;> simp_all [queue, runRemote]

/-- How many dispatches an item with `j` ahead of it waits for at most. -/
def wait (s : Shared) (b : Bool) (j : Nat) : Nat := if s.turn = b then 2 * j + 1 else 2 * j + 2

theorem mem_take_cons {item y : Bool × Nat} {l : List (Bool × Nat)} {n m : Nat} (hnm : n + 1 ≤ m)
    (h : item ∈ l.take n) : item ∈ (y :: l).take m := by
  rw [List.take_cons (by omega)]
  exact mem_cons_of_mem _ (List.take_subset_take_left l (by omega) h)

theorem served_within : ∀ {events : List Event} {s : Shared} {j : Nat},
    (s.queue b)[j]? = some x → s.wait b j ≤ (s.served events).length →
      (b, x) ∈ (s.served events).take (s.wait b j)
  | [], s, j, _, hlen => by
    unfold wait at hlen
    grind [served]
  | .enqueue ready remote :: rest, s, j, hx, hlen => by
    refine served_within (s := s.enqueue ready remote) ?_ hlen
    cases b <;> grind [queue, enqueue]
  | .dispatch :: rest, s, j, hx, hlen => by
    have hne : s.queue b ≠ [] := by grind
    rcases hq : s.queue s.runRemote with _ | ⟨y, works⟩
    · exact absurd hq (by cases b <;> grind [queue, runRemote])
    simp only [served, dispatch, hq] at hlen ⊢
    -- the turn flag goes over to the queue that was passed over
    by_cases hb : s.runRemote = b
    · cases j with
      | zero => grind [wait]
      | succ j =>
        refine mem_take_cons ?_ (served_within (j := j) ?_ ?_)
        all_goals grind [wait, queue]
    have hturn := turn_of_passed hne hb
    refine mem_take_cons ?_ (served_within (j := j) ?_ ?_)
    all_goals grind [wait, queue]

/-- **The queues are served fairly.**  While both queues have items, successive dispatches
    alternate, whatever was added between them.  An item with `k` items ahead of it in its queue is
    among the next `2k + 2` dispatches. -/
theorem shared_fairly (s : Shared) (events : List Event) :
    (∀ item s' ready remote item' t, s.ready ≠ [] → s.remote ≠ [] →
      s.dispatch = some (item, s') → s'.ready ++ ready ≠ [] → s'.remote ++ remote ≠ [] →
        (s'.enqueue ready remote).dispatch = some (item', t) → item'.1 = !item.1) ∧
    ∀ b k x, (s.queue b)[k]? = some x → 2 * k + 2 ≤ (s.served events).length →
      (b, x) ∈ (s.served events).take (2 * k + 2) := by
  constructor
  · intros
    grind [dispatch, queue, runRemote, enqueue]
  · intro b k x hx hlen
    have hwait : s.wait b k ≤ 2 * k + 2 := by grind [wait]
    exact List.take_subset_take_left _ hwait (served_within hx (Nat.le_trans hwait hlen))

theorem shared_fairly_two :
    (false, 1) ∈ (served ⟨[1], [7], true⟩ [.dispatch, .enqueue [] [8], .dispatch]).take 2 :=
  (shared_fairly ⟨[1], [7], true⟩ _).2 false 0 1 rfl (by decide)

end Shared

/-- The queues of the class that a slice runs. -/
def Round.shared (s : Round) : Slice → Shared
  | .background => ⟨s.backgroundReady, s.backgroundRemoteWork, s.backgroundRemoteTurn⟩
  | _ => ⟨s.ready, s.foregroundRemoteWork, s.foregroundRemoteTurn⟩

/-- A slice of the round takes its turns this way. -/
theorem Round.pop_shared (s : Round) (k : Slice) :
    (s.pop k).map (Round.shared · k) = (s.shared k).dispatch.map Prod.snd := by
  cases k <;> simp only [pop, popForeground, popBackground, shared, Shared.dispatch, Shared.queue,
    Shared.runRemote]
  all_goals grind

end Bycorf.Runtime
