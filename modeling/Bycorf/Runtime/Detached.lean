/-
  The registry of detached tasks.

  1. **Program** — `RegisterDetached`, `ForgetDetached` and `DestroyDetachedTasks`, with the index
     that the promise of each frame keeps.  A frame is registered once at a time, as `Spawn` does
     it, and a frame at the address of a destroyed one has a new promise.  The list of background
     tasks is left out.
  2. **Result** (`reachable_indexed`) — registry and indices agree while at most `2^32 - 1` frames
     are registered.  Behind that the index wraps (`index_wraps`).
-/
import Bycorf.Lib.Transition
import Mathlib.Data.List.Nodup

namespace Bycorf.Runtime

open Lib Function

/-- The address of a coroutine frame. -/
abbrev Frame := Nat

/-- `promise_type::kNotDetached`. -/
def kNotDetached : UInt32 := 0xffffffff

/-- `detached_tasks_`, with the index that each promise keeps. -/
structure DetachedTasks where
  tasks : List Frame
  index : Frame → UInt32
  registered : Frame → Bool       -- registered, and neither forgotten nor destroyed since

namespace DetachedTasks

def fresh : DetachedTasks := ⟨[], fun _ => kNotDetached, fun _ => false⟩

/-- `RegisterDetached`: the frame goes to the end. -/
def registerDetached (s : DetachedTasks) (frame : Frame) : DetachedTasks where
  index := update s.index frame (UInt32.ofNat s.tasks.length)
  tasks := s.tasks ++ [frame]
  registered := update s.registered frame true

/-- The last element of the registry moves to the place of the forgotten one. -/
def fill (tasks : List Frame) (i : Nat) : List Frame :=
  (tasks.set i (tasks.getLast?.getD 0)).dropLast

/-- `ForgetDetached`: the last frame takes the place of the one that goes. -/
def forgetDetached (s : DetachedTasks) : Option Frame → DetachedTasks
  | none => s
  | some frame =>
    let i := s.index frame
    let s := { s with registered := update s.registered frame false }
    if i = kNotDetached then s
    else
      let tasks := fill s.tasks i.toNat
      let index := update s.index frame kNotDetached
      { s with
        tasks := tasks
        index := if i.toNat ≠ tasks.length then update index (tasks.getD i.toNat 0) i else index }

/-- The calls of `handle.destroy()`, and what is left. -/
def destroyDetachedTasks (s : DetachedTasks) : List Frame × DetachedTasks :=
  let index := fun frame => if frame ∈ s.tasks then kNotDetached else s.index frame
  (s.tasks, ⟨[], index, fun _ => false⟩)

/-- A task begins, ends, or all that are left are destroyed. -/
inductive Label where
  | registerDetached (frame : Frame)
  | forgetDetached (handle : Option Frame)
  | destroyDetachedTasks

/-- One call; a frame is registered once. -/
def step (s : DetachedTasks) : Label → Option DetachedTasks
  | .registerDetached frame =>
    if s.registered frame = false then some (s.registerDetached frame) else none
  | .forgetDetached handle => some (s.forgetDetached handle)
  | .destroyDetachedTasks => some s.destroyDetachedTasks.2

/-- All sequences of these. -/
def system : System DetachedTasks Label := ⟨(· = fresh), step⟩

/-- There is an index left for the frame. -/
def fits (s : DetachedTasks) : Label → Bool
  | .registerDetached _ => s.tasks.length < kNotDetached.toNat
  | _ => true

/-- The registry and the indices agree. -/
structure Inv (s : DetachedTasks) : Prop where
  small : s.tasks.length ≤ kNotDetached.toNat
  mem : ∀ frame, frame ∈ s.tasks ↔ s.registered frame = true
  index : ∀ i frame, s.tasks[i]? = some frame → (s.index frame).toNat = i
  none : ∀ frame, s.registered frame = false → s.index frame = kNotDetached

variable {s s' : DetachedTasks} {a : Label} {frame : Frame}

/-- No frame stands twice: both places would be its index. -/
theorem Inv.nodup (h : Inv s) : s.tasks.Nodup := by
  rw [List.nodup_iff_getElem?_ne_getElem?]
  intro i j hij hj heq
  obtain ⟨frame, hframe⟩ : ∃ frame, s.tasks[j]? = some frame := ⟨_, List.getElem?_eq_getElem hj⟩
  have := h.index j frame hframe
  have := h.index i frame (heq.trans hframe)
  omega

theorem register_inv (h : Inv s) (hfree : s.registered frame = false)
    (hfits : s.tasks.length < kNotDetached.toNat) : Inv (s.registerDetached frame) := by
  have hindex : (UInt32.ofNat s.tasks.length).toNat = s.tasks.length :=
    UInt32.toNat_ofNat_of_lt' (Nat.lt_trans hfits kNotDetached.toNat_lt)
  obtain ⟨small, mem, index, none⟩ := h
  constructor <;> simp only [registerDetached, update]
  · rw [length_append]
    exact hfits
  all_goals grind

/-- What stands where after the last element has filled the hole. -/
theorem getElem?_fill {l : List Frame} {i : Nat} (hi : i < l.length) (j : Nat) : (fill l i)[j]? =
    if j + 1 < l.length then (if j = i then l[l.length - 1]? else l[j]?) else none := by
  unfold fill
  grind

/-- A registered frame stands at its index. -/
theorem Inv.at_index (h : Inv s) (hreg : s.registered frame = true) :
    s.tasks[(s.index frame).toNat]? = some frame ∧ s.index frame ≠ kNotDetached := by
  obtain ⟨i, hi⟩ := List.mem_iff_getElem?.mp ((h.mem frame).mpr hreg)
  have hlt := (List.getElem?_eq_some_iff.mp hi).1
  have hindex := h.index i frame hi
  refine ⟨hindex ▸ hi, fun hnone => ?_⟩
  rw [hnone] at hindex
  have := h.small
  omega

theorem forget_inv (h : Inv s) (frame : Frame) : Inv (s.forgetDetached (some frame)) := by
  cases hreg : s.registered frame
  · rw [forgetDetached, h.none frame hreg, if_pos rfl, ← hreg, update_eq_self]
    exact h
  obtain ⟨hat, hsome⟩ := h.at_index hreg
  obtain ⟨small, mem, index, none⟩ := h
  have hfill := getElem?_fill (List.getElem?_eq_some_iff.mp hat).1
  have hlen : (fill s.tasks (s.index frame).toNat).length = s.tasks.length - 1 := by simp [fill]
  -- the frame is gone, and it stood nowhere else
  have hmem : ∀ f, f ∈ fill s.tasks (s.index frame).toNat ↔ f ∈ s.tasks ∧ f ≠ frame := by
    grind [List.mem_iff_getElem?]
  simp only [forgetDetached, if_neg hsome]
  constructor <;> simp only [update]
  · omega
  all_goals grind

theorem step_inv (h : Inv s) (hfits : s.fits a) (hs : s.step a = some s') : Inv s' := by
  cases a with
  | registerDetached frame =>
    exact of_guard hs fun hfree => register_inv h hfree (of_decide_eq_true hfits)
  | forgetDetached handle =>
    cases hs
    cases handle with
    | none => exact h
    | some frame => exact forget_inv h frame
  | destroyDetachedTasks =>
    cases hs
    refine ⟨by simp [destroyDetachedTasks], by simp [destroyDetachedTasks], nofun, ?_⟩
    intro frame _
    show (if frame ∈ s.tasks then _ else _) = _
    split
    · rfl
    · next hout => exact h.none frame (by simpa [h.mem] using hout)

/-- **The registry stays indexed**: a registered frame stands in it once, at its index, and shutdown
    destroys it once. -/
theorem reachable_indexed (h : system.ReachableUnder (fits · ·) s) :
    (∀ frame, s.tasks.count frame = if s.registered frame then 1 else 0) ∧
    (∀ i frame, s.tasks[i]? = some frame → (s.index frame).toNat = i) ∧
    (∀ frame, s.registered frame = false → s.index frame = kNotDetached) ∧
    ∀ frame, s.destroyDetachedTasks.1.count frame = if s.registered frame then 1 else 0 := by
  have hinv : Inv s := by
    refine h.invariant ?_ fun _ _ _ => step_inv
    rintro _ rfl
    constructor <;> simp [fresh]
  have hcount : ∀ frame, s.tasks.count frame = if s.registered frame then 1 else 0 := by
    simp only [hinv.nodup.count, hinv.mem, implies_true]
  exact ⟨hcount, hinv.index, hinv.none, hcount⟩

theorem reachable_indexed_forget : ∃ s, system.ReachableUnder (fits · ·) s ∧ s.tasks = [2] ∧
    s.index 2 = 0 ∧ s.destroyDetachedTasks.1.count 2 = 1 := by
  have h : system.ReachableUnder (fits · ·) _ := System.ReachableUnder.run (.init rfl)
    [.registerDetached 1, .registerDetached 2, .forgetDetached (some 1)] (by decide) rfl
  exact ⟨_, h, rfl, rfl, (reachable_indexed h).2.2.2 2⟩

theorem exists_registered (n : Nat) : ∃ s, system.Reachable s ∧ s.tasks = List.range n ∧
    (∀ frame ≥ n, s.registered frame = false) ∧
    ∀ frame, frame + 1 = n → s.index frame = UInt32.ofNat frame := by
  induction n with
  | zero => exact ⟨fresh, .init rfl, rfl, fun _ _ => rfl, nofun⟩
  | succ n ih =>
    obtain ⟨s, hs, htasks, hfree, -⟩ := ih
    have hstep : system.Reachable (s.registerDetached n) :=
      hs.step (a := .registerDetached n) (if_pos (hfree n (Nat.le_refl n)))
    refine ⟨s.registerDetached n, hstep, ?_, fun frame hge => ?_, ?_⟩
    · simp [registerDetached, htasks, List.range_succ]
    · exact (update_of_ne (Nat.ne_of_gt hge) ..).trans (hfree frame (Nat.le_of_lt hge))
    · simp [registerDetached, htasks]

/-- The index of the frame at place `2^32` is zero. -/
theorem index_wraps : ∃ s, system.Reachable s ∧
    ∃ i frame, s.tasks[i]? = some frame ∧ (s.index frame).toNat ≠ i := by
  obtain ⟨s, hs, htasks, -, hindex⟩ := exists_registered (UInt32.size + 1)
  refine ⟨s, hs, UInt32.size, UInt32.size, ?_, ?_⟩
  · rw [htasks, List.getElem?_range (Nat.lt_succ_self _)]
  · rw [hindex UInt32.size rfl]
    decide

end DetachedTasks

end Bycorf.Runtime
