/-
  `Yield`: does a coroutine that yields find the event loop polled when it is resumed?

  `EnqueueNext` puts it on a queue of its own, and `MergeDeferred` moves that queue behind the ready
  one.  A round merges TWICE if the worker polls its storage and has the extra foreground slice: in
  front of that slice and behind `PollStorage`, with no poll of the network in between.
-/
import Bycorf.Runtime.Parking

namespace Bycorf.Runtime

open Lib IoUring Net

/-- How far the worker is on the way from a slice to the next merge: before `DrainCrossCore` has
    returned, in the `Network::Poll` that follows it, or behind that. -/
def RoundPc.region : RoundPc → Nat
  | .poll .round | .poll .busy => 1
  | .packets .round | .packets .busy | .sockets .round | .sockets .busy => 2
  | .prePoll | .storage _ | .slice .prePoll _ => 2
  | .user back => back.region
  | _ => 0

namespace Round

variable {L : Liburing Tag} {s s' : Round} {a : Label}

/-- What a step does to the region. -/
def Advances (s s' : Round) (a : Label) : Prop :=
  s'.pc.region ≤ s.pc.region ∨ a = .drained ∧ s'.pc.region ≤ 1 ∨ a = .polled ∧ s.pc.region = 1

open RoundPc (poll region slice sockets)

theorem region_poll (v : Visit) : (poll v).region ≤ 1 := by
  cases v <;> decide

theorem region_sockets (v : Visit) : (sockets v).region = (RoundPc.packets v).region := by
  cases v <;> rfl

theorem region_afterPoll (v : Visit) : (afterPoll v).region ≤ (sockets v).region := by
  cases v <;> decide

theorem region_afterSlice (k : Slice) (resumed : Bool) :
    (afterSlice k).region ≤ (slice k resumed).region := by
  cases k <;> exact Nat.le_refl _

theorem stepDpdk_region (hs : s.stepDpdk a = some s') : s'.pc.region ≤ s.pc.region := by
  cases a <;> simp only [stepDpdk, reduceCtorEq] at hs <;>
    grind [region_sockets, region_afterPoll, region]

theorem enterPoll_pc {v : Visit} (hs : s.enterPoll L v = some s') : s'.pc = .poll v := by
  obtain ⟨net, -, rfl⟩ := map_eq_some_iff.mp hs
  rfl

theorem waitDpdk_region {enabled : Bool} {d : DpdkNet} (hs : s.waitDpdk L enabled d = some s') :
    s'.pc.region = 0 := by
  simp only [waitDpdk] at hs
  repeat' split at hs
  all_goals first
    | cases hs; rfl
    | rw [enterPoll_pc hs]; rfl

theorem recheck_region (count : Nat) (rc : Int) (due : Bool) (d : DpdkNet) :
    (s.recheck count rc due d).pc.region = 0 := by
  unfold recheck waitKernel
  grind [region]

theorem stepPark_region (hs : s.stepPark L a = some s') : s'.pc.region ≤ s.pc.region := by
  cases a with
  | wait enabled =>
    obtain ⟨_, hs⟩ := ite_none_right_eq_some.mp hs
    split at hs
    · grind [waitKernel, region]
    rw [waitDpdk_region hs]
    exact Nat.zero_le _
  | recheck count rc due =>
    simp only [stepPark] at hs
    grind [recheck_region]
  | wake stopping now =>
    obtain ⟨_, hs⟩ := ite_none_right_eq_some.mp hs
    obtain ⟨net, _, rfl⟩ := map_eq_some_iff.mp hs
    exact Nat.zero_le _
  | idle | closeIdle | swept | cas | expire | fail =>
    simp only [stepPark] at hs
    grind [region]
  | _ =>
    simp only [stepPark] at hs
    exact stepDpdk_region hs

theorem step_advances (h : Inv s) (hs : s.step L a = some s') : Advances s s' a := by
  cases a with
  | kernel a =>
    obtain ⟨_, hs⟩ := ite_none_right_eq_some.mp hs
    obtain ⟨net, _, rfl⟩ := map_eq_some_iff.mp hs
    exact .inl (Nat.le_refl _)
  | lanes rx tx fabricReady =>
    obtain ⟨d, _, rfl⟩ := map_eq_some_iff.mp hs
    exact .inl (Nat.le_refl _)
  | app a =>
    simp only [step] at hs
    split at hs
    · exact .inl (Nat.le_of_eq (congrArg region (appStep_frame h hs).2.2))
    · cases hs
  | drained =>
    simp only [step, drained] at hs
    split at hs
    · split at hs
      · grind [Advances, region]
      · exact .inr (.inl ⟨rfl, enterPoll_pc hs ▸ region_poll _⟩)
    · cases hs
  | poll a =>
    simp only [step, pollTurn] at hs
    split at hs
    · obtain ⟨_, hs⟩ := ite_none_right_eq_some.mp hs
      obtain ⟨net, _, rfl⟩ := map_eq_some_iff.mp hs
      grind [Advances, region]
    · cases hs
  | polled =>
    simp only [step] at hs
    split at hs
    · next v hpc =>
      refine of_guard hs fun _ => ?_
      rw [Advances, hpc]
      cases v with
      | round | busy => exact .inr (.inr ⟨rfl, rfl⟩)
      | park | wake =>
        refine .inl ?_
        split <;> exact Nat.le_refl 0
    · cases hs
  | resume =>
    simp only [step] at hs
    split at hs
    · next k _ hpc =>
      obtain ⟨t, _, rfl⟩ := map_eq_some_iff.mp hs
      rw [Advances, hpc]
      cases k <;> exact .inl (Nat.le_refl _)
    · cases hs
  | begin | back | mail | prePoll | storageWork | storageDone | deadline | background | flush
  | settle | turn | turnsOver =>
    simp only [step, polledStorage, flushed, settle] at hs
    grind [Advances, region, region_afterSlice]
  | _ =>
    simp only [step] at hs
    exact .inl (stepPark_region hs)

/-- The coroutine that a slice resumes next; nothing if it is the turn of remote work. -/
def resumes (s : Round) : Slice → Option Nat
  | .background =>
    if s.backgroundRemoteWork ≠ [] ∧ (s.backgroundReady = [] ∨ s.backgroundRemoteTurn) then none
    else s.backgroundReady.head?
  | _ =>
    if s.foregroundRemoteWork ≠ [] ∧ (s.ready = [] ∨ s.foregroundRemoteTurn) then none
    else s.ready.head?

/-- The coroutine waits for nothing: only a merge puts it on a ready queue. -/
def Deferred (L : Liburing Tag) (handle : Nat) (s : Round) (a : Label) : Prop :=
  a ≠ .prePoll → a ≠ .storageDone → ∀ s' ∈ s.step L a,
    handle ∈ s'.ready ++ s'.backgroundReady → handle ∈ s.ready ++ s.backgroundReady

/-- A coroutine that yields in a slice `k` is resumed only after `DrainCrossCore` and the `Poll` of
    the backend have been called and have returned. -/
def YieldReturns (L : Liburing Tag) (k : Slice) : Prop :=
  ∀ s handle resumed labels s' k' resumed', (system L).Reachable s →
    s.pc = .user (.slice k resumed) → handle ∉ s.ready ++ s.backgroundReady →
    (system L).Follows (Deferred L handle) (s.enqueueNext handle) labels →
    (system L).run (s.enqueueNext handle) labels = some s' →
    s'.pc = .slice k' resumed' → s'.resumes k' = some handle →
    .drained ∈ labels ∧ .polled ∈ labels

variable {handle : Nat}

theorem mem_of_resumes {k : Slice} (h : s.resumes k = some handle) :
    handle ∈ s.ready ++ s.backgroundReady := by
  unfold resumes at h
  grind [List.mem_of_mem_head?]

theorem enqueueNext_frame (s : Round) (handle : Nat) :
    (s.enqueueNext handle).pc = s.pc ∧ (s.enqueueNext handle).ready = s.ready ∧
      (s.enqueueNext handle).backgroundReady = s.backgroundReady := by
  unfold enqueueNext
  split <;> exact ⟨rfl, rfl, rfl⟩

/-- A merge is behind `Poll`. -/
theorem merge_region (hs : s.step L a = some s') (ha : a = .prePoll ∨ a = .storageDone) :
    s.pc.region = 2 := by
  rcases ha with rfl | rfl
  · obtain ⟨hpc, _⟩ := ite_none_right_eq_some.mp hs
    rw [hpc]
    rfl
  simp only [step] at hs
  split at hs
  · next hpc =>
    rw [hpc]
    rfl
  · cases hs

/-- **The way to the merge**: `done` are the labels so far. -/
theorem run_returns {labels : List Label} (done : List Label) (hreach : (system L).Reachable s)
    (hfollows : (system L).Follows (Deferred L handle) s labels)
    (hrun : (system L).run s labels = some s')
    (h : (.drained ∈ done ∧ .polled ∈ done) ∨ handle ∉ s.ready ++ s.backgroundReady ∧
      (s.pc.region = 0 ∨ .drained ∈ done ∧ s.pc.region = 1)) :
    (.drained ∈ done ++ labels ∧ .polled ∈ done ++ labels) ∨
      handle ∉ s'.ready ++ s'.backgroundReady := by
  induction labels generalizing s done with
  | nil =>
    cases hrun
    rw [append_nil]
    exact h.imp_right And.left
  | cons a labels ih =>
    obtain ⟨t, ht, hrun⟩ := bind_eq_some_iff.mp hrun
    obtain ⟨hok, hfollows⟩ := hfollows
    have hstep : s.step L a = some t := ht
    rw [List.append_cons]
    refine ih (done ++ [a]) (hreach.step ht) (hfollows t ht) hrun ?_
    rcases h with ⟨hd, hp⟩ | ⟨hout, hregion⟩
    · exact .inl ⟨mem_append_left _ hd, mem_append_left _ hp⟩
    -- not behind `Poll`, so this step is not a merge
    have hout' : handle ∉ t.ready ++ t.backgroundReady := by
      intro hin
      refine hout (hok ?_ ?_ t ht hin)
      · rintro rfl
        have := merge_region hstep (.inl rfl)
        omega
      · rintro rfl
        have := merge_region hstep (.inr rfl)
        omega
    rcases step_advances (reachable_inv hreach) hstep with hle | ⟨rfl, hle⟩ | ⟨rfl, hone⟩
    · grind
    · grind
    · grind

/-- **Yielding in another slice than the one in front of `PollStorage`**. -/
theorem yieldReturns_of_ne {k : Slice} (hk : k ≠ .prePoll) : YieldReturns L k := by
  intro s handle resumed labels s' k' resumed' hreach hpc hout hfollows hrun hpc' hresumes
  obtain ⟨hpc₁, hready, hbackground⟩ := enqueueNext_frame s handle
  have hstep : (system L).Reachable (s.enqueueNext handle) := by
    refine hreach.step (a := .app (.enqueueNext handle)) ?_
    show s.step L (.app (.enqueueNext handle)) = _
    simp only [step, hpc]
    rfl
  have hregion : (s.enqueueNext handle).pc.region = 0 := by
    rw [hpc₁, hpc]
    cases k <;> first | rfl | exact absurd rfl hk
  have hends := run_returns [] hstep hfollows hrun
    (.inr ⟨by rw [hready, hbackground]; exact hout, .inl hregion⟩)
  rw [nil_append] at hends
  exact hends.resolve_right (not_not_intro (mem_of_resumes hresumes))

/-- From the slice in front of `PollStorage` straight to the next slice. -/
def shortWay : List Label := [.back, .deadline, .storageDone]

theorem shortWay_resumes
    (hpc : s.pc = .user (.slice .prePoll true)) (hclass : s.backgroundTasks = [])
    (hready : s.ready = []) (hnext : s.nextReady = []) (hwork : s.foregroundRemoteWork = []) :
    (system L).Follows (Deferred L handle) (s.enqueueNext handle) shortWay ∧
      ∃ s', (system L).run (s.enqueueNext handle) shortWay = some s' ∧
        s'.pc = .slice .foreground false ∧ s'.resumes .foreground = some handle := by
  obtain ⟨net, dpdk, tasks, ready, nextReady, work⟩ := s
  dsimp only at hpc hclass hready hnext hwork
  subst hpc hclass hready hnext hwork
  refine ⟨⟨?_, ?_⟩, _, rfl, rfl, rfl⟩
  · rintro - - s' hs hin
    cases hs
    exact hin
  · rintro s' hs
    cases hs
    refine ⟨?_, ?_⟩
    · rintro - - s' hs hin
      cases hs
      exact hin
    · rintro s' hs
      cases hs
      exact ⟨fun _ h => absurd rfl h, fun _ _ => trivial⟩

/-- A round with storage work up to the slice in front of `PollStorage`, and a task that runs. -/
def untilPrePoll : List Label :=
  [.app (.enqueue 7), .app .submitStorage, .back, .begin, .drained] ++ emptyPoll ++
    [.prePoll, .resume]

theorem prePoll_reachable : ∃ s, (system (Liburing.standard Tag)).Reachable s ∧
    s.pc = .user (.slice .prePoll true) ∧ s.backgroundTasks = [] ∧ s.ready = [] ∧
    s.nextReady = [] ∧ s.foregroundRemoteWork = [] ∧ s.backgroundReady = [] := by
  exact exists_reachable (fresh timeoutWorker none true false) untilPrePoll
    ⟨_, _, _, _, _, _, rfl⟩ (by decide +kernel)

/-- **A yield without a poll**: the task yields, and is the next to be resumed. -/
theorem yield_without_poll : ∃ s s', (system (Liburing.standard Tag)).Reachable s ∧
    s.pc = .user (.slice .prePoll true) ∧
    (system (Liburing.standard Tag)).run (s.enqueueNext 7) [.back, .deadline, .storageDone] =
      some s' ∧
    s'.pc = .slice .foreground false ∧ s'.resumes .foreground = some 7 := by
  obtain ⟨s, hreach, hpc, hclass, hready, hnext, hwork, -⟩ := prePoll_reachable
  obtain ⟨-, s', hshort⟩ := shortWay_resumes hpc hclass hready hnext hwork
  exact ⟨s, s', hreach, hpc, hshort⟩

/-- A yield returns to the event loop exactly from the other slices. -/
theorem yield_returns_iff (k : Slice) : (∀ L, YieldReturns L k) ↔ k ≠ .prePoll := by
  refine ⟨?_, fun hk _ => yieldReturns_of_ne hk⟩
  rintro h rfl
  obtain ⟨s, hreach, hpc, hclass, hready, hnext, hwork, hbackground⟩ := prePoll_reachable
  obtain ⟨hfollows, s', hrun, hpc', hresumes⟩ := shortWay_resumes hpc hclass hready hnext hwork
  have hreturned := h _ s 7 true shortWay s' .foreground false hreach hpc
    (by simp [hready, hbackground]) hfollows hrun hpc' hresumes
  simp [shortWay] at hreturned

end Round

end Bycorf.Runtime
