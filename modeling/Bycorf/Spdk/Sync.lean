/-
  The wait of `SubmitSync`: what is in flight on a controller's queue pair when a call returns.

  1. **Program** — a call submits its command and processes completions until its own is done; a
     write may submit a flush behind it.  A step is a submission, a callback of the driver, or a
     return of `spdk_nvme_qpair_process_completions`, which may fail.
  2. **Result** — `sync_leaves_nothing`: if processing fails only behind the completion, no command
     is left behind.  Otherwise one may be, and its callback runs in another call
     (`sync_leaves_command`).
-/
import Bycorf.Lib.Transition

namespace Bycorf.Spdk.Backend

open Lib

/-- In no call, or waiting for a command of it. -/
inductive SyncPc
  | idle | data | flush
  deriving DecidableEq

/-- A controller's `sync_qpair_`, under its mutex.  A command is a call with what it waits for; as
    bookkeeping, `ran` are the callbacks (the call in progress, the command, its error) and
    `returned` the calls that returned OK, with whether they flush. -/
structure SyncQueue where
  calls : Nat
  flush : Bool
  pc : SyncPc
  inFlight : List (Nat × SyncPc)
  done : Bool
  error : Bool
  ran : List (Nat × (Nat × SyncPc) × Bool)
  returned : List (Nat × Bool)

namespace SyncQueue

/-- A call, a completion of the driver, or the poll loop of the call. -/
inductive Label
  | call (flush accepted : Bool)
  | complete (k : Nat) (error : Bool)
  | processed (accepted : Option Bool)

/-- The command of a call is submitted, or the call fails. -/
def submit (s : SyncQueue) (pc : SyncPc) (accepted : Bool) : SyncQueue :=
  if accepted then
    { s with pc := pc, done := false, error := false, inFlight := s.inFlight ++ [(s.calls, pc)] }
  else { s with pc := .idle }

/-- `SubmitSync` from its first command on: the loop of a command, and what comes behind it. -/
def step (s : SyncQueue) : Label → Option SyncQueue
  | .call flush accepted =>
    if s.pc = .idle then
      some ({ s with calls := s.calls + 1, flush := flush }.submit .data accepted)
    else none
  | .complete k error =>
    -- a callback of `spdk_nvme_qpair_process_completions`, with the record of ITS call
    if s.pc = .idle then none
    else s.inFlight[k]?.map fun c =>
      let s := { s with inFlight := s.inFlight.eraseIdx k, ran := s.ran ++ [(s.calls, c, error)] }
      if c.1 = s.calls then { s with done := true, error := error } else s
  | .processed accepted =>
    if s.pc = .idle then none
    else match accepted with
      | none => some { s with pc := .idle }
      | some accepted => some <|
        if s.done = false then s
        else if s.error then { s with pc := .idle }
        else if s.pc = .data ∧ s.flush then s.submit .flush accepted
        else { s with pc := .idle, returned := s.returned ++ [(s.calls, s.flush)] }

/-- No call has been made. -/
def fresh : SyncQueue := ⟨0, false, .idle, [], false, false, [], []⟩

/-- All sequences of calls. -/
def system : System SyncQueue Label := ⟨(· = fresh), step⟩

/-- Processing fails only behind the completion of the command. -/
def Processes (s : SyncQueue) (a : Label) : Prop := a = .processed none → s.done = true

/-- What is in flight is the command of the current call. -/
structure Inv (s : SyncQueue) : Prop where
  inFlight : s.inFlight = if s.pc = .idle ∨ s.done then [] else [(s.calls, s.pc)]
  own : ∀ r ∈ s.ran, r.1 = r.2.1.1
  completed : s.pc ≠ .idle → s.done → (s.calls, (s.calls, s.pc), s.error) ∈ s.ran
  data : s.pc = .flush → (s.calls, (s.calls, .data), false) ∈ s.ran
  returned : ∀ c ∈ s.returned, (c.1, (c.1, .data), false) ∈ s.ran ∧
    (c.2 → (c.1, (c.1, .flush), false) ∈ s.ran)

variable {s s' : SyncQueue}

/-- Nothing of the last call is left for the next one. -/
theorem Inv.begin (h : Inv s) (hpc : s.pc = .idle) (flush : Bool) :
    Inv { s with calls := s.calls + 1, flush := flush } where
  inFlight := by rw [h.inFlight, if_pos (.inl hpc), if_pos (.inl hpc)]
  own := h.own
  completed hwaits := absurd hpc hwaits
  data hflush := by cases hpc.symm.trans hflush
  returned := h.returned

/-- A command is submitted while none is in flight, the flush only behind the data. -/
theorem Inv.submit (h : Inv s) (hnone : s.inFlight = []) {pc : SyncPc} (hpc : pc ≠ .idle)
    (hdata : pc = .flush → (s.calls, (s.calls, .data), false) ∈ s.ran) (accepted : Bool) :
    Inv (s.submit pc accepted) := by
  cases accepted with
  | true =>
    refine ⟨?_, h.own, nofun, hdata, h.returned⟩
    show s.inFlight ++ [(s.calls, pc)] = _
    rw [hnone]
    exact (if_neg (not_or.mpr ⟨hpc, Bool.false_ne_true⟩)).symm
  | false =>
    refine ⟨?_, h.own, fun hwaits => absurd rfl hwaits, nofun, h.returned⟩
    exact hnone.trans (if_pos (.inl rfl)).symm

/-- The call returns without OK, behind the completion of its command. -/
theorem Inv.fail (h : Inv s) (hdone : s.done = true) : Inv { s with pc := .idle } where
  inFlight := by rw [h.inFlight, if_pos (.inr hdone), if_pos (.inl rfl)]
  own := h.own
  completed hwaits := absurd rfl hwaits
  data := nofun
  returned := h.returned

/-- The only command that can complete is the one of the call that waits. -/
theorem Inv.complete (h : Inv s) (hpc : s.pc ≠ .idle) {k : Nat} {c : Nat × SyncPc}
    (hc : s.inFlight[k]? = some c) (error : Bool) :
    c.1 = s.calls ∧ Inv { s with
      inFlight := s.inFlight.eraseIdx k, ran := s.ran ++ [(s.calls, c, error)]
      done := true, error := error } := by
  have hflight := h.inFlight
  by_cases hdone : s.done = true
  · rw [if_pos (.inr hdone)] at hflight
    rw [hflight] at hc
    cases hc
  rw [if_neg (not_or.mpr ⟨hpc, hdone⟩)] at hflight
  rw [hflight] at hc ⊢
  obtain ⟨rfl, rfl⟩ : k = 0 ∧ c = (s.calls, s.pc) := by
    rcases k with _ | k
    · cases hc
      exact ⟨rfl, rfl⟩
    · cases hc
  refine ⟨rfl, ?_, fun r hr => ?_, fun _ _ => ?_, fun hflush => ?_, fun c hc => ?_⟩
  · exact (if_pos (.inr rfl)).symm
  · rcases List.mem_append.mp hr with hr | hr
    · exact h.own r hr
    · rw [List.mem_singleton.mp hr]
  · exact List.mem_append_right _ (List.mem_singleton_self _)
  · exact List.mem_append_left _ (h.data hflush)
  · obtain ⟨hdata, hflush⟩ := h.returned c hc
    exact ⟨List.mem_append_left _ hdata, fun hf => List.mem_append_left _ (hflush hf)⟩

/-- A call returns OK: its command has completed without error, and so has the data before a
    flush. -/
theorem Inv.succeed (h : Inv s) (hpc : s.pc ≠ .idle) (hdone : s.done = true)
    (herror : s.error = false) (hlast : ¬(s.pc = .data ∧ s.flush = true)) :
    Inv { s with pc := .idle, returned := s.returned ++ [(s.calls, s.flush)] } := by
  have hown := h.completed hpc hdone
  rw [herror] at hown
  refine { h.fail hdone with returned := fun c hc => ?_ }
  rcases List.mem_append.mp hc with hc | hc
  · exact h.returned c hc
  rw [List.mem_singleton.mp hc]
  cases hwait : s.pc with
  | idle => exact absurd hwait hpc
  | data =>
    rw [hwait] at hown
    exact ⟨hown, fun hflush => absurd ⟨hwait, hflush⟩ hlast⟩
  | flush =>
    rw [hwait] at hown
    exact ⟨h.data hwait, fun _ => hown⟩

theorem step_inv {a : Label} (h : Inv s) (ha : Processes s a) (hs : s.step a = some s') :
    Inv s' := by
  cases a with
  | call flush accepted =>
    refine of_guard hs fun hpc => ?_
    have hnone := h.inFlight.trans (if_pos (.inl hpc))
    exact (h.begin hpc flush).submit hnone SyncPc.noConfusion SyncPc.noConfusion accepted
  | complete k error =>
    obtain ⟨hpc, hs⟩ := ite_none_left_eq_some.mp hs
    obtain ⟨c, hc, rfl⟩ := Option.map_eq_some_iff.mp hs
    obtain ⟨hcall, hinv⟩ := h.complete hpc hc error
    dsimp only
    rw [if_pos hcall]
    exact hinv
  | processed accepted =>
    obtain ⟨hpc, hs⟩ := ite_none_left_eq_some.mp hs
    cases accepted with
    | none =>
      cases hs
      exact h.fail (ha rfl)
    | some accepted =>
      cases hs
      split
      · exact h
      rename_i hdone
      have hdone := Bool.not_eq_false _ ▸ hdone
      split
      · exact h.fail hdone
      rename_i herror
      have herror := Bool.not_eq_true _ ▸ herror
      split
      · rename_i hflush
        -- the flush is submitted behind the completion of the data
        have hnone := h.inFlight.trans (if_pos (.inr hdone))
        refine h.submit hnone SyncPc.noConfusion (fun _ => ?_) accepted
        have hown := h.completed hpc hdone
        rwa [herror, hflush.1] at hown
      · rename_i hlast
        exact h.succeed hpc hdone herror hlast

/-- **No command is left behind**, if processing fails only behind the completion: when no call runs
    nothing is in flight, a callback is always for the call that waits, and OK means that the data,
    and the flush if there is one, completed without error. -/
theorem sync_leaves_nothing (h : system.ReachableUnder Processes s) :
    (s.pc = .idle → s.inFlight = []) ∧ (∀ r ∈ s.ran, r.1 = r.2.1.1) ∧
      ∀ c ∈ s.returned, (c.1, (c.1, .data), false) ∈ s.ran ∧
        (c.2 → (c.1, (c.1, .flush), false) ∈ s.ran) := by
  have hinv : Inv s := by
    refine h.invariant ?_ fun _ _ _ => step_inv
    rintro _ rfl
    constructor <;> simp [fresh]
  refine ⟨fun hpc => ?_, hinv.own, hinv.returned⟩
  rw [hinv.inFlight, if_pos (.inl hpc)]

/-- Processing fails with the command of the first call in flight; its callback runs in the second
    call, with a record and a buffer that are gone. -/
theorem sync_leaves_command : ∃ s, system.Reachable s ∧ s.pc = .idle ∧ s.inFlight = [(1, .data)] ∧
    ∃ s', system.run s [.call false true, .complete 0 false] = some s' ∧
      s'.ran = [(2, (1, .data), false)] :=
  exists_reachable fresh [.call false true, .processed none] rfl ⟨_, rfl, rfl, rfl, _, rfl, rfl⟩

/-- A write with its flush, and a read whose processing fails behind its completion. -/
theorem sync_leaves_nothing_flush : ∃ s ∈ system.run fresh
      [.call true true, .complete 0 false, .processed (some true), .complete 0 false,
        .processed (some true), .call false true, .complete 0 false, .processed none],
    s.returned = [(1, true)] ∧ s.ran = [(1, (1, .data), false), (1, (1, .flush), false),
      (2, (2, .data), false)] ∧ (s.pc = .idle → s.inFlight = []) :=
  ⟨⟨2, false, .idle, [], true, false, [(1, (1, .data), false), (1, (1, .flush), false),
      (2, (2, .data), false)], [(1, true)]⟩, rfl, rfl, rfl,
    (sync_leaves_nothing (.run (.init rfl)
      [.call true true, .complete 0 false, .processed (some true), .complete 0 false,
        .processed (some true), .call false true, .complete 0 false, .processed none]
      (by simp [System.Follows, Processes, system, step, submit, fresh]) rfl)).1⟩

end SyncQueue

end Bycorf.Spdk.Backend
