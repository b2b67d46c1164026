/-
  `TcpService` admission: `AcceptLoop`, `StartSession`, `Worker::Spawn` and `RunSession`, and the
  hooks `AdmitConnection` / `OnConnectionClosed` that a service keeps its connection count with.

  1. **Slots** — every connection that `AdmitConnection` let in is a slot.  Its owner changes: the
     accept loop that awaits the hand-over, `StartSession` on the target worker, the unstarted frame
     of `RunSession`, the cleanup object inside it.
  2. **Workers** — each is a thread of its own.  A stop request may arrive at any moment; a worker
     that has left its loop runs nothing any more, and frames are destroyed once ALL workers have
     left.
  3. **Drops** — three hand-overs can destroy the owner before it releases the slot; there the stage
     becomes `dropped` and no hook is called.
  4. **Balance (`hooks_balance_iff`)** — the hook is never called more often than connections were
     admitted; and when everything is over the numbers agree exactly if no step of the run dropped a
     slot.
-/
import Mathlib.Data.List.Basic
import Bycorf.Lib.Transition

namespace Bycorf.Net

open Bycorf.Lib

/-! ## State -/

/-- Who has to release an admitted connection. -/
inductive SlotStage where
  | requested   -- the accept loop awaits `SubmitTo`; `StartSession` has not run
  | checked     -- in `StartSession`, between its stop check and `Spawn`
  | refused     -- `StartSession` returned an error; the accept loop has not gone on yet
  | spawned     -- an unstarted frame of `RunSession`
  | running     -- the frame's cleanup object
  | closed      -- `OnConnectionClosed` has been called
  | dropped     -- the owner is gone and the hook was not called
deriving DecidableEq, Repr

/-- The accept loop still has to hear what became of the slot. -/
def SlotStage.handedOver : SlotStage → Bool
  | .requested | .checked | .refused => true
  | _ => false

/-- An admitted connection: the worker it is for, and who owns its slot now. -/
structure Slot (n : Nat) where
  target : Fin n
  stage : SlotStage
deriving DecidableEq, Repr

/-- Where an `AcceptLoop` is. -/
inductive AcceptPc where
  | top                        -- in front of `while (!worker.stop_requested())`
  | accepting
  | submitting (slot : Nat)    -- awaiting `SubmitTo`
  | returned
  | destroyed
deriving DecidableEq, Repr

/-- The slot whose hand-over the loop awaits. -/
def AcceptPc.awaits : AcceptPc → Option Nat
  | .submitting k => some k
  | _ => none

/-- An accept loop and its worker. -/
structure AcceptLoop (n : Nat) where
  worker : Fin n
  pc : AcceptPc
deriving DecidableEq, Repr

/-- A service on `n` workers. -/
structure Service (n : Nat) where
  stopRequested : Fin n → Bool
  left : Fin n → Bool          -- the worker's `Run` has returned
  loops : List (AcceptLoop n)
  slots : List (Slot n)
  admitted : Nat               -- the calls of `AdmitConnection` that returned true
  closed : Nat                 -- the calls of `OnConnectionClosed`

namespace Service

variable {n : Nat}

/-- One accept loop for each listener, at its start. -/
def fresh (listeners : List (Fin n)) : Service n where
  stopRequested _ := false
  left _ := false
  loops := listeners.map fun w => ⟨w, .top⟩
  slots := []
  admitted := 0
  closed := 0

/-! ## The program -/

def setLoop (l : Nat) (pc : AcceptPc) (s : Service n) : Service n :=
  { s with loops := s.loops.modify l fun loop => { loop with pc := pc } }

def setStage (k : Nat) (stage : SlotStage) (s : Service n) : Service n :=
  { s with slots := s.slots.modify k fun slot => { slot with stage := stage } }

/-- The slot is released by a call of the hook. -/
def onConnectionClosed (k : Nat) (s : Service n) : Service n :=
  { s.setStage k .closed with closed := s.closed + 1 }

/-- `AdmitConnection` returned true: the loop awaits `SubmitTo(target, StartSession)`. -/
def admitConnection (l : Nat) (target : Fin n) (s : Service n) : Service n :=
  { s.setLoop l (.submitting s.slots.length) with
    slots := s.slots ++ [⟨target, .requested⟩]
    admitted := s.admitted + 1 }

/-- `StartSession` up to `AddConnection`; `registered` is whether that gave a connection. -/
def startSession (k : Nat) (target : Fin n) (registered : Bool) (s : Service n) : Service n :=
  if s.stopRequested target then s.setStage k .refused
  else if registered then s.setStage k .checked
  else s.setStage k .refused

/-- `Worker::Spawn(RunSession(…))`, and `StartSession` returns OK: a stopping worker destroys the
    unstarted frame, whose cleanup object does not exist yet. -/
def spawn (k : Nat) (target : Fin n) (s : Service n) : Service n :=
  if s.stopRequested target then s.setStage k .dropped else s.setStage k .spawned

/-- The accept loop goes on with what `StartSession` returned. -/
def reply (l k : Nat) (stage : SlotStage) (s : Service n) : Service n :=
  let s := s.setLoop l .top
  if stage = .refused then s.onConnectionClosed k else s

/-- An accept loop's frame is destroyed; the awaiter and the closure inside it go with it. -/
def destroyLoop (l : Nat) (pc : AcceptPc) (s : Service n) : Service n :=
  let s := s.setLoop l .destroyed
  match pc with
  | .submitting k =>
    match s.slots[k]? with
    | some ⟨_, .requested⟩ => s.setStage k .dropped
    | some ⟨_, .refused⟩ => s.setStage k .dropped
    | _ => s
  | _ => s

/-- The next step of an accept loop, a worker or a session, or a stop request. -/
inductive Label (n : Nat) where
  | acceptTop (l : Nat)
  | acceptFails (l : Nat) (fatal : Bool)
  | reject (l : Nat)
  | admitConnection (l : Nat) (target : Fin n)
  | startSession (k : Nat) (registered : Bool)
  | spawn (k : Nat)
  | reply (l : Nat)
  | runSession (k : Nat)
  | sessionEnds (k : Nat)
  | requestStop (w : Fin n)
  | leave (w : Fin n)
  | destroyLoop (l : Nat)
  | destroySession (k : Nat)

/-- Every worker has left its loop. -/
def allLeft (s : Service n) : Bool := decide (∀ w, s.left w = true)

/-- One step of one thread.  A worker that has left runs nothing. -/
def step (s : Service n) : Label n → Option (Service n)
  | .acceptTop l =>
    s.loops[l]?.bind fun loop =>
      if loop.pc = .top ∧ s.left loop.worker = false then
        some (s.setLoop l (if s.stopRequested loop.worker then .returned else .accepting))
      else none
  | .acceptFails l fatal =>
    s.loops[l]?.bind fun loop =>
      if loop.pc = .accepting ∧ s.left loop.worker = false then
        some (s.setLoop l (if s.stopRequested loop.worker || fatal then .returned else .top))
      else none
  | .reject l =>
    s.loops[l]?.bind fun loop =>
      if loop.pc = .accepting ∧ s.left loop.worker = false then some (s.setLoop l .top) else none
  | .admitConnection l target =>
    s.loops[l]?.bind fun loop =>
      if loop.pc = .accepting ∧ s.left loop.worker = false then some (s.admitConnection l target)
      else none
  | .startSession k registered =>
    s.slots[k]?.bind fun slot =>
      if slot.stage = .requested ∧ s.left slot.target = false then
        some (s.startSession k slot.target registered)
      else none
  | .spawn k =>
    s.slots[k]?.bind fun slot =>
      if slot.stage = .checked ∧ s.left slot.target = false then some (s.spawn k slot.target)
      else none
  | .reply l =>
    s.loops[l]?.bind fun loop =>
      match loop.pc with
      | .submitting k =>
        s.slots[k]?.bind fun slot =>
          if slot.stage ≠ .requested ∧ slot.stage ≠ .checked ∧ s.left loop.worker = false then
            some (s.reply l k slot.stage)
          else none
      | _ => none
  | .runSession k =>
    s.slots[k]?.bind fun slot =>
      if slot.stage = .spawned ∧ s.left slot.target = false then some (s.setStage k .running)
      else none
  | .sessionEnds k =>
    s.slots[k]?.bind fun slot =>
      if slot.stage = .running ∧ s.left slot.target = false then some (s.onConnectionClosed k)
      else none
  | .requestStop w => some { s with stopRequested := Function.update s.stopRequested w true }
  | .leave w =>
    -- after a stop request, or because its ring failed; never inside `StartSession`
    if ∀ slot ∈ s.slots, slot.stage = .checked → slot.target ≠ w then
      some { s with left := Function.update s.left w true }
    else none
  | .destroyLoop l =>
    s.loops[l]?.bind fun loop => if s.allLeft then some (s.destroyLoop l loop.pc) else none
  | .destroySession k =>
    s.slots[k]?.bind fun slot =>
      if s.allLeft = false then none
      else match slot.stage with
        | .spawned => some (s.setStage k .dropped)
        | .running => some (s.onConnectionClosed k)  -- the frame's cleanup object
        | _ => none

/-- All interleavings, with any number of listeners. -/
def system (n : Nat) : System (Service n) (Label n) where
  init s := ∃ listeners, s = fresh listeners
  step := step

/-! ## The invariant -/

/-- The two counters of the hooks, in terms of the slots. -/
structure Inv (s : Service n) : Prop where
  admitted : s.admitted = s.slots.length
  closed : s.closed = s.slots.countP fun slot => slot.stage = .closed
  /-- `StartSession` runs on a worker that has not left. -/
  checked : ∀ slot ∈ s.slots, slot.stage = .checked → s.left slot.target = false
  /-- Every hand-over is awaited. -/
  awaited : ∀ (k : Nat) (slot : Slot n), s.slots[k]? = some slot → slot.stage.handedOver = true →
    ∃ (l : Nat) (loop : AcceptLoop n), s.loops[l]? = some loop ∧ loop.pc = .submitting k

theorem fresh_inv (listeners : List (Fin n)) : (fresh listeners).Inv :=
  ⟨rfl, rfl, fun _ h => by simp [fresh] at h, fun k slot h => by simp [fresh] at h⟩

theorem getElem?_setStage (s : Service n) (k j : Nat) (stage : SlotStage) :
    (s.setStage k stage).slots[j]? =
      if k = j then s.slots[j]?.map (fun slot => { slot with stage := stage })
      else s.slots[j]? := by
  show (s.slots.modify k _)[j]? = _
  rw [List.getElem?_modify]
  by_cases h : k = j
  · simp only [h, if_true]
    rfl
  · simp [h]

variable {s : Service n} {k : Nat} {slot old : Slot n} {stage : SlotStage}

theorem mem_setStage (hk : s.slots[k]? = some old) (hmem : slot ∈ (s.setStage k stage).slots) :
    slot = { old with stage := stage } ∨ slot ∈ s.slots := by
  obtain ⟨j, hj⟩ := List.mem_iff_getElem?.mp hmem
  rw [getElem?_setStage] at hj
  by_cases hkj : k = j
  · rw [if_pos hkj, ← hkj, hk] at hj
    exact .inl (some.inj hj).symm
  rw [if_neg hkj] at hj
  exact .inr (mem_of_getElem? hj)

/-- The number of released slots, after a slot that was not released moves on. -/
theorem countP_setStage (hk : s.slots[k]? = some old)
    (hlive : old.stage ≠ .closed) (stage : SlotStage) :
    (s.setStage k stage).slots.countP (fun slot => slot.stage = .closed) =
      s.slots.countP (fun slot => slot.stage = .closed) + if stage = .closed then 1 else 0 := by
  obtain ⟨hlt, hget⟩ := List.getElem?_eq_some_iff.mp hk
  have hset : (s.setStage k stage).slots = s.slots.set k { old with stage := stage } := by
    show s.slots.modify k _ = _
    rw [List.modify_eq_set_get _ hlt, List.get_eq_getElem, hget]
  rw [hset, List.countP_set hlt, hget]
  simp [hlive]

variable {closed : Nat}

/-- A slot moves on: not into a hand-over, unless it was in one. -/
theorem setStage_inv (h : s.Inv) (hk : s.slots[k]? = some old) (hlive : old.stage ≠ .closed)
    (hover : stage.handedOver = true → old.stage.handedOver = true)
    (hchecked : stage = .checked → s.left old.target = false)
    (hclosed : closed = s.closed + if stage = .closed then 1 else 0) :
    Inv { s.setStage k stage with closed := closed } := by
  refine ⟨?_, ?_, ?_, ?_⟩
  · show s.admitted = (s.slots.modify k _).length
    rw [List.length_modify]
    exact h.admitted
  · show closed = (s.setStage k stage).slots.countP _
    rw [countP_setStage hk hlive stage, hclosed, h.closed]
  · intro slot hmem hstage
    rcases mem_setStage hk hmem with rfl | hmem
    · exact hchecked hstage
    · exact h.checked slot hmem hstage
  · intro j slot hj hhanded
    change (s.setStage k stage).slots[j]? = some slot at hj
    rw [getElem?_setStage] at hj
    by_cases hkj : k = j
    · rw [if_pos hkj, ← hkj, hk] at hj
      cases hj
      obtain ⟨l, loop, hl, hpc⟩ := h.awaited k old hk (hover hhanded)
      exact ⟨l, loop, hl, hkj ▸ hpc⟩
    rw [if_neg hkj] at hj
    exact h.awaited j slot hj hhanded

variable {l : Nat} {loop : AcceptLoop n}

/-- An accept loop moves on: not away from a hand-over. -/
theorem setLoop_inv (h : s.Inv) (hl : s.loops[l]? = some loop) (pc : AcceptPc)
    (hfree : ∀ k slot, loop.pc = .submitting k → s.slots[k]? = some slot →
      slot.stage.handedOver = false) : (s.setLoop l pc).Inv := by
  refine { h with awaited := ?_ }
  intro k slot hk hhanded
  obtain ⟨j, other, hj, hpc⟩ := h.awaited k slot hk hhanded
  have hne : l ≠ j := by
    rintro rfl
    rw [hl] at hj
    cases hj
    exact absurd ((hfree k slot hpc hk).symm.trans hhanded) (by decide)
  refine ⟨j, other, ?_, hpc⟩
  show (s.loops.modify l _)[j]? = some other
  rw [List.getElem?_modify, hj]
  simp [hne]

/-- A loop that awaits no hand-over. -/
theorem not_submitting {pc : AcceptPc} (hpc : pc.awaits = none) (k : Nat)
    (slot : Slot n) (hk : pc = .submitting k) :
    s.slots[k]? = some slot → slot.stage.handedOver = false := by
  rw [hk] at hpc
  cases hpc

theorem admitConnection_inv (h : s.Inv)
    (hl : s.loops[l]? = some loop) (hpc : loop.pc = .accepting) (target : Fin n) :
    (s.admitConnection l target).Inv := by
  have hloop := setLoop_inv h hl (.submitting s.slots.length) (not_submitting (by rw [hpc]; rfl))
  refine ⟨?_, ?_, ?_, ?_⟩
  · show s.admitted + 1 = (s.slots ++ [_]).length
    rw [length_append, h.admitted]
    rfl
  · show s.closed = (s.slots ++ [_]).countP _
    rw [List.countP_append, h.closed]
    simp
  · intro slot hmem hstage
    rcases mem_append.mp hmem with hmem | hmem
    · exact h.checked slot hmem hstage
    rw [mem_singleton.mp hmem] at hstage
    cases hstage
  · intro k slot hk hhanded
    change (s.slots ++ [_])[k]? = some slot at hk
    rcases Nat.lt_or_ge k s.slots.length with hlt | hge
    · rw [List.getElem?_append_left hlt] at hk
      exact hloop.awaited k slot hk hhanded
    have hkeq : k = s.slots.length := by
      have hlt := (List.getElem?_eq_some_iff.mp hk).1
      rw [length_append, List.length_singleton] at hlt
      omega
    refine ⟨l, { loop with pc := .submitting s.slots.length }, ?_, by rw [hkeq]⟩
    show (s.loops.modify l _)[l]? = some _
    rw [List.getElem?_modify, hl]
    simp

/-- Nobody leaves inside `StartSession`, so no slot is there once all have left. -/
theorem Inv.not_checked (h : s.Inv) (hleft : s.allLeft = true)
    (hmem : slot ∈ s.slots) : slot.stage ≠ .checked := by
  intro hstage
  have hgone : s.left slot.target = true := of_decide_eq_true hleft slot.target
  exact absurd ((h.checked slot hmem hstage).symm.trans hgone) (by decide)

/-- What `destroyLoop` does to the slot that the loop awaits. -/
theorem destroyLoop_cases (s : Service n) (l : Nat) (pc : AcceptPc) :
    (∃ k slot, pc = .submitting k ∧ s.slots[k]? = some slot ∧
      (slot.stage = .requested ∨ slot.stage = .refused) ∧
      s.destroyLoop l pc = (s.setStage k .dropped).setLoop l .destroyed) ∨
    ((∀ k slot, pc = .submitting k → s.slots[k]? = some slot →
      slot.stage ≠ .requested ∧ slot.stage ≠ .refused) ∧
      s.destroyLoop l pc = s.setLoop l .destroyed) := by
  cases pc with
  | submitting k =>
    unfold destroyLoop
    dsimp only
    have hslots : (s.setLoop l .destroyed).slots[k]? = s.slots[k]? := rfl
    rw [hslots]
    cases hk : s.slots[k]? with
    | none =>
      refine .inr ⟨?_, rfl⟩
      rintro j slot hj hget
      cases hj
      rw [hk] at hget
      cases hget
    | some slot =>
      obtain ⟨target, stage⟩ := slot
      have hkeep : stage ≠ .requested → stage ≠ .refused → ∀ j slot,
          AcceptPc.submitting k = .submitting j → s.slots[j]? = some slot →
          slot.stage ≠ .requested ∧ slot.stage ≠ .refused := by
        rintro h1 h2 j slot hj hget
        cases hj
        rw [hk] at hget
        cases hget
        exact ⟨h1, h2⟩
      cases stage with
      | requested => exact .inl ⟨k, _, rfl, hk, .inl rfl, rfl⟩
      | refused => exact .inl ⟨k, _, rfl, hk, .inr rfl, rfl⟩
      | checked | spawned | running | closed | dropped =>
        exact .inr ⟨hkeep (by decide) (by decide), rfl⟩
  | top | accepting | returned | destroyed => exact .inr ⟨nofun, rfl⟩

/-! ## Steps -/

/-- No step of a run that meets this destroys an owner before it has released its slot: no stop
    request arrives between `StartSession`'s stop check and `Spawn`'s; no accept loop is destroyed
    while the hand-over it awaits has not run or has been refused; no session is destroyed
    unstarted. -/
def Keeps (s : Service n) : Label n → Prop
  | .spawn k => ∀ slot ∈ s.slots[k]?, s.stopRequested slot.target = false
  | .destroyLoop l => ∀ loop ∈ s.loops[l]?, ∀ k ∈ loop.pc.awaits, ∀ slot ∈ s.slots[k]?,
      slot.stage ≠ .requested ∧ slot.stage ≠ .refused
  | .destroySession k => ∀ slot ∈ s.slots[k]?, slot.stage ≠ .spawned
  | _ => True

/-- What one step does to the slots. -/
inductive Move (s s' : Service n) (a : Label n) : Prop where
  | still (slots : s'.slots = s.slots) (keeps : s.Keeps a)
  | entered (target : Fin n) (slots : s'.slots = s.slots ++ [⟨target, .requested⟩])
      (keeps : s.Keeps a)
  | moved (k : Nat) (old : Slot n) (stage : SlotStage) (get : s.slots[k]? = some old)
      (live : old.stage ≠ .dropped) (slots : s'.slots = (s.setStage k stage).slots)
      (keeps : stage ≠ .dropped ↔ s.Keeps a)

/-- A loop step, or a slot step, is guarded by what it finds. -/
theorem guarded {α β : Type*} {o : Option α} {p : α → Prop} [DecidablePred p] {f : α → β} {y : β}
    (h : (o.bind fun x => if p x then some (f x) else none) = some y) :
    ∃ x, o = some x ∧ p x ∧ f x = y := by
  obtain ⟨x, hx, hguard⟩ := bind_eq_some_iff.mp h
  obtain ⟨hp, heq⟩ := ite_none_right_eq_some.mp hguard
  exact ⟨x, hx, hp, some.inj heq⟩

variable {a : Label n}

/-- A slot with an owner moves on, out of every hand-over. -/
theorem settle_inv (h : s.Inv)
    (hk : s.slots[k]? = some old) (hopen : old.stage ≠ .closed) (hlive : old.stage ≠ .dropped)
    (hout : stage.handedOver = false)
    (hclosed : closed = s.closed + if stage = .closed then 1 else 0)
    (hkeeps : stage ≠ .dropped ↔ s.Keeps a) :
    Inv { s.setStage k stage with closed := closed } ∧
      Move s { s.setStage k stage with closed := closed } a := by
  refine ⟨setStage_inv h hk hopen ?_ ?_ hclosed, .moved k old stage hk hlive rfl hkeeps⟩
  · intro hover
    rw [hout] at hover
    cases hover
  · rintro rfl
    cases hout

/-- An accept loop that awaits no hand-over moves on. -/
theorem setLoop_move (h : s.Inv)
    (hl : s.loops[l]? = some loop) (hpc : loop.pc.awaits = none) (pc : AcceptPc)
    (hkeeps : s.Keeps a) : (s.setLoop l pc).Inv ∧ Move s (s.setLoop l pc) a :=
  ⟨setLoop_inv h hl pc (not_submitting hpc), .still rfl hkeeps⟩

/-- The loop leaves a slot that has just been settled. -/
theorem setLoop_settled
    (h : Inv { s.setStage k stage with closed := closed }) (hl : s.loops[l]? = some loop)
    (hpc : loop.pc = .submitting k) (hk : s.slots[k]? = some old)
    (hout : stage.handedOver = false) (pc : AcceptPc) :
    (setLoop l pc { s.setStage k stage with closed := closed }).Inv := by
  refine setLoop_inv h hl pc ?_
  intro j other hj hget
  rw [hpc] at hj
  cases hj
  change (s.setStage k stage).slots[k]? = some other at hget
  rw [getElem?_setStage, if_pos rfl, hk] at hget
  cases hget
  exact hout

theorem startSession_inv (h : s.Inv) {registered : Bool}
    (hk : s.slots[k]? = some slot) (hstage : slot.stage = .requested)
    (hleft : s.left slot.target = false) :
    (s.startSession k slot.target registered).Inv ∧
      Move s (s.startSession k slot.target registered) (.startSession k registered) := by
  have hhanded : slot.stage.handedOver = true := by rw [hstage]; rfl
  have hmove : ∀ stage, stage = .refused ∨ stage = .checked →
      (s.setStage k stage).Inv ∧ Move s (s.setStage k stage) (.startSession k registered) := by
    intro stage hor
    refine ⟨?_, .moved k slot stage hk (by simp [hstage]) rfl ?_⟩
    · exact setStage_inv h hk (by simp [hstage]) (fun _ => hhanded) (fun _ => hleft)
        (by rcases hor with rfl | rfl <;> rfl)
    · rcases hor with rfl | rfl <;> exact iff_of_true (by decide) trivial
  unfold startSession
  split_ifs
  · exact hmove _ (.inl rfl)
  · exact hmove _ (.inr rfl)
  · exact hmove _ (.inl rfl)

theorem spawn_inv (h : s.Inv) (hk : s.slots[k]? = some slot) (hstage : slot.stage = .checked) :
    (s.spawn k slot.target).Inv ∧ Move s (s.spawn k slot.target) (.spawn k) := by
  have hkeeps : s.Keeps (.spawn k) ↔ s.stopRequested slot.target = false := by
    simp [Keeps, hk]
  unfold spawn
  split_ifs with hstop
  · refine settle_inv h hk (by simp [hstage]) (by simp [hstage]) rfl rfl ?_
    rw [hkeeps, hstop]
    decide
  refine settle_inv h hk (by simp [hstage]) (by simp [hstage]) rfl rfl ?_
  rw [hkeeps]
  exact iff_of_true (by decide) (by simpa using hstop)

theorem reply_inv (h : s.Inv)
    (hl : s.loops[l]? = some loop) (hpc : loop.pc = .submitting k) (hk : s.slots[k]? = some slot)
    (hrequested : slot.stage ≠ .requested) (hchecked : slot.stage ≠ .checked) :
    (s.reply l k slot.stage).Inv ∧ Move s (s.reply l k slot.stage) (.reply l) := by
  unfold reply
  split_ifs with hrefused
  · -- the loop calls the hook itself
    have hclosed : (s.onConnectionClosed k).Inv :=
      (settle_inv (a := .reply l) h hk (by simp [hrefused]) (by simp [hrefused]) rfl rfl
        (iff_of_true (by decide) trivial)).1
    exact ⟨setLoop_settled hclosed hl hpc hk rfl .top,
      .moved k slot .closed hk (by simp [hrefused]) rfl (iff_of_true (by decide) trivial)⟩
  refine ⟨setLoop_inv h hl .top ?_, .still rfl trivial⟩
  intro j other hj hget
  rw [hpc] at hj
  cases hj
  rw [hk] at hget
  cases hget
  cases hstage : slot.stage <;> simp_all [SlotStage.handedOver]

theorem leave_inv (h : s.Inv) {w : Fin n}
    (hguard : ∀ slot ∈ s.slots, slot.stage = .checked → slot.target ≠ w) :
    Inv { s with left := Function.update s.left w true } := by
  refine { h with checked := ?_ }
  intro slot hmem hstage
  show Function.update s.left w true slot.target = false
  rw [update_of_ne (hguard slot hmem hstage)]
  exact h.checked slot hmem hstage

theorem destroyLoop_inv (h : s.Inv) (hl : s.loops[l]? = some loop) (hleft : s.allLeft = true) :
    (s.destroyLoop l loop.pc).Inv ∧ Move s (s.destroyLoop l loop.pc) (.destroyLoop l) := by
  rcases destroyLoop_cases s l loop.pc with ⟨k, slot, hpc, hk, hstage, heq⟩ | ⟨hkeep, heq⟩
  · have hnot : ¬ s.Keeps (.destroyLoop l) := by
      intro hkeeps
      have hnot := hkeeps loop hl k (by rw [hpc]; rfl) slot hk
      rcases hstage with h | h
      · exact hnot.1 h
      · exact hnot.2 h
    have hlive : slot.stage ≠ .dropped := by rcases hstage with h | h <;> simp [h]
    have hdropped : Inv (s.setStage k .dropped) :=
      (settle_inv h hk (by rcases hstage with h | h <;> simp [h]) hlive rfl rfl
        (iff_of_false (by decide) hnot)).1
    rw [heq]
    exact ⟨setLoop_settled hdropped hl hpc hk rfl .destroyed,
      .moved k slot .dropped hk hlive rfl (iff_of_false (by decide) hnot)⟩
  · rw [heq]
    refine ⟨setLoop_inv h hl .destroyed ?_, .still rfl ?_⟩
    · intro k slot hpc hk
      obtain ⟨hnot1, hnot2⟩ := hkeep k slot hpc hk
      have hnot3 := h.not_checked hleft (mem_of_getElem? hk)
      cases hstage : slot.stage <;> simp_all [SlotStage.handedOver]
    · intro other hother k hk slot hslot
      rw [hl] at hother
      cases hother
      refine hkeep k slot ?_ hslot
      cases hpc : loop.pc <;> rw [hpc] at hk <;> cases hk
      rfl

variable {s' : Service n}

theorem destroySession_inv (h : s.Inv)
    (hs : s.step (.destroySession k) = some s') : s'.Inv ∧ Move s s' (.destroySession k) := by
  obtain ⟨slot, hk, hs⟩ := bind_eq_some_iff.mp hs
  rw [ite_none_left_eq_some] at hs
  obtain ⟨_, hs⟩ := hs
  have hkeeps : s.Keeps (.destroySession k) ↔ slot.stage ≠ .spawned := by simp [Keeps, hk]
  cases hstage : slot.stage with
  | spawned | running =>
    rw [hstage] at hs
    cases hs
    refine settle_inv h hk (by simp [hstage]) (by simp [hstage]) rfl rfl ?_
    rw [hkeeps, hstage]
    decide
  | requested | checked | refused | closed | dropped => rw [hstage] at hs; cases hs

/-- **One step keeps the invariant, and either keeps all slots or drops one.** -/
theorem step_inv (h : s.Inv) (hs : s.step a = some s') : s'.Inv ∧ Move s s' a := by
  cases a with
  | acceptTop | acceptFails | reject =>
    obtain ⟨loop, hl, ⟨hpc, _⟩, rfl⟩ := guarded hs
    exact setLoop_move h hl (by rw [hpc]; rfl) _ trivial
  | admitConnection l target =>
    obtain ⟨loop, hl, ⟨hpc, _⟩, rfl⟩ := guarded hs
    exact ⟨admitConnection_inv h hl hpc target, .entered target rfl trivial⟩
  | startSession k registered =>
    obtain ⟨slot, hk, ⟨hstage, hleft⟩, rfl⟩ := guarded hs
    exact startSession_inv h hk hstage hleft
  | spawn k =>
    obtain ⟨slot, hk, ⟨hstage, _⟩, rfl⟩ := guarded hs
    exact spawn_inv h hk hstage
  | reply l =>
    obtain ⟨loop, hl, hs⟩ := bind_eq_some_iff.mp hs
    cases hpc : loop.pc with
    | submitting k =>
      rw [hpc] at hs
      obtain ⟨slot, hk, ⟨hrequested, hchecked, _⟩, rfl⟩ := guarded hs
      exact reply_inv h hl hpc hk hrequested hchecked
    | top | accepting | returned | destroyed => rw [hpc] at hs; cases hs
  | runSession | sessionEnds =>
    obtain ⟨slot, hk, ⟨hstage, _⟩, rfl⟩ := guarded hs
    exact settle_inv h hk (by simp [hstage]) (by simp [hstage]) rfl rfl
      (iff_of_true (by decide) trivial)
  | requestStop w =>
    cases hs
    exact ⟨{ h with }, .still rfl trivial⟩
  | leave w =>
    refine of_guard hs fun hguard => ?_
    exact ⟨leave_inv h hguard, .still rfl trivial⟩
  | destroyLoop l =>
    obtain ⟨loop, hl, hleft, rfl⟩ := guarded hs
    exact destroyLoop_inv h hl hleft
  | destroySession k => exact destroySession_inv h hs

/-! ## Balance -/

/-- No owner was destroyed with its slot. -/
def NoneDropped (s : Service n) : Prop := ∀ slot ∈ s.slots, slot.stage ≠ .dropped

theorem Move.noneDropped_iff (hm : Move s s' a) : s'.NoneDropped ↔ s.NoneDropped ∧ s.Keeps a := by
  unfold NoneDropped
  cases hm with
  | still slots keeps =>
    rw [slots]
    exact (and_iff_left keeps).symm
  | entered target slots keeps =>
    rw [slots, and_iff_left keeps]
    constructor
    · intro hall slot hmem
      exact hall slot (mem_append_left _ hmem)
    · intro hall slot hmem
      rcases mem_append.mp hmem with hmem | hmem
      · exact hall slot hmem
      rw [mem_singleton.mp hmem]
      simp
  | moved k old stage get live slots keeps =>
    rw [slots, ← keeps]
    constructor
    · intro hall
      have hself : (⟨old.target, stage⟩ : Slot n) ∈ (s.setStage k stage).slots := by
        refine mem_of_getElem? (i := k) ?_
        rw [getElem?_setStage, if_pos rfl, get]
        rfl
      refine ⟨fun slot hmem => ?_, hall _ hself⟩
      obtain ⟨j, hj⟩ := List.mem_iff_getElem?.mp hmem
      by_cases hkj : k = j
      · rw [← hkj, get] at hj
        cases hj
        exact live
      refine hall slot (mem_of_getElem? (i := j) ?_)
      rw [getElem?_setStage, if_neg hkj]
      exact hj
    · rintro ⟨hall, hstage⟩ slot hmem
      rcases mem_setStage get hmem with rfl | hmem
      · exact hstage
      · exact hall slot hmem

/-- All workers have finished, and their frames are gone. -/
structure Terminal (s : Service n) : Prop where
  left : s.allLeft = true
  loops : ∀ loop ∈ s.loops, loop.pc = .returned ∨ loop.pc = .destroyed
  sessions : ∀ slot ∈ s.slots, slot.stage ≠ .spawned ∧ slot.stage ≠ .running

instance : Decidable s.Terminal :=
  decidable_of_iff (_ ∧ _ ∧ _) ⟨fun ⟨h, h', h''⟩ => ⟨h, h', h''⟩, fun ⟨h, h', h''⟩ => ⟨h, h', h''⟩⟩

/-- When everything is over, a slot has been released or dropped. -/
theorem Inv.terminal (h : s.Inv) (ht : s.Terminal)
    (hmem : slot ∈ s.slots) : slot.stage = .closed ∨ slot.stage = .dropped := by
  obtain ⟨k, hk⟩ := List.mem_iff_getElem?.mp hmem
  have hnot : slot.stage.handedOver = false := by
    cases hh : slot.stage.handedOver
    · rfl
    obtain ⟨l, loop, hl, hpc⟩ := h.awaited k slot hk hh
    rcases ht.loops loop (mem_of_getElem? hl) with hpc' | hpc'
    · rw [hpc] at hpc'
      cases hpc'
    rw [hpc] at hpc'
    cases hpc'
  obtain ⟨hspawned, hrunning⟩ := ht.sessions slot hmem
  cases hstage : slot.stage <;> simp_all [SlotStage.handedOver]

theorem Inv.balance_iff (h : s.Inv) (ht : s.Terminal) : s.closed = s.admitted ↔ s.NoneDropped := by
  rw [h.closed, h.admitted, List.countP_eq_length]
  constructor
  · intro hall slot hmem hdropped
    have := hall slot hmem
    rw [hdropped] at this
    simp at this
  · intro hnone slot hmem
    rcases h.terminal ht hmem with hstage | hstage
    · simp [hstage]
    · exact absurd hstage (hnone slot hmem)

/-- **The hooks balance exactly along the runs that drop no slot**, and the hook is never called
    more often than connections were admitted. -/
theorem hooks_balance_iff (listeners : List (Fin n)) (labels : List (Label n)) {s : Service n}
    (hrun : (system n).run (fresh listeners) labels = some s) :
    s.closed ≤ s.admitted ∧
    (s.Terminal → (s.closed = s.admitted ↔ (system n).Follows Keeps (fresh listeners) labels)) := by
  have hreach : (system n).Reachable s := Reachable.run (.init ⟨listeners, rfl⟩) labels hrun
  have hinv : s.Inv := by
    refine hreach.invariant (P := Inv) ?_ fun s a s' h hs => (step_inv h hs).1
    rintro s ⟨listeners, rfl⟩
    exact fresh_inv listeners
  constructor
  · rw [hinv.closed, hinv.admitted]
    exact List.countP_le_length
  · intro ht
    have hiff : s.NoneDropped ↔ (fresh listeners).NoneDropped ∧
        (system n).Follows Keeps (fresh listeners) labels := System.run_iff_follows (I := Inv)
      (fun s a s' h hs => (step_inv h hs).1) (fun s a s' h hs => (step_inv h hs).2.noneDropped_iff)
      labels (fresh_inv listeners) hrun
    rw [hinv.balance_iff ht, hiff]
    exact and_iff_right fun slot hmem => by simp [fresh] at hmem

/-- Two connections accepted on worker 0: one served by worker 1 to its end, one refused because the
    worker is stopping by then. -/
def orderlyLabels : List (Label 2) :=
  [.acceptTop 0, .admitConnection 0 1, .startSession 0 true, .spawn 0, .runSession 0, .reply 0,
    .acceptTop 0, .admitConnection 0 1, .requestStop 1, .startSession 1 true, .requestStop 0,
    .reply 0, .acceptTop 0, .sessionEnds 0, .leave 0, .leave 1]

theorem hooks_balance_orderly : ∃ s, (system 2).run (fresh [0]) orderlyLabels = some s ∧
    s.Terminal ∧ s.admitted = 2 ∧ s.closed = 2 ∧ s.closed ≤ s.admitted ∧
    (s.Terminal → (s.closed = s.admitted ↔
      (system 2).Follows Keeps (fresh [0]) orderlyLabels)) := by
  have hrun : ∃ s ∈ (system 2).run (fresh [0]) orderlyLabels,
      s.Terminal ∧ s.admitted = 2 ∧ s.closed = 2 := by decide
  obtain ⟨s, hs, hterminal, hadmitted, hclosed⟩ := hrun
  exact ⟨s, hs, hterminal, hadmitted, hclosed, hooks_balance_iff [0] orderlyLabels hs⟩

/-- A stop request between the two checks: `Spawn` destroys the unstarted session, `StartSession`
    returns OK, and nobody calls the hook. -/
def lateStopLabels : List (Label 2) :=
  [.acceptTop 0, .admitConnection 0 1, .startSession 0 true, .requestStop 1, .spawn 0,
    .requestStop 0, .reply 0, .acceptTop 0, .leave 0, .leave 1]

/-- **A late stop loses a slot.**  Everything has ended, one connection was admitted, and its
    `OnConnectionClosed` was never called. -/
theorem late_stop_loses_slot : ∃ s, (system 2).run (fresh [0]) lateStopLabels = some s ∧
    s.Terminal ∧ s.admitted = 1 ∧ s.closed = 0 := by
  exact exists_end (by decide)

end Service

end Bycorf.Net
