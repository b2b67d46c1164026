/-
  Adaptive waiting: does a worker that blocks in `DpdkBackend::Wait` hear of a packet put into its
  rings?

  1. **Program** — a worker enqueues into any lane (`Enqueue`), then takes the target's `parked`
     flag by an exchange and, if it was up, queues a MSG_RING request in its OWN ring (`Wake`).
     `Wait` raises the flag, polls, looks at both rings again, submits and blocks.  Each access to
     something shared is one step: the ring operations, the store, the exchange, the submission.
     Any worker may take the next step.
  2. **Invariant** — `Safe`: while the owner is in `Wait` and has found no work, a flag that is down
     was taken by a producer whose wake is still on its way; and a ring that the second look found
     empty holds a packet only if its producer has not yet exchanged, or a wake is on its way.
  3. **Result** — `reachable_wakes`.  The wake is on its way in FOUR places: a producer before its
     exchange, a producer between the exchange and the request, the producer's ring, the owner's CQ.

  Packets are counted, not named.  The mode is adaptive and every worker is attached (otherwise
  `Wait` returns at once); the kernel delivers a submitted MSG_RING request.
-/
import Mathlib.Data.Fintype.Basic
import Bycorf.Dpdk.Packets

namespace Bycorf.Dpdk.PacketWake

open Lib Function
open Packets (kBurst)

/-! ## The program -/

/-- A `Lane` as a wake sees it: the number of packets in each ring (`Packets` names them) and of
    wake completions in its owner's CQ; `parks` counts the stores of `parked`. -/
structure Lane where
  rx : Nat
  tx : Nat
  parked : Bool
  pending : Nat
  parks : Nat
deriving DecidableEq, Repr

/-- A ring operation that succeeds. -/
def Lane.push (l : Lane) : Packets.Ring → Lane
  | .rx => { l with rx := l.rx + 1 }
  | .tx => { l with tx := l.tx + 1 }

/-- Where `Poll` is: `kernel_.Poll`, the receive burst, the lane's `rx` ring, `bycorf_bsd_poll`,
    `FlushTx` and `SocketCompletions`. -/
inductive PollStep where
  | kernel
  | receive
  | lane
  | bsd
  | flush
  | sockets
deriving DecidableEq, Repr

/-- Where a worker is.  `work` is what `Poll` will return, `waiting` says that `Wait` called it. -/
inductive Stage where
  | loop
  | arm
  | poll (step : PollStep) (work waiting : Bool)
  | recheckRx
  | recheckTx
  | recheckCompletions
  | submit
  | blocked
  | unpark
deriving DecidableEq, Repr

/-- Where a worker is inside `Enqueue`: before the exchange of `Wake`, or after an exchange that
    found the flag up. -/
inductive Sub (n : Nat) where
  | idle
  | wake (target : Fin n)
  | wakeRemote (target : Fin n)
deriving DecidableEq, Repr

/-- A worker; `wakes` are the MSG_RING requests in its ring that are not submitted. -/
structure Thread (n : Nat) where
  stage : Stage
  sub : Sub n
  wakes : List (Fin n)
deriving DecidableEq, Repr

/-- The workers, their lanes, and the parks that were woken through the flag. -/
structure Fabric (n : Nat) where
  threads : Fin n → Thread n
  lanes : Fin n → Lane
  woken : List (Fin n × Nat)

/-- What a worker may do next; the parameters are what the device, the kernel and the application
    decide. -/
inductive Op (n : Nat) where
  | enqueue (ring : Packets.Ring) (target : Fin n) (full : Bool)
  | exchange
  | wakeRemote
  | submit (k : Nat)
  | poll
  | wait
  | arm (ok : Bool)
  | reap (k : Nat) (other : Bool)
  | receive (count : Nat)
  | dequeue
  | bsdPoll
  | flush
  | sockets (work : Bool)
  | recheck (completions : Bool)
  | submitWait (k : Nat) (ok due hasPending : Bool)
  | unblock (k : Nat)
  | unpark

namespace Fabric

variable {n : Nat}

/-- Worker `w` goes on in its own loop. -/
def setStage (w : Fin n) (stage : Stage) (s : Fabric n) : Fabric n :=
  { s with threads := Function.update s.threads w { s.threads w with stage := stage } }

/-- Worker `w` goes on in the call it is making. -/
def setSub (w : Fin n) (sub : Sub n) (s : Fabric n) : Fabric n :=
  { s with threads := Function.update s.threads w { s.threads w with sub := sub } }

/-- Something shared changes in the lane of worker `w`. -/
def setLane (w : Fin n) (lane : Lane) (s : Fabric n) : Fabric n :=
  { s with lanes := Function.update s.lanes w lane }

/-- Packets leave the network code only while the loop or `Poll` runs. -/
def transmits : Stage → Bool
  | .loop | .poll .. => true
  | _ => false

/-- The exchange of `Wake`: a worker does not wake itself. -/
def wake (w target : Fin n) (s : Fabric n) : Fabric n :=
  if target ≠ w ∧ (s.lanes target).parked then
    { setLane target { s.lanes target with parked := false } (s.setSub w (.wakeRemote target)) with
      woken := (target, (s.lanes target).parks) :: s.woken }
  else s.setSub w .idle

/-- `io_uring_submit`: the first `k` requests reach their targets. -/
def submit (w : Fin n) (k : Nat) (s : Fabric n) : Fabric n :=
  let thread := s.threads w
  { s with
    threads := Function.update s.threads w { thread with wakes := thread.wakes.drop k }
    lanes := fun i => { s.lanes i with
      pending := (s.lanes i).pending + (thread.wakes.take k).count i } }

/-- After `Poll`: `Wait` goes on only if there was no work. -/
def polled (work waiting : Bool) : Stage :=
  if waiting then if work then .unpark else .recheckRx else .loop

/-- The steps of `Poll`. -/
def stepPoll (queues : Nat) (w : Fin n) (at_ : PollStep) (work waiting : Bool) (s : Fabric n) :
    Op n → Option (Fabric n)
  | .reap k other =>
    if at_ = .kernel ∧ k ≤ (s.lanes w).pending then
      some (setLane w { s.lanes w with pending := (s.lanes w).pending - k }
        (s.setStage w (.poll .receive (work || other || k ≠ 0) waiting)))
    else none
  | .receive count =>
    if at_ = .receive ∧ (w.val < queues ∨ count = 0) then
      some (s.setStage w (.poll .lane (work || count ≠ 0) waiting))
    else none
  | .dequeue =>
    if at_ = .lane then
      let count := min kBurst (s.lanes w).rx
      some (setLane w { s.lanes w with rx := (s.lanes w).rx - count }
        (s.setStage w (.poll .bsd (work || count ≠ 0) waiting)))
    else none
  | .bsdPoll => if at_ = .bsd then some (s.setStage w (.poll .flush work waiting)) else none
  | .flush =>
    if at_ = .flush then
      let count := if w.val < queues then min kBurst (s.lanes w).tx else 0
      some (setLane w { s.lanes w with tx := (s.lanes w).tx - count }
        (s.setStage w (.poll .sockets (work || count ≠ 0) waiting)))
    else none
  | .sockets found =>
    if at_ = .sockets then some (s.setStage w (polled (work || found) waiting)) else none
  | _ => none

/-- The steps of `Wait` around `Poll`. -/
def stepWait (w : Fin n) (s : Fabric n) : Stage → Op n → Option (Fabric n)
  | .arm, .arm ok => some (s.setStage w (if ok then .poll .kernel false true else .unpark))
  | .recheckRx, .recheck _ =>
    some (s.setStage w (if (s.lanes w).rx = 0 then .recheckTx else .unpark))
  | .recheckTx, .recheck _ =>
    some (s.setStage w (if (s.lanes w).tx = 0 then .recheckCompletions else .unpark))
  | .recheckCompletions, .recheck completions =>
    some (s.setStage w (if completions then .unpark else .submit))
  | .submit, .submitWait k ok due hasPending =>
    let s := s.submit w k
    -- `kernel_.Wait` does not block while a request is still in the ring
    some (s.setStage w
      (if ok ∧ due = false ∧ hasPending = false ∧ (s.threads w).wakes = [] then .blocked
      else .unpark))
  | .blocked, .unblock k =>
    if k ≤ (s.lanes w).pending then
      some (setLane w { s.lanes w with pending := (s.lanes w).pending - k }
        (s.setStage w .unpark))
    else none
  | .unpark, .unpark =>
    some (setLane w { s.lanes w with parked := false } (s.setStage w .loop))
  | _, _ => none

/-- One step of worker `w`; `queues` workers have a queue of the device. -/
def step (queues : Nat) (s : Fabric n) (a : Fin n × Op n) : Option (Fabric n) :=
  let w := a.1
  match (s.threads w).sub with
  | .wake target =>
    match a.2 with
    | .exchange => some (s.wake w target)
    | _ => none
  | .wakeRemote target =>
    match a.2 with
    | .wakeRemote =>
      some { s with threads := Function.update s.threads w { s.threads w with
        sub := .idle, wakes := (s.threads w).wakes ++ [target] } }
    | _ => none
  | .idle =>
    match a.2, (s.threads w).stage with
    | .enqueue ring target full, stage =>
      if transmits stage then
        -- a full ring drops the packet, and wakes nobody
        if full then some s
        else some (setLane target ((s.lanes target).push ring) (s.setSub w (.wake target)))
      else none
    | .submit k, .loop => some (s.submit w k)
    | .flush, .loop =>
      let count := if w.val < queues then min kBurst (s.lanes w).tx else 0
      some (setLane w { s.lanes w with tx := (s.lanes w).tx - count } s)
    | .poll, .loop => some (s.setStage w (.poll .kernel false false))
    | .wait, .loop =>
      some (setLane w { s.lanes w with parked := true, parks := (s.lanes w).parks + 1 }
        (s.setStage w .arm))
    | op, .poll at_ work waiting => stepPoll queues w at_ work waiting s op
    | op, stage => stepWait w s stage op

end Fabric

/-- Every worker is in its loop, the rings are empty and no flag is up. -/
def wakeSystem (n queues : Nat) : System (Fabric n) (Fin n × Op n) where
  init s := (∀ w, s.threads w = ⟨.loop, .idle, []⟩) ∧ (∀ w, s.lanes w = ⟨0, 0, false, 0, 0⟩) ∧
    s.woken = []
  step := Fabric.step queues

/-! ## The invariant -/

/-- The worker is in `Wait`, and has found no work. -/
def Stage.looking : Stage → Bool
  | .arm | .recheckRx | .recheckTx | .recheckCompletions | .submit | .blocked => true
  | .poll _ work waiting => waiting && !work
  | _ => false

/-- The second look has found the `rx` ring empty. -/
def Stage.pastRx : Stage → Bool
  | .recheckTx | .recheckCompletions | .submit | .blocked => true
  | _ => false

/-- It has found both rings empty. -/
def Stage.pastTx : Stage → Bool
  | .recheckCompletions | .submit | .blocked => true
  | _ => false

theorem Stage.looking_of_pastRx {st : Stage} (h : st.pastRx = true) : st.looking = true := by
  cases st <;> first | rfl | cases h

theorem Stage.looking_of_pastTx {st : Stage} (h : st.pastTx = true) : st.looking = true := by
  cases st <;> first | rfl | cases h

namespace Fabric

variable {n : Nat}

/-- A producer has put a packet into a ring of worker `i`, and has not yet exchanged the flag. -/
def Coming (s : Fabric n) (i : Fin n) : Prop := ∃ p, p ≠ i ∧ (s.threads p).sub = .wake i

/-- A wake for worker `i` is on its way: a producer has taken the flag and will queue the request,
    or the request is in its ring, or the wake is in the owner's CQ. -/
inductive Owed (s : Fabric n) (i : Fin n) : Prop where
  | taken (p : Fin n) : (s.threads p).sub = .wakeRemote i → Owed s i
  | queued (p : Fin n) : i ∈ (s.threads p).wakes → Owed s i
  | pending : 0 < (s.lanes i).pending → Owed s i

/-- **What holds of every owner.** -/
structure Safe (s : Fabric n) (i : Fin n) : Prop where
  flag : (s.threads i).stage.looking = true → (s.lanes i).parked = false → s.Owed i
  rx : (s.threads i).stage.pastRx = true → (s.lanes i).rx ≠ 0 → s.Owed i ∨ s.Coming i
  tx : (s.threads i).stage.pastTx = true → (s.lanes i).tx ≠ 0 → s.Owed i ∨ s.Coming i

variable {s s' : Fabric n} {i : Fin n}

/-- A step of somebody else that loses no wake leaves an owner safe. -/
theorem Safe.keep (h : s.Safe i) (hstage : (s'.threads i).stage = (s.threads i).stage)
    (hlane : (s'.lanes i).rx = (s.lanes i).rx ∧ (s'.lanes i).tx = (s.lanes i).tx ∧
      (s'.lanes i).parked = (s.lanes i).parked)
    (howed : s.Owed i → s'.Owed i) (hcoming : s.Coming i → s'.Owed i ∨ s'.Coming i) :
    s'.Safe i := by
  obtain ⟨hrx, htx, hparked⟩ := hlane
  have hor : s.Owed i ∨ s.Coming i → s'.Owed i ∨ s'.Coming i := by
    rintro (ho | hc)
    · exact .inl (howed ho)
    · exact hcoming hc
  constructor
  · rw [hstage, hparked]
    exact fun hl hp => howed (h.flag hl hp)
  · rw [hstage, hrx]
    exact fun hl hp => hor (h.rx hl hp)
  · rw [hstage, htx]
    exact fun hl hp => hor (h.tx hl hp)

/-! ## Steps -/

/-- A worker's own step: its stage and its lane change. -/
def own (w : Fin n) (st : Stage) (lane : Lane) (s : Fabric n) : Fabric n :=
  setLane w lane (s.setStage w st)

theorem own_thread_self (w : Fin n) (st : Stage) (lane : Lane) (s : Fabric n) :
    (s.own w st lane).threads w = { s.threads w with stage := st } := update_self ..

variable {w : Fin n}

theorem own_thread_of_ne {p : Fin n} (h : p ≠ w) (st : Stage) (lane : Lane) (s : Fabric n) :
    (s.own w st lane).threads p = s.threads p := update_of_ne h ..

theorem own_lane_self (w : Fin n) (st : Stage) (lane : Lane) (s : Fabric n) :
    (s.own w st lane).lanes w = lane := update_self ..

theorem own_lane_of_ne {p : Fin n} (h : p ≠ w) (st : Stage) (lane : Lane) (s : Fabric n) :
    (s.own w st lane).lanes p = s.lanes p := update_of_ne h ..

theorem own_rest (w p : Fin n) (st : Stage) (lane : Lane) (s : Fabric n) :
    ((s.own w st lane).threads p).sub = (s.threads p).sub ∧
      ((s.own w st lane).threads p).wakes = (s.threads p).wakes := by
  by_cases h : p = w
  · subst h
    rw [own_thread_self]
    exact ⟨rfl, rfl⟩
  rw [own_thread_of_ne h]
  exact ⟨rfl, rfl⟩

theorem setStage_eq_own (w : Fin n) (st : Stage) (s : Fabric n) :
    s.setStage w st = s.own w st (s.lanes w) := by
  unfold own setLane setStage
  rw [update_eq_self]

variable {st : Stage}

theorem setLane_eq_own (h : (s.threads w).stage = st)
    (lane : Lane) : s.setLane w lane = s.own w st lane := by
  have hsame : s.setStage w st = s := by
    unfold setStage
    rw [← h, update_eq_self]
  rw [own, hsame]

variable {lane : Lane}

theorem own_owed (h : s.Owed i)
    (hpending : i = w → (s.lanes w).pending ≤ lane.pending) : (s.own w st lane).Owed i := by
  cases h with
  | taken p hp => exact .taken p (by rw [(own_rest w p st lane s).1]; exact hp)
  | queued p hp => exact .queued p (by rw [(own_rest w p st lane s).2]; exact hp)
  | pending hpos =>
    refine .pending ?_
    by_cases heq : i = w
    · subst heq
      rw [own_lane_self]
      exact Nat.lt_of_lt_of_le hpos (hpending rfl)
    rw [own_lane_of_ne heq]
    exact hpos

theorem own_coming (h : s.Coming i) : (s.own w st lane).Coming i := by
  obtain ⟨p, hne, hp⟩ := h
  exact ⟨p, hne, by rw [(own_rest w p st lane s).1]; exact hp⟩

/-- The owner parks anew, or may lower the flag. -/
def Parks (lane lane' : Lane) : Prop :=
  lane.parks < lane'.parks ∨ (lane'.parks = lane.parks ∧ (lane'.parked = true → lane.parked = true))

variable {lane' : Lane}

theorem Parks.same (hparks : lane'.parks = lane.parks)
    (hparked : lane'.parked = lane.parked) : Parks lane lane' :=
  .inr ⟨hparks, fun h => hparked ▸ h⟩

/-- What a worker's own step may do while it looks: raise the flag or leave it, take nothing from
    its CQ, and pass a ring only if it is empty. -/
structure Looks (old st : Stage) (lane lane' : Lane) : Prop where
  parks : Parks lane lane'
  flag : st.looking = true → lane'.parked = true ∨ (old.looking = true ∧ lane'.parked = lane.parked)
  pending : st.looking = true → lane'.pending = lane.pending
  rx : st.pastRx = true → lane'.rx = 0 ∨ (old.pastRx = true ∧ lane'.rx = lane.rx)
  tx : st.pastTx = true → lane'.tx = 0 ∨ (old.pastTx = true ∧ lane'.tx = lane.tx)

/-- A worker that has found work, or is not in `Wait`, looks at nothing. -/
theorem Looks.away {old : Stage} (h : st.looking = false)
    (hparks : Parks lane lane' := by exact .same rfl rfl) : Looks old st lane lane' where
  parks := hparks
  flag hl := by rw [h] at hl; cases hl
  pending hl := by rw [h] at hl; cases hl
  rx hl := by rw [Stage.looking_of_pastRx hl] at h; cases h
  tx hl := by rw [Stage.looking_of_pastTx hl] at h; cases h

theorem own_safe (h : ∀ i, s.Safe i)
    (hw : Looks (s.threads w).stage st (s.lanes w) lane) : ∀ i, (s.own w st lane).Safe i := by
  intro i
  by_cases heq : i = w
  · subst heq
    have howed : st.looking = true → s.Owed i → (s.own i st lane).Owed i :=
      fun hl ho => own_owed ho fun _ => Nat.le_of_eq (hw.pending hl).symm
    have hor : st.looking = true → s.Owed i ∨ s.Coming i →
        (s.own i st lane).Owed i ∨ (s.own i st lane).Coming i := by
      rintro hl (ho | hc)
      · exact .inl (howed hl ho)
      · exact .inr (own_coming hc)
    constructor
    · rw [own_thread_self, own_lane_self]
      intro hl hp
      rcases hw.flag hl with htrue | ⟨hold, hsame⟩
      · rw [htrue] at hp
        cases hp
      · exact howed hl ((h i).flag hold (hsame ▸ hp))
    · rw [own_thread_self, own_lane_self]
      intro hl hne
      rcases hw.rx hl with hzero | ⟨hold, hsame⟩
      · exact absurd hzero hne
      · exact hor (Stage.looking_of_pastRx hl) ((h i).rx hold (hsame ▸ hne))
    · rw [own_thread_self, own_lane_self]
      intro hl hne
      rcases hw.tx hl with hzero | ⟨hold, hsame⟩
      · exact absurd hzero hne
      · exact hor (Stage.looking_of_pastTx hl) ((h i).tx hold (hsame ▸ hne))
  · refine (h i).keep (by rw [own_thread_of_ne heq]) ?_
      (fun ho => own_owed ho fun habs => absurd habs heq) fun hc => .inr (own_coming hc)
    rw [own_lane_of_ne heq]
    exact ⟨rfl, rfl, rfl⟩

/-- The other threads and lanes of an update at one place. -/
theorem sub_setSub (w p : Fin n) (sub : Sub n) (s : Fabric n) :
    ((s.setSub w sub).threads p).sub = if p = w then sub else (s.threads p).sub := by
  unfold setSub
  by_cases h : p = w
  · subst h
    rw [if_pos rfl]
    dsimp only
    rw [update_self]
  rw [if_neg h]
  dsimp only
  rw [update_of_ne h]

theorem rest_setSub (w p : Fin n) (sub : Sub n) (s : Fabric n) :
    ((s.setSub w sub).threads p).stage = (s.threads p).stage ∧
      ((s.setSub w sub).threads p).wakes = (s.threads p).wakes := by
  unfold setSub
  dsimp only
  by_cases h : p = w
  · subst h
    rw [update_self]
    exact ⟨rfl, rfl⟩
  rw [update_of_ne h]
  exact ⟨rfl, rfl⟩

/-- A change of one `sub` that was idle loses no wake. -/
theorem setSub_owed {sub : Sub n}
    (hw : (s.threads w).sub ≠ .wakeRemote i ∨ sub = .wakeRemote i) (h : s.Owed i) :
    (s.setSub w sub).Owed i := by
  cases h with
  | taken p hp =>
    refine .taken p ?_
    rw [sub_setSub]
    split
    next heq =>
      subst heq
      exact hw.resolve_left fun hne => hne hp
    next => exact hp
  | queued p hp => exact .queued p (by rw [(rest_setSub w p sub s).2]; exact hp)
  | pending hpos => exact .pending hpos

theorem setSub_coming {sub : Sub n}
    (hw : w = i ∨ (s.threads w).sub ≠ .wake i) (h : s.Coming i) : (s.setSub w sub).Coming i := by
  obtain ⟨p, hne, hp⟩ := h
  refine ⟨p, hne, ?_⟩
  rw [sub_setSub, if_neg]
  · exact hp
  rintro rfl
  rcases hw with heq | hidle
  · exact hne heq
  · exact hidle hp

variable {t : Fin n}

/-- A lane whose wakes in the CQ are left alone. -/
theorem setLane_owed
    (hpending : lane.pending = (s.lanes t).pending) (h : s.Owed i) : (s.setLane t lane).Owed i := by
  cases h with
  | taken p hp => exact .taken p hp
  | queued p hp => exact .queued p hp
  | pending hpos =>
    refine .pending ?_
    unfold setLane
    dsimp only
    by_cases heq : i = t
    · subst heq
      rw [update_self, hpending]
      exact hpos
    rw [update_of_ne heq]
    exact hpos

theorem setLane_of_ne (h : i ≠ t) (lane : Lane) (s : Fabric n) :
    (s.setLane t lane).lanes i = s.lanes i := update_of_ne h ..

theorem setLane_self (t : Fin n) (lane : Lane) (s : Fabric n) :
    (s.setLane t lane).lanes t = lane := update_self ..

section

variable (h : ∀ i, s.Safe i)
include h

/-- A packet goes into a ring. -/
theorem enqueue_safe {ring : Packets.Ring}
    (hidle : (s.threads w).sub = .idle) (hstage : transmits (s.threads w).stage = true) :
    ∀ i, (setLane t ((s.lanes t).push ring) (s.setSub w (.wake t))).Safe i := by
  have hpush : ((s.lanes t).push ring).pending = (s.lanes t).pending ∧
      ((s.lanes t).push ring).parked = (s.lanes t).parked := by
    cases ring <;> exact ⟨rfl, rfl⟩
  have howed : ∀ i, s.Owed i →
      (setLane t ((s.lanes t).push ring) (s.setSub w (.wake t))).Owed i := by
    intro i ho
    refine setLane_owed hpush.1 (setSub_owed (.inl ?_) ho)
    rw [hidle]
    exact nofun
  intro i
  by_cases heq : i = t
  · subst heq
    have hlane := setLane_self i ((s.lanes i).push ring) (s.setSub w (.wake i))
    have hst : ((setLane i ((s.lanes i).push ring) (s.setSub w (.wake i))).threads i).stage =
        (s.threads i).stage := (rest_setSub w i (.wake i) s).1
    by_cases hself : w = i
    · -- the owner itself has not yet looked
      subst hself
      have hpast : (s.threads w).stage.pastRx = false ∧ (s.threads w).stage.pastTx = false := by
        cases hs : (s.threads w).stage <;> rw [hs] at hstage <;>
          first | exact ⟨rfl, rfl⟩ | cases hstage
      refine ⟨fun hl hp => ?_, fun hl => ?_, fun hl => ?_⟩
      · rw [hlane, hpush.2] at hp
        exact howed w ((h w).flag (hst ▸ hl) hp)
      · rw [hst, hpast.1] at hl
        cases hl
      · rw [hst, hpast.2] at hl
        cases hl
    · have hcoming : (setLane i ((s.lanes i).push ring) (s.setSub w (.wake i))).Coming i :=
        ⟨w, hself, (sub_setSub w w (.wake i) s).trans (if_pos rfl)⟩
      refine ⟨fun hl hp => ?_, fun _ _ => .inr hcoming, fun _ _ => .inr hcoming⟩
      rw [hlane, hpush.2] at hp
      exact howed i ((h i).flag (hst ▸ hl) hp)
  · refine (h i).keep (rest_setSub w i (.wake t) s).1 ?_ (howed i) fun hc => .inr ?_
    · rw [setLane_of_ne heq]
      exact ⟨rfl, rfl, rfl⟩
    · exact setSub_coming (.inr (by rw [hidle]; exact nofun)) hc

/-- The record of the run plays no part. -/
theorem woken_safe {woken : List (Fin n × Nat)} :
    ∀ i, ({ s with woken := woken } : Fabric n).Safe i := by
  intro i
  refine (h i).keep rfl ⟨rfl, rfl, rfl⟩ (fun ho => ?_) .inr
  cases ho with
  | taken p hp => exact .taken p hp
  | queued p hp => exact .queued p hp
  | pending hpos => exact .pending hpos

/-- The exchange of `Wake`. -/
theorem wake_safe (hsub : (s.threads w).sub = .wake t) : ∀ i, (s.wake w t).Safe i := by
  have hnot : ∀ i, (s.threads w).sub ≠ .wakeRemote i := by
    intro i
    rw [hsub]
    exact nofun
  have hother : ∀ i, i ≠ t → w = i ∨ (s.threads w).sub ≠ .wake i := by
    intro i hne
    rw [hsub]
    exact .inr fun heq => hne (Sub.wake.inj heq).symm
  unfold wake
  split
  next hup =>
    refine woken_safe fun i => ?_
    by_cases heq : i = t
    · subst heq
      -- the producer that took the flag owes the wake
      have howed : (setLane i { s.lanes i with parked := false }
          (s.setSub w (.wakeRemote i))).Owed i :=
        .taken w ((sub_setSub w w (.wakeRemote i) s).trans (if_pos rfl))
      exact ⟨fun _ _ => howed, fun _ _ => .inl howed, fun _ _ => .inl howed⟩
    refine (h i).keep (rest_setSub w i (.wakeRemote t) s).1 ?_ (fun ho => ?_) fun hc => .inr ?_
    · rw [setLane_of_ne heq]
      exact ⟨rfl, rfl, rfl⟩
    · exact setLane_owed rfl (setSub_owed (.inl (hnot i)) ho)
    · exact setSub_coming (hother i heq) hc
  next hdown =>
    intro i
    have howed : s.Owed i → (s.setSub w .idle).Owed i := setSub_owed (.inl (hnot i))
    have hst := (rest_setSub w i .idle s).1
    by_cases heq : i ≠ t ∨ w = i
    · refine (h i).keep hst ⟨rfl, rfl, rfl⟩ howed fun hc => .inr (setSub_coming ?_ hc)
      rcases heq with hne | hself
      · exact hother i hne
      · exact .inl hself
    -- the flag was down, so another wake is on its way if the owner is in `Wait`
    obtain ⟨rfl, hself⟩ : i = t ∧ ¬w = i := by
      rw [not_or, not_not] at heq
      exact heq
    have hflag : (s.lanes i).parked = false := by
      cases hp : (s.lanes i).parked with
      | false => rfl
      | true => exact absurd ⟨fun habs => hself habs.symm, hp⟩ hdown
    have hlooking : (s.threads i).stage.looking = true → (s.setSub w .idle).Owed i :=
      fun hl => howed ((h i).flag hl hflag)
    constructor
    · exact fun hl _ => hlooking (hst ▸ hl)
    · exact fun hl _ => .inl (hlooking (Stage.looking_of_pastRx (hst ▸ hl)))
    · exact fun hl _ => .inl (hlooking (Stage.looking_of_pastTx (hst ▸ hl)))

/-- The request is queued. -/
theorem wakeRemote_safe (hsub : (s.threads w).sub = .wakeRemote t) :
    ∀ i, ({ s with threads := update s.threads w { s.threads w with
      sub := .idle, wakes := (s.threads w).wakes ++ [t] } } : Fabric n).Safe i := by
  intro i
  generalize hs' : ({ s with threads := update s.threads w { s.threads w with
    sub := .idle, wakes := (s.threads w).wakes ++ [t] } } : Fabric n) = s'
  have hself : s'.threads w = { s.threads w with
      sub := .idle, wakes := (s.threads w).wakes ++ [t] } := by
    rw [← hs']
    exact update_self ..
  have hne : ∀ p, p ≠ w → s'.threads p = s.threads p := by
    intro p hp
    rw [← hs']
    exact update_of_ne hp ..
  have hlanes : s'.lanes = s.lanes := by rw [← hs']
  refine (h i).keep ?_ (by rw [hlanes]; exact ⟨rfl, rfl, rfl⟩) (fun ho => ?_) fun hc => .inr ?_
  · by_cases heq : i = w
    · rw [heq, hself]
    · rw [hne i heq]
  · cases ho with
    | taken p hp =>
      by_cases heq : p = w
      · subst heq
        rw [hsub] at hp
        obtain rfl := Sub.wakeRemote.inj hp
        exact .queued p (by rw [hself]; simp)
      · exact .taken p (by rw [hne p heq]; exact hp)
    | queued p hp =>
      by_cases heq : p = w
      · subst heq
        exact .queued p (by rw [hself]; exact mem_append_left _ hp)
      · exact .queued p (by rw [hne p heq]; exact hp)
    | pending hpos => exact .pending (by rw [hlanes]; exact hpos)
  · obtain ⟨p, hpi, hp⟩ := hc
    refine ⟨p, hpi, ?_⟩
    rw [hne p]
    · exact hp
    rintro rfl
    rw [hsub] at hp
    cases hp

/-- Requests reach their targets. -/
theorem submit_safe (w : Fin n) (k : Nat) : ∀ i, (s.submit w k).Safe i := by
  intro i
  have hself : (s.submit w k).threads w = { s.threads w with
      wakes := (s.threads w).wakes.drop k } := update_self ..
  have hne : ∀ p, p ≠ w → (s.submit w k).threads p = s.threads p :=
    fun p hp => update_of_ne hp ..
  have hsub : ∀ p, ((s.submit w k).threads p).sub = (s.threads p).sub := by
    intro p
    by_cases heq : p = w
    · rw [heq, hself]
    · rw [hne p heq]
  refine (h i).keep ?_ ⟨rfl, rfl, rfl⟩ (fun ho => ?_) fun hc => .inr ?_
  · by_cases heq : i = w
    · rw [heq, hself]
    · rw [hne i heq]
  · cases ho with
    | taken p hp => exact .taken p (by rw [hsub]; exact hp)
    | queued p hp =>
      by_cases heq : p = w
      · subst heq
        rw [← take_append_drop k (s.threads p).wakes, mem_append] at hp
        rcases hp with hsent | hleft
        · refine .pending ?_
          have hpos := count_pos_iff.mpr hsent
          show 0 < (s.lanes i).pending + ((s.threads p).wakes.take k).count i
          omega
        · exact .queued p (by rw [hself]; exact hleft)
      · exact .queued p (by rw [hne p heq]; exact hp)
    | pending hpos => exact .pending (Nat.lt_of_lt_of_le hpos (Nat.le_add_right ..))
  · obtain ⟨p, hpi, hp⟩ := hc
    exact ⟨p, hpi, by rw [hsub]; exact hp⟩

end

variable {work waiting : Bool}

theorem Looks.poll {a b : PollStep} {work' : Bool}
    (hparks : lane'.parks = lane.parks) (hparked : lane'.parked = lane.parked)
    (h : work' = false → work = false ∧ lane'.pending = lane.pending) :
    Looks (.poll a work waiting) (.poll b work' waiting) lane lane' := by
  cases hwork : work' with
  | true => exact Looks.away (Bool.and_false waiting) (.same hparks hparked)
  | false =>
    obtain ⟨hold, hpending⟩ := h hwork
    rw [hold]
    exact ⟨.same hparks hparked, fun hl => .inr ⟨hl, hparked⟩, fun _ => hpending, nofun, nofun⟩

theorem Looks.polled {a : PollStep} {work' : Bool} (h : work' = false → work = false) :
    Looks (.poll a work waiting) (Fabric.polled work' waiting) lane lane := by
  cases waiting
  · exact Looks.away rfl
  cases hwork : work' with
  | true => exact Looks.away rfl
  | false =>
    rw [h hwork]
    exact ⟨.same rfl rfl, fun _ => .inr ⟨rfl, rfl⟩, fun _ => rfl, nofun, nofun⟩

/-- **What a step can do.** -/
inductive Effect (s : Fabric n) : Fabric n → Prop where
  | same : Effect s s
  | own {w : Fin n} {st : Stage} {lane : Lane} :
      Looks (s.threads w).stage st (s.lanes w) lane → Effect s (s.own w st lane)
  | enqueue {w t : Fin n} {ring : Packets.Ring} :
      (s.threads w).sub = .idle → transmits (s.threads w).stage = true →
      Effect s (setLane t ((s.lanes t).push ring) (s.setSub w (.wake t)))
  | wake {w t : Fin n} : (s.threads w).sub = .wake t → Effect s (s.wake w t)
  | wakeRemote {w t : Fin n} :
      (s.threads w).sub = .wakeRemote t →
      Effect s { s with threads := Function.update s.threads w { s.threads w with
        sub := .idle, wakes := (s.threads w).wakes ++ [t] } }
  | submit (w : Fin n) (k : Nat) : Effect s (s.submit w k)
  | submitOwn {w : Fin n} {st : Stage} {lane : Lane} (k : Nat) :
      Looks ((s.submit w k).threads w).stage st ((s.submit w k).lanes w) lane →
      Effect s ((s.submit w k).own w st lane)

theorem Effect.safe (h : Effect s s') (hs : ∀ i, s.Safe i) : ∀ i, s'.Safe i := by
  cases h with
  | same => exact hs
  | own hlook => exact own_safe hs hlook
  | enqueue hidle hstage => exact enqueue_safe hs hidle hstage
  | wake hsub => exact wake_safe hs hsub
  | wakeRemote hsub => exact wakeRemote_safe hs hsub
  | submit w k => exact submit_safe hs w k
  | submitOwn k hlook => exact own_safe (submit_safe hs _ k) hlook

theorem stepPoll_effect {queues : Nat}
    {at_ : PollStep} (hstage : (s.threads w).stage = .poll at_ work waiting)
    {op : Op n} (hs : stepPoll queues w at_ work waiting s op = some s') : Effect s s' := by
  cases op with
  | reap k other =>
    obtain ⟨-, hs⟩ := ite_none_right_eq_some.mp hs
    cases hs
    refine .own ?_
    rw [hstage]
    refine Looks.poll rfl rfl fun hfalse => ?_
    simp only [Bool.or_eq_false_iff, decide_eq_false_iff_not, not_not] at hfalse
    rw [hfalse.2]
    exact ⟨hfalse.1.1, rfl⟩
  | receive count =>
    obtain ⟨-, hs⟩ := ite_none_right_eq_some.mp hs
    cases hs
    rw [setStage_eq_own]
    refine .own ?_
    rw [hstage]
    exact Looks.poll rfl rfl fun hfalse => ⟨(Bool.or_eq_false_iff.mp hfalse).1, rfl⟩
  | dequeue | flush =>
    obtain ⟨-, hs⟩ := ite_none_right_eq_some.mp hs
    cases hs
    refine .own ?_
    rw [hstage]
    exact Looks.poll rfl rfl fun hfalse => ⟨(Bool.or_eq_false_iff.mp hfalse).1, rfl⟩
  | bsdPoll =>
    obtain ⟨-, hs⟩ := ite_none_right_eq_some.mp hs
    cases hs
    rw [setStage_eq_own]
    refine .own ?_
    rw [hstage]
    exact Looks.poll rfl rfl fun hfalse => ⟨hfalse, rfl⟩
  | sockets found =>
    obtain ⟨-, hs⟩ := ite_none_right_eq_some.mp hs
    cases hs
    rw [setStage_eq_own]
    refine .own ?_
    rw [hstage]
    exact Looks.polled fun hfalse => (Bool.or_eq_false_iff.mp hfalse).1
  | _ => cases hs

/-- A step of `Wait` that leaves the lane alone and either goes on or gives up. -/
theorem Looks.recheck {old : Stage} {go : Prop} [Decidable go] (hlook : old.looking = true)
    (hrx : st.pastRx = true → go → lane.rx = 0 ∨ old.pastRx = true)
    (htx : st.pastTx = true → go → lane.tx = 0 ∨ old.pastTx = true) :
    Looks old (if go then st else .unpark) lane lane := by
  split
  next hgo =>
    refine ⟨.same rfl rfl, fun _ => .inr ⟨hlook, rfl⟩, fun _ => rfl, fun hl => ?_, fun hl => ?_⟩
    · exact (hrx hl hgo).imp_right fun hold => ⟨hold, rfl⟩
    · exact (htx hl hgo).imp_right fun hold => ⟨hold, rfl⟩
  next => exact Looks.away rfl

theorem stepWait_effect
    (hstage : (s.threads w).stage = st) {op : Op n} (hs : stepWait w s st op = some s') :
    Effect s s' := by
  unfold stepWait at hs
  split at hs
  next ok =>
    cases hs
    rw [setStage_eq_own]
    refine .own ?_
    rw [hstage]
    exact Looks.recheck rfl (nofun) nofun
  next =>
    cases hs
    rw [setStage_eq_own]
    refine .own ?_
    rw [hstage]
    exact Looks.recheck rfl (fun _ hgo => .inl hgo) nofun
  next =>
    cases hs
    rw [setStage_eq_own]
    refine .own ?_
    rw [hstage]
    exact Looks.recheck rfl (fun _ _ => .inr rfl) fun _ hgo => .inl hgo
  next completions =>
    cases hs
    rw [setStage_eq_own]
    refine .own ?_
    rw [hstage]
    cases completions with
    | true => exact Looks.away rfl
    | false =>
      exact ⟨.same rfl rfl, fun _ => .inr ⟨rfl, rfl⟩, fun _ => rfl, fun _ => .inr ⟨rfl, rfl⟩,
        fun _ => .inr ⟨rfl, rfl⟩⟩
  next k ok due hasPending =>
    cases hs
    have hthread : (s.submit w k).threads w =
        { s.threads w with wakes := (s.threads w).wakes.drop k } := update_self ..
    rw [setStage_eq_own]
    refine .submitOwn k ?_
    rw [hthread]
    rw [hstage]
    exact Looks.recheck rfl (fun _ _ => .inr rfl) fun _ _ => .inr rfl
  next k =>
    obtain ⟨-, hs⟩ := ite_none_right_eq_some.mp hs
    cases hs
    exact .own (Looks.away rfl)
  next =>
    cases hs
    exact .own (Looks.away rfl (.inr ⟨rfl, nofun⟩))
  next => cases hs

theorem step_effect {queues : Nat} {a : Fin n × Op n}
    (hs : step queues s a = some s') : Effect s s' := by
  unfold step at hs
  dsimp only at hs
  split at hs
  next target hsub =>
    split at hs
    · cases hs
      exact .wake hsub
    · cases hs
  next target hsub =>
    split at hs
    · cases hs
      exact .wakeRemote hsub
    · cases hs
  next hsub =>
    split at hs
    next ring target full =>
      obtain ⟨hstage, hs⟩ := ite_none_right_eq_some.mp hs
      split at hs
      · cases hs
        exact .same
      cases hs
      exact .enqueue hsub hstage
    next k _ _ =>
      cases hs
      exact .submit a.1 k
    next hstage =>
      cases hs
      rw [setLane_eq_own hstage]
      exact .own (Looks.away rfl)
    next hstage =>
      cases hs
      rw [setStage_eq_own]
      exact .own (Looks.away rfl)
    next hstage =>
      cases hs
      refine .own ⟨.inl (Nat.lt_succ_self _), fun _ => .inl rfl, fun _ => rfl, fun hl => ?_,
        fun hl => ?_⟩
      · cases hl
      · cases hl
    next => exact stepPoll_effect (by assumption) hs
    next => exact stepWait_effect rfl hs

/-! ## Each park is woken once -/

/-- The parks in the record are different, and the current one is not among them while the flag is
    up. -/
structure Fresh (s : Fabric n) : Prop where
  nodup : s.woken.Nodup
  parks : ∀ x ∈ s.woken, x.2 ≤ (s.lanes x.1).parks ∧
    ((s.lanes x.1).parked = true → x.2 < (s.lanes x.1).parks)

section

variable (h : s.Fresh)
include h

/-- Nobody takes the flag, and the owner may lower it or park anew. -/
theorem Fresh.keep (hwoken : s'.woken = s.woken)
    (hlanes : ∀ i, Parks (s.lanes i) (s'.lanes i)) : s'.Fresh := by
  refine ⟨hwoken ▸ h.nodup, fun x hx => ?_⟩
  obtain ⟨hle, hlt⟩ := h.parks x (hwoken ▸ hx)
  rcases hlanes x.1 with hmore | ⟨hsame, hparked⟩
  · exact ⟨by omega, fun _ => by omega⟩
  rw [hsame]
  exact ⟨hle, fun hp => hlt (hparked hp)⟩

theorem own_fresh (hlane : Parks (s.lanes w) lane) : (s.own w st lane).Fresh := by
  refine h.keep rfl fun i => ?_
  by_cases heq : i = w
  · subst heq
    rw [own_lane_self]
    exact hlane
  rw [own_lane_of_ne heq]
  exact .inr ⟨rfl, id⟩

theorem setLane_fresh (hlane : Parks (s.lanes t) lane) : (s.setLane t lane).Fresh := by
  refine h.keep rfl fun i => ?_
  by_cases heq : i = t
  · subst heq
    rw [setLane_self]
    exact hlane
  rw [setLane_of_ne heq]
  exact .same rfl rfl

/-- The threads play no part. -/
theorem Fresh.threads {threads : Fin n → Thread n} :
    ({ s with threads := threads } : Fabric n).Fresh :=
  h.keep rfl fun _ => .inr ⟨rfl, id⟩

theorem submit_fresh (w : Fin n) (k : Nat) : (s.submit w k).Fresh :=
  h.keep rfl fun _ => .inr ⟨rfl, id⟩

theorem wake_fresh (w t : Fin n) : (s.wake w t).Fresh := by
  unfold wake
  split
  next hup =>
    have hsub : (s.setSub w (.wakeRemote t)).Fresh := h.threads
    have hlower : (setLane t { s.lanes t with parked := false }
        (s.setSub w (.wakeRemote t))).Fresh :=
      setLane_fresh hsub (.inr ⟨rfl, nofun⟩)
    refine ⟨nodup_cons.mpr ⟨fun hmem => ?_, h.nodup⟩, fun x hx => ?_⟩
    · exact Nat.lt_irrefl _ ((h.parks _ hmem).2 hup.2)
    · rcases mem_cons.mp hx with rfl | hold
      · have hlane := setLane_self t { s.lanes t with parked := false } (s.setSub w (.wakeRemote t))
        refine ⟨Nat.le_of_eq ?_, fun hp => ?_⟩
        · exact (congrArg Lane.parks hlane).symm
        · rw [show (_ : Bool) = _ from congrArg Lane.parked hlane] at hp
          cases hp
      · exact hlower.parks x hold
  next => exact h.threads

end

theorem Effect.fresh (h : Effect s s') (hs : s.Fresh) : s'.Fresh := by
  cases h with
  | same => exact hs
  | own hlook => exact own_fresh hs hlook.parks
  | @enqueue w t ring _ _ =>
    refine setLane_fresh hs.threads ?_
    cases ring <;> exact .same rfl rfl
  | wake _ => exact wake_fresh hs ..
  | wakeRemote _ => exact hs.threads
  | submit w k => exact submit_fresh hs w k
  | submitOwn k hlook => exact own_fresh (submit_fresh hs _ k) hlook.parks

end Fabric

/-! ## Every run -/

variable {n queues : Nat}

theorem reachable_inv {s : Fabric n} (h : (wakeSystem n queues).Reachable s) :
    (∀ i, s.Safe i) ∧ s.Fresh := by
  refine Reachable.invariant
    (P := fun s => (∀ i, s.Safe i) ∧ s.Fresh) ?_ ?_ h
  · rintro s ⟨hthreads, hlanes, hwoken⟩
    refine ⟨fun i => ⟨?_, ?_, ?_⟩, ?_, ?_⟩
    · rw [hthreads i]
      exact nofun
    · rw [hthreads i]
      exact nofun
    · rw [hthreads i]
      exact nofun
    · rw [hwoken]
      exact nodup_nil
    · rw [hwoken]
      exact nofun
  · intro s a s' ⟨hsafe, hfresh⟩ hs
    have heffect := Fabric.step_effect hs
    exact ⟨heffect.safe hsafe, heffect.fresh hfresh⟩

/-- **No packet wake is lost.**  If a worker is blocked and one of its rings holds a packet, then
    some producer is between its enqueue and its exchange, or has taken the flag and is about to
    queue the wake, or a wake is in a producer's ring or in the owner's CQ; and no two producers
    have taken the flag of one park. -/
theorem reachable_wakes {s : Fabric n} (h : (wakeSystem n queues).Reachable s) :
    (∀ i, (s.threads i).stage = .blocked → (s.lanes i).rx ≠ 0 ∨ (s.lanes i).tx ≠ 0 →
      (∃ p, p ≠ i ∧ (s.threads p).sub = .wake i) ∨ (∃ p, (s.threads p).sub = .wakeRemote i) ∨
        (∃ p, i ∈ (s.threads p).wakes) ∨ 0 < (s.lanes i).pending) ∧
      s.woken.Nodup := by
  obtain ⟨hsafe, hfresh⟩ := reachable_inv h
  refine ⟨fun i hblocked hrings => ?_, hfresh.nodup⟩
  have hor : s.Owed i ∨ s.Coming i := by
    rcases hrings with hrx | htx
    · exact (hsafe i).rx (by rw [hblocked]; rfl) hrx
    · exact (hsafe i).tx (by rw [hblocked]; rfl) htx
  rcases hor with howed | hcoming
  · cases howed with
    | taken p hp => exact .inr (.inl ⟨p, hp⟩)
    | queued p hp => exact .inr (.inr (.inl ⟨p, hp⟩))
    | pending hpos => exact .inr (.inr (.inr hpos))
  · exact .inl hcoming

/-- Nothing has happened yet. -/
def idleFabric (n : Nat) : Fabric n :=
  ⟨fun _ => ⟨.loop, .idle, []⟩, fun _ => ⟨0, 0, false, 0, 0⟩, []⟩

/-- Worker `w` finds nothing and blocks. -/
def blocks (w : Fin 2) : List (Fin 2 × Op 2) :=
  [.wait, .arm true, .reap 0 false, .receive 0, .dequeue, .bsdPoll, .flush, .sockets false,
    .recheck false, .recheck false, .recheck false, .submitWait 0 true false false].map (w, ·)

/-- Worker `p` puts a packet into the ring of worker `w` and queues the wake. -/
def packetFor (w p : Fin 2) : List (Fin 2 × Op 2) :=
  [.enqueue .rx w false, .exchange, .wakeRemote].map (p, ·)

theorem reachable_wakes_packet :
    ∃ s, (wakeSystem 2 2).run (idleFabric 2) (blocks 0 ++ packetFor 0 1) = some s ∧
      (s.threads 0).stage = .blocked ∧ (s.lanes 0).rx = 1 ∧
      ((∃ p, p ≠ 0 ∧ (s.threads p).sub = .wake 0) ∨ (∃ p, (s.threads p).sub = .wakeRemote 0) ∨
        (∃ p, 0 ∈ (s.threads p).wakes) ∨ 0 < (s.lanes 0).pending) ∧ s.woken.Nodup := by
  have hinit : (wakeSystem 2 2).Reachable (idleFabric 2) := .init ⟨fun _ => rfl, fun _ => rfl, rfl⟩
  have hreach := hinit.run (blocks 0 ++ packetFor 0 1) rfl
  refine ⟨_, rfl, rfl, rfl, ?_, ?_⟩
  · exact (reachable_wakes hreach).1 0 rfl (.inl (by decide))
  · exact (reachable_wakes hreach).2

/-- **Between the exchange and the request** a wake is nowhere in a queue: worker 0 is blocked, its
    ring holds a packet, no producer is before its exchange, and no wake is queued or pending. -/
theorem taken_not_queued :
    ∃ s, (wakeSystem 2 2).Reachable s ∧ (s.threads 0).stage = .blocked ∧ (s.lanes 0).rx = 1 ∧
      (∀ p t, (s.threads p).sub ≠ .wake t) ∧ (∀ p, (s.threads p).wakes = []) ∧
      (s.lanes 0).pending = 0 := by
  have hinit : (wakeSystem 2 2).Reachable (idleFabric 2) := .init ⟨fun _ => rfl, fun _ => rfl, rfl⟩
  exact ⟨_, hinit.run (blocks 0 ++ (packetFor 0 1).take 2) rfl, rfl, rfl, by decide, by decide, rfl⟩

end Bycorf.Dpdk.PacketWake
