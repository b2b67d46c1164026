/-
  No operation outlives the descriptor it was accepted for.

  A number that is closed may be handed out again at once.  `Net.Descriptors` says that nothing
  waits on a closed number; this follows an operation from there through the rest of a run.

  1. **What an entry is (`Written`)** — while an accepted operation is unsubmitted, its entry is the
     one that its submission was prepared as.
  2. **The rest of the run (`reachable_no_reuse`)** — an operation accepted on a number that is now
     closed is never consumed by the kernel, and stays where its one terminal completion comes from.
-/
import Bycorf.Net.Descriptors

namespace Bycorf

open IoUring Lib
open Backend (accept entryOf fresh onRawFd opKey total)

/-! ## What an entry is -/

namespace IoUring.Backend

variable {T : Type} {L : Liburing T}

/-- Numbers are below the next one, and the entry of an accepted submission is what it was prepared
    as. -/
structure Written (L : Liburing T) (s : Backend T) : Prop where
  numbers : ∀ a ∈ s.accepted, a.1 < s.nextOp
  below : ∀ e ∈ s.unsubmitted, ∀ op, e.op = some op → op < s.nextOp
  entry : ∀ a ∈ s.accepted, ∀ e ∈ s.unsubmitted, e.op = some a.1 → e = entryOf L a.2 a.1

theorem fresh_written (slots : List (Sqe T)) (wakeEventFd : Int) :
    Written L (fresh slots wakeEventFd) where
  numbers a ha := by cases ha
  below e he := by cases he
  entry a ha := by cases ha

variable {s s' : Backend T}

/-- Nothing is accepted; what is unsubmitted was there, or is a `NOP`. -/
theorem Written.keep (h : Written L s) (haccepted : s'.accepted = s.accepted)
    (hnext : s.nextOp ≤ s'.nextOp)
    (hmem : ∀ e ∈ s'.unsubmitted, e ∈ s.unsubmitted ∨ e = nopEntry L) : Written L s' := by
  refine ⟨fun a ha => ?_, fun e he op hop => ?_, fun a ha e he hop => ?_⟩
  · rw [haccepted] at ha
    exact Nat.lt_of_lt_of_le (h.numbers a ha) hnext
  · rcases hmem e he with hold | rfl
    · exact Nat.lt_of_lt_of_le (h.below e hold op hop) hnext
    · cases hop
  · rw [haccepted] at ha
    rcases hmem e he with hold | rfl
    · exact h.entry a ha e hold hop
    · cases hop

/-- A submission is accepted as the next number. -/
theorem Written.accept (h : Written L s) (sub : Submission T)
    (haccepted : s'.accepted = s.accepted ++ [(s.nextOp, sub)])
    (hnext : s'.nextOp = s.nextOp + 1)
    (hmem : ∀ e ∈ s'.unsubmitted, e ∈ s.unsubmitted ∨ e = entryOf L sub s.nextOp) :
    Written L s' := by
  have hlt : ∀ n, n < s.nextOp → n < s'.nextOp := by
    intro n hn
    omega
  refine ⟨fun a ha => ?_, fun e he op hop => ?_, fun a ha e he hop => ?_⟩
  · rw [haccepted] at ha
    rcases mem_append.mp ha with hold | hnew
    · exact hlt _ (h.numbers a hold)
    obtain rfl := mem_singleton.mp hnew
    show s.nextOp < s'.nextOp
    omega
  · rcases hmem e he with hold | rfl
    · exact hlt _ (h.below e hold op hop)
    · cases hop
      omega
  · rw [haccepted] at ha
    rcases mem_append.mp ha with hold | hnew
    · rcases hmem e he with hbefore | rfl
      · exact h.entry a hold e hbefore hop
      · -- the new entry has a new number
        have hnum := h.numbers a hold
        have heq : s.nextOp = a.1 := some.inj hop
        omega
    obtain rfl := mem_singleton.mp hnew
    rcases hmem e he with hbefore | rfl
    · have hnum := h.below e hbefore _ hop
      omega
    · rfl

variable [DecidableEq T] {A : Submission T → Prop}

theorem Inner.written (h : Inner L A s s') (hs : Written L s) : Written L s' := by
  cases h with
  | pushSq sub _ hp _ =>
    refine hs.accept sub rfl rfl fun e he => ?_
    simp only [accept, unsubmitted, hp, append_nil, mem_append, mem_singleton] at he ⊢
    exact he
  | pushQueue sub _ =>
    refine hs.accept sub rfl rfl fun e he => ?_
    simp only [accept, unsubmitted, mem_append, mem_singleton] at he ⊢
    rcases he with hq | hp | hnew
    · exact .inl (.inl hq)
    · exact .inl (.inr hp)
    · exact .inr hnew
  | retire hit result _ =>
    exact hs.keep rfl le_rfl fun e he => (mem_retireMatching he).imp And.left id
  | retireCancels target =>
    refine hs.keep rfl le_rfl fun e he => ?_
    have hret : e ∈ (s.retireMatching L (isCancelOf target) (-eNoent)).unsubmitted := he
    exact (mem_retireMatching hret).imp And.left id
  | completeCancel target completion _ => exact hs.keep rfl (Nat.le_succ _) fun e he => .inl he
  | drain =>
    refine hs.keep ?_ (drainPending_frame s).2.2.2.ge fun e he => .inl ?_
    · unfold drainPending
      split <;> rfl
    · rw [unsubmitted_drainPending] at he
      exact he
  | enter count =>
    refine hs.keep rfl le_rfl fun e he => .inl ?_
    rcases mem_append.mp he with hq | hp
    · exact mem_append_left _ (List.mem_of_mem_drop hq)
    · exact mem_append_right _ hp
  | flags armed registered => exact hs.keep rfl le_rfl fun e he => .inl he

theorem Move.written (h : Move L s s') (hs : Written L s) : Written L s' := by
  cases h with
  | inner h => exact h.written hs
  | complete hc =>
    obtain ⟨e, _, rfl⟩ := map_eq_some_iff.mp hc
    exact hs.keep rfl le_rfl fun e he => .inl he
  | _ => exact hs.keep rfl le_rfl fun e he => .inl he

end IoUring.Backend

namespace Net.Worker

variable {L : Liburing Tag} {D : (ConnPtr → Option Connection) → Cqe Tag → Prop} {w : Worker}

theorem reachable_written {ok : Worker → Action → Prop} (h : (system L).ReachableUnder ok w) :
    w.backend.Written L ∧
      total opKey w.backend = Multiset.range w.backend.nextOp := by
  refine reachable_invariant (D := fun _ _ => True) (P := fun w => w.backend.Written L ∧
    total opKey w.backend = Multiset.range w.backend.nextOp)
    (fun _ _ _ _ _ => trivial) ?_ ?_ h
  · intro options slots wakeEventFd
    exact ⟨Backend.fresh_written slots wakeEventFd, rfl⟩
  · rintro w w' ⟨hwritten, htotal⟩ hchange
    exact ⟨hchange.moves.induct (fun _ _ hs hmove => hmove.written hs) hwritten,
      hchange.moves.total_range htotal⟩

variable {r : Request Tag} {fd : Int}

/-- A request that names a raw descriptor becomes a socket operation on it. -/
theorem onRawFd_of_rawFd (h : rawFd r = some fd) (op : Nat) :
    onRawFd fd (entryOf L (.request r) op).sqe = true := by
  have hflag := (L.flags_prep r.prep).1
  simp only [onRawFd, entryOf, prepare, Sqe.setData, Request.fixedFile_adjust,
    Request.fd_adjust, Request.opcode_adjust, Liburing.fd_prep, Liburing.opcode_prep, hflag,
    Bool.false_or, and_eq_true, Bool.not_eq_true', decide_eq_true_eq]
  cases r with
  | send file buffer tag | sendMsg file message tag | peerDisconnectPoll c file =>
    obtain ⟨hfixed, hfd⟩ := ite_none_left_eq_some.mp h
    cases hfd
    have hraw : file.isFixed = false := Bool.eq_false_of_not_eq_true hfixed
    refine ⟨⟨hraw, ?_⟩, rfl⟩
    simp [Request.prep, Prep.fd, RegisteredFile.target, hraw]
  | recv c file useMultishot buffer =>
    obtain ⟨hfixed, hfd⟩ := ite_none_left_eq_some.mp h
    cases hfd
    have hraw : file.isFixed = false := Bool.eq_false_of_not_eq_true hfixed
    cases useMultishot with
    | true | false =>
      refine ⟨⟨hraw, ?_⟩, rfl⟩
      simp [Request.prep, Prep.fd, RegisteredFile.target, hraw]
  | wakePoll f | acceptMultishot f tag | connect f address length tag | poll f events tag =>
    cases h
    exact ⟨⟨rfl, rfl⟩, rfl⟩
  | _ => cases h

/-! ## The rest of the run -/

/-- What is known of operation `op` from the state `w` on in which its descriptor is closed. -/
structure Stale (w : Worker) (op : Nat) (v : Worker) : Prop where
  accepted : op < v.backend.nextOp
  unsubmitted : ∀ e ∈ v.backend.unsubmitted, e.op ≠ some op
  consumed : ∃ new, v.backend.consumed = w.backend.consumed ++ new ∧ ∀ e ∈ new, e.op ≠ some op

variable {op : Nat} {v : Worker}

theorem Change.stale {v' : Worker} (h : Change L D v v') (hv : Stale w op v) : Stale w op v' := by
  refine ⟨Nat.lt_of_lt_of_le hv.accepted h.effect.nextOp_le, fun e he => ?_, ?_⟩
  · rcases h.effect.mem_unsubmitted he with hold | rfl | ⟨sub, _, rfl⟩
    · exact hv.unsubmitted e hold
    · intro hop
      cases hop
    · intro hop
      have heq : v.backend.nextOp = op := some.inj hop
      exact absurd hv.accepted (by omega)
  · obtain ⟨new, hnew, hno⟩ := hv.consumed
    obtain ⟨more, hmore, hfrom⟩ := h.effect.consumed
    refine ⟨new ++ more, ?_, fun e he => ?_⟩
    · rw [hmore, hnew, append_assoc]
    · rcases mem_append.mp he with hold | hlater
      · exact hno e hold
      · exact hv.unsubmitted e (hfrom e hlater)

/-- On a closed number nothing is unsubmitted. -/
theorem Descriptors.stale (hw : w.Descriptors) (hwritten : w.backend.Written L)
    (hclosed : w.owner fd = .free)
    (hacc : (op, .request r) ∈ w.backend.accepted) (hraw : rawFd r = some fd) : Stale w op w := by
  refine ⟨hwritten.numbers _ hacc, fun e he hop => ?_, [], (append_nil _).symm,
    fun e he => by cases he⟩
  have hentry := hwritten.entry _ hacc e he hop
  have hon : onRawFd fd e.sqe = true := by
    rw [hentry]
    exact onRawFd_of_rawFd hraw op
  have husable := usable_of_mayUse (hw.unsubmitted e he fd hon).1
  rw [hclosed] at husable
  cases husable

theorem Stale.place (h : Stale w op v)
    (htotal : total opKey v.backend = Multiset.range v.backend.nextOp) :
    ∃ place, v.backend.AtOnly op place ∧ place ≠ .pendingIo ∧ place ≠ .sq := by
  obtain ⟨place, hat⟩ := Backend.exists_atOnly htotal h.accepted
  have hqueue : ∀ q : List (Entry Tag), (∀ e ∈ q, e ∈ v.backend.unsubmitted) →
      (q.filterMap Entry.op).count op ≠ 1 := by
    intro q hsub hone
    have hmem : op ∈ q.filterMap Entry.op := count_pos_iff.mp (by omega)
    obtain ⟨e, he, hop⟩ := List.mem_filterMap.mp hmem
    exact h.unsubmitted e (hsub e he) hop
  refine ⟨place, hat, ?_, ?_⟩
  · rintro rfl
    exact hqueue _ (fun e he => mem_append_right _ he) hat.1
  · rintro rfl
    exact hqueue _ (fun e he => mem_append_left _ he) hat.1

/-- **No descriptor-reuse hazard.**  Let a descriptor number be closed in a state of a run, and an
    operation have been accepted on it as a raw descriptor.  However the run goes on, and whoever
    gets the number next, the kernel consumes the operation never again, and the operation stays at
    exactly one place from which its one terminal completion comes: the kernel, the CQ, the deferred
    completions, or the handler calls already made. -/
theorem reachable_no_reuse {w v : Worker} (h : (system L).Reachable w) {fd : Int}
    (hclosed : w.owner fd = .free) {op : Nat} {r : Request Tag}
    (hacc : (op, .request r) ∈ w.backend.accepted) (hraw : rawFd r = some fd)
    {actions : List Action} (hrun : (system L).run w actions = some v) :
    (∃ new, v.backend.consumed = w.backend.consumed ++ new ∧ ∀ e ∈ new, e.op ≠ some op) ∧
    ∃ place, v.backend.AtOnly op place ∧ place ≠ .pendingIo ∧ place ≠ .sq := by
  have hstart : Stale w op w :=
    (reachable_descriptors h).2.stale (reachable_written h).1 hclosed hacc hraw
  obtain ⟨hv, hstale⟩ := System.run_invariant (P := fun v => (system L).Reachable v ∧ Stale w op v)
    (fun u a u' hu hs => ⟨hu.1.step hs, (step_changes (D := fun _ _ => True)
      (reachable_initialized hu.1) (fun _ _ => trivial) hs).induct
        (fun _ _ hP hchange => hchange.stale hP) hu.2⟩) actions ⟨h, hstart⟩ hrun
  exact ⟨hstale.consumed, hstale.place (reachable_written hv).2⟩

/-- A connection is closed while its receive waits in the submission queue. -/
def closeUnsubmitted : List Action :=
  [.socket 7, .addConnection ⟨7, 0, false⟩ .multishot 0 1, .ensureRecvArmed 1,
    .beginClose 1 Status.okStatus .localClose]

/-- The number is handed out again, a connection on it starts to receive, and the queue is
    submitted. -/
def reopenAndSubmit : List Action :=
  [.socket 7, .addConnection ⟨7, 0, false⟩ .multishot 0 2, .ensureRecvArmed 2, .submit 2 2]

theorem no_reuse_closed_receive :
    ∃ w v, (system (Liburing.standard Tag)).run smallWorker closeUnsubmitted = some w ∧
      (system (Liburing.standard Tag)).run w reopenAndSubmit = some v ∧ w.owner 7 = .free ∧
      (0, .request (.recv 1 ⟨7, 0, false⟩ true ⟨0, 0⟩)) ∈ w.backend.accepted ∧
      (∃ new, v.backend.consumed = w.backend.consumed ++ new ∧ ∀ e ∈ new, e.op ≠ some 0) ∧
      ∃ place, v.backend.AtOnly 0 place ∧ place ≠ .pendingIo ∧ place ≠ .sq := by
  have hrun : ∃ w ∈ (system (Liburing.standard Tag)).run smallWorker closeUnsubmitted,
      w.owner 7 = .free ∧
      (0, .request (.recv 1 ⟨7, 0, false⟩ true ⟨0, 0⟩)) ∈ w.backend.accepted ∧
      ((system (Liburing.standard Tag)).run w reopenAndSubmit).isSome = true := by
    decide +kernel
  obtain ⟨w, hw, hclosed, hacc, hv⟩ := hrun
  obtain ⟨v, hv⟩ := isSome_iff_exists.mp hv
  exact ⟨w, v, hw, hv, hclosed, hacc,
    reachable_no_reuse (Reachable.run (.init ⟨_, _, _, rfl⟩) _ hw) hclosed hacc rfl hv⟩

end Net.Worker

end Bycorf
