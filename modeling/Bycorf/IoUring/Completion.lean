/-
  Exactly one terminal completion for every accepted operation.

  1. **Accounting** — `unfinished key s` is the multiset of keys of the operations that still owe
     their terminal completion, summed over every place an operation can be; `key` is a parameter,
     so the same equations count operation numbers here and connection references above.
  2. **One equation per function** — submission adds the new operation, a dispatch removes the
     dispatched one, and everything else (retiring, draining, entering, the kernel) only MOVES.
  3. **Exactly once** — with the operation's number as key, what is unfinished together with the
     terminal handler calls is `{0, …, nextOp - 1}`, each number once (`reachable_total`).
-/
import Mathlib.Tactic.Abel
import Mathlib.Data.Multiset.Range
import Bycorf.Lib.Accounting
import Bycorf.IoUring.Moves

namespace Bycorf.IoUring.Backend

open Lib
open Multiset (coe_add mem_add range)

variable {T κ : Type} {L : Liburing T}

/-! ## The accounts -/

/-- What is counted: a key for an operation, from its tag and its number. -/
abbrev Key (T κ : Type) := UserData T → Option Nat → Option κ

section Accounts

variable (key : Key T κ)

/-- The key under which the accounts keep an entry. -/
def entryKey (e : Entry T) : Option κ := key e.sqe.userData e.op

/-- The key of a synthetic completion. -/
def pendingKey (c : PendingCompletion T) : Option κ := key c.userData c.op

/-- A CQE with more to come does not finish its operation. -/
def terminalKey (c : Cqe T) : Option κ := if c.more then none else key c.userData c.op

/-- The operations that still owe a terminal completion. -/
def unfinished (s : Backend T) : Multiset κ :=
  carried (entryKey key) s.pendingIo + carried (entryKey key) s.sq +
    carried (entryKey key) s.kernel + carried (terminalKey key) s.cq +
    carried (pendingKey key) s.pendingCompletions + carried (pendingKey key) s.phase.batch

/-- The operations whose handler was called with a terminal result. -/
def finished (s : Backend T) : Multiset κ := carried (terminalKey key) s.calls

end Accounts

/-- The `NOP` of a retired operation owes nothing. -/
def Key.IgnoresNop (key : Key T κ) : Prop := ∀ data, key data none = none

variable {key : Key T κ}

/-! ## One equation per function -/

variable {s : Backend T}

theorem unfinished_submitOrQueue (h : s.initialized = true) (sub : Submission T) :
    unfinished key (s.submitOrQueue L sub).2 =
      unfinished key s + single (key sub.userData (some s.nextOp)) := by
  have hentry : entryKey key (entryOf L sub s.nextOp) = key sub.userData (some s.nextOp) := by
    simp [entryKey, entryOf]
  rcases (submitOrQueue_spec h sub).2 with ⟨slot, slots, _, _, heq⟩ | heq
  · rw [heq]
    simp only [unfinished, accept, carried_append, carried_singleton, hentry]
    abel
  rw [heq]
  simp only [unfinished, accept, carried_append, carried_singleton, hentry]
  abel

/-- **Retiring moves**: what leaves the queues appears among the deferred completions. -/
theorem unfinished_retireMatching (hkey : key.IgnoresNop) (s : Backend T)
    (hit : Sqe T → Bool) (result : Int) :
    unfinished key (s.retireMatching L hit result) = unfinished key s := by
  have hnop : entryKey key (nopEntry L) = none := hkey _
  have hsq := carried_filter_add (entryKey key) (fun e => hit e.sqe) s.sq
  have hpend := carried_filter_add (entryKey key) (fun e => hit e.sqe) s.pendingIo
  simp only [unfinished, retireMatching, carried_append, unsubmitted, filter_append,
    map_append, carried_map, carried_blank hnop]
  rw [← hsq, ← hpend]
  show _ + (_ + (carried (entryKey key) _ + carried (entryKey key) _)) + _ = _
  abel

theorem unfinished_completeCancel (s : Backend T) (completion : UserData T) :
    unfinished key (s.completeCancel completion) =
      unfinished key s + single (key completion (some s.nextOp)) := by
  simp only [unfinished, completeCancel, carried_append, carried_singleton, pendingKey]
  abel

theorem carried_drainLoop (f : Entry T → Option κ) (slots : List (Sqe T))
    (pending sq : List (Entry T)) :
    carried f (drainLoop slots pending sq).2.1 + carried f (drainLoop slots pending sq).2.2 =
      carried f pending + carried f sq := by
  induction slots generalizing pending sq with
  | nil => simp [drainLoop]
  | cons slot slots ih =>
    cases pending with
    | nil => simp [drainLoop]
    | cons e pending =>
      rw [drainLoop, ih, carried_append, carried_cons f e pending]
      abel

theorem unfinished_drainPending (s : Backend T) :
    unfinished key s.drainPending = unfinished key s := by
  unfold drainPending
  split
  · simp only [unfinished]
    rw [carried_drainLoop]
  · rfl

theorem unfinished_enter (s : Backend T) (count : Nat) :
    unfinished key (s.enter count) = unfinished key s := by
  have hsplit := carried_take_add_drop (entryKey key) count s.sq
  simp only [unfinished, enter, carried_append]
  rw [← hsplit]
  abel

variable {s' : Backend T}

/-- The kernel keeps the operation until it posts its terminal CQE. -/
theorem unfinished_complete {i : Nat} {res : Int} {more : Bool}
    {buffer : Option UInt16} (h : s.complete i res more buffer = some s') :
    unfinished key s' = unfinished key s := by
  obtain ⟨e, he, rfl⟩ := map_eq_some_iff.mp h
  cases more with
  | true => simp [unfinished, terminalKey]
  | false =>
    have hsplit := carried_eraseIdx (entryKey key) he
    simp only [unfinished, if_neg Bool.false_ne_true, carried_append, carried_singleton,
      terminalKey] at hsplit ⊢
    rw [hsplit]
    simp only [entryKey]
    abel

theorem unfinished_ring (hkey : key.IgnoresNop) (s : Backend T) :
    unfinished key { s with cq := s.cq ++ [⟨.crossCoreWake, 0, false, none, none⟩] } =
      unfinished key s := by
  simp [unfinished, terminalKey, hkey .crossCoreWake]

/-- Taking the first CQE for dispatch. -/
theorem unfinished_reap {cqe : Cqe T} {cq : List (Cqe T)} (h : s.cq = cqe :: cq)
    (calls : List (Cqe T)) :
    unfinished key { s with cq := cq, calls := calls } + single (terminalKey key cqe) =
      unfinished key s := by
  simp only [unfinished, h, carried_cons (terminalKey key) cqe cq, carried_singleton]
  abel

/-- Taking the first deferred completion for dispatch. -/
theorem unfinished_deferred {c : PendingCompletion T}
    {batch : List (PendingCompletion T)} (h : s.phase.batch = c :: batch) (calls : List (Cqe T)) :
    unfinished key { s with phase := .deferred batch, calls := calls } +
        single (terminalKey key c.cqe) = unfinished key s := by
  have hc : terminalKey key c.cqe = pendingKey key c := rfl
  simp only [unfinished, h, hc, carried_cons (pendingKey key) c batch, carried_singleton,
    Phase.batch_deferred]
  abel

theorem unfinished_swap (h : s.phase.batch = []) :
    unfinished key { s with phase := .deferred s.pendingCompletions, pendingCompletions := [] } =
      unfinished key s := by
  simp only [unfinished, h, carried_nil, Phase.batch_deferred, add_zero]

/-! ## Every move balances the accounts -/

section Total

variable [DecidableEq T] {A : Submission T → Prop}

/-- Everything accepted so far: unfinished or finished. -/
def total (key : Key T κ) (s : Backend T) : Multiset κ := unfinished key s + finished key s

variable {s s' : Backend T}

/-- **An inner move accepts at most one operation, finishes none and calls no handler.** -/
theorem Inner.unfinished (hkey : key.IgnoresNop) (h : Inner L A s s') : s'.calls = s.calls ∧
      ((s'.nextOp = s.nextOp ∧ unfinished key s' = unfinished key s) ∨
        ∃ sub, A sub ∧ s'.nextOp = s.nextOp + 1 ∧
          unfinished key s' = unfinished key s + single (key sub.userData (some s.nextOp))) := by
  have hentry : ∀ sub, entryKey key (entryOf L sub s.nextOp) =
      key sub.userData (some s.nextOp) := by
    intro sub
    simp [entryKey, entryOf]
  cases h with
  | pushSq sub hsub _ _ =>
    refine ⟨rfl, .inr ⟨sub, hsub, rfl, ?_⟩⟩
    simp only [Backend.unfinished, accept, carried_append, carried_singleton, hentry]
    abel
  | pushQueue sub hsub =>
    refine ⟨rfl, .inr ⟨sub, hsub, rfl, ?_⟩⟩
    simp only [Backend.unfinished, accept, carried_append, carried_singleton, hentry]
    abel
  | retire hit result _ => exact ⟨rfl, .inl ⟨rfl, unfinished_retireMatching hkey s hit result⟩⟩
  | retireCancels target =>
    exact ⟨rfl, .inl ⟨rfl, unfinished_retireMatching hkey s (isCancelOf target) (-eNoent)⟩⟩
  | completeCancel target completion hsub =>
    exact ⟨rfl, .inr ⟨_, hsub, rfl, unfinished_completeCancel s completion⟩⟩
  | drain =>
    have hfields : s.drainPending.calls = s.calls ∧ s.drainPending.nextOp = s.nextOp := by
      unfold drainPending
      split <;> exact ⟨rfl, rfl⟩
    exact ⟨hfields.1, .inl ⟨hfields.2, unfinished_drainPending s⟩⟩
  | enter count => exact ⟨rfl, .inl ⟨rfl, unfinished_enter s count⟩⟩
  | flags armed registered => exact ⟨rfl, .inl ⟨rfl, rfl⟩⟩

/-- **A move creates at most one operation and never drops one.** -/
theorem Move.total (hkey : key.IgnoresNop) (h : Move L s s') :
    (s'.nextOp = s.nextOp ∧ total key s' = total key s) ∨ ∃ data, s'.nextOp = s.nextOp + 1 ∧
        total key s' = total key s + single (key data (some s.nextOp)) := by
  cases h with
  | inner h =>
    obtain ⟨hcalls, hcase⟩ := h.unfinished hkey
    rw [Backend.total, Backend.total, finished, finished, hcalls]
    rcases hcase with ⟨hn, heq⟩ | ⟨sub, _, hn, heq⟩
    · exact .inl ⟨hn, by rw [heq]⟩
    · exact .inr ⟨sub.userData, hn, by rw [heq]; abel⟩
  | complete hc =>
    have hmove : unfinished key s' = unfinished key s := unfinished_complete hc
    obtain ⟨e, _, rfl⟩ := map_eq_some_iff.mp hc
    refine .inl ⟨rfl, ?_⟩
    rw [Backend.total, hmove]
    rfl
  | ring =>
    refine .inl ⟨rfl, ?_⟩
    rw [Backend.total, unfinished_ring hkey]
    rfl
  | @reap cqe cq hcq =>
    refine .inl ⟨rfl, ?_⟩
    rw [Backend.total, Backend.total, ← unfinished_reap hcq (s.calls ++ [cqe])]
    simp only [finished, carried_append, carried_singleton]
    abel
  | swap hphase =>
    refine .inl ⟨rfl, ?_⟩
    rw [Backend.total, unfinished_swap hphase]
    rfl
  | @deferred c batch hphase =>
    refine .inl ⟨rfl, ?_⟩
    rw [Backend.total, Backend.total, ← unfinished_deferred hphase (s.calls ++ [c.cqe])]
    simp only [finished, carried_append, carried_singleton]
    abel
  | phase phase hphase =>
    refine .inl ⟨rfl, ?_⟩
    simp only [Backend.total, unfinished, finished, hphase]

/-- The operation's number as its key. -/
def opKey : Key T Nat := fun _ op => op

/-- Each accepted operation is accounted for once. -/
theorem Moves.total_range (h : Moves L s s') (hs : total opKey s = range s.nextOp) :
    total opKey s' = range s'.nextOp := by
  refine h.induct (P := fun s => total opKey s = range s.nextOp) ?_ hs
  intro s s' hP hmove
  rcases hmove.total (show opKey.IgnoresNop from fun _ => rfl) with ⟨hn, ht⟩ | ⟨data, hn, ht⟩
  · rw [hn, ht, hP]
  rw [hn, ht, hP, Multiset.range_succ]
  simp only [opKey, single_some]
  rw [add_comm, Multiset.singleton_add]

end Total

/-! ## More to come -/

/-- A completion with more to come is followed: its operation is still in the kernel, or its
    terminal completion stands further back in the CQ. -/
def Followed (s : Backend T) : Prop :=
  ∀ before x after, s.cq = before ++ x :: after → x.more = true →
    (∃ e ∈ s.kernel, e.sqe.userData = x.userData ∧ e.op = x.op) ∨
      ∃ y ∈ after, y.more = false ∧ y.userData = x.userData ∧ y.op = x.op

/-- Appending a completion that is not followed by itself. -/
theorem Followed.append (hs : s.Followed) {y : Cqe T} (hcq : s'.cq = s.cq ++ [y])
    (hnew : y.more = true → ∃ e ∈ s'.kernel, e.sqe.userData = y.userData ∧ e.op = y.op)
    (hkernel : ∀ e ∈ s.kernel, e ∈ s'.kernel ∨
      (y.more = false ∧ y.userData = e.sqe.userData ∧ y.op = e.op)) : s'.Followed := by
  intro before x after hsplit hmore
  rw [hcq] at hsplit
  rcases List.eq_nil_or_concat after with rfl | ⟨after', z, rfl⟩
  · obtain ⟨rfl, rfl⟩ : s.cq = before ∧ y = x := by simpa using List.append_inj' hsplit rfl
    exact .inl (hnew hmore)
  have hsplit' : s.cq ++ [y] = (before ++ x :: after') ++ [z] := by simpa using hsplit
  obtain ⟨hold, hz⟩ := List.append_inj' hsplit' rfl
  obtain rfl : y = z := by simpa using hz
  rcases hs before x after' hold hmore with ⟨e, he, hdata, hop⟩ | ⟨t, ht, hrest⟩
  · rcases hkernel e he with hkept | ⟨hterminal, hy, hyop⟩
    · exact .inl ⟨e, hkept, hdata, hop⟩
    · exact .inr ⟨y, by simp, hterminal, hy.trans hdata, hyop.trans hop⟩
  · exact .inr ⟨t, by simp [ht], hrest⟩

theorem mem_eraseIdx_or {α : Type} {l : List α} {i : Nat} {x y : α} (h : l[i]? = some x)
    (hy : y ∈ l) : y = x ∨ y ∈ l.eraseIdx i := by
  obtain ⟨hi, rfl⟩ := List.getElem?_eq_some_iff.mp h
  exact mem_cons.mp ((List.getElem_cons_eraseIdx_perm hi).mem_iff.mpr hy)

theorem Move.followed [DecidableEq T] (h : Move L s s') (hs : s.Followed) : s'.Followed := by
  cases h with
  | inner h =>
    cases h with
    | drain =>
      unfold drainPending
      split <;> exact hs
    | enter count =>
      intro before x after hsplit hmore
      rcases hs before x after hsplit hmore with ⟨e, he, hrest⟩ | hterminal
      · exact .inl ⟨e, mem_append_left _ he, hrest⟩
      · exact .inr hterminal
    | _ => exact hs
  | @complete _ i _ more _ hc =>
    obtain ⟨e, he, rfl⟩ := map_eq_some_iff.mp hc
    cases more with
    | true =>
      refine hs.append rfl (fun _ => ⟨e, mem_of_getElem? he, rfl, rfl⟩) ?_
      exact fun e' he' => .inl he'
    | false =>
      refine hs.append rfl (fun h => absurd h Bool.false_ne_true) ?_
      intro e' he'
      rcases mem_eraseIdx_or he he' with rfl | hkept
      · exact .inr ⟨rfl, rfl, rfl⟩
      · exact .inl hkept
  | ring =>
    refine hs.append rfl (fun h => absurd h Bool.false_ne_true) ?_
    exact fun e he => .inl he
  | @reap cqe cq hcq =>
    intro before x after hsplit hmore
    exact hs (cqe :: before) x after (hcq.trans (congrArg (cqe :: ·) hsplit)) hmore
  | _ => exact hs

/-! ## Where an unfinished operation is -/

theorem mem_unfinished {k : κ} : k ∈ unfinished key s ↔
      (∃ e ∈ s.unsubmitted ++ s.kernel, key e.sqe.userData e.op = some k) ∨
      (∃ x ∈ s.cq, x.more = false ∧ key x.userData x.op = some k) ∨
      ∃ p ∈ s.pendingCompletions ++ s.phase.batch, key p.userData p.op = some k := by
  have hterminal : ∀ x : Cqe T, terminalKey key x = some k ↔
      x.more = false ∧ key x.userData x.op = some k := by
    intro x
    cases hm : x.more <;> simp [terminalKey, hm]
  simp only [unfinished, mem_add, mem_carried, entryKey, pendingKey, hterminal,
    unsubmitted, mem_append, or_and_right, exists_or]
  ac_nf

/-- Every completion in the CQ, terminal or not, belongs to an unfinished operation. -/
theorem Followed.mem_unfinished (hs : s.Followed) {x : Cqe T} (hx : x ∈ s.cq)
    {k : κ} (hk : key x.userData x.op = some k) : k ∈ unfinished key s := by
  rw [Backend.mem_unfinished]
  cases hmore : x.more
  · exact .inr (.inl ⟨x, hx, hmore, hk⟩)
  obtain ⟨before, after, hsplit⟩ := List.append_of_mem hx
  rcases hs before x after hsplit hmore with ⟨e, he, hdata, hop⟩ | ⟨y, hy, hterminal, hdata, hop⟩
  · exact .inl ⟨e, mem_append_right _ he, by rw [hdata, hop, hk]⟩
  refine .inr (.inl ⟨y, ?_, hterminal, by rw [hdata, hop, hk]⟩)
  rw [hsplit]
  exact mem_append_right _ (mem_cons_of_mem x hy)

/-! ## Places -/

/-- Where an accepted operation can be. -/
inductive Place where
  | pendingIo | sq | kernel | cq | pendingCompletions | completed
deriving DecidableEq, Repr

/-- The operations at a place, by number.  A CQE stands for its operation when it is the terminal
    one; the batch being drained counts with `pending_completions_`; completed are the operations
    whose handler was called with a terminal result, once for each such call. -/
def opsAt (s : Backend T) : Place → List Nat
  | .pendingIo => s.pendingIo.filterMap Entry.op
  | .sq => s.sq.filterMap Entry.op
  | .kernel => s.kernel.filterMap Entry.op
  | .cq => (s.cq.filter fun c => !c.more).filterMap Cqe.op
  | .pendingCompletions => (s.pendingCompletions ++ s.phase.batch).filterMap PendingCompletion.op
  | .completed => (s.calls.filter fun c => !c.more).filterMap Cqe.op

theorem carried_terminalKey (l : List (Cqe T)) :
    carried (terminalKey opKey) l = ((l.filter fun c => !c.more).filterMap Cqe.op : List Nat) := by
  induction l with
  | nil => rfl
  | cons c l ih =>
    rw [carried_cons, ih, carried_singleton]
    cases hm : c.more with
    | true => simp [terminalKey, hm]
    | false =>
      cases hop : c.op <;> simp [terminalKey, opKey, hm, hop]

/-- The accounts are the sum over the places. -/
theorem total_eq_opsAt (s : Backend T) :
    total opKey s = (s.opsAt .pendingIo : Multiset Nat) + s.opsAt .sq + s.opsAt .kernel +
      s.opsAt .cq + s.opsAt .pendingCompletions + s.opsAt .completed := by
  have hentry : entryKey (T := T) opKey = Entry.op := rfl
  have hpending : pendingKey (T := T) opKey = PendingCompletion.op := rfl
  simp only [total, unfinished, finished, carried_terminalKey, opsAt, filterMap_append,
    ← coe_add]
  simp only [carried, hentry, hpending]
  abel

/-! ## Calls dispatch nothing -/

/-- No handler has been called, and the wake poll's flag is as it was. -/
def Untouched (s s' : Backend T) : Prop :=
  s'.calls = s.calls ∧ s'.wakePollArmed = s.wakePollArmed

theorem Untouched.refl (s : Backend T) : Untouched s s := ⟨rfl, rfl⟩

theorem Untouched.trans {s s' s'' : Backend T} (h : Untouched s s') (h' : Untouched s' s'') :
    Untouched s s'' :=
  ⟨h'.1.trans h.1, h'.2.trans h.2⟩

section

variable (s : Backend T)

/-- `SubmitOrQueue` never calls a handler. -/
theorem submitOrQueue_untouched (sub : Submission T) : Untouched s (s.submitOrQueue L sub).2 := by
  cases h : s.initialized with
  | false =>
    rw [submitOrQueue_of_not_initialized h]
    exact .refl s
  | true =>
    rcases (submitOrQueue_spec h sub).2 with ⟨_, _, _, _, heq⟩ | heq <;> rw [heq] <;>
      exact ⟨rfl, rfl⟩

theorem armWakePoll_calls : (s.armWakePoll L).2.calls = s.calls := by
  unfold armWakePoll
  split
  · rfl
  dsimp only
  split <;> exact (submitOrQueue_untouched s _).1

theorem handle_calls (stopping : Bool) (cqe : Cqe T) :
    (s.handle L stopping cqe).calls = s.calls := by
  unfold handle
  split
  · unfold handleWakePoll
    split
    · rfl
    · exact armWakePoll_calls _
  · rfl

theorem drainPending_untouched : Untouched s s.drainPending := by
  unfold drainPending
  split <;> exact ⟨rfl, rfl⟩

theorem submit_untouched (count : Nat) (rc : Int) : Untouched s (s.submit count rc).2 := by
  unfold submit submitSlow
  split
  · exact .refl s
  split
  · exact (drainPending_untouched s).trans (drainPending_untouched _)
  · exact .refl s

theorem cancelUnsubmittedMatching_untouched (hit : Sqe T → Bool) (result : Int) :
    Untouched s (s.cancelUnsubmittedMatching L hit result).2 := by
  unfold cancelUnsubmittedMatching
  split <;> exact ⟨rfl, rfl⟩

end

variable [DecidableEq T]

theorem cancelByData_untouched (s : Backend T) (target completion : UserData T) :
    Untouched s (s.cancelByData L target completion).2 := by
  unfold cancelByData
  split
  · exact .refl s
  have hcancel := cancelUnsubmittedMatching_untouched (L := L) s
    (fun sqe => sqe.userData = target) (-eCanceled)
  dsimp only
  split
  · exact hcancel
  · split <;> exact hcancel.trans (submitOrQueue_untouched _ _)

/-- Only `ArmWakePoll` sets the flag. -/
theorem call_untouched (s : Backend T) {c : Call T} (hc : c ≠ .armWakePoll) :
    Untouched s (s.call L c).2 := by
  cases c with
  | request r =>
    show Untouched s (s.submitRequest L r).2
    unfold submitRequest
    split
    · exact submitOrQueue_untouched s _
    · exact .refl s
  | submitCancel target =>
    cases target with
    | none => exact .refl s
    | some tag => exact cancelByData_untouched s _ _
  | submitCancelRecv connection tag =>
    cases connection with
    | none => exact .refl s
    | some c => exact cancelByData_untouched s _ _
  | cancelPeerDisconnect c => exact cancelByData_untouched s _ _
  | cancelUnsubmittedForFd fd =>
    show Untouched s (s.cancelUnsubmittedForFd L fd)
    unfold cancelUnsubmittedForFd
    split
    · exact .refl s
    · exact cancelUnsubmittedMatching_untouched s _ _
  | armWakePoll => exact absurd rfl hc
  | registerFixedFiles count rc =>
    show Untouched s (s.registerFixedFiles count rc).2
    unfold registerFixedFiles
    split
    · exact .refl s
    · split <;> exact .refl s

/-- **No handler runs inside a public function.** -/
theorem call_calls (s : Backend T) (c : Call T) : (s.call L c).2.calls = s.calls := by
  cases c with
  | armWakePoll => exact armWakePoll_calls s
  | _ => exact (call_untouched s (by simp)).1

/-! ## Accepted means numbered -/

/-- An operation has been accepted and is at exactly this place, exactly once. -/
def AtOnly (s : Backend T) (op : Nat) (place : Place) : Prop :=
  (s.opsAt place).count op = 1 ∧ ∀ other, other ≠ place → (s.opsAt other).count op = 0

omit [DecidableEq T] in
theorem exists_atOnly (h : total opKey s = range s.nextOp) {op : Nat}
    (hop : op < s.nextOp) : ∃ place, s.AtOnly op place := by
  have hone : (total opKey s).count op = 1 := by
    rw [h]
    exact Multiset.count_eq_one_of_mem (Multiset.nodup_range _) (Multiset.mem_range.mpr hop)
  rw [total_eq_opsAt] at hone
  simp only [Multiset.count_add, Multiset.coe_count] at hone
  -- six counts add up to one
  have hcases : ∃ place, (s.opsAt place).count op = 1 := by
    by_contra hne
    have hne' : ∀ place, (s.opsAt place).count op ≠ 1 := fun place hp => hne ⟨place, hp⟩
    have h1 := hne' .pendingIo
    have h2 := hne' .sq
    have h3 := hne' .kernel
    have h4 := hne' .cq
    have h5 := hne' .pendingCompletions
    have h6 := hne' .completed
    omega
  obtain ⟨place, hplace⟩ := hcases
  refine ⟨place, hplace, ?_⟩
  intro other hother
  cases place <;> cases other <;> first | exact absurd rfl hother | omega

end Bycorf.IoUring.Backend
