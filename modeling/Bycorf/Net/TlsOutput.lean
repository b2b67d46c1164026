/-
  `TlsState::FlushOutput`: several coroutines drain one output BIO through an `AsyncMutex`.

  1. **What may happen** — whoever runs the TLS engine (`ReadSome`, `WriteSome`, `Handshake`,
     `Shutdown`) may add bytes to the BIO (`produce`) and then calls `FlushOutput`.  A flush takes
     up to 16384 bytes OUT of the BIO and writes them with `WriteRawAll`, whose raw writes end as
     the kernel likes.  The BIO is a queue of bytes.  A stream that is not bound is refused in front
     of the mutex, and changes nothing.

  2. **What goes wrong** — what a failed raw write leaves of the taken bytes is gone, and nothing
     remembers that: the next flush finds the BIO empty and returns OK, or sends what follows.

  3. **The invariant** — the mutex has one holder, and as long as no raw write has failed, the bytes
     accepted, the holder's rest and the BIO are what the engine has produced.
-/
import Mathlib.Data.List.Basic
import Bycorf.Lib.Transition

namespace Bycorf.Net.TlsOutput

open Lib Function

def kTlsIoBufferBytes : Nat := 16 * 1024

/-- Where a coroutine is in `FlushOutput`. -/
inductive Pc where
  | outside
  | waiting                      -- among the waiters of the mutex
  | woken                        -- the mutex is handed to it, and it is enqueued
  | flushing                     -- at the head of the loop
  | writing (rest : List UInt8)  -- in `WriteRawAll`, with what is left to write
deriving DecidableEq

/-- The thread is inside of the lock. -/
def Pc.holds : Pc → Bool
  | outside | waiting => false
  | _ => true

/-- What a flush has taken from the BIO and not written. -/
def Pc.rest : Pc → List UInt8
  | writing rest => rest
  | _ => []

/-- The write BIO, the lock and the flushes; the last fields are bookkeeping. -/
structure State where
  bio : List UInt8
  accepted : List UInt8          -- by the socket
  locked : Bool
  waiters : List Nat
  pc : Nat → Pc
  -- bookkeeping: the engine's bytes, the calls, who got the mutex, that a raw write failed, and
  -- that a flush went on after that
  produced : List UInt8
  calls : List Nat
  acquired : List Nat
  failed : Bool
  wentOn : Bool

/-- TLS produces output, or a flush goes on. -/
inductive Label where
  | produce (bytes : List UInt8)
  | call (t : Nat)
  | resume (t : Nat)
  | turn (t n : Nat)             -- return OK if the BIO is empty, or take `n` bytes
  | drainError (t : Nat)         -- `BIO_read` fails
  | wrote (t n : Nat)
  | fail (t : Nat)               -- the raw write fails, or returns 0
deriving DecidableEq

namespace State

/-- `UnlockGuard`: the coroutine returns, and the mutex goes to the first waiter. -/
def release (s : State) (t : Nat) : State :=
  let s := { s with pc := update s.pc t .outside }
  match s.waiters with
  | [] => { s with locked := false }
  | next :: waiters =>
    { s with
      waiters := waiters, pc := update s.pc next .woken, acquired := s.acquired ++ [next] }

/-- One step; a flush that waits for the lock goes on when it is free. -/
def step (s : State) : Label → Option State
  | .produce bytes => some { s with bio := s.bio ++ bytes, produced := s.produced ++ bytes }
  | .call t =>
    if s.pc t ≠ .outside then none
    else if s.locked then
      some { s with
        waiters := s.waiters ++ [t], pc := update s.pc t .waiting, calls := s.calls ++ [t] }
    else
      some { s with
        locked := true, pc := update s.pc t .flushing
        calls := s.calls ++ [t], acquired := s.acquired ++ [t] }
  | .resume t => if s.pc t = .woken then some { s with pc := update s.pc t .flushing } else none
  | .turn t n =>
    if s.pc t ≠ .flushing then none
    else if s.bio = [] then some ({ s with wentOn := s.wentOn || s.failed }.release t)
    else if 0 < n ∧ n ≤ min s.bio.length kTlsIoBufferBytes then
      some { s with
        bio := s.bio.drop n, pc := update s.pc t (.writing (s.bio.take n))
        wentOn := s.wentOn || s.failed }
    else none
  | .drainError t => if s.pc t = .flushing ∧ s.bio ≠ [] then some (s.release t) else none
  | .wrote t n =>
    match s.pc t with
    | .writing rest =>
      if 0 < n ∧ n ≤ rest.length then
        some { s with
          accepted := s.accepted ++ rest.take n
          pc := update s.pc t (if n = rest.length then .flushing else .writing (rest.drop n)) }
      else none
    | _ => none
  | .fail t =>
    match s.pc t with
    | .writing _ => some ({ s with failed := true }.release t)
    | _ => none

end State

def fresh : State := ⟨[], [], false, [], fun _ => .outside, [], [], [], false, false⟩

/-- Any number of coroutines on one stream. -/
def system : System State Label where
  init s := s = fresh
  step := State.step

variable {s s' : State} {t : Nat}

/-- The mutex has one holder, and what is taken out of the BIO is accepted or being written by the
    holder; what a failed write leaves is gone. -/
structure Inv (s : State) : Prop where
  one : ∀ t u, (s.pc t).holds = true → (s.pc u).holds = true → t = u
  held : ∀ t, (s.pc t).holds = true → s.locked = true
  waits : ∀ t, s.pc t = .waiting ↔ t ∈ s.waiters
  once : s.waiters.Nodup
  order : s.acquired ++ s.waiters = s.calls
  free : s.locked = false → s.waiters = []
  ordered : s.wentOn = false → s.accepted <+: s.produced
  whole : s.failed = false → ∀ t, (s.pc t).holds = true ∨ s.locked = false →
    s.accepted ++ (s.pc t).rest ++ s.bio = s.produced
  gone : s.failed = true → s.wentOn = false → ∀ t, (s.pc t).rest = []

theorem rest_nil {p : Pc} (h : p.holds = false) : p.rest = [] := by
  cases p <;> first | rfl | cases h

section

variable (h : Inv s) (ht : (s.pc t).holds = true)
include h ht

/-- Nobody else holds the mutex, so nobody else has bytes. -/
theorem Inv.others (u : Nat) (hu : u ≠ t) : (s.pc u).holds = false ∧ (s.pc u).rest = [] := by
  have hholds : (s.pc u).holds = false := by
    by_contra hholds
    exact hu (h.one u t (by simpa using hholds) ht)
  exact ⟨hholds, rest_nil hholds⟩

/-- The holder goes on. -/
theorem Inv.move {p : Pc} (hp : p.holds = true) {bio accepted : List UInt8} {wentOn : Bool}
    (hordered : wentOn = false → accepted <+: s.produced)
    (hwhole : s.failed = false → accepted ++ p.rest ++ bio = s.produced)
    (hgone : s.failed = true → wentOn = false → p.rest = []) :
    Inv { s with
      bio := bio, accepted := accepted, pc := update s.pc t p, wentOn := wentOn } := by
  have hothers := h.others ht
  have hlocked := h.held t ht
  obtain ⟨-, -, hwaits, honce, horder, hfree, -, -, -⟩ := h
  constructor <;> grind [update_apply, Pc.holds]

/-- The holder returns: with nothing left to write, unless a write has failed. -/
theorem Inv.release {failed wentOn : Bool} (hwent : wentOn = false → s.wentOn = false)
    (hfailed : failed = false → s.failed = false ∧ (s.pc t).rest = []) :
    Inv ({ s with failed := failed, wentOn := wentOn }.release t) := by
  have hothers := h.others ht
  have hwhole := fun hf => h.whole hf t (.inl ht)
  obtain ⟨-, hheld, hwaits, honce, horder, hfree, hordered, -, -⟩ := h
  unfold State.release
  dsimp only
  split
  · constructor <;> grind [update_apply, Pc.holds, Pc.rest]
  · constructor <;> grind [update_apply, Pc.holds, Pc.rest]

end

theorem Inv.call (h : Inv s) (hs : s.step (.call t) = some s') : Inv s' := by
  obtain ⟨hone, hheld, hwaits, honce, horder, hfree, hordered, hwhole, hgone⟩ := h
  simp only [State.step] at hs
  split at hs
  · cases hs
  split at hs <;> cases hs
  · constructor <;> grind [update_apply, Pc.holds, Pc.rest]
  · constructor <;> grind [update_apply, Pc.holds, Pc.rest]

theorem Inv.step {a : Label} (h : Inv s) (hs : s.step a = some s') : Inv s' := by
  cases a with
  | produce bytes =>
    cases hs
    refine { h with ordered := fun hw => ?_, whole := fun hf u hu => ?_ }
    · exact (h.ordered hw).trans (List.prefix_append ..)
    · show s.accepted ++ (s.pc u).rest ++ (s.bio ++ bytes) = s.produced ++ bytes
      rw [← append_assoc, h.whole hf u hu]
  | call t => exact h.call hs
  | resume t =>
    obtain ⟨hpc, hs⟩ := ite_none_right_eq_some.mp hs
    cases hs
    have ht : (s.pc t).holds = true := by rw [hpc]; rfl
    refine h.move ht rfl h.ordered (fun hf => ?_) fun _ _ => rfl
    have hall := h.whole hf t (.inl ht)
    rwa [hpc] at hall
  | turn t n =>
    simp only [State.step] at hs
    split at hs
    · cases hs
    rename_i hpc
    have hpc : s.pc t = .flushing := not_not.mp hpc
    have ht : (s.pc t).holds = true := by rw [hpc]; rfl
    have hwent : (s.wentOn || s.failed) = false → s.wentOn = false ∧ s.failed = false :=
      Bool.or_eq_false_iff.mp
    split at hs
    · cases hs
      exact h.release ht (fun hw => (hwent hw).1) fun hf => ⟨hf, by rw [hpc]; rfl⟩
    obtain ⟨-, hs⟩ := ite_none_right_eq_some.mp hs
    cases hs
    refine h.move ht rfl (fun hw => h.ordered (hwent hw).1) (fun hf => ?_) fun hf hw => ?_
    · have hall := h.whole hf t (.inl ht)
      rw [hpc] at hall
      rw [append_assoc, Pc.rest, take_append_drop]
      simpa [Pc.rest] using hall
    · cases hf.symm.trans (hwent hw).2
  | drainError t =>
    obtain ⟨⟨hpc, -⟩, hs⟩ := ite_none_right_eq_some.mp hs
    cases hs
    exact h.release (by rw [hpc]; rfl) id fun hf => ⟨hf, by rw [hpc]; rfl⟩
  | wrote t n =>
    simp only [State.step] at hs
    split at hs
    · next rest hpc =>
      refine of_guard hs fun ⟨hn, hle⟩ => ?_
      have ht : (s.pc t).holds = true := by rw [hpc]; rfl
      have hwhole := fun hf => h.whole hf t (.inl ht)
      have hgone := fun hf hw => h.gone hf hw t
      rw [hpc, Pc.rest] at hwhole hgone
      have hcut := rest.take_append_drop n
      -- with bytes left to write no raw write has failed, or a flush went on after it
      refine h.move ht (by split <;> rfl) (fun hw => ?_) ?_ ?_
      · cases hf : s.failed with
        | true => grind
        | false => exact ⟨rest.drop n ++ s.bio, by grind⟩
      · grind [Pc.rest]
      · grind
    · cases hs
  | fail t =>
    simp only [State.step] at hs
    split at hs
    · next rest hpc =>
      cases hs
      exact h.release (by rw [hpc]; rfl) id nofun
    · cases hs

theorem release_wentOn (s : State) (t : Nat) : (s.release t).wentOn = s.wentOn := by
  unfold State.release
  dsimp only
  split <;> rfl

/-- **One flush at a time, in lock order, whatever the raw writes do; and one ordered stream as long
    as no flush goes on after a failed one.** -/
theorem reachable_flush (h : system.Reachable s) :
    (∀ t u, (s.pc t).holds = true → (s.pc u).holds = true → t = u) ∧
      s.acquired ++ s.waiters = s.calls ∧ (s.wentOn = false → s.accepted <+: s.produced) ∧
      ∀ t n s', s.step (.turn t n) = some s' → s.bio = [] → s'.wentOn = false →
        s.accepted = s.produced := by
  have hinv : Inv s := by
    refine Reachable.invariant ?_ (fun _ _ _ h hs => h.step hs) h
    rintro _ rfl
    exact ⟨nofun, nofun, fun _ => ⟨nofun, nofun⟩, .nil, rfl, fun _ => rfl,
      fun _ => List.prefix_rfl, fun _ _ _ => rfl, nofun⟩
  refine ⟨hinv.one, hinv.order, hinv.ordered, fun t n s' hs hbio hw => ?_⟩
  simp only [State.step] at hs
  split at hs
  · cases hs
  rename_i hpc
  have hpc : s.pc t = .flushing := not_not.mp hpc
  cases hs
  -- the flush returns OK, and does not go on after a failure
  rw [release_wentOn] at hw
  have hall := hinv.whole (Bool.or_eq_false_iff.mp hw).2 t (.inl (by rw [hpc]; rfl))
  rw [hpc, hbio] at hall
  simpa [Pc.rest] using hall

/-- A reader flushes while a writer waits for the mutex. -/
def inTurn : List Label :=
  [.produce [1, 2], .call 1, .turn 1 2, .produce [3], .call 2, .wrote 1 1, .wrote 1 1, .turn 1 1,
    .wrote 1 1, .turn 1 0, .resume 2]

theorem reachable_flush_in_turn : ∃ s ∈ system.run fresh inTurn, s.pc 2 = .flushing ∧
    s.acquired = [1, 2] ∧ s.accepted = s.produced := by
  have hrun : ∃ s ∈ system.run fresh inTurn, s.pc 2 = .flushing ∧ s.acquired = [1, 2] ∧
      s.bio = [] ∧ ∃ s' ∈ s.step (.turn 2 0), s'.wentOn = false := by
    decide
  obtain ⟨s, hs, hpc, hacquired, hbio, s', hs', hw⟩ := hrun
  have h := reachable_flush (Reachable.run (.init rfl) inTurn hs)
  exact ⟨s, hs, hpc, hacquired, h.2.2.2 2 0 s' hs' hbio hw⟩

/-- The second raw write of a flush fails, and another coroutine flushes. -/
def goesOn : List Label :=
  [.produce [1, 2], .call 1, .turn 1 2, .wrote 1 1, .fail 1, .call 2]

/-- **A flush that finds the BIO empty returns OK though a byte is lost, and the bytes that follow
    are sent behind the gap.** -/
theorem flush_goes_on_after_gap :
    (∃ s ∈ system.run fresh goesOn,
      s.pc 2 = .flushing ∧ s.bio = [] ∧ s.accepted = [1] ∧ s.produced = [1, 2]) ∧
    ∃ s ∈ system.run fresh (goesOn ++ [.produce [3], .turn 2 1, .wrote 2 1]),
      s.accepted = [1, 3] ∧ s.produced = [1, 2, 3] := by
  decide

end Bycorf.Net.TlsOutput
