/-
  Packets are CONSERVED and keep their TRUST.

  1. **Places** — `total`: the numbers of all buffers in the stacks, in the lanes, at the device and
     freed.  A step keeps them, and adds those it obtains (`Legal.conserve`).
  2. **Trust** — `Good`: on its way to `Input`, a buffer from the device has the device's port, and
     one with the invalid port was made by `Transmit` for the interface's own address.
  3. **Inputs** — `future`: to which worker a frame may still be handed.  A step never adds to what
     was handed over and what may still be (`Legal.future`), so no worker gets a frame twice.
  4. **Result** — `reachable_packets`.
-/
import Mathlib.Data.Fintype.Basic
import Mathlib.Tactic.Abel
import Bycorf.Dpdk.Packets

namespace Bycorf.Dpdk.Packets

open Lib Function
open Finset (mem_univ)
open List (map_cons sum_cons)
open Multiset (coe_add coe_count count count_add disjoint_left nodup_of_le zero_le)
open Multiset (map_le_map mem_add mem_map_of_mem nodup_add nodup_zero singleton_le)

variable {n : Nat} {c : Config}

/-! ## Places -/

/-- The buffers a task holds. -/
def Task.held : Task n → List Mbuf
  | .txBurst batch => batch
  | .route p | .spread p _ | .enqueue _ _ p | .input p | .inputting p | .append p _ => [p]
  | _ => []

/-- The numbers of some buffers, with their multiplicity. -/
def numbers (l : List Mbuf) : Multiset Nat := (l.map Mbuf.id : List Nat)

@[simp] theorem numbers_nil : numbers [] = 0 := rfl

@[simp] theorem numbers_cons (p : Mbuf) (l : List Mbuf) :
    numbers (p :: l) = {p.id} + numbers l := rfl

@[simp] theorem numbers_append (l l' : List Mbuf) : numbers (l ++ l') = numbers l + numbers l' := by
  rw [numbers, map_append, ← coe_add]
  rfl

theorem numbers_take_drop (k : Nat) (l : List Mbuf) :
    numbers (l.take k) + numbers (l.drop k) = numbers l := by
  rw [← numbers_append, take_append_drop]

/-- The buffers of a stack. -/
def stackNumbers (stack : List (Task n)) : Multiset Nat := numbers (stack.flatMap Task.held)

@[simp] theorem stackNumbers_nil : stackNumbers ([] : List (Task n)) = 0 := rfl

@[simp] theorem stackNumbers_cons (t : Task n) (stack : List (Task n)) :
    stackNumbers (t :: stack) = numbers t.held + stackNumbers stack := by
  rw [stackNumbers, List.flatMap_cons, numbers_append]
  rfl

@[simp] theorem stackNumbers_append (stack stack' : List (Task n)) :
    stackNumbers (stack ++ stack') = stackNumbers stack + stackNumbers stack' := by
  rw [stackNumbers, List.flatMap_append, numbers_append]
  rfl

theorem stackNumbers_map {f : Mbuf → Task n} (hf : ∀ p, (f p).held = [p]) (l : List Mbuf) :
    stackNumbers (l.map f) = numbers l := by
  induction l with
  | nil => rfl
  | cons p l ih => rw [map_cons, stackNumbers_cons, ih, hf, numbers_cons, numbers_cons,
      numbers_nil, add_zero]

/-- The buffers in both rings of a lane. -/
def Lane.numbers (l : Lane) : Multiset Nat := Packets.numbers (l.rx ++ l.tx)

/-- Every buffer, where it is. -/
def Net.total (s : Net n) : Multiset Nat :=
  (∑ w, stackNumbers (s.tasks w)) + (∑ w, (s.lanes w).numbers) + (s.sent : Multiset Nat) +
    (s.freed : Multiset Nat)

theorem Net.total_apply (s : Net n) (w : Fin n) (m : Move n) :
    (s.apply w m).total + (stackNumbers (s.tasks w) + (s.lanes m.target).numbers) =
      s.total + (stackNumbers m.stack + m.lane.numbers + (m.sent : Multiset Nat) +
        (m.freed : Multiset Nat)) := by
  have htasks := sum_update_add (fun _ => stackNumbers) s.tasks w m.stack
  have hlanes := sum_update_add (fun _ => Lane.numbers) s.lanes m.target m.lane
  unfold Net.total Net.apply
  rw [← coe_add, ← coe_add]
  calc _ = (∑ i, stackNumbers (update s.tasks w m.stack i) + stackNumbers (s.tasks w)) +
        (∑ i, (update s.lanes m.target m.lane i).numbers + (s.lanes m.target).numbers) +
        ((s.sent : Multiset Nat) + m.sent) + ((s.freed : Multiset Nat) + m.freed) := by abel
    _ = _ := by
      rw [htasks, hlanes]
      abel

/-! ## Trust -/

/-- A buffer on its way to `Input`: one from the device has the device's port, and one from
    `Transmit` goes to the interface's own address. -/
def Good (c : Config) (p : Mbuf) : Prop :=
  if p.nic then p.port = c.port else p.port = portInvalid ∧ Net.isLocal c p.frame = true

/-- The buffers of a task are what they should be. -/
def Task.Ok (c : Config) : Task n → Prop
  | .route p => p.nic = true
  | .append p _ => p.nic = false
  | .spread p _ | .input p | .enqueue .rx _ p => Good c p
  | _ => True

/-! ## Inputs -/

/-- The workers to which a task of worker `v` may still hand a frame, with the frame. -/
def Task.future (v : Fin n) : Task n → Multiset (Fin n × Nat)
  | .route p | .append p _ => Finset.univ.val.map fun w => (w, p.origin)
  | .spread p i => (Finset.univ.filter fun w : Fin n => w = v ∨ i ≤ w.val).val.map fun w =>
      (w, p.origin)
  | .enqueue .rx t p => {(t, p.origin)}
  | .input p => {(v, p.origin)}
  | _ => 0

section

variable (v : Fin n) (p : Mbuf)

theorem future_route : (Task.route p).future v = Finset.univ.val.map fun w => (w, p.origin) := rfl

theorem future_append (source : List UInt8) :
    (Task.append p source).future v = Finset.univ.val.map fun w => (w, p.origin) := rfl

theorem future_spread (i : Nat) : (Task.spread p i).future v =
      (Finset.univ.filter fun w : Fin n => w = v ∨ i ≤ w.val).val.map fun w => (w, p.origin) := rfl

end

/-- The inputs that the tasks on a stack may still make: worker and frame. -/
def stackFuture (v : Fin n) (stack : List (Task n)) : Multiset (Fin n × Nat) :=
  (stack.map (Task.future v)).sum

@[simp] theorem stackFuture_nil (v : Fin n) : stackFuture v [] = 0 := rfl

@[simp] theorem stackFuture_cons (v : Fin n) (t : Task n) (stack : List (Task n)) :
    stackFuture v (t :: stack) = t.future v + stackFuture v stack := by
  rw [stackFuture, map_cons, sum_cons]
  rfl

@[simp] theorem stackFuture_append (v : Fin n) (stack stack' : List (Task n)) :
    stackFuture v (stack ++ stack') = stackFuture v stack + stackFuture v stack' := by
  rw [stackFuture, map_append, List.sum_append]
  rfl

/-- The inputs that the frames waiting in a lane will be. -/
def laneFuture (w : Fin n) (l : Lane) : Multiset (Fin n × Nat) :=
  (l.rx.map fun p => (w, p.origin) : List (Fin n × Nat))

/-- Everything that was handed to a worker or may still be. -/
def Net.future (s : Net n) : Multiset (Fin n × Nat) :=
  (∑ v, stackFuture v (s.tasks v)) + (∑ w, laneFuture w (s.lanes w)) +
    (s.inputs.map fun x => (x.1, x.2.1.origin) : List (Fin n × Nat))

/-- What a new buffer may add. -/
def fresh (n first count : Nat) : Multiset (Fin n × Nat) :=
  ((List.range' first count).map fun o => (Finset.univ : Finset (Fin n)).val.map fun w =>
    (w, o)).sum

/-- What a move hands over at once. -/
def Move.handed (w : Fin n) (m : Move n) : Multiset (Fin n × Nat) :=
  ((m.input.map fun x => (w, x.1.origin)).toList : List (Fin n × Nat))

theorem Net.future_apply (s : Net n) (w : Fin n) (m : Move n) :
    (s.apply w m).future + (stackFuture w (s.tasks w) + laneFuture m.target (s.lanes m.target)) =
      s.future + (stackFuture w m.stack + laneFuture m.target m.lane + m.handed w) := by
  have htasks := sum_update_add stackFuture s.tasks w m.stack
  have hlanes := sum_update_add laneFuture s.lanes m.target m.lane
  have hinputs : ((s.inputs ++ (m.input.map fun x => (w, x)).toList).map fun x =>
      (x.1, x.2.1.origin) : List (Fin n × Nat)) = s.inputs.map (fun x => (x.1, x.2.1.origin)) ++
          (m.input.map fun x => (w, x.1.origin)).toList := by
    rw [map_append]
    cases m.input <;> rfl
  unfold Net.future Net.apply Move.handed
  rw [hinputs, ← coe_add]
  calc _ = (∑ i, stackFuture i (update s.tasks w m.stack i) + stackFuture w (s.tasks w)) +
        (∑ i, laneFuture i (update s.lanes m.target m.lane i) +
          laneFuture m.target (s.lanes m.target)) +
        ((s.inputs.map fun x => (x.1, x.2.1.origin) : List (Fin n × Nat)) +
          ((m.input.map fun x => (w, x.1.origin)).toList : Multiset (Fin n × Nat))) := by abel
    _ = _ := by
      rw [htasks, hlanes]
      abel

/-! ## What a step may do -/

/-- The worker still has a readable frame to hand to its own stack. -/
def Holding (stack : List (Task n)) (o : Nat) : Prop :=
  ∃ p, p.origin = o ∧ p.frame.length ≤ kMaxFrame ∧
    (Task.input p ∈ stack ∨ ∃ i, Task.spread p i ∈ stack)

/-- **What a step of worker `w` may do.** -/
structure Legal (c : Config) (s : Net n) (w : Fin n) (m : Move n) : Prop where
  conserve : stackNumbers m.stack + m.lane.numbers + (m.sent : Multiset Nat) +
      (m.freed : Multiset Nat) =
    stackNumbers (s.tasks w) + (s.lanes m.target).numbers +
      (List.range' s.obtained m.obtained : List Nat)
  tasks : ∀ t ∈ m.stack, t.Ok c
  rx : ∀ p ∈ m.lane.rx, Good c p
  input : ∀ x ∈ m.input, Good c x.1 ∧ x.2 = decide (x.1.port = portInvalid)
  future : stackFuture w m.stack + laneFuture m.target m.lane + m.handed w ≤
    stackFuture w (s.tasks w) + laneFuture m.target (s.lanes m.target) +
      fresh n s.obtained m.obtained
  holding : ∀ o, Holding (s.tasks w) o → Holding m.stack o ∨ ∃ x ∈ m.input, x.1.origin = o
  broadcast : ∀ o ∈ m.broadcast, Holding m.stack o

/-- Tasks and rings hold what they should. -/
structure Trusted (c : Config) (s : Net n) : Prop where
  tasks : ∀ w, ∀ t ∈ s.tasks w, t.Ok c
  rx : ∀ w, ∀ p ∈ (s.lanes w).rx, Good c p
  inputs : ∀ x ∈ s.inputs, Good c x.2.1 ∧ x.2.2 = decide (x.2.1.port = portInvalid)

variable {stack stack' : List (Task n)} {o : Nat}

theorem Holding.append_left (h : Holding stack o) : Holding (stack ++ stack') o := by
  obtain ⟨p, ho, hlen, hmem⟩ := h
  refine ⟨p, ho, hlen, ?_⟩
  rcases hmem with hin | ⟨i, hin⟩
  · exact .inl (mem_append_left _ hin)
  · exact .inr ⟨i, mem_append_left _ hin⟩

theorem Holding.append_right (h : Holding stack' o)
    (stack : List (Task n)) : Holding (stack ++ stack') o := by
  obtain ⟨p, ho, hlen, hmem⟩ := h
  refine ⟨p, ho, hlen, ?_⟩
  rcases hmem with hin | ⟨i, hin⟩
  · exact .inl (mem_append_right _ hin)
  · exact .inr ⟨i, mem_append_right _ hin⟩

theorem Holding.of_append
    (h : Holding (stack ++ stack') o) : Holding stack o ∨ Holding stack' o := by
  obtain ⟨p, ho, hlen, hmem⟩ := h
  rcases hmem with hin | ⟨i, hin⟩
  · rcases mem_append.mp hin with hin | hin
    · exact .inl ⟨p, ho, hlen, .inl hin⟩
    · exact .inr ⟨p, ho, hlen, .inl hin⟩
  rcases mem_append.mp hin with hin | hin
  · exact .inl ⟨p, ho, hlen, .inr ⟨i, hin⟩⟩
  · exact .inr ⟨p, ho, hlen, .inr ⟨i, hin⟩⟩

/-- A move that replaces the top of the stack: what it may do to the rest of the state. -/
structure Replaces (c : Config) (s : Net n) (w : Fin n) (tops news : List (Task n)) (m : Move n) :
    Prop where
  conserve : stackNumbers news + m.lane.numbers + (m.sent : Multiset Nat) +
      (m.freed : Multiset Nat) =
    stackNumbers tops + (s.lanes m.target).numbers + (List.range' s.obtained m.obtained : List Nat)
  tasks : ∀ t ∈ news, t.Ok c
  rx : ∀ p ∈ m.lane.rx, Good c p
  input : ∀ x ∈ m.input, Good c x.1 ∧ x.2 = decide (x.1.port = portInvalid)
  future : stackFuture w news + laneFuture m.target m.lane + m.handed w ≤
    stackFuture w tops + laneFuture m.target (s.lanes m.target) + fresh n s.obtained m.obtained
  holding : ∀ o, Holding tops o → Holding news o ∨ ∃ x ∈ m.input, x.1.origin = o
  broadcast : ∀ o ∈ m.broadcast, Holding news o

variable {w : Fin n} {s : Net n} {rest tops : List (Task n)} {m : Move n}

theorem Replaces.legal {news : List (Task n)}
    (h : Replaces c s w tops news m) (hs : Trusted c s) (hold : s.tasks w = tops ++ rest)
    (hnew : m.stack = news ++ rest) : Legal c s w m where
  conserve := by
    rw [hold, hnew, stackNumbers_append, stackNumbers_append]
    calc _ = (stackNumbers news + m.lane.numbers + (m.sent : Multiset Nat) +
          (m.freed : Multiset Nat)) + stackNumbers rest := by abel
      _ = _ := by
        rw [h.conserve]
        abel
  tasks t ht := by
    rw [hnew] at ht
    rcases mem_append.mp ht with hin | hin
    · exact h.tasks t hin
    · exact hs.tasks w t (by rw [hold]; exact mem_append_right _ hin)
  rx := h.rx
  input := h.input
  future := by
    rw [hold, hnew, stackFuture_append, stackFuture_append]
    calc _ = (stackFuture w news + laneFuture m.target m.lane + m.handed w) +
          stackFuture w rest := by abel
      _ ≤ (stackFuture w tops + laneFuture m.target (s.lanes m.target) +
          fresh n s.obtained m.obtained) + stackFuture w rest := add_le_add_left h.future _
      _ = _ := by abel
  holding o ho := by
    rw [hold] at ho
    rw [hnew]
    rcases ho.of_append with htop | hrest
    · exact (h.holding o htop).imp_left Holding.append_left
    · exact .inl (hrest.append_right news)
  broadcast o ho := by
    rw [hnew]
    exact (h.broadcast o ho).append_left

/-- The lanes stay, nothing leaves, nothing is recorded. -/
theorem Replaces.keep (hs : Trusted c s)
    (news : List (Task n)) (hconserve : stackNumbers news = stackNumbers tops)
    (htasks : ∀ t ∈ news, t.Ok c)
    (hfuture : stackFuture w news ≤ stackFuture w tops)
    (hholding : ∀ o, Holding tops o → Holding news o) :
    Replaces c s w tops news (s.keep w stack) where
  conserve := by
    show stackNumbers news + (s.lanes w).numbers + 0 + 0 =
      stackNumbers tops + (s.lanes w).numbers + 0
    rw [hconserve, add_zero]
  tasks := htasks
  rx := hs.rx w
  input x hx := by cases hx
  future := by
    exact add_le_add_left (add_le_add_left hfuture _) _
  holding o ho := .inl (hholding o ho)
  broadcast o ho := by cases ho

variable {p : Mbuf}

/-- A buffer is freed, and no task of `tops` was going to hand one over to its own stack. -/
theorem Replaces.free (hs : Trusted c s) (hconserve : stackNumbers tops = {p.id})
    (hholding : ∀ o, ¬Holding tops o) :
    Replaces c s w tops [] (s.free w stack p) where
  conserve := by
    show stackNumbers [] + (s.lanes w).numbers + 0 + ({p.id} : Multiset Nat) =
      stackNumbers tops + (s.lanes w).numbers + 0
    rw [hconserve, stackNumbers_nil]
    abel
  tasks t ht := by cases ht
  rx := hs.rx w
  input x hx := by cases hx
  future := by
    exact add_le_add_left (add_le_add_left (zero_le _) _) _
  holding o ho := absurd ho (hholding o)
  broadcast o ho := by cases ho

/-! ## Each step -/

theorem not_holding_nil (o : Nat) : ¬Holding ([] : List (Task n)) o := by
  rintro ⟨p, _, _, hin | ⟨i, hin⟩⟩
  · cases hin
  · cases hin

/-- Only `Input` and the loop of `Route` hold a frame for the worker's own stack. -/
theorem not_holding {t : Task n} (hinput : ∀ p, t ≠ .input p) (hspread : ∀ p i, t ≠ .spread p i)
    (o : Nat) : ¬Holding [t] o := by
  rintro ⟨p, _, _, hin | ⟨i, hin⟩⟩
  · exact hinput p (mem_singleton.mp hin).symm
  · exact hspread p i (mem_singleton.mp hin).symm

theorem mem_future_route (p : Mbuf) (v w : Fin n) : (w, p.origin) ∈ (Task.route p).future v := by
  rw [future_route]
  exact mem_map_of_mem _ (mem_univ w)

open Replaces (free keep)

theorem steer_legal {q : Mbuf} {target : Int}
    (hs : Trusted c s) (hold : s.tasks w = [.route q] ++ rest) (hp : Good c p)
    (hid : p.id = q.id) (horigin : p.origin = q.origin) (hlen : p.frame.length ≤ kMaxFrame)
    (hm : s.steer w rest p target = some m) : Legal c s w m := by
  have hnot : ∀ o, ¬Holding [Task.route (n := n) q] o :=
    not_holding (nofun) (nofun)
  have hnumbers : stackNumbers [Task.route (n := n) q] = {p.id} := by
    rw [hid]
    rfl
  have hfuture : ∀ x : Fin n, {(x, p.origin)} ≤ stackFuture w [Task.route q] := by
    intro x
    rw [stackFuture_cons, stackFuture_nil, add_zero, singleton_le, horigin]
    exact mem_future_route q w x
  unfold Net.steer at hm
  split at hm
  · cases hm
    have hkeep : Replaces c s w [.route q] [.spread p 0] (s.keep w (.spread p 0 :: rest)) := by
      refine keep hs _ hnumbers.symm (fun t ht => ?_) ?_ fun o ho => absurd ho (hnot o)
      · rw [mem_singleton.mp ht]
        exact hp
      · rw [stackFuture_cons, stackFuture_cons, stackFuture_nil, add_zero, add_zero]
        rw [future_spread, future_route, horigin]
        exact map_le_map (Finset.val_le_iff.mpr (Finset.filter_subset _ _))
    have hbroadcast : ∀ o ∈ some p.origin, Holding [Task.spread (n := n) p 0] o := by
      intro o ho
      obtain rfl : p.origin = o := some.inj ho
      exact ⟨p, rfl, hlen, .inr ⟨0, mem_singleton.mpr rfl⟩⟩
    have hreplaces : Replaces c s w [.route q] [.spread p 0]
        { s.keep w (.spread p 0 :: rest) with broadcast := some p.origin } :=
      { hkeep with broadcast := hbroadcast }
    exact hreplaces.legal hs hold rfl
  split at hm
  · cases hm
    refine (keep hs [.input p] hnumbers.symm (fun t ht => ?_) ?_
      fun o ho => absurd ho (hnot o)).legal hs hold rfl
    · rw [mem_singleton.mp ht]
      exact hp
    · exact hfuture w
  split at hm
  · split at hm
    · cases hm
      refine (keep hs [.enqueue .rx _ p] hnumbers.symm (fun t ht => ?_) ?_
        fun o ho => absurd ho (hnot o)).legal hs hold rfl
      · rw [mem_singleton.mp ht]
        exact hp
      · exact hfuture _
    · cases hm
  cases hm
  exact (free hs hnumbers hnot).legal hs hold rfl

theorem route_legal {t : Tables} (hs : Trusted c s) (hold : s.tasks w = [.route p] ++ rest)
    (hm : s.route c w rest p t = some m) : Legal c s w m := by
  have hok : p.nic = true := hs.tasks w (.route p) (by rw [hold]; exact mem_cons_self)
  unfold Net.route at hm
  dsimp only at hm
  split at hm
  next hlen =>
    obtain ⟨target, -, hsteer⟩ := bind_eq_some_iff.mp hm
    refine steer_legal (p := { p with port := c.port }) hs hold ?_ ?_ ?_ hlen hsteer
    · rw [Good, if_pos hok]
    · rfl
    · rfl
  next =>
    cases hm
    refine (free hs ?_ ?_).legal hs hold rfl
    · rfl
    · exact not_holding (nofun) (nofun)

variable {i : Nat}

/-- The worker itself and those from `i` on, when `i` is another one. -/
theorem filter_insert (h : i < n) : (Finset.univ.filter fun x : Fin n => x = w ∨ i ≤ x.val) =
      insert ⟨i, h⟩ (Finset.univ.filter fun x : Fin n => x = w ∨ i + 1 ≤ x.val) := by
  ext x
  rw [Finset.mem_insert, Finset.mem_filter, Finset.mem_filter]
  simp only [mem_univ, true_and]
  constructor
  · rintro (hw | hle)
    · exact .inr (.inl hw)
    · rcases Nat.eq_or_lt_of_le hle with heq | hlt
      · exact .inl (Fin.ext heq.symm)
      · exact .inr (.inr hlt)
  · rintro (heq | hw | hlt)
    · exact .inr (Nat.le_of_eq (congrArg Fin.val heq).symm)
    · exact .inl hw
    · exact .inr (Nat.le_of_succ_le hlt)

theorem future_spread_succ (p : Mbuf) :
    (Task.spread p (i + 1)).future w ≤ (Task.spread p i).future w := by
  rw [future_spread, future_spread]
  refine map_le_map (Finset.val_le_iff.mpr fun x hx => ?_)
  rw [Finset.mem_filter] at hx ⊢
  exact ⟨hx.1, hx.2.imp_right Nat.le_of_succ_le⟩

theorem future_spread_clone (h : i < n) (hne : i ≠ w.val) (p : Mbuf) :
    {(⟨i, h⟩, p.origin)} + (Task.spread p (i + 1)).future w = (Task.spread p i).future w := by
  have hnot : (⟨i, h⟩ : Fin n) ∉ Finset.univ.filter fun x : Fin n => x = w ∨ i + 1 ≤ x.val := by
    rw [Finset.mem_filter]
    rintro ⟨-, heq | hlt⟩
    · exact hne (congrArg Fin.val heq)
    · exact Nat.not_succ_le_self i hlt
  rw [future_spread, future_spread, filter_insert h, Finset.insert_val_of_notMem hnot,
    Multiset.map_cons]
  rfl

theorem clone_legal {ok : Bool} (hs : Trusted c s) (hold : s.tasks w = [.spread p i] ++ rest) :
    Legal c s w (s.clone w rest p i ok) := by
  have hok : Good c p := hs.tasks w (.spread p i) (by rw [hold]; exact mem_cons_self)
  have hkeeps : ∀ {t : Task n}, (t = .input p ∨ ∃ j, t = .spread p j) →
      ∀ o, Holding [Task.spread (n := n) p i] o → Holding [t] o := by
    rintro t ht o ⟨q, rfl, hlen, hin | ⟨j, hin⟩⟩
    · cases mem_singleton.mp hin
    cases mem_singleton.mp hin
    rcases ht with rfl | ⟨k, rfl⟩
    · exact ⟨_, rfl, hlen, .inl (mem_singleton.mpr rfl)⟩
    · exact ⟨_, rfl, hlen, .inr ⟨k, mem_singleton.mpr rfl⟩⟩
  unfold Net.clone
  split
  next h =>
    split
    next =>
      refine (keep hs [.spread p (i + 1)] ?_ (fun t ht => ?_) ?_ ?_).legal hs hold rfl
      · rfl
      · rw [mem_singleton.mp ht]
        exact hok
      · rw [stackFuture_cons, stackFuture_cons]
        exact add_le_add_left (future_spread_succ p) _
      · exact hkeeps (.inr ⟨_, rfl⟩)
    next hgo =>
      have hne : i ≠ w.val := fun heq => hgo (.inl heq)
      suffices hreplaces : Replaces c s w [.spread p i]
          [.enqueue .rx ⟨i, h⟩ { p with id := s.obtained }, .spread p (i + 1)] _ from
        hreplaces.legal hs hold rfl
      refine ⟨?_, fun t ht => ?_, hs.rx w, nofun, ?_, fun o ho => .inl ?_, nofun⟩
      · show ({s.obtained} : Multiset Nat) + 0 + ({p.id} + 0 + 0) + (s.lanes w).numbers + 0 + 0 =
          ({p.id} + 0 + 0) + (s.lanes w).numbers + {s.obtained}
        abel
      · rcases mem_cons.mp ht with rfl | hin
        · exact hok
        · rw [mem_singleton.mp hin]
          exact hok
      · show stackFuture w [_, _] + laneFuture w (s.lanes w) + 0 ≤
          stackFuture w [_] + laneFuture w (s.lanes w) + fresh n s.obtained 1
        rw [stackFuture_cons, stackFuture_cons, stackFuture_cons]
        have hclone := future_spread_clone h hne p
        refine add_le_add (add_le_add_left ?_ _) (zero_le _)
        rw [← add_assoc]
        exact add_le_add_left (le_of_eq hclone) _
      · exact (hkeeps (.inr ⟨_, rfl⟩) o ho).append_right
          [Task.enqueue .rx ⟨i, h⟩ { p with id := s.obtained }]
  next h =>
    refine (keep hs [.input p] ?_ (fun t ht => ?_) ?_ ?_).legal hs hold rfl
    · rfl
    · rw [mem_singleton.mp ht]
      exact hok
    · rw [stackFuture_cons, stackFuture_cons]
      refine add_le_add_left (singleton_le.mpr ?_) _
      rw [future_spread]
      exact mem_map_of_mem _ (Finset.mem_filter.mpr ⟨mem_univ w, .inl rfl⟩)
    · exact hkeeps (.inl rfl)

theorem push_numbers (l : Lane) (p : Mbuf) (ring : Ring) :
    (l.push p ring).numbers = l.numbers + {p.id} := by
  cases ring <;> simp only [Lane.push, Lane.numbers, numbers_append, numbers_cons, numbers_nil] <;>
    abel

theorem enqueue_legal {target : Fin n} {ring : Ring} {full : Bool} (hs : Trusted c s)
    (hold : s.tasks w = [.enqueue ring target p] ++ rest)
    (hm : s.enqueue w rest ring target p full = some m) : Legal c s w m := by
  have hnot : ∀ o, ¬Holding [Task.enqueue ring target p] o :=
    not_holding (nofun) (nofun)
  have hok : (Task.enqueue ring target p).Ok c :=
    hs.tasks w _ (by rw [hold]; exact mem_cons_self)
  unfold Net.enqueue at hm
  split at hm
  · cases hm
  split at hm
  · cases hm
    refine (free hs ?_ hnot).legal hs hold rfl
    rfl
  cases hm
  suffices hreplaces : Replaces c s w [.enqueue ring target p] [] _ from
    hreplaces.legal hs hold rfl
  refine ⟨?_, nofun, fun q hq => ?_, nofun, ?_, fun o ho => absurd ho (hnot o), nofun⟩
  · show (0 : Multiset Nat) + ((s.lanes target).push p ring).numbers + 0 + 0 =
      ({p.id} + 0 + 0) + (s.lanes target).numbers + 0
    rw [push_numbers]
    abel
  · cases ring with
    | rx =>
      rcases mem_append.mp hq with hin | hin
      · exact hs.rx target q hin
      rw [mem_singleton.mp hin]
      exact hok
    | tx => exact hs.rx target q hq
  · cases ring with
    | rx =>
      have hpush : laneFuture target ((s.lanes target).push p .rx) =
          laneFuture target (s.lanes target) + {(target, p.origin)} := by
        simp only [laneFuture, Lane.push, map_append, ← coe_add]
        rfl
      rw [hpush]
      refine le_of_eq ?_
      abel
    | tx =>
      exact le_of_eq (by abel)

theorem input_legal (hs : Trusted c s)
    (hold : s.tasks w = [.input p] ++ rest) : Legal c s w (s.input w rest p) := by
  have hok : Good c p := hs.tasks w (.input p) (by rw [hold]; exact mem_cons_self)
  -- the only frame held is `p`
  have honly : ∀ o, Holding [Task.input (n := n) p] o →
      p.origin = o ∧ p.frame.length ≤ kMaxFrame := by
    rintro o ⟨q, rfl, hlen, hin | ⟨i, hin⟩⟩
    · cases mem_singleton.mp hin
      exact ⟨rfl, hlen⟩
    · cases mem_singleton.mp hin
  unfold Net.input
  split
  next hlen =>
    suffices hreplaces : Replaces c s w [.input p] [.inputting p] _ from
      hreplaces.legal hs hold rfl
    refine ⟨?_, fun t ht => ?_, hs.rx w, ?_, ?_, fun o ho => .inr ?_, nofun⟩
    · show ({p.id} + 0 + 0) + (s.lanes w).numbers + 0 + 0 =
        ({p.id} + 0 + 0) + (s.lanes w).numbers + (0 : Multiset Nat)
      exact add_zero _
    · rw [mem_singleton.mp ht]
      trivial
    · intro x hx
      cases hx
      exact ⟨hok, rfl⟩
    · show (0 + 0) + laneFuture w (s.lanes w) + {(w, p.origin)} ≤
        ({(w, p.origin)} + 0) + laneFuture w (s.lanes w) + 0
      exact le_of_eq (by abel)
    · exact ⟨_, rfl, (honly o ho).1⟩
  next hlong =>
    refine (free hs ?_ ?_).legal hs hold rfl
    · rfl
    · exact fun o ho => hlong (honly o ho).2

theorem append_legal {source : List UInt8} {ok : Bool} {t : Tables} (hs : Trusted c s)
    (hold : s.tasks w = [.append p source] ++ rest)
    (hm : s.append c w rest p source ok t = some m) : Legal c s w m := by
  have hnot : ∀ o, ¬Holding [Task.append (n := n) p source] o :=
    not_holding (nofun) (nofun)
  have hnic : p.nic = false :=
    hs.tasks w (.append p source) (by rw [hold]; exact mem_cons_self)
  have hfree : ∀ q : Mbuf, q.id = p.id → Legal c s w (s.free w rest q) := by
    intro q hid
    refine (free hs ?_ hnot).legal hs hold rfl
    rw [hid]
    rfl
  unfold Net.append at hm
  split at hm
  · cases hm
    exact hfree p rfl
  split at hm
  · cases hm
    exact hfree _ rfl
  split at hm
  next hlocal =>
    obtain ⟨target, -, hm⟩ := bind_eq_some_iff.mp hm
    split at hm
    · cases hm
      exact hfree _ rfl
    split at hm
    next h =>
      cases hm
      refine (keep hs [.enqueue .rx ⟨target.toNat, h⟩
        { p with frame := source, port := portInvalid }] ?_ (fun t ht => ?_) ?_
        fun o ho => absurd ho (hnot o)).legal hs hold rfl
      · rfl
      · rw [mem_singleton.mp ht]
        show Good c _
        unfold Good
        rw [if_neg (by rw [hnic]; decide)]
        exact ⟨rfl, hlocal⟩
      · rw [stackFuture_cons, stackFuture_cons]
        refine add_le_add_left (singleton_le.mpr ?_) _
        rw [future_append]
        exact mem_map_of_mem _ (mem_univ (⟨target.toNat, h⟩ : Fin n))
    next => cases hm
  next =>
    split at hm
    next h =>
      cases hm
      refine (keep hs [.enqueue .tx ⟨w.val % c.queues, h⟩ { p with frame := source }] ?_
        (fun t ht => ?_) ?_ fun o ho => absurd ho (hnot o)).legal hs hold rfl
      · rfl
      · rw [mem_singleton.mp ht]
        trivial
      · rw [stackFuture_cons, stackFuture_cons]
        exact add_le_add_left (zero_le _) _
    next => cases hm

theorem arrivals_numbers (first : Nat) (arrived : List (Nat × List UInt8)) :
    numbers (Net.arrivals first arrived) = (List.range' first arrived.length : List Nat) := by
  induction arrived generalizing first with
  | nil => rfl
  | cons x arrived ih =>
    rw [Net.arrivals, numbers_cons, ih, length_cons, List.range'_succ]
    rfl

theorem arrivals_nic (first : Nat) (arrived : List (Nat × List UInt8)) :
    ∀ p ∈ Net.arrivals first arrived, p.nic = true := by
  induction arrived generalizing first with
  | nil => exact fun p hp => by cases hp
  | cons x arrived ih =>
    intro p hp
    rcases mem_cons.mp hp with rfl | hin
    · rfl
    · exact ih (first + 1) p hin

theorem arrivals_future (w : Fin n) (first : Nat) (arrived : List (Nat × List UInt8)) :
    stackFuture w ((Net.arrivals first arrived).map .route) = fresh n first arrived.length := by
  induction arrived generalizing first with
  | nil => rfl
  | cons x arrived ih =>
    rw [Net.arrivals, map_cons, stackFuture_cons, ih, future_route, length_cons]
    unfold fresh
    rw [List.range'_succ, map_cons, sum_cons]

theorem stackFuture_inputs (w : Fin n) (l : List Mbuf) :
    stackFuture w (l.map .input) = (l.map fun p => (w, p.origin) : List (Fin n × Nat)) := by
  induction l with
  | nil => rfl
  | cons p l ih =>
    rw [map_cons, stackFuture_cons, ih]
    rfl

section

variable (hs : Trusted c s)
include hs

theorem receive_legal (hold : s.tasks w = [.receive] ++ rest) (arrived : List (Nat × List UInt8)) :
    Legal c s w { s.keep w ((Net.arrivals s.obtained arrived).map .route ++ rest) with
      obtained := arrived.length } := by
  suffices hreplaces : Replaces c s w [.receive] ((Net.arrivals s.obtained arrived).map .route) _
    from hreplaces.legal hs hold rfl
  refine ⟨?_, fun t ht => ?_, hs.rx w, nofun, ?_, fun o ho => ?_, nofun⟩
  · show stackNumbers ((Net.arrivals s.obtained arrived).map .route) + (s.lanes w).numbers +
        0 + 0 =
      (0 + 0) + (s.lanes w).numbers + (List.range' s.obtained arrived.length : List Nat)
    rw [stackNumbers_map (fun _ => rfl), arrivals_numbers]
    abel
  · obtain ⟨p, hp, rfl⟩ := mem_map.mp ht
    exact arrivals_nic _ _ p hp
  · show stackFuture w ((Net.arrivals s.obtained arrived).map .route) +
        laneFuture w (s.lanes w) + 0 ≤
      (0 + 0) + laneFuture w (s.lanes w) + fresh n s.obtained arrived.length
    rw [arrivals_future]
    exact le_of_eq (by abel)
  · exact absurd ho (not_holding (fun _ heq => by cases heq) (fun _ _ heq => by cases heq) o)

theorem lane_legal (hold : s.tasks w = [.lane] ++ rest) :
    Legal c s w ⟨((s.lanes w).rx.take kBurst).map .input ++ rest, w,
      { s.lanes w with rx := (s.lanes w).rx.drop kBurst }, [], [], 0, none, none⟩ := by
  suffices hreplaces : Replaces c s w [.lane] (((s.lanes w).rx.take kBurst).map .input) _ from
    hreplaces.legal hs hold rfl
  refine ⟨?_, fun t ht => ?_, fun p hp => hs.rx w p (List.mem_of_mem_drop hp),
    nofun, ?_, fun o ho => ?_, nofun⟩
  · show stackNumbers (((s.lanes w).rx.take kBurst).map .input) +
        numbers ((s.lanes w).rx.drop kBurst ++ (s.lanes w).tx) + 0 + 0 =
      (0 + 0) + numbers ((s.lanes w).rx ++ (s.lanes w).tx) + 0
    rw [stackNumbers_map (fun _ => rfl), numbers_append, numbers_append,
      ← numbers_take_drop kBurst (s.lanes w).rx]
    abel
  · obtain ⟨p, hp, rfl⟩ := mem_map.mp ht
    exact hs.rx w p (List.mem_of_mem_take hp)
  · show stackFuture w (((s.lanes w).rx.take kBurst).map .input) +
        (((s.lanes w).rx.drop kBurst).map fun p => (w, p.origin) : List (Fin n × Nat)) + 0 ≤
      (0 + 0) + ((s.lanes w).rx.map fun p => (w, p.origin) : List (Fin n × Nat)) + 0
    rw [stackFuture_inputs, coe_add, ← map_append, take_append_drop]
    exact le_of_eq (by abel)
  · exact absurd ho (not_holding (fun _ heq => by cases heq) (fun _ _ heq => by cases heq) o)

theorem flushTx_legal (hold : s.tasks w = [.flushTx] ++ rest) :
    Legal c s w ⟨.txBurst ((s.lanes w).tx.take kBurst) :: rest, w,
      { s.lanes w with tx := (s.lanes w).tx.drop kBurst }, [], [], 0, none, none⟩ := by
  suffices hreplaces : Replaces c s w [.flushTx] [.txBurst ((s.lanes w).tx.take kBurst)] _ from
    hreplaces.legal hs hold rfl
  refine ⟨?_, fun t ht => ?_, hs.rx w, nofun, le_rfl, fun o ho => ?_, nofun⟩
  · show stackNumbers [Task.txBurst ((s.lanes w).tx.take kBurst)] +
        numbers ((s.lanes w).rx ++ (s.lanes w).tx.drop kBurst) + 0 + 0 =
      (0 + 0) + numbers ((s.lanes w).rx ++ (s.lanes w).tx) + 0
    rw [stackNumbers_cons, stackNumbers_nil, numbers_append, numbers_append,
      ← numbers_take_drop kBurst (s.lanes w).tx]
    show numbers ((s.lanes w).tx.take kBurst) + 0 + _ + 0 + 0 = _
    abel
  · rw [mem_singleton.mp ht]
    trivial
  · exact absurd ho (not_holding (fun _ heq => by cases heq) (fun _ _ heq => by cases heq) o)

theorem txBurst_legal {batch : List Mbuf}
    (hold : s.tasks w = [.txBurst batch] ++ rest) (count : Nat) :
    Legal c s w { s.keep w rest with
      sent := (batch.take count).map Mbuf.id, freed := (batch.drop count).map Mbuf.id } := by
  suffices hreplaces : Replaces c s w [.txBurst batch] [] _ from hreplaces.legal hs hold rfl
  refine ⟨?_, nofun, hs.rx w, nofun, le_rfl, fun o ho => ?_, fun o ho => (by cases ho)⟩
  · show 0 + (s.lanes w).numbers + numbers (batch.take count) + numbers (batch.drop count) =
      stackNumbers [Task.txBurst batch] + (s.lanes w).numbers + 0
    rw [stackNumbers_cons, stackNumbers_nil]
    show _ = numbers batch + 0 + (s.lanes w).numbers + 0
    rw [← numbers_take_drop count batch]
    abel
  · exact absurd ho (not_holding (fun _ heq => by cases heq) (fun _ _ heq => by cases heq) o)

theorem transmit_legal (source : List UInt8)
    (alloc : Bool) : Legal c s w (s.transmit w source alloc) := by
  unfold Net.transmit
  split
  · have hsame : Replaces c s w [] [] (s.keep w (s.tasks w)) :=
      keep hs [] rfl (nofun) le_rfl fun o ho => ho
    exact hsame.legal hs rfl rfl
  suffices hreplaces : Replaces c s w []
      [.append ⟨s.obtained, s.obtained, false, portInvalid, []⟩ source] _ from
    hreplaces.legal hs rfl rfl
  refine ⟨?_, fun t ht => ?_, hs.rx w, nofun, ?_, fun o ho => absurd ho (not_holding_nil o), nofun⟩
  · show ({s.obtained} + 0 + 0) + (s.lanes w).numbers + 0 + 0 =
      (0 : Multiset Nat) + (s.lanes w).numbers + {s.obtained}
    abel
  · rw [mem_singleton.mp ht]
    rfl
  · show (Finset.univ.val.map fun x => (x, s.obtained)) + 0 + laneFuture w (s.lanes w) + 0 ≤
      0 + laneFuture w (s.lanes w) + ((Finset.univ.val.map fun x => (x, s.obtained)) + 0)
    exact le_of_eq (by abel)

theorem freeRings_legal (t : Fin n) :
    Legal c s w ⟨s.tasks w, t, ⟨[], [], false⟩, [],
      ((s.lanes t).rx ++ (s.lanes t).tx).map Mbuf.id, 0, none, none⟩ := by
  suffices hreplaces : Replaces c s w [] [] _ from hreplaces.legal hs rfl rfl
  refine ⟨?_, nofun, nofun, nofun, ?_, fun o ho => .inl ho, nofun⟩
  · show (0 : Multiset Nat) + 0 + 0 + (s.lanes t).numbers = 0 + (s.lanes t).numbers + 0
    abel
  · exact zero_le _

theorem inputDone_legal (hold : s.tasks w = [.inputting p] ++ rest) :
    Legal c s w (s.free w rest p) := by
  refine (free hs ?_ ?_).legal hs hold rfl
  · rfl
  · exact not_holding (nofun) nofun

/-- Tasks without buffers come and go. -/
theorem plain_legal (tops news rest : List (Task n))
    (hold : s.tasks w = tops ++ rest) (htops : stackNumbers tops = 0)
    (hnews : stackNumbers news = 0) (hok : ∀ t ∈ news, t.Ok c) (hfuture : stackFuture w news = 0)
    (hholding : ∀ o, ¬Holding tops o) : Legal c s w (s.keep w (news ++ rest)) := by
  refine (keep hs news (hnews.trans htops.symm) hok ?_
    fun o ho => absurd ho (hholding o)).legal hs hold rfl
  rw [hfuture]
  exact zero_le _

/-- **Every step is legal.** -/
theorem moveOf_legal {a : Choice} (hm : s.moveOf c w a (s.tasks w) = some m) : Legal c s w m := by
  generalize hstack : s.tasks w = stack at hm
  unfold Net.moveOf at hm
  split at hm
  · cases hm
    refine plain_legal hs [] [.receive, .lane, .bsdPoll, .flushTx] [] hstack rfl rfl
      (fun t ht => ?_) rfl not_holding_nil
    simp only [mem_cons, not_mem_nil, or_false] at ht
    rcases ht with rfl | rfl | rfl | rfl <;> trivial
  · cases hm
    refine plain_legal hs [] [.flushTx] [] hstack rfl rfl (fun t ht => ?_) rfl not_holding_nil
    rw [mem_singleton.mp ht]
    trivial
  · obtain ⟨-, hm⟩ := ite_none_right_eq_some.mp hm
    cases hm
    exact receive_legal hs hstack _
  · obtain ⟨-, hm⟩ := ite_none_right_eq_some.mp hm
    cases hm
    exact lane_legal hs hstack
  · cases hm
    exact plain_legal hs [.bsdPoll] [] _ hstack rfl rfl (nofun) rfl
      (not_holding (nofun) nofun)
  · split at hm
    · cases hm
      exact plain_legal hs [.flushTx] [] _ hstack rfl rfl (nofun) rfl
        (not_holding (nofun) nofun)
    · obtain ⟨-, hm⟩ := ite_none_right_eq_some.mp hm
      cases hm
      exact flushTx_legal hs hstack
  · cases hm
    exact txBurst_legal hs hstack _
  · exact route_legal hs hstack hm
  · cases hm
    exact clone_legal hs hstack
  · exact enqueue_legal hs hstack hm
  · cases hm
    exact input_legal hs hstack
  · cases hm
    exact inputDone_legal hs hstack
  · exact append_legal hs hstack hm
  · obtain ⟨-, hm⟩ := ite_none_right_eq_some.mp hm
    cases hm
    exact transmit_legal hs _ _
  · split at hm
    · cases hm
      rw [← hstack]
      exact freeRings_legal hs _
    · cases hm
  · cases hm

end

/-! ## Every run -/

/-- What holds of every reachable state. -/
structure Inv (c : Config) (s : Net n) : Prop where
  total : s.total = (List.range s.obtained : List Nat)
  trusted : Trusted c s
  nodup : s.future.Nodup
  origins : ∀ x ∈ s.future, x.2 < s.obtained
  broadcasts : ∀ x ∈ s.broadcasts, Holding (s.tasks x.1) x.2 ∨
    ∃ y ∈ s.inputs, y.1 = x.1 ∧ y.2.1.origin = x.2

theorem Legal.total (h : Legal c s w m) :
    (s.apply w m).total = s.total + (List.range' s.obtained m.obtained : List Nat) := by
  have happly := s.total_apply w m
  rw [h.conserve] at happly
  refine add_right_cancel (b := stackNumbers (s.tasks w) + (s.lanes m.target).numbers) ?_
  rw [happly]
  abel

theorem Legal.trusted (h : Legal c s w m) (hs : Trusted c s) : Trusted c (s.apply w m) := by
  refine ⟨fun v t ht => ?_, fun v p hp => ?_, fun x hx => ?_⟩
  · by_cases heq : v = w
    · subst heq
      exact h.tasks t (by rwa [show (s.apply v m).tasks v = m.stack from
        update_self ..] at ht)
    · exact hs.tasks v t (by rwa [show (s.apply w m).tasks v = s.tasks v from
        update_of_ne heq ..] at ht)
  · by_cases heq : v = m.target
    · subst heq
      exact h.rx p (by rwa [show (s.apply w m).lanes m.target = m.lane from
        update_self ..] at hp)
    · exact hs.rx v p (by rwa [show (s.apply w m).lanes v = s.lanes v from
        update_of_ne heq ..] at hp)
  · rcases mem_append.mp hx with hold | hnew
    · exact hs.inputs x hold
    · obtain ⟨y, hy, rfl⟩ := map_eq_some_iff.mp (Option.mem_toList.mp hnew)
      exact h.input y hy

theorem Legal.future_le (h : Legal c s w m) :
    (s.apply w m).future ≤ s.future + fresh n s.obtained m.obtained := by
  have happly := s.future_apply w m
  refine le_of_add_le_add_right
    (a := stackFuture w (s.tasks w) + laneFuture m.target (s.lanes m.target)) ?_
  rw [happly]
  calc _ ≤ s.future + (stackFuture w (s.tasks w) + laneFuture m.target (s.lanes m.target) +
        fresh n s.obtained m.obtained) := add_le_add_right h.future _
    _ = _ := by abel

theorem fresh_succ (first count : Nat) : fresh n first (count + 1) =
      (Finset.univ.val.map fun w => (w, first)) + fresh n (first + 1) count := by
  unfold fresh
  rw [List.range'_succ, map_cons, sum_cons]

theorem fresh_bounds {first count : Nat} {x : Fin n × Nat} (h : x ∈ fresh n first count) :
    first ≤ x.2 ∧ x.2 < first + count := by
  induction count generalizing first with
  | zero => cases h
  | succ count ih =>
    rw [fresh_succ, mem_add] at h
    rcases h with hin | hin
    · obtain ⟨w, _, rfl⟩ := Multiset.mem_map.mp hin
      exact ⟨le_rfl, by show first < first + (count + 1); omega⟩
    have hbounds := ih hin
    omega

theorem nodup_fresh (first count : Nat) : (fresh n first count).Nodup := by
  induction count generalizing first with
  | zero => exact nodup_zero
  | succ count ih =>
    rw [fresh_succ, nodup_add]
    refine ⟨Multiset.Nodup.map (fun a b hab => (Prod.mk.inj hab).1) Finset.univ.nodup, ih _, ?_⟩
    rw [disjoint_left]
    intro x hx hin
    obtain ⟨w, _, rfl⟩ := Multiset.mem_map.mp hx
    have hbounds := fresh_bounds hin
    exact absurd hbounds.1 (Nat.not_succ_le_self first)

theorem Legal.inv (h : Legal c s w m) (hs : Inv c s) : Inv c (s.apply w m) where
  total := by
    rw [h.total, hs.total, coe_add, Multiset.coe_eq_coe, List.range_eq_range', List.range_eq_range']
    show List.Perm _ (List.range' 0 (s.obtained + m.obtained))
    rw [List.range'_append_1.symm, Nat.zero_add]
  trusted := h.trusted hs.trusted
  nodup := by
    refine nodup_of_le h.future_le (nodup_add.mpr ⟨hs.nodup, nodup_fresh .., ?_⟩)
    rw [disjoint_left]
    intro x hx hin
    have hlt := hs.origins x hx
    have hbounds := fresh_bounds hin
    omega
  origins x hx := by
    show x.2 < s.obtained + m.obtained
    rcases mem_add.mp (Multiset.mem_of_le h.future_le hx) with hold | hnew
    · have hlt := hs.origins x hold
      omega
    · exact (fresh_bounds hnew).2
  broadcasts x hx := by
    rcases mem_append.mp hx with hold | hnew
    · rcases hs.broadcasts x hold with hholding | ⟨y, hy, heq⟩
      · by_cases hw : x.1 = w
        · rw [hw] at hholding
          rw [hw, show (s.apply w m).tasks w = m.stack from update_self ..]
          refine (h.holding x.2 hholding).imp_right fun ⟨z, hz, ho⟩ => ?_
          refine ⟨(w, z), mem_append_right _ ?_, rfl, ho⟩
          exact Option.mem_toList.mpr (map_eq_some_iff.mpr ⟨z, hz, rfl⟩)
        · rw [show (s.apply w m).tasks x.1 = s.tasks x.1 from update_of_ne hw ..]
          exact .inl hholding
      · exact .inr ⟨y, mem_append_left _ hy, heq⟩
    · obtain ⟨o, ho, rfl⟩ := map_eq_some_iff.mp (Option.mem_toList.mp hnew)
      rw [show (s.apply w m).tasks w = m.stack from update_self ..]
      exact .inl (h.broadcast o ho)

theorem Initial.inv (h : Initial s) : Inv c s := by
  have htasks : s.tasks = fun _ => [] := funext h.tasks
  have hlanes : s.lanes = fun _ => ⟨[], [], true⟩ := funext h.lanes
  have hfuture : s.future = 0 := by
    unfold Net.future
    rw [htasks, hlanes, h.inputs]
    simp [laneFuture]
  refine ⟨?_, ⟨fun w t ht => ?_, fun w p hp => ?_, fun x hx => ?_⟩, ?_, ?_, fun x hx => ?_⟩
  · unfold Net.total
    rw [htasks, hlanes, h.sent, h.freed, h.obtained]
    simp [Lane.numbers]
  · rw [h.tasks w] at ht
    cases ht
  · rw [h.lanes w] at hp
    cases hp
  · rw [h.inputs] at hx
    cases hx
  · rw [hfuture]
    exact nodup_zero
  · rw [hfuture]
    exact fun x hx => absurd hx (Multiset.notMem_zero x)
  · rw [h.broadcasts] at hx
    cases hx

theorem reachable_inv (h : (packetSystem n c).Reachable s) : Inv c s := by
  refine Reachable.invariant (S := packetSystem n c) (fun _ hinit => Initial.inv hinit) ?_ h
  intro s a s' hs hstep
  obtain ⟨m, hm, rfl⟩ := map_eq_some_iff.mp hstep
  exact (moveOf_legal hs.trusted hm).inv hs

/-- What the fabric guarantees of its packets. -/
structure Guarantees (c : Config) (s : Net n) : Prop where
  /-- Every buffer obtained is in exactly one place: a running function, a lane ring, the device, or
      freed. -/
  conserved : ∀ id < s.obtained,
    (∑ w, stackNumbers (s.tasks w)).count id + (∑ w, (s.lanes w).numbers).count id +
      s.sent.count id + s.freed.count id = 1
  /-- No worker's stack gets a frame twice; a broadcast frame is handed to the receiving worker's
      stack exactly once, unless its `Route` is still to do so. -/
  once : (s.inputs.map fun x => (x.1, x.2.1.origin)).Nodup
  received : ∀ x ∈ s.broadcasts, Holding (s.tasks x.1) x.2 ∨
    (s.inputs.map fun x => (x.1, x.2.1.origin)).count x = 1
  /-- A frame goes through `bycorf_bsd_local_input` only if `Transmit` made it for the interface's
      own address, and never if it came from the device. -/
  trust : ∀ x ∈ s.inputs, x.2.2 = true → x.2.1.nic = false ∧ Net.isLocal c x.2.1.frame = true

/-- **Packets are conserved and keep their trust**, in every state of every run. -/
theorem reachable_packets (hport : c.port ≠ portInvalid) {s : Net n}
    (h : (packetSystem n c).Reachable s) : Guarantees c s := by
  have hs := reachable_inv h
  have honce : (s.inputs.map fun x => (x.1, x.2.1.origin)).Nodup := by
    rw [← Multiset.coe_nodup]
    exact nodup_of_le (Multiset.le_add_left _ _) hs.nodup
  refine ⟨fun id hid => ?_, honce, fun x hx => ?_, fun x hx hlocal => ?_⟩
  · have hcount := congrArg (count id) hs.total
    rw [Net.total, count_add, count_add, count_add, coe_count,
      coe_count, coe_count,
      List.count_eq_one_of_mem List.nodup_range (mem_range.mpr hid)] at hcount
    exact hcount
  · refine (hs.broadcasts x hx).imp_right fun ⟨y, hy, hw, ho⟩ => ?_
    exact List.count_eq_one_of_mem honce (mem_map.mpr ⟨y, hy, Prod.ext hw ho⟩)
  · obtain ⟨hgood, hflag⟩ := hs.trusted.inputs x hx
    rw [hlocal] at hflag
    have hinvalid := of_decide_eq_true hflag.symm
    unfold Good at hgood
    split at hgood
    · rw [hinvalid] at hgood
      exact absurd hgood.symm hport
    next hnic => exact ⟨eq_false_iff.mpr hnic, hgood.2⟩

/-- Two workers with a queue each. -/
def smallConfig : Config := ⟨2, 0, [10, 0, 0, 1]⟩

/-- Nothing has been received, and every lane is open. -/
def idleNet (n : Nat) : Net n := ⟨fun _ => [], fun _ => ⟨[], [], true⟩, [], [], 0, [], []⟩

/-- An ARP frame. -/
def arpFrame : List UInt8 := [0, 0, 0, 0, 0, 0, 0, 0, 0, 0, 0, 0, 8, 6]

/-- A worker receives an ARP frame, passes a copy on and inputs it. -/
def broadcastRun (w : Fin 2) : List (Fin 2 × Choice) :=
  [.packets, .receive [(portInvalid, arpFrame)], .route ⟨2, false, [], fun _ => 0⟩, .clone true,
    .clone true, .enqueue false, .clone true, .input, .inputDone].map (w, ·)

/-- A worker takes the copy from its lane. -/
def laneRun (w : Fin 2) : List (Fin 2 × Choice) :=
  [.packets, .receive [], .lane, .input, .inputDone].map (w, ·)

theorem reachable_packets_broadcast :
    ∃ s, (packetSystem 2 smallConfig).run (idleNet 2) (broadcastRun 0 ++ laneRun 1) = some s ∧
      (s.broadcasts = [(0, 0)] ∧ (s.inputs.map fun x => (x.1, x.2.1.origin)) = [(0, 0), (1, 0)] ∧
      s.freed = [0, 1]) ∧ Guarantees smallConfig s := by
  have hinit : (packetSystem 2 smallConfig).init (idleNet 2) :=
    ⟨fun _ => rfl, fun _ => rfl, rfl, rfl, rfl, rfl, rfl⟩
  exact exists_run hinit (reachable_packets (by decide)) ⟨_, rfl, rfl, rfl, rfl⟩

end Bycorf.Dpdk.Packets
