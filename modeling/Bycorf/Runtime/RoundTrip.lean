/-
  `SubmitTo` and `SubmitTaskTo` are round trips that happen exactly once.

  1. **Stage** — how far a call has come; it fixes the one queue that names the call, the thread
     that works on it, the frame of `Run`, and what the awaiter's fields hold (`Located`).
  2. **Frame rule** — a step works on one call; `Same` says what it leaves alone of another.
  3. **Invariant** — a call that was never started is named nowhere (`Absent`); every other one is
     located at a stage.
-/
import Mathlib.Data.List.Perm.Basic
import Bycorf.Runtime.Submit

namespace Bycorf.Runtime

open Lib Function

/-! ## Places and stages -/

/-- Where a call can be. -/
inductive Place where
  | notStarted
  | requestInTransit
  | remoteWork          -- in a remote-work queue of the target
  | running             -- on the target
  | replyInTransit
  | waiterReady         -- the waiter is in a ready queue of the origin
  | resumed
deriving DecidableEq, Repr

/-- How far a call is on its way to the target and back. -/
inductive Stage where
  | requested
  | queued
  | runFn (taskClass : TaskClass)
  | inFn (taskClass : TaskClass)
  | returned (taskClass : TaskClass)
  | inline
  | spawned (taskClass : TaskClass)
  | started
  | awaiting
  | replying
  | replied
  | woken (taskClass : TaskClass)
  | resumed
deriving DecidableEq, Repr

namespace Stage

variable {α : Type}

/-- The one queue entry that names the call. -/
def slot (c : Nat) (a : Awaiter α) : Stage → Option (Queue × Nat × Item)
  | .requested => some (.request, a.target, .work c)
  | .queued => some (.remoteWork a.taskClass, a.target, .work c)
  | .spawned taskClass => some (.ready taskClass, a.target, .run c)
  | .replied => some (.reply, a.caller, .work c)
  | .woken taskClass => some (.ready taskClass, a.caller, .waiter c)
  | _ => none

/-- What the target's thread does for the call. -/
def thread (c : Nat) : Stage → Option Thread
  | .runFn taskClass => some (.remote c taskClass .runFn)
  | .inFn taskClass => some (.remote c taskClass .inFn)
  | .returned taskClass => some (.remote c taskClass .check)
  | .inline => some (.inline c)
  | .started => some (.start c)
  | .replying => some (.reply c)
  | _ => none

/-- The frame of `Run`. -/
def frame (target : Nat) : Stage → Option (Nat × RunPc)
  | .spawned _ | .started => some (target, .spawned)
  | .awaiting => some (target, .awaiting)
  | .replying => some (target, .replying)
  | _ => none

/-- The user function has been called. -/
def invoked : Stage → Bool
  | .requested | .queued | .runFn _ | .spawned _ | .started => false
  | _ => true

/-- The result slot has been written. -/
def written : Stage → Bool
  | .returned _ | .replying | .replied | .woken _ | .resumed => true
  | _ => false

/-- A reply may have been posted. -/
def posted : Stage → Bool
  | .replied | .woken _ | .resumed => true
  | _ => false

/-- The flag `reply_deferred_`, while it is still to be read. -/
def deferred : Stage → Option Bool
  | .requested | .queued | .runFn _ | .inFn _ | .returned _ => some false
  | .spawned _ => some true
  | _ => none

/-- Where the one token of a call is. -/
def place : Stage → Place
  | .requested => .requestInTransit
  | .queued => .remoteWork
  | .runFn _ | .inFn _ | .returned _ | .inline | .spawned _ | .started | .awaiting | .replying =>
    .running
  | .replied => .replyInTransit
  | .woken _ => .waiterReady
  | .resumed => .resumed

end Stage

namespace Workers

variable {α : Type}

/-- The call is at the place. -/
def At (s : Workers α) (c : Nat) : Place → Prop
  | .notStarted => s.call c = none
  | .requestInTransit => ∃ a, s.call c = some a ∧ .work c ∈ s.queue .request a.target
  | .remoteWork => ∃ a, s.call c = some a ∧
      ∃ taskClass, .work c ∈ s.queue (.remoteWork taskClass) a.target
  | .running => ∃ a, s.call c = some a ∧ ((s.thread a.target).call = some c ∨
      ∃ pc, s.frame c = some (a.target, pc))
  | .replyInTransit => ∃ a, s.call c = some a ∧ .work c ∈ s.queue .reply a.caller
  | .waiterReady => ∃ a, s.call c = some a ∧
      ∃ taskClass, .waiter c ∈ s.queue (.ready taskClass) a.caller
  | .resumed => ∃ w, (c, w) ∈ s.resumes

/-! ## The invariant -/

/-- The queues name the call in the given entry and nowhere else. -/
def Slots (s : Workers α) (c : Nat) (slot : Option (Queue × Nat × Item)) : Prop :=
  ∀ q w i, i.call = c → (s.queue q w).count i = if slot = some (q, w, i) then 1 else 0

/-- The invocations of the function of the call. -/
def invocationsOf (s : Workers α) (c : Nat) : List (Nat × Nat) := s.invocations.filter (·.1 = c)

/-- The resumptions of the caller. -/
def resumesOf (s : Workers α) (c : Nat) : List (Nat × Nat) := s.resumes.filter (·.1 = c)

/-- The replies of the call. -/
def postsOf (s : Workers α) (c : Nat) : List (Nat × Poster) := s.posts.filter (·.1 = c)

/-- Nothing names the call. -/
structure Absent (s : Workers α) (c : Nat) : Prop where
  slots : Slots s c none
  threads : ∀ w, (s.thread w).call ≠ some c
  frame : s.frame c = none
  invocations : s.invocationsOf c = []
  resumes : s.resumesOf c = []
  posts : s.postsOf c = []

/-- The awaiter's fields at a stage. -/
structure Fields (a : Awaiter α) (g : Stage) : Prop where
  suspended : g ≠ .inline → g ≠ .resumed → a.origin = a.caller ∧ a.waiter = true
  inline : g = .inline → a.caller = a.target
  deferred : ∀ b ∈ g.deferred, a.replyDeferred = b
  written : g.written = true → ∃ v, a.result = some v ∧ a.returned = some v
  yielded : a.yielded = if g = .resumed then a.result else none

/-- A call is at a stage: what its awaiter and the queues hold. -/
structure Located (s : Workers α) (c : Nat) (a : Awaiter α) (g : Stage) : Prop where
  fields : Fields a g
  slots : Slots s c (g.slot c a)
  /-- A thread that works on the call is the target's, and it is where the stage says; the one that
      has just spawned `Run` still stands in front of its check of the flag. -/
  threads : ∀ w, (s.thread w).call = some c → w = a.target ∧ (g.thread c = some (s.thread w) ∨
    ∃ own other, g = .spawned own ∧ s.thread w = .remote c other .check)
  runs : ∀ t ∈ g.thread c, s.thread a.target = t
  frame : s.frame c = g.frame a.target
  invocations : s.invocationsOf c = if g.invoked then [(c, a.target)] else []
  resumes : s.resumesOf c = if g = .resumed then [(c, a.caller)] else []
  posts : (s.postsOf c).length ≤ if g.posted then 1 else 0

/-- Every call is at one stage. -/
structure Inv (s : Workers α) : Prop where
  absent : ∀ c, s.call c = none → Absent s c
  located : ∀ c a, s.call c = some a → ∃ g, Located s c a g

theorem fresh_inv : Inv (fresh : Workers α) where
  absent _ _ := ⟨fun _ _ _ _ => rfl, nofun, rfl, rfl, rfl, rfl⟩
  located _ _ h := by cases h

/-! ## The frame rule -/

/-- A step leaves the call `d` alone. -/
structure Same (s s' : Workers α) (d : Nat) : Prop where
  call : s'.call d = s.call d
  queue : ∀ q w i, i.call = d → (s'.queue q w).count i = (s.queue q w).count i
  thread : ∀ w, (s.thread w).call = some d ∨ (s'.thread w).call = some d → s'.thread w = s.thread w
  frame : s'.frame d = s.frame d
  invocations : s'.invocationsOf d = s.invocationsOf d
  resumes : s'.resumesOf d = s.resumesOf d
  posts : s'.postsOf d = s.postsOf d

theorem Same.refl (s : Workers α) (d : Nat) : Same s s d :=
  ⟨rfl, fun _ _ _ _ => rfl, fun _ _ => rfl, rfl, rfl, rfl, rfl⟩

variable {s : Workers α} {d : Nat}

theorem Same.trans {t u : Workers α} (h : Same s t d) (h' : Same t u d) : Same s u d where
  call := h'.call.trans h.call
  queue q w i hi := (h'.queue q w i hi).trans (h.queue q w i hi)
  thread w hw := by
    rcases hw with hw | hw
    · have ht := h.thread w (.inl hw)
      exact (h'.thread w (.inl (by rw [ht]; exact hw))).trans ht
    have hu := h'.thread w (.inr hw)
    exact hu.trans (h.thread w (.inr (by rw [← hu]; exact hw)))
  frame := h'.frame.trans h.frame
  invocations := h'.invocations.trans h.invocations
  resumes := h'.resumes.trans h.resumes
  posts := h'.posts.trans h.posts

variable {s' : Workers α}

theorem Absent.same (h : Absent s d) (hs : Same s s' d) : Absent s' d where
  slots q w i hi := (hs.queue q w i hi).trans (h.slots q w i hi)
  threads w hw := h.threads w (by rw [← hs.thread w (.inr hw)]; exact hw)
  frame := hs.frame.trans h.frame
  invocations := hs.invocations.trans h.invocations
  resumes := hs.resumes.trans h.resumes
  posts := hs.posts.trans h.posts

variable {c : Nat} {g : Stage} {t : Thread}

theorem call_of_thread (h : t ∈ g.thread c) : t.call = some c := by
  cases g <;> cases h <;> rfl

variable {a : Awaiter α}

theorem Located.same (h : Located s d a g) (hs : Same s s' d) : Located s' d a g where
  fields := h.fields
  slots q w i hi := (hs.queue q w i hi).trans (h.slots q w i hi)
  threads w hw := by
    have heq := hs.thread w (.inr hw)
    rw [heq] at hw ⊢
    exact h.threads w hw
  runs t ht := by
    have hrun := h.runs t ht
    rw [hs.thread a.target (.inl (by rw [hrun]; exact call_of_thread ht)), hrun]
  frame := hs.frame.trans h.frame
  invocations := hs.invocations.trans h.invocations
  resumes := hs.resumes.trans h.resumes
  posts := by rw [hs.posts]; exact h.posts

/-- **A step on one call**: the others are left alone. -/
theorem Inv.change (h : Inv s) (hsame : ∀ d ≠ c, Same s s' d)
    (hcall : s'.call c = some a) (hc : Located s' c a g) : Inv s' where
  absent d hd := by
    by_cases hdc : d = c
    · rw [hdc, hcall] at hd
      cases hd
    have hs := hsame d hdc
    exact (h.absent d (hs.call ▸ hd)).same hs
  located d b hd := by
    by_cases hdc : d = c
    · rw [hdc, hcall] at hd
      cases hd
      exact ⟨g, hdc ▸ hc⟩
    have hs := hsame d hdc
    obtain ⟨g', hg'⟩ := h.located d b (hs.call ▸ hd)
    exact ⟨g', hg'.same hs⟩

/-! ### The writes of a step -/

theorem same_setCall (hd : d ≠ c) (a : Awaiter α) : Same s (s.setCall c a) d :=
  { Same.refl s d with call := update_of_ne hd _ _ }

theorem same_setFrame (hd : d ≠ c) (f : Option (Nat × RunPc)) : Same s (s.setFrame c f) d :=
  { Same.refl s d with frame := update_of_ne hd _ _ }

theorem thread_setThread (s : Workers α) (w w' : Nat) (t : Thread) :
    (s.setThread w t).thread w' = if w' = w then t else s.thread w' :=
  update_apply _ _ _ _

variable {w : Nat}

theorem same_setThread (hold : (s.thread w).call ≠ some d)
    (hnew : t.call ≠ some d) : Same s (s.setThread w t) d :=
  { Same.refl s d with
    thread := by
      intro w' hw'
      change (s.thread w').call = some d ∨ ((s.setThread w t).thread w').call = some d at hw'
      rw [thread_setThread] at hw' ⊢
      by_cases hww : w' = w
      · rw [if_pos hww, hww] at hw'
        exact absurd hw' (not_or.mpr ⟨hold, hnew⟩)
      · rw [if_neg hww] }

theorem call_ne (hd : d ≠ c) (ht : t.call = none ∨ t.call = some c) : t.call ≠ some d := by
  rcases ht with ht | ht
  · rw [ht]
    simp
  rw [ht]
  exact fun h => hd (some.inj h).symm

/-- The thread that steps names no other call. -/
theorem same_turn {t' : Thread} (hd : d ≠ c) (hw : s.thread w = t)
    (ht : t.call = none ∨ t.call = some c) (ht' : t'.call = none ∨ t'.call = some c) :
    Same s (s.setThread w t') d :=
  same_setThread (hw ▸ call_ne hd ht) (call_ne hd ht')

theorem queue_setQueue (s : Workers α) (q q' : Queue) (w w' : Nat) (items : List Item) :
    (s.setQueue q w items).queue q' w' = if q' = q ∧ w' = w then items else s.queue q' w' := by
  by_cases hq : q' = q
  · subst hq
    by_cases hw : w' = w
    · subst hw
      simp [setQueue]
    · simp [setQueue, hw]
  · simp [setQueue, hq]

variable {q : Queue} {items : List Item}

theorem same_setQueue (h : ∀ i, i.call = d → items.count i = (s.queue q w).count i) :
    Same s (s.setQueue q w items) d :=
  { Same.refl s d with
    queue := by
      intro q' w' i hi
      rw [queue_setQueue]
      split
      · next heq =>
        rw [heq.1, heq.2]
        exact h i hi
      · rfl }

variable {i : Item}

theorem same_push (hi : i.call ≠ d) : Same s (s.push q w i) d := by
  refine same_setQueue fun j hj => ?_
  have hne : i ≠ j := by
    rintro rfl
    exact hi hj
  rw [count_append, List.count_singleton, if_neg (by simpa using hne), Nat.add_zero]

theorem same_invoke (hd : d ≠ c) : Same s (s.invoke w c) d :=
  { Same.refl s d with
    invocations := by
      show (s.invocations ++ [(c, w)]).filter _ = _
      rw [filter_append, List.filter_singleton]
      simp [Ne.symm hd, invocationsOf] }

theorem same_postReply (hd : d ≠ c) (poster : Poster) : Same s (s.postReply w c poster) d :=
  { same_push (s := s) (Ne.symm hd) with
    posts := by
      show (s.posts ++ [(c, poster)]).filter _ = _
      rw [filter_append, List.filter_singleton]
      simp [Ne.symm hd, postsOf] }

theorem same_start (hd : d ≠ c) (taskClass : TaskClass)
    (a : Awaiter α) : Same s (s.start w c taskClass a) d :=
  ((same_setCall hd _).trans (same_setFrame hd _)).trans (same_push (Ne.symm hd))

theorem same_awaitResume (hd : d ≠ c) (a : Awaiter α) (hw : s.thread w = t)
    (ht : t.call = none ∨ t.call = some c) : Same s (s.awaitResume w c a) d :=
  { (same_setCall hd { a with yielded := a.result }).trans
      (same_turn hd hw ht (.inl rfl)) with
    resumes := by
      show (s.resumes ++ [(c, w)]).filter _ = _
      rw [filter_append, List.filter_singleton]
      simp [Ne.symm hd, resumesOf] }

/-! ### The queues of the call itself -/

variable {slot : Option (Queue × Nat × Item)}

/-- A queued item of the call is the one its stage stands for. -/
theorem Slots.eq_of_mem (h : Slots s c slot) (hi : i.call = c)
    (hmem : i ∈ s.queue q w) : slot = some (q, w, i) := by
  have hcount := h q w i hi
  by_contra hne
  rw [if_neg hne] at hcount
  exact absurd hmem (count_eq_zero.mp hcount)

theorem Slots.mem (hi : i.call = c) (h : Slots s c (some (q, w, i))) : i ∈ s.queue q w := by
  have hcount := h q w i hi
  rw [if_pos rfl] at hcount
  exact count_pos_iff.mp (by omega)

theorem Slots.push (h : Slots s c none) : Slots (s.push q w i) c (some (q, w, i)) := by
  intro q' w' j hj
  have hcount := h q' w' j hj
  rw [if_neg (by simp)] at hcount
  rw [Workers.push, queue_setQueue]
  by_cases heq : q' = q ∧ w' = w
  · obtain ⟨rfl, rfl⟩ := heq
    rw [if_pos ⟨rfl, rfl⟩, count_append, hcount, List.count_singleton]
    simp
  rw [if_neg heq, hcount, if_neg]
  intro h
  cases h
  exact heq ⟨rfl, rfl⟩

/-- One entry leaves a queue. -/
def Takes (items rest : List Item) (i : Item) : Prop :=
  ∀ j, items.count j = rest.count j + if i = j then 1 else 0

variable {rest : List Item}

theorem takes_head (h : items = i :: rest) : Takes items rest i := by
  intro j
  rw [h, List.count_cons]
  simp

theorem takes_eraseIdx {k : Nat} (h : items[k]? = some i) : Takes items (items.eraseIdx k) i := by
  intro j
  obtain ⟨hlt, hget⟩ := List.getElem?_eq_some_iff.mp h
  have hperm := List.getElem_cons_eraseIdx_perm hlt
  rw [← hperm.count_eq j, List.count_cons, hget]
  simp

theorem Slots.take (h : Slots s c (some (q, w, i))) (htake : Takes (s.queue q w) rest i) :
    Slots (s.setQueue q w rest) c none := by
  intro q' w' j hj
  have hcount := h q' w' j hj
  rw [queue_setQueue]
  by_cases heq : q' = q ∧ w' = w
  · obtain ⟨rfl, rfl⟩ := heq
    have htaken := htake j
    rw [if_pos ⟨rfl, rfl⟩]
    by_cases hij : i = j
    · rw [if_pos hij] at htaken
      rw [if_pos (by rw [hij])] at hcount
      simp
      omega
    rw [if_neg hij] at htaken
    rw [if_neg (fun h => hij (by cases h; rfl))] at hcount
    simp
    omega
  · rw [if_neg heq, hcount, if_neg, if_neg (by simp)]
    intro h
    cases h
    exact heq ⟨rfl, rfl⟩

theorem same_take
    (htake : Takes (s.queue q w) rest i) (hi : i.call ≠ d) : Same s (s.setQueue q w rest) d := by
  refine same_setQueue fun j hj => ?_
  have hne : i ≠ j := by
    rintro rfl
    exact hi hj
  have htaken := htake j
  rw [if_neg hne, Nat.add_zero] at htaken
  exact htaken.symm

theorem Takes.mem (h : Takes items rest i) : i ∈ items := by
  have htaken := h i
  rw [if_pos rfl] at htaken
  exact count_pos_iff.mp (by omega)

/-! ## The steps -/

theorem Inv.same (h : Inv s) (hsame : ∀ d, Same s s' d) : Inv s' where
  absent d hd := (h.absent d ((hsame d).call ▸ hd)).same (hsame d)
  located d a hd := by
    obtain ⟨g, hg⟩ := h.located d a ((hsame d).call ▸ hd)
    exact ⟨g, hg.same (hsame d)⟩

/-- A stage at which no thread works on the call. -/
theorem Located.idle (h : Located s c a g)
    (hthread : g.thread c = none) (hspawned : ∀ taskClass, g ≠ .spawned taskClass) (w : Nat) :
    (s.thread w).call ≠ some c := by
  intro hw
  rcases (h.threads w hw).2 with hg | ⟨own, _, hg, _⟩
  · rw [hthread] at hg
    cases hg
  · exact hspawned own hg

/-- The target's thread takes up the call, moves on in it or leaves it. -/
theorem turn_located (hfields : Fields a g) (hslots : Slots s c (g.slot c a))
    (hold : ∀ w', (s.thread w').call = some c → w' = a.target)
    (ht : g.thread c = t.call.map fun _ => t) (hframe : s.frame c = g.frame a.target)
    (hinvocations : s.invocationsOf c = if g.invoked then [(c, a.target)] else [])
    (hresumes : s.resumesOf c = if g = .resumed then [(c, a.caller)] else [])
    (hposts : (s.postsOf c).length ≤ if g.posted then 1 else 0) :
    Located (s.setThread a.target t) c a g where
  fields := hfields
  slots := hslots
  threads w' hw' := by
    rw [thread_setThread] at hw' ⊢
    by_cases hww : w' = a.target
    · rw [if_pos hww] at hw' ⊢
      exact ⟨hww, .inl (by rw [ht, hw']; rfl)⟩
    rw [if_neg hww] at hw'
    exact absurd (hold w' hw') hww
  runs t' ht' := by
    rw [thread_setThread, if_pos rfl]
    obtain ⟨_, _, h⟩ := map_eq_some_iff.mp (ht.symm.trans ht')
    exact h
  frame := hframe
  invocations := hinvocations
  resumes := hresumes
  posts := hposts

theorem invocationsOf_first (h : s.invocationsOf c = []) (w : Nat) :
    (s.invoke w c).invocationsOf c = [(c, w)] := by
  show (s.invocations ++ [(c, w)]).filter _ = _
  rw [filter_append, List.filter_singleton, ← invocationsOf, h]
  simp

theorem postsOf_postReply (s : Workers α) (w c : Nat) (poster : Poster) :
    (s.postReply w c poster).postsOf c = s.postsOf c ++ [(c, poster)] := by
  show (s.posts ++ [(c, poster)]).filter _ = _
  rw [filter_append, List.filter_singleton]
  simp [postsOf]

theorem posts_le (h : s.postsOf c = []) (k : Nat) : (s.postsOf c).length ≤ k := by
  rw [h]
  exact Nat.zero_le k

theorem resumesOf_first (h : s.resumesOf c = []) (w : Nat)
    (a : Awaiter α) : (s.awaitResume w c a).resumesOf c = [(c, w)] := by
  show (s.resumes ++ [(c, w)]).filter _ = _
  rw [filter_append, List.filter_singleton, ← resumesOf, h]
  simp

theorem call_setCall (s : Workers α) (c : Nat) (a : Awaiter α) : (s.setCall c a).call c = some a :=
  update_self ..

theorem frame_setFrame (s : Workers α) (c : Nat) (f : Option (Nat × RunPc)) :
    (s.setFrame c f).frame c = f :=
  update_self ..

/-- After the step no thread works on the call. -/
theorem threads_clear
    (hold : ∀ w', (s.thread w').call = some c → w' = w) (ht : t.call ≠ some c) (w' : Nat) :
    ((s.setThread w t).thread w').call ≠ some c := by
  rw [thread_setThread]
  by_cases hww : w' = w
  · rw [if_pos hww]
    exact ht
  rw [if_neg hww]
  exact fun h => hww (hold w' h)

/-! ### Calls -/

/-- A call whose request has just been posted. -/
theorem request_inv (h : Inv s) (hthread : s.thread w = .user)
    (hnone : s.call c = none) (hfields : Fields a .requested) :
    Inv (((s.setCall c a).postRequest a.target c).setThread w .loop) := by
  have habs := h.absent c hnone
  refine h.change (fun d hd => ?_) (call_setCall s c a) (g := .requested) ?_
  · exact ((same_setCall hd a).trans (same_push (i := .work c) (Ne.symm hd))).trans
      (same_turn hd hthread (.inl rfl) (.inl rfl))
  · exact {
      fields := hfields
      slots := Slots.push habs.slots
      threads := fun w' hw' => absurd hw'
        (threads_clear (fun w' h => absurd h (habs.threads w')) (by rintro ⟨⟩) w')
      runs := nofun
      frame := habs.frame
      invocations := habs.invocations
      resumes := habs.resumes
      posts := posts_le habs.posts _ }

variable {taskClass : TaskClass}

/-- `Start` on the target: the frame of `Run` is in its ready queue. -/
theorem start_located
    (hfields : Fields { a with replyDeferred := true } (.spawned taskClass)) (hw : w = a.target)
    (hslots : Slots s c none) (hothers : ∀ w', (s.thread w').call = some c → w' = w)
    (ht : ∀ d, t.call = some d → ∃ other, t = .remote c other .check)
    (hinvocations : s.invocationsOf c = []) (hresumes : s.resumesOf c = [])
    (hposts : s.postsOf c = []) :
    Located ((s.start w c taskClass a).setThread w t) c { a with replyDeferred := true }
      (.spawned taskClass) where
  fields := hfields
  slots := by
    rw [← hw]
    exact Slots.push hslots
  threads w' hw' := by
    change ((s.setThread w t).thread w').call = some c at hw'
    rw [thread_setThread] at hw'
    by_cases hww : w' = w
    · rw [if_pos hww] at hw'
      obtain ⟨other, hother⟩ := ht c hw'
      refine ⟨hww.trans hw, .inr ⟨taskClass, other, rfl, ?_⟩⟩
      show (s.setThread w t).thread w' = _
      rw [thread_setThread, if_pos hww, hother]
    rw [if_neg hww] at hw'
    exact absurd (hothers w' hw') hww
  runs t ht := by cases ht
  frame := by
    show update s.frame c (some (w, .spawned)) c = some (a.target, .spawned)
    rw [update_self, hw]
  invocations := hinvocations
  resumes := hresumes
  posts := posts_le hposts _

section

variable (h : Inv s) (hthread : s.thread w = .user) (hnone : s.call c = none)
  (target : Nat) (taskClass : TaskClass)
include h hthread hnone

theorem submitTo_inv : Inv (s.submitTo w c target taskClass) := by
  have habs := h.absent c hnone
  unfold submitTo
  split
  · next hlocal =>
    subst hlocal
    refine h.change (fun d hd => ?_) (call_setCall s c _) (g := .inline)
      (turn_located (a := .make .submitTo target target) ?_ habs.slots
        (fun w' h => absurd h (habs.threads w')) rfl habs.frame
        (invocationsOf_first habs.invocations target) habs.resumes (posts_le habs.posts _))
    · exact ((same_setCall hd _).trans (same_invoke hd)).trans
        (same_turn hd hthread (.inl rfl) (.inr rfl))
    · exact ⟨absurd rfl, fun _ => rfl, nofun, nofun, rfl⟩
  · refine request_inv h hthread hnone ?_
    exact ⟨fun _ _ => ⟨rfl, rfl⟩, nofun, fun b hb => (by cases hb; rfl), nofun, rfl⟩

theorem submitTaskTo_inv : Inv (s.submitTaskTo w c target taskClass) := by
  have habs := h.absent c hnone
  unfold submitTaskTo
  split
  · next hlocal =>
    subst hlocal
    refine h.change (fun d hd => ?_) (call_setCall s c _) (start_located ?_ rfl habs.slots
      (fun w' h => absurd h (habs.threads w')) (nofun) habs.invocations
      habs.resumes habs.posts)
    · exact (same_start hd taskClass _).trans
        (same_turn hd hthread (.inl rfl) (.inl rfl))
    · exact ⟨fun _ _ => ⟨rfl, rfl⟩, nofun, fun b hb => (by cases hb; rfl), nofun, rfl⟩
  · refine request_inv h hthread hnone ?_
    exact ⟨fun _ _ => ⟨rfl, rfl⟩, nofun, fun b hb => (by cases hb; rfl), nofun, rfl⟩

end

/-! ### The transports -/

/-- The drain moves a pointer, or the waiter behind it, to a queue of the same worker. -/
theorem relay_inv (h : Inv s) {k : Stage}
    (hcall : s.call c = some a) (hloc : Located s c a g) {q' : Queue} {i' : Item}
    (htake : Takes (s.queue q w) rest i) (hi : i.call = c) (hi' : i'.call = c)
    (hslot' : k.slot c a = some (q', w, i')) (hfields : Fields a k)
    (hidle : g.thread c = none ∧ k.thread c = none ∧ ∀ taskClass, g ≠ .spawned taskClass)
    (hframe : k.frame a.target = g.frame a.target) (hinvoked : k.invoked = g.invoked)
    (hresumed : g ≠ .resumed ∧ k ≠ .resumed) (hposted : k.posted = g.posted) :
    Inv ((s.setQueue q w rest).push q' w i') := by
  have hslot : g.slot c a = some (q, w, i) := hloc.slots.eq_of_mem hi htake.mem
  refine h.change (fun d hd => ?_) hcall (g := k) ?_
  · exact (same_take htake (by rw [hi]; exact Ne.symm hd)).trans
      (same_push (by rw [hi']; exact Ne.symm hd))
  · exact {
      fields := hfields
      slots := by
        rw [hslot']
        exact Slots.push ((hslot ▸ hloc.slots).take htake)
      threads := fun w' hw' => absurd hw' (hloc.idle hidle.1 hidle.2.2 w')
      runs := fun t ht => by
        rw [hidle.2.1] at ht
        cases ht
      frame := by
        rw [hframe]
        exact hloc.frame
      invocations := by
        rw [hinvoked]
        exact hloc.invocations
      resumes := by
        rw [if_neg hresumed.2]
        exact hloc.resumes.trans (if_neg hresumed.1)
      posts := by
        rw [hposted]
        exact hloc.posts }

section

variable (h : Inv s) (hcall : s.call c = some a)
include h hcall

theorem scheduleRequest_inv (htake : Takes (s.queue .request w) rest (.work c)) :
    Inv ((s.setQueue .request w rest).scheduleRequest w c a) := by
  obtain ⟨g, hloc⟩ := h.located c a hcall
  have hslot := hloc.slots.eq_of_mem rfl htake.mem
  cases g <;> cases hslot
  refine relay_inv (k := .queued) h hcall hloc htake rfl rfl rfl ?_ ⟨rfl, rfl, by simp⟩ rfl rfl
    ⟨by simp, by simp⟩ rfl
  have hf := hloc.fields
  exact ⟨fun _ _ => hf.suspended (by simp) (by simp), nofun, hf.deferred, nofun, hf.yielded⟩

theorem scheduleReply_inv
    (htake : Takes (s.queue .reply w) rest (.work c)) (taskClass : TaskClass) :
    Inv ((s.setQueue .reply w rest).scheduleReply w c taskClass a) := by
  obtain ⟨g, hloc⟩ := h.located c a hcall
  have hslot := hloc.slots.eq_of_mem rfl htake.mem
  cases g <;> cases hslot
  have hf := hloc.fields
  rw [scheduleReply, if_pos (hf.suspended (by simp) (by simp)).2]
  refine relay_inv (k := .woken taskClass) h hcall hloc htake rfl rfl rfl ?_ ⟨rfl, rfl, by simp⟩ rfl
    rfl ⟨by simp, by simp⟩ rfl
  exact ⟨fun _ _ => hf.suspended (by simp) (by simp), nofun, hf.deferred, hf.written, hf.yielded⟩

/-! ### The target -/

/-- The stage of a call that the thread of `w` works on, the check of the flag apart. -/
theorem Inv.at_thread (hw : s.thread w = t)
    (ht : t.call = some c) (hcheck : ∀ taskClass, t ≠ .remote c taskClass .check) :
    w = a.target ∧ ∃ g, Located s c a g ∧ g.thread c = some t := by
  rw [← hw] at ht
  obtain ⟨g, hloc⟩ := h.located c a hcall
  obtain ⟨htarget, hg | ⟨_, other, _, hother⟩⟩ := hloc.threads w ht
  · exact ⟨htarget, g, hloc, hw ▸ hg⟩
  · exact absurd (hw.symm.trans hother) (hcheck other)

end

theorem Located.only (h : Located s c a g)
    (w : Nat) (hw : (s.thread w).call = some c) : w = a.target :=
  (h.threads w hw).1

theorem runRemoteWork_inv (h : Inv s) (hthread : s.thread w = .loop)
    (htake : Takes (s.queue (.remoteWork taskClass) w) rest (.work c)) :
    Inv ((s.setQueue (.remoteWork taskClass) w rest).setThread w (.remote c taskClass .runFn)) := by
  rcases hcall : s.call c with _ | a
  · have hmem := (h.absent c hcall).slots.eq_of_mem rfl htake.mem
    cases hmem
  obtain ⟨g, hloc⟩ := h.located c a hcall
  have hslot := hloc.slots.eq_of_mem rfl htake.mem
  cases g <;> cases hslot
  have hf := hloc.fields
  refine h.change (fun d hd => ?_) hcall (g := .runFn a.taskClass)
    (turn_located ?_ (hloc.slots.take htake) hloc.only rfl hloc.frame hloc.invocations
      hloc.resumes hloc.posts)
  · exact (same_take htake (Ne.symm hd)).trans
      (same_turn hd hthread (.inl rfl) (.inr rfl))
  · exact ⟨fun _ _ => hf.suspended (by simp) (by simp), nofun, hf.deferred, nofun, hf.yielded⟩

theorem runFn_inv (h : Inv s)
    (hthread : s.thread w = .remote c taskClass .runFn) (hcall : s.call c = some a) :
    Inv (s.runFn w c taskClass a) := by
  obtain ⟨rfl, g, hloc, hg⟩ := h.at_thread hcall hthread rfl (by simp)
  cases g <;> cases hg
  have hf := hloc.fields
  unfold runFn
  cases a.kind with
  | submitTo =>
    refine h.change (fun d hd => ?_) hcall (g := .inFn taskClass)
      (turn_located ?_ hloc.slots hloc.only rfl hloc.frame
        (invocationsOf_first hloc.invocations a.target) hloc.resumes hloc.posts)
    · exact (same_invoke hd).trans
        (same_turn hd hthread (.inr rfl) (.inr rfl))
    · exact ⟨fun _ _ => hf.suspended (by simp) (by simp), nofun, hf.deferred, nofun, hf.yielded⟩
  | submitTaskTo =>
    refine h.change (fun d hd => ?_) (call_setCall s c _) (start_located ?_ rfl hloc.slots hloc.only
      (fun d h => ⟨taskClass, rfl⟩) hloc.invocations hloc.resumes ?_)
    · exact (same_start hd taskClass _).trans
        (same_turn hd hthread (.inr rfl) (.inr rfl))
    · exact ⟨fun _ _ => hf.suspended (by simp) (by simp), nofun,
        fun b hb => (by cases hb; rfl), nofun, hf.yielded⟩
    · exact List.length_eq_zero_iff.mp (Nat.le_zero.mp hloc.posts)

theorem returnRemote_inv (h : Inv s)
    (hthread : s.thread w = .remote c taskClass .inFn) (hcall : s.call c = some a)
    (v : α) : Inv ((s.store c a v).setThread w (.remote c taskClass .check)) := by
  obtain ⟨rfl, g, hloc, hg⟩ := h.at_thread hcall hthread rfl (by simp)
  cases g <;> cases hg
  have hf := hloc.fields
  refine h.change (fun d hd => ?_) (call_setCall s c _) (g := .returned taskClass)
    (turn_located (a := { a with result := some v, returned := some v }) ?_ hloc.slots hloc.only rfl
      hloc.frame hloc.invocations hloc.resumes hloc.posts)
  · exact (same_setCall hd _).trans
      (same_turn hd hthread (.inr rfl) (.inr rfl))
  · exact ⟨fun _ _ => hf.suspended (by simp) (by simp), nofun, hf.deferred,
      fun _ => ⟨v, rfl, rfl⟩, hf.yielded⟩

/-- A reply is posted to the caller's worker, by the thread that has the call. -/
theorem postReply_located (hloc : Located s c a g) (hw : w = a.target) (hslot : g.slot c a = none)
    (hwritten : g.written = true) (hposted : g.posted = false) (hinvoked : g.invoked = true)
    (poster : Poster) {frame : Nat → Option (Nat × RunPc)} (hframe : frame c = none) :
    Located { (s.postReply a.origin c poster).setThread w .loop with frame := frame } c a
      .replied := by
  have hne : g ≠ .inline ∧ g ≠ .resumed := by
    constructor
    · rintro rfl
      cases hwritten
    · rintro rfl
      cases hposted
  have hf := hloc.fields
  have hposts := hloc.posts
  rw [hposted] at hposts
  exact {
    fields := ⟨fun _ _ => hf.suspended hne.1 hne.2, nofun, nofun,
      fun _ => hf.written hwritten, by rw [hf.yielded, if_neg hne.2]; rfl⟩
    slots := by
      rw [(hf.suspended hne.1 hne.2).1]
      exact Slots.push (hslot ▸ hloc.slots)
    threads := fun w' hw' => absurd hw'
      (threads_clear (fun w' h => (hloc.only w' h).trans hw.symm) (by rintro ⟨⟩) w')
    runs := nofun
    frame := hframe
    invocations := by
      refine hloc.invocations.trans ?_
      rw [hinvoked]
      rfl
    resumes := hloc.resumes.trans (by rw [if_neg hne.2]; rfl)
    posts := by
      show ((s.postReply a.origin c poster).postsOf c).length ≤ 1
      rw [postsOf_postReply, length_append, List.length_singleton]
      simpa using hposts }

section

variable (h : Inv s)
include h

theorem finishRemoteWork_inv (hthread : s.thread w = .remote c taskClass .check)
    (hcall : s.call c = some a) : Inv (s.finishRemoteWork w c a) := by
  have hcalls : (s.thread w).call = some c := by rw [hthread]; rfl
  obtain ⟨g, hloc⟩ := h.located c a hcall
  obtain ⟨rfl, hg | ⟨own, other, rfl, _⟩⟩ := hloc.threads w hcalls
  · -- the user function of a `SubmitTo` has returned
    rw [hthread] at hg
    cases g <;> cases hg
    rw [finishRemoteWork, if_pos (hloc.fields.deferred false rfl)]
    refine h.change (fun d hd => ?_) hcall (postReply_located hloc rfl rfl rfl rfl rfl _ ?_)
    · exact (same_postReply hd _).trans
        (same_turn hd hthread (.inr rfl) (.inl rfl))
    · exact hloc.frame
  -- `Run` has been spawned, and will post the reply
  have hdeferred : a.replyDeferred = true := hloc.fields.deferred true rfl
  rw [finishRemoteWork, if_neg (by simp [hdeferred])]
  refine h.change (fun d hd => ?_) hcall
    (turn_located hloc.fields hloc.slots hloc.only rfl hloc.frame hloc.invocations hloc.resumes
      hloc.posts)
  exact same_turn hd hthread (.inr rfl) (.inl rfl)

/-! ### The coroutine `Run` -/

theorem resumeRun_inv (hthread : s.thread w = .loop)
    (htake : Takes (s.queue (.ready taskClass) w) rest (.run c)) :
    Inv ((s.setQueue (.ready taskClass) w rest).setThread w (.start c)) := by
  rcases hcall : s.call c with _ | a
  · have hmem := (h.absent c hcall).slots.eq_of_mem rfl htake.mem
    cases hmem
  obtain ⟨g, hloc⟩ := h.located c a hcall
  have hslot := hloc.slots.eq_of_mem rfl htake.mem
  cases g <;> cases hslot
  have hf := hloc.fields
  refine h.change (fun d hd => ?_) hcall (g := .started)
    (turn_located ?_ (hloc.slots.take htake) hloc.only rfl hloc.frame hloc.invocations
      hloc.resumes hloc.posts)
  · exact (same_take htake (Ne.symm hd)).trans
      (same_turn hd hthread (.inl rfl) (.inr rfl))
  · exact ⟨fun _ _ => hf.suspended (by simp) (by simp), nofun, nofun, nofun, hf.yielded⟩

theorem invokeTask_inv (hthread : s.thread w = .start c) :
    Inv (((s.invoke w c).setFrame c (some (w, .awaiting))).setThread w .user) := by
  have hcalls : (s.thread w).call = some c := by rw [hthread]; rfl
  rcases hcall : s.call c with _ | a
  · exact absurd hcalls ((h.absent c hcall).threads w)
  obtain ⟨rfl, g, hloc, hg⟩ := h.at_thread hcall hthread rfl (by simp)
  cases g <;> cases hg
  have hf := hloc.fields
  refine h.change (fun d hd => ?_) hcall (g := .awaiting)
    (turn_located ?_ hloc.slots hloc.only rfl (frame_setFrame (s.invoke a.target c) c _)
      (invocationsOf_first hloc.invocations a.target) hloc.resumes hloc.posts)
  · exact ((same_invoke hd).trans (same_setFrame hd _)).trans
      (same_turn hd hthread (.inr rfl) (.inl rfl))
  · exact ⟨fun _ _ => hf.suspended (by simp) (by simp), nofun, nofun, nofun, hf.yielded⟩

theorem completeTask_inv (hthread : s.thread w = .user)
    (hframe : s.frame c = some (w, .awaiting)) (hcall : s.call c = some a) (v : α) :
    Inv (((s.store c a v).setFrame c (some (w, .replying))).setThread w (.reply c)) := by
  obtain ⟨g, hloc⟩ := h.located c a hcall
  obtain ⟨rfl, rfl⟩ : g = .awaiting ∧ w = a.target := by
    have hg := hloc.frame.symm.trans hframe
    cases g <;> cases hg
    exact ⟨rfl, rfl⟩
  have hf := hloc.fields
  refine h.change (fun d hd => ?_) (call_setCall s c _) (g := .replying)
    (turn_located (a := { a with result := some v, returned := some v }) ?_ hloc.slots hloc.only rfl
      (frame_setFrame s c _) hloc.invocations hloc.resumes hloc.posts)
  · exact ((same_setCall hd _).trans (same_setFrame hd _)).trans
      (same_turn hd hthread (.inl rfl) (.inr rfl))
  · exact ⟨fun _ _ => hf.suspended (by simp) (by simp), nofun,
      nofun, fun _ => ⟨v, rfl, rfl⟩, hf.yielded⟩

theorem replyTask_inv (hthread : s.thread w = .reply c) (hcall : s.call c = some a) :
    Inv (((s.postReply a.origin c .run).setFrame c none).setThread w .loop) := by
  obtain ⟨rfl, g, hloc, hg⟩ := h.at_thread hcall hthread rfl (by simp)
  cases g <;> cases hg
  refine h.change (fun d hd => ?_) hcall
    (postReply_located hloc rfl rfl rfl rfl rfl _ (frame_setFrame s c none))
  exact ((same_postReply hd _).trans (same_setFrame hd _)).trans
    (same_turn hd hthread (.inr rfl) (.inl rfl))

/-! ### The caller -/

theorem resumeWaiter_inv (hthread : s.thread w = .loop)
    (htake : Takes (s.queue (.ready taskClass) w) rest (.waiter c))
    (hcall : s.call c = some a) :
    Inv ((s.setQueue (.ready taskClass) w rest).awaitResume w c a) := by
  obtain ⟨g, hloc⟩ := h.located c a hcall
  have hslot := hloc.slots.eq_of_mem rfl htake.mem
  cases g <;> cases hslot
  have hf := hloc.fields
  have hidle := hloc.idle rfl (by simp)
  refine h.change (fun d hd => ?_) (call_setCall s c _) (g := .resumed) ?_
  · exact (same_take htake (Ne.symm hd)).trans (same_awaitResume hd a hthread (.inl rfl))
  · exact {
      fields := ⟨fun _ h => absurd rfl h, nofun, nofun, hf.written, rfl⟩
      slots := hloc.slots.take htake
      threads := fun w' hw' => absurd hw'
        (threads_clear (fun w' h => absurd h (hidle w')) (by rintro ⟨⟩) w')
      runs := nofun
      frame := hloc.frame
      invocations := hloc.invocations
      resumes := resumesOf_first hloc.resumes _ a
      posts := hloc.posts }

theorem returnInline_inv (hthread : s.thread w = .inline c) (hcall : s.call c = some a) (v : α) :
    Inv ((s.store c a v).awaitResume w c { a with result := some v, returned := some v }) := by
  obtain ⟨rfl, g, hloc, hg⟩ := h.at_thread hcall hthread rfl (by simp)
  cases g <;> cases hg
  have hf := hloc.fields
  refine h.change (fun d hd => ?_) (call_setCall (s.store c a v) c _) (g := .resumed) ?_
  · exact (same_setCall hd _).trans (same_awaitResume hd _ hthread (.inr rfl))
  · exact {
      fields := ⟨fun _ h => absurd rfl h, nofun, nofun, fun _ => ⟨v, rfl, rfl⟩, rfl⟩
      slots := hloc.slots
      threads := fun w' hw' => absurd hw' (threads_clear hloc.only (by rintro ⟨⟩) w')
      runs := nofun
      frame := hloc.frame
      invocations := hloc.invocations
      resumes := by
        refine (resumesOf_first (s := s.store c a v) hloc.resumes _ _).trans ?_
        rw [← hf.inline rfl]
        rfl
      posts := Nat.le_trans hloc.posts (Nat.zero_le 1) }

end

/-- **One step keeps the invariant.** -/
theorem step_inv {l : Label α} (h : Inv s) (hs : s.step l = some s') : Inv s' := by
  cases l with
  | resumeOther | suspend =>
    refine of_guard hs fun hthread => ?_
    exact h.same fun d => same_setThread (by rw [hthread]; rintro ⟨⟩) (by rintro ⟨⟩)
  | submitTo w c target taskClass =>
    refine of_guard hs fun ⟨hthread, hnone⟩ => ?_
    exact submitTo_inv h hthread hnone target taskClass
  | submitTaskTo w c target taskClass =>
    refine of_guard hs fun ⟨hthread, hnone⟩ => ?_
    exact submitTaskTo_inv h hthread hnone target taskClass
  | scheduleRequest w i =>
    obtain ⟨_, hs⟩ := ite_none_right_eq_some.mp hs
    split at hs
    · next c hget =>
      obtain ⟨a, hcall, rfl⟩ := map_eq_some_iff.mp hs
      exact scheduleRequest_inv h hcall (takes_eraseIdx hget)
    · cases hs
  | scheduleReply w i taskClass =>
    obtain ⟨_, hs⟩ := ite_none_right_eq_some.mp hs
    split at hs
    · next c hget =>
      obtain ⟨a, hcall, rfl⟩ := map_eq_some_iff.mp hs
      exact scheduleReply_inv h hcall (takes_eraseIdx hget) taskClass
    · cases hs
  | runRemoteWork w taskClass =>
    obtain ⟨hthread, hs⟩ := ite_none_right_eq_some.mp hs
    split at hs
    · next c rest hqueue =>
      cases hs
      exact runRemoteWork_inv h hthread (takes_head hqueue)
    · cases hs
  | runFn w =>
    simp only [step] at hs
    split at hs
    · next c taskClass hthread =>
      obtain ⟨a, hcall, rfl⟩ := map_eq_some_iff.mp hs
      exact runFn_inv h hthread hcall
    · cases hs
  | returnFn w v =>
    simp only [step] at hs
    split at hs
    · next c taskClass hthread =>
      obtain ⟨a, hcall, rfl⟩ := map_eq_some_iff.mp hs
      exact returnRemote_inv h hthread hcall v
    · next c hthread =>
      obtain ⟨a, hcall, rfl⟩ := map_eq_some_iff.mp hs
      exact returnInline_inv h hthread hcall v
    · cases hs
  | finishRemoteWork w =>
    simp only [step] at hs
    split at hs
    · next c taskClass hthread =>
      obtain ⟨a, hcall, rfl⟩ := map_eq_some_iff.mp hs
      exact finishRemoteWork_inv h hthread hcall
    · cases hs
  | resumeReady w taskClass =>
    obtain ⟨hthread, hs⟩ := ite_none_right_eq_some.mp hs
    split at hs
    · next c rest hqueue =>
      obtain ⟨a, hcall, rfl⟩ := map_eq_some_iff.mp hs
      exact resumeWaiter_inv h hthread (takes_head hqueue) hcall
    · next c rest hqueue =>
      cases hs
      exact resumeRun_inv h hthread (takes_head hqueue)
    · cases hs
  | invokeTask w =>
    simp only [step] at hs
    split at hs
    · next c hthread =>
      cases hs
      exact invokeTask_inv h hthread
    · cases hs
  | completeTask w c v =>
    obtain ⟨⟨hthread, hframe⟩, hs⟩ := ite_none_right_eq_some.mp hs
    obtain ⟨a, hcall, rfl⟩ := map_eq_some_iff.mp hs
    exact completeTask_inv h hthread hframe hcall v
  | replyTask w =>
    simp only [step] at hs
    split at hs
    · next c hthread =>
      obtain ⟨a, hcall, rfl⟩ := map_eq_some_iff.mp hs
      exact replyTask_inv h hthread hcall
    · cases hs

theorem reachable_inv (h : (system α).Reachable s) : Inv s :=
  Reachable.invariant (P := Inv) (fun _ hs => hs ▸ fresh_inv)
    (fun _ _ _ hs hstep => step_inv hs hstep) h

/-! ## Round trips -/

theorem place_of_thread (h : g.thread c = some t) : g.place = .running := by
  cases g <;> cases h <;> rfl

theorem place_of_frame {target : Nat} {f : Nat × RunPc}
    (h : g.frame target = some f) : g.place = .running := by
  cases g <;> cases h <;> rfl

/-- A located call is at its stage's place, and at no other. -/
theorem Located.at_iff (h : Located s c a g)
    (hcall : s.call c = some a) (p : Place) : s.At c p ↔ p = g.place := by
  have hslot : ∀ q w i, i.call = c → (i ∈ s.queue q w ↔ g.slot c a = some (q, w, i)) := by
    intro q w i hi
    constructor
    · exact h.slots.eq_of_mem hi
    · intro heq
      exact Slots.mem hi (heq ▸ h.slots)
  have hthread : (s.thread a.target).call = some c ∨ (∃ pc, s.frame c = some (a.target, pc)) ↔
      g.place = .running := by
    rw [h.frame]
    constructor
    · rintro (hw | ⟨pc, hpc⟩)
      · rcases (h.threads _ hw).2 with hg | ⟨own, _, rfl, _⟩
        · exact place_of_thread hg
        · rfl
      · exact place_of_frame hpc
    · intro hp
      cases g with
      | runFn _ | inFn _ | returned _ | inline => exact .inl (by rw [h.runs _ rfl]; rfl)
      | spawned _ | started | awaiting | replying => exact .inr ⟨_, rfl⟩
      | requested | queued | replied | woken _ | resumed => cases hp
  have hresumed : (∃ w, (c, w) ∈ s.resumes) ↔ g = .resumed := by
    have hmem : ∀ w, (c, w) ∈ s.resumes ↔ (c, w) ∈ s.resumesOf c := by
      intro w
      simp [resumesOf]
    simp only [hmem, h.resumes]
    by_cases hg : g = .resumed <;> simp [hg]
  cases p with
  | notStarted =>
    rw [At, hcall]
    cases g <;> simp [Stage.place]
  | requestInTransit | remoteWork | replyInTransit =>
    simp only [At, hcall, Option.some.injEq, exists_eq_left', hslot _ _ (.work c) rfl]
    cases g <;> simp [Stage.place, Stage.slot]
  | running =>
    simp only [At, hcall, Option.some.injEq, exists_eq_left', hthread]
    exact eq_comm
  | waiterReady =>
    simp only [At, hcall, Option.some.injEq, exists_eq_left', hslot _ _ (.waiter c) rfl]
    cases g <;> simp [Stage.place, Stage.slot]
  | resumed =>
    rw [At, hresumed]
    cases g <;> simp [Stage.place]

/-- A call that was never started is nowhere else. -/
theorem Absent.at_iff (h : Absent s c) (hcall : s.call c = none)
    (p : Place) : s.At c p ↔ p = .notStarted := by
  cases p with
  | notStarted => exact iff_of_true hcall rfl
  | resumed =>
    refine iff_of_false ?_ (by simp)
    rintro ⟨w, hw⟩
    have hmem : (c, w) ∈ s.resumesOf c := mem_filter.mpr ⟨hw, by simp⟩
    rw [h.resumes] at hmem
    cases hmem
  | requestInTransit | remoteWork | running | replyInTransit | waiterReady =>
    exact iff_of_false (by simp [At, hcall]) (by simp)

/-- At most one queue entry names the call. -/
def Sole (s : Workers α) (c : Nat) : Prop :=
  ∀ q w i, i.call = c → i ∈ s.queue q w → (s.queue q w).count i = 1 ∧
    ∀ q' w' i', i'.call = c → i' ∈ s.queue q' w' → q' = q ∧ w' = w ∧ i' = i

theorem Slots.sole (h : Slots s c slot) : s.Sole c := by
  intro q w i hi hmem
  have hslot := h.eq_of_mem hi hmem
  refine ⟨?_, ?_⟩
  · rw [h q w i hi, if_pos hslot]
  · intro q' w' i' hi' hmem'
    have heq := hslot.symm.trans (h.eq_of_mem hi' hmem')
    cases heq
    exact ⟨rfl, rfl, rfl⟩

/-- What holds of a started call. -/
structure RoundTrip (s : Workers α) (c : Nat) (a : Awaiter α) : Prop where
  /-- The user function is invoked on the target, and once. -/
  invokedOn : ∀ w, (c, w) ∈ s.invocations → w = a.target
  invokedOnce : (s.invocationsOf c).length ≤ 1
  /-- The caller is resumed on its own worker, and once. -/
  resumedOn : ∀ w, (c, w) ∈ s.resumes → w = a.caller
  resumedOnce : (s.resumesOf c).length ≤ 1
  /-- A resumed caller has got what its function, invoked by then, returned. -/
  result : ∀ w, (c, w) ∈ s.resumes → (s.invocationsOf c).length = 1 ∧
    ∃ v, a.returned = some v ∧ a.result = some v ∧ a.yielded = some v
  /-- No call has two replies. -/
  repliedOnce : (s.postsOf c).length ≤ 1

theorem Located.roundTrip (h : Located s c a g) : RoundTrip s c a := by
  have hinvoked : ∀ w, (c, w) ∈ s.invocations ↔ (c, w) ∈ s.invocationsOf c := by
    intro w
    simp [invocationsOf]
  have hresumed : ∀ w, (c, w) ∈ s.resumes ↔ (c, w) ∈ s.resumesOf c := by
    intro w
    simp [resumesOf]
  refine ⟨?_, ?_, ?_, ?_, ?_, ?_⟩
  · intro w hw
    rw [hinvoked, h.invocations] at hw
    split at hw
    · exact (Prod.mk.inj (mem_singleton.mp hw)).2
    · cases hw
  · rw [h.invocations]
    split <;> simp
  · intro w hw
    rw [hresumed, h.resumes] at hw
    split at hw
    · exact (Prod.mk.inj (mem_singleton.mp hw)).2
    · cases hw
  · rw [h.resumes]
    split <;> simp
  · intro w hw
    rw [hresumed, h.resumes] at hw
    split at hw
    · next hg =>
      subst hg
      obtain ⟨v, hresult, hreturned⟩ := h.fields.written rfl
      refine ⟨by rw [h.invocations]; rfl, v, hreturned, hresult, ?_⟩
      rw [h.fields.yielded, if_pos rfl, hresult]
    · cases hw
  · refine Nat.le_trans h.posts ?_
    split <;> simp

/-- A coroutine on `w` makes the call `c`. -/
def submission (w c target : Nat) (taskClass : TaskClass) : SubmitKind → Label α
  | .submitTo => .submitTo w c target taskClass
  | .submitTaskTo => .submitTaskTo w c target taskClass

/-- What a submission leaves: the call is known, and its request is on the way to the target.  On
    the caller's own worker it runs at once: the function of a `SubmitTo` is invoked inline. -/
structure Submitted (s : Workers α) (kind : SubmitKind) (w c target : Nat) : Prop where
  call : ∃ a, s.call c = some a ∧ a.kind = kind ∧ a.target = target ∧ a.caller = w
  place : s.At c (if target = w then .running else .requestInTransit)
  inline : kind = .submitTo → target = w → s.thread w = .inline c ∧ (c, w) ∈ s.invocations

theorem submitTo_submitted (w c target : Nat) (taskClass : TaskClass) :
    (s.submitTo w c target taskClass).Submitted .submitTo w c target := by
  by_cases htarget : target = w
  · subst htarget
    rw [submitTo, if_pos rfl]
    refine ⟨⟨_, update_self .., rfl, rfl, rfl⟩, ?_, fun _ _ => ⟨update_self .., ?_⟩⟩
    · rw [if_pos rfl]
      have hthread : update s.thread target (.inline c) target = .inline c := update_self ..
      exact ⟨_, update_self .., .inl (congrArg Thread.call hthread)⟩
    · exact List.mem_append_right _ (List.mem_singleton_self _)
  · rw [submitTo, if_neg htarget]
    refine ⟨⟨_, update_self .., rfl, rfl, rfl⟩, ?_, fun _ heq => absurd heq htarget⟩
    rw [if_neg htarget]
    refine ⟨_, update_self .., ?_⟩
    simp [postRequest, push, setQueue, setThread, setCall, Awaiter.suspend, Awaiter.make]

theorem submitTaskTo_submitted (w c target : Nat) (taskClass : TaskClass) :
    (s.submitTaskTo w c target taskClass).Submitted .submitTaskTo w c target := by
  by_cases htarget : target = w
  · subst htarget
    rw [submitTaskTo, if_pos rfl]
    refine ⟨⟨_, update_self .., rfl, rfl, rfl⟩, ?_, nofun⟩
    rw [if_pos rfl]
    exact ⟨_, update_self .., .inr ⟨_, update_self ..⟩⟩
  · rw [submitTaskTo, if_neg htarget]
    refine ⟨⟨_, update_self .., rfl, rfl, rfl⟩, ?_, nofun⟩
    rw [if_neg htarget]
    refine ⟨_, update_self .., ?_⟩
    simp [postRequest, push, setQueue, setThread, setCall, Awaiter.suspend, Awaiter.make]

/-- A coroutine may make a new call at any time, of either kind and to any worker. -/
theorem step_submission {w c : Nat} (hthread : s.thread w = .user) (hcall : s.call c = none)
    (kind : SubmitKind) (target : Nat) (taskClass : TaskClass) :
    ∃ s', (system α).step s (submission w c target taskClass kind) = some s' ∧
      s'.Submitted kind w c target := by
  cases kind with
  | submitTo => exact ⟨_, if_pos ⟨hthread, hcall⟩, submitTo_submitted w c target taskClass⟩
  | submitTaskTo => exact ⟨_, if_pos ⟨hthread, hcall⟩, submitTaskTo_submitted w c target taskClass⟩

/-- **Every call is a round trip**: in every reachable state it is at exactly one place, named by at
    most one queue entry, and what has happened to it is part of one round trip.  A call that is not
    started begins with a submission, which sends it on its way or runs it. -/
theorem reachable_roundTrip {s : Workers α} (h : (system α).Reachable s) (c : Nat) :
    (∃! p, s.At c p) ∧ s.Sole c ∧ (∀ a, s.call c = some a → RoundTrip s c a) ∧
      ∀ w, s.thread w = .user → s.call c = none → ∀ kind target taskClass,
        ∃ s', (system α).step s (submission w c target taskClass kind) = some s' ∧
          s'.Submitted kind w c target := by
  have hinv := reachable_inv h
  rcases hcall : s.call c with _ | a
  · have habs := hinv.absent c hcall
    exact ⟨⟨.notStarted, (habs.at_iff hcall _).mpr rfl, fun p hp => (habs.at_iff hcall p).mp hp⟩,
      habs.slots.sole, nofun, fun _ hthread _ => step_submission hthread hcall⟩
  obtain ⟨g, hloc⟩ := hinv.located c a hcall
  refine ⟨⟨g.place, (hloc.at_iff hcall _).mpr rfl, fun p hp => (hloc.at_iff hcall p).mp hp⟩,
    hloc.slots.sole, fun b hb => ?_, fun _ _ hnone => ?_⟩
  · cases hb
    exact hloc.roundTrip
  · cases hnone

/-- A coroutine on worker 0 awaits `SubmitTaskTo(1, fn)`, whose Task returns 7; then
    `SubmitTo(1, fn)` with 8, and `SubmitTo(0, fn)` with 9 on its own worker. -/
def threeCalls : List (Label Nat) :=
  [.resumeOther 0, .submitTaskTo 0 0 1 .background,
    .scheduleRequest 1 0, .runRemoteWork 1 .background, .runFn 1, .finishRemoteWork 1,
    .resumeReady 1 .background, .invokeTask 1, .suspend 1, .resumeOther 1, .completeTask 1 0 7,
    .replyTask 1, .scheduleReply 0 0 .background, .resumeReady 0 .background,
    .submitTo 0 1 1 .foreground, .scheduleRequest 1 0, .runRemoteWork 1 .foreground, .runFn 1,
    .returnFn 1 8, .finishRemoteWork 1, .scheduleReply 0 0 .foreground, .resumeReady 0 .foreground,
    .submitTo 0 2 0 .foreground, .returnFn 0 9]

theorem roundTrip_threeCalls : ∃ s, (system Nat).run fresh threeCalls = some s ∧
    s.resumes = [(0, 0), (1, 0), (2, 0)] ∧ s.invocations = [(0, 1), (1, 1), (2, 0)] ∧
    (s.call 1).bind Awaiter.yielded = some 8 ∧
      RoundTrip s 1 ((s.call 1).getD (.make .submitTo 0 0)) ∧
    (∃! p, s.At 2 p) := by
  obtain ⟨s, hrun, hs⟩ : ∃ s, (system Nat).run fresh threeCalls = some s ∧
      s.resumes = [(0, 0), (1, 0), (2, 0)] ∧ s.invocations = [(0, 1), (1, 1), (2, 0)] ∧
      (s.call 1).bind Awaiter.yielded = some 8 := ⟨_, rfl, by decide +kernel⟩
  have hreach : (system Nat).Reachable s := .run (.init rfl) threeCalls hrun
  obtain ⟨a, ha, -⟩ := Option.bind_eq_some_iff.mp hs.2.2
  refine ⟨s, hrun, hs.1, hs.2.1, hs.2.2, ?_, (reachable_roundTrip hreach 2).1⟩
  rw [ha]
  exact (reachable_roundTrip hreach 1).2.2.1 a ha

end Workers

end Bycorf.Runtime
