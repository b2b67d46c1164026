/-
  Labelled transition systems with an executable step, their runs, and the two proof rules the
  development uses: a step behind a guard has its one result (`of_guard`), and an invariant that
  every step preserves holds in every reachable state.

  A run may be RESTRICTED: `ReachableUnder ok` follows only the steps whose label satisfies `ok` in
  the state they start from, so that an assumption on a run is a predicate on its steps.
-/
import Mathlib.Logic.Function.Basic

namespace Bycorf.Lib

-- what proofs about steps and runs use all the time
export List (append_assoc append_nil count_append count_eq_zero count_pos_iff filterMap_append
  filter_append flatten_cons foldl_cons getElem?_eq_some_iff length_append length_cons length_drop
  map_append map_cons mem_append mem_append_left mem_append_right mem_cons mem_cons_of_mem
  mem_cons_self mem_filter mem_map mem_of_getElem? mem_range mem_singleton nil_append nodup_append
  nodup_cons nodup_nil not_mem_nil take_append_drop)
export Option (bind_eq_some_iff bind_some isSome_iff_exists ite_none_left_eq_some
  ite_none_right_eq_some map_eq_some_iff some.inj)
export Bool (and_eq_true eq_false_iff false_ne_true not_eq_true)
export Function (update_of_ne update_self)

/-- A transition system: initial states, and a partial step function of the label. -/
structure System (σ α : Type) where
  init : σ → Prop
  step : σ → α → Option σ

/-- What a guarded step leads to has what the guard gives its result. -/
@[elab_as_elim] theorem of_guard {σ : Type} {P : Prop} [Decidable P] {x y : σ} {Q : σ → Prop}
    (h : (if P then some x else none) = some y) (hx : P → Q x) : Q y := by
  obtain ⟨hguard, heq⟩ := Option.ite_none_right_eq_some.mp h
  cases heq
  exact hx hguard

namespace System

variable {σ α : Type}

/-- The states reached by steps that all satisfy `ok`. -/
inductive ReachableUnder (S : System σ α) (ok : σ → α → Prop) : σ → Prop where
  | init {s : σ} : S.init s → ReachableUnder S ok s
  | step {s s' : σ} {a : α} :
      ReachableUnder S ok s → ok s a → S.step s a = some s' → ReachableUnder S ok s'

/-- The states reached by any steps. -/
def Reachable (S : System σ α) : σ → Prop := S.ReachableUnder fun _ _ => True

/-- Run a list of labels. -/
def run (S : System σ α) : σ → List α → Option σ
  | s, [] => some s
  | s, a :: labels => (S.step s a).bind fun s' => S.run s' labels

/-- A run of the labels makes only steps that satisfy `ok`. -/
def Follows (S : System σ α) (ok : σ → α → Prop) : σ → List α → Prop
  | _, [] => True
  | s, a :: labels => ok s a ∧ ∀ s' ∈ S.step s a, Follows S ok s' labels

variable {S : System σ α} {ok : σ → α → Prop}

instance decidableFollows [∀ s a, Decidable (ok s a)] :
    ∀ (labels : List α) (s : σ), Decidable (S.Follows ok s labels)
  | [], _ => isTrue trivial
  | a :: labels, s =>
    have : ∀ s', Decidable (S.Follows ok s' labels) := decidableFollows labels
    inferInstanceAs (Decidable (ok s a ∧ ∀ s' ∈ S.step s a, S.Follows ok s' labels))

variable {s s' : σ}

theorem Reachable.step {a : α} (h : S.Reachable s) (hs : S.step s a = some s') : S.Reachable s' :=
  ReachableUnder.step h trivial hs

theorem ReachableUnder.run (h : S.ReachableUnder ok s) (labels : List α)
    (hok : S.Follows ok s labels) (hr : S.run s labels = some s') : S.ReachableUnder ok s' := by
  induction labels generalizing s with
  | nil =>
    cases hr
    exact h
  | cons a labels ih =>
    rw [System.run] at hr
    obtain ⟨t, ht, hrest⟩ := Option.bind_eq_some_iff.mp hr
    exact ih (.step h hok.1 ht) (hok.2 t ht) hrest

variable {P : σ → Prop}

/-- **The invariant rule**, for restricted runs. -/
theorem ReachableUnder.invariant (hinit : ∀ s, S.init s → P s)
    (hstep : ∀ s a s', P s → ok s a → S.step s a = some s' → P s') {s : σ}
    (h : S.ReachableUnder ok s) : P s := by
  induction h with
  | init h => exact hinit _ h
  | step _ hok hs ih => exact hstep _ _ _ ih hok hs

/-- **The invariant rule.** -/
theorem Reachable.invariant (hinit : ∀ s, S.init s → P s)
    (hstep : ∀ s a s', P s → S.step s a = some s' → P s') {s : σ} (h : S.Reachable s) : P s :=
  ReachableUnder.invariant hinit (fun s a s' hP _ hs => hstep s a s' hP hs) h

/-- What every step keeps, a run keeps. -/
theorem run_invariant (hstep : ∀ s a s', P s → S.step s a = some s' → P s')
    (labels : List α) {s t : σ} (hs : P s) (hrun : S.run s labels = some t) : P t := by
  induction labels generalizing s with
  | nil =>
    cases hrun
    exact hs
  | cons a labels ih =>
    obtain ⟨s', hs', hrest⟩ := Option.bind_eq_some_iff.mp hrun
    exact ih (hstep s a s' hs hs') hrest

theorem Reachable.run (h : S.Reachable s) (labels : List α)
    (hr : S.run s labels = some s') : S.Reachable s' :=
  run_invariant (fun _ _ _ h hs => h.step hs) labels h hr

section Ends

variable {s₀ : σ} {P Q : σ → Prop}

/-- The end of a run is reachable. -/
theorem exists_reachable (s₀ : σ) (labels : List α) (h₀ : S.init s₀)
    (h : ∃ s ∈ S.run s₀ labels, P s) : ∃ s, S.Reachable s ∧ P s := by
  obtain ⟨s, hs, hend⟩ := h
  exact ⟨s, Reachable.run (.init h₀) labels hs, hend⟩

variable {labels : List α}

theorem exists_end (h : ∃ s ∈ S.run s₀ labels, P s) : ∃ s, S.run s₀ labels = some s ∧ P s := h

variable (h₀ : S.init s₀) (hQ : ∀ {s}, S.Reachable s → Q s)

include h₀ hQ

/-- A run whose end is computed has what holds in every reachable state. -/
theorem exists_run (h : ∃ s ∈ S.run s₀ labels, P s) :
    ∃ s, S.run s₀ labels = some s ∧ P s ∧ Q s := by
  obtain ⟨s, hs, hend⟩ := h
  exact ⟨s, hs, hend, hQ (Reachable.run (.init h₀) labels hs)⟩

end Ends

/-- A run that succeeds succeeds up to every one of its labels. -/
theorem run_take {labels : List α} (hrun : (S.run s labels).isSome = true) (n : Nat) :
    ∃ t, S.run s (labels.take n) = some t := by
  induction labels generalizing s n with
  | nil => exact ⟨s, by rw [List.take_nil]; rfl⟩
  | cons a labels ih =>
    obtain ⟨u, hu⟩ := Option.isSome_iff_exists.mp hrun
    obtain ⟨s', hs', hrest⟩ := Option.bind_eq_some_iff.mp hu
    cases n with
    | zero => exact ⟨s, rfl⟩
    | succ n =>
      rw [List.take_succ_cons, System.run, hs', Option.bind_some]
      exact ih (by rw [hrest]; rfl) n

/-- What every step keeps of the labels so far and the state, a run keeps. -/
theorem run_history {Q : List α → σ → Prop}
    (hstep : ∀ past s a s', Q past s → S.step s a = some s' → Q (past ++ [a]) s')
    (labels : List α) {past : List α} {s t : σ} (hs : Q past s)
    (hrun : S.run s labels = some t) : Q (past ++ labels) t := by
  induction labels generalizing past s with
  | nil =>
    cases hrun
    rwa [List.append_nil]
  | cons a labels ih =>
    obtain ⟨s', hs', hrest⟩ := Option.bind_eq_some_iff.mp hrun
    have hnext := ih (hstep past s a s' hs hs') hrest
    rwa [List.append_assoc] at hnext

/-- **When the invariant holds all along a run**: if each step keeps `P` exactly when it satisfies
    `ok`, then `P` holds in every state of a run exactly when all its steps satisfy `ok`. -/
theorem always_iff
    (hstep : ∀ s a s', P s → S.step s a = some s' → (P s' ↔ ok s a)) (labels : List α) {s : σ}
    (hs : P s) (hrun : (S.run s labels).isSome = true) :
    (∀ n t, S.run s (labels.take n) = some t → P t) ↔
      ∀ n t a, S.run s (labels.take n) = some t → labels[n]? = some a → ok t a := by
  induction labels generalizing s with
  | nil =>
    constructor
    · intro _ n t a _ ha
      cases ha
    · intro _ n t ht
      rw [List.take_nil] at ht
      cases ht
      exact hs
  | cons a labels ih =>
    obtain ⟨u, hu⟩ := Option.isSome_iff_exists.mp hrun
    obtain ⟨s', hs', hrest⟩ := Option.bind_eq_some_iff.mp hu
    have htail : ∀ n t, S.run s ((a :: labels).take (n + 1)) = some t ↔
        S.run s' (labels.take n) = some t := by
      intro n t
      rw [List.take_succ_cons, System.run, hs', Option.bind_some]
    have hsome : (S.run s' labels).isSome = true := by rw [hrest]; rfl
    constructor
    · intro hall n t b ht hb
      have hP : P s' := hall 1 s' ((htail 0 s').mpr rfl)
      cases n with
      | zero =>
        cases ht
        cases hb
        exact (hstep s a s' hs hs').mp hP
      | succ n =>
        refine (ih hP hsome).mp (fun n t ht => hall (n + 1) t ((htail n t).mpr ht)) n t b ?_ hb
        exact (htail n t).mp ht
    · intro hall n t ht
      have hP : P s' := (hstep s a s' hs hs').mpr (hall 0 s a rfl rfl)
      cases n with
      | zero =>
        cases ht
        exact hs
      | succ n =>
        refine (ih hP hsome).mpr (fun n t b ht hb => ?_) n t ((htail n t).mp ht)
        exact hall (n + 1) t b ((htail n t).mpr ht) hb

/-- **What a run loses it has lost at one of its steps**: if, under an invariant, `P` holds after a
    step exactly when it held before and the step satisfies `ok`, then it holds at the end of a run
    exactly when it held at the start and all steps satisfy `ok`. -/
theorem run_iff_follows {I P : σ → Prop} (hI : ∀ s a s', I s → S.step s a = some s' → I s')
    (hstep : ∀ s a s', I s → S.step s a = some s' → (P s' ↔ P s ∧ ok s a)) (labels : List α)
    {s t : σ} (hs : I s) (hrun : S.run s labels = some t) : P t ↔ P s ∧ S.Follows ok s labels := by
  induction labels generalizing s with
  | nil =>
    cases hrun
    exact ⟨fun h => ⟨h, trivial⟩, fun h => h.1⟩
  | cons a labels ih =>
    obtain ⟨s', hs', hrest⟩ := Option.bind_eq_some_iff.mp hrun
    rw [ih (hI s a s' hs hs') hrest, hstep s a s' hs hs', and_assoc]
    have htail : S.Follows ok s (a :: labels) ↔ ok s a ∧ S.Follows ok s' labels := by
      constructor
      · intro h
        exact ⟨h.1, h.2 s' hs'⟩
      · rintro ⟨hok, hfollows⟩
        refine ⟨hok, fun u hu => ?_⟩
        rw [hs'] at hu
        cases hu
        exact hfollows
    rw [htail]

end System

export System (Reachable.invariant Reachable.run exists_end exists_reachable exists_run)

end Bycorf.Lib
