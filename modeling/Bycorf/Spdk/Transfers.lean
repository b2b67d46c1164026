/-
  What an SPDK request transfers: the sectors of the two submission paths.

  1. **Asynchronous** — a request of `SubmitIo` may be issued at once or wait in the queue of its
     channel, and be issued by `RetryDeferred` for the file that is open then.  In every run each
     command that the driver holds has exactly the sectors that its caller asked for (`Ranges`).
  2. **Synchronous** — `SubmitSync` computes the same sectors, but casts their number to `uint32_t`
     WITHOUT a check.
  3. **Result** — `transfers_range`: the asynchronous path is exact; the synchronous one is exact as
     long as the request has fewer than 2³² sectors.
-/
import Bycorf.Spdk.Completed

namespace Bycorf.Spdk

open Lib Function

/-! ## Bytes and sectors -/

/-- The sectors are the bytes of the request. -/
def Denotes (device : Device) (bytes offset lba count : Nat) : Prop :=
  lba * 2 ^ device.sectorShift = offset ∧ count * 2 ^ device.sectorShift = bytes

/-- The request is made of sectors of the device. -/
def OnDevice (device : Device) (bytes offset : Nat) : Prop :=
  2 ^ device.sectorShift ∣ offset ∧ 2 ^ device.sectorShift ∣ bytes ∧
    offset + bytes ≤ device.sizeBytes

variable {device : Device} {bytes offset lba count : Nat}

theorem aligned_iff (k : Nat) : (offset ||| bytes) &&& (2 ^ k - 1) = 0 ↔
    2 ^ k ∣ offset ∧ 2 ^ k ∣ bytes := by
  rw [Nat.and_two_pow_sub_one_eq_mod, Nat.or_mod_two_pow, Nat.or_eq_zero_iff,
    Nat.dvd_iff_mod_eq_zero, Nat.dvd_iff_mod_eq_zero]

theorem validRange_iff : Backend.validRange device bytes offset ↔ OnDevice device bytes offset ∧
    bytes ≤ 2147483647 ∧ bytes >>> device.sectorShift ≤ 4294967295 := by
  rw [Backend.validRange, aligned_iff, OnDevice]
  omega

theorem OnDevice.denotes (h : OnDevice device bytes offset) :
    Denotes device bytes offset (offset >>> device.sectorShift) (bytes >>> device.sectorShift) := by
  rw [Denotes, Nat.shiftRight_eq_div_pow, Nat.shiftRight_eq_div_pow]
  exact ⟨Nat.div_mul_cancel h.1, Nat.div_mul_cancel h.2.1⟩

/-- The number of sectors survives its cast if and only if it fits: only then is it exact. -/
theorem OnDevice.denotes_cast_iff (h : OnDevice device bytes offset) :
    Denotes device bytes offset (offset >>> device.sectorShift)
      ((bytes >>> device.sectorShift) % 2 ^ 32) ↔ bytes >>> device.sectorShift < 2 ^ 32 := by
  refine ⟨fun hexact => ?_, fun hfew => ?_⟩
  · have heq := Nat.eq_of_mul_eq_mul_right (Nat.two_pow_pos _) (hexact.2.trans h.denotes.2.symm)
    rw [← heq]
    exact Nat.mod_lt _ (Nat.two_pow_pos 32)
  · rw [Nat.mod_eq_of_lt hfew]
    exact h.denotes

/-! ## The asynchronous path -/

/-- A request carries out what was asked for.  A flush has no bytes; a read or a write has some, all
    of them on the device, and its sectors are exactly these bytes. -/
structure PendingIo.Carries (hw : Hardware) (r : PendingIo) (t : Transfer) : Prop where
  operation : r.operation = t.operation
  buffer : r.buffer = t.buffer
  range : t.operation ≠ .flush → 0 < t.bytes ∧ t.bytes < 2 ^ 31 ∧
    OnDevice (hw.device t.device) t.bytes t.offset ∧
    Denotes (hw.device t.device) t.bytes t.offset r.lba r.count

theorem PendingIo.Formed.carries {hw : Hardware} {r : PendingIo} (h : r.Formed hw) :
    r.Carries hw r.asked := by
  obtain ⟨hr, hchecked⟩ := h
  have hoperation : r.operation = r.asked.operation := congrArg PendingIo.operation hr
  refine ⟨hoperation, congrArg PendingIo.buffer hr, fun hne => ?_⟩
  obtain ⟨hpos, hvalid⟩ := hchecked (hoperation ▸ hne)
  obtain ⟨hon, hbytes, hcount⟩ := validRange_iff.mp hvalid
  refine ⟨Nat.pos_of_ne_zero hpos, Nat.lt_succ_of_le hbytes, hon, ?_⟩
  rw [congrArg PendingIo.lba hr, congrArg PendingIo.count hr]
  exact hon.denotes_cast_iff.mpr (Nat.lt_succ_of_le hcount)

namespace Backend

variable {hw : Hardware} {s s' : Backend} {label : Label}

/-- What the callers of the asynchronous path may rely on.  Every command that was issued, and every
    request that waits to be, carries out what its caller asked for, on the device of its file; what
    was asked for is fixed when the request is accepted; and what is not a range of sectors of the
    device of an open file is refused, without a trace. -/
structure Ranges (hw : Hardware) (s : Backend) : Prop where
  issued : ∀ c ∈ s.inFlight, c.request.Carries hw (s.asked c.id) ∧ c.ns = (s.asked c.id).device
  waiting : ∀ channel ∈ s.channels, ∀ r ∈ channel.pending, r.Carries hw (s.asked r.id)
  accepted : ∀ file buffer bytes offset write tag answer s',
    s.submitIo hw file buffer bytes offset write tag answer = (true, s') →
    ∃ opened, s.files file = some opened ∧ s'.successResult tag = bytes ∧ s'.asked s.nextId =
      ⟨opened.device, if write then .write else .read, buffer, offset, bytes⟩
  kept : ∀ label s', s.step hw label = some s' → ∀ id < s.nextId, s'.asked id = s.asked id
  refused : ∀ file buffer bytes offset write tag answer,
    (∀ opened, s.files file = some opened →
      bytes = 0 ∨ ¬OnDevice (hw.device opened.device) bytes offset) →
    s.submitIo hw file buffer bytes offset write tag answer = (false, s)

/-- A step of `Poll` accepts nothing. -/
theorem advance_asked (hstep : s.advance label = some s') : s'.asked = s.asked := by
  have hround : ∀ (t : Backend) (p : Pass), (t.nextRound p).asked = t.asked := by
    intro t p
    rw [nextRound]
    split <;> rfl
  cases label with
  | openFile | closeFile | io | flush => cases hstep
  | poll | deliver =>
    rw [advance] at hstep
    split at hstep <;> cases hstep <;> rfl
  | visit =>
    rw [advance] at hstep
    split at hstep
    · rw [visit] at hstep
      split at hstep
      · split at hstep
        · cases hstep
          rfl
        · split at hstep <;> cases hstep
          rfl
      · cases hstep
        rfl
    · cases hstep
  | callback =>
    rw [advance] at hstep
    split at hstep
    · rw [completeAsync] at hstep
      split at hstep
      · cases hstep
      · exact of_guard hstep fun _ => rfl
    · cases hstep
  | processed =>
    rw [advance] at hstep
    split at hstep
    · rw [processed] at hstep
      split at hstep
      · cases hstep
        rfl
      split at hstep
      · cases hstep
      split at hstep <;> cases hstep
      · exact hround _ _
      · rfl
    · cases hstep
  | retry =>
    rw [advance] at hstep
    split at hstep
    · rw [retryDeferred] at hstep
      split at hstep
      · cases hstep
      dsimp only at hstep
      split at hstep
      · cases hstep
        exact hround _ _
      split at hstep
      · cases hstep
        exact hround _ _
      split at hstep
      · cases hstep
      split at hstep
      · cases hstep
        exact hround _ _
      split at hstep <;> cases hstep <;> rfl
    · cases hstep
  | checked =>
    rw [advance] at hstep
    split at hstep
    · cases hstep
      rw [retryChecked]
      split
      · exact hround _ _
      · rfl
    · cases hstep

theorem step_asked (hstep : s.step hw label = some s') {id : Nat} (hid : id < s.nextId) :
    s'.asked id = s.asked id := by
  rw [step] at hstep
  split at hstep
  · rename_i answer hsubmit
    obtain ⟨-, heq⟩ := ite_none_right_eq_some.mp hstep
    cases heq
    have hanswered := submit_answered hsubmit
    cases hok : answer.1 with
    | true =>
      obtain ⟨-, t, -, hasked⟩ := hanswered.accepted hok
      rw [hasked, update_of_ne (Nat.ne_of_lt hid)]
    | false => rw [hanswered.refused hok]
  · rw [advance_asked hstep]

theorem submitIo_refused {file bytes offset : Nat} (hbad : ∀ opened, s.files file = some opened →
      bytes = 0 ∨ ¬OnDevice (hw.device opened.device) bytes offset)
    (buffer : Nat) (write : Bool) (tag : Nat) (answer : Answer) :
    s.submitIo hw file buffer bytes offset write tag answer = (false, s) := by
  rw [submitIo]
  split
  · rfl
  rename_i opened hfile
  refine if_neg fun hvalid => ?_
  exact (hbad opened hfile).elim hvalid.1 fun hoff => hoff (validRange_iff.mp hvalid.2).1

/-- A request that is issued or deferred is written down as it was asked for. -/
theorem submitOrDefer_accepted {r : PendingIo} {ns index : Nat} {answer : Answer}
    (h : s.submitOrDefer r ns index answer = (true, s')) :
    s'.successResult = s.successResult ∧ s'.asked = update s.asked s.nextId r.asked := by
  have hqueue : ∀ c, s.queuePending r index c answer.alloc = (true, s') →
      s'.successResult = s.successResult ∧ s'.asked = update s.asked s.nextId r.asked := by
    intro c hq
    rw [queuePending] at hq
    split at hq <;> cases hq
    exact ⟨rfl, rfl⟩
  rw [submitOrDefer] at h
  split at h
  · cases h
  split at h
  · exact hqueue _ h
  split at h
  · cases h
    exact ⟨rfl, rfl⟩
  · split at h
    · exact hqueue _ h
    · cases h
  · cases h

theorem submitIo_accepted {file buffer tag : Nat} {write : Bool} {answer : Answer}
    (h : s.submitIo hw file buffer bytes offset write tag answer = (true, s')) :
    ∃ opened, s.files file = some opened ∧ s'.successResult tag = bytes ∧ s'.asked s.nextId =
      ⟨opened.device, if write then .write else .read, buffer, offset, bytes⟩ := by
  rw [submitIo] at h
  split at h
  · cases h
  rename_i opened hfile
  split at h
  · rename_i hvalid
    obtain ⟨hresult, hasked⟩ := submitOrDefer_accepted h
    have hle : bytes ≤ 2147483647 := hvalid.2.1
    refine ⟨opened, hfile, ?_, ?_⟩
    · rw [hresult]
      exact (update_self tag (toInt bytes) s.successResult).trans (toInt_of_le hle)
    · rw [hasked]
      exact update_self ..
  · cases h

/-- In every run, whatever the tags are. -/
theorem reachable_ranges (hs : (backendSystem hw).Reachable s) : s.Ranges hw := by
  have hinv : s.TableInv hw ∧ s.Requests hw False := by
    refine Reachable.invariant (P := fun s => s.TableInv hw ∧ s.Requests hw False) ?_ ?_ hs
    · rintro s rfl
      exact ⟨tableInv_fresh hw, requests_fresh⟩
    · rintro s label s' ⟨ht, h⟩ hstep
      exact ⟨step_tableInv ht hstep, step_requests h ht False.elim hstep⟩
  refine ⟨fun c hc => ?_, fun channel hchannel r hr => ?_, fun _ _ _ _ _ _ _ _ => submitIo_accepted,
    fun _ _ hstep _ hid => step_asked hstep hid,
    fun _ buffer _ _ write tag answer hbad => submitIo_refused hbad buffer write tag answer⟩
  · obtain ⟨hformed, hasked, hns⟩ := hinv.2.issued c hc
    rw [hasked]
    exact ⟨hformed.carries, hns⟩
  · have hdeferred : r ∈ s.deferred := by
      rw [deferred_eq]
      exact List.mem_flatMap.mpr ⟨channel, hchannel, hr⟩
    obtain ⟨hformed, hasked⟩ := hinv.2.formed r hdeferred
    rw [hasked]
    exact hformed.carries

/-! ## The synchronous path -/

/-- The checks and the command of `SubmitSync`: its first sector, and how many. -/
def syncCommand (device : Device) (bytes offset : Nat) : Option (Nat × Nat) :=
  if bytes = 0 then none
  else if (offset ||| bytes) &&& (2 ^ device.sectorShift - 1) ≠ 0 ∨ device.sizeBytes < offset ∨
      device.sizeBytes - offset < bytes then none
  else some (offset >>> device.sectorShift, (bytes >>> device.sectorShift) % 2 ^ 32)

theorem syncCommand_iff : syncCommand device bytes offset = some (lba, count) ↔
    bytes ≠ 0 ∧ OnDevice device bytes offset ∧ lba = offset >>> device.sectorShift ∧
      count = (bytes >>> device.sectorShift) % 2 ^ 32 := by
  unfold syncCommand
  split
  · simp_all
  have hchecks : ¬((offset ||| bytes) &&& (2 ^ device.sectorShift - 1) ≠ 0 ∨
      device.sizeBytes < offset ∨ device.sizeBytes - offset < bytes) ↔
      OnDevice device bytes offset := by
    rw [not_or, not_not, aligned_iff, OnDevice]
    omega
  grind

/-- **What is transferred.**  On the asynchronous path it is what was asked for, in every run.  The
    synchronous path issues nothing but ranges of sectors of the device, and its command denotes the
    request if and only if the request has fewer than 2³² sectors. -/
theorem transfers_range {hw : Hardware} {s : Backend} (hs : (backendSystem hw).Reachable s) :
    s.Ranges hw ∧ ∀ (device : Device) (bytes offset : Nat),
      (bytes = 0 ∨ ¬OnDevice device bytes offset → syncCommand device bytes offset = none) ∧
      ∀ lba count, syncCommand device bytes offset = some (lba, count) →
        OnDevice device bytes offset ∧
          (Denotes device bytes offset lba count ↔ bytes >>> device.sectorShift < 2 ^ 32) := by
  refine ⟨reachable_ranges hs, fun device bytes offset => ⟨fun hbad => ?_, ?_⟩⟩
  · refine Option.eq_none_iff_forall_ne_some.mpr fun (lba, count) hcommand => ?_
    obtain ⟨hne, hon, _⟩ := syncCommand_iff.mp hcommand
    exact hbad.elim hne fun hoff => hoff hon
  · intro lba count hcommand
    obtain ⟨_, hon, rfl, rfl⟩ := syncCommand_iff.mp hcommand
    exact ⟨hon, hon.denotes_cast_iff⟩

/-- 2 TiB at once, on a device of 4 TiB with sectors of 512 bytes: the count is cut to 0. -/
theorem syncCommand_truncates : syncCommand ⟨0, 9, 2 ^ 42⟩ (2 ^ 41) 0 = some (0, 0) ∧
    ¬ Denotes ⟨0, 9, 2 ^ 42⟩ (2 ^ 41) 0 0 0 := by
  constructor
  · decide +kernel
  · rintro ⟨_, hbytes⟩
    exact absurd hbytes (by decide)

/-- The second read of two waits until the first is completed, and is issued then. -/
def retriedRead : List Label :=
  [.openFile 0 0 true 10, .io 0 1 512 0 false 11 ⟨.ok, false, true⟩,
    .io 0 1 1024 512 false 12 ⟨.noMemory, true, true⟩, .poll 0, .deliver, .deliver, .visit,
    .callback 0 false, .processed 1, .retry .ok false]

/-- The deferred read comes to the driver with its two sectors, from the second on; and the same
    bytes are read by the synchronous path. -/
theorem transfers_range_sector :
    ∃ s, (backendSystem twoControllers).run .fresh retriedRead = some s ∧
      s.inFlight.map (fun c => (c.request.lba, c.request.count)) = [(1, 2)] ∧
      s.Ranges twoControllers ∧ syncCommand ⟨0, 9, 4096⟩ 1024 512 = some (1, 2) ∧
      Denotes ⟨0, 9, 4096⟩ 1024 512 1 2 := by
  have hrun : ∀ s, (backendSystem twoControllers).run .fresh retriedRead = some s → _ :=
    fun s h => transfers_range (.run (.init rfl) retriedRead h)
  refine ⟨_, rfl, rfl, (hrun _ rfl).1, by decide, ?_⟩
  exact (((hrun _ rfl).2 ⟨0, 9, 4096⟩ 1024 512).2 1 2 (by decide)).2.mpr (by decide)

end Backend

end Bycorf.Spdk
