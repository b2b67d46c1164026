/-
  `SpdkBackend` in every run: its requests are accounted, ordered and completed exactly once.

  Every step of the backend is one of the updates of `Spdk/Requests.lean` (`step_requests`), if the
  caller does its part (`Respects`); so the account holds in every reachable state, and
  `reachable_completions` reads off what callers see of it.
-/
import Mathlib.Algebra.GroupWithZero.Nat
import Bycorf.Spdk.Requests

namespace Bycorf.Spdk

open Lib Function

namespace Backend

variable {hw : Hardware} {tagged : Prop} {s s' : Backend}

/-! ## Every step -/

theorem keys_eq (s : Backend) : s.keys = s.entries.map Entry.qpair := by
  rw [keys, rows, entries, List.map_map, List.map_map]
  rfl

theorem TableInv.keys_nodup (h : s.TableInv hw) : s.keys.Nodup := by
  rw [keys_eq]
  exact (nodup_append.mp (h.qpairs.nodup_iff.mpr List.nodup_range)).1

theorem TableInv.nextQpair_not_mem (h : s.TableInv hw) : s.nextQpair ∉ s.keys := by
  intro hmem
  rw [keys_eq] at hmem
  have hrange := h.qpairs.mem_iff.mp (mem_append_left s.freed hmem)
  exact Nat.lt_irrefl _ (mem_range.mp hrange)

/-- The channel of an open file has the queue pair of the file. -/
theorem TableInv.file_channel (h : s.TableInv hw) {file : Nat} {opened : OpenFile}
    (hfile : s.files file = some opened) {c : Channel}
    (hc : s.channels[opened.channelIndex]? = some c) :
    ∃ o, s.files file = some o ∧ o.qpair = c.qpair ∧ o.device = opened.device := by
  obtain ⟨-, e, hentry, -, hqpair⟩ := h.table.file file opened hfile
  rw [getElem?_entries hc] at hentry
  cases hentry
  exact ⟨opened, hfile, hqpair.symm, rfl⟩

/-- A size that fits an `int` is kept by the cast. -/
theorem toInt_of_le {bytes : Nat} (h : bytes ≤ 2147483647) : toInt bytes = bytes := by
  refine Int.bmod_eq_of_le (n := (bytes : Int)) ?_ ?_ <;> omega

section

variable (h : s.Requests hw tagged) (ht : s.TableInv hw)
include h ht

theorem Requests.openNew {file device controller : Nat}
    (hclosed : s.files file = none) : (s.openNew file device controller).Requests hw tagged := by
  have hpushed := h.pushChannel ht.nextQpair_not_mem controller
  have hlast : (s.pushChannel controller).channels[s.channels.length]? =
      some ⟨⟨controller, s.nextQpair, 0⟩, []⟩ := List.getElem?_concat_length
  exact hpushed.openOn hclosed hlast

theorem Requests.submitIo {tag : Nat} (hfree : tagged → s.TagFree tag)
    (file buffer bytes offset : Nat) (write : Bool) (answer : Answer) :
    (s.submitIo hw file buffer bytes offset write tag answer).2.Requests hw tagged := by
  rw [Backend.submitIo]
  rcases hfile : s.files file with _ | opened
  · exact h
  dsimp only
  split
  · rename_i hvalid
    refine (h.setSuccess hfree (toInt bytes)).submitOrDefer ht.keys_nodup answer rfl ?_ ⟨rfl, ?_⟩ ?_
    · have hle : bytes ≤ 2147483647 := hvalid.2.1
      exact (update_self tag (toInt bytes) s.successResult).trans (toInt_of_le hle)
    · exact fun _ => hvalid
    · intro c hc
      exact ht.file_channel hfile hc
  · exact h

theorem Requests.submitFdatasync {tag : Nat}
    (hfree : tagged → s.TagFree tag) (file : Nat) (answer : Answer) :
    (s.submitFdatasync hw file tag answer).2.Requests hw tagged := by
  rw [Backend.submitFdatasync]
  rcases hfile : s.files file with _ | opened
  · exact h
  dsimp only
  split
  · refine (h.setSuccess hfree 0).submitOrDefer ht.keys_nodup answer rfl ?_ ⟨?_, ?_⟩ ?_
    · exact update_self ..
    · simp [pendingIo]
    · exact fun hflush => absurd rfl hflush
    · intro c hc
      exact ht.file_channel hfile hc
  · exact (h.setSuccess hfree 0).synthesize tag

end

theorem Requests.nextRound (h : s.Requests hw tagged) (htaken : s.pc.taken = []) (p : Pass) :
    (s.nextRound p).Requests hw tagged := by
  rw [Backend.nextRound]
  split <;> exact h.control htaken (by rfl)

theorem Requests.record (h : s.Requests hw tagged) (held index : Nat) :
    (s.record held index).Requests hw tagged :=
  { h with }

theorem Submission.result_neg {rc : Submission} (hrc : rc ≠ .ok) : rc.result < 0 := by
  cases rc with
  | ok => exact absurd rfl hrc
  | noMemory => decide
  | failed errno pos =>
    show -(errno : Int) < 0
    omega

theorem Requests.retryDeferred (h : s.Requests hw tagged) (ht : s.TableInv hw)
    (htaken : s.pc.taken = [])
    {p : Pass} {index generation submitted : Nat} {rc : Submission} {busy : Bool}
    (hstep : s.retryDeferred p index generation submitted rc busy = some s') :
    s'.Requests hw tagged := by
  rw [Backend.retryDeferred] at hstep
  rcases hc : s.channels[index]? with _ | c
  · rw [hc] at hstep
    cases hstep
  rw [hc] at hstep
  dsimp only at hstep
  split at hstep
  · cases hstep
    exact (h.record _ _).nextRound htaken p
  rename_i r rest hp
  split at hstep
  · cases hstep
    exact (h.record _ _).nextRound htaken p
  split at hstep
  · cases hstep
  rename_i opened ho
  split at hstep
  · cases hstep
    exact (h.record _ _).nextRound htaken p
  split at hstep
  · cases hstep
    exact (h.retryIssue ht.keys_nodup hc hp ho).control htaken (by rfl)
  rename_i hrc
  cases hstep
  have hneg := Submission.result_neg hrc
  exact (h.retryFail ht.keys_nodup hc hp hneg).control htaken (by rfl)

variable {label : Label}

/-- A step of `Poll` keeps the account of the requests. -/
theorem Requests.advance (h : s.Requests hw tagged) (ht : s.TableInv hw)
    (hstep : s.advance label = some s') : s'.Requests hw tagged := by
  cases label with
  | openFile | closeFile | io | flush => cases hstep
  | poll maxCompletions =>
    rw [Backend.advance] at hstep
    split at hstep
    · rename_i hpc
      cases hstep
      exact h.beginPoll hpc maxCompletions
    · cases hstep
  | deliver =>
    rw [Backend.advance] at hstep
    split at hstep
    · rename_i hpc
      cases hstep
      exact h.control (by rw [hpc]; rfl) (by rfl)
    · rename_i hpc
      cases hstep
      exact h.deliver hpc
    · cases hstep
  | visit =>
    rw [Backend.advance] at hstep
    split at hstep
    · rename_i p hpc
      have htaken : s.pc.taken = [] := by rw [hpc]; rfl
      rw [Backend.visit] at hstep
      split at hstep
      · split at hstep
        · cases hstep
          exact h.control htaken (by rfl)
        · split at hstep
          · cases hstep
          · cases hstep
            exact h.control htaken (by rfl)
      cases hstep
      exact h.control htaken (by rfl)
    · cases hstep
  | callback position error =>
    rw [Backend.advance] at hstep
    split at hstep
    · rw [Backend.completeAsync] at hstep
      split at hstep
      · cases hstep
      rename_i command hcommand
      refine of_guard hstep fun _ => ?_
      exact h.completeAsync error hcommand
    · cases hstep
  | processed completed =>
    rw [Backend.advance] at hstep
    split at hstep
    · rename_i p index qpair hpc
      have htaken : s.pc.taken = [] := by rw [hpc]; rfl
      rw [Backend.processed] at hstep
      split at hstep
      · cases hstep
        exact h.control htaken (by rfl)
      split at hstep
      · cases hstep
      split at hstep
      · cases hstep
        exact (h.record _ _).nextRound htaken _
      cases hstep
      exact h.control htaken (by rfl)
    · cases hstep
  | retry rc busy =>
    rw [Backend.advance] at hstep
    split at hstep
    · rename_i p index generation submitted hpc
      exact h.retryDeferred ht (by rw [hpc]; rfl) hstep
    · cases hstep
  | checked =>
    rw [Backend.advance] at hstep
    split at hstep
    · rename_i p index generation submitted hpc
      have htaken : s.pc.taken = [] := by rw [hpc]; rfl
      cases hstep
      rw [retryChecked]
      split
      · exact h.nextRound htaken p
      · exact h.control htaken (by rfl)
    · cases hstep

end Backend

/-- The tag that a submission is given. -/
def Label.tag : Label → Option Nat
  | .openFile _ _ _ tag => some tag
  | .closeFile _ tag => some tag
  | .io _ _ _ _ _ tag _ => some tag
  | .flush _ tag _ => some tag
  | _ => none

/-- The bytes that a submission asks for. -/
def Label.bytes : Label → Nat
  | .io _ _ bytes _ _ _ _ => bytes
  | _ => 0

namespace Backend

variable {hw : Hardware} {tagged : Prop} {s s' : Backend}

/-- The caller's part: a tag has at most one unfinished operation. -/
def Respects (s : Backend) (label : Label) : Prop := ∀ tag, label.tag = some tag → s.TagFree tag

instance (s : Backend) (label : Label) : Decidable (s.Respects label) :=
  match h : label.tag with
  | none => isTrue fun tag htag => by rw [h] at htag; cases htag
  | some tag =>
    decidable_of_iff (s.TagFree tag)
      ⟨fun hfree tag' htag => by rw [h] at htag; cases htag; exact hfree, fun hall => hall tag h⟩

theorem step_requests (h : s.Requests hw tagged) (ht : s.TableInv hw)
    (hok : tagged → s.Respects label) (hstep : s.step hw label = some s') :
    s'.Requests hw tagged := by
  rw [step] at hstep
  split at hstep
  · rename_i result hsubmit
    obtain ⟨-, heq⟩ := ite_none_right_eq_some.mp hstep
    cases heq
    cases label with
    | openFile file device available tag =>
      cases hsubmit
      rcases submitOpenDirect_cases hw s file device available tag with
        heq | ⟨-, hnone, ⟨index, channel, hchannel, -, heq⟩ | ⟨-, heq⟩⟩
      · rw [heq]
        exact h
      · rw [heq]
        exact (h.openOn hnone hchannel).synthesize tag
      · rw [heq]
        exact (h.openNew ht hnone).synthesize tag
    | closeFile file tag =>
      cases hsubmit
      rcases submitCloseDirect_cases s file tag with
        heq | ⟨opened, channel, -, hidle, hchannel, ⟨-, heq⟩ | ⟨-, heq⟩⟩
      · rw [heq]
        exact h
      · rw [heq]
        exact (h.closeLast channel hidle).synthesize tag
      · rw [heq]
        exact (h.closeFile hidle hchannel).synthesize tag
    | io file buffer bytes offset write tag answer =>
      cases hsubmit
      exact h.submitIo ht (fun hu => hok hu tag rfl) file buffer bytes offset write answer
    | flush file tag answer =>
      cases hsubmit
      exact h.submitFdatasync ht (fun hu => hok hu tag rfl) file answer
    | poll | deliver | visit | callback | processed | retry | checked => cases hsubmit
  · exact h.advance ht hstep

theorem reachable_requestsInv (hs : (backendSystem hw).ReachableUnder Respects s) :
    s.TableInv hw ∧ s.Requests hw True := by
  refine System.ReachableUnder.invariant (P := fun s => s.TableInv hw ∧ s.Requests hw True) ?_ ?_ hs
  · rintro s rfl
    exact ⟨tableInv_fresh hw, requests_fresh⟩
  · rintro s label s' ⟨ht, h⟩ hok hstep
    exact ⟨step_tableInv ht hstep, step_requests h ht (fun _ => hok) hstep⟩

/-! ## The result -/

/-- **What callers may rely on.** -/
structure Accounted (hw : Hardware) (s : Backend) : Prop where
  count : s.outstanding = s.inFlight.length + (s.channels.map fun c => c.pending.length).sum
  once : ∀ id, (s.completed.map Prod.fst).count id +
    ((s.pendingCompletions ++ s.pc.taken).map Synthetic.id).count id +
    (s.inFlight.map Command.id).count id +
    ((s.channels.flatMap Channel.pending).map PendingIo.id).count id =
      if id < s.nextId then 1 else 0
  done : s.pc = .idle → s.outstanding = 0 → s.pendingCompletions = [] →
    ∀ id < s.nextId, (s.completed.map Prod.fst).count id = 1
  results : ∀ id result, (id, result) ∈ s.completed → result = s.expected id ∨ result < 0
  quiet : ∀ label answer, s.submit hw label = some answer → answer.2.completed = s.completed
  accepted : ∀ label s', s.submit hw label = some (true, s') → s'.nextId = s.nextId + 1 ∧
    s'.expected s.nextId = label.bytes ∧ ∀ id < s.nextId, s'.expected id = s.expected id
  refused : ∀ label s', s.submit hw label = some (false, s') →
    s' = { s with successResult := s'.successResult }
  order : ∀ c ∈ s.channels, (s.acceptedOn c.qpair).filter (fun id => id ∉ s.failed) =
    s.submittedOn c.qpair ++ c.pending.map PendingIo.id
  ordered : ∀ q, (∀ c ∈ s.channels, c.qpair ≠ q) →
    (s.acceptedOn q).filter (fun id => id ∉ s.failed) = s.submittedOn q
  failed : ∀ id ∈ s.failed, ∃ result < 0, (id, result) ∈ s.completed
  close : ∀ file tag, (s.submitCloseDirect file tag).1 = true → s.outstanding = 0
  retry : ∀ c ∈ s.channels, ∀ r ∈ c.pending, ∃ o, s.files r.file = some o ∧ o.qpair = c.qpair ∧
    o.device = r.asked.device

theorem deferred_eq (s : Backend) : s.deferred = s.channels.flatMap Channel.pending := by
  rw [deferred, rows, List.flatMap_map]
  rfl

/-- Where an operation is, in numbers. -/
theorem Requests.count_eq (h : s.Requests hw tagged) (id : Nat) :
    (s.completed.map Prod.fst).count id +
      ((s.pendingCompletions ++ s.pc.taken).map Synthetic.id).count id +
      (s.inFlight.map Command.id).count id + (s.deferred.map PendingIo.id).count id =
      if id < s.nextId then 1 else 0 := by
  have hcarried : ∀ {α : Type} (k : α → Nat) (l : List α),
      (carried (fun x => some (k x)) l).count id = (l.map k).count id := by
    intro α k l
    rw [carried, Multiset.coe_count, List.filterMap_eq_map']
  have hrange : (Multiset.range s.nextId).count id = if id < s.nextId then 1 else 0 := by
    by_cases hlt : id < s.nextId
    · rw [if_pos hlt]
      exact Multiset.count_eq_one_of_mem (Multiset.nodup_range _) (Multiset.mem_range.mpr hlt)
    rw [if_neg hlt]
    exact Multiset.count_eq_zero.mpr fun hmem => hlt (Multiset.mem_range.mp hmem)
  have hcount := congrArg (Multiset.count id) h.places
  rw [hrange, Backend.places] at hcount
  simp only [Multiset.count_add, hcarried] at hcount
  rw [map_append, count_append]
  omega

/-- The answer to a submission and what it does to the books: it completes nothing; OK is for one
    operation more, whose result should be these bytes; after an error at most the result that is
    noted in the tag has changed. -/
structure Answered (s : Backend) (bytes : Nat) (ok : Bool) (s' : Backend) : Prop where
  completed : s'.completed = s.completed
  accepted : ok = true → s'.nextId = s.nextId + 1 ∧
    ∃ t, t.bytes = bytes ∧ s'.asked = update s.asked s.nextId t
  refused : ok = false → s' = { s with successResult := s'.successResult }

theorem Answered.refuse (s : Backend) (bytes : Nat) (g : Nat → Int) :
    Answered s bytes false { s with successResult := g } := ⟨rfl, nofun, fun _ => rfl⟩

theorem Answered.of_success {g : Nat → Int} {bytes : Nat} {ok : Bool}
    (h : Answered { s with successResult := g } bytes ok s') : Answered s bytes ok s' :=
  ⟨h.completed, h.accepted, h.refused⟩

theorem Answered.accept {bytes : Nat} (t : Transfer) (hbytes : t.bytes = bytes)
    (hcompleted : s'.completed = s.completed) (hnext : s'.nextId = s.nextId + 1)
    (hasked : s'.asked = update s.asked s.nextId t) : Answered s bytes true s' :=
  ⟨hcompleted, fun _ => ⟨hnext, t, hbytes, hasked⟩, nofun⟩

/-- `SubmitOrDefer` accepts a request by issuing or by deferring it. -/
theorem submitOrDefer_answered (s : Backend) (r : PendingIo) (ns index : Nat) (a : Answer)
    {bytes : Nat} (hbytes : r.asked.bytes = bytes) :
    Answered s bytes (s.submitOrDefer r ns index a).1 (s.submitOrDefer r ns index a).2 := by
  subst hbytes
  have hqueue : ∀ c, Answered s r.asked.bytes (s.queuePending r index c a.alloc).1
      (s.queuePending r index c a.alloc).2 := by
    intro c
    rw [queuePending]
    split
    · exact .accept _ rfl rfl rfl rfl
    · exact .refuse s _ _
  rw [submitOrDefer]
  split
  · exact .refuse s _ _
  split
  · exact hqueue _
  split
  · exact .accept _ rfl rfl rfl rfl
  · split
    · exact hqueue _
    · exact .refuse s _ _
  · exact .refuse s _ _

theorem submit_answered {answer : Bool × Backend} (hsubmit : s.submit hw label = some answer) :
    Answered s label.bytes answer.1 answer.2 := by
  cases label with
  | openFile file device available tag =>
    cases hsubmit
    rcases submitOpenDirect_cases hw s file device available tag with
      heq | ⟨-, -, ⟨index, channel, -, -, heq⟩ | ⟨-, heq⟩⟩
    · rw [heq]
      exact .refuse s _ _
    all_goals
      rw [heq]
      exact .accept _ rfl rfl rfl rfl
  | closeFile file tag =>
    cases hsubmit
    rcases submitCloseDirect_cases s file tag with
      heq | ⟨opened, channel, -, -, -, ⟨-, heq⟩ | ⟨-, heq⟩⟩
    · rw [heq]
      exact .refuse s _ _
    all_goals
      rw [heq]
      exact .accept _ rfl rfl rfl rfl
  | io file buffer bytes offset write tag a =>
    cases hsubmit
    rw [submitIo]
    split
    · exact .refuse s _ _
    dsimp only
    split
    · apply Answered.of_success
      exact submitOrDefer_answered _ _ _ _ _ rfl
    · exact .refuse s _ _
  | flush file tag a =>
    cases hsubmit
    rw [submitFdatasync]
    split
    · exact .refuse s _ _
    dsimp only
    split
    · apply Answered.of_success
      exact submitOrDefer_answered _ _ _ _ _ rfl
    · apply Answered.of_success
      exact .accept _ rfl rfl rfl rfl
  | poll | deliver | visit | callback | processed | retry | checked => cases hsubmit

theorem submitCloseDirect_idle {file tag : Nat} (h : (s.submitCloseDirect file tag).1 = true) :
    s.outstanding = 0 := by
  rcases submitCloseDirect_cases s file tag with heq | ⟨-, -, -, hidle, -⟩
  · rw [heq] at h
    cases h
  · exact hidle

theorem mem_rows {c : Channel} (hc : c ∈ s.channels) : Row c ∈ s.rows := List.mem_map_of_mem hc

theorem Requests.accounted (h : s.Requests hw True) : s.Accounted hw where
  count := by
    have hlength : s.deferred.length = (s.channels.map fun c => c.pending.length).sum := by
      rw [deferred_eq, List.length_flatMap]
    rw [← hlength]
    exact h.count
  once id := by
    rw [← deferred_eq]
    exact h.count_eq id
  done hpc hidle hnone id hid := by
    have hcount := h.count
    have hflight : s.inFlight = [] := List.eq_nil_of_length_eq_zero (by omega)
    have hdeferred : s.deferred = [] := List.eq_nil_of_length_eq_zero (by omega)
    have honce := h.count_eq id
    rw [hflight, hdeferred, hnone, hpc, if_pos hid] at honce
    exact honce
  results id result hmem := h.results trivial (id, result) hmem
  quiet _ _ hsubmit := (submit_answered hsubmit).completed
  accepted _ s' hsubmit := by
    obtain ⟨hnext, t, hbytes, hasked⟩ := (submit_answered hsubmit).accepted rfl
    refine ⟨hnext, ?_, fun id hid => ?_⟩
    · rw [expected, hasked, update_self, hbytes]
    · rw [expected, hasked, update_of_ne (Nat.ne_of_lt hid), expected]
  refused _ _ hsubmit := (submit_answered hsubmit).refused rfl
  order c hc := by
    obtain ⟨i, hi⟩ := List.mem_iff_getElem?.mp (mem_rows hc)
    exact h.order i (Row c) hi
  ordered q hq := by
    refine h.closed q fun hmem => ?_
    obtain ⟨row, hrow, hkey⟩ := mem_map.mp hmem
    obtain ⟨c, hc, rfl⟩ := mem_map.mp hrow
    exact hq c hc hkey
  failed := h.failed
  close _ _ haccepted := submitCloseDirect_idle haccepted
  retry c hc := h.files (Row c) (mem_rows hc)

/-- **SPDK requests are accounted, ordered and completed exactly once**, in every run in which a tag
    has at most one unfinished operation. -/
theorem reachable_completions (hs : (backendSystem hw).ReachableUnder Respects s) :
    s.Accounted hw :=
  (reachable_requestsInv hs).2.accounted

/-- Two reads on one queue pair: the first is issued, the second deferred; a completion makes room,
    and the retry of the second fails. -/
def deferredRead : List Label :=
  [.openFile 0 0 true 10, .io 0 1 512 0 false 11 ⟨.ok, false, true⟩,
    .io 0 1 1024 512 false 12 ⟨.noMemory, true, true⟩, .poll 0, .deliver, .deliver, .visit,
    .callback 0 false, .processed 1, .retry .noMemory false]

theorem deferredRead_accounted :
    ∃ s, (backendSystem twoControllers).run .fresh deferredRead = some s ∧
      s.completed = [(0, 0), (1, 512), (2, -12)] ∧ s.outstanding = 0 ∧
      s.Accounted twoControllers :=
  ⟨_, rfl, rfl, rfl, reachable_completions (.run (.init rfl) deferredRead (by decide) rfl)⟩

end Backend

end Bycorf.Spdk
