/-
  The channel table of `SpdkBackend` as data: open files, and the entries of the channels they are
  on.

  `Table` says that files and entries agree.  `exempt` is an entry that need not have a file yet,
  the one that `SubmitOpenDirect` has just pushed.  `Table.push`, `Table.openFile`,
  `Table.closeFile` and `Table.erase` are the updates.
-/
import Bycorf.Lib.History
import Bycorf.Lib.Indexed
import Bycorf.Spdk.Backend

namespace Bycorf.Spdk

open Lib Function

/-! ## Files and entries -/

/-- A file uses the channel with this index. -/
def onChannel (index : Nat) (file : Option OpenFile) : Bool :=
  file.any fun opened => opened.channelIndex == index

@[simp] theorem onChannel_none (index : Nat) : onChannel index none = false := rfl

@[simp] theorem onChannel_some (index : Nat) (opened : OpenFile) :
    onChannel index (some opened) = (opened.channelIndex == index) := rfl

/-- How many files use a channel. -/
def users (files : Nat → Option OpenFile) (fileCount index : Nat) : Nat :=
  Nat.count (fun file => onChannel index (files file) = true) fileCount

/-- Files and entries agree; the entry at `exempt` may be without a file. -/
structure Table (hw : Hardware) (exempt : Option Nat) (files : Nat → Option OpenFile)
    (entries : List Entry) : Prop where
  controllers : (entries.map Entry.controller).Nodup
  file : ∀ f o, files f = some o → f < hw.fileCount ∧ ∃ e, entries[o.channelIndex]? = some e ∧
    e.controller = (hw.device o.device).controller ∧ e.qpair = o.qpair
  count : ∀ i e, entries[i]? = some e → e.openFiles = users files hw.fileCount i
  used : ∀ i e, entries[i]? = some e → exempt ≠ some i → 0 < e.openFiles

namespace Table

variable {hw : Hardware} {exempt : Option Nat} {files : Nat → Option OpenFile}
  {entries : List Entry} {f i : Nat} {e : Entry} {o : OpenFile}

theorem empty (hw : Hardware) : Table hw none (fun _ => none) [] :=
  ⟨nodup_nil, by simp, by simp, by simp⟩

theorem users_update (files : Nat → Option OpenFile) (hf : f < hw.fileCount) (x : Option OpenFile)
    (i : Nat) :
    users (update files f x) hw.fileCount i + (onChannel i (files f)).toNat =
      users files hw.fileCount i + (onChannel i x).toNat :=
  count_update (onChannel i) files x hf

/-- A new entry, for a controller that has none. -/
theorem push (h : Table hw none files entries) (controller qpair : Nat)
    (hnew : ∀ e ∈ entries, e.controller ≠ controller) :
    Table hw (some entries.length) files (entries ++ [⟨controller, qpair, 0⟩]) := by
  have hold : ∀ {i e}, (entries ++ [⟨controller, qpair, 0⟩])[i]? = some e →
      entries[i]? = some e ∨ (i = entries.length ∧ e = ⟨controller, qpair, 0⟩) := by
    intro i e hi
    by_cases hlt : i < entries.length
    · rw [List.getElem?_append_left hlt] at hi
      exact .inl hi
    rw [List.getElem?_append_right (by omega)] at hi
    rcases hk : i - entries.length with _ | k
    · rw [hk] at hi
      exact .inr ⟨by omega, (Option.some.inj hi).symm⟩
    rw [hk] at hi
    cases hi
  refine ⟨?_, fun f o hfile => ?_, fun i e hi => ?_, fun i e hi hne => ?_⟩
  · rw [map_append, nodup_append]
    refine ⟨h.controllers, List.nodup_singleton _, ?_⟩
    intro c hc c' hc' heq
    obtain ⟨e, he, rfl⟩ := mem_map.mp hc
    rw [mem_singleton.mp hc'] at heq
    exact hnew e he heq
  · obtain ⟨hlt, e, hentry, hrest⟩ := h.file f o hfile
    exact ⟨hlt, e, by
      rw [List.getElem?_append_left (List.getElem?_eq_some_iff.mp hentry).1]; exact hentry, hrest⟩
  · rcases hold hi with hi | ⟨rfl, rfl⟩
    · exact h.count i e hi
    · -- every file's index is below the length
      refine (Nat.count_iff_forall_not.mpr fun f _ hf => ?_).symm
      rcases hfile : files f with _ | o
      · simp [hfile] at hf
      obtain ⟨-, e, hentry, -⟩ := h.file f o hfile
      have hlt := (List.getElem?_eq_some_iff.mp hentry).1
      rw [hfile, onChannel_some, beq_iff_eq] at hf
      omega
  · rcases hold hi with hi | ⟨rfl, -⟩
    · exact h.used i e hi (by simp)
    · exact absurd rfl hne

section

variable (hi : entries[i]? = some e) (k : Nat)
include hi

/-- Another number of files does not change what an entry is for. -/
theorem set_controllers :
    (entries.set i { e with openFiles := k }).map Entry.controller = entries.map Entry.controller :=
  map_set_of_eq hi rfl

theorem set_qpairs :
    (entries.set i { e with openFiles := k }).map Entry.qpair = entries.map Entry.qpair :=
  map_set_of_eq hi rfl

/-- What a file sees of the entries after one number of files is changed. -/
theorem file_set {j : Nat} {P : Entry → Prop}
    (hP : ∀ e : Entry, P e → P { e with openFiles := k })
    (hj : ∃ e', entries[j]? = some e' ∧ P e') :
    ∃ e', (entries.set i { e with openFiles := k })[j]? = some e' ∧ P e' := by
  obtain ⟨e', he', hPe⟩ := hj
  by_cases hji : j = i
  · subst hji
    rw [hi] at he'
    cases he'
    exact ⟨_, List.getElem?_set_self (List.getElem?_eq_some_iff.mp hi).1, hP e hPe⟩
  · exact ⟨e', by rw [List.getElem?_set_ne (Ne.symm hji)]; exact he', hPe⟩

end

/-- A file is opened on an entry of its controller. -/
theorem openFile (h : Table hw exempt files entries) (hexempt : ∀ j, exempt = some j → j = i)
    (hf : f < hw.fileCount) (hclosed : files f = none) (hi : entries[i]? = some e) (device : Nat)
    (hcontroller : e.controller = (hw.device device).controller) :
    Table hw none (update files f (some ⟨device, e.qpair, i⟩))
      (entries.set i { e with openFiles := e.openFiles + 1 }) := by
  have husers := fun j => users_update files hf (some ⟨device, e.qpair, i⟩) j
  refine ⟨?_, fun g o hg => ?_, fun j e' hj => ?_, fun j e' hj _ => ?_⟩
  · rw [set_controllers hi]
    exact h.controllers
  · by_cases hgf : g = f
    · subst hgf
      rw [update_self] at hg
      cases hg
      exact ⟨hf, file_set hi _ (fun _ hP => hP) ⟨e, hi, hcontroller, rfl⟩⟩
    · rw [update_of_ne hgf] at hg
      obtain ⟨hlt, hentry⟩ := h.file g o hg
      exact ⟨hlt, file_set hi _ (fun _ hP => hP) hentry⟩
  · have hj' := husers j
    rw [hclosed, onChannel_none, onChannel_some, Bool.toNat_false, Nat.add_zero] at hj'
    rcases getElem?_set_cases hi hj with ⟨rfl, rfl⟩ | ⟨hne, hj⟩
    · rw [hj', ← h.count j e hi]
      simp
    rw [hj', ← h.count j e' hj]
    simp [Ne.symm hne]
  · rcases getElem?_set_cases hi hj with ⟨-, rfl⟩ | ⟨hne, hj⟩
    · exact Nat.succ_pos _
    · exact h.used j e' hj fun heq => hne (hexempt j heq)

/-- A file is closed, and others still use its entry. -/
theorem closeFile (h : Table hw none files entries) (hopen : files f = some o)
    (hi : entries[o.channelIndex]? = some e) (hmore : e.openFiles - 1 ≠ 0) :
    Table hw none (update files f none)
      (entries.set o.channelIndex { e with openFiles := e.openFiles - 1 }) := by
  obtain ⟨hf, -⟩ := h.file f o hopen
  have husers := users_update files hf none
  refine ⟨?_, fun g p hg => ?_, fun j e' hj => ?_, fun j e' hj _ => ?_⟩
  · rw [set_controllers hi]
    exact h.controllers
  · by_cases hgf : g = f
    · subst hgf
      rw [update_self] at hg
      cases hg
    · rw [update_of_ne hgf] at hg
      obtain ⟨hlt, hentry⟩ := h.file g p hg
      exact ⟨hlt, file_set hi _ (fun _ hP => hP) hentry⟩
  · have hj' := husers j
    rw [hopen, onChannel_none, onChannel_some, Bool.toNat_false, Nat.add_zero] at hj'
    rcases getElem?_set_cases hi hj with ⟨rfl, rfl⟩ | ⟨hne, hj⟩
    · rw [beq_self_eq_true, Bool.toNat_true, ← h.count _ e hi] at hj'
      show e.openFiles - 1 = _
      omega
    rw [beq_false_of_ne (Ne.symm hne), Bool.toNat_false, Nat.add_zero, ← h.count j e' hj] at hj'
    exact hj'.symm
  · rcases getElem?_set_cases hi hj with ⟨-, rfl⟩ | ⟨-, hj⟩
    · exact Nat.pos_of_ne_zero hmore
    · exact h.used j e' hj (by simp)

/-- The index of an entry behind the one that is erased goes down by one. -/
def renumber (index : Nat) (o : OpenFile) : OpenFile :=
  if index < o.channelIndex then { o with channelIndex := o.channelIndex - 1 } else o

section

variable (index : Nat) (o : OpenFile)

theorem renumber_device : (renumber index o).device = o.device := by
  rw [renumber]
  split <;> rfl

theorem renumber_qpair : (renumber index o).qpair = o.qpair := by
  rw [renumber]
  split <;> rfl

theorem renumber_index : (renumber index o).channelIndex =
    if index < o.channelIndex then o.channelIndex - 1 else o.channelIndex := by
  rw [renumber]
  split <;> rfl

end

/-- The last file of an entry is closed, and the entry is erased. -/
theorem erase (h : Table hw none files entries) (hopen : files f = some o)
    (hi : entries[o.channelIndex]? = some e) (hlast : e.openFiles - 1 = 0) :
    Table hw none
      (update (fun g => (files g).map (renumber o.channelIndex)) f none)
      (entries.eraseIdx o.channelIndex) := by
  obtain ⟨hf, -⟩ := h.file f o hopen
  -- no other file uses the entry
  have hother : ∀ g p, g ≠ f → files g = some p → p.channelIndex ≠ o.channelIndex := by
    intro g p hgf hg heq
    have hzero := users_update files hf none o.channelIndex
    rw [hopen, onChannel_none, onChannel_some, beq_self_eq_true, ← h.count _ e hi] at hzero
    have hnone : users (update files f none) hw.fileCount o.channelIndex = 0 := by
      simp only [Bool.toNat_true, Bool.toNat_false] at hzero
      omega
    refine Nat.count_iff_forall_not.mp hnone g (h.file g p hg).1 ?_
    rw [update_of_ne hgf, hg, onChannel_some, heq, beq_self_eq_true]
  -- an entry that stays, with the index it had
  have hstays : ∀ j e', (entries.eraseIdx o.channelIndex)[j]? = some e' →
      ∃ k, k ≠ o.channelIndex ∧ entries[k]? = some e' ∧
        j = if o.channelIndex < k then k - 1 else k := by
    intro j e' hj
    rw [List.getElem?_eraseIdx] at hj
    split at hj
    · exact ⟨j, by omega, hj, by rw [if_neg (by omega)]⟩
    · exact ⟨j + 1, by omega, hj, by rw [if_pos (by omega)]; rfl⟩
  refine ⟨?_, fun g p hg => ?_, fun j e' hj => ?_, fun j e' hj _ => ?_⟩
  · rw [← List.eraseIdx_map]
    exact h.controllers.sublist (List.eraseIdx_sublist _ _)
  · by_cases hgf : g = f
    · subst hgf
      rw [update_self] at hg
      cases hg
    · rw [update_of_ne hgf] at hg
      obtain ⟨q, hq, rfl⟩ := map_eq_some_iff.mp hg
      obtain ⟨hlt, e', hentry, hrest⟩ := h.file g q hq
      have hne := hother g q hgf hq
      refine ⟨hlt, e', ?_, by rw [renumber_device, renumber_qpair]; exact hrest⟩
      rw [renumber_index, List.getElem?_eraseIdx, ← hentry]
      split
      · rw [if_neg (by omega)]
        congr 1
        omega
      · rw [if_pos (by omega)]
  · obtain ⟨k, hk, hentry, rfl⟩ := hstays j e' hj
    rw [h.count k e' hentry]
    refine count_congr fun g _ => ?_
    by_cases hgf : g = f
    · subst hgf
      rw [update_self, hopen]
      simp [Ne.symm hk]
    rw [update_of_ne hgf]
    rcases hg : files g with _ | q
    · rfl
    have hne := hother g q hgf hg
    rw [Option.map_some, onChannel_some, onChannel_some, renumber_index, beq_iff_eq, beq_iff_eq]
    split <;> split <;> omega
  · obtain ⟨k, -, hentry, -⟩ := hstays j e' hj
    exact h.used k e' hentry (by simp)

end Table

end Bycorf.Spdk
