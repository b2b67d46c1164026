/-
  The channel table of `SpdkBackend` stays consistent, also when callbacks open and close files
  while `Poll` goes through it.

  1. **One step** — `SameTable`: a step that neither opens nor closes leaves files and entries alone
     (a channel's queue is not part of its entry).
  2. **Indices** — `Pc.Held`: what `Poll` and `RetryDeferred` remember of the table is true as long
     as the generation is the one they saw.
  3. **Result** — `reachable_channels`.
-/
import Bycorf.Spdk.Table

namespace Bycorf.Spdk

open Lib

/-! ## Steps that leave the table alone -/

namespace Backend

/-- The channels without their requests. -/
def entries (s : Backend) : List Entry := s.channels.map Channel.toEntry

/-- Nothing of the table changes, except perhaps the cursor. -/
structure SameTable (s s' : Backend) : Prop where
  files : s'.files = s.files
  entries : s'.entries = s.entries
  generation : s'.channelGeneration = s.channelGeneration
  nextQpair : s'.nextQpair = s.nextQpair
  freed : s'.freed = s.freed

theorem SameTable.refl (s : Backend) : SameTable s s := ⟨rfl, rfl, rfl, rfl, rfl⟩

theorem SameTable.length {s s' : Backend} (h : SameTable s s') :
    s'.channels.length = s.channels.length := by
  have hlength := congrArg List.length h.entries
  rwa [Backend.entries, Backend.entries, List.length_map, List.length_map] at hlength

variable {hw : Hardware} {s s' : Backend}

theorem getElem?_entries {index : Nat} {channel : Channel}
    (h : s.channels[index]? = some channel) : s.entries[index]? = some channel.toEntry := by
  rw [entries, List.getElem?_map, h]
  rfl

/-- Only the queue of a channel changes. -/
theorem entries_setChannel {index : Nat} {channel channel' : Channel}
    (h : s.channels[index]? = some channel) (heq : channel'.toEntry = channel.toEntry) :
    (s.setChannel index channel').entries = s.entries :=
  map_set_of_eq h heq

/-- What a submission that neither opens nor closes does to the rest. -/
structure Submits (s s' : Backend) : Prop extends SameTable s s' where
  cursor : s'.nextPollChannel = s.nextPollChannel
  pc : s'.pc = s.pc
  uses : s'.uses = s.uses

theorem Submits.refl (s : Backend) : Submits s s := ⟨.refl s, rfl, rfl, rfl⟩

theorem Submits.of_success {g : Nat → Int} (h : Submits { s with successResult := g } s') :
    Submits s s' :=
  ⟨{ h with }, h.cursor, h.pc, h.uses⟩

theorem submitOrDefer_submits (s : Backend) (request : PendingIo) (ns index : Nat)
    (answer : Answer) : Submits s (s.submitOrDefer request ns index answer).2 := by
  have hqueue : ∀ {channel}, s.channels[index]? = some channel →
      Submits s (s.queuePending request index channel answer.alloc).2 := by
    intro channel hchannel
    rw [queuePending]
    split
    · exact ⟨⟨rfl, entries_setChannel hchannel rfl, rfl, rfl, rfl⟩, rfl, rfl, rfl⟩
    · exact .refl s
  rw [submitOrDefer]
  rcases hchannel : s.channels[index]? with _ | channel
  · exact .refl s
  dsimp only
  split
  · exact hqueue hchannel
  cases answer.rc with
  | ok => exact ⟨⟨rfl, rfl, rfl, rfl, rfl⟩, rfl, rfl, rfl⟩
  | noMemory =>
    dsimp only
    split
    · exact hqueue hchannel
    · exact .refl s
  | failed errno pos => exact .refl s

theorem submitIo_submits (hw : Hardware) (s : Backend) (file buffer bytes offset : Nat)
    (write : Bool) (tag : Nat) (answer : Answer) :
    Submits s (s.submitIo hw file buffer bytes offset write tag answer).2 := by
  rw [submitIo]
  rcases s.files file with _ | opened
  · exact .refl s
  dsimp only
  split
  · exact (submitOrDefer_submits _ _ _ _ _).of_success
  · exact .refl s

theorem submitFdatasync_submits (hw : Hardware) (s : Backend) (file tag : Nat) (answer : Answer) :
    Submits s (s.submitFdatasync hw file tag answer).2 := by
  rw [submitFdatasync]
  rcases s.files file with _ | opened
  · exact .refl s
  dsimp only
  split
  · exact (submitOrDefer_submits _ _ _ _ _).of_success
  · exact ⟨⟨rfl, rfl, rfl, rfl, rfl⟩, rfl, rfl, rfl⟩

/-! ## What `Poll` remembers -/

end Backend

/-- A pass over the table, with an index of it, that callbacks may have overtaken. -/
def Pass.Overtaken (p : Pass) (index generation size : Nat) : Prop :=
  index < p.channelCount ∧ p.generation ≤ generation ∧
    (p.generation = generation → p.channelCount = size)

/-- What a program point has read of a table with this generation and size. -/
def Pc.Held (generation size : Nat) : Pc → Prop
  | .idle | .synthetic .. => True
  | .loop p => p.generation = generation ∧ p.channelCount = size
  | .processing p index _ => p.Overtaken index generation size
  | .retry p index g _ => g = p.generation ∧ p.generation = generation ∧ p.channelCount = size ∧
    index < size
  | .failing p index g _ => g = p.generation ∧ p.Overtaken index generation size

/-- The table may change while the caller's code runs. -/
theorem Pc.Held.changed {pc : Pc} {generation size : Nat} (h : pc.Held generation size)
    (hpc : pc.callsBack = true) (size' : Nat) : pc.Held (generation + 1) size' := by
  have hover : ∀ {p : Pass} {index}, p.Overtaken index generation size →
      p.Overtaken index (generation + 1) size' := by
    rintro p index ⟨hindex, hle, -⟩
    exact ⟨hindex, by omega, fun heq => by omega⟩
  cases pc with
  | idle | synthetic => trivial
  | loop | retry => cases hpc
  | processing p index qpair => exact hover h
  | failing p index g submitted => exact ⟨h.1, hover h.2⟩

theorem Pass.index_lt {p : Pass} (h : p.visited < p.channelCount) : p.index < p.channelCount :=
  Nat.mod_lt _ (by omega)

namespace Backend

variable {hw : Hardware} {s s' : Backend}

/-- Every index was used at the generation it was computed for, and inside the table. -/
def GoodUses (s : Backend) : Prop := ∀ u ∈ s.uses, u.held = u.generation ∧ u.index < u.size

/-- The cursor is inside the table. -/
def CursorIn (s : Backend) : Prop :=
  s.nextPollChannel < s.channels.length ∨ (s.channels = [] ∧ s.nextPollChannel = 0)

/-- What holds of the cursor, the program point and the log of the uses. -/
structure Polls (s : Backend) : Prop where
  cursor : s.CursorIn
  held : s.pc.Held s.channelGeneration s.channels.length
  uses : s.GoodUses

variable {index : Nat}

theorem GoodUses.record (h : s.GoodUses) {held : Nat} (hheld : held = s.channelGeneration)
    (hindex : index < s.channels.length) : (s.record held index).GoodUses := by
  intro u hu
  rcases mem_append.mp hu with hu | hu
  · exact h u hu
  rw [mem_singleton.mp hu]
  exact ⟨hheld, hindex⟩

theorem CursorIn.of_length (h : s.CursorIn) (hlength : s'.channels.length = s.channels.length)
    (hcursor : s'.nextPollChannel = s.nextPollChannel) : s'.CursorIn := by
  rw [CursorIn, hcursor, hlength]
  refine h.imp_right fun ⟨hnil, hzero⟩ => ⟨?_, hzero⟩
  rw [hnil] at hlength
  exact List.eq_nil_of_length_eq_zero hlength

theorem SameTable.of_record {held : Nat} (h : SameTable (s.record held index) s') :
    SameTable s s' :=
  { h with }

theorem nextRound_same (s : Backend) (p : Pass) : SameTable s (s.nextRound p) := by
  rw [nextRound]
  split <;> exact ⟨rfl, rfl, rfl, rfl, rfl⟩

variable {p : Pass}

theorem nextRound_polls (hcursor : s.CursorIn) (huses : s.GoodUses)
    (hcount : p.generation = s.channelGeneration → p.channelCount = s.channels.length) :
    (s.nextRound p).Polls := by
  rw [nextRound]
  split
  · exact ⟨hcursor, trivial, huses⟩
  rename_i hgen
  have hgen := (not_not.mp hgen).symm
  exact ⟨hcursor, ⟨hgen, hcount hgen⟩, huses⟩

theorem visit_polls (h : s.Polls) (hpc : s.pc = .loop p) (hstep : s.visit p = some s') :
    SameTable s s' ∧ s'.Polls := by
  have hheld := h.held
  rw [hpc] at hheld
  obtain ⟨hgen, hcount⟩ := hheld
  rw [visit] at hstep
  split at hstep
  · rename_i hvisited
    have hindex := Pass.index_lt hvisited
    split at hstep
    · cases hstep
      refine ⟨⟨rfl, rfl, rfl, rfl, rfl⟩, .inl ?_, trivial, h.uses⟩
      rw [← hcount]
      exact hindex
    split at hstep
    · cases hstep
    cases hstep
    refine ⟨⟨rfl, rfl, rfl, rfl, rfl⟩, .inl ?_, ⟨hindex, Nat.le_of_eq hgen, fun _ => hcount⟩,
      h.uses.record hgen (hcount ▸ hindex)⟩
    show (p.index + 1) % p.channelCount < s.channels.length
    rw [← hcount]
    exact Nat.mod_lt _ (by omega)
  · cases hstep
    exact ⟨⟨rfl, rfl, rfl, rfl, rfl⟩, h.cursor, trivial, h.uses⟩

theorem completeAsync_polls {qpair position : Nat} {error : Bool} (h : s.Polls)
    (hstep : s.completeAsync qpair position error = some s') : SameTable s s' ∧ s'.Polls := by
  rw [completeAsync] at hstep
  split at hstep
  · cases hstep
  refine of_guard hstep fun _ => ?_
  exact ⟨⟨rfl, rfl, rfl, rfl, rfl⟩, h.cursor, h.held, h.uses⟩

theorem processed_polls {qpair : Nat} {completed : Int} (h : s.Polls)
    (hpc : s.pc = .processing p index qpair) (hstep : s.processed p index completed = some s') :
    SameTable s s' ∧ s'.Polls := by
  have hheld := h.held
  rw [hpc] at hheld
  obtain ⟨hindex, -, hcount⟩ := hheld
  rw [processed] at hstep
  split at hstep
  · cases hstep
    exact ⟨⟨rfl, rfl, rfl, rfl, rfl⟩, h.cursor, trivial, h.uses⟩
  rename_i hgen
  have hgen := (not_not.mp hgen).symm
  have hsize := hcount hgen
  have huses : (s.record p.generation index).GoodUses := h.uses.record hgen (hsize ▸ hindex)
  split at hstep
  · cases hstep
  split at hstep
  · cases hstep
    exact ⟨(nextRound_same _ _).of_record,
      nextRound_polls h.cursor huses fun _ => hsize⟩
  cases hstep
  exact ⟨⟨rfl, rfl, rfl, rfl, rfl⟩, h.cursor, ⟨hgen.symm, hgen, hsize, hsize ▸ hindex⟩, huses⟩

variable {generation submitted : Nat}

theorem retryDeferred_polls {rc : Submission}
    {busy : Bool} (h : s.Polls) (hpc : s.pc = .retry p index generation submitted)
    (hstep : s.retryDeferred p index generation submitted rc busy = some s') :
    SameTable s s' ∧ s'.Polls := by
  have hheld := h.held
  rw [hpc] at hheld
  obtain ⟨rfl, hgen, hcount, hindex⟩ := hheld
  have huses : (s.record p.generation index).GoodUses := h.uses.record hgen hindex
  have hround : SameTable s ((s.record p.generation index).nextRound p) ∧
      ((s.record p.generation index).nextRound p).Polls :=
    ⟨(nextRound_same _ _).of_record,
      nextRound_polls h.cursor huses fun _ => hcount⟩
  rw [retryDeferred] at hstep
  rcases hchannel : s.channels[index]? with _ | channel
  · rw [hchannel] at hstep
    cases hstep
  rw [hchannel] at hstep
  dsimp only at hstep
  split at hstep
  · cases hstep
    exact hround
  rename_i request rest hpending
  -- the queue of the channel loses its first request
  have hsame : ((s.record p.generation index).setChannel index
      { channel with pending := rest }).entries = s.entries :=
    entries_setChannel hchannel rfl
  have hlength : (s.channels.set index { channel with pending := rest }).length =
      s.channels.length := List.length_set
  split at hstep
  · cases hstep
    exact hround
  split at hstep
  · cases hstep
  split at hstep
  · cases hstep
    exact hround
  split at hstep
  · cases hstep
    refine ⟨⟨rfl, hsame, rfl, rfl, rfl⟩, h.cursor.of_length hlength rfl, ?_, huses⟩
    exact ⟨rfl, hgen, hcount.trans hlength.symm, by rw [← hlength] at hindex; exact hindex⟩
  cases hstep
  refine ⟨⟨rfl, hsame, rfl, rfl, rfl⟩, h.cursor.of_length hlength rfl, ?_, huses⟩
  exact ⟨rfl, hcount ▸ hindex, Nat.le_of_eq hgen, fun _ => hcount.trans hlength.symm⟩

theorem retryChecked_polls (h : s.Polls)
    (hpc : s.pc = .failing p index generation submitted) :
    SameTable s (s.retryChecked p index generation submitted) ∧
      (s.retryChecked p index generation submitted).Polls := by
  have hheld := h.held
  rw [hpc] at hheld
  obtain ⟨rfl, hindex, -, hcount⟩ := hheld
  rw [retryChecked]
  split
  · exact ⟨nextRound_same s p, nextRound_polls h.cursor h.uses hcount⟩
  rename_i hgen
  have hgen := (not_not.mp hgen).symm
  have hsize := hcount hgen
  exact ⟨⟨rfl, rfl, rfl, rfl, rfl⟩, h.cursor, ⟨rfl, hgen, hsize, hsize ▸ hindex⟩, h.uses⟩

variable {label : Label}

/-- **A step of `Poll`** leaves the table alone and keeps its own account. -/
theorem advance_polls (h : s.Polls) (hstep : s.advance label = some s') :
    SameTable s s' ∧ s'.Polls := by
  cases label with
  | openFile | closeFile | io | flush => cases hstep
  | poll maxCompletions =>
    rw [advance] at hstep
    split at hstep
    · cases hstep
      exact ⟨⟨rfl, rfl, rfl, rfl, rfl⟩, h.cursor, trivial, h.uses⟩
    · cases hstep
  | deliver =>
    rw [advance] at hstep
    split at hstep
    · cases hstep
      exact ⟨⟨rfl, rfl, rfl, rfl, rfl⟩, h.cursor, ⟨rfl, rfl⟩, h.uses⟩
    · cases hstep
      exact ⟨⟨rfl, rfl, rfl, rfl, rfl⟩, h.cursor, trivial, h.uses⟩
    · cases hstep
  | visit =>
    rw [advance] at hstep
    split at hstep
    · rename_i p hpc
      exact visit_polls h hpc hstep
    · cases hstep
  | callback position error =>
    rw [advance] at hstep
    split at hstep
    · exact completeAsync_polls h hstep
    · cases hstep
  | processed completed =>
    rw [advance] at hstep
    split at hstep
    · rename_i p index qpair hpc
      exact processed_polls h hpc hstep
    · cases hstep
  | retry rc busy =>
    rw [advance] at hstep
    split at hstep
    · rename_i p index generation submitted hpc
      exact retryDeferred_polls h hpc hstep
    · cases hstep
  | checked =>
    rw [advance] at hstep
    split at hstep
    · rename_i p index generation submitted hpc
      cases hstep
      exact retryChecked_polls h hpc
    · cases hstep

/-! ## Opening and closing -/

/-- Every queue pair that was allocated is in the table or was given back, once. -/
def Qpairs (s : Backend) : Prop :=
  (s.entries.map Entry.qpair ++ s.freed).Perm (List.range s.nextQpair)

/-- **The invariant.** -/
structure TableInv (hw : Hardware) (s : Backend) : Prop where
  table : Table hw none s.files s.entries
  qpairs : s.Qpairs
  polls : s.Polls

theorem TableInv.same (h : s.TableInv hw) (hsame : SameTable s s') (hpolls : s'.Polls) :
    s'.TableInv hw := by
  refine ⟨?_, ?_, hpolls⟩
  · rw [hsame.files, hsame.entries]
    exact h.table
  · rw [Qpairs, hsame.entries, hsame.freed, hsame.nextQpair]
    exact h.qpairs

theorem Polls.submits (h : s.Polls) (hsub : Submits s s') : s'.Polls := by
  refine ⟨h.cursor.of_length hsub.length hsub.cursor, ?_, ?_⟩
  · rw [hsub.pc, hsub.generation, hsub.length]
    exact h.held
  · rw [GoodUses, hsub.uses]
    exact h.uses

/-- What `SubmitOpenDirect` does: it refuses, or it opens the file on an entry that is there, or on
    a new one. -/
theorem submitOpenDirect_cases (hw : Hardware) (s : Backend) (file device : Nat) (available : Bool)
    (tag : Nat) :
    s.submitOpenDirect hw file device available tag = (false, s) ∨
    (file < hw.fileCount ∧ s.files file = none ∧
      ((∃ index channel, s.channels[index]? = some channel ∧
          channel.controller = (hw.device device).controller ∧
          s.submitOpenDirect hw file device available tag =
            (true, (s.openOn file device index channel).synthesize tag)) ∨
        ((∀ channel ∈ s.channels, channel.controller ≠ (hw.device device).controller) ∧
          s.submitOpenDirect hw file device available tag = (true,
            (s.openNew file device (hw.device device).controller).synthesize tag)))) := by
  rw [submitOpenDirect]
  split
  · exact .inl rfl
  rename_i hfile
  split
  · exact .inl rfl
  rename_i hclosed
  have hnone : s.files file = none := by simpa using hclosed
  dsimp only
  split
  · rename_i index hfind
    obtain ⟨hlt, hcontroller, -⟩ := List.findIdx?_eq_some_iff_getElem.mp hfind
    rw [List.getElem?_eq_getElem hlt]
    refine .inr ⟨by omega, hnone, .inl ⟨index, s.channels[index], ?_, ?_, rfl⟩⟩
    · exact List.getElem?_eq_getElem hlt
    · simpa using hcontroller
  rename_i hfind
  split
  · refine .inr ⟨by omega, hnone, .inr ⟨fun channel hmem heq => ?_, rfl⟩⟩
    have hno := List.findIdx?_eq_none_iff.mp hfind channel hmem
    simp [heq] at hno
  · exact .inl rfl

theorem Polls.longer (h : s.Polls) (hle : s.channels.length ≤ s'.channels.length)
    (hpos : 0 < s'.channels.length) (hcursor : s'.nextPollChannel = s.nextPollChannel)
    (hheld : s'.pc.Held s'.channelGeneration s'.channels.length) (huses : s'.uses = s.uses) :
    s'.Polls := by
  refine ⟨.inl ?_, hheld, ?_⟩
  · rw [hcursor]
    rcases h.cursor with hlt | ⟨-, hzero⟩
    · omega
    · omega
  · rw [GoodUses, huses]
    exact h.uses

variable {file tag : Nat} {channel : Channel}

/-- The count of a channel changes, and with it one file. -/
theorem TableInv.setOpenFiles (h : s.TableInv hw) (hchannel : s.channels[index]? = some channel)
    {n : Nat} {opened : Option OpenFile}
    (htable : Table hw none (Function.update s.files file opened)
      (s.entries.set index { channel.toEntry with openFiles := n })) :
    (((s.setChannel index { channel with openFiles := n }).setFile file opened).synthesize
      tag).TableInv hw := by
  have hentries : (s.setChannel index { channel with openFiles := n }).entries =
      s.entries.set index { channel.toEntry with openFiles := n } := List.map_set
  have hlength : (s.channels.set index { channel with openFiles := n }).length =
      s.channels.length := List.length_set
  refine ⟨hentries ▸ htable, ?_, h.polls.cursor.of_length hlength rfl, ?_, h.polls.uses⟩
  · show Qpairs (s.setChannel index { channel with openFiles := n })
    rw [Qpairs, hentries, Table.set_qpairs (getElem?_entries hchannel)]
    exact h.qpairs
  · have hheld := h.polls.held
    rw [← hlength] at hheld
    exact hheld

theorem TableInv.openOn (h : s.TableInv hw) {device : Nat}
    (hfile : file < hw.fileCount) (hclosed : s.files file = none)
    (hchannel : s.channels[index]? = some channel)
    (hcontroller : channel.controller = (hw.device device).controller) :
    ((s.openOn file device index channel).synthesize tag).TableInv hw :=
  h.setOpenFiles hchannel
    (h.table.openFile (by simp) hfile hclosed (getElem?_entries hchannel) device hcontroller)

/-- The entries behind `openNew`: the new one has one file. -/
theorem entries_openNew (s : Backend) (file device controller tag : Nat) :
    ((s.openNew file device controller).synthesize tag).entries =
      (s.entries ++ [(⟨controller, s.nextQpair, 0⟩ : Entry)]).set s.channels.length
        ⟨controller, s.nextQpair, 0 + 1⟩ := by
  refine List.map_set.trans ?_
  congr 1
  exact map_append

theorem length_openNew (s : Backend) (file device controller tag : Nat) :
    ((s.openNew file device controller).synthesize tag).channels.length = s.channels.length + 1 :=
  List.length_set.trans length_append

theorem TableInv.openNew (h : s.TableInv hw) {device : Nat} (hfile : file < hw.fileCount)
    (hclosed : s.files file = none) (hpc : s.pc.callsBack = true)
    (hnew : ∀ channel ∈ s.channels, channel.controller ≠ (hw.device device).controller) :
    ((s.openNew file device (hw.device device).controller).synthesize tag).TableInv hw := by
  have hlen : s.entries.length = s.channels.length := List.length_map ..
  have hlast : (s.entries ++ [(⟨(hw.device device).controller, s.nextQpair, 0⟩ : Entry)])[
      s.channels.length]? = some ⟨(hw.device device).controller, s.nextQpair, 0⟩ := by
    rw [← hlen, List.getElem?_concat_length]
  have hentries := entries_openNew s file device (hw.device device).controller tag
  have hlength := length_openNew s file device (hw.device device).controller tag
  refine ⟨?_, ?_, h.polls.longer (by omega) (by omega) rfl ?_ rfl⟩
  · rw [hentries]
    have hpushed := h.table.push (hw.device device).controller s.nextQpair ?_
    · refine hpushed.openFile ?_ hfile hclosed hlast device rfl
      rintro j hj
      rw [← some.inj hj]
      exact hlen
    intro e he
    obtain ⟨channel, hmem, rfl⟩ := mem_map.mp he
    exact hnew channel hmem
  · rw [Qpairs, hentries, Table.set_qpairs hlast, map_append]
    show (s.entries.map Entry.qpair ++ [s.nextQpair] ++ s.freed).Perm (List.range (s.nextQpair + 1))
    rw [List.range_succ, append_assoc]
    refine (List.perm_append_comm.append_left _).trans ?_
    rw [← append_assoc]
    exact List.Perm.append_right _ h.qpairs
  · rw [hlength]
    exact h.polls.held.changed hpc _

/-- What `SubmitCloseDirect` does: it refuses, or nothing is outstanding and it closes the file,
    with its entry if it was the last one there. -/
theorem submitCloseDirect_cases (s : Backend) (file tag : Nat) :
    (s.submitCloseDirect file tag) = (false, s) ∨
    ∃ opened channel, s.files file = some opened ∧ s.outstanding = 0 ∧
      s.channels[opened.channelIndex]? = some channel ∧
      ((channel.openFiles - 1 = 0 ∧ s.submitCloseDirect file tag = (true,
          ((s.eraseChannel opened.channelIndex channel.qpair).setFile file none).synthesize tag)) ∨
        (channel.openFiles - 1 ≠ 0 ∧ s.submitCloseDirect file tag = (true,
          ((s.setChannel opened.channelIndex
            { channel with openFiles := channel.openFiles - 1 }).setFile file none).synthesize
              tag))) := by
  rw [submitCloseDirect]
  rcases hfile : s.files file with _ | opened
  · exact .inl rfl
  dsimp only
  split
  · exact .inl rfl
  rename_i hidle
  rcases hchannel : s.channels[opened.channelIndex]? with _ | channel
  · exact .inl rfl
  refine .inr ⟨opened, channel, rfl, not_not.mp hidle, hchannel, ?_⟩
  dsimp only
  split
  · rename_i hlast
    exact .inl ⟨hlast, rfl⟩
  rename_i hmore
  exact .inr ⟨hmore, rfl⟩

section

variable (h : s.TableInv hw) {opened : OpenFile} (hfile : s.files file = some opened)
include h hfile

theorem TableInv.closeFile (hchannel : s.channels[opened.channelIndex]? = some channel)
    (hmore : channel.openFiles - 1 ≠ 0) :
    (((s.setChannel opened.channelIndex
      { channel with openFiles := channel.openFiles - 1 }).setFile file none).synthesize
        tag).TableInv hw :=
  h.setOpenFiles hchannel (h.table.closeFile hfile (getElem?_entries hchannel) hmore)

theorem TableInv.closeLast (hpc : s.pc.callsBack = true)
    (hchannel : s.channels[opened.channelIndex]? = some channel)
    (hlast : channel.openFiles - 1 = 0) :
    (((s.eraseChannel opened.channelIndex channel.qpair).setFile file none).synthesize
      tag).TableInv hw := by
  have hentry := getElem?_entries hchannel
  have hentries : (((s.eraseChannel opened.channelIndex channel.qpair).setFile file
      none).synthesize tag).entries = s.entries.eraseIdx opened.channelIndex :=
    (List.eraseIdx_map ..).symm
  refine ⟨?_, ?_, ?_, h.polls.held.changed hpc _, h.polls.uses⟩
  · rw [hentries]
    exact h.table.erase hfile hentry hlast
  · rw [Qpairs, hentries, ← List.eraseIdx_map]
    show (_ ++ (s.freed ++ [channel.qpair])).Perm (List.range s.nextQpair)
    have hqpair : (s.entries.map Entry.qpair)[opened.channelIndex]? = some channel.qpair := by
      rw [List.getElem?_map, hentry]
      rfl
    obtain ⟨hlt, hget⟩ := List.getElem?_eq_some_iff.mp hqpair
    have hperm := List.getElem_cons_eraseIdx_perm hlt
    rw [hget] at hperm
    rw [← append_assoc]
    refine (List.perm_append_singleton _ _).trans ?_
    exact (List.Perm.append_right s.freed hperm).trans h.qpairs
  · show (if (s.channels.eraseIdx opened.channelIndex).isEmpty then 0
      else if (s.channels.eraseIdx opened.channelIndex).length ≤ s.nextPollChannel then
        s.nextPollChannel % (s.channels.eraseIdx opened.channelIndex).length
      else s.nextPollChannel) < (s.channels.eraseIdx opened.channelIndex).length ∨
      (s.channels.eraseIdx opened.channelIndex = [] ∧ _)
    split
    · rename_i hempty
      exact .inr ⟨List.isEmpty_iff.mp hempty, if_pos hempty⟩
    rename_i hempty
    have hpos : 0 < (s.channels.eraseIdx opened.channelIndex).length :=
      List.length_pos_iff.mpr fun hnil => hempty (List.isEmpty_iff.mpr hnil)
    refine .inl ?_
    split
    · exact Nat.mod_lt _ hpos
    · omega

end

theorem step_tableInv (h : s.TableInv hw) (hstep : s.step hw label = some s') : s'.TableInv hw := by
  rw [step] at hstep
  split at hstep
  · rename_i result hsubmit
    refine of_guard hstep fun hpc => ?_
    cases label with
    | openFile file device available tag =>
      cases hsubmit
      rcases submitOpenDirect_cases hw s file device available tag with heq |
        ⟨hfile, hnone, hopened⟩
      · rw [heq]
        exact h
      rcases hopened with ⟨index, channel, hchannel, hcontroller, heq⟩ | ⟨hnew, heq⟩
      · rw [heq]
        exact h.openOn hfile hnone hchannel hcontroller
      rw [heq]
      exact h.openNew hfile hnone hpc hnew
    | closeFile file tag =>
      cases hsubmit
      rcases submitCloseDirect_cases s file tag with
        heq | ⟨opened, channel, hfile, -, hchannel, ⟨hlast, heq⟩ | ⟨hmore, heq⟩⟩
      · rw [heq]
        exact h
      · rw [heq]
        exact h.closeLast hfile hpc hchannel hlast
      · rw [heq]
        exact h.closeFile hfile hchannel hmore
    | io file buffer bytes offset write tag answer =>
      cases hsubmit
      have hsub := submitIo_submits hw s file buffer bytes offset write tag answer
      exact h.same hsub.toSameTable (h.polls.submits hsub)
    | flush file tag answer =>
      cases hsubmit
      have hsub := submitFdatasync_submits hw s file tag answer
      exact h.same hsub.toSameTable (h.polls.submits hsub)
    | poll | deliver | visit | callback | processed | retry | checked => cases hsubmit
  · obtain ⟨hsame, hpolls⟩ := advance_polls h.polls hstep
    exact h.same hsame hpolls

theorem tableInv_fresh (hw : Hardware) : Backend.fresh.TableInv hw where
  table := .empty hw
  qpairs := List.Perm.refl _
  polls := ⟨.inr ⟨rfl, rfl⟩, trivial, fun _ hu => absurd hu not_mem_nil⟩

theorem reachable_tableInv (hs : (backendSystem hw).Reachable s) : s.TableInv hw := by
  refine Reachable.invariant (P := TableInv hw) ?_ (fun _ _ _ h hstep => step_tableInv h hstep) hs
  rintro s rfl
  exact tableInv_fresh hw

/-! ## The result -/

/-- A queue pair is given back by the close of its last file, and at no other time. -/
theorem step_freed (h : s.TableInv hw) (hstep : s.step hw label = some s') :
    s'.freed = s.freed ∨ ∃ file tag opened channel, label = .closeFile file tag ∧
      s.files file = some opened ∧ s.channels[opened.channelIndex]? = some channel ∧
      channel.openFiles = 1 ∧ s'.freed = s.freed ++ [channel.qpair] := by
  rw [step] at hstep
  split at hstep
  · rename_i result hsubmit
    obtain ⟨-, heq⟩ := ite_none_right_eq_some.mp hstep
    cases heq
    cases label with
    | openFile file device available tag =>
      cases hsubmit
      refine .inl ?_
      rcases submitOpenDirect_cases hw s file device available tag with
        heq | ⟨-, -, ⟨index, channel, -, -, heq⟩ | ⟨-, heq⟩⟩
      all_goals
        rw [heq]
        try rfl
    | closeFile file tag =>
      cases hsubmit
      rcases submitCloseDirect_cases s file tag with
        heq | ⟨opened, channel, hfile, -, hchannel, ⟨hlast, heq⟩ | ⟨-, heq⟩⟩
      · rw [heq]
        exact .inl rfl
      · rw [heq]
        refine .inr ⟨file, tag, opened, channel, rfl, hfile, hchannel, ?_, rfl⟩
        have hpos : 0 < channel.openFiles :=
          h.table.used opened.channelIndex channel.toEntry (getElem?_entries hchannel) (by simp)
        omega
      · rw [heq]
        exact .inl rfl
    | io file buffer bytes offset write tag answer =>
      cases hsubmit
      exact .inl (submitIo_submits hw s file buffer bytes offset write tag answer).freed
    | flush file tag answer =>
      cases hsubmit
      exact .inl (submitFdatasync_submits hw s file tag answer).freed
    | poll | deliver | visit | callback | processed | retry | checked => cases hsubmit
  · exact .inl (advance_polls h.polls hstep).1.freed

/-- **The channel table is consistent.** -/
structure Consistent (hw : Hardware) (s : Backend) : Prop where
  one : ∀ (i j : Nat) (c d : Channel), s.channels[i]? = some c → s.channels[j]? = some d →
    c.controller = d.controller → i = j
  file : ∀ f o, s.files f = some o → ∃ c, s.channels[o.channelIndex]? = some c ∧
    c.controller = (hw.device o.device).controller ∧ c.qpair = o.qpair
  count : ∀ (i : Nat) (c : Channel), s.channels[i]? = some c →
    c.openFiles = users s.files hw.fileCount i ∧ 0 < c.openFiles
  qpair : ∀ q < s.nextQpair, (s.freed.count q = 0 ∧ ∃ c ∈ s.channels, c.qpair = q) ∨
    (s.freed.count q = 1 ∧ ∀ c ∈ s.channels, c.qpair ≠ q)
  frees : ∀ label s', s.step hw label = some s' →
    s'.freed = s.freed ∨ ∃ file tag opened channel, label = .closeFile file tag ∧
      s.files file = some opened ∧ s.channels[opened.channelIndex]? = some channel ∧
      channel.openFiles = 1 ∧ s'.freed = s.freed ++ [channel.qpair]
  cursor : s.nextPollChannel < s.channels.length ∨ (s.channels = [] ∧ s.nextPollChannel = 0)
  uses : ∀ u ∈ s.uses, u.held = u.generation ∧ u.index < u.size

theorem TableInv.one (h : s.TableInv hw) {i j : Nat} {c d : Channel}
    (hi : s.channels[i]? = some c) (hj : s.channels[j]? = some d)
    (heq : c.controller = d.controller) : i = j := by
  have hat : ∀ {k : Nat} {x : Channel}, s.channels[k]? = some x →
      (s.entries.map Entry.controller)[k]? = some x.controller := by
    intro k x hk
    rw [List.getElem?_map, getElem?_entries hk]
    rfl
  have hi' := hat hi
  rw [heq, ← hat hj] at hi'
  have hlt := (List.getElem?_eq_some_iff.mp (hat hi)).1
  exact (List.getElem?_inj hlt h.table.controllers).mp hi'

theorem TableInv.qpair (h : s.TableInv hw) {q : Nat} (hq : q < s.nextQpair) :
    (s.freed.count q = 0 ∧ ∃ c ∈ s.channels, c.qpair = q) ∨
      (s.freed.count q = 1 ∧ ∀ c ∈ s.channels, c.qpair ≠ q) := by
  have hmap : s.entries.map Entry.qpair = s.channels.map fun c => c.qpair := List.map_map
  have hcount : (s.channels.map fun c => c.qpair).count q + s.freed.count q = 1 := by
    rw [← count_append, ← hmap, h.qpairs.count_eq, List.nodup_range.count,
      if_pos (mem_range.mpr hq)]
  by_cases hmem : q ∈ s.channels.map fun c => c.qpair
  · have hpos := count_pos_iff.mpr hmem
    exact .inl ⟨by omega, mem_map.mp hmem⟩
  have hzero := count_eq_zero.mpr hmem
  refine .inr ⟨by omega, fun c hc heq => hmem ?_⟩
  exact mem_map.mpr ⟨c, hc, heq⟩

theorem TableInv.consistent (h : s.TableInv hw) : s.Consistent hw where
  one _ _ _ _ hi hj heq := h.one hi hj heq
  file f o hfile := by
    obtain ⟨-, e, hentry, hrest⟩ := h.table.file f o hfile
    rw [entries, List.getElem?_map] at hentry
    obtain ⟨c, hc, rfl⟩ := map_eq_some_iff.mp hentry
    exact ⟨c, hc, hrest⟩
  count i c hc := ⟨h.table.count i _ (getElem?_entries hc),
    h.table.used i _ (getElem?_entries hc) (by simp)⟩
  qpair _ hq := h.qpair hq
  frees _ _ hstep := step_freed h hstep
  cursor := h.polls.cursor
  uses := h.polls.uses

/-- **The channel table stays consistent** in every run, whatever the driver answers and wherever
    the callbacks open and close. -/
theorem reachable_channels (hs : (backendSystem hw).Reachable s) : s.Consistent hw :=
  (reachable_tableInv hs).consistent

/-- Two files on two controllers. -/
def twoControllers : Hardware := ⟨fun device => ⟨device, 9, 4096⟩, fun _ => false, 2⟩

/-- While the first queue pair is processed, the callback of a read closes its file: the channel
    goes, and the other one moves to the front. -/
def closeWhilePolling : List Label :=
  [.openFile 0 0 true 10, .openFile 1 1 true 11, .io 0 1 512 0 false 12 ⟨.ok, false, true⟩, .poll 0,
    .deliver, .deliver, .deliver, .visit, .callback 0 false, .closeFile 0 12, .processed 1]

theorem closeWhilePolling_consistent :
    ∃ s, (backendSystem twoControllers).run .fresh closeWhilePolling = some s ∧ s.pc = .idle ∧
      s.freed = [0] ∧ s.files 1 = some ⟨1, 1, 0⟩ ∧ s.Consistent twoControllers :=
  ⟨_, rfl, rfl, rfl, rfl, reachable_channels (.run (.init rfl) closeWhilePolling rfl)⟩

/-! ## The loop of `Poll` -/

/-- **The head of the loop decides as `pollLoop` does**, which takes the rest of a round at once: it
    ends with the cursor at the channel, or takes the channel, and goes on from the next one with
    what the driver and `RetryDeferred` completed. -/
theorem visit_pollLoop {p : Pass} (hs : s.visit p = some s') (hlt : p.visited < p.channelCount)
    (turn : Nat → Visit) (left : Nat) :
    let loop := pollLoop p.maxCompletions p.channelCount p.firstChannel turn
    let now := loop (left + 1) p.visited p.completions s.nextPollChannel
    let completed := (turn p.index).completed (remaining p.maxCompletions p.completions)
    let later := loop left (p.visited + 1)
      (count32 (p.completions + completed.toNat + (turn p.index).retryErrors)) s'.nextPollChannel
    (s'.pc = .idle ∧ now = ([], s'.nextPollChannel)) ∨
      (∃ qpair, s'.pc = .processing p p.index qpair) ∧ now = (p.index :: later.1, later.2) := by
  rw [Backend.visit, if_pos hlt] at hs
  dsimp only
  rw [pollLoop]
  split at hs
  · next hend =>
    cases hs
    exact .inl ⟨rfl, if_pos hend⟩
  · next hmore =>
    split at hs <;> cases hs
    exact .inr ⟨⟨_, rfl⟩, if_neg hmore⟩

end Backend

end Bycorf.Spdk
