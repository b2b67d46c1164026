/-
  The receive side of a connection's record: what the functions of the worker and the handler of a
  receive completion make of it.

  1. **Any step** — `Lives` is what EVERY step does to the record of a connection that stays: it is
     closed only by the steps that close it, a pause is never lifted, and a paused connection is
     never armed.
  2. **Steps that are not about receiving** — `Keeps`, and `Same` where nothing of the receive side
     changes.
  3. **Receive completions** — `handleMultishotRecv_receives`: a reader that still waits afterwards
     has been told nothing, and only `-ECANCELED` and `-ENOBUFS` are told to nobody.
-/
import Bycorf.Net.Reclaim

namespace Bycorf.Net

open IoUring Lib

/-! ## What a step makes of a record -/

namespace Connection

/-- What every step keeps of a record; `closes` says that the step may close the connection. -/
structure Lives (closes : Prop) (conn conn' : Connection) : Prop where
  stays : conn.usable = true → conn'.usable = true ∨ closes
  paused : conn.recvPaused = true → conn'.recvPaused = true
  arms : conn'.recvArmed = true → conn.recvArmed = true ∨ conn.recvPaused = false

/-- What a step keeps that is not about receiving. -/
structure Keeps (closes : Prop) (conn conn' : Connection) : Prop
    extends Lives closes conn conn' where
  reader : conn'.readWaiter = conn.readWaiter ∨ conn'.usable = false
  usable : conn'.usable = true → conn.usable = true
  pause : conn'.recvPaused = conn.recvPaused
  armed : conn.recvArmed = true → conn'.recvArmed = true
  rearm : conn'.needsRecvRearm = conn.needsRecvRearm
  eof : conn'.usable = true → conn'.recvEof = conn.recvEof
  buffers : conn.receivedBuffers = [] → conn'.receivedBuffers = []

/-- The receive side is the same. -/
structure Same (conn conn' : Connection) : Prop where
  readWaiter : conn'.readWaiter = conn.readWaiter := by rfl
  state : conn'.state = conn.state := by rfl
  closed : conn'.closed = conn.closed := by rfl
  closing : conn'.closing = conn.closing := by rfl
  recvPaused : conn'.recvPaused = conn.recvPaused := by rfl
  recvArmed : conn'.recvArmed = conn.recvArmed := by rfl
  needsRecvRearm : conn'.needsRecvRearm = conn.needsRecvRearm := by rfl
  recvEof : conn'.recvEof = conn.recvEof := by rfl
  receivedBuffers : conn'.receivedBuffers = conn.receivedBuffers := by rfl

variable {conn conn' : Connection}

theorem Same.usable_eq (h : conn.Same conn') : conn'.usable = conn.usable := by
  unfold Connection.usable
  rw [h.state, h.closed, h.closing]

theorem Same.keeps (h : conn.Same conn') (closes : Prop) : Keeps closes conn conn' where
  stays hu := .inl (h.usable_eq.trans hu)
  paused hp := h.recvPaused.trans hp
  arms ha := .inl (h.recvArmed.symm.trans ha)
  reader := .inl h.readWaiter
  usable hu := h.usable_eq.symm.trans hu
  pause := h.recvPaused
  armed ha := h.recvArmed.trans ha
  rearm := h.needsRecvRearm
  eof _ := h.recvEof
  buffers hb := h.receivedBuffers.trans hb

theorem Keeps.refl (closes : Prop) (conn : Connection) : Keeps closes conn conn :=
  Same.keeps {} closes

variable {closes : Prop}

theorem Keeps.trans {conn conn'' : Connection} (h : Keeps closes conn conn')
    (h' : Keeps closes conn' conn'') : Keeps closes conn conn'' where
  stays hu := (h.stays hu).elim h'.stays .inr
  paused hp := h'.paused (h.paused hp)
  arms ha := (h'.arms ha).elim h.arms fun hp => .inr (h.pause.symm.trans hp)
  reader := by
    rcases h'.reader with heq | hno
    · rcases h.reader with heq' | hno'
      · exact .inl (heq.trans heq')
      · refine .inr ?_
        cases hu : conn''.usable with
        | false => rfl
        | true => exact absurd ((h'.usable hu).symm.trans hno') (by decide)
    · exact .inr hno
  usable hu := h.usable (h'.usable hu)
  pause := h'.pause.trans h.pause
  armed ha := h'.armed (h.armed ha)
  rearm := h'.rearm.trans h.rearm
  eof hu := (h'.eof hu).trans (h.eof (h'.usable hu))
  buffers hb := h'.buffers (h.buffers hb)

/-- A record that is closed keeps only what does not depend on being open. -/
theorem keeps_of_unusable (hno : conn'.usable = false)
    (hcloses : conn.usable = true → closes) (hpause : conn'.recvPaused = conn.recvPaused)
    (harmed : conn'.recvArmed = conn.recvArmed)
    (hrearm : conn'.needsRecvRearm = conn.needsRecvRearm)
    (hbuffers : conn.receivedBuffers = [] → conn'.receivedBuffers = []) :
    Keeps closes conn conn' where
  stays hu := .inr (hcloses hu)
  paused hp := hpause.trans hp
  arms ha := .inl (harmed.symm.trans ha)
  reader := .inr hno
  usable hu := absurd (hno.symm.trans hu) (by decide)
  pause := hpause
  armed ha := harmed.trans ha
  rearm := hrearm
  eof hu := absurd (hno.symm.trans hu) (by decide)
  buffers := hbuffers

theorem usable_eq_false_of_state (h : conn.state ≠ .active) : conn.usable = false := by
  simp [Connection.usable, h]

theorem usable_iff :
    conn.usable = true ↔ conn.state = .active ∧ conn.closed = false ∧ conn.closing = false := by
  simp [Connection.usable, and_assoc]

theorem allocateReadBuffer_same (o : Options) (conn : Connection) :
    conn.Same (conn.allocateReadBuffer o) := by
  unfold allocateReadBuffer
  split <;> exact {}

/-- What `BeginClose` makes of a record. -/
structure Closed (conn conn' : Connection) : Prop where
  unusable : conn'.usable = false
  recvPaused : conn'.recvPaused = conn.recvPaused
  recvArmed : conn'.recvArmed = conn.recvArmed
  needsRecvRearm : conn'.needsRecvRearm = conn.needsRecvRearm
  receivedBuffers : conn.receivedBuffers = [] → conn'.receivedBuffers = []

theorem Closed.keeps (h : conn.Closed conn')
    (hcloses : conn.usable = true → closes) : conn.Keeps closes conn' :=
  keeps_of_unusable h.unusable hcloses h.recvPaused h.recvArmed h.needsRecvRearm h.receivedBuffers

theorem beginClose_closed (conn : Connection) (reason : Status) (mode : CloseMode) :
    conn.Closed (conn.beginClose reason mode).2 := by
  unfold Connection.beginClose Connection.takeReader
  dsimp only
  split <;> exact ⟨rfl, rfl, rfl, rfl, id⟩

theorem Closed.retire (h : conn.Closed conn') : conn.Closed conn'.retire := by
  refine ⟨?_, h.recvPaused, h.recvArmed, h.needsRecvRearm, fun _ => rfl⟩
  refine usable_eq_false_of_state ?_
  unfold Connection.retire
  split <;> exact ConnectionState.noConfusion

/-- `ReadOperation::await_suspend` gets as far as arming the receive. -/
def mustWait (conn : Connection) : Bool :=
  conn.usable && conn.receivedBuffers.isEmpty && !conn.recvEof && conn.lastError.isOk &&
    !conn.readInflight && conn.readWaiter.isNone

theorem mustWait_iff :
    conn.mustWait = true ↔ conn.usable = true ∧ conn.receivedBuffers = [] ∧ conn.recvEof = false ∧
      conn.lastError.isOk = true ∧ conn.readInflight = false ∧ conn.readWaiter = none := by
  simp [mustWait, and_assoc]

/-- A reader is registered. -/
structure Waits (conn conn' : Connection) : Prop where
  mustWait : conn.mustWait = true
  same : ({ conn with readWaiter := conn'.readWaiter, recvArmed := conn'.recvArmed } :
    Connection).Same conn'
  armed : conn'.recvArmed = true ∨ conn.recvPaused = true
  arms : conn'.recvArmed = true → conn.recvArmed = true ∨ conn.recvPaused = false

/-- A re-arm from the batch has been made. -/
structure Rearmed (conn conn' : Connection) : Prop where
  same : ({ conn with needsRecvRearm := false, recvArmed := conn'.recvArmed } :
    Connection).Same conn'
  armed : conn.recvArmed = true → conn'.recvArmed = true
  arms : conn'.recvArmed = true → conn.recvArmed = true ∨ conn.recvPaused = false
  made : conn.usable = true → conn.recvEof = false → conn.recvPaused = false →
    conn.receivedBuffers = [] → conn'.recvArmed = true

/-! ## Receive completions -/

section Receives

variable (o : Options) (now : Int) (cqe : Cqe Tag) (conn : Connection)

/-- What the terminal part of `HandleMultishotRecv` makes of a record; `queued` says that it joins
    the re-arm queue. -/
structure Ends (conn conn' : Connection) (queued : Bool) : Prop where
  usable : conn'.usable = conn.usable
  recvPaused : conn'.recvPaused = conn.recvPaused
  recvArmed : conn'.recvArmed = (conn.recvArmed && cqe.more)
  queues : conn'.needsRecvRearm = true → conn.needsRecvRearm = true ∨ queued = true
  rearm : conn.needsRecvRearm = true → conn'.needsRecvRearm = true
  ends : cqe.more = false → conn.useMultishot o = true → conn.recvPaused = false →
    conn.usable = true → conn'.recvEof = false → conn'.needsRecvRearm = true

/-- What `HandleMultishotRecv` makes of a record: a reader that still waits has been told
    nothing. -/
structure Receives (conn conn' : Connection) (queued : Bool) : Prop
    extends Ends o cqe conn conn' queued where
  reader : conn'.readWaiter.isSome = true → conn'.readWaiter = conn.readWaiter ∧
    conn'.receivedBuffers = conn.receivedBuffers ∧ conn'.recvEof = conn.recvEof ∧
    (cqe.res = -eCanceled ∨ cqe.res = -eNobufs)

theorem recvResult_same : ({ conn with
      receivedBuffers := (conn.recvResult o now cqe).2.receivedBuffers
      recvEof := (conn.recvResult o now cqe).2.recvEof } : Connection).Same
      (conn.recvResult o now cqe).2 := by
  unfold recvResult
  split
  · exact {}
  split
  · exact {}
  split
  · exact {}
  · split <;> exact {}

theorem recvResult_mode : (conn.recvResult o now cqe).2.useMultishot o = conn.useMultishot o := by
  unfold recvResult
  split
  · rfl
  split
  · rfl
  split
  · rfl
  · split <;> rfl

/-- Nobody is notified of `-ECANCELED` and `-ENOBUFS` only. -/
theorem recvResult_silent (h : (conn.recvResult o now cqe).1 = false) :
    (conn.recvResult o now cqe).2 = conn ∧ (cqe.res = -eCanceled ∨ cqe.res = -eNobufs) := by
  unfold recvResult at h ⊢
  split at h
  · cases h
  split at h
  · cases h
  rename_i hzero
  split at h
  · cases h
  rename_i hnot
  split at h
  · cases h
  rename_i hpos
  rw [if_neg ‹_›, if_neg hzero, if_neg hnot, if_neg hpos]
  refine ⟨rfl, ?_⟩
  have hneg : cqe.res < 0 := by omega
  by_contra hother
  rw [not_or] at hother
  exact hnot ⟨hneg, hother⟩

/-- The terminal part leaves the data and the reader alone. -/
theorem recvEnd_spec : (conn.recvEnd o).2.usable = conn.usable ∧ ({ conn with
      state := (conn.recvEnd o).2.state, recvArmed := false
      needsRecvRearm := (conn.recvEnd o).2.needsRecvRearm } : Connection).Same (conn.recvEnd o).2 ∧
    ((conn.recvEnd o).2.needsRecvRearm = true →
      conn.needsRecvRearm = true ∨ (conn.recvEnd o).1 = true) ∧
    (conn.needsRecvRearm = true → (conn.recvEnd o).2.needsRecvRearm = true) ∧
    (conn.useMultishot o = true → conn.recvPaused = false → conn.usable = true →
      conn.recvEof = false → (conn.recvEnd o).2.needsRecvRearm = true) := by
  unfold recvEnd
  dsimp only
  split
  · split
    next hneeds => exact ⟨rfl, {}, .inl, id, fun _ _ _ _ => hneeds⟩
    next => exact ⟨rfl, {}, fun _ => .inr rfl, fun _ => rfl, fun _ _ _ _ => rfl⟩
  rename_i hno
  have hends : conn.useMultishot o = true → conn.recvPaused = false → conn.usable = true →
      conn.recvEof = false → conn.needsRecvRearm = true :=
    fun hm hp hu he => absurd ⟨hm, hp, hu, he⟩ hno
  split
  next hstate =>
    refine ⟨?_, {}, .inl, id, hends⟩
    rw [usable_eq_false_of_state hstate]
    exact usable_eq_false_of_state ConnectionState.noConfusion
  next => exact ⟨rfl, {}, .inl, id, hends⟩

variable {o cqe conn} in
theorem Ends.takeReader {conn' : Connection} {queued : Bool} (h : Ends o cqe conn conn' queued) :
    Ends o cqe conn conn'.takeReader.2 queued := by
  unfold Connection.takeReader
  split <;> exact { h with }

theorem takeReader_readWaiter : conn.takeReader.2.readWaiter = none := by
  unfold takeReader
  split
  · rfl
  next hnone => exact hnone

theorem recvResult_ends (hmore : cqe.more = true) :
    Ends o cqe conn (conn.recvResult o now cqe).2 false := by
  have hsame := conn.recvResult_same o now cqe
  exact ⟨hsame.usable_eq, hsame.recvPaused, by rw [hsame.recvArmed, hmore, Bool.and_true],
    fun hn => .inl (hsame.needsRecvRearm ▸ hn), hsame.needsRecvRearm.trans,
    fun hno => absurd (hmore.symm.trans hno) (by decide)⟩

theorem recvEnd_ends (hmore : cqe.more = false) :
    Ends o cqe conn ((conn.recvResult o now cqe).2.recvEnd o).2
      ((conn.recvResult o now cqe).2.recvEnd o).1 := by
  have hsame := conn.recvResult_same o now cqe
  have hmode := conn.recvResult_mode o now cqe
  generalize conn.recvResult o now cqe = result at hsame hmode ⊢
  obtain ⟨husable, hend, hqueues, hrearm, hends⟩ := recvEnd_spec o result.2
  have huse : result.2.usable = conn.usable := hsame.usable_eq
  have hneeds : result.2.needsRecvRearm = conn.needsRecvRearm := hsame.needsRecvRearm
  have hpaused : result.2.recvPaused = conn.recvPaused := hsame.recvPaused
  refine ⟨husable.trans huse, hend.recvPaused.trans hpaused, ?_, ?_, ?_, ?_⟩
  · rw [hend.recvArmed, hmore, Bool.and_false]
  · rw [← hneeds]
    exact hqueues
  · rw [← hneeds]
    exact hrearm
  · intro _ hm hp hu he
    exact hends (hmode.trans hm) (hpaused.trans hp) (huse.trans hu) (hend.recvEof.symm.trans he)

/-- **`HandleMultishotRecv`, on the receive side.** -/
theorem handleMultishotRecv_receives : Receives o cqe conn (conn.handleMultishotRecv o now cqe).conn
      (conn.handleMultishotRecv o now cqe).rearm := by
  have hends : Ends o cqe conn
      (if cqe.more then (false, (conn.recvResult o now cqe).2)
        else (conn.recvResult o now cqe).2.recvEnd o).2
      (if cqe.more then (false, (conn.recvResult o now cqe).2)
        else (conn.recvResult o now cqe).2.recvEnd o).1 := by
    cases hmore : cqe.more with
    | true => exact recvResult_ends o now cqe conn hmore
    | false => exact recvEnd_ends o now cqe conn hmore
  unfold handleMultishotRecv
  dsimp only
  split
  · refine ⟨hends.takeReader, fun hreader => ?_⟩
    rw [takeReader_readWaiter] at hreader
    cases hreader
  rename_i hsilent
  obtain ⟨hconn, hres⟩ := recvResult_silent o now cqe conn (Bool.eq_false_of_not_eq_true hsilent)
  refine ⟨hends, fun _ => ?_⟩
  rw [hconn]
  cases hmore : cqe.more with
  | true => exact ⟨rfl, rfl, rfl, hres⟩
  | false =>
    have hend := (recvEnd_spec o conn).2.1
    exact ⟨hend.readWaiter, hend.receivedBuffers, hend.recvEof, hres⟩

end Receives

theorem Receives.lives {o : Options} {cqe : Cqe Tag} {queued : Bool}
    (h : Receives o cqe conn conn' queued) (closes : Prop) : conn.Lives closes conn' where
  stays hu := .inl (h.usable.trans hu)
  paused hp := h.recvPaused.trans hp
  arms ha := by
    rw [h.recvArmed, and_eq_true] at ha
    exact .inl ha.1

theorem Waits.lives (h : conn.Waits conn') (closes : Prop) : conn.Lives closes conn' where
  stays hu := .inl (h.same.usable_eq.trans hu)
  paused hp := h.same.recvPaused.trans hp
  arms := h.arms

theorem Rearmed.lives (h : conn.Rearmed conn') (closes : Prop) : conn.Lives closes conn' where
  stays hu := .inl (h.same.usable_eq.trans hu)
  paused hp := h.same.recvPaused.trans hp
  arms := h.arms

end Connection

end Bycorf.Net
