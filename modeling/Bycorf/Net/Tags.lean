/-
  Tags say what they are on: an entry or a completion with the tag of a connection or a listener
  is the operation that the connection layer submits under that tag.

  `Tagged` collects what holds of every entry, every CQE and every deferred completion.  It is what
  lets a handler trust its tag: a send or a disconnect poll has a single completion, a provided
  buffer belongs to a receive, and a synthetic completion never carries an accepted socket.
-/
import Bycorf.Net.Changes

namespace Bycorf.Net

open IoUring Lib

/-- The opcodes a tag can stand on. -/
def tagOpcode : UserData Tag → Opcode → Bool
  | .recv _, op => op = .recv
  | .peerDisconnect _, op => op = .pollAdd
  | .completion (.write _), op => op = .send || op = .sendmsg
  | .completion (.accept _), op => op = .accept
  | _, _ => true

/-- An entry whose tag says what it is on. -/
structure EntryTagged (e : Entry Tag) : Prop where
  nop : e.op = none → outside e.sqe.userData = true
  opcode : tagOpcode e.sqe.userData e.sqe.opcode = true
  buffer : e.sqe.bufferSelect = true → ∃ c, e.sqe.userData = .recv c

/-- A CQE whose tag says what it is on. -/
structure CqeTagged (x : Cqe Tag) : Prop where
  nop : x.op = none → outside x.userData = true
  more : x.more = true →
    (∃ c, x.userData = .recv c) ∨ (∃ l, x.userData = .completion (.accept l)) ∨
      outside x.userData = true
  buffer : ∀ b, x.buffer = some b → ∃ c, x.userData = .recv c

/-- A deferred completion whose tag says what it is on. -/
structure PendingTagged (p : PendingCompletion Tag) : Prop where
  nop : p.op = none → outside p.userData = true
  result : outside p.userData = false → p.result < 0

/-- Everything under way carries a tag of its own kind. -/
structure Tagged (s : Backend Tag) : Prop where
  entries : ∀ e ∈ s.unsubmitted ++ s.kernel, EntryTagged e
  cq : ∀ x ∈ s.cq, CqeTagged x
  pending : ∀ p ∈ s.pendingCompletions ++ s.phase.batch, PendingTagged p

variable {L : Liburing Tag} {D : (ConnPtr → Option Connection) → Cqe Tag → Prop}

/-! ## New entries -/

open Backend (entryOf fresh nopEntry)

theorem opcode_entryOf (r : Request Tag) (op : Nat) :
    (entryOf L (.request r) op).sqe.opcode = r.prep.opcode := by
  simp [entryOf, prepare, Sqe.setData]

theorem userData_entryOf (sub : Submission Tag) (op : Nat) :
    (entryOf L sub op).sqe.userData = sub.userData := by
  simp [entryOf]

theorem bufferSelect_entryOf (r : Request Tag) (op : Nat) :
    (entryOf L (.request r) op).sqe.bufferSelect = r.bufferSelect := by
  simp [entryOf, prepare, Sqe.setData, (L.flags_prep r.prep).2]

theorem tagOpcode_of_outside {data : UserData Tag} (h : outside data = true) (op : Opcode) :
    tagOpcode data op = true := by
  match data, h with
  | .null, _ | .wakePoll, _ | .crossCoreWake, _ | .peerDisconnectCancel, _ | .cancelRequest, _
  | .completion (.app _), _ => rfl

theorem entryTagged_nop : EntryTagged (nopEntry L) where
  nop _ := rfl
  opcode := rfl
  buffer h := by
    have hflag : (nopEntry L).sqe.bufferSelect = false := (L.flags_prep .nop).2
    rw [hflag] at h
    cases h

variable {sub : Submission Tag}

/-- What is accepted without a word in the tables. -/
theorem entryTagged_harmless {owner : Int → Owner} {fd : Int}
    (h : Harmless owner fd sub) (op : Nat) : EntryTagged (entryOf L sub op) := by
  have hout : outside sub.userData = true := by
    cases sub with
    | request r => exact h.1
    | cancel target completion => exact h
  refine ⟨nofun, ?_, ?_⟩
  · rw [userData_entryOf]
    exact tagOpcode_of_outside hout _
  · intro hbuf
    cases sub with
    | request r =>
      rw [bufferSelect_entryOf] at hbuf
      cases r with
      | recv c file useMultishot buffer => cases hout
      | _ => cases hbuf
    | cancel target completion =>
      have hflag : (entryOf L (.cancel target completion) op).sqe.bufferSelect = false :=
        (L.flags_prep (.cancel target 0)).2
      rw [hflag] at hbuf
      cases hbuf

variable {w : Worker}

/-- The submissions of the connection layer. -/
theorem entryTagged_starts {r : Request Tag} (h : w.Starts r) (op : Nat) :
    EntryTagged (entryOf L (.request r) op) where
  nop hnone := by cases hnone
  opcode := by
    rw [userData_entryOf, opcode_entryOf]
    cases h with
    | @recv c conn _ _ => cases hshot : conn.useMultishot w.options <;> rfl
    | _ => rfl
  buffer hbuf := by
    rw [bufferSelect_entryOf] at hbuf
    rw [userData_entryOf]
    cases h with
    | @recv c conn _ _ => exact ⟨c, rfl⟩
    | _ => cases hbuf

theorem entryTagged_accepts (h : w.Accepts sub) (op : Nat) :
    EntryTagged (entryOf L sub op) := by
  rcases h with hharmless | ⟨r, rfl, hr⟩
  · exact entryTagged_harmless hharmless op
  · exact entryTagged_starts hr op

/-! ## Completions -/

/-- The completion that is dispatched is tagged too. -/
theorem Taken.cqeTagged {s b : Backend Tag} {cqe : Cqe Tag} (h : Taken s cqe b) (hs : Tagged s) :
    CqeTagged cqe := by
  cases h with
  | reap _ hcq => exact hs.cq cqe (by rw [hcq]; exact mem_cons_self)
  | @deferred c batch hphase =>
    have hmem : c ∈ s.pendingCompletions ++ s.phase.batch := by
      rw [hphase]
      exact mem_append_right _ mem_cons_self
    exact ⟨(hs.pending c hmem).nop, fun hmore => absurd hmore false_ne_true, nofun⟩

theorem tag_of_multishot {sqe : Sqe Tag} (htag : tagOpcode sqe.userData sqe.opcode = true)
    (hmulti : Worker.isMultishot sqe = true) :
    (∃ c, sqe.userData = .recv c) ∨ (∃ l, sqe.userData = .completion (.accept l)) ∨
      outside sqe.userData = true := by
  simp only [Worker.isMultishot, Bool.or_eq_true, and_eq_true, decide_eq_true_eq] at hmulti
  match hdata : sqe.userData with
  | .recv c => exact .inl ⟨c, rfl⟩
  | .completion (.accept l) => exact .inr (.inl ⟨l, rfl⟩)
  | .peerDisconnect c =>
    have hop : sqe.opcode = .pollAdd := by simpa [hdata, tagOpcode] using htag
    simp [hop] at hmulti
  | .completion (.write c) =>
    have hop : sqe.opcode = .send ∨ sqe.opcode = .sendmsg := by
      simpa [hdata, tagOpcode] using htag
    rcases hop with hop | hop <;> simp [hop] at hmulti
  | .null | .wakePoll | .crossCoreWake | .peerDisconnectCancel | .cancelRequest
  | .completion (.app _) => exact .inr (.inr rfl)

/-- The kernel answers under the tag of the operation. -/
theorem cqeTagged_of_may {e : Entry Tag} (he : EntryTagged e) {res : Int}
    {more : Bool} {buffer : Option UInt16} (hmay : w.kernelMay e res more buffer = true) :
    CqeTagged ⟨e.sqe.userData, res, more, buffer, e.op⟩ := by
  simp only [Worker.kernelMay, and_eq_true, Bool.or_eq_true, Bool.not_eq_true'] at hmay
  refine ⟨he.nop, ?_, ?_⟩
  · intro hmore
    -- only an accept or a receive has more than one completion
    have hmulti := hmay.1.1.resolve_left (by simp [show more = true from hmore])
    exact tag_of_multishot he.opcode hmulti
  · intro b hb
    obtain rfl : buffer = some b := hb
    have hsel := hmay.1.2
    simp only [Option.all_some, and_eq_true] at hsel
    exact he.buffer hsel.1

/-- A cancel request completes under a tag from outside. -/
theorem outside_cancel {target completion : UserData Tag}
    (h : w.Accepts (.cancel target completion)) : outside completion = true := by
  rcases h with hharmless | ⟨r, hr, _⟩
  · exact hharmless
  · cases hr

/-! ## Changes keep the tags -/

/-- **Every effect of a change keeps the tags.** -/
theorem Worker.Effect.tagged {b : Backend Tag} (h : Worker.Effect L w b)
    (hw : Tagged w.backend) : Tagged b where
  entries e he := by
    rcases mem_append.mp he with hu | hk
    · rcases h.mem_unsubmitted hu with hold | rfl | ⟨sub, hsub, rfl⟩
      · exact hw.entries e (mem_append_left _ hold)
      · exact entryTagged_nop
      · exact entryTagged_accepts hsub _
    rcases h.mem_kernel hk with hold | hold
    · exact hw.entries e (mem_append_right _ hold)
    · exact hw.entries e (mem_append_left _ hold)
  cq x hx := by
    rcases h.mem_cq hx with hold | rfl | ⟨e, he, res, more, buffer, hmay, rfl⟩
    · exact hw.cq x hold
    · exact ⟨fun _ => rfl, fun hmore => absurd hmore false_ne_true, nofun⟩
    · exact cqeTagged_of_may (hw.entries e (mem_append_right _ he)) hmay
  pending p hp := by
    rcases h.mem_pending hp with hold | ⟨e, he, result, hneg, rfl⟩ | ⟨target, completion, hsub, rfl⟩
    · exact hw.pending p hold
    · exact ⟨(hw.entries e (mem_append_left _ he)).nop, fun _ => hneg⟩
    · have hout : outside completion = true := outside_cancel hsub
      refine ⟨fun _ => hout, fun hin => ?_⟩
      rw [show outside completion = false from hin] at hout
      cases hout

theorem tagged_fresh (slots : List (Sqe Tag)) (wakeEventFd : Int) :
    Tagged (fresh slots wakeEventFd) := by
  refine ⟨?_, ?_, ?_⟩ <;> simp [fresh, Backend.unsubmitted, Phase.batch]

end Bycorf.Net
