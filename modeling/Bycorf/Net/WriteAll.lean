/-
  `TcpStream::WriteAll`, `WriteRawAll` and `WriteAllV`: loops over partial writes.

  1. **Program** — a write offers bytes to the transport and gets an answer: a count, or an error.
     The loops run against ANY sequence of answers, and leave a record of their writes.  On a TLS
     stream `WriteSomeV` offers only the first nonempty buffer of what it is supplied with.
  2. **Spec** — the bytes accepted are, write by write, the front of what was offered.
  3. **Result** (`writes_send_exactly`) — while every answer is at least 1 and at most what was
     offered, accepted and unsent bytes together are the input; an answer outside of that ends the
     loop with an error.

  A count beyond the bytes offered is noticed by `WriteAllV` only, and only if it is beyond ALL the
  bytes that it still holds.
-/
import Mathlib.Data.List.Basic
import Bycorf.Base.Status

namespace Bycorf.Net

/-! ## The program -/

/-- What a write returns, `absl::StatusOr<std::size_t>`. -/
inductive Answer where
  | wrote (count : Nat)
  | failed (status : Status) (h : status.isOk = false)

/-- One write: the bytes the loop still holds, those it offers, and the answer. -/
structure WriteCall where
  supplied : List UInt8
  offered : List UInt8
  answer : Answer

/-- What a loop returns, and the writes it has made. -/
structure Written where
  calls : List WriteCall
  status : Status

/-- One more write in front. -/
def Written.after (call : WriteCall) (o : Written) : Written := { o with calls := call :: o.calls }

/-- What a loop returns when a write accepts nothing. -/
def zeroError (message : String) : Status := ⟨.internal, message⟩

/-- `while (written < buffer.size())`, in front of the write number `i`. -/
def writeLoop (message : String) (answers : Nat → Answer) (buffer : List UInt8) (written i : Nat) :
    Written :=
  if _h : written < buffer.length then
    let call : WriteCall := ⟨buffer.drop written, buffer.drop written, answers i⟩
    match answers i with
    | .failed status _ => ⟨[call], status⟩
    | .wrote 0 => ⟨[call], zeroError message⟩
    | .wrote (count + 1) =>
      (writeLoop message answers buffer (written + (count + 1)) (i + 1)).after call
  else ⟨[], .okStatus⟩
termination_by buffer.length - written

/-- `WriteRawAll`. -/
def writeRawAll (answers : Nat → Answer) (buffer : List UInt8) : Written :=
  writeLoop "raw WriteSome returned 0" answers buffer 0 0

/-- Plain and TLS streams run the same loop, over different writes. -/
def writeAll (answers : Nat → Answer) (buffer : List UInt8) : Written :=
  writeLoop "WriteSome returned 0" answers buffer 0 0

/-- What `WriteSomeV` offers; on a TLS stream without a nonempty buffer it returns 0 at once. -/
def writeSomeV (tls : Bool) (buffers : List (List UInt8)) : Option (List UInt8) :=
  if tls then buffers.find? fun b => !b.isEmpty else some buffers.flatten

/-- `while (first < remaining.size() && written >= remaining[first].iov_len)`. -/
def advance : Nat → List (List UInt8) → Nat × List (List UInt8)
  | written, [] => (written, [])
  | written, b :: rest =>
    if b.length ≤ written then advance (written - b.length) rest else (written, b :: rest)

/-- The rest of a write that ended inside a buffer. -/
def trim : Nat × List (List UInt8) → List (List UInt8)
  | (_, []) => []
  | (written, b :: rest) => b.drop written :: rest

/-- The bytes, and one for each buffer: a write makes this smaller. -/
def load (buffers : List (List UInt8)) : Nat := buffers.flatten.length + buffers.length

open List (flatten_cons length_append length_cons length_drop mem_cons_self prefix_refl)

theorem load_advance (written : Nat) (buffers : List (List UInt8)) :
    load (trim (advance written buffers)) ≤ load buffers := by
  induction buffers generalizing written with
  | nil => simp [advance, trim, load]
  | cons b rest ih =>
    rw [advance]
    split
    · have := ih (written - b.length)
      simp only [load, flatten_cons, length_append, length_cons] at this ⊢
      omega
    simp only [trim, load, flatten_cons, length_append, length_cons, length_drop]
    omega

theorem load_advance_lt (count : Nat) (b : List UInt8) (rest : List (List UInt8)) :
    load (trim (advance (count + 1) (b :: rest))) < load (b :: rest) := by
  rw [advance]
  split
  · have := load_advance (count + 1 - b.length) rest
    simp only [load, flatten_cons, length_append, length_cons] at this ⊢
    omega
  simp only [trim, load, flatten_cons, length_append, length_cons, length_drop]
  omega

/-- `while (first < remaining.size())`; `remaining` begins at `first`. -/
def writeLoopV (tls : Bool) (answers : Nat → Answer) (remaining : List (List UInt8)) (i : Nat) :
    Written :=
  match remaining with
  | [] => ⟨[], .okStatus⟩
  | b :: rest =>
    match writeSomeV tls (b :: rest) with
    | none => ⟨[], zeroError "WriteSomeV returned 0"⟩
    | some offered =>
      let call : WriteCall := ⟨(b :: rest).flatten, offered, answers i⟩
      match answers i with
      | .failed status _ => ⟨[call], status⟩
      | .wrote 0 => ⟨[call], zeroError "WriteSomeV returned 0"⟩
      | .wrote (count + 1) =>
        let a := advance (count + 1) (b :: rest)
        if a.2 = [] ∧ a.1 ≠ 0 then
          ⟨[call], ⟨.internal, "WriteSomeV wrote beyond the supplied buffers"⟩⟩
        else (writeLoopV tls answers (trim a) (i + 1)).after call
termination_by load remaining
decreasing_by exact load_advance_lt count b rest

/-- `WriteAllV`: the empty buffers are left out. -/
def writeAllV (tls : Bool) (answers : Nat → Answer) (buffers : List (List UInt8)) : Written :=
  writeLoopV tls answers (buffers.filter fun b => !b.isEmpty) 0

/-! ## The specification -/

/-- The bytes that the transport took. -/
def WriteCall.taken (c : WriteCall) : List UInt8 :=
  match c.answer with
  | .wrote count => c.offered.take count
  | .failed _ _ => []

/-- The bytes that the socket accepted, in order. -/
def Written.accepted (o : Written) : List UInt8 := o.calls.flatMap WriteCall.taken

/-- At least 1 and at most the bytes offered. -/
def WriteCall.Partial (c : WriteCall) : Prop :=
  ∃ count, c.answer = .wrote count ∧ 1 ≤ count ∧ count ≤ c.offered.length

/-- An error, 0, or, for `WriteAllV`, more than it still holds. -/
def WriteCall.Fails (vector : Bool) (c : WriteCall) : Prop :=
  (∃ status h, c.answer = .failed status h) ∨ c.answer = .wrote 0 ∨
    vector = true ∧ ∃ count, c.answer = .wrote count ∧ c.supplied.length < count

/-- The input is sent exactly. -/
structure Sends (vector : Bool) (input : List UInt8) (o : Written) : Prop where
  all : (∀ c ∈ o.calls, c.Partial) →
    o.accepted = input ∧ o.status = .okStatus ∧ o.calls.length ≤ input.length
  fails : (∀ c ∈ o.calls, c.Partial ∨ c.Fails vector) → (∃ c ∈ o.calls, c.Fails vector) →
    o.status.isOk = false ∧ o.accepted <+: input

/-! ## The loops -/

section Loops

variable {vector : Bool} {input : List UInt8} {c : WriteCall} {o : Written} {count : Nat}

/-- A count within the bytes that are held. -/
theorem not_fails_wrote (hanswer : c.answer = .wrote (count + 1))
    (hle : vector = true → count + 1 ≤ c.supplied.length) : ¬c.Fails vector := by
  rintro (⟨status, hs, hfailed⟩ | hzero | ⟨hvector, k, hk, hbeyond⟩)
  · rw [hanswer] at hfailed
    cases hfailed
  · rw [hanswer] at hzero
    cases hzero
  · rw [hanswer] at hk
    cases hk
    have := hle hvector
    omega

/-- Nothing to send. -/
theorem sends_nil : Sends vector [] ⟨[], .okStatus⟩ where
  all _ := ⟨rfl, rfl, Nat.le_refl 0⟩
  fails _ h := by
    obtain ⟨_, hc, _⟩ := h
    cases hc

variable {status : Status}

/-- A loop that ends with an error after one write, which was no partial one. -/
theorem sends_failed (hstatus : status.isOk = false) (hwrote : ¬c.Partial)
    (htaken : c.taken <+: input) : Sends vector input ⟨[c], status⟩ where
  all h := absurd (h c (List.mem_singleton.mpr rfl)) hwrote
  fails _ _ := by
    refine ⟨hstatus, ?_⟩
    show [c].flatMap WriteCall.taken <+: input
    rw [List.flatMap_singleton]
    exact htaken

/-- One write, and the rest of the loop. -/
theorem sends_after (hanswer : c.answer = .wrote (count + 1))
    (hwrote : ¬c.Fails vector) (hoffered : c.offered <+: input)
    (hrest : Sends vector (input.drop (count + 1)) o) : Sends vector input (o.after c) := by
  have htaken : c.Partial → c.taken = input.take (count + 1) := by
    rintro ⟨k, hk, _, hbound⟩
    rw [hanswer] at hk
    cases hk
    obtain ⟨tail, rfl⟩ := hoffered
    unfold WriteCall.taken
    rw [hanswer]
    exact (List.take_append_of_le_length hbound).symm
  have haccepted : (o.after c).accepted = c.taken ++ o.accepted := List.flatMap_cons
  constructor
  · intro hall
    have hc := hall c (mem_cons_self ..)
    obtain ⟨hsame, hok, hlength⟩ := hrest.all fun c' hc' => hall c' (List.mem_cons_of_mem _ hc')
    obtain ⟨k, hk, _, hbound⟩ := hc
    rw [hanswer] at hk
    cases hk
    refine ⟨?_, hok, ?_⟩
    · rw [haccepted, htaken (hall c (mem_cons_self ..)), hsame, List.take_append_drop]
    · have hfits := hoffered.length_le
      rw [length_drop] at hlength
      show o.calls.length + 1 ≤ input.length
      omega
  · intro hall hfails
    have hc : c.Partial := (hall c (mem_cons_self ..)).resolve_right hwrote
    have hfails' : ∃ c' ∈ o.calls, c'.Fails vector := by
      obtain ⟨c', hc', hf⟩ := hfails
      rcases List.mem_cons.mp hc' with rfl | hmem
      · exact absurd hf hwrote
      · exact ⟨c', hmem, hf⟩
    obtain ⟨hstatus, tail, htail⟩ :=
      hrest.fails (fun c' hc' => hall c' (List.mem_cons_of_mem _ hc')) hfails'
    refine ⟨hstatus, tail, ?_⟩
    rw [haccepted, htaken hc, List.append_assoc, htail, List.take_append_drop]

theorem taken_front (c : WriteCall) (h : c.offered <+: input) : c.taken <+: input := by
  unfold WriteCall.taken
  split
  · next count _ =>
    have hfront : c.offered.take count <+: c.offered := List.take_prefix _ _
    exact hfront.trans h
  · exact List.nil_prefix

/-- An error is no partial write. -/
theorem not_partial_failed {h : status.isOk = false}
    (hanswer : c.answer = .failed status h) : ¬c.Partial := by
  rintro ⟨k, hk, _⟩
  rw [hanswer] at hk
  cases hk

theorem not_partial_zero (hanswer : c.answer = .wrote 0) : ¬c.Partial := by
  rintro ⟨k, hk, hpos, _⟩
  rw [hanswer] at hk
  cases hk
  omega

theorem writeLoop_sends (message : String) (answers : Nat → Answer) (buffer : List UInt8)
    (written i : Nat) :
    Sends false (buffer.drop written) (writeLoop message answers buffer written i) := by
  fun_induction writeLoop message answers buffer written i with
  | case1 written i hlt call status hstatus hanswer =>
    exact sends_failed hstatus (not_partial_failed hanswer)
      (taken_front call (prefix_refl _))
  | case2 written i hlt call hanswer =>
    exact sends_failed rfl (not_partial_zero hanswer) (taken_front call (prefix_refl _))
  | case3 written i hlt call count hanswer ih =>
    refine sends_after hanswer (not_fails_wrote hanswer (by simp)) (prefix_refl _) ?_
    rw [List.drop_drop]
    exact ih
  | case4 written i hge =>
    rw [List.drop_eq_nil_of_le (Nat.le_of_not_lt hge)]
    exact sends_nil

/-! ### Vectors -/

/-- What is left after a write. -/
theorem flatten_trim (written : Nat) (buffers : List (List UInt8)) :
    (trim (advance written buffers)).flatten = buffers.flatten.drop written := by
  induction buffers generalizing written with
  | nil => simp [advance, trim]
  | cons b rest ih =>
    rw [advance]
    split
    · next hle =>
      rw [ih, flatten_cons, List.drop_append, List.drop_eq_nil_of_le hle, List.nil_append]
    rename_i hlt
    show b.drop written ++ rest.flatten = (b ++ rest.flatten).drop written
    rw [List.drop_append_of_le_length (by omega)]

/-- The loop over the buffers comes to their end with bytes left exactly if the count is beyond. -/
theorem advance_beyond (written : Nat) (buffers : List (List UInt8)) :
    ((advance written buffers).2 = [] ∧ (advance written buffers).1 ≠ 0) ↔
      buffers.flatten.length < written := by
  induction buffers generalizing written with
  | nil =>
    simp only [advance, List.flatten_nil, List.length_nil, true_and]
    omega
  | cons b rest ih =>
    rw [advance]
    split
    · rw [ih, flatten_cons, length_append]
      omega
    rw [flatten_cons, length_append]
    constructor
    · rintro ⟨h, _⟩
      cases h
    · intro h
      omega

variable {buffers : List (List UInt8)}

/-- `WriteSomeV` offers the front of what it holds. -/
theorem writeSomeV_front {tls : Bool} {offered : List UInt8}
    (h : writeSomeV tls buffers = some offered) : offered <+: buffers.flatten := by
  unfold writeSomeV at h
  split at h
  · induction buffers with
    | nil => cases h
    | cons b rest ih =>
      rw [List.find?_cons] at h
      split at h
      · cases h
        exact List.prefix_append _ _
      rename_i hempty
      have hnil : b = [] := by simpa using hempty
      rw [hnil]
      exact ih h
  · cases h
    exact prefix_refl _

/-- There is something to offer. -/
theorem writeSomeV_isSome (tls : Bool)
    (h : buffers.flatten ≠ []) : writeSomeV tls buffers ≠ none := by
  unfold writeSomeV
  split
  · rw [ne_eq, List.find?_eq_none]
    intro hnone
    refine h (List.flatten_eq_nil_iff.mpr fun b hb => ?_)
    simpa using hnone b hb
  · exact Option.some_ne_none _

/-- No empty buffer comes about. -/
theorem trim_nonempty (written : Nat) (h : ∀ b ∈ buffers, b ≠ []) :
    ∀ b ∈ trim (advance written buffers), b ≠ [] := by
  induction buffers generalizing written with
  | nil => simp [advance, trim]
  | cons b rest ih =>
    have hrest : ∀ b ∈ rest, b ≠ [] := fun b hb => h b (List.mem_cons_of_mem _ hb)
    rw [advance]
    split
    · exact ih (written - b.length) hrest
    rename_i hlt
    intro b' hb'
    rcases List.mem_cons.mp hb' with rfl | hmem
    · intro hnil
      have := List.drop_eq_nil_iff.mp hnil
      exact hlt this
    · exact hrest b' hmem

theorem writeLoopV_sends (tls : Bool) (answers : Nat → Answer) (remaining : List (List UInt8))
    (i : Nat) : (∀ b ∈ remaining, b ≠ []) →
    Sends true remaining.flatten (writeLoopV tls answers remaining i) := by
  fun_induction writeLoopV tls answers remaining i with
  | case1 i => exact fun _ => sends_nil
  | case2 i b rest hnone =>
    intro hfull
    refine absurd hnone (writeSomeV_isSome tls ?_)
    rw [flatten_cons]
    exact List.append_ne_nil_of_left_ne_nil (hfull b (mem_cons_self ..)) _
  | case3 i b rest offered hsome call status hstatus hanswer =>
    exact fun _ => sends_failed hstatus (not_partial_failed hanswer)
      (taken_front call (writeSomeV_front hsome))
  | case4 i b rest offered hsome call hanswer =>
    exact fun _ => sends_failed rfl (not_partial_zero hanswer)
      (taken_front call (writeSomeV_front hsome))
  | case5 i b rest offered hsome call count hanswer a hbeyond =>
    intro _
    have hmore : (b :: rest).flatten.length < count + 1 := (advance_beyond _ _).mp hbeyond
    have hfront := writeSomeV_front hsome
    refine sends_failed rfl ?_ (taken_front call hfront)
    rintro ⟨k, hk, _, hbound⟩
    have hk' : Answer.wrote (count + 1) = .wrote k := hanswer.symm.trans hk
    cases hk'
    have hfits : offered.length ≤ (b :: rest).flatten.length := hfront.length_le
    have hbound' : count + 1 ≤ offered.length := hbound
    omega
  | case6 i b rest offered hsome call count hanswer a hwithin ih =>
    intro hfull
    have hle : count + 1 ≤ (b :: rest).flatten.length := by
      by_contra hlt
      exact hwithin ((advance_beyond _ _).mpr (by omega))
    refine sends_after hanswer (not_fails_wrote hanswer fun _ => hle) (writeSomeV_front hsome) ?_
    rw [← flatten_trim]
    exact ih (trim_nonempty _ hfull)

end Loops

/-- **`WriteAll`, `WriteRawAll` and `WriteAllV` send exactly their input**, on a plain or a TLS
    stream. -/
theorem writes_send_exactly (tls : Bool) (answers : Nat → Answer) :
    (∀ buffer, Sends false buffer (writeAll answers buffer)) ∧
      (∀ buffer, Sends false buffer (writeRawAll answers buffer)) ∧
      ∀ buffers : List (List UInt8), Sends true buffers.flatten
        (writeAllV tls answers buffers) := by
  refine ⟨fun buffer => writeLoop_sends _ answers buffer 0 0,
    fun buffer => writeLoop_sends _ answers buffer 0 0, fun buffers => ?_⟩
  have hflatten : (buffers.filter fun b => !b.isEmpty).flatten = buffers.flatten :=
    List.flatten_filter_not_isEmpty
  rw [← hflatten]
  refine writeLoopV_sends tls answers _ 0 fun b hb => ?_
  simpa using (List.mem_filter.mp hb).2

/-- Three buffers, one of them empty; the second write ends inside the last buffer. -/
example : (writeAllV false (fun i => .wrote ([1, 2, 1].getD i 1)) [[1, 2], [], [3, 4]]).accepted =
    [1, 2, 3, 4] := by
  simp [writeAllV, writeLoopV, writeSomeV, advance, trim, Written.after, Written.accepted,
    WriteCall.taken]

end Bycorf.Net
