/-
  `RpcClient` correlates responses with its calls.

  1. **Outcome** — what a call must come to is a function of the parsed frames alone: the payload of
     the FIRST one with its id since it was registered, or the closed connection once the reader has
     finished without one.  `Sound` says that its record and its coroutine agree with that.
  2. **Registry** — the map `pending_` holds exactly the calls that are not done, under distinct
     ids.
  3. **Framing** — the parsed frames and the retained buffer are the bytes received, however they
     were split into reads.
  4. **The crux** — `deliver_inv`: a frame touches the one call it is for; a duplicate finds its id
     gone from the map.
-/
import Bycorf.Lib.Indexed
import Bycorf.Rpc.Client

namespace Bycorf.Rpc.RpcClient

open Bycorf.Lib

/-! ## Specification -/

/-- The first response with the call's id among those parsed since it was registered. -/
def firstResponse (s : RpcClient) (c : CallFrame) : Option (WireHeader × Bytes) :=
  (s.parsed.drop c.since).find? fun f => f.1.reqId = c.id

/-- What the call comes to, as far as it is decided. -/
def outcome (s : RpcClient) (c : CallFrame) : Option (Except Status Bytes) :=
  match s.firstResponse c with
  | some f => some (.ok f.2)
  | none =>
    if s.reader = .finished ∧ c.orphan = false then some (.error connectionClosed) else none

/-- A call's record and its resumes, at each stage. -/
def Staged (c : CallFrame) : Prop :=
  match c.stage with
  | .registered => c.pending.waiter = false ∧ c.resumes = 0
  | .suspended => c.pending.waiter = true ∧ c.pending.done = false ∧ c.resumes = 0
  | .ready => c.pending.done = true ∧ c.resumes = 1
  | .returned value => c.pending.value = some value ∧ c.resumes ≤ 1

/-- What the record of a call says of the responses that were parsed since. -/
structure Sound (s : RpcClient) (c : CallFrame) : Prop where
  since_le : c.since ≤ s.parsed.length
  orphan : c.orphan = true → s.reader = .finished
  unset : c.pending.done = false → c.pending.status = Status.okStatus
  value : c.pending.value = s.outcome c
  staged : Staged c

/-- The map `pending_` and the ids. -/
structure Registry (s : RpcClient) : Prop where
  next : s.nextReqId = UInt64.ofNat (s.calls.length + 1)
  ids : ∀ k c, s.calls[k]? = some c → c.id = UInt64.ofNat (k + 1)
  waiting : ∀ e ∈ s.pending, ∃ c, s.calls[e.2]? = some c ∧ c.id = e.1 ∧ c.pending.done = false
  covered : ∀ k c, s.calls[k]? = some c → c.pending.done = false → (c.id, k) ∈ s.pending
  nodup : (s.pending.map Prod.snd).Nodup

/-- The registry and the records agree. -/
structure Inv (s : RpcClient) : Prop where
  registry : Registry s
  sound : ∀ (k : Nat) (c : CallFrame), s.calls[k]? = some c → Sound s c

variable {s : RpcClient} {c : CallFrame} {k : Nat}

/-- Fewer than 2^64 calls have distinct ids. -/
theorem Registry.id_inj (h : Registry s) (hfew : s.calls.length < 2 ^ 64) {j : Nat}
    {d : CallFrame} (hj : s.calls[j]? = some c) (hk : s.calls[k]? = some d) (hid : c.id = d.id) :
    j = k := by
  have hjlt : j < s.calls.length := (List.getElem?_eq_some_iff.mp hj).1
  have hklt : k < s.calls.length := (List.getElem?_eq_some_iff.mp hk).1
  rw [h.ids j c hj, h.ids k d hk] at hid
  have hnat := congrArg UInt64.toNat hid
  rw [UInt64.toNat_ofNat_of_lt' (by show j + 1 < 2 ^ 64; omega),
    UInt64.toNat_ofNat_of_lt' (by show k + 1 < 2 ^ 64; omega)] at hnat
  omega

section

variable (c : CallFrame)

/-! ## One call's record -/

@[simp] theorem wake_id : (wake c).id = c.id := by
  unfold wake
  dsimp only
  split <;> rfl

@[simp] theorem wake_since : (wake c).since = c.since := by
  unfold wake
  dsimp only
  split <;> rfl

@[simp] theorem wake_orphan : (wake c).orphan = c.orphan := by
  unfold wake
  dsimp only
  split <;> rfl

@[simp] theorem wake_pending : (wake c).pending = { c.pending with done := true } := by
  unfold wake
  dsimp only
  split <;> rfl

end

/-- Waking a call that is not done resumes it once if it sleeps, and not at all if it has not
    reached its `co_await`. -/
theorem Staged.wake (h : Staged c) (hdone : c.pending.done = false) {p : Pending}
    (hw : p.waiter = c.pending.waiter) : Staged (wake { c with pending := p }) := by
  unfold Staged at h
  cases hstage : c.stage with
  | registered =>
    rw [hstage] at h
    have hwaiter : p.waiter = false := hw.trans h.1
    simp [RpcClient.wake, Staged, hwaiter, h.2]
  | suspended =>
    rw [hstage] at h
    have hwaiter : p.waiter = true := hw.trans h.1
    simp [RpcClient.wake, Staged, hwaiter, h.2.2]
  | ready =>
    rw [hstage] at h
    exact absurd (hdone.symm.trans h.1) (by decide)
  | returned value =>
    rw [hstage] at h
    have hnone : c.pending.value = none := by simp [Pending.value, hdone]
    exact absurd (hnone.symm.trans h.1) (by simp)

/-- A sleeping call is resumed by a wake. -/
theorem wake_suspended (h : Staged c) (hstage : c.stage = .suspended) {p : Pending}
    (hw : p.waiter = c.pending.waiter) :
    (wake { c with pending := p }).stage = .ready ∧ (wake { c with pending := p }).resumes = 1 := by
  unfold Staged at h
  rw [hstage] at h
  have hwaiter : p.waiter = true := hw.trans h.1
  simp [wake, hwaiter, h.2.2]

variable {s' : RpcClient}

/-- `Sound` looks at the parsed frames and at the reader's end only. -/
theorem Sound.congr (h : Sound s c) (hp : s'.parsed = s.parsed)
    (hr : s'.reader = .finished ↔ s.reader = .finished) : Sound s' c := by
  refine ⟨hp ▸ h.since_le, fun ho => hr.mpr (h.orphan ho), h.unset, ?_, h.staged⟩
  rw [h.value]
  unfold outcome firstResponse
  rw [hp, if_congr (and_congr_left' hr) rfl rfl]

theorem Inv.congr (h : Inv s) (hcalls : s'.calls = s.calls)
    (hpending : s'.pending = s.pending) (hnext : s'.nextReqId = s.nextReqId)
    (hp : s'.parsed = s.parsed) (hr : s'.reader = .finished ↔ s.reader = .finished) : Inv s' := by
  have hreg := h.registry
  refine ⟨⟨?_, ?_, ?_, ?_, ?_⟩, ?_⟩
  · rw [hnext, hcalls]
    exact hreg.next
  · rw [hcalls]
    exact hreg.ids
  · rw [hcalls, hpending]
    exact hreg.waiting
  · rw [hcalls, hpending]
    exact hreg.covered
  · rw [hpending]
    exact hreg.nodup
  · intro k c hk
    rw [hcalls] at hk
    exact (h.sound k c hk).congr hp hr

/-- A step of one caller: its record stays as done as it was. -/
theorem Inv.set (h : Inv s) {c' : CallFrame} (hk : s.calls[k]? = some c)
    (hid : c'.id = c.id) (hdone : c'.pending.done = c.pending.done) (hs : Sound s c') :
    Inv { s with calls := s.calls.set k c' } := by
  have hreg := h.registry
  have hklt : k < s.calls.length := (List.getElem?_eq_some_iff.mp hk).1
  refine ⟨⟨?_, ?_, ?_, ?_, hreg.nodup⟩, ?_⟩
  · show s.nextReqId = UInt64.ofNat ((s.calls.set k c').length + 1)
    rw [List.length_set]
    exact hreg.next
  · intro j d hj
    rcases getElem?_set_cases hk hj with ⟨rfl, rfl⟩ | ⟨_, hj⟩
    · rw [hid]
      exact hreg.ids j c hk
    · exact hreg.ids j d hj
  · intro e he
    obtain ⟨d, hd, hdid, hddone⟩ := hreg.waiting e he
    by_cases hek : e.2 = k
    · rw [hek, hk] at hd
      cases hd
      refine ⟨c', ?_, hid.trans hdid, hdone.trans hddone⟩
      show (s.calls.set k c')[e.2]? = some c'
      rw [hek, List.getElem?_set_self hklt]
    refine ⟨d, ?_, hdid, hddone⟩
    show (s.calls.set k c')[e.2]? = some d
    rw [List.getElem?_set_ne (Ne.symm hek)]
    exact hd
  · intro j d hj hnot
    rcases getElem?_set_cases hk hj with ⟨rfl, rfl⟩ | ⟨_, hj⟩
    · rw [hid]
      exact hreg.covered j c hk (hdone.symm.trans hnot)
    · exact hreg.covered j d hj hnot
  · intro j d hj
    rcases getElem?_set_cases hk hj with ⟨rfl, rfl⟩ | ⟨_, hj⟩
    · exact hs.congr rfl .rfl
    · exact (h.sound j d hj).congr rfl .rfl

/-! ## The reader -/

/-- One more parsed frame decides a call only if it is the first one with its id. -/
theorem firstResponse_append (h : c.since ≤ s.parsed.length) (f : WireHeader × Bytes) :
    { s with parsed := s.parsed ++ [f] }.firstResponse c =
      (s.firstResponse c).or (if f.1.reqId = c.id then some f else none) := by
  unfold firstResponse
  show ((s.parsed ++ [f]).drop c.since).find? _ = _
  rw [List.drop_append_of_le_length h, List.find?_append]
  by_cases hid : f.1.reqId = c.id <;> simp [hid]

/-- A call that is not done has no response yet. -/
theorem Sound.undecided (h : Sound s c)
    (hdone : c.pending.done = false) : s.firstResponse c = none := by
  have hvalue := h.value
  unfold outcome at hvalue
  rcases hfirst : s.firstResponse c with _ | f
  · rfl
  rw [hfirst] at hvalue
  simp [Pending.value, hdone] at hvalue

/-- Before the reader's end a call is done only by a response. -/
theorem Sound.decided (h : Sound s c)
    (hreader : s.reader ≠ .finished) (hdone : c.pending.done = true) :
    ∃ f, s.firstResponse c = some f := by
  have hvalue := h.value
  unfold outcome at hvalue
  cases hfirst : s.firstResponse c with
  | some f => exact ⟨f, rfl⟩
  | none =>
    rw [hfirst, if_neg (fun hfin => hreader hfin.1)] at hvalue
    simp [Pending.value, hdone] at hvalue

/-- A frame changes nothing for a call that it is not for, or that already has its response. -/
theorem Sound.parse (h : Sound s c) (hreader : s.reader ≠ .finished)
    {f : WireHeader × Bytes} (hother : c.id = f.1.reqId → c.pending.done = true) :
    Sound { s with parsed := s.parsed ++ [f] } c := by
  refine ⟨?_, h.orphan, h.unset, ?_, h.staged⟩
  · show c.since ≤ (s.parsed ++ [_]).length
    rw [length_append]
    exact Nat.le_add_right_of_le h.since_le
  · have hsame : { s with parsed := s.parsed ++ [f] }.firstResponse c = s.firstResponse c := by
      rw [firstResponse_append h.since_le]
      by_cases hid : f.1.reqId = c.id
      · obtain ⟨g, hg⟩ := h.decided hreader (hother hid.symm)
        rw [hg]
        rfl
      · rw [if_neg hid, Option.or_none]
    rw [h.value]
    unfold outcome
    rw [hsame]

/-- The first response completes its call. -/
theorem Sound.complete (h : Sound s c)
    (hdone : c.pending.done = false) {hd : WireHeader} (hid : hd.reqId = c.id) (payload : Bytes) :
    Sound { s with parsed := s.parsed ++ [(hd, payload)] } (complete payload c) := by
  have hfirst : { s with parsed := s.parsed ++ [(hd, payload)] }.firstResponse
      (RpcClient.complete payload c) = some (hd, payload) := by
    have hsame : { s with parsed := s.parsed ++ [(hd, payload)] }.firstResponse
        (RpcClient.complete payload c) =
        { s with parsed := s.parsed ++ [(hd, payload)] }.firstResponse c := by
      unfold firstResponse RpcClient.complete
      rw [wake_since, wake_id]
    rw [hsame, firstResponse_append h.since_le, h.undecided hdone, if_pos hid]
    rfl
  refine ⟨?_, ?_, ?_, ?_, h.staged.wake hdone rfl⟩
  · show (RpcClient.complete payload c).since ≤ (s.parsed ++ [_]).length
    rw [RpcClient.complete, wake_since, length_append]
    exact Nat.le_add_right_of_le h.since_le
  · intro ho
    rw [RpcClient.complete, wake_orphan] at ho
    exact h.orphan ho
  · intro hnot
    simp [RpcClient.complete] at hnot
  · unfold outcome
    rw [hfirst]
    simp [RpcClient.complete, Pending.value, Pending.returned, h.unset hdone]

theorem getElem?_modify_cases {α : Type*} {l : List α} {i : Nat} {f : α → α} {c d : α}
    (hc : l[i]? = some c) (hk : (l.modify i f)[k]? = some d) :
    (k = i ∧ d = f c) ∨ (k ≠ i ∧ l[k]? = some d) := by
  rw [List.getElem?_modify] at hk
  by_cases hki : i = k
  · subst hki
    simp only [hc, if_true, Option.map_eq_map, Option.map_some, Option.some.injEq] at hk
    exact .inl ⟨rfl, hk.symm⟩
  simp only [if_neg hki, Option.map_eq_map, Option.map_id'] at hk
  exact .inr ⟨Ne.symm hki, by simpa using hk⟩

/-- The map forgets the id, and the call is done. -/
theorem Registry.complete (hreg : Registry s) (hfew : s.calls.length < 2 ^ 64)
    {e : UInt64 × Nat} (hmem : e ∈ s.pending) (payload : Bytes)
    (parsed : List (WireHeader × Bytes)) :
    Registry { s with
      parsed := parsed
      calls := s.calls.modify e.2 (complete payload)
      pending := s.pending.filter fun e' => e'.1 ≠ e.1 } := by
  obtain ⟨c, hc, hcid, hcdone⟩ := hreg.waiting e hmem
  refine ⟨?_, ?_, ?_, ?_, (List.filter_sublist.map Prod.snd).nodup hreg.nodup⟩
  · show s.nextReqId = UInt64.ofNat ((s.calls.modify e.2 _).length + 1)
    rw [List.length_modify]
    exact hreg.next
  · intro k d hk
    rcases getElem?_modify_cases hc hk with ⟨rfl, rfl⟩ | ⟨_, hk⟩
    · rw [RpcClient.complete, wake_id]
      exact hreg.ids _ c hc
    · exact hreg.ids k d hk
  · intro e' he'
    obtain ⟨hmem', hne⟩ := mem_filter.mp he'
    obtain ⟨d, hdget, hdid, hddone⟩ := hreg.waiting e' hmem'
    refine ⟨d, ?_, hdid, hddone⟩
    have hidx : e.2 ≠ e'.2 := by
      intro heq
      rw [← heq, hc] at hdget
      cases hdget
      simp [← hdid, hcid] at hne
    show (s.calls.modify e.2 _)[e'.2]? = some d
    rw [List.getElem?_modify, hdget]
    simp [hidx]
  · intro k d hk hnot
    rcases getElem?_modify_cases hc hk with ⟨rfl, rfl⟩ | ⟨hke, hk⟩
    · simp [RpcClient.complete] at hnot
    refine mem_filter.mpr ⟨hreg.covered k d hk hnot, ?_⟩
    have hne : d.id ≠ e.1 := fun hid => hke (hreg.id_inj hfew hk hc (by rw [hid, hcid]))
    simpa using hne

theorem deliver_inv (h : Inv s) (hfew : s.calls.length < 2 ^ 64)
    (hreader : s.reader ≠ .finished) (hd : WireHeader) (payload : Bytes) :
    Inv (s.deliver hd payload) := by
  have hreg := h.registry
  unfold deliver
  dsimp only
  cases hfind : s.pending.find? (fun e => e.1 = hd.reqId) with
  | none =>
    refine ⟨{ hreg with }, ?_⟩
    intro k c hk
    refine (h.sound k c hk).parse hreader fun hid => ?_
    by_contra hnot
    have hmem := hreg.covered k c hk (by simpa using hnot)
    have := List.find?_eq_none.mp hfind _ hmem
    simp [hid] at this
  | some e =>
    have hmem : e ∈ s.pending := List.mem_of_find?_eq_some hfind
    have heid : e.1 = hd.reqId := by simpa using List.find?_some hfind
    obtain ⟨c, hc, hcid, hcdone⟩ := hreg.waiting e hmem
    refine ⟨?_, ?_⟩
    · rw [← heid]
      exact hreg.complete hfew hmem payload _
    · intro k d hk
      rcases getElem?_modify_cases hc hk with ⟨rfl, rfl⟩ | ⟨hke, hk⟩
      · have hcs := (h.sound e.2 c hc).complete hcdone (heid.symm.trans hcid.symm) payload
        exact hcs.congr rfl .rfl
      refine ((h.sound k d hk).parse hreader fun hid => ?_).congr rfl .rfl
      exact absurd (hreg.id_inj hfew hk hc (by rw [hid, hcid, heid])) hke

section

variable (f : CallFrame → CallFrame) (l : List (UInt64 × Nat))

/-- A sweep over distinct frames changes each of them once. -/
theorem getElem?_foldl_modify (hl : (l.map Prod.snd).Nodup) (calls : List CallFrame) (k : Nat) :
    (l.foldl (fun calls e => calls.modify e.2 f) calls)[k]? =
      if k ∈ l.map Prod.snd then calls[k]?.map f else calls[k]? := by
  induction l generalizing calls with
  | nil => simp
  | cons e l ih =>
    obtain ⟨hnot, hrest⟩ := nodup_cons.mp hl
    rw [foldl_cons, ih hrest, List.getElem?_modify]
    by_cases hke : e.2 = k
    · subst hke
      simp only [hnot, if_false, if_true, map_cons, mem_cons, true_or]
      rfl
    have hiff : k ∈ (e :: l).map Prod.snd ↔ k ∈ l.map Prod.snd := by
      rw [map_cons, mem_cons]
      exact or_iff_right (Ne.symm hke)
    rw [if_congr hiff rfl rfl]
    simp [hke]

theorem length_foldl_modify (calls : List CallFrame) :
    (l.foldl (fun calls e => calls.modify e.2 f) calls).length = calls.length := by
  induction l generalizing calls with
  | nil => rfl
  | cons e l ih => rw [foldl_cons, ih, List.length_modify]

end

/-- The frames after the sweep: the outstanding ones failed, the others as they were. -/
theorem finish_frame (h : Registry s) (hk : s.calls[k]? = some c) :
    s.finish.calls[k]? = some (if c.pending.done = false then fail c else c) := by
  show (s.pending.foldl _ s.calls)[k]? = _
  rw [getElem?_foldl_modify fail s.pending h.nodup, hk]
  by_cases hdone : c.pending.done = false
  · have hmem : k ∈ s.pending.map Prod.snd :=
      mem_map.mpr ⟨(c.id, k), h.covered k c hk hdone, rfl⟩
    rw [if_pos hmem, if_pos hdone]
    rfl
  have hmem : k ∉ s.pending.map Prod.snd := by
    intro hmem
    obtain ⟨e, he, rfl⟩ := mem_map.mp hmem
    obtain ⟨d, hd, _, hddone⟩ := h.waiting e he
    rw [hk] at hd
    cases hd
    exact hdone hddone
  rw [if_neg hmem, if_neg hdone]

/-- An outstanding call ends with the connection. -/
theorem Sound.fail (h : Sound s c) (hreader : s.reader ≠ .finished)
    (hdone : c.pending.done = false) : Sound s.finish (fail c) := by
  have horphan : c.orphan = false := by
    cases ho : c.orphan with
    | false => rfl
    | true => exact absurd (h.orphan ho) hreader
  have hfirst : s.finish.firstResponse (RpcClient.fail c) = none := by
    rw [← h.undecided hdone]
    unfold firstResponse RpcClient.fail
    rw [wake_since, wake_id]
    rfl
  refine ⟨?_, fun _ => rfl, ?_, ?_, h.staged.wake hdone rfl⟩
  · rw [RpcClient.fail, wake_since]
    exact h.since_le
  · intro hnot
    simp [RpcClient.fail] at hnot
  · unfold outcome
    rw [hfirst]
    simp [RpcClient.fail, finish, horphan, Pending.value, Pending.returned, connectionClosed,
      Status.isOk]

/-- A call that has its response keeps it. -/
theorem Sound.finish (h : Sound s c) (hreader : s.reader ≠ .finished)
    (hdone : c.pending.done = true) : Sound s.finish c := by
  refine ⟨h.since_le, fun _ => rfl, h.unset, ?_, h.staged⟩
  obtain ⟨f, hfirst⟩ := h.decided hreader hdone
  have hsame : s.finish.firstResponse c = some f := hfirst
  rw [h.value]
  unfold outcome
  rw [hsame, hfirst]

theorem finish_inv (h : Inv s) (hreader : s.reader ≠ .finished) : Inv s.finish := by
  have hreg := h.registry
  have hlen : s.finish.calls.length = s.calls.length := length_foldl_modify fail s.pending s.calls
  -- every frame after the sweep comes from one before it
  have hget : ∀ (k : Nat) d, s.finish.calls[k]? = some d → ∃ c, s.calls[k]? = some c ∧
      d = if c.pending.done = false then fail c else c := by
    intro k d hk
    have hlt : k < s.calls.length := hlen ▸ (List.getElem?_eq_some_iff.mp hk).1
    obtain ⟨c, hc⟩ : ∃ c, s.calls[k]? = some c := ⟨_, List.getElem?_eq_getElem hlt⟩
    rw [finish_frame hreg hc] at hk
    exact ⟨c, hc, (Option.some.inj hk).symm⟩
  refine ⟨⟨?_, ?_, ?_, ?_, nodup_nil⟩, ?_⟩
  · rw [hlen]
    exact hreg.next
  · intro k d hk
    obtain ⟨c, hc, rfl⟩ := hget k d hk
    rw [← hreg.ids k c hc]
    split
    · rw [fail, wake_id]
    · rfl
  · intro e he
    cases he
  · intro k d hk hnot
    obtain ⟨c, _, rfl⟩ := hget k d hk
    split at hnot
    · simp [fail] at hnot
    · exact absurd hnot ‹_›
  · intro k d hk
    obtain ⟨c, hc, rfl⟩ := hget k d hk
    split
    · exact (h.sound k c hc).fail hreader ‹_›
    · exact (h.sound k c hc).finish hreader (by simpa using ‹¬ c.pending.done = false›)

/-! ## The parsing pass -/

/-- A frame as it stands in the byte stream. -/
def frameBytes (f : WireHeader × Bytes) : Bytes := appendFrame [] f.1 f.2

/-- What the pass may deliver. -/
structure IsResponse (f : WireHeader × Bytes) : Prop where
  valid : ValidResponse f.1
  length : f.2.length = f.1.len.toNat

/-- **Induction over the pass**: what each delivered frame keeps, the pass keeps.  The property may
    speak of the offset. -/
theorem parseResponses_induct {P : Nat → RpcClient → Prop} (buf : Bytes)
    (hstep : ∀ pos s f, P pos s → IsResponse f → buf.drop pos =
      frameBytes f ++ buf.drop (pos + kHeader + f.1.len.toNat) →
      P (pos + kHeader + f.1.len.toNat) (s.deliver f.1 f.2)) :
    ∀ pos s, P pos s → P (parseResponses buf pos s).1 (parseResponses buf pos s).2.2 := by
  intro pos s
  fun_induction parseResponses buf pos s with
  | case1 => exact id
  | case2 => exact id
  | case3 pos s hlen h hvalid hshort payload ih =>
    intro hP
    rw [not_not] at hvalid
    have hpayload : payload.length = h.len.toNat := by
      show ((buf.drop (pos + kHeader)).take h.len.toNat).length = _
      rw [List.length_take, length_drop]
      omega
    refine ih (hstep pos s (h, payload) hP ⟨hvalid, hpayload⟩ ?_)
    have hhead : encodeHeader h = (buf.drop pos).take kHeader :=
      encodeHeader_decodeHeader (by rw [length_drop]; exact hlen)
    have hrest : buf.drop (pos + kHeader) = payload ++ buf.drop (pos + kHeader + h.len.toNat) := by
      rw [← List.drop_drop (i := h.len.toNat)]
      exact (take_append_drop _ _).symm
    show buf.drop pos = ([] ++ encodeHeader h ++ payload) ++ _
    rw [nil_append, hhead, append_assoc, ← hrest, ← List.drop_drop]
    exact (take_append_drop _ _).symm
  | case4 => exact id

/-- What the pass leaves: not even a header, or a frame whose payload is still to come. -/
def Incomplete (buf : Bytes) : Prop :=
  buf.length < kHeader ∨
    (ValidResponse (decodeHeader buf) ∧ buf.length - kHeader < (decodeHeader buf).len.toNat)

theorem parseResponses_stop (buf : Bytes) (pos : Nat) (s : RpcClient)
    (hopen : (parseResponses buf pos s).2.1 = false) :
    Incomplete (buf.drop (parseResponses buf pos s).1) := by
  fun_induction parseResponses buf pos s with
  | case1 => cases hopen
  | case2 pos s hlen h hvalid hshort =>
    rw [not_not] at hvalid
    refine .inr ⟨hvalid, ?_⟩
    rw [length_drop]
    exact hshort
  | case3 pos s hlen h hvalid hshort payload ih => exact ih hopen
  | case4 pos s hlen =>
    refine .inl ?_
    rw [length_drop]
    omega

section

variable (h : WireHeader) (payload : Bytes) (s : RpcClient)

@[simp] theorem deliver_reader : (s.deliver h payload).reader = s.reader := by
  unfold deliver
  dsimp only
  split <;> rfl

@[simp] theorem deliver_received : (s.deliver h payload).received = s.received := by
  unfold deliver
  dsimp only
  split <;> rfl

@[simp] theorem deliver_buf : (s.deliver h payload).buf = s.buf := by
  unfold deliver
  dsimp only
  split <;> rfl

@[simp] theorem deliver_parsed : (s.deliver h payload).parsed = s.parsed ++ [(h, payload)] := by
  unfold deliver
  dsimp only
  split <;> rfl

@[simp] theorem length_deliver_calls : (s.deliver h payload).calls.length = s.calls.length := by
  unfold deliver
  dsimp only
  split
  · exact List.length_modify ..
  · rfl

/-- The pass leaves the reader, the buffer and the number of calls alone. -/
structure SamePass (s s' : RpcClient) : Prop where
  reader : s'.reader = s.reader
  buf : s'.buf = s.buf
  received : s'.received = s.received
  calls : s'.calls.length = s.calls.length

end

theorem parseResponses_same (buf : Bytes) (s : RpcClient) :
    SamePass s (parseResponses buf 0 s).2.2 := by
  refine parseResponses_induct (P := fun _ t => SamePass s t) buf ?_ 0 s ⟨rfl, rfl, rfl, rfl⟩
  intro pos t f ht _ _
  exact ⟨by simp [ht.reader], by simp [ht.buf], by simp [ht.received], by simp [ht.calls]⟩

theorem parseResponses_inv (h : Inv s) (hfew : s.calls.length < 2 ^ 64)
    (hreader : s.reader ≠ .finished) (buf : Bytes) : Inv (parseResponses buf 0 s).2.2 := by
  have hall := parseResponses_induct
    (P := fun _ t => Inv t ∧ t.calls.length = s.calls.length ∧ t.reader = s.reader) buf ?_ 0 s
    ⟨h, rfl, rfl⟩
  · exact hall.1
  rintro pos t f ⟨ht, hlen, hsame⟩ _ _
  refine ⟨deliver_inv ht (hlen ▸ hfew) (hsame ▸ hreader) f.1 f.2, ?_, ?_⟩
  · rw [length_deliver_calls, hlen]
  · rw [deliver_reader, hsame]

/-- The bytes received are the frames parsed and what is retained. -/
structure Framed (s : RpcClient) : Prop where
  bytes : s.received = (s.parsed.map frameBytes).flatten ++ s.buf
  responses : ∀ f ∈ s.parsed, IsResponse f
  retained : s.reader = .reading → Incomplete s.buf

theorem parseResponses_framed (hbytes : s.received = (s.parsed.map frameBytes).flatten ++ s.buf)
    (hresp : ∀ f ∈ s.parsed, IsResponse f) :
    s.received = ((parseResponses s.buf 0 s).2.2.parsed.map frameBytes).flatten ++
      s.buf.drop (parseResponses s.buf 0 s).1 ∧
    ∀ f ∈ (parseResponses s.buf 0 s).2.2.parsed, IsResponse f := by
  refine parseResponses_induct (P := fun pos t =>
    s.received = (t.parsed.map frameBytes).flatten ++ s.buf.drop pos ∧
      ∀ f ∈ t.parsed, IsResponse f) s.buf ?_ 0 s ⟨by simpa using hbytes, hresp⟩
  rintro pos t f ⟨hb, hr⟩ hf hsplit
  refine ⟨?_, ?_⟩
  · rw [hb, hsplit, deliver_parsed, map_append, List.flatten_append]
    simp
  · rw [deliver_parsed]
    intro g hg
    rcases mem_append.mp hg with hg | hg
    · exact hr g hg
    rw [mem_singleton.mp hg]
    exact hf

/-! ## Steps -/

/-- More bytes in the buffer. -/
def receive (data : Bytes) (s : RpcClient) : RpcClient :=
  { s with buf := s.buf ++ data, received := s.received ++ data }

/-- A call begins. -/
def Label.isCall : Label → Bool
  | .call _ _ => true
  | _ => false

/-- The exits of `ReadLoop` that leave the stream as it is: a failed read and the peer's end of
    file. -/
def Label.endsRead : Label → Bool
  | .readResume (.error _) => true
  | .readResume (.ok []) => true
  | _ => false

/-- The step is a `Close`. -/
def Label.isClose : Label → Bool
  | .close => true
  | _ => false

/-- The write loop's own. -/
def Label.writes : Label → Bool
  | .writeStart | .writeResume _ => true
  | _ => false

/-- What one step does to the calls, to the reader and to the stream. -/
inductive Move (isOpen closes : Bool) (s s' : RpcClient) : Label → Prop where
  | refused (verb : UInt16) (payload : Bytes) (status : Status)
      (call : s.call isOpen verb payload = .error status) (same : s' = s)
      (stays : closes = false) : Move isOpen closes s s' (.call verb payload)
  | called (verb : UInt16) (payload : Bytes) (call : s.call isOpen verb payload = .ok s')
      (stays : closes = false) : Move isOpen closes s s' (.call verb payload)
  | quiet {a : Label} (other : a.isCall = false) (calls : s'.calls = s.calls)
      (pending : s'.pending = s.pending) (next : s'.nextReqId = s.nextReqId)
      (parsed : s'.parsed = s.parsed) (reader : s'.reader = s.reader) (buf : s'.buf = s.buf)
      (received : s'.received = s.received) (plain : a.endsRead = false)
      (stays : closes = a.isClose) (acts : a.writes ∨ s' = s) : Move isOpen closes s s' a
  | caller {a : Label} (other : a.isCall = false) (k : Nat) (c c' : CallFrame)
      (get : s.calls[k]? = some c)
      (acts : (c.stage = .registered ∧ c' = awaitPending c) ∨ (c.stage = .ready ∧ c' = resumed c))
      (set : s' = { s with calls := s.calls.set k c' })
      (plain : a.endsRead = false ∧ a.isClose = false) (stays : closes = false) :
      Move isOpen closes s s' a
  | ended (result : Except Status Bytes)
      (stops : result = .ok [] ∨ ∃ status, result = .error status)
      (reader : s.reader ≠ .finished) (finish : s' = s.finish) (stays : closes = false) :
      Move isOpen closes s s' (.readResume result)
  | turned {a : Label} (other : a.isCall = false) (data : Bytes) (reader : s.reader ≠ .finished)
      (turn : (s.receive data).readTurn isOpen = (s', closes))
      (plain : a.endsRead = false ∧ a.isClose = false) : Move isOpen closes s s' a

variable {isOpen closes : Bool} {a : Label}

theorem step_move (hs : s.step isOpen a = some (s', closes)) : Move isOpen closes s s' a := by
  cases a with
  | call verb payload =>
    simp only [step] at hs
    cases hcall : s.call isOpen verb payload with
    | error status =>
      rw [hcall] at hs
      cases hs
      exact .refused verb payload status hcall rfl rfl
    | ok t =>
      rw [hcall] at hs
      cases hs
      exact .called verb payload hcall rfl
  | callSuspend k =>
    obtain ⟨c, hk, hs⟩ := bind_eq_some_iff.mp hs
    cases hstage : c.stage <;> rw [hstage] at hs <;> cases hs
    exact .caller rfl k c _ hk (.inl ⟨hstage, rfl⟩) rfl ⟨rfl, rfl⟩ rfl
  | callResume k =>
    obtain ⟨c, hk, hs⟩ := bind_eq_some_iff.mp hs
    cases hstage : c.stage <;> rw [hstage] at hs <;> cases hs
    exact .caller rfl k c _ hk (.inr ⟨hstage, rfl⟩) rfl ⟨rfl, rfl⟩ rfl
  | readStart =>
    obtain ⟨hreader, heq⟩ := ite_none_right_eq_some.mp hs
    refine .turned rfl [] (by simp [hreader]) ?_ ⟨rfl, rfl⟩
    have hsame : s.receive [] = s := by simp [receive]
    rw [hsame]
    exact some.inj heq
  | readResume result =>
    obtain ⟨⟨hreader, _⟩, heq⟩ := ite_none_right_eq_some.mp hs
    have hne : s.reader ≠ .finished := by simp [hreader]
    match result with
    | .error status =>
      cases heq
      exact .ended _ (.inr ⟨status, rfl⟩) hne rfl rfl
    | .ok [] =>
      cases heq
      exact .ended _ (.inl rfl) hne rfl rfl
    | .ok (b :: bytes) => exact .turned rfl (b :: bytes) hne (some.inj heq) ⟨rfl, rfl⟩
  | writeStart =>
    obtain ⟨_, heq⟩ := ite_none_right_eq_some.mp hs
    cases heq
    unfold writeTurn
    dsimp only
    split <;> exact .quiet rfl rfl rfl rfl rfl rfl rfl rfl rfl rfl (.inl rfl)
  | writeResume result =>
    simp only [step] at hs
    cases hwriter : s.writer with
    | idle | spawned => rw [hwriter] at hs; cases hs
    | writing batch written =>
      rw [hwriter] at hs
      obtain ⟨_, heq⟩ := ite_none_right_eq_some.mp hs
      cases heq
      match result with
      | .error _ | .ok 0 => exact .quiet rfl rfl rfl rfl rfl rfl rfl rfl rfl rfl (.inl rfl)
      | .ok (n + 1) =>
        unfold RpcClient.writeResume writeTurn
        dsimp only
        split
        · exact .quiet rfl rfl rfl rfl rfl rfl rfl rfl rfl rfl (.inl rfl)
        · split <;> exact .quiet rfl rfl rfl rfl rfl rfl rfl rfl rfl rfl (.inl rfl)
  | close =>
    cases hs
    exact .quiet rfl rfl rfl rfl rfl rfl rfl rfl rfl rfl (.inr rfl)

/-- The three ways a turn ends: on a closed stream, on a bad header, in the next read. -/
theorem readTurn_cases (isOpen : Bool) (s : RpcClient) :
    ((s.readTurn isOpen).1 = s.finish ∧ isOpen = false) ∨
    ((s.readTurn isOpen) = ({ (parseResponses s.buf 0 s).2.2 with
        buf := (parseResponses s.buf 0 s).2.2.buf.drop (parseResponses s.buf 0 s).1 }.finish,
          true)) ∨
    ((parseResponses s.buf 0 s).2.1 = false ∧
      (s.readTurn isOpen) = ({ (parseResponses s.buf 0 s).2.2 with
        buf := (parseResponses s.buf 0 s).2.2.buf.drop (parseResponses s.buf 0 s).1
        reader := .reading }, false)) := by
  unfold readTurn
  cases isOpen
  · exact .inl ⟨rfl, rfl⟩
  right
  dsimp only
  cases hcloses : (parseResponses s.buf 0 s).2.1 with
  | true =>
    left
    rw [if_neg (by decide), if_pos rfl]
  | false =>
    right
    rw [if_neg (by decide), if_neg (by decide)]
    exact ⟨rfl, rfl⟩

theorem call_eq {verb : UInt16} {payload : Bytes}
    (h : s.call isOpen verb payload = .ok s') : isOpen = true ∧ payload.length ≤ kMaxPayloadBytes ∧
      s' = s.register.sendFrame
        ⟨s.nextReqId, UInt32.ofNat payload.length, verb, kRequest, 0⟩ payload := by
  unfold call at h
  split_ifs at h with h1 h2
  cases h
  exact ⟨by simpa using h1, Nat.le_of_not_lt h2, rfl⟩

/-- A call that is just being registered has nothing behind it. -/
theorem newFrame_sound (s : RpcClient) : Sound s s.newFrame := by
  refine ⟨Nat.le_refl _, of_decide_eq_true, fun _ => rfl, ?_, ⟨rfl, rfl⟩⟩
  have hnone : s.firstResponse s.newFrame = none := by simp [firstResponse, newFrame]
  unfold outcome
  rw [hnone]
  simp [newFrame, Pending.value, Pending.new]

/-- Registering one more call. -/
theorem register_inv (h : Inv s) (hfew : s.calls.length + 1 < 2 ^ 64) : Inv s.register := by
  have hreg := h.registry
  -- no frame has the new id
  have hfresh : ∀ (k : Nat) c, s.calls[k]? = some c → c.id ≠ s.nextReqId := by
    intro k c hk hid
    have hklt : k < s.calls.length := (List.getElem?_eq_some_iff.mp hk).1
    rw [hreg.ids k c hk, hreg.next] at hid
    have hnat := congrArg UInt64.toNat hid
    rw [UInt64.toNat_ofNat_of_lt' (by show k + 1 < 2 ^ 64; omega),
      UInt64.toNat_ofNat_of_lt' hfew] at hnat
    omega
  have hget : ∀ (k : Nat) d, s.register.calls[k]? = some d →
      s.calls[k]? = some d ∨ (k = s.calls.length ∧ d = s.newFrame) := by
    intro k d hk
    change (s.calls ++ [s.newFrame])[k]? = some d at hk
    rcases Nat.lt_trichotomy k s.calls.length with hlt | heq | hgt
    · rw [List.getElem?_append_left hlt] at hk
      exact .inl hk
    · subst heq
      rw [List.getElem?_concat_length] at hk
      exact .inr ⟨rfl, (Option.some.inj hk).symm⟩
    · rw [List.getElem?_eq_none (by simp; omega)] at hk
      cases hk
  refine ⟨⟨?_, ?_, ?_, ?_, ?_⟩, ?_⟩
  · show s.nextReqId + 1 = UInt64.ofNat ((s.calls ++ [_]).length + 1)
    rw [hreg.next, length_append, List.length_singleton, UInt64.ofNat_add (s.calls.length + 1)]
    rfl
  · intro k d hk
    rcases hget k d hk with hk | ⟨rfl, rfl⟩
    · exact hreg.ids k d hk
    · exact hreg.next
  · intro e he
    rcases mem_cons.mp he with rfl | he
    · exact ⟨_, List.getElem?_concat_length, rfl, rfl⟩
    obtain ⟨c, hc, hid, hdone⟩ := hreg.waiting e (mem_filter.mp he).1
    refine ⟨c, ?_, hid, hdone⟩
    show (s.calls ++ [_])[e.2]? = some c
    rw [List.getElem?_append_left (List.getElem?_eq_some_iff.mp hc).1]
    exact hc
  · intro k d hk hnot
    rcases hget k d hk with hk | ⟨rfl, rfl⟩
    · refine mem_cons_of_mem _ (mem_filter.mpr ⟨hreg.covered k d hk hnot, ?_⟩)
      simpa using hfresh k d hk
    · exact mem_cons_self
  · show ((s.nextReqId, s.calls.length) :: s.pending.filter _).map Prod.snd |>.Nodup
    rw [map_cons]
    refine nodup_cons.mpr ⟨?_, (List.filter_sublist.map Prod.snd).nodup hreg.nodup⟩
    intro hmem
    obtain ⟨e, he, heq⟩ := mem_map.mp hmem
    obtain ⟨c, hc, _⟩ := hreg.waiting e (mem_filter.mp he).1
    have hlt := (List.getElem?_eq_some_iff.mp hc).1
    rw [heq] at hlt
    exact absurd hlt (Nat.lt_irrefl _)
  · intro k d hk
    rcases hget k d hk with hk | ⟨rfl, rfl⟩
    · exact (h.sound k d hk).congr rfl .rfl
    · exact (newFrame_sound s).congr rfl .rfl

theorem call_inv {verb : UInt16} {payload : Bytes} (h : Inv s)
    (hfew : s'.calls.length < 2 ^ 64) (hs : s.call isOpen verb payload = .ok s') : Inv s' := by
  obtain ⟨_, _, rfl⟩ := call_eq hs
  have hlen : s.calls.length + 1 < 2 ^ 64 := by
    change (s.calls ++ [s.newFrame]).length < 2 ^ 64 at hfew
    simpa using hfew
  exact (register_inv h hlen).congr rfl rfl rfl rfl .rfl

/-- A caller's own steps. -/
theorem caller_sound {c' : CallFrame} (h : Sound s c)
    (hacts : (c.stage = .registered ∧ c' = awaitPending c) ∨ (c.stage = .ready ∧ c' = resumed c)) :
    c'.id = c.id ∧ c'.pending.done = c.pending.done ∧ Sound s c' := by
  have hstaged := h.staged
  -- a call whose record is done goes on, resumed at most once
  have hgo : c.resumes ≤ 1 → c.pending.done = true → Sound s (resumed c) := fun hle hdone =>
    { h with staged := by simp [Staged, resumed, Pending.value, hdone, hle] }
  unfold Staged at hstaged
  rcases hacts with ⟨hstage, rfl⟩ | ⟨hstage, rfl⟩
  · rw [hstage] at hstaged
    unfold awaitPending
    by_cases hdone : c.pending.done = true
    · rw [if_pos hdone]
      exact ⟨rfl, rfl, hgo (by rw [hstaged.2]; decide) hdone⟩
    rw [if_neg hdone]
    have hnot : c.pending.done = false := by simpa using hdone
    exact ⟨rfl, rfl, h.since_le, h.orphan, h.unset, h.value, rfl, hnot, hstaged.2⟩
  rw [hstage] at hstaged
  exact ⟨rfl, rfl, hgo (by rw [hstaged.2]) hstaged.1⟩

theorem readTurn_inv (h : Inv s) (hfew : s.calls.length < 2 ^ 64)
    (hreader : s.reader ≠ .finished) (isOpen : Bool) : Inv (s.readTurn isOpen).1 := by
  have hpass := parseResponses_inv h hfew hreader s.buf
  have hsame := parseResponses_same s.buf s
  have hpassed : (parseResponses s.buf 0 s).2.2.reader ≠ .finished := hsame.reader ▸ hreader
  rcases readTurn_cases isOpen s with ⟨heq, _⟩ | heq | ⟨_, heq⟩
  · rw [heq]
    exact finish_inv h hreader
  · rw [heq]
    exact finish_inv (hpass.congr rfl rfl rfl rfl .rfl) hpassed
  · rw [heq]
    exact hpass.congr rfl rfl rfl rfl (by simp [hpassed])

section

variable (hm : Move isOpen closes s s' a)
include hm

theorem Move.inv (h : Inv s)
    (hfew : s'.calls.length < 2 ^ 64) (hle : s.calls.length ≤ s'.calls.length) : Inv s' := by
  cases hm with
  | refused verb payload status _ hsame =>
    rw [hsame]
    exact h
  | quiet _ hcalls hpending hnext hparsed hreader _ _ =>
    exact h.congr hcalls hpending hnext hparsed (by rw [hreader])
  | called verb payload hcall => exact call_inv h hfew hcall
  | caller _ k c c' hget hacts hset =>
    obtain ⟨hid, hdone, hs⟩ := caller_sound (h.sound k c hget) hacts
    rw [hset]
    exact h.set hget hid hdone hs
  | ended result _ hreader hfinish =>
    rw [hfinish]
    exact finish_inv h hreader
  | turned _ data hreader hturn =>
    rw [show s' = ((s.receive data).readTurn isOpen).1 by rw [hturn]]
    have hmore : Inv (s.receive data) := h.congr rfl rfl rfl rfl .rfl
    exact readTurn_inv hmore (Nat.lt_of_le_of_lt hle hfew) hreader isOpen

/-- No step forgets a call. -/
theorem Move.calls_le : s.calls.length ≤ s'.calls.length := by
  cases hm with
  | refused verb payload status _ hsame => rw [hsame]
  | quiet _ hcalls => rw [hcalls]
  | called verb payload hcall =>
    obtain ⟨_, _, rfl⟩ := call_eq hcall
    show _ ≤ (s.calls ++ [_]).length
    simp
  | caller _ k c c' hget hacts hset =>
    rw [hset]
    simp
  | ended result _ hreader hfinish =>
    rw [hfinish]
    exact (length_foldl_modify fail s.pending s.calls).ge
  | turned _ data hreader hturn =>
    rw [show s' = ((s.receive data).readTurn isOpen).1 by rw [hturn]]
    have hsame := (parseResponses_same (s.receive data).buf (s.receive data)).calls
    rcases readTurn_cases isOpen (s.receive data) with ⟨heq, _⟩ | heq | ⟨_, heq⟩
    · rw [heq]
      exact (length_foldl_modify fail s.pending s.calls).ge
    · rw [heq]
      exact ((length_foldl_modify fail _ _).trans hsame).ge
    · rw [heq]
      exact hsame.ge

theorem Move.framed (h : Framed s) : Framed s' := by
  cases hm with
  | refused verb payload status _ hsame =>
    rw [hsame]
    exact h
  | quiet _ _ _ _ hparsed hreader hbuf hreceived =>
    refine ⟨?_, ?_, ?_⟩
    · rw [hreceived, hparsed, hbuf]
      exact h.bytes
    · rw [hparsed]
      exact h.responses
    · rw [hreader, hbuf]
      exact h.retained
  | called verb payload hcall =>
    obtain ⟨_, _, rfl⟩ := call_eq hcall
    exact { h with }
  | caller _ k c c' hget hacts hset =>
    rw [hset]
    exact { h with }
  | ended result _ hreader hfinish =>
    rw [hfinish]
    exact ⟨h.bytes, h.responses, nofun⟩
  | turned _ data hreader hturn =>
    rw [show s' = ((s.receive data).readTurn isOpen).1 by rw [hturn]]
    have hbytes : (s.receive data).received =
        ((s.receive data).parsed.map frameBytes).flatten ++ (s.receive data).buf := by
      show s.received ++ data = (s.parsed.map frameBytes).flatten ++ (s.buf ++ data)
      rw [h.bytes, append_assoc]
    have hsame := parseResponses_same (s.receive data).buf (s.receive data)
    obtain ⟨hpass, hresp⟩ := parseResponses_framed hbytes h.responses
    have hpass' : (parseResponses (s.receive data).buf 0 (s.receive data)).2.2.received = _ :=
      hsame.received.trans hpass
    rcases readTurn_cases isOpen (s.receive data) with ⟨heq, _⟩ | heq | ⟨hstop, heq⟩
    · rw [heq]
      exact ⟨hbytes, h.responses, nofun⟩
    · rw [heq, hsame.buf]
      exact ⟨hpass', hresp, nofun⟩
    · rw [heq, hsame.buf]
      exact ⟨hpass', hresp, fun _ => parseResponses_stop _ _ _ hstop⟩

end

/-! ## The end of the reader -/

/-- What the reader leaves of a call: it is the same call, where it was or resumed. -/
structure Kept (c c' : CallFrame) : Prop where
  id : c'.id = c.id
  orphan : c'.orphan = c.orphan
  stage : c'.stage = c.stage ∨ c'.stage = .ready

/-- Every call of the first list is kept at its place in the second. -/
def Keeps (calls calls' : List CallFrame) : Prop :=
  ∀ (k : Nat) (c : CallFrame), calls[k]? = some c → ∃ c', calls'[k]? = some c' ∧ Kept c c'

theorem Keeps.refl (calls : List CallFrame) : Keeps calls calls :=
  fun _ c hk => ⟨c, hk, rfl, rfl, .inl rfl⟩

theorem Keeps.trans {calls calls' calls'' : List CallFrame} (h : Keeps calls calls')
    (h' : Keeps calls' calls'') : Keeps calls calls'' := by
  intro k c hk
  obtain ⟨d, hd, hid, horphan, hstage⟩ := h k c hk
  obtain ⟨e, he, hid', horphan', hstage'⟩ := h' k d hd
  refine ⟨e, he, hid'.trans hid, horphan'.trans horphan, ?_⟩
  rcases hstage' with hsame | hready
  · rw [hsame]
    exact hstage
  · exact .inr hready

theorem wake_kept (c : CallFrame) (p : Pending) : Kept c (wake { c with pending := p }) := by
  refine ⟨wake_id _, wake_orphan _, ?_⟩
  unfold wake
  dsimp only
  split
  · exact .inr rfl
  · exact .inl rfl

theorem Keeps.modify {f : CallFrame → CallFrame} (hf : ∀ c, Kept c (f c)) (i : Nat)
    (calls : List CallFrame) : Keeps calls (calls.modify i f) := by
  intro k c hk
  rw [List.getElem?_modify, hk]
  by_cases hik : i = k
  · exact ⟨f c, by simp [hik], hf c⟩
  · exact ⟨c, by simp [hik], rfl, rfl, .inl rfl⟩

theorem deliver_keeps (h : WireHeader) (payload : Bytes) (s : RpcClient) :
    Keeps s.calls (s.deliver h payload).calls := by
  unfold deliver
  dsimp only
  split
  · exact .modify (fun c => wake_kept c _) _ _
  · exact .refl _

theorem parseResponses_keeps (buf : Bytes) (s : RpcClient) :
    Keeps s.calls (parseResponses buf 0 s).2.2.calls := by
  refine parseResponses_induct (P := fun _ t => Keeps s.calls t.calls) buf ?_ 0 s (.refl _)
  intro pos t f ht _ _
  exact ht.trans (deliver_keeps f.1 f.2 t)

theorem finish_keeps (s : RpcClient) : Keeps s.calls s.finish.calls := by
  show Keeps s.calls (s.pending.foldl (fun calls e => calls.modify e.2 fail) s.calls)
  generalize s.calls = calls
  induction s.pending generalizing calls with
  | nil => exact .refl _
  | cons e l ih => exact (Keeps.modify (fun c => wake_kept c _) e.2 calls).trans (ih _)

/-- The step in which the reader finishes keeps the invariant and every call. -/
theorem Move.finishes (hm : Move isOpen closes s s' a) (h : Inv s)
    (hfew : s.calls.length < 2 ^ 64) (hreader : s.reader ≠ .finished)
    (hfinished : s'.reader = .finished) : Inv s' ∧ Keeps s.calls s'.calls := by
  cases hm with
  | refused verb payload status _ hsame => exact absurd (hsame ▸ hfinished) hreader
  | quiet _ _ _ _ _ hsame => exact absurd (hsame ▸ hfinished) hreader
  | called verb payload hcall =>
    obtain ⟨_, _, rfl⟩ := call_eq hcall
    exact absurd hfinished hreader
  | caller _ k c c' hget hacts hset =>
    rw [hset] at hfinished
    exact absurd hfinished hreader
  | ended result _ _ hfinish =>
    rw [hfinish]
    exact ⟨finish_inv h hreader, finish_keeps s⟩
  | turned _ data _ hturn =>
    have heq' : s' = ((s.receive data).readTurn isOpen).1 := by rw [hturn]
    rw [heq']
    have hmore : Inv (s.receive data) := h.congr rfl rfl rfl rfl .rfl
    refine ⟨readTurn_inv hmore hfew hreader isOpen, ?_⟩
    have hpass := parseResponses_keeps (s.receive data).buf (s.receive data)
    rcases readTurn_cases isOpen (s.receive data) with ⟨heq, _⟩ | heq | ⟨_, heq⟩
    · rw [heq]
      exact finish_keeps (s.receive data)
    · rw [heq]
      exact hpass.trans (finish_keeps _)
    · rw [heq] at heq'
      rw [heq'] at hfinished
      cases hfinished

/-- Once the reader has finished, a call that it knew is decided. -/
theorem Sound.finished (h : Sound s c) (hfinished : s.reader = .finished)
    (horphan : c.orphan = false) :
    c.pending.value = some (match s.firstResponse c with
      | some f => .ok f.2
      | none => .error connectionClosed) := by
  rw [h.value]
  unfold outcome
  cases s.firstResponse c with
  | some f => rfl
  | none => exact if_pos ⟨hfinished, horphan⟩

/-- A decided call is not asleep. -/
theorem Sound.woken (h : Sound s c) (hstage : c.stage = .suspended ∨ c.stage = .ready)
    (hdone : c.pending.done = true) : c.stage = .ready ∧ c.resumes = 1 := by
  have hstaged := h.staged
  unfold Staged at hstaged
  rcases hstage with hstage | hstage
  · rw [hstage] at hstaged
    exact absurd (hstaged.2.1.symm.trans hdone) (by decide)
  · rw [hstage] at hstaged
    exact ⟨hstage, hstaged.2⟩

theorem Pending.done_of_value {p : Pending} {value : Except Status Bytes}
    (h : p.value = some value) : p.done = true := by
  unfold Pending.value at h
  exact (ite_none_right_eq_some.mp h).1

/-! ## Correlation -/

/-- Responses reach the calls they are for. -/
structure Correlates (s : RpcClient) : Prop where
  distinct : ∀ (j k : Nat) (c d : CallFrame), s.calls[j]? = some c → s.calls[k]? = some d →
    c.id = d.id → j = k
  once : ∀ c ∈ s.calls, c.resumes ≤ 1
  /-- A returned call has the outcome that the parsed frames decide. -/
  result : ∀ c ∈ s.calls, ∀ value, c.stage = .returned value → s.outcome c = some value
  ok : ∀ c ∈ s.calls, ∀ bytes, c.stage = .returned (.ok bytes) →
    ∃ h, s.firstResponse c = some (h, bytes)
  /-- The parsed frames are valid responses, read off the bytes received. -/
  framed : Framed s
  /-- A response leaves every call with another id as it is. -/
  others : ∀ (h : WireHeader) (payload : Bytes) (k : Nat) (c : CallFrame), s.calls[k]? = some c →
    c.id ≠ h.reqId → (s.deliver h payload).calls[k]? = some c
  /-- The reader's end fails every call that is outstanding, and resumes it if it sleeps. -/
  ended : ∀ (k : Nat) (c : CallFrame), s.calls[k]? = some c → c.pending.done = false →
    ∃ c', s.finish.calls[k]? = some c' ∧ c'.pending.value = some (.error connectionClosed) ∧
      (c.stage = .suspended → c'.stage = .ready ∧ c'.resumes = 1)

theorem deliver_others (h : Registry s) (hd : WireHeader) (payload : Bytes)
    (hk : s.calls[k]? = some c) (hid : c.id ≠ hd.reqId) :
    (s.deliver hd payload).calls[k]? = some c := by
  unfold deliver
  dsimp only
  cases hfind : s.pending.find? (fun e => e.1 = hd.reqId) with
  | none => exact hk
  | some e =>
    have heid : e.1 = hd.reqId := by simpa using List.find?_some hfind
    obtain ⟨d, hdget, hdid, _⟩ := h.waiting e (List.mem_of_find?_eq_some hfind)
    have hne : e.2 ≠ k := by
      rintro rfl
      rw [hk] at hdget
      cases hdget
      exact hid (hdid.trans heid)
    show (s.calls.modify e.2 _)[k]? = some c
    rw [List.getElem?_modify, hk]
    simp [hne]

theorem Sound.resumes_le (h : Sound s c) : c.resumes ≤ 1 := by
  have hstaged := h.staged
  unfold Staged at hstaged
  cases hstage : c.stage with
  | registered | suspended | ready | returned => rw [hstage] at hstaged; omega

theorem Sound.result (h : Sound s c) {value : Except Status Bytes}
    (hstage : c.stage = .returned value) : s.outcome c = some value := by
  have hstaged := h.staged
  unfold Staged at hstaged
  rw [hstage] at hstaged
  exact h.value.symm.trans hstaged.1

theorem Inv.correlates (h : Inv s) (hframed : Framed s)
    (hfew : s.calls.length < 2 ^ 64) : Correlates s := by
  have hsound : ∀ c ∈ s.calls, Sound s c := by
    intro c hc
    obtain ⟨k, hk⟩ := List.mem_iff_getElem?.mp hc
    exact h.sound k c hk
  refine ⟨fun j k c d => h.registry.id_inj hfew, fun c hc => (hsound c hc).resumes_le,
    fun c hc value => (hsound c hc).result, ?_, hframed,
    fun hd payload k c => deliver_others h.registry hd payload, ?_⟩
  · intro c hc bytes hstage
    have houtcome := (hsound c hc).result hstage
    unfold outcome at houtcome
    cases hfirst : s.firstResponse c with
    | some f =>
      rw [hfirst] at houtcome
      cases houtcome
      exact ⟨f.1, rfl⟩
    | none =>
      rw [hfirst] at houtcome
      obtain ⟨_, heq⟩ := ite_none_right_eq_some.mp houtcome
      cases heq
  · intro k c hk hdone
    have hframe := finish_frame h.registry hk
    rw [if_pos hdone] at hframe
    refine ⟨fail c, hframe, ?_, fun hstage => wake_suspended (h.sound k c hk).staged hstage rfl⟩
    simp [fail, Pending.value, Pending.returned, connectionClosed, Status.isOk]

theorem connected_inv : Inv connected :=
  ⟨⟨rfl, fun k c h => by simp [connected] at h, fun e h => by simp [connected] at h,
    fun k c h => by simp [connected] at h, nodup_nil⟩, fun k c h => by simp [connected] at h⟩

theorem connected_framed : Framed connected :=
  ⟨rfl, fun f h => by simp [connected] at h, nofun⟩

end Bycorf.Rpc.RpcClient

namespace Bycorf.Rpc.Client

open Bycorf.Lib
open RpcClient (Label Move)

theorem step_move {s s' : Client} {a : Label} (hs : s.step a = some s') :
    ∃ closes, Move s.isOpen closes s.rpc s'.rpc a ∧ s'.isOpen = (s.isOpen && !closes) := by
  obtain ⟨⟨rpc, closes⟩, hrpc, rfl⟩ := map_eq_some_iff.mp hs
  exact ⟨closes, RpcClient.step_move hrpc, rfl⟩

theorem reachable_inv {s : Client} (h : system.Reachable s) :
    s.rpc.Framed ∧ (s.rpc.calls.length < 2 ^ 64 → s.rpc.Inv) := by
  refine h.invariant
    (P := fun s => s.rpc.Framed ∧ (s.rpc.calls.length < 2 ^ 64 → s.rpc.Inv)) ?_ ?_
  · rintro s rfl
    exact ⟨RpcClient.connected_framed, fun _ => RpcClient.connected_inv⟩
  · rintro s a s' ⟨hframed, hinv⟩ hs
    obtain ⟨closes, hm, _⟩ := step_move hs
    have hle := hm.calls_le
    exact ⟨hm.framed hframed, fun hfew => hm.inv (hinv (Nat.lt_of_le_of_lt hle hfew)) hfew hle⟩

/-- The steps that end `ReadLoop` whatever it has buffered: the head of the loop on a closed stream,
    a failed read, the peer's end of file. -/
inductive Exits (s : Client) : Label → Prop where
  | closedAtStart (closed : s.isOpen = false) : Exits s .readStart
  | closed (closed : s.isOpen = false) (result : Except Status Bytes) : Exits s (.readResume result)
  | error (status : Status) : Exits s (.readResume (.error status))
  | eof : Exits s (.readResume (.ok []))

/-- How `ReadLoop` ends from here, and what its end does to the calls registered before. -/
structure ReaderEnds (s : Client) : Prop where
  exits : ∀ a s', s.step a = some s' → Exits s a → s'.rpc.reader = .finished
  /-- Otherwise the reader goes on only in front of a frame that is still to come: a bad header ends
      it too. -/
  reads : ∀ a s', s.step a = some s' → (a = .readStart ∨ ∃ result, a = .readResume result) →
    s'.rpc.reader = .finished ∨ s'.rpc.reader = .reading ∧ RpcClient.Incomplete s'.rpc.buf
  /-- The step in which the reader finishes leaves every call decided: with its response, if one was
      parsed, and with `Unavailable` if not.  A call that slept is resumed, once. -/
  fails : ∀ a s', s.step a = some s' → s.rpc.reader ≠ .finished → s'.rpc.reader = .finished →
    ∀ (k : Nat) (c : CallFrame), s.rpc.calls[k]? = some c →
      ∃ c' : CallFrame, s'.rpc.calls[k]? = some c' ∧ c'.id = c.id ∧
      c'.pending.value = some (match s'.rpc.firstResponse c' with
        | some f => .ok f.2
        | none => .error RpcClient.connectionClosed) ∧
      (c.stage = .suspended → c'.stage = .ready ∧ c'.resumes = 1)

section

variable {s s' : Client} {a : Label}

theorem step_readStart (hs : s.step .readStart = some s') :
    s'.rpc = (s.rpc.readTurn s.isOpen).1 := by
  obtain ⟨r, hrpc, rfl⟩ := map_eq_some_iff.mp hs
  obtain ⟨_, heq⟩ := ite_none_right_eq_some.mp hrpc
  rw [some.inj heq]

theorem step_readResume {result : Except Status Bytes}
    (hs : s.step (.readResume result) = some s') :
    s'.rpc = (s.rpc.readResume s.isOpen result).1 := by
  obtain ⟨r, hrpc, rfl⟩ := map_eq_some_iff.mp hs
  obtain ⟨_, heq⟩ := ite_none_right_eq_some.mp hrpc
  rw [some.inj heq]

theorem step_exits (hs : s.step a = some s') (hexit : Exits s a) :
    s'.rpc.reader = .finished := by
  cases hexit with
  | closedAtStart hclosed =>
    rw [step_readStart hs, hclosed]
    rfl
  | closed hclosed result =>
    rw [step_readResume hs, hclosed]
    match result with
    | .error status => rfl
    | .ok [] => rfl
    | .ok (b :: bytes) => rfl
  | error status =>
    rw [step_readResume hs]
    rfl
  | eof =>
    rw [step_readResume hs]
    rfl

theorem readTurn_reader (isOpen : Bool) (t : RpcClient) :
    (t.readTurn isOpen).1.reader = .finished ∨ (t.readTurn isOpen).1.reader = .reading := by
  rcases RpcClient.readTurn_cases isOpen t with ⟨heq, _⟩ | heq | ⟨_, heq⟩ <;> rw [heq]
  · exact .inl rfl
  · exact .inl rfl
  · exact .inr rfl

/-- After its own step the reader is in its next read or at its end. -/
theorem step_reads (hs : s.step a = some s')
    (ha : a = .readStart ∨ ∃ result, a = .readResume result) :
    s'.rpc.reader = .finished ∨ s'.rpc.reader = .reading := by
  rcases ha with rfl | ⟨result, rfl⟩
  · rw [step_readStart hs]
    exact readTurn_reader _ _
  · rw [step_readResume hs]
    match result with
    | .error status => exact .inl rfl
    | .ok [] => exact .inl rfl
    | .ok (b :: bytes) => exact readTurn_reader _ _

end

theorem readerEnds {s : Client} (hframed : s.rpc.Framed) (h : s.rpc.Inv)
    (hfew : s.rpc.calls.length < 2 ^ 64) : ReaderEnds s := by
  refine ⟨fun a s' => step_exits, ?_, ?_⟩
  · intro a s' hs ha
    obtain ⟨closes, hm, _⟩ := step_move hs
    rcases step_reads hs ha with hfinished | hreading
    · exact .inl hfinished
    · exact .inr ⟨hreading, (hm.framed hframed).retained hreading⟩
  · intro a s' hs hreader hfinished k c hk
    obtain ⟨closes, hm, _⟩ := step_move hs
    obtain ⟨hinv, hkeeps⟩ := hm.finishes h hfew hreader hfinished
    obtain ⟨c', hk', hkept⟩ := hkeeps k c hk
    have horphan : c.orphan = false := by
      by_contra hnot
      exact hreader ((h.sound k c hk).orphan (by simpa using hnot))
    have hsound := hinv.sound k c' hk'
    have hvalue := hsound.finished hfinished (hkept.orphan.trans horphan)
    refine ⟨c', hk', hkept.id, hvalue, fun hstage => hsound.woken ?_ ?_⟩
    · rw [← hstage]
      exact hkept.stage.imp_right id
    · exact RpcClient.Pending.done_of_value hvalue

/-- **The client correlates responses correctly**, for fewer than 2^64 calls: each call returns the
    payload of the first response with its id, at most once, and the end of the reader fails the
    calls that have none. -/
theorem reachable_correlates {s : Client} (h : system.Reachable s)
    (hfew : s.rpc.calls.length < 2 ^ 64) : s.rpc.Correlates ∧ s.ReaderEnds := by
  obtain ⟨hframed, hinv⟩ := reachable_inv h
  exact ⟨(hinv hfew).correlates hframed hfew, readerEnds hframed (hinv hfew) hfew⟩

/-- Three calls: two are answered in the opposite order over three reads, with a duplicate in
    between, and one sleeps. -/
def crossedLabels : List Label :=
  let second := appendFrame [] ⟨2, 1, 9, kResponse, 0⟩ [20]
  let first := appendFrame [] ⟨1, 2, 9, kResponse, 0⟩ [10, 11]
  [.readStart, .call 9 [1], .callSuspend 0, .call 9 [2], .callSuspend 1, .call 9 [3],
    .callSuspend 2, .readResume (.ok second), .readResume (.ok (second ++ first.take 17)),
    .readResume (.ok (first.drop 17)), .callResume 0, .callResume 1]

theorem correlates_crossed : ∃ s, system.run ⟨RpcClient.connected, true⟩ crossedLabels = some s ∧
    s.rpc.calls.map (fun c => (c.id, c.pending.result, c.pending.done, c.resumes)) =
      [(1, [10, 11], true, 1), (2, [20], true, 1), (3, [], false, 0)] ∧
    (system.run ⟨RpcClient.connected, true⟩ (crossedLabels ++ [.readResume (.ok [])])).map
      (fun s => s.rpc.calls.map fun c => (c.id, c.pending.status, c.resumes)) =
      some [(1, Status.okStatus, 1), (2, Status.okStatus, 1), (3, RpcClient.connectionClosed, 1)] ∧
    s.rpc.Correlates ∧ s.ReaderEnds := by
  have hview : (system.run ⟨RpcClient.connected, true⟩ crossedLabels).map
      (fun s => s.rpc.calls.map fun c => (c.id, c.pending.result, c.pending.done, c.resumes)) =
      some [(1, [10, 11], true, 1), (2, [20], true, 1), (3, [], false, 0)] := by decide +kernel
  obtain ⟨s, hs, hcalls⟩ := map_eq_some_iff.mp hview
  have hlen : s.rpc.calls.length = 3 := by simpa using congrArg List.length hcalls
  exact ⟨s, hs, hcalls, by decide +kernel, reachable_correlates
    (Reachable.run (.init rfl) crossedLabels hs) (by rw [hlen]; decide)⟩

end Bycorf.Rpc.Client
