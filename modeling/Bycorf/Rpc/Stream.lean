/-
  `RpcServer::Serve` on an ARBITRARY byte stream: what the peer sees, and how far it depends on
  where the reads cut the stream.

  1. **Streams** — every byte stream is a sequence of request frames whose answers fit, followed by
     a `Short` rest that stays incomplete, or by an `Offence`: the bytes that make `Serve` return an
     error (`stream_cases`).
  2. **One turn** — `AtTop` says where a session stands at the top of its loop; `AtTop.pass` and
     `AtTop.raised` say what the parsing pass does there.
  3. **Whole sessions** — `outcome_short` and `outcome_offence` compute what is written and
     returned.  Responses leave only after the pass, and an error drops them: the answers of the
     requests that were completed by the SAME read as the offence are lost.
  4. **The law** — the outcome is a function of the stream exactly when no read of `chunkSize` bytes
     can hold the end of an answered request and a whole offence.
-/
import Bycorf.Rpc.Server

namespace Bycorf.Rpc

open List (append_assoc append_nil flatten_append flatten_cons length_append length_drop
  length_nil map_cons nil_append take)

/-! ## Splits and outcomes -/

/-- The size of the array `Serve` reads into. -/
def chunkSize : Nat := 16384

/-- The reads `chunks` deliver `stream`. -/
structure IsSplit (stream : Bytes) (chunks : List Bytes) : Prop where
  flatten : chunks.flatten = stream
  nonempty : ∀ c ∈ chunks, c ≠ []
  size : ∀ c ∈ chunks, c.length ≤ chunkSize

/-- What a session over `chunks` and then the peer's close writes, and the status it returns. -/
def outcome (server : RpcServer) (chunks : List Bytes) : Bytes × Option Status :=
  let result := serve server (readRounds chunks) Session.start
  (result.1.written, result.2)

/-- The header test of `Serve`. -/
def InvalidHeader (h : WireHeader) : Prop :=
  h.type ≠ kRequest ∨ h.pad ≠ 0 ∨ kMaxPayloadBytes < h.len.toNat

instance (h : WireHeader) : Decidable (InvalidHeader h) :=
  inferInstanceAs (Decidable (_ ∨ _ ∨ _))

/-- The bytes that end a session with an error, after `served` requests: a header that is not one of
    a request, or a request whose response is too large. -/
inductive Offence (server : RpcServer) (served : Nat) : Bytes → Status → Prop where
  | header {bad : Bytes} (length : bad.length = kHeader)
      (invalid : InvalidHeader (decodeHeader bad)) : Offence server served bad invalidRequestHeader
  | response (r : Request)
      (large : kMaxPayloadBytes < (server.dispatch served r.verb r.payload).2.length) :
      Offence server served r.frame responseTooLarge

/-- A rest that is never a whole frame and shows no error. -/
def Short (rest : Bytes) : Prop :=
  rest.length < kHeader ∨ (¬ InvalidHeader (decodeHeader rest) ∧
      rest.length < kHeader + (decodeHeader rest).len.toNat)

theorem length_frames_append (xs ys : List Request) :
    (frames (xs ++ ys)).length = (frames xs).length + (frames ys).length := by
  simp [frames]

/-- Decoding does not look behind the header. -/
theorem decodeHeader_append {bytes : Bytes} (h : kHeader ≤ bytes.length) (rest : Bytes) :
    decodeHeader (bytes ++ rest) = decodeHeader bytes := by
  rw [← decodeHeader_take, List.take_append_of_le_length h, decodeHeader_take]

variable {stream : Bytes}

/-- A valid header with its payload is the frame of a request. -/
theorem exists_request (hvalid : ¬ InvalidHeader (decodeHeader stream))
    (hlen : kHeader + (decodeHeader stream).len.toNat ≤ stream.length) :
    ∃ (r : Request) (rest : Bytes), stream = r.frame ++ rest := by
  have hpay : (decodeHeader stream).len.toNat ≤ kMaxPayloadBytes :=
    Nat.not_lt.mp fun h => hvalid (.inr (.inr h))
  have hplen : ((stream.drop kHeader).take (decodeHeader stream).len.toNat).length =
      (decodeHeader stream).len.toNat := by
    rw [List.length_take, length_drop]
    omega
  let r : Request :=
    ⟨(decodeHeader stream).reqId, (decodeHeader stream).verb,
      (stream.drop kHeader).take (decodeHeader stream).len.toNat, by rw [hplen]; exact hpay⟩
  have hheader : r.header = decodeHeader stream := by
    have htype : (decodeHeader stream).type = kRequest :=
      Decidable.of_not_not fun h => hvalid (.inl h)
    have hpad : (decodeHeader stream).pad = 0 := Decidable.of_not_not fun h =>
      hvalid (.inr (.inl h))
    show WireHeader.mk _ (UInt32.ofNat (List.length (take _ _))) _ kRequest 0 = _
    rw [hplen, UInt32.ofNat_toNat, ← htype, ← hpad]
  refine ⟨r, stream.drop (kHeader + (decodeHeader stream).len.toNat), ?_⟩
  rw [Request.frame, hheader, encodeHeader_decodeHeader (by omega), ← List.drop_drop, append_assoc]
  show stream = stream.take kHeader ++ (take _ _ ++ _)
  rw [List.take_append_drop, List.take_append_drop]

/-- **Every stream** is a sequence of answered requests with a short rest or an offence behind it.
    Strong induction on the length: what is in front is one of the four things `Serve` tells
    apart. -/
theorem stream_cases (server : RpcServer) (stream : Bytes) (served : Nat) :
    ∃ requests rest, stream = frames requests ++ rest ∧ AnswersFit server served requests ∧
      (Short rest ∨ ∃ bad behind status, rest = bad ++ behind ∧
        Offence server (served + requests.length) bad status) := by
  induction hn : stream.length using Nat.strong_induction_on generalizing stream served with
  | _ n ih =>
    by_cases hk : stream.length < kHeader
    · exact ⟨[], stream, rfl, trivial, .inl (.inl hk)⟩
    by_cases hbad : InvalidHeader (decodeHeader stream)
    · refine ⟨[], stream, rfl, trivial, .inr ⟨stream.take kHeader, stream.drop kHeader,
        invalidRequestHeader, (List.take_append_drop _ _).symm, .header ?_ ?_⟩⟩
      · rw [List.length_take]
        omega
      · rw [decodeHeader_take]
        exact hbad
    by_cases hpart : stream.length < kHeader + (decodeHeader stream).len.toNat
    · exact ⟨[], stream, rfl, trivial, .inl (.inr ⟨hbad, hpart⟩)⟩
    obtain ⟨r, rest, hstream⟩ := exists_request hbad (by omega)
    by_cases hfit : (server.dispatch served r.verb r.payload).2.length ≤ kMaxPayloadBytes
    · have hlt : rest.length < n := by
        rw [← hn, hstream, length_append, r.length_frame]
        have : 0 < kHeader := by decide
        omega
      obtain ⟨requests, tail, hrest, hfits, hend⟩ := ih rest.length hlt rest (served + 1) rfl
      refine ⟨r :: requests, tail, ?_, ⟨hfit, hfits⟩, ?_⟩
      · rw [hstream, hrest, frames_cons, append_assoc]
      · rwa [List.length_cons, Nat.add_comm requests.length, ← Nat.add_assoc]
    exact ⟨[], stream, rfl, trivial,
      .inr ⟨r.frame, rest, responseTooLarge, hstream, .response r (Nat.not_le.mp hfit)⟩⟩

/-! ## The end of the stream -/

/-- How a pass behaves in front of `rest`: it stops there, or, once `fault.1` bytes of it have
    arrived, ends with the status `fault.2`. -/
structure Ending (server : RpcServer) (served : Nat) (rest : Bytes)
    (fault : Option (Nat × Status)) : Prop where
  quiet : ∀ (buf more : Bytes) (pos : Nat) (p : Pass), p.served = served →
    buf.drop pos ++ more = rest → (∀ f ∈ fault, buf.length - pos < f.1) →
    parseLoop server buf pos p = .ok (pos, p)
  raised : ∀ (buf more : Bytes) (pos : Nat) (p : Pass), p.served = served →
    buf.drop pos ++ more = rest → ∀ f ∈ fault, f.1 ≤ buf.length - pos →
    ∃ p', parseLoop server buf pos p = .error (f.2, p')

variable {served : Nat} {server : RpcServer} {rest : Bytes}

theorem Short.ending (h : Short rest) : Ending server served rest none where
  quiet buf more pos p _ hrest _ := by
    by_cases hk : kHeader ≤ buf.length - pos
    · have hdl : (buf.drop pos).length = buf.length - pos := length_drop
      have hdec : decodeHeader rest = decodeHeader (buf.drop pos) := by
        rw [← hrest, decodeHeader_append (by omega)]
      have hle : buf.length - pos ≤ rest.length := by
        rw [← hrest, length_append]
        omega
      rcases h with h | ⟨hvalid, hpart⟩
      · omega
      rw [hdec] at hvalid hpart
      have hpart' : buf.length - pos - kHeader < (decodeHeader (buf.drop pos)).len.toNat := by
        omega
      rw [parseLoop, dif_pos hk]
      simp only [if_neg (show ¬ (_ ∨ _ ∨ _) from hvalid), if_pos hpart']
    · rw [parseLoop, dif_neg hk]
  raised buf more pos p _ _ f hf := by cases hf

variable {status : Status} {bad : Bytes}

theorem Offence.ending (h : Offence server served bad status) (behind : Bytes) :
    Ending server served (bad ++ behind) (some (bad.length, status)) := by
  cases h with
  | header hlen hinvalid =>
    refine ⟨fun buf more pos p _ _ hlt => ?_, fun buf more pos p _ hrest f hf hle => ?_⟩
    · have hk : ¬ kHeader ≤ buf.length - pos := by
        have := hlt _ rfl
        omega
      rw [parseLoop, dif_neg hk]
    · cases hf
      have hk : kHeader ≤ buf.length - pos := by
        show kHeader ≤ _
        rw [← hlen]
        exact hle
      have hdec : decodeHeader (buf.drop pos) = decodeHeader bad := by
        rw [← decodeHeader_append (by rw [length_drop]; exact hk) more, hrest,
          decodeHeader_append hlen.ge]
      rw [← hdec] at hinvalid
      refine ⟨p, ?_⟩
      rw [parseLoop, dif_pos hk]
      exact if_pos hinvalid
  | response r hlarge =>
    refine ⟨fun buf more pos p _ hrest hlt => ?_, fun buf more pos p hserved hrest f hf hle => ?_⟩
    · exact parseLoop_incomplete p hrest (by rw [← r.length_frame]; exact hlt _ rfl)
    · cases hf
      rw [← hserved] at hlarge
      have hloop := @parseLoop_frame _ _ _ server _ _ p hrest (by rw [← r.length_frame]; exact hle)
      rw [if_pos hlarge] at hloop
      exact ⟨_, hloop⟩

/-! ## One turn -/

/-- The top of the loop: `done` is answered, and what is in the buffer and still to come spells the
    frames of `todo` and `rest` behind them. -/
structure AtTop (server : RpcServer) (rest more : Bytes) (s : Session)
    (done todo : List Request) : Prop where
  served : s.served = done.length
  written : s.written = repliesFrom server 0 done
  bytes : s.buf ++ more = frames todo ++ rest
  fit : AnswersFit server done.length todo

section Turn

variable {server : RpcServer} {rest more : Bytes} {s : Session} {done todo : List Request}
  {fault : Option (Nat × Status)}

theorem AtTop.length (h : AtTop server rest more s done todo) :
    s.buf.length + more.length = (frames todo).length + rest.length := by
  have := congrArg List.length h.bytes
  rwa [length_append, length_append] at this

variable {now later : List Request}

/-- A pass that has consumed `now` stands right behind its frames. -/
theorem AtTop.pos_eq (h : AtTop server rest more s done todo) {pos : Nat}
    (htodo : todo = now ++ later) (hpos : pos ≤ s.buf.length)
    (hrest : s.buf.drop pos ++ more = frames later ++ rest) : pos = (frames now).length := by
  have h1 := h.length
  have h2 := congrArg List.length hrest
  rw [length_append, length_append, length_drop] at h2
  rw [htodo, length_frames_append] at h1
  omega

/-- What the pass at the top of a turn leaves, if it does not reach an offence: `now` answered, and
    the rest of the buffer shorter than the next frame. -/
structure Passed (server : RpcServer) (rest more : Bytes) (s : Session)
    (todo now later : List Request) : Prop where
  split : todo = now ++ later
  parse : parseLoop server s.buf 0 ⟨s.served, s.calls, []⟩ =
    .ok ((frames now).length, Pass.serveAll server ⟨s.served, s.calls, []⟩ now)
  le : (frames now).length ≤ s.buf.length
  bytes : s.buf.drop (frames now).length ++ more = frames later ++ rest
  short : ∀ r ∈ later.head?, s.buf.length < (frames now).length + r.frame.length

section

variable (h : AtTop server rest more s done todo)
  (hend : Ending server (done.length + todo.length) rest fault)
include h hend

/-- **The quiet pass.** -/
theorem AtTop.pass (hquiet : ∀ f ∈ fault, s.buf.length < (frames todo).length + f.1) :
    ∃ now later, Passed server rest more s todo now later := by
  have hfit : AnswersFit server s.served todo := by
    rw [h.served]
    exact h.fit
  cases parseLoop_answers server s.buf more rest todo 0 ⟨s.served, s.calls, []⟩ (Nat.zero_le _)
    hfit (by rw [List.drop_zero]; exact h.bytes) with
  | stopped pos now r later hsplit hle hrest hshort heq =>
    have hpos := h.pos_eq hsplit hle hrest
    subst hpos
    refine ⟨now, r :: later, hsplit, heq, hle, hrest, ?_⟩
    intro r' hr'
    cases hr'
    rw [r.length_frame]
    omega
  | arrived pos hle hrest heq =>
    have hpos := h.pos_eq (append_nil todo).symm hle
      (by rw [hrest]; exact (nil_append rest).symm)
    subst hpos
    refine ⟨todo, [], (append_nil todo).symm, ?_, hle, hrest, by simp⟩
    rw [heq]
    refine hend.quiet s.buf more _ _ ?_ hrest fun f hf => ?_
    · show s.served + todo.length = _
      rw [h.served]
    · have := hquiet f hf
      omega

/-- **The failing pass**: the offence has arrived, so the pass goes through every request in front
    of it and ends with its status. -/
theorem AtTop.raised {f : Nat × Status}
    (hf : f ∈ fault) (hle : (frames todo).length + f.1 ≤ s.buf.length) :
    ∃ p, parseLoop server s.buf 0 ⟨s.served, s.calls, []⟩ = .error (f.2, p) := by
  have hfit : AnswersFit server s.served todo := by
    rw [h.served]
    exact h.fit
  cases parseLoop_answers server s.buf more rest todo 0 ⟨s.served, s.calls, []⟩ (Nat.zero_le _)
    hfit (by rw [List.drop_zero]; exact h.bytes) with
  | stopped pos now r later hsplit hpos hrest hshort heq =>
    have hpos' := h.pos_eq hsplit hpos hrest
    rw [hsplit, length_frames_append, frames_cons, length_append, r.length_frame] at hle
    omega
  | arrived pos hpos hrest heq =>
    have hpos' := h.pos_eq (append_nil todo).symm hpos
      (by rw [hrest]; exact (nil_append rest).symm)
    rw [heq]
    refine hend.raised s.buf more pos _ ?_ hrest f hf (by omega)
    show s.served + todo.length = _
    rw [h.served]

end

/-- The session after a quiet pass and its write. -/
def Passed.session (s : Session) (server : RpcServer) (now : List Request) : Session :=
  s.turn (frames now).length (Pass.serveAll server ⟨s.served, s.calls, []⟩ now)

theorem AtTop.written_session (h : AtTop server rest more s done todo) (now : List Request) :
    (Passed.session s server now).written = repliesFrom server 0 (done ++ now) := by
  show s.written ++ ([] ++ repliesFrom server s.served now) = _
  rw [h.written, h.served, repliesFrom_append, Nat.zero_add, nil_append]

/-- A turn that reads `chunk` arrives at the top again. -/
theorem Passed.read {chunk : Bytes}
    (h : AtTop server rest (chunk ++ more) s done todo)
    (hp : Passed server rest (chunk ++ more) s todo now later) :
    AtTop server rest more
      { Passed.session s server now with buf := s.buf.drop (frames now).length ++ chunk }
      (done ++ now) later where
  served := by
    show s.served + now.length = _
    rw [h.served, length_append]
  written := h.written_session now
  bytes := by
    show s.buf.drop _ ++ chunk ++ more = _
    rw [append_assoc]
    exact hp.bytes
  fit := by
    have hfit := h.fit
    rw [hp.split] at hfit
    rw [length_append]
    exact hfit.drop

end Turn

/-! ## Whole sessions -/

/-- The rounds of reads that deliver `chunks`. -/
def readsOf (chunks : List Bytes) : List Round := chunks.map fun chunk => ⟨true, .ok (), .ok chunk⟩

theorem readRounds_append (xs ys : List Bytes) :
    readRounds (xs ++ ys) = readsOf xs ++ readRounds ys := by
  simp [readRounds, readsOf]

/-- A session whose pass fails ends there; what it had answered in that pass is dropped. -/
theorem serve_error {s : Session} {p : Pass}
    (h : parseLoop server s.buf 0 ⟨s.served, s.calls, []⟩ = .error (status, p))
    (chunks : List Bytes) :
    (serve server (readRounds chunks) s).1.written = s.written ∧
      (serve server (readRounds chunks) s).2 = some status := by
  have hround : ∀ (chunk : Bytes) (rounds : List Round),
      serve server (⟨true, .ok (), .ok chunk⟩ :: rounds) s =
        ({ s with served := p.served, calls := p.calls }, some status) := by
    intro chunk rounds
    rw [serve]
    simp only [Bool.true_eq_false, if_false, h]
  cases chunks with
  | nil =>
    rw [readRounds, nil_append, List.map_singleton, hround]
    exact ⟨rfl, rfl⟩
  | cons c cs =>
    rw [readRounds, List.cons_append, map_cons, hround]
    exact ⟨rfl, rfl⟩

/-- Where a session stands after the reads `pre ++ [c]`: the answered requests are those that were
    complete BEFORE `c` arrived. -/
structure Advanced (server : RpcServer) (rest more : Bytes) (s s' : Session)
    (done todo now later : List Request) (seen : Nat) : Prop where
  split : todo = now ++ later
  top : AtTop server rest more s' (done ++ now) later
  le : (frames now).length ≤ seen
  short : ∀ r ∈ later.head?, seen < (frames now).length + r.frame.length

/-- **The run lemma.**  Induction on the reads before the last; as long as no offence has arrived
    every turn is quiet. -/
theorem AtTop.advance {rest more : Bytes} {fault : Option (Nat × Status)}
    (c : Bytes) (hc : c ≠ []) (rounds : List Round) :
    ∀ (before : List Bytes) (s : Session) (done todo : List Request), (∀ x ∈ before, x ≠ []) →
      AtTop server rest (before.flatten ++ (c ++ more)) s done todo →
      Ending server (done.length + todo.length) rest fault →
      (∀ f ∈ fault, s.buf.length + before.flatten.length < (frames todo).length + f.1) →
      ∃ s' now later, serve server (readsOf (before ++ [c]) ++ rounds) s = serve server rounds s' ∧
        Advanced server rest more s s' done todo now later
          (s.buf.length + before.flatten.length) := by
  intro before
  induction before with
  | nil =>
    intro s done todo _ htop hend hquiet
    obtain ⟨now, later, hp⟩ := AtTop.pass htop hend hquiet
    refine ⟨_, now, later, ?_, hp.split, hp.read htop, hp.le, hp.short⟩
    show serve server (⟨true, .ok (), .ok c⟩ :: rounds) s = _
    rw [serve_turn hp.parse, if_neg hc]
    rfl
  | cons x before ih =>
    intro s done todo hne htop hend hquiet
    have hx : x ≠ [] := hne x (List.mem_cons_self ..)
    rw [flatten_cons, append_assoc] at htop
    simp only [flatten_cons, length_append] at hquiet
    obtain ⟨now, later, hp⟩ := AtTop.pass htop hend (fun f hf => by have := hquiet f hf; omega)
    have htop' := hp.read htop
    have hlen : (s.buf.drop (frames now).length ++ x).length =
        s.buf.length - (frames now).length + x.length := by
      rw [length_append, length_drop]
    have hsplit := hp.split
    have hle := hp.le
    have hcount : (done ++ now).length + later.length = done.length + todo.length := by
      rw [hsplit, length_append, length_append]
      omega
    obtain ⟨s', now', later', hserve, hadv⟩ := ih _ _ _
      (fun y hy => hne y (List.mem_cons_of_mem _ hy)) htop' (by rw [hcount]; exact hend) (by
        intro f hf
        have h1 := hquiet f hf
        rw [hsplit, length_frames_append] at h1
        show List.length (_ ++ _) + _ < _
        rw [hlen]
        omega)
    have hseen : s.buf.length + (x :: before).flatten.length =
        (frames now).length + ((s.buf.drop (frames now).length ++ x).length +
          before.flatten.length) := by
      rw [hlen, flatten_cons, length_append]
      omega
    refine ⟨s', now ++ now', later', ?_, ?_, ?_, ?_, ?_⟩
    · show serve server (⟨true, .ok (), .ok x⟩ :: (readsOf (before ++ [c]) ++ rounds)) s = _
      rw [serve_turn hp.parse, if_neg hx]
      exact hserve
    · rw [hsplit, hadv.split, append_assoc]
    · rw [← append_assoc]
      exact hadv.top
    · rw [hseen, length_frames_append]
      have := hadv.le
      exact Nat.add_le_add_left this _
    · intro r hr
      rw [hseen, length_frames_append, Nat.add_assoc]
      exact Nat.add_lt_add_left (hadv.short r hr) _

variable {requests : List Request}

/-- The session at its start, in front of a whole stream. -/
theorem AtTop.start
    (hstream : stream = frames requests ++ rest) (hfit : AnswersFit server 0 requests) :
    AtTop server rest stream Session.start [] requests :=
  ⟨rfl, rfl, hstream, hfit⟩

variable {chunks : List Bytes}

/-- **A stream that ends in a short rest**: every request is answered, however it is split. -/
theorem outcome_short (hne : ∀ c ∈ chunks, c ≠ [])
    (hstream : chunks.flatten = frames requests ++ rest) (hfit : AnswersFit server 0 requests)
    (hshort : Short rest) :
    outcome server chunks = (repliesFrom server 0 requests, some Status.okStatus) := by
  have hlast : ∀ (s : Session) (done todo : List Request), AtTop server rest [] s done todo →
      serve server (readRounds []) s = (Passed.session s server todo, some Status.okStatus) ∧
      (Passed.session s server todo).written = repliesFrom server 0 (done ++ todo) := by
    intro s done todo htop
    obtain ⟨now, later, hp⟩ := AtTop.pass htop hshort.ending (nofun)
    -- nothing more is coming, so an incomplete frame cannot be left over
    have hlater : later = [] := by
      rcases later with _ | ⟨r, rs⟩
      · rfl
      have h1 := hp.short r rfl
      have h2 := htop.length
      rw [hp.split, length_frames_append, frames_cons, length_append, length_nil] at h2
      omega
    have hnow : todo = now := by rw [hp.split, hlater, append_nil]
    subst hnow
    refine ⟨?_, htop.written_session todo⟩
    rw [readRounds, nil_append, List.map_singleton, serve_turn hp.parse, if_pos rfl]
    rfl
  rcases List.eq_nil_or_concat chunks with hnil | ⟨before, c, hcons⟩
  · subst hnil
    obtain ⟨hserve, hwritten⟩ := hlast _ _ _ (AtTop.start hstream hfit)
    rw [outcome, hserve]
    exact Prod.ext hwritten rfl
  rw [List.concat_eq_append] at hcons
  subst hcons
  have htop := AtTop.start hstream hfit
  rw [flatten_append, List.flatten_singleton, ← append_nil c] at htop
  obtain ⟨s', now, later, hserve, hadv⟩ :=
    AtTop.advance c (hne c (by simp)) (readRounds []) before Session.start [] requests
      (fun x hx => hne x (by simp [hx])) htop hshort.ending (nofun)
  obtain ⟨hend, hwritten⟩ := hlast _ _ _ hadv.top
  rw [outcome, ← append_nil (before ++ [c]), readRounds_append, hserve, hend]
  rw [nil_append, ← hadv.split] at hwritten
  exact Prod.ext hwritten rfl

/-- The read that brings byte `n`. -/
theorem exists_read : ∀ (chunks : List Bytes) {n : Nat}, n < chunks.flatten.length →
    ∃ before c after, chunks = before ++ c :: after ∧ before.flatten.length ≤ n ∧
      n < before.flatten.length + c.length
  | [], _, h => by cases h
  | c :: cs, n, h => by
    by_cases hc : n < c.length
    · exact ⟨[], c, cs, rfl, Nat.zero_le _, by simpa using hc⟩
    rw [flatten_cons, length_append] at h
    obtain ⟨before, d, after, hcs, hle, hlt⟩ := exists_read cs (n := n - c.length) (by omega)
    refine ⟨c :: before, d, after, by rw [hcs]; rfl, ?_, ?_⟩
    · rw [flatten_cons, length_append]
      omega
    · rw [flatten_cons, length_append]
      omega

/-- **A stream with an offence**: `kept` are the requests that were complete before the read `c`
    that completes the offence; exactly their responses are written. -/
theorem outcome_offence {behind : Bytes} (hne : ∀ c ∈ chunks, c ≠ [])
    (hstream : chunks.flatten = frames requests ++ (bad ++ behind))
    (hfit : AnswersFit server 0 requests) (hoff : Offence server requests.length bad status) :
    ∃ before c after kept lost, chunks = before ++ c :: after ∧ requests = kept ++ lost ∧
      before.flatten.length < (frames requests).length + bad.length ∧
      (frames requests).length + bad.length ≤ before.flatten.length + c.length ∧
      (frames kept).length ≤ before.flatten.length ∧
      (∀ r ∈ lost.head?, before.flatten.length < (frames kept).length + r.frame.length) ∧
      outcome server chunks = (repliesFrom server 0 kept, some status) := by
  have hbad : 0 < bad.length := by
    have hk : 0 < kHeader := by decide
    cases hoff with
    | header hlen _ => omega
    | response r _ =>
      rw [r.length_frame]
      omega
  have htotal := congrArg List.length hstream
  rw [length_append, length_append] at htotal
  obtain ⟨before, c, after, hchunks, hle, hlt⟩ :=
    exists_read chunks (n := (frames requests).length + bad.length - 1) (by omega)
  subst hchunks
  have htop := AtTop.start hstream hfit
  rw [flatten_append, flatten_cons] at htop
  have hend : Ending server (([] : List Request).length + requests.length) (bad ++ behind)
      (some (bad.length, status)) := by
    rw [length_nil, Nat.zero_add]
    exact hoff.ending behind
  obtain ⟨s', kept, lost, hserve, hadv⟩ :=
    AtTop.advance c (hne c (by simp)) (readRounds after) before Session.start [] requests
      (fun x hx => hne x (by simp [hx])) htop hend (by
        intro f hf
        cases hf
        show 0 + _ < (_ : Nat)
        omega)
  have hkept := hadv.le
  have hshort := hadv.short
  rw [show Session.start.buf.length = 0 from rfl, Nat.zero_add] at hkept hshort
  -- behind `c` the whole offence is in the buffer
  have hlen := hadv.top.length
  have hin : (frames lost).length + bad.length ≤ s'.buf.length := by
    rw [length_append] at hlen
    rw [flatten_append, flatten_cons, length_append, length_append] at htotal
    rw [hadv.split, length_frames_append] at htotal hlt
    omega
  have hcount : ([] ++ kept).length + lost.length =
    ([] : List Request).length + requests.length := by
    rw [hadv.split, nil_append, length_append, length_nil, Nat.zero_add]
  obtain ⟨p, hp⟩ := hadv.top.raised (by rw [hcount]; exact hend) rfl hin
  obtain ⟨hw, hst⟩ := serve_error hp after
  refine ⟨before, c, after, kept, lost, rfl, hadv.split, by omega, by omega, hkept, hshort, ?_⟩
  have hrounds : readRounds (before ++ c :: after) =
    readsOf (before ++ [c]) ++ readRounds after := by
    rw [← readRounds_append, append_assoc, List.singleton_append]
  rw [outcome, hrounds, hserve]
  refine Prod.ext ?_ hst
  rw [hw, hadv.top.written, nil_append]

/-! ## What depends on the stream only -/

/-- The session is a function of the byte stream: any two splits give the same bytes and the same
    status, and a session that ends with an error has written the responses to everything in front
    of it. -/
def StreamOnly (server : RpcServer) (stream : Bytes) : Prop :=
  (∀ chunks chunks', IsSplit stream chunks → IsSplit stream chunks' →
    outcome server chunks = outcome server chunks') ∧
  ∀ chunks requests bad behind status, IsSplit stream chunks →
    stream = frames requests ++ (bad ++ behind) → AnswersFit server 0 requests →
    Offence server requests.length bad status →
    outcome server chunks = (repliesFrom server 0 requests, some status)

/-- The stream has an offence behind at least one answered request, and the last byte of that
    request and the offence fit into one read. -/
def AnswersAtRisk (server : RpcServer) (stream : Bytes) : Prop :=
  ∃ requests bad behind status, stream = frames requests ++ (bad ++ behind) ∧ requests ≠ [] ∧
    AnswersFit server 0 requests ∧ Offence server requests.length bad status ∧
    bad.length < chunkSize

/-- Without that risk every response in front of an offence is written. -/
theorem outcome_kept {behind : Bytes} (hsplit : IsSplit stream chunks)
    (hstream : stream = frames requests ++ (bad ++ behind)) (hfit : AnswersFit server 0 requests)
    (hoff : Offence server requests.length bad status)
    (hrisk : requests = [] ∨ ∀ c ∈ chunks, c.length ≤ bad.length) :
    outcome server chunks = (repliesFrom server 0 requests, some status) := by
  obtain ⟨before, c, after, kept, lost, hchunks, hreq, _, hc, _, hshort, hout⟩ :=
    outcome_offence hsplit.nonempty (hsplit.flatten.trans hstream) hfit hoff
  have hlost : lost = [] := by
    rcases lost with _ | ⟨r, rs⟩
    · rfl
    exfalso
    rcases hrisk with hnil | hsize
    · rw [hnil] at hreq
      exact List.append_ne_nil_of_right_ne_nil kept (List.cons_ne_nil r rs) hreq.symm
    have h1 := hshort r rfl
    have h2 := hsize c (by rw [hchunks]; simp)
    rw [hreq, length_frames_append, frames_cons, length_append] at hc
    omega
  rw [hout, hreq, hlost, append_nil]

theorem Offence.kHeader_le (h : Offence server served bad status) : kHeader ≤ bad.length := by
  cases h with
  | header hlen _ => exact hlen.ge
  | response r _ =>
    rw [r.length_frame]
    omega

/-- The split into single bytes. -/
def singles (bytes : Bytes) : List Bytes := bytes.map fun b => [b]

theorem flatten_singles (bytes : Bytes) : (singles bytes).flatten = bytes := by
  induction bytes with
  | nil => rfl
  | cons b bs ih => rw [singles, map_cons, flatten_cons, ← singles, ih]; rfl

theorem length_of_mem_singles {bytes c : Bytes} (h : c ∈ singles bytes) : c.length = 1 := by
  obtain ⟨b, _, rfl⟩ := List.mem_map.mp h
  rfl

theorem isSplit_singles (bytes : Bytes) : IsSplit bytes (singles bytes) where
  flatten := flatten_singles bytes
  nonempty c hc hnil := by
    have := length_of_mem_singles hc
    rw [hnil] at this
    cases this
  size c hc := by
    rw [length_of_mem_singles hc]
    decide

theorem repliesFrom_ne (kept : List Request) (r : Request) (rs : List Request) :
    repliesFrom server 0 kept ≠ repliesFrom server 0 (kept ++ r :: rs) := by
  intro h
  have hlen := congrArg List.length h
  have hk : 0 < kHeader := by decide
  rw [repliesFrom_append, length_append] at hlen
  simp only [repliesFrom, List.zipIdx_cons, map_cons, flatten_cons, responseFrame,
    length_append, length_encodeHeader] at hlen
  omega

/-- **The losing split**: one byte at a time up to the last byte of the last request, then that byte
    and the offence in one read. -/
theorem exists_lossy_split
    (behind : Bytes) (hreq : requests ≠ []) (hfit : AnswersFit server 0 requests)
    (hoff : Offence server requests.length bad status) (hsize : bad.length < chunkSize) :
    ∃ chunks, IsSplit (frames requests ++ (bad ++ behind)) chunks ∧
      (outcome server chunks).1 ≠ repliesFrom server 0 requests := by
  have hpos : 0 < (frames requests).length := by
    obtain ⟨r, rs, rfl⟩ := List.exists_cons_of_ne_nil hreq
    rw [frames_cons, length_append, r.length_frame]
    have : 0 < kHeader := by decide
    omega
  have hne : frames requests ≠ [] := List.length_pos_iff.mp hpos
  let first := (frames requests).dropLast
  let window := (frames requests).getLast hne :: bad
  have hfirst : first.length = (frames requests).length - 1 := List.length_dropLast
  have hbytes : first ++ (window ++ behind) = frames requests ++ (bad ++ behind) := by
    show (frames requests).dropLast ++ ((frames requests).getLast hne :: (bad ++ behind)) = _
    rw [List.append_cons, List.dropLast_append_getLast hne]
  have hsplit : IsSplit (frames requests ++ (bad ++ behind))
      (singles first ++ window :: singles behind) := by
    refine ⟨?_, ?_, ?_⟩
    · rw [flatten_append, flatten_cons, flatten_singles, flatten_singles, hbytes]
    · intro c hc
      rcases List.mem_append.mp hc with h | h
      · exact (isSplit_singles first).nonempty c h
      rcases List.mem_cons.mp h with rfl | h
      · exact List.cons_ne_nil _ _
      · exact (isSplit_singles behind).nonempty c h
    · intro c hc
      rcases List.mem_append.mp hc with h | h
      · exact (isSplit_singles first).size c h
      rcases List.mem_cons.mp h with rfl | h
      · exact hsize
      · exact (isSplit_singles behind).size c h
  refine ⟨_, hsplit, ?_⟩
  obtain ⟨before, c, after, kept, lost, hchunks, hkl, hlt, _, hkept, _, hout⟩ :=
    outcome_offence hsplit.nonempty hsplit.flatten hfit hoff
  -- the read with the offence is `window`: what came before it ends inside the last request
  have hbefore : before.flatten.length < (frames requests).length := by
    rcases List.append_eq_append_iff.mp hchunks with ⟨mid, hmid, _⟩ | ⟨mid, hmid, hrest⟩
    · rcases mid with _ | ⟨x, mid⟩
      · rw [hmid, append_nil, flatten_singles]
        omega
      have hx : x = window := by
        have := ‹window :: singles behind = (x :: mid) ++ c :: after›
        exact (List.cons.inj this).1.symm
      rw [hmid, flatten_append, flatten_singles, flatten_cons, hx, length_append,
        length_append] at hlt
      have hw : window.length = bad.length + 1 := rfl
      omega
    · have h := congrArg (fun l => (List.flatten l).length) hmid
      simp only [flatten_append, flatten_singles, length_append] at h
      omega
  rw [hout]
  cases lost with
  | nil =>
    rw [hkl, append_nil] at hbefore
    omega
  | cons r rs =>
    rw [hkl]
    exact repliesFrom_ne kept r rs

/-- **The session depends on the byte stream only, exactly when no answer is at risk.**  For every
    server, handlers with oversized responses included, and every stream, well-formed or not. -/
theorem serve_streamOnly_iff (server : RpcServer) (stream : Bytes) :
    StreamOnly server stream ↔ ¬ AnswersAtRisk server stream := by
  constructor
  · rintro ⟨hsame, _⟩ ⟨requests, bad, behind, status, hstream, hreq, hfit, hoff, hsize⟩
    obtain ⟨chunks, hsplit, hlost⟩ := exists_lossy_split behind hreq hfit hoff hsize
    rw [← hstream] at hsplit
    have hall := outcome_kept (isSplit_singles stream) hstream hfit hoff (.inr fun c hc => by
      have h1 := length_of_mem_singles hc
      have h2 := hoff.kHeader_le
      have h3 : 1 ≤ kHeader := by decide
      omega)
    rw [hsame chunks _ hsplit (isSplit_singles stream), hall] at hlost
    exact hlost rfl
  · intro hsafe
    have hkept : ∀ chunks requests bad behind status, IsSplit stream chunks →
        stream = frames requests ++ (bad ++ behind) → AnswersFit server 0 requests →
        Offence server requests.length bad status →
        outcome server chunks = (repliesFrom server 0 requests, some status) := by
      intro chunks requests bad behind status hsplit hstream hfit hoff
      refine outcome_kept hsplit hstream hfit hoff ?_
      by_cases hreq : requests = []
      · exact .inl hreq
      right
      intro c hc
      have hc' := hsplit.size c hc
      have hlarge : ¬ bad.length < chunkSize := fun hsize =>
        hsafe ⟨requests, bad, behind, status, hstream, hreq, hfit, hoff, hsize⟩
      omega
    refine ⟨fun chunks chunks' h h' => ?_, hkept⟩
    obtain ⟨requests, rest, hstream, hfit, hend⟩ := stream_cases server stream 0
    rw [Nat.zero_add] at hend
    rcases hend with hshort | ⟨bad, behind, status, hrest, hoff⟩
    · rw [outcome_short h.nonempty (h.flatten.trans hstream) hfit hshort,
        outcome_short h'.nonempty (h'.flatten.trans hstream) hfit hshort]
    rw [hrest] at hstream
    rw [hkept chunks requests bad behind status h hstream hfit hoff,
      hkept chunks' requests bad behind status h' hstream hfit hoff]

/-- A header of a response, which no client may send to a server. -/
def strayHeader : Bytes := encodeHeader ⟨1, 0, 7, kResponse, 0⟩

theorem strayPayload_fits : ([1, 2, 3] : Bytes).length ≤ kMaxPayloadBytes := by decide

/-- One request, answered by `demoServer`, and a stray header behind it. -/
def straySession : Bytes := frames [⟨5, 7, [1, 2, 3], strayPayload_fits⟩] ++ strayHeader

/-- **The same stream in two splits**: read frame by frame the response to the request is written;
    in one read it is not, although the request was handled. -/
theorem stray_header_drops_answer :
    IsSplit straySession [straySession.take 19, straySession.drop 19] ∧
    IsSplit straySession [straySession] ∧
    outcome demoServer [straySession.take 19, straySession.drop 19] =
      (repliesFrom demoServer 0 [⟨5, 7, [1, 2, 3], by decide⟩], some invalidRequestHeader) ∧
    outcome demoServer [straySession] = ([], some invalidRequestHeader) := by
  refine ⟨⟨by decide, by decide, by decide⟩, ⟨by decide, by decide, by decide⟩, ?_, ?_⟩
  · decide +kernel
  · decide +kernel

end Bycorf.Rpc
