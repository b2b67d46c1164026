/-
  `RpcServer::Serve`: framing, dispatch by verb and the batched reply, for one connection.

  1. **Program** — `serve` is the session loop: a parsing pass over the retained buffer
     (`parseLoop`, the inner `while`), one batched write, one read.  Each turn of the loop meets
     the socket at three points (`IsOpen`, `WriteAll`, `ReadSome`); a `Round` is what the socket
     answers there, so a run of the server is a list of rounds and every failure path is in it.
  2. **Handlers** — a handler is indexed by the number of requests served before it on this
     connection, so its answer may depend on any state it shares with the rest of the process.
  3. **The crux (`parseLoop_answers`)** — on a buffer whose unparsed part is a PREFIX of a sequence
     of request frames and what follows them, one pass consumes exactly the frames that are
     complete, in order, and stops in front of the first one that is not.
  4. **Correctness** — `serve_frames` runs the pass lemma over any split of the byte stream.
-/
import Mathlib.Data.List.Basic
import Bycorf.Base.Status
import Bycorf.Rpc.Wire

namespace Bycorf.Rpc

/-! ## The program -/

/-- A verb handler: the number of requests this connection has served before, and the request
    payload, to the response payload. -/
abbrev Handler := Nat → Bytes → Bytes

/-- The two registration tables; `unordered_map::find` is a partial function of the verb. -/
structure RpcServer where
  handlers : UInt16 → Option Handler
  asyncHandlers : UInt16 → Option Handler

/-- `OnVerb`. -/
def RpcServer.onVerb (server : RpcServer) (verb : UInt16) (handler : Handler) : RpcServer :=
  { server with handlers := Function.update server.handlers verb (some handler) }

/-- `OnVerbAsync`. -/
def RpcServer.onVerbAsync (server : RpcServer) (verb : UInt16) (handler : Handler) : RpcServer :=
  { server with asyncHandlers := Function.update server.asyncHandlers verb (some handler) }

/-- One handler call: which table answered, the verb and the payload it was given. -/
structure Invocation where
  async : Bool
  verb : UInt16
  payload : Bytes
deriving DecidableEq, Repr

/-- Choose the handler for one request: the async table first, then the sync one; without a
    handler nothing is called and the response is empty. -/
def RpcServer.dispatch (server : RpcServer) (served : Nat) (verb : UInt16) (payload : Bytes) :
    List Invocation × Bytes :=
  match server.asyncHandlers verb with
  | some handler => ([⟨true, verb, payload⟩], handler served payload)
  | none =>
    match server.handlers verb with
    | some handler => ([⟨false, verb, payload⟩], handler served payload)
    | none => ([], [])

/-- What one parsing pass accumulates: the requests served so far, the calls made and `out`. -/
structure Pass where
  served : Nat
  calls : List Invocation
  out : Bytes
deriving DecidableEq, Repr

/-- The pass after answering one request. -/
def Pass.respond (server : RpcServer) (p : Pass) (h : WireHeader) (payload : Bytes) : Pass :=
  let answer := server.dispatch p.served h.verb payload
  { served := p.served + 1
    calls := p.calls ++ answer.1
    out := appendFrame p.out
      ⟨h.reqId, UInt32.ofNat answer.2.length, h.verb, kResponse, 0⟩ answer.2 }

def invalidRequestHeader : Status := ⟨.invalidArgument, "invalid rpc request header"⟩
def responseTooLarge : Status := ⟨.outOfRange, "rpc response exceeds payload limit"⟩

/-- The inner `while` of `Serve`, from offset `pos`: either the final offset, or the status the
    coroutine returns with (the calls made before it have happened, `out` is dropped). -/
def parseLoop (server : RpcServer) (buf : Bytes) (pos : Nat) (p : Pass) :
    Except (Status × Pass) (Nat × Pass) :=
  if _hh : kHeader ≤ buf.length - pos then
    let h := decodeHeader (buf.drop pos)
    if h.type ≠ kRequest ∨ h.pad ≠ 0 ∨ kMaxPayloadBytes < h.len.toNat then
      .error (invalidRequestHeader, p)
    else if buf.length - pos - kHeader < h.len.toNat then
      .ok (pos, p)  -- partial frame; wait for more
    else
      let payload := (buf.drop (pos + kHeader)).take h.len.toNat
      let answer := server.dispatch p.served h.verb payload
      if kMaxPayloadBytes < answer.2.length then
        .error (responseTooLarge, { p with served := p.served + 1, calls := p.calls ++ answer.1 })
      else
        parseLoop server buf (pos + kHeader + h.len.toNat) (p.respond server h payload)
  else
    .ok (pos, p)
termination_by buf.length - pos
decreasing_by
  have : kHeader = 16 := rfl
  omega

/-- What the socket answers in one turn of the loop: `IsOpen`, the result of `WriteAll` (on
    failure with the number of bytes that had gone out), and the result of `ReadSome` (an empty
    chunk is the peer's close). -/
structure Round where
  isOpen : Bool
  write : Except (Nat × Status) Unit
  read : Except Status Bytes

/-- The session: its retained buffer, and what it has done so far.  `retained` lists the size of
    the buffer after each parsing pass. -/
structure Session where
  buf : Bytes
  served : Nat
  calls : List Invocation
  written : Bytes
  retained : List Nat
deriving DecidableEq, Repr

/-- A session before its first read. -/
def Session.start : Session := ⟨[], 0, [], [], []⟩

/-- `RpcServer::Serve` against a list of socket answers.  The result is the session and the status
    it returned; `none` when it is still suspended in the socket. -/
def serve (server : RpcServer) : List Round → Session → Session × Option Status
  | [], s => (s, none)
  | r :: rounds, s =>
    if r.isOpen = false then
      (s, some Status.okStatus)
    else
      match parseLoop server s.buf 0 ⟨s.served, s.calls, []⟩ with
      | .error (status, p) => ({ s with served := p.served, calls := p.calls }, some status)
      | .ok (pos, p) =>
        let buf := s.buf.drop pos  -- `erase` of the first `pos` bytes
        let s := { s with
          buf := buf, served := p.served, calls := p.calls,
          retained := s.retained ++ [buf.length] }
        match (if p.out = [] then .ok () else r.write) with
        | .error (sent, status) =>
          ({ s with written := s.written ++ p.out.take sent }, some status)
        | .ok () =>
          let s := { s with written := s.written ++ p.out }
          match r.read with
          | .error status => (s, some status)
          | .ok [] => (s, some Status.okStatus)  -- peer closed
          | .ok chunk => serve server rounds { s with buf := s.buf ++ chunk }

/-! ## Well-formed input and what it must produce -/

/-- A request that fits the payload limit; its frame is valid by construction. -/
structure Request where
  reqId : UInt64
  verb : UInt16
  payload : Bytes
  payload_le : payload.length ≤ kMaxPayloadBytes

/-- The header of a request on the wire. -/
def Request.header (r : Request) : WireHeader :=
  ⟨r.reqId, UInt32.ofNat r.payload.length, r.verb, kRequest, 0⟩

/-- The bytes of a request. -/
def Request.frame (r : Request) : Bytes := encodeHeader r.header ++ r.payload

/-- The bytes of a sequence of request frames. -/
def frames (requests : List Request) : Bytes := (requests.map Request.frame).flatten

/-- The response frame to the request served after `served` others. -/
def responseFrame (server : RpcServer) (served : Nat) (r : Request) : Bytes :=
  let response := (server.dispatch served r.verb r.payload).2
  encodeHeader ⟨r.reqId, UInt32.ofNat response.length, r.verb, kResponse, 0⟩ ++ response

/-- The handler calls for `requests`, the first of which is served after `served` others. -/
def callsFrom (server : RpcServer) (served : Nat) (requests : List Request) : List Invocation :=
  ((requests.zipIdx served).map fun x => (server.dispatch x.2 x.1.verb x.1.payload).1).flatten

/-- The response frames for `requests`, the first of which is served after `served` others. -/
def repliesFrom (server : RpcServer) (served : Nat) (requests : List Request) : Bytes :=
  ((requests.zipIdx served).map fun x => responseFrame server x.2 x.1).flatten

/-- The pass after serving `requests` in order. -/
def Pass.serveAll (server : RpcServer) (p : Pass) (requests : List Request) : Pass :=
  { served := p.served + requests.length
    calls := p.calls ++ callsFrom server p.served requests
    out := p.out ++ repliesFrom server p.served requests }

/-- Every handler of the two tables keeps its responses within the payload limit. -/
def RpcServer.ResponsesFit (server : RpcServer) : Prop :=
  ∀ verb handler, server.asyncHandlers verb = some handler ∨ server.handlers verb = some handler →
    ∀ served payload, (handler served payload).length ≤ kMaxPayloadBytes

/-- The handler that a request is for, and its answer: the async handler of the verb if there is
    one, else the sync one, is called with the payload; without a handler nothing is called, and the
    response is empty. -/
inductive Answers (server : RpcServer) (served : Nat) (r : Request) : List Invocation → Bytes → Prop
  | async {handler : Handler} (h : server.asyncHandlers r.verb = some handler) :
      Answers server served r [⟨true, r.verb, r.payload⟩] (handler served r.payload)
  | sync {handler : Handler} (hasync : server.asyncHandlers r.verb = none)
      (h : server.handlers r.verb = some handler) :
      Answers server served r [⟨false, r.verb, r.payload⟩] (handler served r.payload)
  | unhandled (hasync : server.asyncHandlers r.verb = none) (h : server.handlers r.verb = none) :
      Answers server served r [] []

/-- The frame that takes a response back: the id and the verb are those of the request. -/
def Request.reply (r : Request) (response : Bytes) : Bytes :=
  encodeHeader ⟨r.reqId, UInt32.ofNat response.length, r.verb, kResponse, 0⟩ ++ response

/-- The calls and the bytes for requests that are answered one by one, in their order, the first of
    them after `served` others. -/
inductive AnswersAll (server : RpcServer) : Nat → List Request → List Invocation → Bytes → Prop
  | nil (served : Nat) : AnswersAll server served [] [] []
  | cons {served : Nat} {r : Request} {rs : List Request} {call calls : List Invocation}
      {response written : Bytes} (h : Answers server served r call response)
      (hrest : AnswersAll server (served + 1) rs calls written) :
      AnswersAll server served (r :: rs) (call ++ calls) (r.reply response ++ written)

@[simp] theorem frames_cons (r : Request) (rs : List Request) :
    frames (r :: rs) = r.frame ++ frames rs := rfl

theorem Request.len_header (r : Request) : r.header.len.toNat = r.payload.length := by
  have hle := r.payload_le
  have hmax : kMaxPayloadBytes < UInt32.size := by decide
  exact UInt32.toNat_ofNat_of_lt' (by omega)

theorem Request.length_frame (r : Request) : r.frame.length = kHeader + r.payload.length := by
  simp [Request.frame]

section

variable (server : RpcServer)

theorem callsFrom_append (served : Nat) (xs ys : List Request) :
    callsFrom server served (xs ++ ys) =
      callsFrom server served xs ++ callsFrom server (served + xs.length) ys := by
  simp [callsFrom, List.zipIdx_append]

theorem repliesFrom_append (served : Nat) (xs ys : List Request) :
    repliesFrom server served (xs ++ ys) =
      repliesFrom server served xs ++ repliesFrom server (served + xs.length) ys := by
  simp [repliesFrom, List.zipIdx_append]

theorem answers_iff (served : Nat) (r : Request) (call : List Invocation) (response : Bytes) :
    Answers server served r call response ↔
      server.dispatch served r.verb r.payload = (call, response) := by
  unfold RpcServer.dispatch
  constructor
  · rintro (h | ⟨hasync, h⟩ | ⟨hasync, h⟩)
    · rw [h]
    · rw [hasync, h]
    · rw [hasync, h]
  · rcases hasync : server.asyncHandlers r.verb with _ | handler
    · rcases hsync : server.handlers r.verb with _ | handler
      · rintro ⟨⟩
        exact .unhandled hasync hsync
      · rintro ⟨⟩
        exact .sync hasync hsync
    · rintro ⟨⟩
      exact .async hasync

/-- There is one way to answer the requests. -/
theorem answersAll_iff (requests : List Request) (served : Nat) (calls : List Invocation)
    (written : Bytes) : AnswersAll server served requests calls written ↔
      calls = callsFrom server served requests ∧ written = repliesFrom server served requests := by
  induction requests generalizing served calls written with
  | nil =>
    constructor
    · rintro ⟨⟩
      exact ⟨rfl, rfl⟩
    · rintro ⟨rfl, rfl⟩
      exact .nil served
  | cons r rs ih =>
    constructor
    · rintro (_ | ⟨h, hrest⟩)
      obtain ⟨rfl, rfl⟩ := (ih ..).mp hrest
      have h := (answers_iff server served r _ _).mp h
      simp [callsFrom, repliesFrom, responseFrame, Request.reply, h]
    · rintro ⟨rfl, rfl⟩
      exact .cons ((answers_iff server served r _ _).mpr rfl) ((ih ..).mpr ⟨rfl, rfl⟩)

theorem RpcServer.ResponsesFit.dispatch {server : RpcServer} (h : server.ResponsesFit)
    (verb : UInt16) (served : Nat) (payload : Bytes) :
    (server.dispatch served verb payload).2.length ≤ kMaxPayloadBytes := by
  unfold RpcServer.dispatch
  rcases hasync : server.asyncHandlers verb with _ | handler
  · rcases hsync : server.handlers verb with _ | handler
    · exact Nat.zero_le _
    · exact h verb handler (.inr hsync) served payload
  · exact h verb handler (.inl hasync) served payload

theorem Pass.serveAll_nil (p : Pass) : p.serveAll server [] = p := by
  simp [Pass.serveAll, callsFrom, repliesFrom]

/-- Answering the first request and then serving the rest. -/
theorem Pass.serveAll_cons (p : Pass) (r : Request) (rs : List Request) :
    p.serveAll server (r :: rs) =
      Pass.serveAll server (p.respond server r.header r.payload) rs := by
  simp [Pass.serveAll, Pass.respond, callsFrom, repliesFrom, responseFrame, appendFrame,
    Request.header, Nat.add_assoc, Nat.add_comm 1]

end

/-! ## One parsing pass -/

variable {more behind rest : Bytes} {r : Request}

/-- The header in front of a prefix of a byte string that starts with a frame is that frame's. -/
theorem decodeHeader_frame
    (hpre : rest ++ more = r.frame ++ behind) (hlen : kHeader ≤ rest.length) :
    decodeHeader rest = r.header := by
  have htake : rest.take kHeader = encodeHeader r.header := by
    have h := congrArg (List.take kHeader) hpre
    rw [List.take_append_of_le_length hlen, Request.frame, List.append_assoc,
      List.take_left' (length_encodeHeader _)] at h
    exact h
  rw [← decodeHeader_take, htake]
  have h := decodeHeader_encodeHeader r.header []
  rwa [List.append_nil] at h

/-- The frame in front, when it is complete in `rest`. -/
theorem split_frame
    (hpre : rest ++ more = r.frame ++ behind) (hlen : kHeader + r.payload.length ≤ rest.length) :
    (rest.drop kHeader).take r.payload.length = r.payload ∧
      rest.drop (kHeader + r.payload.length) ++ more = behind := by
  have hfl : (encodeHeader r.header ++ r.payload).length = kHeader + r.payload.length := by simp
  constructor
  · have h := congrArg (List.take (kHeader + r.payload.length)) hpre
    rw [List.take_append_of_le_length hlen, Request.frame, List.take_left' hfl] at h
    have h2 := congrArg (List.drop kHeader) h
    rw [List.drop_left' (length_encodeHeader _), List.drop_take, Nat.add_sub_cancel_left] at h2
    exact h2
  · have h := congrArg (List.drop (kHeader + r.payload.length)) hpre
    rw [List.drop_append_of_le_length hlen, Request.frame, List.drop_left' hfl] at h
    exact h

theorem Request.header_valid (r : Request) :
    ¬ (r.header.type ≠ kRequest ∨ r.header.pad ≠ 0 ∨ kMaxPayloadBytes < r.header.len.toNat) := by
  have h1 := r.payload_le
  have h2 := r.len_header
  rintro (h | h | h)
  · exact h rfl
  · exact h rfl
  · omega

variable {server : RpcServer} {pos : Nat}

section

variable {buf : Bytes} (p : Pass) (hpre : buf.drop pos ++ more = r.frame ++ behind)
include hpre

/-- In front of a frame that is not complete the pass stops. -/
theorem parseLoop_incomplete (hlen : buf.length - pos < kHeader + r.payload.length) :
    parseLoop server buf pos p = .ok (pos, p) := by
  by_cases hk : kHeader ≤ buf.length - pos
  · have hdec := decodeHeader_frame hpre (by rw [List.length_drop]; exact hk)
    have hpart : buf.length - pos - kHeader < r.header.len.toNat := by
      rw [r.len_header]
      omega
    rw [parseLoop, dif_pos hk]
    simp only [hdec, if_neg r.header_valid, if_pos hpart]
  · rw [parseLoop, dif_neg hk]

/-- A complete frame is answered: the pass goes on behind it, or ends with the response limit. -/
theorem parseLoop_frame (hlen : kHeader + r.payload.length ≤ buf.length - pos) :
    parseLoop server buf pos p =
      if kMaxPayloadBytes < (server.dispatch p.served r.verb r.payload).2.length then
        .error (responseTooLarge,
          { p with
            served := p.served + 1
            calls := p.calls ++ (server.dispatch p.served r.verb r.payload).1 })
      else
        parseLoop server buf (pos + kHeader + r.payload.length)
          (p.respond server r.header r.payload) := by
  have hk : kHeader ≤ buf.length - pos := by omega
  have hdl : (buf.drop pos).length = buf.length - pos := List.length_drop
  have hdec := decodeHeader_frame hpre (by omega)
  have hpart : ¬ buf.length - pos - kHeader < r.payload.length := by omega
  have hpayload : (buf.drop (pos + kHeader)).take r.payload.length = r.payload := by
    rw [← List.drop_drop]
    exact (split_frame hpre (by omega)).1
  have hvalid := r.header_valid
  rw [r.len_header] at hvalid
  rw [parseLoop, dif_pos hk]
  simp only [hdec, r.len_header, if_neg hvalid, if_neg hpart, hpayload]
  rfl

end

/-- Every response to `requests` is within the payload limit, the first of them being served after
    `served` others. -/
def AnswersFit (server : RpcServer) : Nat → List Request → Prop
  | _, [] => True
  | served, r :: rs =>
    (server.dispatch served r.verb r.payload).2.length ≤ kMaxPayloadBytes ∧
      AnswersFit server (served + 1) rs

theorem RpcServer.ResponsesFit.answersFit (hfit : server.ResponsesFit) :
    ∀ (requests : List Request) (served : Nat), AnswersFit server served requests
  | [], _ => trivial
  | r :: rs, served => ⟨hfit.dispatch r.verb served r.payload, hfit.answersFit rs (served + 1)⟩

theorem AnswersFit.drop {served : Nat} {xs ys : List Request}
    (h : AnswersFit server served (xs ++ ys)) : AnswersFit server (served + xs.length) ys := by
  induction xs generalizing served with
  | nil => exact h
  | cons r rs ih =>
    have h' := ih h.2
    rwa [Nat.add_assoc, Nat.add_comm 1] at h'

/-- Where a pass over `frames requests ++ behind` is when it has read no more of it than `buf`: in
    front of a request that is not complete, with `done` answered, or in front of `behind`. -/
inductive PassEnd (server : RpcServer) (buf more behind : Bytes) (p : Pass)
    (requests : List Request) (result : Except (Status × Pass) (Nat × Pass)) : Prop where
  | stopped (pos : Nat) (done : List Request) (r : Request) (todo : List Request)
      (split : requests = done ++ r :: todo) (le : pos ≤ buf.length)
      (rest : buf.drop pos ++ more = frames (r :: todo) ++ behind)
      (short : buf.length - pos < kHeader + r.payload.length)
      (eq : result = .ok (pos, p.serveAll server done))
  | arrived (pos : Nat) (le : pos ≤ buf.length) (rest : buf.drop pos ++ more = behind)
      (eq : result = parseLoop server buf pos (p.serveAll server requests))

/-- **The pass lemma.**  Induction on the request sequence: the frame in front of the unparsed
    bytes is the first request's, so the loop either stops in front of it or answers it and goes
    on with the rest of the sequence. -/
theorem parseLoop_answers (server : RpcServer) (buf more behind : Bytes) :
    ∀ (requests : List Request) (pos : Nat) (p : Pass), pos ≤ buf.length →
      AnswersFit server p.served requests →
      buf.drop pos ++ more = frames requests ++ behind →
      PassEnd server buf more behind p requests (parseLoop server buf pos p) := by
  intro requests
  induction requests with
  | nil =>
    intro pos p hpos _ hpre
    refine .arrived pos hpos hpre ?_
    rw [Pass.serveAll_nil]
  | cons r rs ih =>
    intro pos p hpos hfit hpre
    have hfront : buf.drop pos ++ more = r.frame ++ (frames rs ++ behind) := by
      rw [hpre, frames_cons, List.append_assoc]
    by_cases hlen : kHeader + r.payload.length ≤ buf.length - pos
    · have hresp : ¬ kMaxPayloadBytes < (server.dispatch p.served r.verb r.payload).2.length :=
        Nat.not_lt.mpr hfit.1
      have hnext : buf.drop (pos + kHeader + r.payload.length) ++ more = frames rs ++ behind := by
        have h := (split_frame hfront (by rw [List.length_drop]; exact hlen)).2
        rwa [List.drop_drop, ← Nat.add_assoc] at h
      have hrun : parseLoop server buf pos p = parseLoop server buf
          (pos + kHeader + r.payload.length) (p.respond server r.header r.payload) := by
        rw [parseLoop_frame p hfront hlen, if_neg hresp]
      rw [hrun]
      cases ih _ (p.respond server r.header r.payload) (by omega) hfit.2 hnext with
      | stopped pos' done r' todo hsplit hle hrest hshort heq =>
        refine .stopped pos' (r :: done) r' todo (by rw [hsplit]; rfl) hle hrest hshort ?_
        rw [heq, Pass.serveAll_cons]
      | arrived pos' hle hrest heq =>
        refine .arrived pos' hle hrest ?_
        rw [heq, Pass.serveAll_cons]
    · exact .stopped pos [] r rs rfl hpos hpre (by omega)
        (by rw [parseLoop_incomplete p hfront (by omega), Pass.serveAll_nil])

/-- What a pass leaves behind: the unserved requests' bytes start with the retained ones, and the
    first of them is not complete yet. -/
structure Stopped (rest tail : Bytes) (todo : List Request) : Prop where
  split : rest ++ tail = frames todo
  partialFrame : ∀ r ∈ todo.head?, rest.length < kHeader + r.payload.length
  drained : todo = [] → rest = []

/-- The retained bytes are shorter than one header plus the largest payload. -/
theorem Stopped.length_lt {tail : Bytes} {todo : List Request} (h : Stopped rest tail todo) :
    rest.length < kHeader + kMaxPayloadBytes := by
  rcases todo with _ | ⟨r, rs⟩
  · rw [h.drained rfl]
    exact Nat.lt_of_lt_of_le (by decide : 0 < kHeader) (Nat.le_add_right _ _)
  have h1 := h.partialFrame r rfl
  have h2 := r.payload_le
  omega

/-- A pass over request frames only, with nothing behind them. -/
theorem parseLoop_frames (server : RpcServer) (hfit : server.ResponsesFit) (buf tail : Bytes)
    (requests : List Request) (pos : Nat) (p : Pass) (hpos : pos ≤ buf.length)
    (hpre : buf.drop pos ++ tail = frames requests) :
    ∃ pos' done todo, requests = done ++ todo ∧ pos' ≤ buf.length ∧
      parseLoop server buf pos p = .ok (pos', p.serveAll server done) ∧
      Stopped (buf.drop pos') tail todo := by
  have hpre' : buf.drop pos ++ tail = frames requests ++ [] := by rw [hpre, List.append_nil]
  cases parseLoop_answers server buf tail [] requests pos p hpos (hfit.answersFit _ _) hpre' with
  | stopped pos' done r todo hsplit hle hrest hshort heq =>
    rw [List.append_nil] at hrest
    refine ⟨pos', done, r :: todo, hsplit, hle, heq, hrest, ?_, by simp⟩
    intro r' hr'
    cases hr'
    rw [List.length_drop]
    exact hshort
  | arrived pos' hle hrest heq =>
    have hnil : buf.drop pos' = [] := (List.append_eq_nil_iff.mp hrest).1
    have hlen : buf.length - pos' = 0 := by
      rw [← List.length_drop, hnil, List.length_nil]
    refine ⟨pos', requests, [], by simp, hle, ?_, hrest, by simp, fun _ => hnil⟩
    have hk : ¬ kHeader ≤ buf.length - pos' := by rw [hlen]; decide
    rw [heq, parseLoop, dif_neg hk]

/-! ## The whole session -/

/-- The rounds of a session that is handed `chunks` and then the peer's close, with every write
    accepted. -/
def readRounds (chunks : List Bytes) : List Round :=
  (chunks ++ [[]]).map fun chunk => ⟨true, .ok (), .ok chunk⟩

/-- The session has served exactly `requests`, in order. -/
structure Served (server : RpcServer) (s : Session) (requests : List Request) : Prop where
  served : s.served = requests.length
  calls : s.calls = callsFrom server 0 requests
  written : s.written = repliesFrom server 0 requests
  retained : ∀ n ∈ s.retained, n < kHeader + kMaxPayloadBytes

/-- The session after a pass that stopped at `pos`, its replies written. -/
def Session.turn (s : Session) (pos : Nat) (p : Pass) : Session :=
  { buf := s.buf.drop pos
    served := p.served
    calls := p.calls
    written := s.written ++ p.out
    retained := s.retained ++ [(s.buf.drop pos).length] }

theorem Served.turn {s : Session} {done : List Request}
    (h : Served server s done) (now : List Request)
    (hlen : (s.buf.drop pos).length < kHeader + kMaxPayloadBytes) :
    Served server (s.turn pos (Pass.serveAll server ⟨s.served, s.calls, []⟩ now))
      (done ++ now) := by
  refine ⟨?_, ?_, ?_, ?_⟩
  · show s.served + now.length = _
    rw [h.served, List.length_append]
  · show s.calls ++ callsFrom server s.served now = _
    rw [h.calls, h.served, callsFrom_append, Nat.zero_add]
  · show s.written ++ ([] ++ repliesFrom server s.served now) = _
    rw [h.written, h.served, repliesFrom_append, Nat.zero_add, List.nil_append]
  · intro n hn
    rcases List.mem_append.mp hn with h' | h'
    · exact h.retained n h'
    rw [List.mem_singleton.mp h']
    exact hlen

/-- One turn of the loop with an open socket and an accepted write, up to its read. -/
theorem serve_turn {s : Session} {p : Pass}
    (hloop : parseLoop server s.buf 0 ⟨s.served, s.calls, []⟩ = .ok (pos, p))
    (chunk : Bytes) (rounds : List Round) :
    serve server (⟨true, .ok (), .ok chunk⟩ :: rounds) s =
      if chunk = [] then (s.turn pos p, some Status.okStatus)
      else serve server rounds { s.turn pos p with buf := s.buf.drop pos ++ chunk } := by
  rw [serve]
  simp only [Bool.true_eq_false, if_false, hloop, ite_self]
  cases chunk with
  | nil => rw [if_pos rfl]; rfl
  | cons b bs => rw [if_neg (List.cons_ne_nil b bs)]; rfl

/-- **The session lemma.**  Induction on the remaining chunks; the invariant is that the retained
    buffer and the chunks still to come spell the frames of the requests not served yet. -/
theorem serve_readRounds (server : RpcServer) (hfit : server.ResponsesFit) :
    ∀ (chunks : List Bytes) (s : Session) (done todo : List Request),
      (∀ c ∈ chunks, c ≠ []) → s.buf ++ chunks.flatten = frames todo → Served server s done →
      ∃ s', serve server (readRounds chunks) s = (s', some Status.okStatus) ∧
        Served server s' (done ++ todo) := by
  intro chunks
  induction chunks with
  | nil =>
    intro s done todo _ hbuf hs
    rw [List.flatten_nil] at hbuf
    obtain ⟨pos', now, later, hsplit, _, hloop, hstop⟩ :=
      parseLoop_frames server hfit s.buf [] todo 0 ⟨s.served, s.calls, []⟩ (Nat.zero_le _) hbuf
    -- nothing more is coming, so an incomplete frame cannot be left over
    have hlater : later = [] := by
      rcases later with _ | ⟨r, rs⟩
      · rfl
      have h1 := hstop.partialFrame r rfl
      have h2 := congrArg List.length hstop.split
      rw [List.append_nil, frames_cons, List.length_append, r.length_frame] at h2
      omega
    rw [hlater, List.append_nil] at hsplit
    subst hsplit
    refine ⟨_, ?_, hs.turn _ hstop.length_lt⟩
    rw [readRounds, List.nil_append, List.map_singleton, serve_turn hloop, if_pos rfl]
  | cons chunk chunks ih =>
    intro s done todo hne hbuf hs
    rw [List.flatten_cons] at hbuf
    obtain ⟨pos', now, later, hsplit, _, hloop, hstop⟩ :=
      parseLoop_frames server hfit s.buf (chunk ++ chunks.flatten) todo 0 ⟨s.served, s.calls, []⟩
        (Nat.zero_le _) hbuf
    have hturn := hs.turn now hstop.length_lt
    have hnext := hstop.split
    rw [← List.append_assoc] at hnext
    -- behind this turn `now` is served and `chunk` sits behind the retained bytes
    obtain ⟨s', hrun, hdone⟩ :=
      ih { s.turn pos' (Pass.serveAll server ⟨s.served, s.calls, []⟩ now) with
            buf := s.buf.drop pos' ++ chunk } (done ++ now) later
        (fun c hc => hne c (List.mem_cons_of_mem _ hc)) hnext
        { hturn with }
    refine ⟨s', ?_, ?_⟩
    · rw [← hrun, readRounds, List.cons_append, List.map_cons, serve_turn hloop,
        if_neg (hne chunk (List.mem_cons_self ..))]
      rfl
    · rw [hsplit, ← List.append_assoc]
      exact hdone

/-- **The server on well-formed input.**  Whatever the handlers (within the response limit), the
    requests and the split of their frames into nonempty reads: the session ends with the peer's
    close; it has called the handler of each request's verb once, in order and with that request's
    payload, and written the handlers' answers under the requests' ids; and every parsing pass left
    less than one header plus the largest payload behind. -/
theorem serve_frames (server : RpcServer) (requests : List Request) (chunks : List Bytes)
    (hfit : server.ResponsesFit) (hne : ∀ c ∈ chunks, c ≠ [])
    (hsplit : chunks.flatten = frames requests) :
    ∃ s, serve server (readRounds chunks) Session.start = (s, some Status.okStatus) ∧
      AnswersAll server 0 requests s.calls s.written ∧
      ∀ n ∈ s.retained, n < kHeader + kMaxPayloadBytes := by
  have hstart : Served server Session.start [] := ⟨rfl, rfl, rfl, by simp [Session.start]⟩
  obtain ⟨s, hrun, hs⟩ :=
    serve_readRounds server hfit chunks Session.start [] requests hne hsplit hstart
  exact ⟨s, hrun, (answersAll_iff ..).mpr ⟨hs.calls, hs.written⟩, hs.retained⟩

/-- A server with verb `7` answered synchronously and verb `9` asynchronously. -/
def demoServer : RpcServer where
  handlers := fun verb => if verb = 7 then some fun _ _ => [42] else none
  asyncHandlers := fun verb => if verb = 9 then some fun served _ => [UInt8.ofNat served] else none

/-- Three requests: both verbs and one without a handler. -/
def demoRequests : List Request :=
  [⟨5, 7, [1, 2, 3], by decide⟩, ⟨6, 9, [], by decide⟩, ⟨7, 8, [4], by decide⟩]

theorem demoServer_responsesFit : demoServer.ResponsesFit := by
  rintro verb handler (h | h) served payload <;> obtain ⟨_, h⟩ :=
    Option.ite_none_right_eq_some.mp h <;> cases h <;> exact show 1 ≤ kMaxPayloadBytes by decide

/-- The first read ends inside the second frame's header.  The answers are 42 to the first request,
    the number of requests before it to the second, and nothing to the third. -/
theorem serve_frames_demo :
    ∃ s, serve demoServer
        (readRounds [(frames demoRequests).take 25, (frames demoRequests).drop 25])
        Session.start = (s, some Status.okStatus) ∧
      s.calls = [⟨false, 7, [1, 2, 3]⟩, ⟨true, 9, []⟩] ∧
      s.written = encodeHeader ⟨5, 1, 7, kResponse, 0⟩ ++ [42] ++
        (encodeHeader ⟨6, 1, 9, kResponse, 0⟩ ++ [1]) ++ encodeHeader ⟨7, 0, 8, kResponse, 0⟩ ∧
      ∀ n ∈ s.retained, n < kHeader + kMaxPayloadBytes := by
  obtain ⟨s, hrun, hall, hretained⟩ := serve_frames demoServer demoRequests
    [(frames demoRequests).take 25, (frames demoRequests).drop 25]
    demoServer_responsesFit (by decide) (by decide)
  obtain ⟨hcalls, hwritten⟩ := (answersAll_iff ..).mp hall
  exact ⟨s, hrun, hcalls, hwritten.trans (by decide +kernel), hretained⟩

end Bycorf.Rpc
