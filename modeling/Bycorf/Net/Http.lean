/-
  `HttpService`: one request per connection, and a response of one or many pieces.

  1. **Data** — bytes, and a response whose body is a string or a list of parts.  A part is borrowed
     text, or a range of the string that the response owns.
  2. **Program** — `HttpResponse`'s appends, the pool of scratch buffers, `WriteResponse`, the read
     loop of `Serve` and what it does with the request line.  Searches and the substrings around
     what they find are one function, `cutAt`.
  3. **Handlers** are functions of the request and of the response they are given: deterministic.

  A connection is a list of reads, and then the end of the stream.  A read that fails ends `Serve`
  without a response, as the end of the stream does.
-/
import Mathlib.Data.List.Basic
import Mathlib.Data.List.TakeWhile
import Mathlib.Algebra.GroupWithZero.Nat

namespace Bycorf.Net.Http

open List (append_assoc cons_append cons_ne_nil drop_left flatten_cons flatten_nil length
  length_append length_cons nil_append prefix_append)

/-! ## Data -/

/-- The bytes of a text. -/
def ascii (s : String) : List UInt8 := s.toList.map fun c => c.toNat.toUInt8

/-- A piece of the body: a borrowed text, or a range of `body`. -/
structure BodyPart where
  data : Option (List UInt8)       -- borrowed text; nothing for a range of `body`
  offset : Nat
  size : Nat

/-- `HttpResponse` with its defaults; the body is `body`, or the parts if there are any. -/
structure Response where
  status : String := "200 OK"
  contentType : String := "text/plain; charset=utf-8"
  body : List UInt8 := []
  bodyParts : List BodyPart := []

/-- What the request line says. -/
structure Request where
  method : List UInt8
  target : List UInt8

/-- Whether the handler succeeded, and the response it leaves. -/
abbrev Handler := Request → Response → Bool × Response

/-- A path and its handler. -/
structure Route where
  path : List UInt8
  handler : Handler

/-- The first occurrence of `pattern`: what is in front of it, and what is behind. -/
def cutAt (pattern : List UInt8) : List UInt8 → Option (List UInt8 × List UInt8)
  | [] => none
  | x :: l =>
    if pattern <+: x :: l then some ([], (x :: l).drop pattern.length)
    else (cutAt pattern l).map fun r => (x :: r.1, r.2)

/-- A list in pieces of `k`, the last one perhaps shorter. -/
def pieces {α : Type} (k : Nat) (l : List α) : List (List α) :=
  if _h : l = [] ∨ k = 0 then [] else l.take k :: pieces k (l.drop k)
termination_by l.length
decreasing_by
  have := List.length_pos_iff.mpr (not_or.mp _h).1
  rw [List.length_drop]
  omega

/-! ## Responses -/

/-- `AppendBorrowedBody`: the text becomes a part; what `body` held becomes one before it. -/
def Response.appendBorrowedBody (r : Response) (text : List UInt8) : Response :=
  if text = [] then r
  else
    let parts := if r.bodyParts = [] ∧ r.body ≠ [] then [⟨none, 0, r.body.length⟩] else r.bodyParts
    { r with bodyParts := parts ++ [⟨some text, 0, text.length⟩] }

/-- `AppendBody`: the text goes to `body`, and becomes a range if there are parts. -/
def Response.appendBody (r : Response) (text : List UInt8) : Response :=
  if text = [] then r
  else
    let offset := r.body.length
    let parts :=
      match r.bodyParts.getLast? with
      | none => []
      | some last =>
        if last.data = none ∧ last.offset + last.size = offset then
          r.bodyParts.dropLast ++ [{ last with size := last.size + text.length }]
        else r.bodyParts ++ [⟨none, offset, text.length⟩]
    { r with body := r.body ++ text, bodyParts := parts }

/-- `BodySize`. -/
def Response.bodySize (r : Response) : Nat :=
  if r.bodyParts = [] then r.body.length else (r.bodyParts.map BodyPart.size).sum

/-- The bytes of a part. -/
def Response.part (r : Response) (p : BodyPart) : List UInt8 :=
  match p.data with
  | some text => text.take p.size
  | none => (r.body.drop p.offset).take p.size

/-- The status line and the headers that `Serve` writes in front of the body. -/
def Response.header (r : Response) : List UInt8 :=
  ascii "HTTP/1.1 " ++ ascii r.status ++ ascii "\r\nContent-Type: " ++ ascii r.contentType ++
    ascii "\r\nContent-Length: " ++ ascii (toString r.bodySize) ++
    ascii "\r\nConnection: close\r\n\r\n"

/-- What `WriteResponse` gives to `WriteAll` and `WriteAllV`, call by call. -/
def Response.writes (r : Response) : List (List (List UInt8)) :=
  [r.header] :: if r.bodyParts = [] then [[r.body]] else pieces 1024 (r.bodyParts.map r.part)

/-- The calls that are made: the first that fails is the last one. -/
def made {α : Type} (ok : Nat → Bool) : Nat → List α → List α
  | _, [] => []
  | i, x :: l => x :: if ok i then made ok (i + 1) l else []

/-- `WriteResponse`: the bytes of the calls it makes. -/
def writeResponse (ok : Nat → Bool) (r : Response) : List UInt8 :=
  (made ok 0 r.writes).flatten.flatten

/-! ## The pool -/

def kMaxRetainedBuffers : Nat := 4

/-- The response of a new request. -/
def takeBuffer (pool : List Response) : Response × List Response :=
  match pool.getLast? with
  | none => ({}, pool)
  | some old => ({ body := old.body, bodyParts := old.bodyParts }, pool.dropLast)

/-- `~ReturnResponseBuffer`; `fits` is its test on the capacities. -/
def returnBuffer (r : Response) (fits : Bool) (pool : List Response) : List Response :=
  if fits ∧ pool.length < kMaxRetainedBuffers then pool ++ [{ r with body := [], bodyParts := [] }]
  else pool

/-- The requests of a worker, which may overlap. -/
inductive PoolStep where
  | take
  | give (r : Response) (fits : Bool)

/-- A response buffer is taken from the pool or given back. -/
def poolStep (pool : List Response) : PoolStep → List Response
  | .take => (takeBuffer pool).2
  | .give r fits => returnBuffer r fits pool

/-! ## `Serve` -/

/-- `RegisterGet`, its result apart. -/
def registerGet (routes : List Route) (route : Route) : List Route :=
  if routes.any fun r => r.path == route.path then routes else routes ++ [route]

def kMaxRequestBytes : Nat := 16 * 1024

/-- The size of the read buffer. -/
def kReadBytes : Nat := 2048

def crlf : List UInt8 := [13, 10]
def terminator : List UInt8 := [13, 10, 13, 10]
def space : List UInt8 := [32]
def questionMark : List UInt8 := [63]
def http1 : List UInt8 := ascii "HTTP/1."
def get : List UInt8 := ascii "GET"

/-- What is in front of the pattern, or everything. -/
def front (pattern l : List UInt8) : List UInt8 := ((cutAt pattern l).map Prod.fst).getD l

/-- How the loop that reads a request ends. -/
inductive ReadEnd where
  | request (bytes : List UInt8)
  | tooLarge
  | silent
deriving DecidableEq

/-- The read loop. -/
def readRequest : List (List UInt8) → List UInt8 → ReadEnd
  | reads, bytes =>
    if (cutAt terminator bytes).isSome then .request bytes
    else if kMaxRequestBytes ≤ bytes.length then .tooLarge
    else
      match reads with
      | [] => .silent
      | read :: reads =>
        if kMaxRequestBytes - bytes.length < read.length then .tooLarge
        else readRequest reads (bytes ++ read)

/-- The request line: a method, a target and a version that begins with `HTTP/1.`. -/
def parseLine (line : List UInt8) : Option Request :=
  (cutAt space line).bind fun (method, rest) =>
    (cutAt space rest).bind fun (target, version) =>
      if http1 <+: version then some ⟨method, front questionMark target⟩ else none

/-- What becomes of a request. -/
inductive Verdict where
  | badRequest
  | methodNotAllowed
  | notFound
  | invoke (route : Route) (request : Request)

/-- What `Serve` decides for a request: the checks in their order. -/
def verdict (routes : List Route) (bytes : List UInt8) : Verdict :=
  match parseLine (front crlf bytes) with
  | none => .badRequest
  | some request =>
    if request.method ≠ get then .methodNotAllowed
    else
      match routes.find? fun r => r.path == request.target with
      | none => .notFound
      | some route => .invoke route request

/-- The response for a verdict. -/
def respond (r : Response) : Verdict → Response
  | .badRequest => { r with status := "400 Bad Request", body := ascii "malformed HTTP request\n" }
  | .methodNotAllowed =>
    { r with status := "405 Method Not Allowed", body := ascii "only GET is supported\n" }
  | .notFound => { r with status := "404 Not Found", body := ascii "not found\n" }
  | .invoke route request =>
    let (ok, handled) := route.handler request r
    if ok then handled
    else
      { handled with
        status := "500 Internal Server Error"
        contentType := "text/plain; charset=utf-8"
        bodyParts := []
        body := ascii "request handler failed\n" }

/-- The response to a request that does not end within the limit. -/
def tooLarge (r : Response) : Response :=
  { r with
    status := "431 Request Header Fields Too Long"
    body := ascii "request headers are too large\n" }

/-- `Serve` with the response that the pool gives it: what is written, or nothing. -/
def serve (routes : List Route) (r : Response) (reads : List (List UInt8)) : Option Response :=
  match readRequest reads [] with
  | .request bytes => some (respond r (verdict routes bytes))
  | .tooLarge => some (tooLarge r)
  | .silent => none

/-- The bytes on the wire, if no write fails. -/
def wire (r : Response) : List UInt8 := writeResponse (fun _ => true) r

/-- The response bytes of a request after the requests of `history`. -/
def served (routes : List Route) (history : List PoolStep) (reads : List (List UInt8)) :
    Option (List UInt8) :=
  (serve routes (takeBuffer (history.foldl poolStep [])).1 reads).map wire

/-! ## Cutting -/

variable {a b l pattern : List UInt8}

theorem cutAt_some (h : cutAt pattern l = some (a, b)) : l = a ++ pattern ++ b := by
  induction l generalizing a with
  | nil => cases h
  | cons x l ih =>
    rw [cutAt] at h
    split at h
    · next hp =>
      obtain ⟨t, ht⟩ := hp
      cases h
      rw [← ht, drop_left, nil_append]
    obtain ⟨r, hr, he⟩ := Option.map_eq_some_iff.mp h
    cases he
    rw [ih hr]
    rfl

theorem cutAt_append (m : List UInt8)
    (h : cutAt pattern l = some (a, b)) : cutAt pattern (l ++ m) = some (a, b ++ m) := by
  induction l generalizing a with
  | nil => cases h
  | cons x l ih =>
    rw [cutAt] at h
    rw [cons_append, cutAt]
    split at h
    · next hp =>
      have hle : pattern.length ≤ (x :: l).length := hp.length_le
      cases h
      have hq : pattern <+: x :: (l ++ m) := hp.trans (prefix_append (x :: l) m)
      rw [if_pos hq, ← cons_append, List.drop_append_of_le_length hle]
    rename_i hp
    obtain ⟨r, hr, he⟩ := Option.map_eq_some_iff.mp h
    cases he
    have hq : ¬pattern <+: x :: (l ++ m) := by
      intro hq
      have hlen : pattern.length ≤ (x :: l).length := by
        have := congrArg length (cutAt_some hr)
        simp only [length_append] at this
        rw [length_cons]
        omega
      exact hp (List.prefix_of_prefix_length_le hq (prefix_append (x :: l) m) hlen)
    rw [if_neg hq, ih hr]
    rfl

variable {x : UInt8}

/-- An occurrence is the first one if its first byte is not in front of it. -/
theorem cutAt_fresh (p b : List UInt8) (hx : x ∉ a) :
    cutAt (x :: p) (a ++ x :: p ++ b) = some (a, b) := by
  induction a with
  | nil =>
    have hpre : x :: p <+: x :: (p ++ b) := prefix_append (x :: p) b
    rw [nil_append, cons_append, cutAt, if_pos hpre, ← cons_append, drop_left]
  | cons y a ih =>
    rw [List.mem_cons, not_or] at hx
    obtain ⟨hy, ha⟩ := hx
    have hpre : ¬x :: p <+: y :: (a ++ x :: p ++ b) := fun h => hy (List.cons_prefix_cons.mp h).1
    rw [cons_append, cons_append, cutAt, if_neg hpre, ih ha]
    rfl

/-- An occurrence is found, or one in front of it. -/
theorem cutAt_of_occurs (hp : pattern ≠ []) (a b : List UInt8) :
    ∃ r, cutAt pattern (a ++ pattern ++ b) = some r ∧ r.1.length ≤ a.length := by
  induction a with
  | nil =>
    obtain ⟨x, p, rfl⟩ := List.exists_cons_of_ne_nil hp
    exact ⟨([], b), cutAt_fresh p b List.not_mem_nil, Nat.le_refl 0⟩
  | cons x a ih =>
    obtain ⟨r, hr, hle⟩ := ih
    rw [cons_append, cons_append, cutAt]
    split
    · exact ⟨_, rfl, Nat.zero_le _⟩
    · exact ⟨(x :: r.1, r.2), by rw [hr]; rfl, Nat.succ_le_succ hle⟩

/-- `pattern` stands in `l` for the first time behind `a`, and in front of `b`. -/
def First (pattern l a b : List UInt8) : Prop :=
  l = a ++ pattern ++ b ∧ ∀ a' b', l = a' ++ pattern ++ b' → a.length ≤ a'.length

theorem cutAt_iff (hp : pattern ≠ []) : cutAt pattern l = some (a, b) ↔ First pattern l a b := by
  constructor
  · intro h
    refine ⟨cutAt_some h, ?_⟩
    rintro a' b' rfl
    obtain ⟨r, hr, hle⟩ := cutAt_of_occurs hp a' b'
    rw [hr] at h
    cases h
    exact hle
  · rintro ⟨rfl, hmin⟩
    obtain ⟨⟨a', b'⟩, hr, hle⟩ := cutAt_of_occurs hp a b
    have he := cutAt_some hr
    have hlen : a.length = a'.length := Nat.le_antisymm (hmin a' b' he) hle
    rw [append_assoc, append_assoc] at he
    obtain ⟨ha, hb⟩ := List.append_inj he hlen
    rw [hr, ha, List.append_cancel_left hb]

/-- A cut of one byte. -/
theorem cutAt_singleton : cutAt [x] l = some (a, b) ↔ l = a ++ x :: b ∧ x ∉ a := by
  constructor
  · intro h
    obtain ⟨rfl, hmin⟩ := (cutAt_iff (cons_ne_nil x [])).mp h
    refine ⟨by simp, ?_⟩
    intro hx
    obtain ⟨c, d, rfl⟩ := List.append_of_mem hx
    have := hmin c (d ++ x :: b) (by simp)
    rw [length_append, length_cons] at this
    omega
  · rintro ⟨rfl, hx⟩
    rw [List.append_cons]
    exact cutAt_fresh [] b hx

theorem cutAt_singleton_none : cutAt [x] l = none ↔ x ∉ l := by
  constructor
  · intro h hx
    obtain ⟨a, b, rfl⟩ := List.append_of_mem hx
    rw [List.append_cons] at h
    obtain ⟨r, hr, -⟩ := cutAt_of_occurs (cons_ne_nil x []) a b
    cases hr.symm.trans h
  · intro hx
    by_contra h
    obtain ⟨⟨a, b⟩, hr⟩ := Option.ne_none_iff_exists'.mp h
    obtain ⟨rfl, -⟩ := cutAt_singleton.mp hr
    simp at hx

theorem front_singleton (x : UInt8) (l : List UInt8) : front [x] l = l.takeWhile (· != x) := by
  cases h : cutAt [x] l with
  | none =>
    have hx := cutAt_singleton_none.mp h
    have hall : ∀ y ∈ l, (y != x) = true := fun y hy => bne_iff_ne.mpr fun e => hx (e ▸ hy)
    rw [front, h, List.takeWhile_eq_self_iff.mpr hall]
    rfl
  | some r =>
    obtain ⟨rfl, hx⟩ := cutAt_singleton.mp h
    rw [front, h, List.takeWhile_append_of_pos, List.takeWhile_cons_of_neg (by simp)]
    · simp
    intro y hy
    exact bne_iff_ne.mpr (fun e => hx (e ▸ hy))

variable {k : Nat} {α : Type}

theorem pieces_flatten (hk : k ≠ 0) (l : List α) : (pieces k l).flatten = l := by
  induction l using pieces.induct k with
  | case1 l h => rw [pieces, dif_pos h, flatten_nil, h.resolve_right hk]
  | case2 l h ih => rw [pieces, dif_neg h, flatten_cons, ih, List.take_append_drop]

theorem mem_pieces {l piece : List α} (h : piece ∈ pieces k l) : piece ≠ [] ∧ piece.length ≤ k := by
  induction l using pieces.induct k with
  | case1 l hl =>
    rw [pieces, dif_pos hl] at h
    cases h
  | case2 l hl ih =>
    rw [pieces, dif_neg hl] at h
    rcases List.mem_cons.mp h with rfl | h
    · refine ⟨?_, List.length_take_le k l⟩
      rw [Ne, List.take_eq_nil_iff]
      tauto
    · exact ih h

/-! ## Bodies -/

/-- One append of a handler. -/
inductive Append where
  | owned (text : List UInt8)
  | borrowed (text : List UInt8)

/-- The text of either append. -/
def Append.text : Append → List UInt8
  | owned text => text
  | borrowed text => text

/-- One append to the body. -/
def Response.append (r : Response) : Append → Response
  | .owned text => r.appendBody text
  | .borrowed text => r.appendBorrowedBody text

/-- What the body of a response is. -/
def Response.content (r : Response) : List UInt8 :=
  if r.bodyParts = [] then r.body else r.bodyParts.flatMap r.part

/-- Every part has its bytes. -/
def Response.Fits (r : Response) (p : BodyPart) : Prop :=
  match p.data with
  | some text => p.size = text.length
  | none => p.offset + p.size ≤ r.body.length

/-- Every range is inside of `body`. -/
def Response.Sound (r : Response) : Prop := ∀ p ∈ r.bodyParts, r.Fits p

variable {r : Response} {p : BodyPart} {text : List UInt8} {parts : List BodyPart}

theorem fits_grow
    (h : r.Fits p) : Response.Fits { r with body := r.body ++ text, bodyParts := parts } p := by
  unfold Response.Fits at h ⊢
  split at h
  · exact h
  rw [length_append]
  omega

open Response (append appendBody content header part writes)

open List (append_nil flatMap_append flatMap_singleton foldl_cons length_drop length_nil
  length_take replicate sum)

theorem part_grow (h : r.Fits p) :
    part { r with body := r.body ++ text, bodyParts := parts } p = r.part p := by
  unfold Response.Fits at h
  unfold part
  split at h
  · rfl
  rw [List.drop_append_of_le_length (by omega), List.take_append_of_le_length]
  rw [length_drop]
  omega

theorem length_part (h : r.Fits p) : (r.part p).length = p.size := by
  unfold Response.Fits at h
  unfold part
  split at h
  · rw [length_take, h, Nat.min_self]
  rw [length_take, length_drop]
  omega

theorem bodySize_eq (h : r.Sound) : r.bodySize = r.content.length := by
  unfold Response.bodySize content
  split
  · rfl
  rw [List.length_flatMap]
  exact congrArg sum (List.map_congr_left fun p hp => (length_part (h p hp)).symm)

/-- Parts kept, and one more behind them. -/
theorem flatMap_part_grow {kept : List BodyPart} (h : ∀ p ∈ kept, r.Fits p) :
    kept.flatMap (part { r with body := r.body ++ text, bodyParts := parts }) =
      kept.flatMap r.part :=
  List.flatMap_congr fun p hp => part_grow (h p hp)

theorem appendBorrowedBody_spec (h : r.Sound) (text : List UInt8) :
    (r.appendBorrowedBody text).Sound ∧
      (r.appendBorrowedBody text).content = r.content ++ text := by
  unfold Response.appendBorrowedBody
  split
  · next ht => exact ⟨h, by rw [ht, append_nil]⟩
  split
  · -- the plain body becomes the first part
    rename_i hb
    constructor
    · intro p hp
      rcases List.mem_pair.mp hp with rfl | rfl
      · exact Nat.le_of_eq (Nat.zero_add _)
      · rfl
    · simp [content, part, hb.1]
  rename_i hb
  constructor
  · intro p hp
    rcases List.mem_append.mp hp with hp | hp
    · exact h p hp
    rw [List.mem_singleton.mp hp]
    rfl
  · by_cases hparts : r.bodyParts = []
    · have hbody : r.body = [] := by tauto
      simp [content, part, hparts, hbody]
    · have hpart : part { r with bodyParts := r.bodyParts ++
          [⟨some text, 0, text.length⟩] } = r.part := rfl
      simp only [content, hpart, List.append_eq_nil_iff, hparts, false_and, if_false,
        flatMap_append, flatMap_singleton]
      exact congrArg _ (List.take_length ..)

theorem appendBody_spec (h : r.Sound) (text : List UInt8) :
    (r.appendBody text).Sound ∧ (r.appendBody text).content = r.content ++ text := by
  unfold appendBody
  split
  · next ht => exact ⟨h, by rw [ht, append_nil]⟩
  rcases List.eq_nil_or_concat r.bodyParts with hnil | ⟨kept, last, hkept⟩
  · rw [hnil, List.getLast?_nil, Response.content.eq_1 r, if_pos hnil]
    exact ⟨nofun, rfl⟩
  rw [List.concat_eq_append] at hkept
  have hfits : ∀ p ∈ kept, r.Fits p := fun p hp => h p (by rw [hkept]; simp [hp])
  have hcontent : r.content = kept.flatMap r.part ++ r.part last := by
    simp [content, hkept]
  rw [hkept, List.getLast?_append_of_ne_nil _ (cons_ne_nil _ _), List.getLast?_singleton, hcontent]
  dsimp only
  split
  · -- the last part is the end of the owned string, and grows with it
    rename_i hend
    rw [List.dropLast_concat]
    constructor
    · intro p hp
      rcases List.mem_append.mp hp with hp | hp
      · exact fits_grow (hfits p hp)
      rw [List.mem_singleton.mp hp]
      simp only [Response.Fits, hend.1, length_append]
      omega
    · have hdrop : (r.body.drop last.offset).length = last.size := by
        rw [length_drop]
        omega
      have hp : r.part last = r.body.drop last.offset := by
        rw [part, hend.1, List.take_of_length_le (Nat.le_of_eq hdrop)]
      rw [content, if_neg (by simp), flatMap_append, flatMap_part_grow hfits,
        flatMap_singleton, hp, append_assoc]
      congr 1
      rw [part, hend.1]
      dsimp only
      rw [List.drop_append_of_le_length (by omega), List.take_of_length_le]
      exact Nat.le_of_eq (by rw [length_append, hdrop])
  · constructor
    · intro p hp
      rcases List.mem_append.mp hp with hp | hp
      · exact fits_grow (h p (hkept ▸ hp))
      rw [List.mem_singleton.mp hp]
      simp only [Response.Fits, length_append, Nat.le_refl]
    · rw [content, if_neg (by simp), flatMap_append,
        flatMap_part_grow (hkept ▸ h), flatMap_singleton, flatMap_append,
        flatMap_singleton]
      congr 1
      rw [part]
      rw [drop_left, List.take_length]

theorem append_spec (h : r.Sound) (piece : Append) :
    (r.append piece).Sound ∧ (r.append piece).content = r.content ++ piece.text := by
  cases piece with
  | owned text => exact appendBody_spec h text
  | borrowed text => exact appendBorrowedBody_spec h text

theorem foldl_append_spec (h : r.Sound) (appends : List Append) :
    (appends.foldl append r).Sound ∧
      (appends.foldl append r).content = r.content ++ appends.flatMap Append.text := by
  induction appends generalizing r with
  | nil => exact ⟨h, (append_nil _).symm⟩
  | cons piece appends ih =>
    obtain ⟨hs, hc⟩ := append_spec h piece
    obtain ⟨hs', hc'⟩ := ih hs
    exact ⟨hs', by rw [foldl_cons, hc', hc, List.flatMap_cons, append_assoc]⟩

/-- Neither append touches the status or the content type. -/
theorem foldl_append_head (r : Response) (appends : List Append) :
    (appends.foldl append r).status = r.status ∧
      (appends.foldl append r).contentType = r.contentType := by
  induction appends generalizing r with
  | nil => exact ⟨rfl, rfl⟩
  | cons piece appends ih =>
    obtain ⟨hs, ht⟩ := ih (r.append piece)
    rw [foldl_cons, hs, ht]
    cases piece <;>
      · simp only [append, appendBody, Response.appendBorrowedBody]
        split <;> exact ⟨rfl, rfl⟩

theorem made_all (i : Nat) (l : List α) : made (fun _ => true) i l = l := by
  induction l generalizing i with
  | nil => rfl
  | cons x l ih => rw [made, if_pos rfl, ih]

theorem wire_eq (r : Response) : wire r = r.header ++ r.content := by
  rw [wire, writeResponse, made_all, writes, content]
  split
  · simp
  rw [flatten_cons, pieces_flatten (by decide), List.flatten_append, List.flatten_singleton,
    List.flatMap_def]

section

variable {pool : List Response} (h : ∀ r ∈ pool, r.body = [] ∧ r.bodyParts = [])
include h

theorem takeBuffer_clean : (takeBuffer pool).1 = {} := by
  unfold takeBuffer
  split
  · rfl
  rename_i old hold
  obtain ⟨hb, hp⟩ := h old (List.mem_of_getLast? hold)
  rw [hb, hp]

theorem poolStep_clean
    (step : PoolStep) : ∀ r ∈ poolStep pool step, r.body = [] ∧ r.bodyParts = [] := by
  intro r hr
  cases step with
  | take =>
    rw [poolStep, takeBuffer] at hr
    split at hr
    · exact h r hr
    · exact h r (List.dropLast_subset _ hr)
  | give r' fits =>
    rw [poolStep, returnBuffer] at hr
    split at hr
    · rcases List.mem_append.mp hr with hr | hr
      · exact h r hr
      · rw [List.mem_singleton.mp hr]
        exact ⟨rfl, rfl⟩
    · exact h r hr

end

/-- A request starts with an empty response, whatever was served before. -/
theorem takeBuffer_history (history : List PoolStep) :
    (takeBuffer (history.foldl poolStep [])).1 = {} := by
  suffices h : ∀ pool, (∀ r ∈ pool, r.body = [] ∧ r.bodyParts = []) →
      ∀ r ∈ history.foldl poolStep pool, r.body = [] ∧ r.bodyParts = [] from
    takeBuffer_clean (h [] (nofun))
  induction history with
  | nil => exact fun _ h => h
  | cons step history ih => exact fun pool h => ih _ (poolStep_clean h step)

/-- A handler that sets the status, the content type and the body, and appends, has its body
    written whole, with its length. -/
theorem segmented_body_whole (history : List PoolStep) (status contentType : String)
    (initial : List UInt8) (appends : List Append) :
    let taken := (takeBuffer (history.foldl poolStep [])).1
    let whole := initial ++ appends.flatMap Append.text
    wire (appends.foldl append
        { taken with status := status, contentType := contentType, body := initial }) =
      ascii "HTTP/1.1 " ++ ascii status ++ ascii "\r\nContent-Type: " ++ ascii contentType ++
        ascii "\r\nContent-Length: " ++ ascii (toString whole.length) ++
        ascii "\r\nConnection: close\r\n\r\n" ++ whole := by
  intro taken whole
  have htaken : taken = {} := takeBuffer_history history
  rw [htaken]
  have hsound : Response.Sound ⟨status, contentType, initial, []⟩ := nofun
  obtain ⟨hs, hc⟩ := foldl_append_spec hsound appends
  obtain ⟨hst, hct⟩ := foldl_append_head ⟨status, contentType, initial, []⟩ appends
  have hbase : content ⟨status, contentType, initial, []⟩ = initial := rfl
  rw [hbase] at hc
  rw [wire_eq, header, bodySize_eq hs, hc, hst, hct]

/-! ## The grammar of a request line -/

/-- `method SP target SP rest`. -/
structure RequestLine (line method target rest : List UInt8) : Prop where
  shape : line = method ++ 32 :: (target ++ 32 :: rest)
  method_free : 32 ∉ method
  target_free : 32 ∉ target
  version : http1 <+: rest

/-- The target in front of its first `?`. -/
def path (target : List UInt8) : List UInt8 := target.takeWhile (· != 63)

/-- What the grammar and the registrations, in their order, make of a request line. -/
def Dispatched (registered : List Route) (line : List UInt8) : Verdict → Prop
  | .badRequest => ¬∃ method target rest, RequestLine line method target rest
  | .methodNotAllowed =>
    ∃ method target rest, RequestLine line method target rest ∧ method ≠ get
  | .notFound =>
    ∃ target rest, RequestLine line get target rest ∧ ∀ r ∈ registered, r.path ≠ path target
  | .invoke route request =>
    ∃ target rest, RequestLine line get target rest ∧ request = ⟨get, path target⟩ ∧
      ∃ earlier later, registered = earlier ++ route :: later ∧ route.path = path target ∧
        ∀ r ∈ earlier, r.path ≠ path target

theorem parseLine_iff {line : List UInt8} {request : Request} : parseLine line = some request ↔
      ∃ method target rest, RequestLine line method target rest ∧
        request = ⟨method, path target⟩ := by
  constructor
  · intro h
    rw [parseLine] at h
    obtain ⟨⟨method, after⟩, hm, hrest⟩ := Option.bind_eq_some_iff.mp h
    obtain ⟨⟨target, version⟩, ht, hq⟩ := Option.bind_eq_some_iff.mp hrest
    dsimp only at ht hq
    split at hq
    · next hv =>
      obtain ⟨rfl, hfm⟩ := cutAt_singleton.mp hm
      obtain ⟨rfl, hft⟩ := cutAt_singleton.mp ht
      cases hq
      rw [questionMark, front_singleton]
      exact ⟨method, target, version, ⟨rfl, hfm, hft, hv⟩, rfl⟩
    · cases hq
  · rintro ⟨method, target, rest, ⟨hs, hm, ht, hv⟩, rfl⟩
    have hfirst : cutAt space line = some (method, target ++ 32 :: rest) :=
      cutAt_singleton.mpr ⟨hs, hm⟩
    have hsecond : cutAt space (target ++ 32 :: rest) = some (target, rest) :=
      cutAt_singleton.mpr ⟨rfl, ht⟩
    rw [parseLine, hfirst, Option.bind_some]
    dsimp only
    rw [hsecond, Option.bind_some]
    rw [if_pos hv, questionMark, front_singleton]
    rfl

/-- A line has at most one request. -/
theorem RequestLine.parse {line method target rest : List UInt8}
    (h : RequestLine line method target rest) : parseLine line = some ⟨method, path target⟩ :=
  parseLine_iff.mpr ⟨method, target, rest, h, rfl⟩

/-- A table finds the first registration of a path. -/
theorem find_registered (p : List UInt8) (table registered : List Route) :
    (registered.foldl registerGet table).find? (fun r => r.path == p) =
      (table ++ registered).find? fun r => r.path == p := by
  induction registered generalizing table with
  | nil => rw [append_nil, List.foldl_nil]
  | cons route registered ih =>
    rw [foldl_cons, ih, registerGet]
    split
    · next h =>
      obtain ⟨r, hr, he⟩ := List.any_eq_true.mp h
      rw [List.find?_append, List.find?_append, List.find?_cons]
      split
      · next hp =>
        have hfound : (table.find? fun r => r.path == p).isSome :=
          List.find?_isSome.mpr ⟨r, hr, (beq_iff_eq.mp he).symm ▸ hp⟩
        obtain ⟨x, hx⟩ := Option.isSome_iff_exists.mp hfound
        rw [hx]
        rfl
      · rfl
    · rw [append_assoc, List.singleton_append]

variable {registered : List Route}

theorem find_path_iff {p : List UInt8} {route : Route} :
    registered.find? (fun r => r.path == p) = some route ↔
      ∃ earlier later, registered = earlier ++ route :: later ∧ route.path = p ∧
        ∀ r ∈ earlier, r.path ≠ p := by
  rw [List.find?_eq_some_iff_append]
  simp only [beq_iff_eq, Bool.not_eq_true', beq_eq_false_iff_ne]
  constructor
  · rintro ⟨hp, earlier, later, h, hn⟩
    exact ⟨earlier, later, h, hp, hn⟩
  · rintro ⟨earlier, later, h, hp, hn⟩
    exact ⟨hp, earlier, later, h, hn⟩

theorem find_path_none {p : List UInt8} :
    registered.find? (fun r => r.path == p) = none ↔ ∀ r ∈ registered, r.path ≠ p := by
  simp

section

variable (registered : List Route)

theorem find_table (p : List UInt8) :
    (registered.foldl registerGet []).find? (fun r => r.path == p) =
      registered.find? fun r => r.path == p := by
  rw [find_registered, nil_append]

theorem dispatched_verdict (bytes : List UInt8) :
    Dispatched registered (front crlf bytes) (verdict (registered.foldl registerGet []) bytes) := by
  unfold verdict
  rcases hparse : parseLine (front crlf bytes) with _ | request
  · rintro ⟨method, target, rest, h⟩
    cases h.parse.symm.trans hparse
  obtain ⟨method, target, rest, hline, rfl⟩ := parseLine_iff.mp hparse
  dsimp only
  rw [find_table]
  split
  · next hget => exact ⟨method, target, rest, hline, hget⟩
  rename_i hget
  cases not_not.mp hget
  split
  · next h => exact ⟨target, rest, hline, find_path_none.mp h⟩
  · next h => exact ⟨target, rest, hline, rfl, find_path_iff.mp h⟩

/-- The verdict is the only one that the grammar allows. -/
theorem dispatched_iff (bytes : List UInt8) (v : Verdict) :
    Dispatched registered (front crlf bytes) v ↔
      v = verdict (registered.foldl registerGet []) bytes := by
  refine ⟨?_, fun h => h ▸ dispatched_verdict registered bytes⟩
  intro h
  unfold verdict
  cases v with
  | badRequest =>
    rcases hparse : parseLine (front crlf bytes) with _ | request
    · rfl
    obtain ⟨method, target, rest, hline, -⟩ := parseLine_iff.mp hparse
    exact absurd ⟨method, target, rest, hline⟩ h
  | methodNotAllowed =>
    obtain ⟨method, target, rest, hline, hm⟩ := h
    rw [hline.parse]
    exact (if_pos hm).symm
  | notFound =>
    obtain ⟨target, rest, hline, hno⟩ := h
    rw [hline.parse]
    dsimp only
    rw [if_neg (not_not_intro rfl), find_table, find_path_none.mpr hno]
  | invoke route request =>
    obtain ⟨target, rest, hline, rfl, hfirst⟩ := h
    rw [hline.parse]
    dsimp only
    rw [if_neg (not_not_intro rfl), find_table, find_path_iff.mpr hfirst]

end

/-! ## The read loop -/

/-- The deliveries of a stream: its reads, none empty and none larger than the buffer. -/
def Splits (stream : List UInt8) (reads : List (List UInt8)) : Prop :=
  reads.flatten = stream ∧ ∀ read ∈ reads, read ≠ [] ∧ read.length ≤ kReadBytes

/-- What the end of the read loop says about the stream. -/
def Explains (stream : List UInt8) : ReadEnd → Prop
  | .request bytes =>
    (cutAt terminator bytes).isSome ∧ bytes <+: stream ∧ bytes.length ≤ kMaxRequestBytes
  | .silent => cutAt terminator stream = none ∧ stream.length < kMaxRequestBytes
  | .tooLarge =>
    kMaxRequestBytes ≤ stream.length ∧ ∀ a b, cutAt terminator stream = some (a, b) →
      kMaxRequestBytes < a.length + 4 ∨
        kMaxRequestBytes < a.length + 3 + kReadBytes ∧ kMaxRequestBytes < stream.length

variable {bytes : List UInt8}

/-- A terminator is behind the bytes that have none. -/
theorem lt_of_cutAt {rest : List UInt8} (hnone : (cutAt terminator bytes).isSome = false)
    (h : cutAt terminator (bytes ++ rest) = some (a, b)) : bytes.length < a.length + 4 := by
  by_contra hle
  have hpre : a ++ terminator <+: bytes ++ rest := ⟨b, (cutAt_some h).symm⟩
  obtain ⟨t, rfl⟩ : a ++ terminator <+: bytes :=
    List.prefix_of_prefix_length_le hpre (prefix_append bytes rest)
      (by rw [length_append]; exact Nat.not_lt.mp hle)
  obtain ⟨r, hr, -⟩ := cutAt_of_occurs (show terminator ≠ [] by decide) a t
  rw [hr] at hnone
  cases hnone

variable {reads : List (List UInt8)}

theorem readRequest_explains (hreads : ∀ r ∈ reads, r.length ≤ kReadBytes)
    (hb : bytes.length ≤ kMaxRequestBytes) :
    Explains (bytes ++ reads.flatten) (readRequest reads bytes) := by
  induction reads generalizing bytes with
  | nil =>
    rw [readRequest, flatten_nil, append_nil]
    split
    · next h => exact ⟨h, List.prefix_rfl, hb⟩
    rename_i h
    rw [Bool.not_eq_true, Option.isSome_eq_false_iff, Option.isNone_iff_eq_none] at h
    split
    · next hle =>
      refine ⟨hle, fun a b ha => ?_⟩
      cases h.symm.trans ha
    · next hlt => exact ⟨h, Nat.not_le.mp hlt⟩
  | cons read reads ih =>
    have hread := hreads read List.mem_cons_self
    rw [readRequest, flatten_cons]
    split
    · next h => exact ⟨h, prefix_append _ _, hb⟩
    rename_i h
    rw [Bool.not_eq_true] at h
    have hlen : (bytes ++ (read ++ reads.flatten)).length =
        bytes.length + (read.length + reads.flatten.length) := by
      rw [length_append, length_append]
    split
    · refine ⟨by omega, fun a b ha => .inl ?_⟩
      have := lt_of_cutAt h ha
      omega
    split
    · refine ⟨by omega, fun a b ha => .inr ?_⟩
      have := lt_of_cutAt h ha
      omega
    rw [← append_assoc]
    exact ih (fun r hr => hreads r (List.mem_cons_of_mem _ hr))
      (by rw [length_append]; omega)

theorem readRequest_found (h : (cutAt terminator bytes).isSome)
    (reads : List (List UInt8)) : readRequest reads bytes = .request bytes := by
  cases reads <;> rw [readRequest, if_pos h]

/-- Reads without a terminator and below the limit are only collected. -/
theorem readRequest_collects {more : List (List UInt8)}
    (hnone : cutAt terminator (bytes ++ reads.flatten) = none)
    (hlt : (bytes ++ reads.flatten).length < kMaxRequestBytes) :
    readRequest (reads ++ more) bytes = readRequest more (bytes ++ reads.flatten) := by
  induction reads generalizing bytes with
  | nil => rw [nil_append, flatten_nil, append_nil]
  | cons read reads ih =>
    rw [flatten_cons, ← append_assoc] at hnone hlt ⊢
    have hbytes : cutAt terminator bytes = none := by
      by_contra h
      obtain ⟨r, hr⟩ := Option.ne_none_iff_exists'.mp h
      rw [append_assoc, cutAt_append _ hr] at hnone
      cases hnone
    have hlen : bytes.length + read.length + reads.flatten.length < kMaxRequestBytes := by
      rwa [length_append, length_append] at hlt
    rw [cons_append, readRequest, hbytes, if_neg (by simp), if_neg (by omega),
      if_neg (by omega)]
    exact ih hnone hlt

variable {stream : List UInt8}

/-- The request line ends in front of the end of the header block. -/
theorem verdict_stable (routes : List Route)
    (h : (cutAt terminator bytes).isSome) (hpre : bytes <+: stream) :
    verdict routes bytes = verdict routes stream := by
  obtain ⟨⟨a, b⟩, hab⟩ := Option.isSome_iff_exists.mp h
  have he : bytes = a ++ crlf ++ (crlf ++ b) := by
    rw [cutAt_some hab, terminator, crlf]
    simp
  obtain ⟨r, hr, -⟩ := cutAt_of_occurs (show crlf ≠ [] by decide) a (crlf ++ b)
  rw [← he] at hr
  obtain ⟨m, rfl⟩ := hpre
  have hline : front crlf (bytes ++ m) = front crlf bytes := by
    rw [front, front, cutAt_append m hr, hr]
    rfl
  rw [verdict, verdict, hline]

theorem served_eq (routes : List Route) (history : List PoolStep) (reads : List (List UInt8)) :
    served routes history reads = (serve routes {} reads).map wire := by
  rw [served, takeBuffer_history]

theorem explains_of_splits (h : Splits stream reads) : Explains stream (readRequest reads []) := by
  have hempty : ([] : List UInt8).length ≤ kMaxRequestBytes := Nat.zero_le _
  have := readRequest_explains (fun r hr => (h.2 r hr).2) hempty
  rwa [nil_append, h.1] at this

theorem served_request (routes : List Route) (history : List PoolStep) (h : Splits stream reads)
    (hne : readRequest reads [] ≠ .tooLarge) (hs : readRequest reads [] ≠ .silent) :
    served routes history reads = some (wire (respond {} (verdict routes stream))) := by
  have hex := explains_of_splits h
  rw [served_eq, serve]
  cases hr : readRequest reads [] with
  | tooLarge => exact absurd hr hne
  | silent => exact absurd hr hs
  | request bytes =>
    rw [hr] at hex
    dsimp only
    rw [verdict_stable routes hex.1 hex.2.1]
    rfl

/-- The content type of every response that no handler has set. -/
def plainText : String := "text/plain; charset=utf-8"

/-- A response as it stands on the wire. -/
def message (status contentType : String) (size : Nat) (body : List UInt8) : List UInt8 :=
  ascii ("HTTP/1.1 " ++ status ++ "\r\nContent-Type: " ++ contentType ++ "\r\nContent-Length: " ++
    toString size ++ "\r\nConnection: close\r\n\r\n") ++ body

/-- What the client is told, byte by byte: the fixed texts of the four errors, or the response that
    the handler left.  After a handler that failed, nothing of what it left. -/
def Verdict.answer : Verdict → List UInt8
  | .badRequest => message "400 Bad Request" plainText 23 (ascii "malformed HTTP request\n")
  | .methodNotAllowed =>
    message "405 Method Not Allowed" plainText 22 (ascii "only GET is supported\n")
  | .notFound => message "404 Not Found" plainText 10 (ascii "not found\n")
  | .invoke route request =>
    match route.handler request {} with
    | (true, r) => message r.status r.contentType r.bodySize r.content
    | (false, _) =>
      message "500 Internal Server Error" plainText 23 (ascii "request handler failed\n")

theorem ascii_append (s t : String) : ascii (s ++ t) = ascii s ++ ascii t := by
  simp [ascii]

theorem wire_message (r : Response) :
    wire r = message r.status r.contentType r.bodySize r.content := by
  simp only [wire_eq, header, message, ascii_append, append_assoc]

theorem wire_respond (v : Verdict) : wire (respond {} v) = v.answer := by
  rw [wire_message]
  cases v with
  | badRequest | methodNotAllowed | notFound => rfl
  | invoke route request =>
    rw [respond, Verdict.answer]
    rcases route.handler request {} with ⟨_ | _, r⟩ <;> rfl

/-- A header block of at most 16384 bytes, delivered in any way, is answered as the grammar says:
    exactly one verdict fits its first line, and the bytes that are written are the answer to it. -/
theorem dispatch_meets_grammar (registered : List Route) (history : List PoolStep)
    (block a line rest : List UInt8) (reads : List (List UInt8)) (hreads : Splits block reads)
    (hblock : First terminator block a []) (hlen : block.length ≤ 16384)
    (hline : First crlf block line rest) :
    ∃ v, (∀ v', Dispatched registered line v' ↔ v' = v) ∧
      served (registered.foldl registerGet []) history reads = some v.answer := by
  have hcut := (cutAt_iff (by decide)).mpr hblock
  have hfront : front crlf block = line := by
    rw [front, (cutAt_iff (by decide)).mpr hline]
    rfl
  have hex := explains_of_splits hreads
  refine ⟨verdict (registered.foldl registerGet []) block, ?_, ?_⟩
  · rw [← hfront]
    exact dispatched_iff registered block
  · rw [← wire_respond]
    refine served_request _ history hreads ?_ ?_
    · intro h
      rw [h] at hex
      have hlast := hex.2 a [] hcut
      have := congrArg length hblock.1
      rw [append_nil, length_append] at this
      simp only [terminator, kMaxRequestBytes, kReadBytes, length_cons, length_nil] at *
      omega
    · intro h
      rw [h] at hex
      cases hex.1.symm.trans hcut

/-- A route whose handler answers with what it is given. -/
def echoRoute : Route := ⟨ascii "/m", fun request r => (true, r.appendBody request.target)⟩

theorem dispatch_meets_grammar_get :
    Dispatched [echoRoute] (ascii "GET /m?q HTTP/1.1") (.invoke echoRoute ⟨get, ascii "/m"⟩) ∧
      served [echoRoute] [] [ascii "GET /m?q HTTP/1.1\r\n", crlf] =
        some (message "200 OK" plainText 2 (ascii "/m")) := by
  obtain ⟨v, hv, hserved⟩ := dispatch_meets_grammar [echoRoute] []
    (ascii "GET /m?q HTTP/1.1" ++ terminator) (ascii "GET /m?q HTTP/1.1")
    (ascii "GET /m?q HTTP/1.1") crlf [ascii "GET /m?q HTTP/1.1\r\n", crlf]
    ⟨by decide, by decide⟩ ((cutAt_iff (by decide)).mp (by decide)) (by decide)
    ((cutAt_iff (by decide)).mp (by decide))
  have hline : Dispatched [echoRoute] (ascii "GET /m?q HTTP/1.1")
      (.invoke echoRoute ⟨get, ascii "/m"⟩) :=
    ⟨ascii "/m?q", ascii "HTTP/1.1", ⟨by decide, by decide, by decide, by decide⟩, rfl,
      [], [], rfl, by decide, nofun⟩
  refine ⟨hline, hserved.trans ?_⟩
  rw [← (hv _).mp hline]
  rfl

/-! ## The split of a request -/

/-- A header block that ends within the limit, but so near to it that a read which begins in it can
    pass the limit; and there are bytes to do so. -/
def Straddles (stream : List UInt8) : Prop :=
  ∃ a b, cutAt terminator stream = some (a, b) ∧ 14338 ≤ a.length + 4 ∧ a.length + 4 ≤ 16384 ∧
    16384 < stream.length

/-- All but the last byte of the header block, and the rest in reads of `k`. -/
def chopped (k : Nat) (stream : List UInt8) : List (List UInt8) :=
  let n := (front terminator stream).length + 3
  pieces kReadBytes (stream.take n) ++ pieces k (stream.drop n)

theorem chopped_splits (hk : k ≠ 0) (hle : k ≤ kReadBytes) (stream : List UInt8) :
    Splits stream (chopped k stream) := by
  refine ⟨?_, ?_⟩
  · rw [chopped, List.flatten_append, pieces_flatten (by decide), pieces_flatten hk,
      List.take_append_drop]
  · intro read hr
    rcases List.mem_append.mp hr with hr | hr
    · exact mem_pieces hr
    · exact ⟨(mem_pieces hr).1, (mem_pieces hr).2.trans hle⟩

/-- The read that brings the last byte of the header block decides. -/
theorem readRequest_chopped (h : cutAt terminator stream = some (a, b))
    (hle : a.length + 4 ≤ kMaxRequestBytes) (hk : k ≠ 0) :
    ∃ more, readRequest (chopped k stream) [] =
      if kMaxRequestBytes - (a.length + 3) < min k (b.length + 1) then .tooLarge
      else readRequest more (a ++ [13, 10, 13] ++ (10 :: b).take k) := by
  have hstream : stream = (a ++ [13, 10, 13]) ++ 10 :: b := by
    rw [cutAt_some h, terminator]
    simp
  have hn : (a ++ [13, 10, 13] : List UInt8).length = a.length + 3 := by
    rw [length_append]
    rfl
  have hfront : (front terminator stream).length = a.length := by
    rw [front, h]
    rfl
  have hnone : cutAt terminator (a ++ [13, 10, 13]) = none := by
    by_contra hsome
    obtain ⟨⟨a', b'⟩, hr⟩ := Option.ne_none_iff_exists'.mp hsome
    rw [hstream, cutAt_append (10 :: b) hr] at h
    have hb : b' ++ 10 :: b = b := congrArg Prod.snd (Option.some.inj h)
    have := congrArg length hb
    rw [length_append, length_cons] at this
    omega
  have hpieces : pieces k (10 :: b) = (10 :: b).take k :: pieces k ((10 :: b).drop k) := by
    rw [pieces, dif_neg (by simp [hk])]
  have hcollect := @readRequest_collects [] (pieces kReadBytes (a ++ [13, 10, 13]))
    (pieces k (10 :: b))
  rw [pieces_flatten (by decide), nil_append] at hcollect
  refine ⟨pieces k ((10 :: b).drop k), ?_⟩
  rw [chopped, hfront, hstream, ← hn, List.take_left, drop_left,
    hcollect hnone (by omega), hpieces, readRequest, hnone, if_neg (by simp), if_neg (by omega),
    hn, length_take, length_cons]

/-- One stream, and two responses. -/
theorem straddle_served (h : Straddles stream) (routes : List Route) (history : List PoolStep) :
    served routes history (chopped 1 stream) = some (wire (respond {} (verdict routes stream))) ∧
      served routes history (chopped kReadBytes stream) = some (wire (tooLarge {})) := by
  obtain ⟨a, b, hcut, hlow, hhigh, hlong⟩ := h
  have hlen := congrArg length (cutAt_some hcut)
  simp only [length_append, terminator, length_cons, length_nil] at hlen
  constructor
  · obtain ⟨more, hread⟩ := readRequest_chopped hcut hhigh (Nat.one_ne_zero)
    obtain ⟨r, hr, -⟩ := cutAt_of_occurs (show terminator ≠ [] by decide) a []
    have hfound : (cutAt terminator (a ++ [13, 10, 13] ++ [10])).isSome := by
      rw [append_nil] at hr
      rw [append_assoc, show [13, 10, 13] ++ [10] = terminator from rfl, hr]
      rfl
    rw [if_neg (by simp only [kMaxRequestBytes]; omega), List.take_succ_cons, List.take_zero,
      readRequest_found hfound] at hread
    exact served_request routes history (chopped_splits (by decide) (by decide) stream)
      (by rw [hread]; simp) (by rw [hread]; simp)
  · obtain ⟨more, hread⟩ := readRequest_chopped hcut hhigh (show kReadBytes ≠ 0 by decide)
    rw [if_pos (by simp only [kMaxRequestBytes, kReadBytes]; omega)] at hread
    rw [served_eq, serve, hread]
    rfl

/-- The response to a stream that does not straddle the limit. -/
def expected (routes : List Route) (stream : List UInt8) : Option (List UInt8) :=
  match cutAt terminator stream with
  | some (a, _) =>
    if a.length + 4 ≤ 16384 then some (wire (respond {} (verdict routes stream)))
    else some (wire (tooLarge {}))
  | none => if stream.length < 16384 then none else some (wire (tooLarge {}))

theorem served_expected (routes : List Route) (history : List PoolStep) (h : Splits stream reads) :
    served routes history reads = expected routes stream ∨
      Straddles stream ∧ served routes history reads = some (wire (tooLarge {})) := by
  have hex := explains_of_splits h
  unfold expected
  cases hr : readRequest reads [] with
  | request bytes =>
    rw [hr] at hex
    obtain ⟨hsome, ⟨m, rfl⟩, hle⟩ := hex
    obtain ⟨⟨a, b⟩, hab⟩ := Option.isSome_iff_exists.mp hsome
    have hlen := congrArg length (cutAt_some hab)
    simp only [length_append, terminator, kMaxRequestBytes, length_cons, length_nil] at hlen hle
    rw [cutAt_append m hab]
    dsimp only
    rw [if_pos (by omega)]
    exact .inl (served_request routes history h (by rw [hr]; simp) (by rw [hr]; simp))
  | tooLarge =>
    rw [hr] at hex
    obtain ⟨hlong, hfar⟩ := hex
    have hserved : served routes history reads = some (wire (tooLarge {})) := by
      rw [served_eq, serve, hr]
      rfl
    rw [hserved]
    simp only [kMaxRequestBytes, kReadBytes] at hlong hfar
    rcases hcut : cutAt terminator stream with _ | r
    · exact .inl (if_neg (Nat.not_lt.mpr hlong)).symm
    by_cases hle : r.1.length + 4 ≤ 16384
    · have hpast := (hfar r.1 r.2 hcut).resolve_left (Nat.not_lt.mpr hle)
      exact .inr ⟨⟨r.1, r.2, hcut, by omega, hle, hpast.2⟩, rfl⟩
    · exact .inl (if_neg hle).symm
  | silent =>
    rw [hr] at hex
    rw [hex.1, served_eq, serve, hr]
    exact .inl (if_pos hex.2).symm

/-- Without routes, no request is answered like one that is too large. -/
theorem respond_ne_tooLarge (stream : List UInt8) :
    wire (respond {} (verdict [] stream)) ≠ wire (tooLarge {}) := by
  have hno : ∀ v, v = .badRequest ∨ v = .methodNotAllowed ∨ v = .notFound →
      wire (respond {} v) ≠ wire (tooLarge {}) := by
    rintro v (rfl | rfl | rfl) <;> decide
  refine hno _ ?_
  unfold verdict
  split
  · exact .inl rfl
  split
  · exact .inr (.inl rfl)
  · exact .inr (.inr rfl)

/-- The split of a request never matters, whatever the routes, if and only if its header block does
    not straddle the limit: then some route set, the empty one at least, gives two answers. -/
theorem split_agrees_iff (stream : List UInt8) :
    (∀ routes history history' reads reads', Splits stream reads → Splits stream reads' →
        served routes history reads = served routes history' reads') ↔ ¬Straddles stream := by
  constructor
  · intro h hs
    obtain ⟨hone, hmany⟩ := straddle_served hs [] []
    have := h [] [] [] _ _ (chopped_splits Nat.one_ne_zero (by decide) stream)
      (chopped_splits (show kReadBytes ≠ 0 by decide) le_rfl stream)
    rw [hone, hmany] at this
    exact respond_ne_tooLarge stream (Option.some.inj this)
  · intro hs routes history history' reads reads' hr hr'
    have hall : ∀ history reads, Splits stream reads →
        served routes history reads = expected routes stream :=
      fun history reads hr => (served_expected routes history hr).resolve_right fun h => hs h.1
    rw [hall history reads hr, hall history' reads' hr']

/-- A line of `n` letters, and a thousand bytes behind the header block. -/
def letters (n : Nat) : List UInt8 := List.replicate n 97 ++ terminator ++ List.replicate 1000 97

theorem not_mem_letters (hx : x ≠ 97) (n : Nat) : x ∉ replicate n 97 :=
  fun h => hx (List.eq_of_mem_replicate h)

theorem verdict_letters (n : Nat) : verdict [] (letters n) = .badRequest := by
  have hline : front crlf (letters n) = replicate n 97 := by
    have hcut := cutAt_fresh [10] (crlf ++ replicate 1000 97)
      (not_mem_letters (show (13 : UInt8) ≠ 97 by decide) n)
    rw [front, letters, show terminator = [13, 10] ++ crlf from rfl, ← append_assoc,
      append_assoc, show crlf = [13, 10] from rfl]
    rw [show crlf = [13, 10] from rfl] at hcut
    rw [hcut]
    rfl
  have hparse : parseLine (replicate n 97) = none := by
    rw [parseLine, space, cutAt_singleton_none.mpr (not_mem_letters (by decide) n)]
    rfl
  rw [verdict, hline, hparse]

/-- A request line of 16000 letters is malformed, or too large. -/
theorem long_line_split : ∃ reads reads', Splits (letters 16000) reads ∧
    Splits (letters 16000) reads' ∧ served [] [] reads ≠ served [] [] reads' := by
  have hcut : cutAt terminator (letters 16000) = some (replicate 16000 97, _) :=
    cutAt_fresh [10, 13, 10] _ (not_mem_letters (by decide) 16000)
  have hs : Straddles (letters 16000) := by
    refine ⟨_, _, hcut, ?_, ?_, ?_⟩ <;>
      simp only [letters, terminator, length_append, List.length_replicate,
        length_cons, length_nil] <;> omega
  obtain ⟨hone, hmany⟩ := straddle_served hs [] []
  refine ⟨_, _, chopped_splits Nat.one_ne_zero (by decide) _,
    chopped_splits (show kReadBytes ≠ 0 by decide) le_rfl _, ?_⟩
  rw [hone, hmany, verdict_letters, Ne, Option.some_inj]
  decide

end Bycorf.Net.Http
