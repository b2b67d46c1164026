/-
  The requests of `SpdkBackend`: counted, kept in order, and completed once.

  1. **Where a request is** — `places`: an accepted operation is completed, or it is a synthetic
     completion (waiting, or taken by `Poll`), or the driver has it, or it is deferred.  All of them
     together are the operations that were accepted (`Requests.places`).
  2. **Order** — `Requests.order`: on a queue pair the driver has accepted what the backend
     accepted, up to what is deferred and without what was completed with a submission error.
  3. **Results** — the tag of an unfinished operation remembers its result (`Requests.driver`,
     `Requests.waiting`).  This is where the assumption is needed that a tag has at most one
     unfinished operation (`TagFree`).
  4. **Updates** — one lemma for each thing that can happen to a request; `Spdk/Completed.lean`
     puts them together.

  Of a channel only its ROW matters here, the queue pair and the queue.
-/
import Bycorf.Spdk.Channels

namespace Bycorf.Spdk

open Lib Function
open List (map_nil)
open Multiset (card mem_add)

/-- The sectors of a request are those of what was asked for, and the checks were made. -/
def PendingIo.Formed (hw : Hardware) (r : PendingIo) : Prop :=
  r = Backend.pendingIo hw r.id r.tag r.file r.asked ∧ (r.operation ≠ .flush →
    r.asked.bytes ≠ 0 ∧
      Backend.validRange (hw.device r.asked.device) r.asked.bytes r.asked.offset)

namespace Backend

variable {hw : Hardware} {tagged : Prop} {s s' : Backend}

/-! ## The invariant -/

/-- A queue pair with the requests that wait for it. -/
def Row (c : Channel) : Nat × List PendingIo := (c.qpair, c.pending)

/-- The rows of all channels. -/
def rows (s : Backend) : List (Nat × List PendingIo) := s.channels.map Row

/-- The queue pairs of the table. -/
def keys (s : Backend) : List Nat := s.rows.map Prod.fst

/-- The requests that wait in the queues of the channels. -/
def deferred (s : Backend) : List PendingIo := s.rows.flatMap Prod.snd

/-- Where the accepted operations are. -/
def places (s : Backend) : Multiset Nat :=
  carried (fun x => some x.1) s.completed + carried (fun x => some x.id) s.pendingCompletions +
    carried (fun x => some x.id) s.pc.taken + carried (fun x => some x.id) s.inFlight +
    carried (fun x => some x.id) s.deferred

/-- The requests of a list that were not completed with a submission error. -/
def live (s : Backend) (ids : List Nat) : List Nat := ids.filter fun id => id ∉ s.failed

/-- **The invariant** of the requests.  What it says of results holds where a tag has at most one
    unfinished operation (`tagged`). -/
structure Requests (hw : Hardware) (tagged : Prop) (s : Backend) : Prop where
  count : s.outstanding = s.inFlight.length + s.deferred.length
  places : s.places = Multiset.range s.nextId
  order : ∀ (i : Nat) (row : Nat × List PendingIo), s.rows[i]? = some row →
    s.live (s.acceptedOn row.1) = s.submittedOn row.1 ++ row.2.map PendingIo.id
  closed : ∀ q, q ∉ s.keys → s.live (s.acceptedOn q) = s.submittedOn q
  nodup : ∀ q, (s.acceptedOn q).Nodup
  lt : ∀ q, ∀ id ∈ s.acceptedOn q, id < s.nextId
  disjoint : ∀ q q' id, id ∈ s.acceptedOn q → id ∈ s.acceptedOn q' → q = q'
  driver : tagged → ∀ c ∈ s.inFlight, s.successResult c.tag = s.expected c.id
  waiting : tagged → ∀ r ∈ s.deferred, s.successResult r.tag = s.expected r.id
  synthetic : ∀ y ∈ s.pendingCompletions ++ s.pc.taken, y.result = s.expected y.id
  results : tagged → ∀ x ∈ s.completed, x.2 = s.expected x.1 ∨ x.2 < 0
  failed : ∀ id ∈ s.failed, ∃ result < 0, (id, result) ∈ s.completed
  files : ∀ row ∈ s.rows, ∀ r ∈ row.2, ∃ o, s.files r.file = some o ∧ o.qpair = row.1 ∧
    o.device = r.asked.device
  issued : ∀ c ∈ s.inFlight, c.request.Formed hw ∧ s.asked c.id = c.request.asked ∧
    c.ns = c.request.asked.device
  formed : ∀ r ∈ s.deferred, r.Formed hw ∧ s.asked r.id = r.asked

/-- The tags of unfinished operations. -/
def tags (s : Backend) : List Nat :=
  s.pendingCompletions.map Synthetic.tag ++ s.pc.taken.map Synthetic.tag ++
    s.inFlight.map Command.tag ++ s.deferred.map PendingIo.tag

/-- No request under way has the tag. -/
def TagFree (s : Backend) (tag : Nat) : Prop := tag ∉ s.tags

instance (s : Backend) (tag : Nat) : Decidable (s.TagFree tag) :=
  inferInstanceAs (Decidable (tag ∉ s.tags))

theorem requests_fresh : Backend.fresh.Requests hw tagged where
  count := rfl
  places := rfl
  order := by simp [rows, fresh]
  closed _ _ := rfl
  nodup _ := nodup_nil
  lt _ _ hid := absurd hid not_mem_nil
  disjoint _ _ _ hid := absurd hid not_mem_nil
  driver _ _ hc := absurd hc not_mem_nil
  waiting _ _ hr := absurd hr not_mem_nil
  synthetic _ hy := absurd hy not_mem_nil
  results _ _ hx := absurd hx not_mem_nil
  failed _ hid := absurd hid not_mem_nil
  files _ hrow := absurd hrow not_mem_nil
  issued _ hc := absurd hc not_mem_nil
  formed _ hr := absurd hr not_mem_nil

section Members

variable {id : Nat}

/-- Whatever is somewhere was accepted. -/
theorem Requests.lt_nextId (h : s.Requests hw tagged) (hid : id ∈ s.places) : id < s.nextId := by
  rw [h.places] at hid
  exact Multiset.mem_range.mp hid

theorem mem_places_driver {c : Command} (hc : c ∈ s.inFlight) : c.id ∈ s.places := by
  simp only [places, mem_add, mem_carried]
  exact .inl (.inr ⟨c, hc, rfl⟩)

theorem mem_places_deferred {r : PendingIo} (hr : r ∈ s.deferred) : r.id ∈ s.places := by
  simp only [places, mem_add, mem_carried]
  exact .inr ⟨r, hr, rfl⟩

theorem mem_places_completed {x : Nat × Int} (hx : x ∈ s.completed) : x.1 ∈ s.places := by
  simp only [places, mem_add, mem_carried]
  exact .inl (.inl (.inl (.inl ⟨x, hx, rfl⟩)))

theorem mem_places_synthetic {y : Synthetic} (hy : y ∈ s.pendingCompletions ++ s.pc.taken) :
    y.id ∈ s.places := by
  simp only [places, mem_add, mem_carried]
  rcases mem_append.mp hy with hy | hy
  · exact .inl (.inl (.inl (.inr ⟨y, hy, rfl⟩)))
  · exact .inl (.inl (.inr ⟨y, hy, rfl⟩))

/-- What a new operation is asked for is written down; the old ones keep theirs. -/
theorem Requests.asked_old (h : s.Requests hw tagged) (hid : id ∈ s.places) (t : Transfer) :
    update s.asked s.nextId t id = s.asked id :=
  update_of_ne (Nat.ne_of_lt (h.lt_nextId hid)) ..

theorem Requests.expected_old (h : s.Requests hw tagged) (hid : id ∈ s.places) (t : Transfer) :
    s.expected id = { s with asked := update s.asked s.nextId t }.expected id :=
  congrArg (fun t => (t.bytes : Int)) (h.asked_old hid t).symm

theorem Requests.failed_lt (h : s.Requests hw tagged) (hid : id ∈ s.failed) : id < s.nextId := by
  obtain ⟨result, -, hmem⟩ := h.failed id hid
  exact h.lt_nextId (mem_places_completed hmem)

variable {row : Nat × List PendingIo}

theorem mem_deferred {i : Nat} (h : s.rows[i]? = some row)
    {r : PendingIo} (hr : r ∈ row.2) : r ∈ s.deferred :=
  List.mem_flatMap.mpr ⟨row, mem_of_getElem? h, hr⟩

theorem range_succ_add (n : Nat) : Multiset.range (n + 1) = Multiset.range n + {n} := by
  rw [Multiset.range_succ, ← Multiset.singleton_add, add_comm]

end Members

/-! ## Submissions -/

theorem Requests.asking (h : s.Requests hw tagged) (t : Transfer) :
    { s with asked := update s.asked s.nextId t }.Requests hw tagged :=
  { h with
    driver := fun ht c hc => (h.driver ht c hc).trans (h.expected_old (mem_places_driver hc) t)
    waiting := fun ht r hr =>
      (h.waiting ht r hr).trans (h.expected_old (mem_places_deferred hr) t)
    synthetic := fun y hy => (h.synthetic y hy).trans (h.expected_old (mem_places_synthetic hy) t)
    results := fun ht x hx => (h.results ht x hx).imp_left fun heq =>
      heq.trans (h.expected_old (mem_places_completed hx) t)
    issued := fun c hc => by
      obtain ⟨hformed, hasked, hns⟩ := h.issued c hc
      exact ⟨hformed, (h.asked_old (mem_places_driver hc) t).trans hasked, hns⟩
    formed := fun r hr =>
      ⟨(h.formed r hr).1, (h.asked_old (mem_places_deferred hr) t).trans (h.formed r hr).2⟩ }

/-- An operation that completes at once is left for `Poll`. -/
theorem Requests.synthesize (h : s.Requests hw tagged) (tag : Nat) :
    (s.synthesize tag).Requests hw tagged :=
  { h.asking .nothing with
    places := by
      refine Eq.trans ?_ (range_succ_add s.nextId).symm
      rw [← h.places]
      simp only [Backend.places, Backend.synthesize, carried_append, carried_singleton, single_some]
      rw [show (Backend.deferred _ : List PendingIo) = s.deferred from rfl]
      ac_rfl
    lt := fun q id hid => Nat.lt_succ_of_lt (h.lt q id hid)
    synthetic := fun y hy => by
      have hy : y ∈ s.pendingCompletions ++ [⟨s.nextId, tag, 0⟩] ++ s.pc.taken := hy
      simp only [mem_append, mem_singleton] at hy
      rcases hy with (hy | rfl) | hy
      · exact (h.asking .nothing).synthetic y (mem_append_left s.pc.taken hy)
      · exact congrArg (fun t => (t.bytes : Int)) (update_self s.nextId .nothing s.asked).symm
      · exact (h.asking .nothing).synthetic y (mem_append_right s.pendingCompletions hy) }

/-- A tag that no unfinished operation has may be given another result. -/
theorem Requests.setSuccess (h : s.Requests hw tagged) {tag : Nat}
    (hfree : tagged → s.TagFree tag) (value : Int) :
    { s with successResult := update s.successResult tag value }.Requests hw tagged :=
  { h with
    driver := fun ht c hc => by
      have hne : c.tag ≠ tag := by
        rintro rfl
        exact hfree ht (by simp [tags]; exact .inr (.inr (.inl ⟨c, hc, rfl⟩)))
      exact (update_of_ne hne ..).trans (h.driver ht c hc)
    waiting := fun ht r hr => by
      have hne : r.tag ≠ tag := by
        rintro rfl
        exact hfree ht (by simp [tags]; exact .inr (.inr (.inr ⟨r, hr, rfl⟩)))
      exact (update_of_ne hne ..).trans (h.waiting ht r hr) }

section Accept

variable {q : Nat}

/-- A new request was not completed with an error. -/
theorem Requests.live_concat (h : s.Requests hw tagged) (ids : List Nat) :
    s.live (ids ++ [s.nextId]) = s.live ids ++ [s.nextId] := by
  have hnew : s.nextId ∉ s.failed := fun hmem => Nat.lt_irrefl _ (h.failed_lt hmem)
  rw [live, filter_append]
  congr 1
  simp [hnew]

theorem Requests.nodup_accept (h : s.Requests hw tagged) (p : Nat) :
    (update s.acceptedOn q (s.acceptedOn q ++ [s.nextId]) p).Nodup := by
  by_cases hp : p = q
  · subst hp
    rw [update_self, nodup_append]
    refine ⟨h.nodup p, List.nodup_singleton _, fun a ha b hb heq => ?_⟩
    have hlt := h.lt p a ha
    rw [heq, mem_singleton.mp hb] at hlt
    exact Nat.lt_irrefl _ hlt
  rw [update_of_ne hp]
  exact h.nodup p

/-- What stands in the list of a queue pair after a request was accepted. -/
theorem mem_accept {p id : Nat}
    (hid : id ∈ update s.acceptedOn q (s.acceptedOn q ++ [s.nextId]) p) :
    id ∈ s.acceptedOn p ∨ (p = q ∧ id = s.nextId) := by
  by_cases hp : p = q
  · subst hp
    rw [update_self, mem_append, mem_singleton] at hid
    exact hid.imp_right fun heq => ⟨rfl, heq⟩
  rw [update_of_ne hp] at hid
  exact .inl hid

theorem Requests.lt_accept (h : s.Requests hw tagged) (p id : Nat)
    (hid : id ∈ update s.acceptedOn q (s.acceptedOn q ++ [s.nextId]) p) :
    id < s.nextId + 1 := by
  rcases mem_accept hid with hid | ⟨-, rfl⟩
  · exact Nat.lt_succ_of_lt (h.lt p id hid)
  · exact Nat.lt_succ_self _

theorem Requests.disjoint_accept (h : s.Requests hw tagged) (p p' id : Nat)
    (hid : id ∈ update s.acceptedOn q (s.acceptedOn q ++ [s.nextId]) p)
    (hid' : id ∈ update s.acceptedOn q (s.acceptedOn q ++ [s.nextId]) p') : p = p' := by
  rcases mem_accept hid with hid | ⟨hp, rfl⟩ <;> rcases mem_accept hid' with hid' | ⟨hp', heq⟩
  · exact h.disjoint p p' id hid hid'
  · exact absurd (h.lt p id hid) (by omega)
  · exact absurd (h.lt p' _ hid') (Nat.lt_irrefl _)
  · rw [hp, hp']

/-- Rows of one queue pair are the same row. -/
theorem row_unique (hkeys : s.keys.Nodup) {i j : Nat} {a b : Nat × List PendingIo}
    (hi : s.rows[i]? = some a) (hj : s.rows[j]? = some b) (heq : b.1 = a.1) : j = i := by
  have hat : ∀ {k : Nat} {x : Nat × List PendingIo}, s.rows[k]? = some x →
      s.keys[k]? = some x.1 := by
    intro k x hk
    rw [keys, List.getElem?_map, hk]
    rfl
  have hlt := (List.getElem?_eq_some_iff.mp (hat hj)).1
  refine (List.getElem?_inj hlt hkeys).mp ?_
  rw [hat hi, hat hj, heq]

theorem mem_keys {i : Nat} (h : s.rows[i]? = some row) : row.1 ∈ s.keys :=
  List.mem_map_of_mem (mem_of_getElem? h)

variable {r : PendingIo}

theorem asked_new (hid : r.id = s.nextId) : update s.asked s.nextId r.asked r.id = r.asked := by
  rw [hid, update_self]

/-- The driver accepts a new request at once. -/
theorem Requests.issueNew (h : s.Requests hw tagged) (hkeys : s.keys.Nodup) {i : Nat}
    (hrow : s.rows[i]? = some (q, [])) (hid : r.id = s.nextId)
    (hsuccess : s.successResult r.tag = r.asked.bytes) (hformed : r.Formed hw) :
    ((s.issue r.asked.device q r).acceptRequest q r).Requests hw tagged :=
  { h.asking r.asked with
    count := by
      show s.outstanding + 1 = (s.inFlight ++ [_]).length + s.deferred.length
      rw [length_append, List.length_singleton, h.count]
      omega
    places := by
      refine Eq.trans ?_ (range_succ_add s.nextId).symm
      rw [← h.places, ← hid]
      simp only [Backend.places, issue, acceptRequest, carried_append, carried_singleton,
        single_some]
      rw [show (Backend.deferred _ : List PendingIo) = s.deferred from rfl,
        show Command.id ⟨r.asked.device, q, r⟩ = r.id from rfl]
      ac_rfl
    order := fun j row hj => by
      show s.live (update s.acceptedOn q (s.acceptedOn q ++ [s.nextId]) row.1) =
        update s.submittedOn q (s.submittedOn q ++ [r.id]) row.1 ++ _
      rw [hid]
      by_cases hq : row.1 = q
      · have hji := row_unique hkeys hrow hj hq
        subst hji
        cases hrow.symm.trans hj
        have horder := h.order j (q, []) hrow
        rw [update_self, update_self, h.live_concat, horder]
        simp
      rw [update_of_ne hq, update_of_ne hq]
      exact h.order j row hj
    closed := fun p hp => by
      have hne : p ≠ q := fun heq => hp (heq ▸ mem_keys hrow)
      show s.live (update s.acceptedOn q _ p) = update s.submittedOn q _ p
      rw [update_of_ne hne, update_of_ne hne]
      exact h.closed p hp
    nodup := h.nodup_accept
    lt := h.lt_accept
    disjoint := h.disjoint_accept
    driver := fun ht c hc => by
      rcases mem_append.mp hc with hc | hc
      · exact (h.asking r.asked).driver ht c hc
      · rw [mem_singleton.mp hc]
        exact hsuccess.trans (congrArg (fun t => (t.bytes : Int)) (asked_new hid).symm)
    issued := fun c hc => by
      rcases mem_append.mp hc with hc | hc
      · exact (h.asking r.asked).issued c hc
      · rw [mem_singleton.mp hc]
        exact ⟨hformed, asked_new hid, rfl⟩ }

end Accept

section Queues

variable {i : Nat} {c c' : Channel} {p : List PendingIo} {r : PendingIo}

theorem getElem?_rows (h : s.channels[i]? = some c) : s.rows[i]? = some (Row c) := by
  rw [rows, List.getElem?_map, h]
  rfl

theorem rows_setChannel (s : Backend) (i : Nat) (c : Channel) :
    (s.setChannel i c).rows = s.rows.set i (Row c) :=
  List.map_set

/-- The queue pairs stay when a queue changes. -/
theorem keys_setChannel (h : s.channels[i]? = some c) (heq : c'.qpair = c.qpair) :
    (s.setChannel i c').keys = s.keys := by
  rw [keys, rows_setChannel]
  exact map_set_of_eq (getElem?_rows h) heq

theorem mem_deferred_setChannel (hr : r ∈ (s.setChannel i c').deferred) :
    r ∈ c'.pending ∨ r ∈ s.deferred := by
  obtain ⟨row, hrow, hmem⟩ := List.mem_flatMap.mp hr
  rw [rows_setChannel] at hrow
  rcases List.mem_or_eq_of_mem_set hrow with hrow | rfl
  · exact .inr (List.mem_flatMap.mpr ⟨row, hrow, hmem⟩)
  · exact .inl hmem

section

variable (h : s.channels[i]? = some c)
include h

/-- What is deferred, when one queue changes. -/
theorem carried_setChannel (c' : Channel) :
    carried (fun x => some x.id) (s.setChannel i c').deferred +
        carried (fun x => some x.id) c.pending =
      carried (fun x => some x.id) s.deferred + carried (fun x => some x.id) c'.pending := by
  rw [deferred, rows_setChannel]
  exact carried_flatMap_set _ Prod.snd (getElem?_rows h) (Row c')

theorem length_setChannel (c' : Channel) :
    (s.setChannel i c').deferred.length + c.pending.length =
      s.deferred.length + c'.pending.length := by
  have hcard := congrArg card (carried_setChannel h c')
  simpa only [Multiset.card_add, card_carried_some] using hcard

theorem carried_enqueue (r : PendingIo) :
    carried (fun x => some x.id) (s.setChannel i { c with pending := c.pending ++ [r] }).deferred =
      carried (fun x => some x.id) s.deferred + {r.id} := by
  have hset := carried_setChannel h { c with pending := c.pending ++ [r] }
  rw [carried_append, carried_singleton, single_some, ← add_assoc, add_right_comm] at hset
  exact add_right_cancel hset

theorem carried_dequeue (hp : c.pending = r :: p) :
    carried (fun x => some x.id) s.deferred =
      carried (fun x => some x.id) (s.setChannel i { c with pending := p }).deferred + {r.id} := by
  have hset := carried_setChannel h { c with pending := p }
  rw [hp, carried_cons, carried_singleton, single_some, ← add_assoc] at hset
  exact (add_right_cancel hset).symm

/-- What a row is after one queue changed. -/
theorem rows_setChannel_cases {j : Nat} (hj : (s.setChannel i c').rows[j]? = some row) :
    (j = i ∧ row = Row c') ∨ (j ≠ i ∧ s.rows[j]? = some row) := by
  rw [rows_setChannel] at hj
  exact getElem?_set_cases (getElem?_rows h) hj

end

theorem mem_deferred_enqueue (hc : s.channels[i]? = some c) {x : PendingIo}
    (hx : x ∈ (s.setChannel i { c with pending := c.pending ++ [r] }).deferred) :
    x ∈ s.deferred ∨ x = r := by
  rcases mem_deferred_setChannel hx with hx | hx
  · exact (mem_append.mp hx).imp (mem_deferred (getElem?_rows hc)) mem_singleton.mp
  · exact .inl hx

/-- A new request is deferred. -/
theorem Requests.queueNew (h : s.Requests hw tagged) (hkeys : s.keys.Nodup)
    (hc : s.channels[i]? = some c) (hid : r.id = s.nextId)
    (hsuccess : s.successResult r.tag = r.asked.bytes) (hformed : r.Formed hw)
    (hfile : ∃ o, s.files r.file = some o ∧ o.qpair = c.qpair ∧ o.device = r.asked.device) :
    ((s.setChannel i { c with pending := c.pending ++ [r] }).acceptRequest c.qpair
      r).Requests hw tagged :=
  { h.asking r.asked with
    count := by
      have hlen := length_setChannel hc { c with pending := c.pending ++ [r] }
      rw [length_append, List.length_singleton] at hlen
      have hcount := h.count
      show s.outstanding + 1 = s.inFlight.length + (s.setChannel i _).deferred.length
      omega
    places := by
      refine Eq.trans ?_ (range_succ_add s.nextId).symm
      rw [← h.places, ← hid]
      show carried _ s.completed + carried _ s.pendingCompletions + carried _ s.pc.taken +
        carried _ s.inFlight + carried _ (s.setChannel i _).deferred = _
      rw [carried_enqueue hc r, ← add_assoc]
      rfl
    order := fun j row hj => by
      show s.live (update s.acceptedOn c.qpair _ row.1) = s.submittedOn row.1 ++ _
      rcases rows_setChannel_cases hc hj with ⟨rfl, rfl⟩ | ⟨hne, hj⟩
      · have horder := h.order j (Row c) (getElem?_rows hc)
        show s.live (update s.acceptedOn c.qpair (s.acceptedOn c.qpair ++ [s.nextId])
          c.qpair) = s.submittedOn c.qpair ++ (c.pending ++ [r]).map PendingIo.id
        rw [update_self, h.live_concat, map_append, ← append_assoc]
        refine congrArg₂ (· ++ ·) horder ?_
        rw [List.map_singleton, hid]
      have hq : row.1 ≠ c.qpair := fun heq => hne (row_unique hkeys (getElem?_rows hc) hj heq)
      rw [update_of_ne hq]
      exact h.order j row hj
    closed := fun q hq => by
      have hkey : q ∉ s.keys := by
        have hsame : (s.setChannel i { c with pending := c.pending ++ [r] }).keys = s.keys :=
          keys_setChannel hc rfl
        rw [← hsame]
        exact hq
      have hne : q ≠ c.qpair := fun heq => hkey (heq ▸ mem_keys (getElem?_rows hc))
      show s.live (update s.acceptedOn c.qpair _ q) = s.submittedOn q
      rw [update_of_ne hne]
      exact h.closed q hkey
    nodup := h.nodup_accept
    lt := h.lt_accept
    disjoint := h.disjoint_accept
    waiting := fun ht x hx => by
      rcases mem_deferred_enqueue hc hx with hx | rfl
      · exact (h.asking r.asked).waiting ht x hx
      · exact hsuccess.trans (congrArg (fun t => (t.bytes : Int)) (asked_new hid).symm)
    formed := fun x hx => by
      rcases mem_deferred_enqueue hc hx with hx | rfl
      · exact (h.asking r.asked).formed x hx
      · exact ⟨hformed, asked_new hid⟩
    files := fun row hrow x hx => by
      have hrow : row ∈ (s.setChannel i { c with pending := c.pending ++ [r] }).rows := hrow
      rw [rows_setChannel] at hrow
      rcases List.mem_or_eq_of_mem_set hrow with hrow | rfl
      · exact h.files row hrow x hx
      rcases mem_append.mp hx with hx | hx
      · exact h.files (Row c) (mem_of_getElem? (getElem?_rows hc)) x hx
      rw [mem_singleton.mp hx]
      exact hfile }

/-- `SubmitOrDefer`, for a request whose result is noted in its tag. -/
theorem Requests.submitOrDefer (h : s.Requests hw tagged) (hkeys : s.keys.Nodup) {index : Nat}
    (answer : Answer) (hid : r.id = s.nextId) (hsuccess : s.successResult r.tag = r.asked.bytes)
    (hformed : r.Formed hw) (hfile : ∀ c, s.channels[index]? = some c →
      ∃ o, s.files r.file = some o ∧ o.qpair = c.qpair ∧ o.device = r.asked.device) :
    (s.submitOrDefer r r.asked.device index answer).2.Requests hw tagged := by
  have hqueue : ∀ c, s.channels[index]? = some c →
      (s.queuePending r index c answer.alloc).2.Requests hw tagged := by
    intro c hc
    rw [queuePending]
    split
    · exact h.queueNew hkeys hc hid hsuccess hformed (hfile c hc)
    · exact h
  rw [Backend.submitOrDefer]
  rcases hc : s.channels[index]? with _ | c
  · exact h
  dsimp only
  split
  · exact hqueue c hc
  rename_i hempty
  have hrow : s.rows[index]? = some (c.qpair, []) := by
    rw [getElem?_rows hc, Row, not_not.mp hempty]
  cases answer.rc with
  | ok => exact h.issueNew hkeys hrow hid hsuccess hformed
  | noMemory =>
    dsimp only
    split
    · exact hqueue c hc
    · exact h
  | failed errno pos => exact h

end Queues

section Tables

variable {channels : List Channel} {rows' : List (Nat × List PendingIo)}
  {files : Nat → Option OpenFile} {freed : List Nat} {generation cursor nextQpair : Nat}

/-- The table changes, and every row of it is an old one or a new one without requests. -/
theorem Requests.retable (h : s.Requests hw tagged) (hrows : channels.map Row = rows')
    (hdeferred : rows'.flatMap Prod.snd = s.deferred)
    (horder : ∀ row ∈ rows', row ∈ s.rows ∨ (row.2 = [] ∧ row.1 ∉ s.keys))
    (hclosed : ∀ q ∈ s.keys, q ∉ rows'.map Prod.fst → (q, []) ∈ s.rows)
    (hfiles : ∀ row ∈ rows', ∀ r ∈ row.2, ∃ o, files r.file = some o ∧ o.qpair = row.1 ∧
      o.device = r.asked.device) :
    { s with
      channels := channels, files := files, freed := freed, channelGeneration := generation
      nextPollChannel := cursor, nextQpair := nextQpair }.Requests hw tagged := by
  subst hrows
  have hold : ∀ row ∈ s.rows, s.live (s.acceptedOn row.1) =
      s.submittedOn row.1 ++ row.2.map PendingIo.id := by
    intro row hrow
    obtain ⟨i, hi⟩ := List.mem_iff_getElem?.mp hrow
    exact h.order i row hi
  exact { h with
    count := by
      have hcount := h.count
      rw [← hdeferred] at hcount
      exact hcount
    places := by
      have hplaces := h.places
      rw [Backend.places, ← hdeferred] at hplaces
      exact hplaces
    order := fun i row hi => by
      rcases horder row (mem_of_getElem? hi) with hrow | ⟨hempty, hkey⟩
      · exact hold row hrow
      rw [hempty, map_nil, append_nil]
      exact h.closed row.1 hkey
    closed := fun q hq => by
      by_cases hkey : q ∈ s.keys
      · have heq := hold (q, []) (hclosed q hkey hq)
        rwa [map_nil, append_nil] at heq
      · exact h.closed q hkey
    waiting := fun ht r hr => h.waiting ht r (by rw [← hdeferred]; exact hr)
    formed := fun r hr => h.formed r (by rw [← hdeferred]; exact hr)
    files := hfiles }

variable {c : Channel}

/-- A row changes only in its number of files. -/
theorem map_row_set {i : Nat} (hc : s.channels[i]? = some c) (k : Nat) :
    (s.channels.set i { c with openFiles := k }).map Row = s.rows :=
  map_set_of_eq hc rfl

section

variable (h : s.Requests hw tagged)
include h

theorem Requests.openOn {file device i : Nat}
    (hclosed : s.files file = none) (hc : s.channels[i]? = some c) :
    (s.openOn file device i c).Requests hw tagged := by
  refine h.retable (map_row_set hc (c.openFiles + 1)) rfl (fun _ hrow => .inl hrow)
    (fun _ hq hnot => absurd hq hnot) fun row hrow r hr => ?_
  obtain ⟨o, ho, hq⟩ := h.files row hrow r hr
  refine ⟨o, ?_, hq⟩
  have hne : r.file ≠ file := by
    rintro heq
    rw [heq, hclosed] at ho
    cases ho
  exact (update_of_ne hne ..).trans ho

theorem Requests.pushChannel (hnew : s.nextQpair ∉ s.keys) (controller : Nat) :
    (s.pushChannel controller).Requests hw tagged := by
  have hrows : (s.channels ++ [(⟨⟨controller, s.nextQpair, 0⟩, []⟩ : Channel)]).map Row =
      s.rows ++ [(s.nextQpair, [])] := map_append
  refine h.retable hrows ?_ ?_ ?_ ?_
  · rw [List.flatMap_append]
    exact append_nil _
  · intro row hrow
    rcases mem_append.mp hrow with hrow | hrow
    · exact .inl hrow
    rw [mem_singleton.mp hrow]
    exact .inr ⟨rfl, hnew⟩
  · intro q hq hnot
    rw [map_append] at hnot
    exact absurd (mem_append_left _ hq) hnot
  · intro row hrow r hr
    rcases mem_append.mp hrow with hrow | hrow
    · exact h.files row hrow r hr
    rw [mem_singleton.mp hrow] at hr
    cases hr

/-- When nothing is outstanding, every queue is empty. -/
theorem Requests.rows_empty (hidle : s.outstanding = 0) : ∀ row ∈ s.rows, row.2 = [] := by
  have hcount := h.count
  have hnil : s.deferred = [] := List.eq_nil_of_length_eq_zero (by omega)
  intro row hrow
  exact List.flatMap_eq_nil_iff.mp hnil row hrow

theorem Requests.closeFile {file i : Nat}
    (hidle : s.outstanding = 0) (hc : s.channels[i]? = some c) :
    ((s.setChannel i { c with openFiles := c.openFiles - 1 }).setFile file none).Requests
      hw tagged := by
  refine h.retable (map_row_set hc (c.openFiles - 1)) rfl (fun _ hrow => .inl hrow)
    (fun _ hq hnot => absurd hq hnot) fun row hrow r hr => ?_
  rw [h.rows_empty hidle row hrow] at hr
  cases hr

theorem Requests.closeLast {file i : Nat} (c : Channel)
    (hidle : s.outstanding = 0) :
    ((s.eraseChannel i c.qpair).setFile file none).Requests hw tagged := by
  have hrows : (s.channels.eraseIdx i).map Row = s.rows.eraseIdx i := (List.eraseIdx_map ..).symm
  have hempty := h.rows_empty hidle
  have hstays : ∀ row ∈ s.rows.eraseIdx i, row ∈ s.rows := fun _ => List.mem_of_mem_eraseIdx
  refine h.retable hrows ?_ (fun row hrow => .inl (hstays row hrow)) ?_ ?_
  · have hnil : ∀ rows : List (Nat × List PendingIo), (∀ row ∈ rows, row.2 = []) →
        rows.flatMap Prod.snd = [] := fun rows hall => List.flatMap_eq_nil_iff.mpr hall
    rw [hnil _ fun row hrow => hempty row (hstays row hrow)]
    exact (hnil _ hempty).symm
  · intro q hq _
    obtain ⟨row, hrow, rfl⟩ := mem_map.mp hq
    rw [← hempty row hrow]
    exact hrow
  · intro row hrow r hr
    rw [hempty row (hstays row hrow)] at hr
    cases hr

end

end Tables

/-! ## Polling -/

section Polling

section

variable (h : s.Requests hw tagged)
include h

/-- `Poll` goes on without touching a request. -/
theorem Requests.control (htaken : s.pc.taken = []) {pc : Pc} {cursor : Nat}
    {uses : List Use} (hpc : pc.taken = []) :
    { s with pc := pc, nextPollChannel := cursor, uses := uses }.Requests hw tagged :=
  { h with
    places := by
      have hplaces := h.places
      rw [Backend.places, htaken, ← hpc] at hplaces
      exact hplaces
    synthetic := by
      have hsynthetic := h.synthetic
      rw [htaken, ← hpc] at hsynthetic
      exact hsynthetic }

theorem Requests.beginPoll (hpc : s.pc = .idle) (maxCompletions : Nat) :
    (s.beginPoll maxCompletions).Requests hw tagged :=
  { h with
    places := by
      have hplaces := h.places
      rw [Backend.places, hpc] at hplaces
      refine Eq.trans ?_ hplaces
      show carried _ s.completed + carried _ [] + carried _ s.pendingCompletions + _ + _ =
        _ + _ + carried _ [] + _ + _
      rw [carried_nil, add_zero, add_zero]
      rfl
    synthetic := fun y hy => by
      have hy : y ∈ s.pendingCompletions := hy
      exact h.synthetic y (mem_append_left _ hy) }

theorem Requests.deliver {maxCompletions size : Nat} {y : Synthetic}
    {rest : List Synthetic} (hpc : s.pc = .synthetic maxCompletions (y :: rest) size) :
    { s with
      completed := s.completed ++ [(y.id, y.result)]
      pc := .synthetic maxCompletions rest size }.Requests hw tagged :=
  { h with
    places := by
      have hplaces := h.places
      rw [Backend.places, hpc] at hplaces
      refine Eq.trans ?_ hplaces
      simp only [Backend.places, Pc.taken, carried_append, carried_singleton, single_some]
      rw [carried_cons _ y rest, carried_singleton, single_some]
      rw [show (Backend.deferred _ : List PendingIo) = s.deferred from rfl]
      ac_rfl
    synthetic := fun z hz => by
      refine h.synthetic z ?_
      rw [hpc]
      rcases mem_append.mp hz with hz | hz
      · exact mem_append_left _ hz
      · exact mem_append_right _ (mem_cons_of_mem y hz)
    results := fun ht x hx => by
      rcases mem_append.mp hx with hx | hx
      · exact h.results ht x hx
      rw [mem_singleton.mp hx]
      refine .inl (h.synthetic y ?_)
      rw [hpc]
      exact mem_append_right _ (mem_cons_self ..)
    failed := fun id hid => by
      obtain ⟨result, hneg, hmem⟩ := h.failed id hid
      exact ⟨result, hneg, mem_append_left _ hmem⟩ }

/-- The driver completes a command. -/
theorem Requests.completeAsync {position : Nat} {c : Command} (error : Bool)
    (hc : s.inFlight[position]? = some c) :
    ({ s with inFlight := s.inFlight.eraseIdx position }.complete c.id
      (if error then -5 else s.successResult c.tag)).Requests hw tagged :=
  { h with
    count := by
      have hlt := (List.getElem?_eq_some_iff.mp hc).1
      have hcount := h.count
      show s.outstanding - 1 = (s.inFlight.eraseIdx position).length + s.deferred.length
      rw [List.length_eraseIdx_of_lt hlt]
      omega
    places := by
      refine Eq.trans ?_ h.places
      simp only [Backend.places, complete, carried_append, carried_singleton, single_some]
      rw [show (Backend.deferred _ : List PendingIo) = s.deferred from rfl,
        carried_eraseIdx _ hc, carried_singleton, single_some]
      ac_rfl
    driver := fun ht d hd => h.driver ht d (List.mem_of_mem_eraseIdx hd)
    issued := fun d hd => h.issued d (List.mem_of_mem_eraseIdx hd)
    results := fun ht x hx => by
      rcases mem_append.mp hx with hx | hx
      · exact h.results ht x hx
      rw [mem_singleton.mp hx]
      cases error with
      | true => exact .inr (by simp)
      | false => exact .inl (h.driver ht c (mem_of_getElem? hc))
    failed := fun id hid => by
      obtain ⟨result, hneg, hmem⟩ := h.failed id hid
      exact ⟨result, hneg, mem_append_left _ hmem⟩ }

end

variable {i : Nat} {c : Channel} {r : PendingIo} {rest : List PendingIo}

theorem mem_deferred_of_dequeue (hc : s.channels[i]? = some c) (hp : c.pending = r :: rest)
    {x : PendingIo} (hx : x ∈ (s.setChannel i { c with pending := rest }).deferred) :
    x ∈ s.deferred := by
  rcases mem_deferred_setChannel hx with hx | hx
  · refine mem_deferred (getElem?_rows hc) ?_
    show x ∈ c.pending
    rw [hp]
    exact mem_cons_of_mem r hx
  · exact hx

theorem Requests.files_dequeue (h : s.Requests hw tagged) (hc : s.channels[i]? = some c)
    (hp : c.pending = r :: rest) (row : Nat × List PendingIo)
    (hrow : row ∈ (s.setChannel i { c with pending := rest }).rows) :
    ∀ x ∈ row.2, ∃ o, s.files x.file = some o ∧ o.qpair = row.1 ∧
      o.device = x.asked.device := by
  intro x hx
  rw [rows_setChannel] at hrow
  rcases List.mem_or_eq_of_mem_set hrow with hrow | rfl
  · exact h.files row hrow x hx
  refine h.files (Row c) (mem_of_getElem? (getElem?_rows hc)) x ?_
  show x ∈ c.pending
  rw [hp]
  exact mem_cons_of_mem r hx

theorem length_dequeue (hc : s.channels[i]? = some c) (hp : c.pending = r :: rest) :
    (s.setChannel i { c with pending := rest }).deferred.length + 1 = s.deferred.length := by
  have hlen : _ = s.deferred.length + rest.length := length_setChannel hc { c with pending := rest }
  rw [hp, length_cons] at hlen
  omega

/-- The first request of a queue is in the account of its queue pair. -/
theorem Requests.order_dequeue (h : s.Requests hw tagged) (hc : s.channels[i]? = some c)
    (hp : c.pending = r :: rest) :
    s.live (s.acceptedOn c.qpair) = s.submittedOn c.qpair ++ r.id :: rest.map PendingIo.id := by
  have horder := h.order i (Row c) (getElem?_rows hc)
  rw [Row, hp, map_cons] at horder
  exact horder

theorem Requests.closed_dequeue (h : s.Requests hw tagged) (hc : s.channels[i]? = some c) {q : Nat}
    (hq : q ∉ (s.setChannel i { c with pending := rest }).keys) :
    q ≠ c.qpair ∧ s.live (s.acceptedOn q) = s.submittedOn q := by
  have hsame : (s.setChannel i { c with pending := rest }).keys = s.keys := keys_setChannel hc rfl
  rw [hsame] at hq
  exact ⟨fun heq => hq (heq ▸ mem_keys (getElem?_rows hc)), h.closed q hq⟩

/-- A deferred request is accepted by the driver. -/
theorem Requests.retryIssue (h : s.Requests hw tagged) (hkeys : s.keys.Nodup)
    (hc : s.channels[i]? = some c) (hp : c.pending = r :: rest) {o : OpenFile}
    (ho : s.files r.file = some o) :
    ((s.setChannel i { c with pending := rest }).issue o.device c.qpair r).Requests hw tagged :=
  have hfirst : r ∈ s.deferred := by
    refine mem_deferred (getElem?_rows hc) ?_
    show r ∈ c.pending
    rw [hp]
    exact mem_cons_self ..
  { h with
    count := by
      have hlen := length_dequeue hc hp
      have hcount := h.count
      show s.outstanding = (s.inFlight ++ [_]).length + (s.setChannel i _).deferred.length
      rw [length_append, List.length_singleton]
      omega
    places := by
      refine Eq.trans ?_ h.places
      rw [Backend.places, Backend.places, carried_dequeue hc hp]
      show _ + carried _ (s.inFlight ++ [_]) + carried _ (s.setChannel i _).deferred = _
      rw [carried_append, carried_singleton, single_some]
      ac_rfl
    order := fun j row hj => by
      show s.live (s.acceptedOn row.1) =
        update s.submittedOn c.qpair (s.submittedOn c.qpair ++ [r.id]) row.1 ++ _
      rcases rows_setChannel_cases hc hj with ⟨rfl, rfl⟩ | ⟨hne, hj⟩
      · show s.live (s.acceptedOn c.qpair) = update s.submittedOn c.qpair
          (s.submittedOn c.qpair ++ [r.id]) c.qpair ++ rest.map PendingIo.id
        rw [update_self, h.order_dequeue hc hp, append_assoc]
        rfl
      have hq : row.1 ≠ c.qpair := fun heq => hne (row_unique hkeys (getElem?_rows hc) hj heq)
      rw [update_of_ne hq]
      exact h.order j row hj
    closed := fun q hq => by
      obtain ⟨hne, hclosed⟩ := h.closed_dequeue hc hq
      show s.live (s.acceptedOn q) = update s.submittedOn c.qpair _ q
      rw [update_of_ne hne]
      exact hclosed
    driver := fun ht d hd => by
      rcases mem_append.mp hd with hd | hd
      · exact h.driver ht d hd
      rw [mem_singleton.mp hd]
      exact h.waiting ht r hfirst
    issued := fun d hd => by
      rcases mem_append.mp hd with hd | hd
      · exact h.issued d hd
      -- the file of a deferred request is still the one it was made for
      obtain ⟨o', ho', -, hdevice⟩ := h.files (Row c) (mem_of_getElem? (getElem?_rows hc)) r
        (by rw [Row, hp]; exact mem_cons_self ..)
      cases ho.symm.trans ho'
      rw [mem_singleton.mp hd]
      exact ⟨(h.formed r hfirst).1, (h.formed r hfirst).2, hdevice⟩
    waiting := fun ht x hx => h.waiting ht x (mem_deferred_of_dequeue hc hp hx)
    formed := fun x hx => h.formed x (mem_deferred_of_dequeue hc hp hx)
    files := fun row hrow => h.files_dequeue hc hp row hrow }

/-- One request more has failed: it leaves the lists it is in. -/
theorem live_failed (s : Backend) (ids : List Nat) (id : Nat) :
    { s with failed := s.failed ++ [id] }.live ids = (s.live ids).filter fun x => x ≠ id := by
  rw [live, live, List.filter_filter]
  refine List.filter_congr fun x _ => ?_
  simp [and_comm]

/-- A deferred request is refused, and completed with the error. -/
theorem Requests.retryFail (h : s.Requests hw tagged) (hkeys : s.keys.Nodup)
    (hc : s.channels[i]? = some c) (hp : c.pending = r :: rest) {result : Int}
    (hneg : result < 0) :
    { (s.setChannel i { c with pending := rest }).complete r.id result with
      failed := s.failed ++ [r.id] }.Requests hw tagged := by
  have horder := h.order_dequeue hc hp
  have hmem : r.id ∈ s.acceptedOn c.qpair := by
    have hlive : r.id ∈ s.live (s.acceptedOn c.qpair) := by
      rw [horder]
      simp
    exact List.mem_of_mem_filter hlive
  -- it is in no other list, and once in its own
  have hother : ∀ q, q ≠ c.qpair →
      (s.live (s.acceptedOn q)).filter (fun x => x ≠ r.id) = s.live (s.acceptedOn q) := by
    intro q hq
    refine List.filter_eq_self.mpr fun x hx => ?_
    have hx := List.mem_of_mem_filter hx
    simp only [ne_eq, decide_eq_true_eq]
    rintro rfl
    exact hq (h.disjoint q c.qpair _ hx hmem)
  have hown : (s.live (s.acceptedOn c.qpair)).filter (fun x => x ≠ r.id) =
      s.submittedOn c.qpair ++ rest.map PendingIo.id := by
    have hnodup : (s.live (s.acceptedOn c.qpair)).Nodup := (h.nodup c.qpair).filter _
    rw [horder] at hnodup ⊢
    obtain ⟨-, hrest, hdisjoint⟩ := nodup_append.mp hnodup
    rw [filter_append, List.filter_cons_of_neg (by simp)]
    refine congrArg₂ (· ++ ·) ?_ ?_
    · refine List.filter_eq_self.mpr fun x hx => ?_
      have hne := hdisjoint x hx r.id (mem_cons_self ..)
      simpa using hne
    · refine List.filter_eq_self.mpr fun x hx => ?_
      have hne : x ≠ r.id := fun heq => (nodup_cons.mp hrest).1 (heq ▸ hx)
      simpa using hne
  exact { h with
    count := by
      have hlen := length_dequeue hc hp
      have hcount := h.count
      show s.outstanding - 1 = s.inFlight.length + (s.setChannel i _).deferred.length
      omega
    places := by
      refine Eq.trans ?_ h.places
      rw [Backend.places, Backend.places, carried_dequeue hc hp]
      show carried _ (s.completed ++ [_]) + _ + _ + _ + carried _ (s.setChannel i _).deferred = _
      rw [carried_append, carried_singleton, single_some]
      ac_rfl
    order := fun j row hj => by
      refine (live_failed s _ r.id).trans ?_
      rcases rows_setChannel_cases hc hj with ⟨rfl, rfl⟩ | ⟨hne, hj⟩
      · exact hown
      have hq : row.1 ≠ c.qpair := fun heq => hne (row_unique hkeys (getElem?_rows hc) hj heq)
      exact (hother row.1 hq).trans (h.order j row hj)
    closed := fun q hq => by
      obtain ⟨hne, hclosed⟩ := h.closed_dequeue hc hq
      exact (live_failed s _ r.id).trans ((hother q hne).trans hclosed)
    waiting := fun ht x hx => h.waiting ht x (mem_deferred_of_dequeue hc hp hx)
    formed := fun x hx => h.formed x (mem_deferred_of_dequeue hc hp hx)
    results := fun ht x hx => by
      rcases mem_append.mp hx with hx | hx
      · exact h.results ht x hx
      rw [mem_singleton.mp hx]
      exact .inr hneg
    failed := fun id hid => by
      rcases mem_append.mp hid with hid | hid
      · obtain ⟨result, hneg, hmem⟩ := h.failed id hid
        exact ⟨result, hneg, mem_append_left _ hmem⟩
      rw [mem_singleton.mp hid]
      exact ⟨result, hneg, mem_append_right _ (List.mem_singleton_self _)⟩
    files := fun row hrow => h.files_dequeue hc hp row hrow }

end Polling

end Backend

end Bycorf.Spdk
