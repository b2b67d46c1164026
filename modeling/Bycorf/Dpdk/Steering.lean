/-
  `Destination`: which worker's TCP stack gets a received frame.

  1. **Program** — `classify` is the header parsing down to the length checks of the TCP header,
     `place` the three placement rules in their order: a port owned by a client, the receiving queue
     (RSS), the hash of the flow.  A read of the frame is `frame[i]?`: a read behind the end, or an
     index behind the end of a worker list, makes the whole result `none`.
  2. **Specification** — `TcpFrame` says what a complete, unfragmented IPv4 TCP frame is, field by
     field, and `SameFlow` that two of them have the same addresses and ports.
  3. **Results** — `Steers`: no read is out of bounds, and the value is -1, -2 or a worker; the hash
     mode is a function of the flow; listener ports and client ports go where they were configured.
-/
import Mathlib.Algebra.Group.Nat.Defs
import Mathlib.Data.Finset.Card

namespace Bycorf.Dpdk

open Option (bind_some)

/-! ## The program -/

/-- `kListenerPortOwner`, `~0u`. -/
def listenerPortOwner : Nat := 2 ^ 32 - 1

/-- The part of `Fabric` that steering reads. -/
structure Tables where
  workers : Nat
  rssOwner : Bool
  listenerWorkers : List (Nat × List Nat)
  portOwners : Nat → Nat

/-- `listener_workers.find(port)`. -/
def Tables.placement (t : Tables) (port : Nat) : Option (List Nat) := t.listenerWorkers.lookup port

/-- `Read16`, in network order. -/
def read16 (frame : List UInt8) (i : Nat) : Option Nat :=
  frame[i]?.bind fun high => frame[i + 1]?.map fun low => high.toNat <<< 8 ||| low.toNat

/-- What the headers say. -/
inductive Verdict where
  | drop                           -- -1
  | broadcast                      -- -2
  | tcp (ihl : Nat)                -- a whole TCP header behind `ihl` bytes of IP header
deriving DecidableEq, Repr

/-- The length of the IP header that its first byte says. -/
def headerLength (first : UInt8) : Nat := (first &&& 15).toNat * 4

/-- `Classify`: what kind of frame it is, from the Ethernet and the IP header; `none` is a read
    behind its end. -/
def classify (frame : List UInt8) : Option Verdict :=
  if frame.length < 14 then some .drop
  else (read16 frame 12).bind fun type =>
    if type = 0x0806 then some .broadcast
    else if type ≠ 0x0800 ∨ frame.length < 34 then some .drop
    else frame[14]?.bind fun first : UInt8 =>
      if first >>> 4 ≠ 4 ∨ headerLength first < 20 ∨ frame.length < 14 + headerLength first then
        some .drop
      else (read16 frame 20).bind fun fragment =>
        if fragment &&& 0x3fff ≠ 0 then some .drop
        else frame[23]?.bind fun protocol : UInt8 =>
          if protocol = 1 then some .broadcast
          else if protocol ≠ 6 ∨ frame.length < 14 + headerLength first + 20 then some .drop
          else some (.tcp (headerLength first))

/-- `n` rounds of the hash over the bytes from `i` on. -/
def mix (frame : List UInt8) : Nat → Nat → UInt32 → Option UInt32
  | 0, _, hash => some hash
  | n + 1, i, hash => frame[i]?.bind fun byte =>
      mix frame n (i + 1) ((hash ^^^ byte.toUInt32) * 16777619)

/-- `FlowHash`: FNV-1a over the addresses and the ports. -/
def flowHash (frame : List UInt8) (ihl : Nat) : Option UInt32 :=
  (mix frame 8 26 2166136261).bind fun hash : UInt32 =>
    (mix frame 4 (14 + ihl) hash).map fun hash : UInt32 => hash ^^^ (hash >>> 16)

/-- The worker for a TCP segment. -/
def place (t : Tables) (frame : List UInt8) (ihl rxOwner : Nat) : Option Int :=
  (read16 frame (16 + ihl)).bind fun destinationPort =>
    match t.placement destinationPort with
    | none =>
      if t.portOwners destinationPort ≠ 0 ∧ t.portOwners destinationPort ≠ listenerPortOwner then
        some ((t.portOwners destinationPort - 1 : Nat) : Int)
      else if t.rssOwner then some (rxOwner : Int)
      else (flowHash frame ihl).map fun hash => ((hash.toNat % t.workers : Nat) : Int)
    | some ids =>
      if t.rssOwner ∧ ids.length = t.workers then some (rxOwner : Int)
      else (flowHash frame ihl).bind fun hash =>
        ids[hash.toNat % ids.length]?.map fun id => (id : Int)

/-- `Destination`: the worker for a frame, or a negative number for a drop or a broadcast. -/
def destination (t : Tables) (frame : List UInt8) (rxOwner : Nat) : Option Int :=
  (classify frame).bind fun verdict =>
    match verdict with
    | .drop => some (-1)
    | .broadcast => some (-2)
    | .tcp ihl => place t frame ihl rxOwner

/-! ## Frames -/

variable {t : Tables} {frame : List UInt8} {ihl rxOwner : Nat}

/-- An unfragmented IPv4 TCP frame with complete headers, `ihl` bytes of them IP. -/
structure TcpFrame (frame : List UInt8) (ihl : Nat) : Prop where
  type : read16 frame 12 = some 0x0800
  version : ∃ first : UInt8, frame[14]? = some first ∧ first >>> 4 = 4 ∧ headerLength first = ihl
  header : 20 ≤ ihl
  unfragmented : ∃ fragment, read16 frame 20 = some fragment ∧ fragment &&& 0x3fff = 0
  protocol : frame[23]? = some 6
  complete : 14 + ihl + 20 ≤ frame.length

/-- The `n` bytes from `i` on. -/
def field (frame : List UInt8) (i n : Nat) : List UInt8 := (frame.drop i).take n

def sourceAddress (frame : List UInt8) : List UInt8 := field frame 26 4
def destinationAddress (frame : List UInt8) : List UInt8 := field frame 30 4
def sourcePort (frame : List UInt8) (ihl : Nat) : List UInt8 := field frame (14 + ihl) 2
def destinationPort (frame : List UInt8) (ihl : Nat) : List UInt8 := field frame (16 + ihl) 2

/-- Two frames of one flow; their IP headers may differ in length. -/
structure SameFlow (frame : List UInt8) (ihl : Nat) (frame' : List UInt8) (ihl' : Nat) : Prop where
  sourceAddress : sourceAddress frame = sourceAddress frame'
  destinationAddress : destinationAddress frame = destinationAddress frame'
  sourcePort : sourcePort frame ihl = sourcePort frame' ihl'
  destinationPort : destinationPort frame ihl = destinationPort frame' ihl'

/-! ## Reads -/

variable {frame' : List UInt8} {i i' : Nat}

theorem getElem?_of_field {n k : Nat}
    (h : field frame i n = field frame' i' n) (hk : k < n) : frame[i + k]? = frame'[i' + k]? := by
  have hget : ∀ (f : List UInt8) (j : Nat), (field f j n)[k]? = f[j + k]? := by
    intro f j
    rw [field, List.getElem?_take_of_lt hk, List.getElem?_drop]
  rw [← hget frame i, ← hget frame' i', h]

theorem read16_isSome (frame : List UInt8) (i : Nat) (h : i + 1 < frame.length) :
    ∃ x, read16 frame i = some x := by
  have hfirst : i < frame.length := Nat.lt_of_succ_lt h
  refine ⟨frame[i].toNat <<< 8 ||| frame[i + 1].toNat, ?_⟩
  rw [read16, List.getElem?_eq_getElem hfirst, List.getElem?_eq_getElem h]
  rfl

theorem read16_of_field
    (h : field frame i 2 = field frame' i' 2) : read16 frame i = read16 frame' i' := by
  have hfirst := getElem?_of_field h (k := 0) (by omega)
  have hsecond := getElem?_of_field h (k := 1) (by omega)
  rw [Nat.add_zero, Nat.add_zero] at hfirst
  rw [read16, read16, hfirst, hsecond]

/-- The hash reads `n` bytes. -/
theorem mix_isSome (frame : List UInt8) (n i : Nat) (h : i + n ≤ frame.length) (hash : UInt32) :
    ∃ x, mix frame n i hash = some x := by
  induction n generalizing i hash with
  | zero => exact ⟨hash, rfl⟩
  | succ n ih =>
    have hi : i < frame.length := by omega
    rw [mix, List.getElem?_eq_getElem hi]
    exact ih (i + 1) (by omega) _

/-- And it is a function of these bytes. -/
theorem mix_congr {n : Nat} (h : ∀ k < n, frame[i + k]? = frame'[i' + k]?) (hash : UInt32) :
    mix frame n i hash = mix frame' n i' hash := by
  induction n generalizing i i' hash with
  | zero => rfl
  | succ n ih =>
    have hfirst : frame[i]? = frame'[i']? := h 0 (Nat.succ_pos n)
    rw [mix, mix, hfirst]
    refine Option.bind_congr fun byte _ => ih (fun k hk => ?_) _
    have hnext := h (k + 1) (Nat.succ_lt_succ hk)
    rw [show i + 1 + k = i + (k + 1) by omega, show i' + 1 + k = i' + (k + 1) by omega]
    exact hnext

theorem flowHash_isSome (hheader : 20 ≤ ihl) (h : 14 + ihl + 20 ≤ frame.length) :
    ∃ x, flowHash frame ihl = some x := by
  obtain ⟨x, hx⟩ := mix_isSome frame 8 26 (by omega) 2166136261
  obtain ⟨y, hy⟩ := mix_isSome frame 4 (14 + ihl) (by omega) x
  exact ⟨y ^^^ (y >>> 16), by rw [flowHash, hx, bind_some, hy]; rfl⟩

theorem flowHash_congr {ihl' : Nat} (h : SameFlow frame ihl frame' ihl') :
    flowHash frame ihl = flowHash frame' ihl' := by
  have haddresses : ∀ k < 8, frame[26 + k]? = frame'[26 + k]? := by
    intro k hk
    by_cases hsource : k < 4
    · exact getElem?_of_field h.sourceAddress hsource
    have hget := getElem?_of_field h.destinationAddress (k := k - 4) (by omega)
    rwa [show 30 + (k - 4) = 26 + k by omega] at hget
  have hports : ∀ k < 4, frame[14 + ihl + k]? = frame'[14 + ihl' + k]? := by
    intro k hk
    by_cases hsource : k < 2
    · exact getElem?_of_field h.sourcePort hsource
    have hget := getElem?_of_field h.destinationPort (k := k - 2) (by omega)
    rwa [show 16 + ihl + (k - 2) = 14 + ihl + k by omega,
      show 16 + ihl' + (k - 2) = 14 + ihl' + k by omega] at hget
  rw [flowHash, flowHash, mix_congr haddresses]
  refine Option.bind_congr fun hash _ => ?_
  rw [mix_congr hports]

/-- The headers of a complete frame are read for what they are. -/
theorem TcpFrame.classify_eq (h : TcpFrame frame ihl) : classify frame = some (.tcp ihl) := by
  obtain ⟨first, hfirst, hversion, hlength⟩ := h.version
  obtain ⟨fragment, hfragment, hwhole⟩ := h.unfragmented
  have hheader := h.header
  have hcomplete := h.complete
  have hip : ¬(0x0800 ≠ 0x0800 ∨ frame.length < 34) := by omega
  have hlong : ¬(first >>> 4 ≠ 4 ∨ ihl < 20 ∨ frame.length < 14 + ihl) := by
    rintro (h | h)
    · exact h hversion
    · omega
  have hwhole' : ¬((6 : UInt8) ≠ 6 ∨ frame.length < 14 + ihl + 20) := by
    rintro (h | h)
    · exact h rfl
    · omega
  rw [classify, if_neg (by omega), h.type, bind_some, if_neg (by decide), if_neg hip, hfirst,
    bind_some, hlength, if_neg hlong, hfragment, bind_some,
    if_neg (not_not.mpr hwhole), h.protocol, bind_some, if_neg (by decide), if_neg hwhole']

/-- No read of the headers is out of bounds, and a TCP header is whole. -/
theorem classify_cases (frame : List UInt8) : classify frame = some .drop ∨
    classify frame = some .broadcast ∨
    ∃ ihl, classify frame = some (.tcp ihl) ∧ 20 ≤ ihl ∧ 14 + ihl + 20 ≤ frame.length := by
  rw [classify]
  by_cases hshort : frame.length < 14
  · exact .inl (if_pos hshort)
  obtain ⟨type, htype⟩ := read16_isSome frame 12 (by omega)
  rw [if_neg hshort, htype, bind_some]
  by_cases harp : type = 0x0806
  · exact .inr (.inl (if_pos harp))
  rw [if_neg harp]
  by_cases hip : type ≠ 0x0800 ∨ frame.length < 34
  · exact .inl (if_pos hip)
  rw [if_neg hip]
  rw [List.getElem?_eq_getElem (show 14 < frame.length by omega), bind_some]
  by_cases hheader : frame[14] >>> 4 ≠ 4 ∨ headerLength frame[14] < 20 ∨
      frame.length < 14 + headerLength frame[14]
  · exact .inl (if_pos hheader)
  obtain ⟨fragment, hfragment⟩ := read16_isSome frame 20 (by omega)
  rw [if_neg hheader, hfragment, bind_some]
  by_cases hfragmented : fragment &&& 0x3fff ≠ 0
  · exact .inl (if_pos hfragmented)
  rw [if_neg hfragmented, List.getElem?_eq_getElem (show 23 < frame.length by omega), bind_some]
  by_cases hicmp : frame[23] = 1
  · exact .inr (.inl (if_pos hicmp))
  rw [if_neg hicmp]
  by_cases hcut : frame[23] ≠ 6 ∨ frame.length < 14 + headerLength frame[14] + 20
  · exact .inl (if_pos hcut)
  · exact .inr (.inr ⟨_, if_neg hcut, by omega, by omega⟩)

/-! ## Placement -/

/-- Tables as `ConfigureListenerWorkers` and `PrepareRuntime` leave them. -/
structure Built (t : Tables) : Prop where
  workers : 0 < t.workers
  nonempty : ∀ port ids, t.placement port = some ids → ids ≠ []
  valid : ∀ port ids, t.placement port = some ids → ∀ id ∈ ids, id < t.workers

/-- The encoding of `port_owners`: unused, a worker plus one, or a listening port. -/
def Encoded (t : Tables) : Prop :=
  ∀ port, t.portOwners port = listenerPortOwner ∨ t.portOwners port ≤ t.workers

/-- No port is configured for a worker twice. -/
def Distinct (t : Tables) : Prop := ∀ port ids, t.placement port = some ids → ids.Nodup

variable {ids : List Nat}

/-- A list of all workers without repetition leaves nobody out. -/
theorem mem_of_all_workers {workers w : Nat} (hnodup : ids.Nodup)
    (hvalid : ∀ id ∈ ids, id < workers) (hall : ids.length = workers) (hw : w < workers) :
    w ∈ ids := by
  have hsub : ids.toFinset ⊆ Finset.range workers := by
    intro id hid
    exact Finset.mem_range.mpr (hvalid id (List.mem_toFinset.mp hid))
  have hcard : (Finset.range workers).card ≤ ids.toFinset.card := by
    rw [List.toFinset_card_of_nodup hnodup, hall, Finset.card_range]
  have heq := Finset.eq_of_subset_of_card_le hsub hcard
  exact List.mem_toFinset.mp (heq ▸ Finset.mem_range.mpr hw)

theorem TcpFrame.destination_eq (h : TcpFrame frame ihl) :
    destination t frame rxOwner = place t frame ihl rxOwner := by
  rw [destination, h.classify_eq]
  rfl

variable {port : Nat}

theorem place_none (hport : read16 frame (16 + ihl) = some port)
    (hnone : t.placement port = none) : place t frame ihl rxOwner =
      if t.portOwners port ≠ 0 ∧ t.portOwners port ≠ listenerPortOwner then
        some ((t.portOwners port - 1 : Nat) : Int)
      else if t.rssOwner then some (rxOwner : Int)
      else (flowHash frame ihl).map fun hash => ((hash.toNat % t.workers : Nat) : Int) := by
  rw [place, hport, bind_some, hnone]

theorem place_some (hport : read16 frame (16 + ihl) = some port)
    (hsome : t.placement port = some ids) : place t frame ihl rxOwner =
      if t.rssOwner ∧ ids.length = t.workers then some (rxOwner : Int)
      else (flowHash frame ihl).bind fun hash =>
        ids[hash.toNat % ids.length]?.map fun id => (id : Int) := by
  rw [place, hport, bind_some, hsome]

/-- A port with an owner and no placement. -/
theorem place_of_owner {w : Nat} (hport : read16 frame (16 + ihl) = some port)
    (hnone : t.placement port = none) (howner : t.portOwners port = w + 1)
    (hclient : w + 1 ≠ listenerPortOwner) : place t frame ihl rxOwner = some (w : Int) := by
  rw [place_none hport hnone, howner, if_pos ⟨Nat.succ_ne_zero w, hclient⟩]
  rfl

/-- A port with a placement. -/
theorem place_of_placement (rxOwner : Nat) (hbuilt : Built t)
    (hheader : 20 ≤ ihl) (hcomplete : 14 + ihl + 20 ≤ frame.length)
    (hport : read16 frame (16 + ihl) = some port) (hsome : t.placement port = some ids) :
    (t.rssOwner = true ∧ ids.length = t.workers ∧
      place t frame ihl rxOwner = some (rxOwner : Int)) ∨
    ∃ id ∈ ids, place t frame ihl rxOwner = some (id : Int) := by
  obtain ⟨hash, hhash⟩ := flowHash_isSome hheader hcomplete
  rw [place_some hport hsome]
  by_cases hrss : t.rssOwner = true ∧ ids.length = t.workers
  · rw [if_pos hrss]
    exact .inl ⟨hrss.1, hrss.2, rfl⟩
  rw [if_neg hrss, hhash, bind_some]
  have hpos : 0 < ids.length := List.length_pos_iff.mpr (hbuilt.nonempty port ids hsome)
  have hlt : hash.toNat % ids.length < ids.length := Nat.mod_lt _ hpos
  rw [List.getElem?_eq_getElem hlt]
  exact .inr ⟨_, List.getElem_mem hlt, rfl⟩

/-- Every segment goes to a worker. -/
theorem place_range (hbuilt : Built t) (hencoded : Encoded t) (hrx : rxOwner < t.workers)
    (hheader : 20 ≤ ihl) (hcomplete : 14 + ihl + 20 ≤ frame.length) :
    ∃ w < t.workers, place t frame ihl rxOwner = some (w : Int) := by
  obtain ⟨port, hport⟩ := read16_isSome frame (16 + ihl) (by omega)
  cases hplacement : t.placement port with
  | some ids =>
    rcases place_of_placement rxOwner hbuilt hheader hcomplete hport hplacement with
      ⟨_, _, heq⟩ | ⟨id, hid, heq⟩
    · exact ⟨rxOwner, hrx, heq⟩
    · exact ⟨id, hbuilt.valid port ids hplacement id hid, heq⟩
  | none =>
    obtain ⟨hash, hhash⟩ := flowHash_isSome hheader hcomplete
    rw [place_none hport hplacement]
    split
    · next howned =>
      refine ⟨t.portOwners port - 1, ?_, rfl⟩
      rcases hencoded port with hlistener | hclient
      · exact absurd hlistener howned.2
      have := howned.1
      omega
    split
    · exact ⟨rxOwner, hrx, rfl⟩
    rw [hhash]
    exact ⟨_, Nat.mod_lt _ hbuilt.workers, rfl⟩

/-- In hash mode the receiving queue does not matter, and of the frame only its flow. -/
theorem place_congr {ihl' rxOwner' : Nat} (hhash : t.rssOwner = false)
    (h : SameFlow frame ihl frame' ihl') :
    place t frame ihl rxOwner = place t frame' ihl' rxOwner' := by
  rw [place, place, read16_of_field h.destinationPort, flowHash_congr h, hhash]
  refine Option.bind_congr fun port _ => ?_
  rcases t.placement port with _ | ids
  · rfl
  have hnot : ¬(false = true ∧ ids.length = t.workers) := fun h => Bool.false_ne_true h.1
  simp only [if_neg hnot]

/-! ## Steering -/

/-- Steering with these tables. -/
structure Steers (t : Tables) : Prop where
  /-- All reads are in bounds, and the value is -1, -2 or a worker. -/
  range : Encoded t → ∀ frame rxOwner, rxOwner < t.workers →
    ∃ d, destination t frame rxOwner = some d ∧ (d = -1 ∨ d = -2 ∨ ∃ w < t.workers, d = (w : Int))
  /-- In hash mode, the frames of a flow go to one place. -/
  flow : t.rssOwner = false → ∀ frame ihl frame' ihl' rxOwner rxOwner', TcpFrame frame ihl →
    TcpFrame frame' ihl' → SameFlow frame ihl frame' ihl' →
      destination t frame rxOwner = destination t frame' rxOwner'
  /-- A configured listener port goes to a worker configured for it. -/
  listener : ∀ frame ihl port ids rxOwner, rxOwner < t.workers → TcpFrame frame ihl →
    read16 frame (16 + ihl) = some port → t.placement port = some ids →
      ∃ id ∈ ids, destination t frame rxOwner = some (id : Int)
  /-- A client's port that is not configured goes to that client. -/
  client : ∀ frame ihl port w rxOwner, TcpFrame frame ihl → read16 frame (16 + ihl) = some port →
    t.placement port = none → t.portOwners port = w + 1 → w + 1 ≠ listenerPortOwner →
      destination t frame rxOwner = some (w : Int)

theorem Built.steers (hbuilt : Built t) (hdistinct : Distinct t) : Steers t where
  range hencoded frame rxOwner hrx := by
    rw [destination]
    rcases classify_cases frame with h | h | ⟨ihl, h, hheader, hcomplete⟩
    · exact ⟨-1, by rw [h]; rfl, .inl rfl⟩
    · exact ⟨-2, by rw [h]; rfl, .inr (.inl rfl)⟩
    · obtain ⟨w, hw, heq⟩ := place_range hbuilt hencoded hrx hheader hcomplete
      exact ⟨w, by rw [h]; exact heq, .inr (.inr ⟨w, hw, rfl⟩)⟩
  flow hhash frame ihl frame' ihl' rxOwner rxOwner' hframe hframe' hsame := by
    rw [hframe.destination_eq, hframe'.destination_eq]
    exact place_congr hhash hsame
  listener frame ihl port ids rxOwner hrx hframe hport hsome := by
    rw [hframe.destination_eq]
    rcases place_of_placement rxOwner hbuilt hframe.header hframe.complete hport hsome
      with ⟨_, hall, heq⟩ | hmem
    · have hvalid := hbuilt.valid port ids hsome
      exact ⟨rxOwner, mem_of_all_workers (hdistinct port ids hsome) hvalid hall hrx, heq⟩
    · exact hmem
  client frame ihl port w rxOwner hframe hport hnone howner hclient := by
    rw [hframe.destination_eq]
    exact place_of_owner hport hnone howner hclient

end Bycorf.Dpdk
