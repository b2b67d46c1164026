/-
  Who answers for the address that all workers share.

  1. **Spec** — ARP replies and ICMP echo replies, the latter behind an IP header of ANY legal
     length: the type of an ICMP message is the byte after the header (`EchoReply`).
  2. **Program** — `Net.isReply`, the filter of `Transmit`, looks for it at byte 34, which is behind
     a header of 20 bytes.
  3. **Result** — `drops_iff`: a worker other than 0 drops every ARP reply and no other ARP frame;
     for IPv4 it does what it should exactly on the frames of `Recognised`.
-/
import Bycorf.Dpdk.Packets

namespace Bycorf.Dpdk.Packets

variable {n ihl : Nat} {c : Config} {t : Tables} {s : Net n} {w : Fin n} {rest : List (Task n)}
  {p : Mbuf} {frame : List UInt8}

/-! ## Frames -/

/-- A frame that `Classify` takes for ARP. -/
structure ArpFrame (frame : List UInt8) : Prop where
  type : read16 frame 12 = some 0x0806
  complete : 42 ≤ frame.length

/-- An unfragmented IPv4 frame with `ihl` bytes of header. -/
structure Ipv4Frame (frame : List UInt8) (ihl : Nat) : Prop where
  type : read16 frame 12 = some 0x0800
  version : ∃ first : UInt8, frame[14]? = some first ∧ first >>> 4 = 4 ∧ headerLength first = ihl
  header : 20 ≤ ihl
  unfragmented : ∃ fragment, read16 frame 20 = some fragment ∧ fragment &&& 0x3fff = 0
  complete : 14 + ihl ≤ frame.length

/-- The ARP operation is a reply. -/
def ArpReply (frame : List UInt8) : Prop := read16 frame 20 = some 2

/-- An ICMP echo reply behind an IP header of `ihl` bytes. -/
def EchoReply (frame : List UInt8) (ihl : Nat) : Prop :=
  frame[23]? = some 1 ∧ frame[14 + ihl]? = some 0

/-- The buffer of the frame is freed and not put into a ring. -/
def Drops (m : Option (Move n)) : Prop := ∃ move, m = some move ∧ move.freed ≠ []

/-- The IPv4 frames that the filter takes for what they are. -/
structure Recognised (c : Config) (t : Tables) (owner : Nat) (frame : List UInt8) (ihl : Nat) :
    Prop where
  icmp : frame[23]? = some 1 →
    (frame[34]? = some 0 ∨ Net.isLocal c frame = true ↔ frame[14 + ihl]? = some 0)
  other : frame[23]? ≠ some 1 → Net.isLocal c frame = true →
    ∀ target, destination t frame owner = some target → 0 ≤ target

/-! ## The filter -/

theorem ArpFrame.isReply_iff (h : ArpFrame frame) : Net.isReply frame = true ↔ ArpReply frame := by
  have hlength := h.complete
  simp [Net.isReply, h.type, ArpReply, hlength]

theorem Ipv4Frame.isReply_iff (h : Ipv4Frame frame ihl) :
    Net.isReply frame = true ↔ frame[23]? = some 1 ∧ frame[34]? = some 0 := by
  have hlong : frame[34]? = some 0 → 35 ≤ frame.length := fun h0 =>
    (List.getElem?_eq_some_iff.mp h0).1
  simp only [Net.isReply, h.type, Bool.or_eq_true, Bool.and_eq_true, decide_eq_true_eq]
  constructor
  · rintro (⟨⟨-, htype⟩, -⟩ | ⟨⟨-, hicmp⟩, hbyte⟩)
    · cases htype
    · exact ⟨hicmp, hbyte⟩
  · rintro ⟨hicmp, hbyte⟩
    exact .inr ⟨⟨⟨hlong hbyte, trivial⟩, hicmp⟩, hbyte⟩

/-- ICMP goes to all workers, so `Destination` has no single one for it. -/
theorem Ipv4Frame.destination_icmp (h : Ipv4Frame frame ihl) (hicmp : frame[23]? = some 1)
    (owner : Nat) : destination t frame owner = some (-2) := by
  obtain ⟨first, hfirst, hversion, hlength⟩ := h.version
  obtain ⟨fragment, hfragment, hwhole⟩ := h.unfragmented
  have hheader := h.header
  have hcomplete := h.complete
  have hip : ¬(0x0800 ≠ 0x0800 ∨ frame.length < 34) := by omega
  have hlong : ¬(first >>> 4 ≠ 4 ∨ ihl < 20 ∨ frame.length < 14 + ihl) := by
    rintro (h | h)
    · exact h hversion
    · omega
  have hclass : classify frame = some .broadcast := by
    rw [classify, if_neg (by omega), h.type, Option.bind_some, if_neg (by decide), if_neg hip,
      hfirst, Option.bind_some, hlength, if_neg hlong, hfragment, Option.bind_some,
      if_neg (not_not.mpr hwhole), hicmp, Option.bind_some, if_pos rfl]
  rw [destination, hclass]
  rfl

/-- `Transmit` drops what the filter finds, and what is for the interface's own address and cannot
    be steered. -/
theorem append_drops : Drops (s.append c w rest p frame true t) ↔
    (w.val ≠ 0 ∧ Net.isReply frame = true) ∨ (Net.isLocal c frame = true ∧
      ∃ target, destination t frame w.val = some target ∧ target < 0) := by
  have hfree : ∀ q, Drops (some (s.free w rest q)) := fun q => ⟨_, rfl, List.cons_ne_nil _ _⟩
  have hkeep : ∀ stack, ¬Drops (some (s.keep w stack)) := by
    rintro stack ⟨move, heq, hfreed⟩
    cases heq
    exact hfreed rfl
  have hnone : ¬Drops (none : Option (Move n)) := by
    rintro ⟨move, heq, -⟩
    cases heq
  simp only [Net.append, Bool.true_eq_false, if_false]
  by_cases hreply : w.val ≠ 0 ∧ Net.isReply frame = true
  · rw [if_pos hreply]
    exact iff_of_true (hfree _) (.inl hreply)
  rw [if_neg hreply]
  by_cases hlocal : Net.isLocal c frame = true
  · rw [if_pos hlocal]
    rcases htarget : destination t frame w.val with _ | target
    · exact iff_of_false hnone (by simp [hreply])
    rw [Option.bind_some]
    split_ifs with hneg hlt
    · exact iff_of_true (hfree _) (.inr ⟨hlocal, target, rfl, hneg⟩)
    · exact iff_of_false (hkeep _) (by simp [hreply, hneg])
    · exact iff_of_false hnone (by simp [hreply, hneg])
  · rw [if_neg hlocal]
    split_ifs
    · exact iff_of_false (hkeep _) (by simp [hreply, hlocal])
    · exact iff_of_false hnone (by simp [hreply, hlocal])

theorem ArpFrame.not_local (h : ArpFrame frame) : Net.isLocal c frame = false := by
  simp [Net.isLocal, h.type]

/-! ## The result -/

/-- **Who drops what.**  On a worker other than 0: ARP frames are dropped if they are replies; of
    the IPv4 frames, those that are `Recognised` are dropped if they are echo replies, and the
    others are treated wrongly.  A reply that is recognised and leaves the machine is sent by
    worker 0 alone. -/
theorem drops_iff (c : Config) (t : Tables) (s : Net n) (w : Fin n) (rest : List (Task n))
    (p : Mbuf) (frame : List UInt8) (ihl : Nat) :
    (ArpFrame frame → w.val ≠ 0 →
      (Drops (s.append c w rest p frame true t) ↔ ArpReply frame)) ∧
    (Ipv4Frame frame ihl → w.val ≠ 0 →
      ((Drops (s.append c w rest p frame true t) ↔ EchoReply frame ihl) ↔
        Recognised c t w.val frame ihl)) ∧
    (ArpFrame frame ∧ ArpReply frame ∨ Ipv4Frame frame ihl ∧ EchoReply frame ihl ∧
      Recognised c t w.val frame ihl ∧ Net.isLocal c frame = false →
        (Drops (s.append c w rest p frame true t) ↔ w.val ≠ 0)) := by
  refine ⟨fun h hw => ?_, fun h hw => ?_, ?_⟩
  · rw [append_drops, h.isReply_iff, h.not_local]
    simp [hw]
  · rw [append_drops, h.isReply_iff, EchoReply]
    by_cases hicmp : frame[23]? = some 1
    · rw [h.destination_icmp hicmp]
      constructor
      · exact fun heq => ⟨fun _ => by simpa [hw, hicmp] using heq, absurd hicmp⟩
      · exact fun hrec => by simpa [hw, hicmp] using hrec.icmp hicmp
    constructor
    · refine fun heq => ⟨fun hyes => absurd hyes hicmp, fun _ hlocal target htarget => ?_⟩
      by_contra hneg
      exact hicmp (heq.mp (.inr ⟨hlocal, target, htarget, by omega⟩)).1
    · intro hrec
      refine iff_of_false ?_ fun hreply => hicmp hreply.1
      rintro (⟨-, hyes, -⟩ | ⟨hlocal, target, htarget, hneg⟩)
      · exact hicmp hyes
      have := hrec.other hicmp hlocal target htarget
      omega
  · rintro (⟨h, hreply⟩ | ⟨h, hreply, hrec, hlocal⟩)
    · rw [append_drops, h.isReply_iff, h.not_local]
      simp [hreply]
    · have hbyte := ((hrec.icmp hreply.1).mpr hreply.2).resolve_right (by simp [hlocal])
      rw [append_drops, h.isReply_iff, hlocal]
      simp [hreply.1, hbyte]

/-- An echo reply to a host elsewhere, behind a header with `options`. -/
def echoFrame (first : UInt8) (options : List UInt8) : List UInt8 :=
  [0, 0, 0, 0, 0, 0, 0, 0, 0, 0, 0, 0, 8, 0, first, 0, 0, 32, 0, 0, 0, 0, 64, 1, 0, 0, 10, 0, 0, 1,
    10, 0, 0, 9] ++ options ++ [0, 0, 0, 0, 0, 0, 0, 0]

theorem echoFrame_ipv4 {first : UInt8} {options : List UInt8} (hversion : first >>> 4 = 4)
    (hlength : headerLength first = 20 + options.length) :
    Ipv4Frame (echoFrame first options) (20 + options.length) where
  type := rfl
  version := ⟨first, rfl, hversion, hlength⟩
  header := Nat.le_add_right _ _
  unfragmented := ⟨0, rfl, rfl⟩
  complete := by
    simp [echoFrame]
    omega

def twoWorkers : Config := ⟨2, 0, [10, 0, 0, 1]⟩

def noTables : Tables := ⟨2, false, [], fun _ => 0⟩

/-- Nothing has been received. -/
def quietNet (n : Nat) : Net n := ⟨fun _ => [], fun _ => ⟨[], [], true⟩, [], [], 0, [], []⟩

/-- Behind a header of 20 bytes the reply is recognised, and worker 1 drops it. -/
theorem drops_iff_plain : Drops ((quietNet 2).append twoWorkers 1 [] ⟨0, 0, false, 0, []⟩
    (echoFrame 0x45 []) true noTables) := by
  have hframe : Ipv4Frame (echoFrame 0x45 []) 20 := echoFrame_ipv4 rfl rfl
  refine (((drops_iff twoWorkers noTables (quietNet 2) 1 [] ⟨0, 0, false, 0, []⟩ (echoFrame 0x45 [])
    20).2.1 hframe (by decide)).mpr ⟨fun _ => ?_, absurd rfl⟩).mpr ⟨rfl, rfl⟩
  exact iff_of_true (.inl rfl) rfl

/-- Behind a header with options it is not: worker 1 sends the reply as well. -/
theorem echo_reply_sent_twice : ∃ frame, Ipv4Frame frame 24 ∧ EchoReply frame 24 ∧
    ∀ w : Fin 2, ¬Drops ((quietNet 2).append twoWorkers w [] ⟨0, 0, false, 0, []⟩ frame true
      noTables) := by
  refine ⟨echoFrame 0x46 [7, 4, 4, 0], echoFrame_ipv4 rfl rfl, ⟨rfl, rfl⟩, fun w => ?_⟩
  rw [append_drops]
  rintro (⟨-, hreply⟩ | ⟨hlocal, -⟩)
  · exact absurd hreply (by decide)
  · exact absurd hlocal (by decide)

end Bycorf.Dpdk.Packets
