/-
  `uiomove`: bytes between a flat buffer and a list of vectors.

  1. **Program** — the loop of `support.c` over memory, the vectors that are left and the counters.
     It stops because a round drops a vector or moves at least one byte.
  2. **Result** (`uiomove_transfers`) — what a call moves is the longest stretch that buffer,
     residual and vectors allow, in order.
-/
import Mathlib.Data.List.Nodup

namespace Bycorf.Dpdk

open List

/-- The bytes at all addresses. -/
abbrev Memory := Nat → UInt8

/-- `memcpy` of ranges that do not overlap. -/
def memcpy (m : Memory) (dst src len : Nat) : Memory :=
  fun a => if dst ≤ a ∧ a < dst + len then m (src + (a - dst)) else m a

/-- `struct iovec`. -/
structure Iovec where
  base : Nat
  len : Nat

/-- `enum uio_seg`. -/
inductive UioSeg where
  | sysSpace
  | userSpace
  | noCopy
deriving DecidableEq

/-- `enum uio_rw`. -/
inductive UioRw where
  | read
  | write
deriving DecidableEq

/-- `struct uio`; `iov` are the `uio_iovcnt` vectors from `uio_iov` on. -/
structure Uio where
  iov : List Iovec
  resid : Nat
  offset : Int
  segflg : UioSeg
  rw : UioRw

/-- The errors of `uiomove`. -/
inductive Errno where
  | efault
  | einval

namespace Uio

/-- The loop of `uiomove` over the vectors: each turn copies what the first vector has room for, and
    a vector without room is dropped. -/
def moveLoop (m : Memory) (bytes n : Nat) (uio : Uio) : Option Errno × Memory × Uio :=
  if _ : n = 0 ∨ uio.resid = 0 then (none, m, uio)
  else match _ : uio.iov with
    | [] => (some .einval, m, uio)
    | v :: rest =>
      if _ : v.len = 0 then moveLoop m bytes n { uio with iov := rest }
      else
        let len := min n (min v.len uio.resid)
        moveLoop (if uio.rw = .read then memcpy m v.base bytes len else memcpy m bytes v.base len)
          (bytes + len) (n - len)
          { uio with
            iov := ⟨v.base + len, v.len - len⟩ :: rest
            resid := uio.resid - len
            offset := uio.offset + len }
termination_by (uio.iov.length, n)
decreasing_by
  · simp_all [Prod.lex_def]
  · simp_all [Prod.lex_def]
    omega

/-- `uiomove` of the host: only kernel space is copied. -/
def uiomove (m : Memory) (buffer n : Nat) (uio : Uio) : Option Errno × Memory × Uio :=
  if uio.segflg ≠ .sysSpace then (some .efault, m, uio) else moveLoop m buffer n uio

/-! ## What a call moves -/

/-- The bytes of the vectors, in order. -/
def addresses (iov : List Iovec) : List Nat := iov.flatMap fun v => range' v.base v.len

/-- The bytes at `src` are at `dst`, in order, and the others are unchanged. -/
structure Copied (m m' : Memory) (dst src : List Nat) : Prop where
  moved : dst.map m' = src.map m
  other : ∀ a ∉ dst, m' a = m a

/-- `uio_rw` says which side is written. -/
def Moves (rw : UioRw) (m m' : Memory) (buffer vectors : List Nat) : Prop :=
  match rw with
  | .read => Copied m m' vectors buffer
  | .write => Copied m m' buffer vectors

/-- How many bytes a call moves. -/
def room (n : Nat) (uio : Uio) : Nat := min (min n uio.resid) (addresses uio.iov).length

/-- What a call leaves. -/
structure Transfers (m : Memory) (buffer n : Nat) (uio : Uio) (r : Option Errno × Memory × Uio) :
    Prop where
  error : r.1 = if uio.room n < min n uio.resid then some .einval else none
  resid : r.2.2.resid = uio.resid - uio.room n
  offset : r.2.2.offset = uio.offset + uio.room n
  vectors : addresses r.2.2.iov = (addresses uio.iov).drop (uio.room n)
  moves : Moves uio.rw m r.2.1 (range' buffer (uio.room n)) ((addresses uio.iov).take (uio.room n))

/-- The vectors overlap neither each other nor the buffer. -/
structure Apart (buffer n : Nat) (vectors : List Nat) : Prop where
  nodup : vectors.Nodup
  buffer : ∀ a ∈ vectors, a ∉ range' buffer n

variable {m m' m'' : Memory} {buffer n : Nat} {uio : Uio}

theorem copied_memcpy (m : Memory) (dst src len : Nat) :
    Copied m (memcpy m dst src len) (range' dst len) (range' src len) := by
  constructor
  · simp only [range'_eq_map_range, map_map]
    refine map_congr_left fun i hi => ?_
    have hlt := mem_range.mp hi
    simp [memcpy, hlt]
  · intro a ha
    simp only [mem_range'_1] at ha
    exact if_neg ha

theorem Copied.append {dst dst' src src' : List Nat} (h : Copied m m' dst src)
    (h' : Copied m' m'' dst' src') (hdst : ∀ a ∈ dst, a ∉ dst') (hsrc : ∀ a ∈ src', a ∉ dst) :
    Copied m m'' (dst ++ dst') (src ++ src') := by
  constructor
  · have hkept : dst.map m'' = dst.map m' := map_congr_left fun a ha => h'.other a (hdst a ha)
    have hread : src'.map m' = src'.map m := map_congr_left fun a ha => h.other a (hsrc a ha)
    rw [map_append, map_append, hkept, h.moved, h'.moved, hread]
  · intro a ha
    rw [mem_append, not_or] at ha
    rw [h'.other a ha.2, h.other a ha.1]

theorem Moves.append {rw : UioRw} {b b' v v' : List Nat} (h : Moves rw m m' b v)
    (h' : Moves rw m' m'' b' v') (hb : ∀ a ∈ b, a ∉ b' ∧ a ∉ v') (hv : ∀ a ∈ v, a ∉ b' ∧ a ∉ v') :
    Moves rw m m'' (b ++ b') (v ++ v') := by
  cases rw with
  | read => exact Copied.append h h' (fun a ha => (hv a ha).2) fun a ha ha' => (hv a ha').1 ha
  | write => exact Copied.append h h' (fun a ha => (hb a ha).1) fun a ha ha' => (hb a ha').2 ha

theorem Moves.refl (rw : UioRw) (m : Memory) : Moves rw m m [] [] := by
  cases rw <;> exact ⟨rfl, fun _ _ => rfl⟩

theorem transfers_none {error : Option Errno} (hroom : uio.room n = 0)
    (herror : error = if 0 < min n uio.resid then some .einval else none) :
    Transfers m buffer n uio (error, m, uio) := by
  refine ⟨by rw [hroom]; exact herror, by simp [hroom], by simp [hroom], by simp [hroom], ?_⟩
  rw [hroom]
  exact .refl uio.rw m

/-- One round, and what the rest of the loop does. -/
theorem Transfers.round {n' k : Nat} {uio' : Uio} {front : List Nat}
    {r : Option Errno × Memory × Uio} (h : Transfers m' (buffer + k) n' uio' r)
    (hfront : addresses uio.iov = front ++ addresses uio'.iov) (hlen : front.length = k)
    (hn : n = k + n') (hresid : uio.resid = k + uio'.resid)
    (hoffset : uio'.offset = uio.offset + k) (hrw : uio'.rw = uio.rw)
    (hmove : Moves uio.rw m m' (range' buffer k) front)
    (hapart : Apart buffer n (addresses uio.iov)) : Transfers m buffer n uio r := by
  obtain ⟨error, resid, offset, vectors, moves⟩ := h
  have hroom : uio.room n = k + uio'.room n' := by
    simp only [room, hfront, hn, hresid, hlen, length_append]
    omega
  have hle : uio'.room n' ≤ n' := by
    unfold room
    omega
  rw [hfront] at hapart
  obtain ⟨hnodup, hbuffer⟩ := hapart
  constructor
  · rw [error, hroom, hn, hresid]
    exact if_congr (by omega) rfl rfl
  · rw [resid, hroom, hresid]
    omega
  · rw [offset, hroom, hoffset]
    omega
  · rw [vectors, hroom, hfront, ← hlen, drop_length_add_append]
  rw [hroom, hfront, ← range'_append_1, ← hlen, take_length_add_append, hlen]
  -- what is still to be moved is disjoint from what this round moved
  refine hmove.append (hrw ▸ moves) (fun a ha => ⟨fun hlate => ?_, fun hlate => ?_⟩)
    fun a ha => ⟨fun hlate => ?_, fun hlate => ?_⟩
  · rw [mem_range'_1] at ha hlate
    omega
  · refine hbuffer a (mem_append_right _ (mem_of_mem_take hlate)) ?_
    rw [mem_range'_1] at ha ⊢
    omega
  · refine hbuffer a (mem_append_left _ ha) ?_
    rw [mem_range'_1] at hlate ⊢
    omega
  · exact (nodup_append.mp hnodup).2.2 a ha a (mem_of_mem_take hlate) rfl

theorem moveLoop_transfers (m : Memory) (h : Apart buffer n (addresses uio.iov)) :
    Transfers m buffer n uio (moveLoop m buffer n uio) := by
  fun_induction moveLoop with
  | case1 m buffer n uio hstop =>
    have hmin : min n uio.resid = 0 := by omega
    exact transfers_none (by simp [room, hmin]) (by simp [hmin])
  | case2 m buffer n uio hgo hiov =>
    exact transfers_none (by simp [room, hiov, addresses]) (if_pos (by omega)).symm
  | case3 m buffer n uio hgo v rest hiov hlen ih =>
    have hsame : addresses uio.iov = [] ++ addresses rest := by simp [hiov, addresses, hlen]
    have hrest := ih (by rwa [hsame] at h)
    exact hrest.round (k := 0) hsame rfl (by simp) (by simp) (by simp) rfl (.refl _ m) h
  | case4 m buffer n uio hgo v rest hiov hlen len ih =>
    have hle : len ≤ n ∧ len ≤ v.len ∧ len ≤ uio.resid := by omega
    have hsplit : addresses uio.iov =
        range' v.base len ++ addresses (⟨v.base + len, v.len - len⟩ :: rest) := by
      rw [hiov]
      simp [addresses, ← append_assoc, range'_append_1, Nat.add_sub_cancel' hle.2.1]
    refine (ih ⟨?_, fun a ha hmem => ?_⟩).round hsplit (by simp) (by omega)
      (by dsimp only; omega) rfl rfl ?_ h
    · exact (nodup_append.mp (hsplit ▸ h.nodup)).2.1
    · refine h.buffer a (hsplit ▸ mem_append_right _ ha) ?_
      simp only [mem_range'_1] at hmem ⊢
      omega
    · unfold Moves
      cases hrw : uio.rw with
      | read | write => exact copied_memcpy ..

/-- **`uiomove` moves exactly what it reports.** -/
theorem uiomove_transfers (m : Memory) (buffer n : Nat) (uio : Uio) (hseg : uio.segflg = .sysSpace)
    (hapart : Apart buffer n (addresses uio.iov)) :
    Transfers m buffer n uio (uiomove m buffer n uio) := by
  rw [uiomove, if_neg (by simp [hseg])]
  exact moveLoop_transfers m hapart

theorem uiomove_transfers_split : Transfers (fun a => .ofNat a) 100 3
    ⟨[⟨0, 0⟩, ⟨10, 2⟩, ⟨20, 5⟩], 8, 0, .sysSpace, .read⟩
    (uiomove (fun a => .ofNat a) 100 3 ⟨[⟨0, 0⟩, ⟨10, 2⟩, ⟨20, 5⟩], 8, 0, .sysSpace, .read⟩) :=
  uiomove_transfers _ _ _ _ rfl ⟨by decide, by decide⟩

end Uio

end Bycorf.Dpdk
