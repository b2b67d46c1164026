/-
  `DpdkSocketTable`: the socket handles of one DPDK worker, and when a number may be used again.

  1. **Program** — the table of slots with its intrusive free list, and the `Pin` objects that keep
     a slot from being recycled.  A `Pin` object is a number below `made`; what it holds is the
     slot it pins, or nothing once its `table_` is null.  Objects are never taken away: a destroyed
     one is an object that was reset for the last time.
  2. **Invariant** — `SocketTable.Valid pinned`: the counter of a slot is the number of its pins,
     and the free list spells exactly the slots that hold neither a socket nor a pin.  It is stated
     for an arbitrary account `pinned`, because a copy assignment holds a pin of its own in between.
  3. **Results** — `reachable_socketTable`: a number comes back only when nobody can mean the old
     socket by it; and the workers' ranges of numbers do not meet.

  `kNoSlot` is `none`: it is no index, since a table has at most `INT_MAX` slots.
-/
import Mathlib.Algebra.Group.Int.Defs
import Bycorf.Lib.History
import Bycorf.Lib.IntrusiveQueue
import Bycorf.Lib.Transition
import Mathlib.Data.Nat.Size

namespace Bycorf.Dpdk

open Lib Function

/-! ## The table -/

/-- `std::numeric_limits<int>::max()`. -/
def intMax : Nat := 2147483647

/-- What `Configure` is given: `first_` and `capacity_`, with its assertion. -/
structure HandleRange where
  first : Nat
  capacity : Nat
  fits : first + capacity ≤ intMax

/-- The handle of a slot. -/
def HandleRange.handle (r : HandleRange) (index : Nat) : Int := r.first + index

/-- `Index`. -/
def HandleRange.index (r : HandleRange) (handle : Int) : Option Nat :=
  if handle < r.first then none else some (handle - r.first).toNat

theorem HandleRange.index_handle (r : HandleRange) (i : Nat) : r.index (r.handle i) = some i := by
  have hle : ¬r.handle i < r.first := by
    rw [handle]
    omega
  rw [index, if_neg hle, handle]
  congr 1
  omega

variable {i : Nat} {handle : Int}

theorem HandleRange.handle_of_index (r : HandleRange)
    (h : r.index handle = some i) : handle = r.handle i := by
  rw [index] at h
  split at h
  · cases h
  cases h
  rw [HandleRange.handle]
  omega

theorem HandleRange.handle_inj (r : HandleRange) {i j : Nat} (h : r.handle i = r.handle j) :
    i = j := by
  rw [handle, handle] at h
  omega

/-- A slot of the table: the BSD socket that is open in it, how many pins it has, and the next slot
    of the free list. -/
structure Slot where
  socket : Option Nat
  pins : Nat
  nextFree : Option Nat
deriving DecidableEq, Repr

def Slot.empty : Slot := ⟨none, 0, none⟩

/-- `SocketTable`: the slots, with the head of the free list that runs through them. -/
structure SocketTable where
  free : Option Nat
  size : Nat                       -- `slots_.size()`
  slots : Nat → Slot

namespace SocketTable

def fresh : SocketTable := ⟨none, 0, fun _ => .empty⟩

/-- One slot changes. -/
def setSlot (t : SocketTable) (index : Nat) (slot : Slot) : SocketTable :=
  { t with slots := Function.update t.slots index slot }

/-- A slot goes to the head of the free list. -/
def recycle (t : SocketTable) (index : Nat) : SocketTable :=
  { t.setSlot index { t.slots index with nextFree := t.free } with free := some index }

/-- `Insert`: the slot that is used, or nothing for `-1`. -/
def insert (r : HandleRange) (t : SocketTable) (socket : Nat) : Option (Nat × SocketTable) :=
  match t.free with
  | none =>
    if t.size = r.capacity then none
    else some (t.size, { t with size := t.size + 1 }.setSlot t.size { Slot.empty with socket })
  | some index =>
    some (index, { t with free := (t.slots index).nextFree }.setSlot index
      { t.slots index with socket })

/-- `Find`. -/
def find (r : HandleRange) (t : SocketTable) (handle : Int) : Option Nat :=
  match r.index handle with
  | none => none
  | some index => if index < t.size then (t.slots index).socket else none

/-- `Close`: the socket to close, and the table. -/
def close (r : HandleRange) (t : SocketTable) (handle : Int) : Option Nat × SocketTable :=
  match r.index handle with
  | none => (none, t)
  | some index =>
    if index < t.size then
      let t' := t.setSlot index { t.slots index with socket := none }
      match (t.slots index).socket with
      | none => (none, t')
      | some socket => (some socket, if (t.slots index).pins = 0 then t'.recycle index else t')
    else (none, t)

/-- `++pins`, for what a new `Pin` holds. -/
def hold (t : SocketTable) : Option Nat → SocketTable
  | none => t
  | some index => t.setSlot index { t.slots index with pins := (t.slots index).pins + 1 }

/-- `Pin::Reset`, for what the `Pin` held. -/
def drop (t : SocketTable) : Option Nat → SocketTable
  | none => t
  | some index =>
    let t' := t.setSlot index { t.slots index with pins := (t.slots index).pins - 1 }
    if (t'.slots index).pins = 0 ∧ (t'.slots index).socket = none then t'.recycle index else t'

end SocketTable

/-! ## The table and its pins -/

/-- What a caller sees of a handle. -/
inductive SocketEvent where
  | inserted (handle : Int) (socket : Nat)
  | closed (handle : Int) (socket : Nat)
deriving DecidableEq, Repr

/-- The table with the `Pin` objects that were made of it, and what callers saw. -/
structure Sockets where
  table : SocketTable
  made : Nat                       -- the `Pin` objects made so far
  pin : Nat → Option Nat           -- the slot each of them pins
  log : List SocketEvent           -- bookkeeping of the model, the latest event first

namespace Sockets

def fresh : Sockets := ⟨.fresh, 0, fun _ => none, []⟩

/-- A new object that holds `x`. -/
def push (s : Sockets) (x : Option Nat) : Sockets :=
  { s with made := s.made + 1, pin := Function.update s.pin s.made x }

/-- Object `v` comes to hold `x`. -/
def put (s : Sockets) (v : Nat) (x : Option Nat) : Sockets :=
  { s with pin := Function.update s.pin v x }

/-- A copy of a pin is made. -/
def hold (s : Sockets) (x : Option Nat) : Sockets := { s with table := s.table.hold x }

/-- `Insert`: the handle, or nothing for `-1`. -/
def insert (r : HandleRange) (s : Sockets) (socket : Nat) : Option Int × Sockets :=
  match s.table.insert r socket with
  | none => (none, s)
  | some (index, t) =>
    (some (r.handle index),
      { s with table := t, log := .inserted (r.handle index) socket :: s.log })

/-- `Acquire`: a new object. -/
def acquire (r : HandleRange) (s : Sockets) (handle : Int) : Sockets :=
  let x := if (s.table.find r handle).isSome then r.index handle else none
  (s.hold x).push x

/-- `Pin::get`. -/
def get (s : Sockets) (v : Nat) : Option Nat :=
  (s.pin v).bind fun index => (s.table.slots index).socket

/-- `Pin(const Pin&)`. -/
def copy (s : Sockets) (source : Nat) : Sockets := (s.hold (s.pin source)).push (s.pin source)

/-- `Pin(Pin&&)`. -/
def move (s : Sockets) (source : Nat) : Sockets := (s.put source none).push (s.pin source)

/-- `Pin::Reset`, also the destructor. -/
def reset (s : Sockets) (v : Nat) : Sockets :=
  { s.put v none with table := s.table.drop (s.pin v) }

/-- `operator=(Pin&&)`. -/
def moveAssign (s : Sockets) (target source : Nat) : Sockets :=
  if target = source then s
  else ((s.reset target).put target (s.pin source)).put source none

/-- `operator=(const Pin&)`: a temporary copies the source and is then moved from. -/
def copyAssign (s : Sockets) (target source : Nat) : Sockets :=
  if target = source then s
  else ((s.hold (s.pin source)).reset target).put target (s.pin source)

/-- `Close`, with its record. -/
def close (r : HandleRange) (s : Sockets) (handle : Int) : Sockets :=
  match s.table.close r handle with
  | (none, t) => { s with table := t }
  | (some socket, t) => { s with table := t, log := .closed handle socket :: s.log }

/-- `CloseAll`. -/
def closeAll (r : HandleRange) (s : Sockets) : Sockets :=
  (List.range s.table.size).foldl (fun s index => s.close r (r.handle index)) s

end Sockets

/-- What callers do with a table and with the pins they hold. -/
inductive SocketOp where
  | insert (socket : Nat)
  | acquire (handle : Int)
  | empty                          -- `Pin{}`
  | copy (source : Nat)
  | move (source : Nat)
  | copyAssign (target source : Nat)
  | moveAssign (target source : Nat)
  | reset (v : Nat)
  | close (handle : Int)
  | closeAll
deriving DecidableEq, Repr

/-- One call; the objects it names exist. -/
def Sockets.step (r : HandleRange) (s : Sockets) : SocketOp → Option Sockets
  | .insert socket => some (s.insert r socket).2
  | .acquire handle => some (s.acquire r handle)
  | .empty => some (s.push none)
  | .copy source => if source < s.made then some (s.copy source) else none
  | .move source => if source < s.made then some (s.move source) else none
  | .copyAssign target source =>
    if target < s.made ∧ source < s.made then some (s.copyAssign target source) else none
  | .moveAssign target source =>
    if target < s.made ∧ source < s.made then some (s.moveAssign target source) else none
  | .reset v => if v < s.made then some (s.reset v) else none
  | .close handle => some (s.close r handle)
  | .closeAll => some (s.closeAll r)

/-- All sequences of these, from an empty table. -/
def socketSystem (r : HandleRange) : System Sockets SocketOp where
  init s := s = .fresh
  step := Sockets.step r

/-! ## The table is valid -/

/-- The head and the links spell the list of the free slots. -/
structure IsFree (t : SocketTable) (l : List Nat) : Prop where
  head : t.free = l.head?
  nodup : l.Nodup
  linked : Linked (fun index => (t.slots index).nextFree) l

/-- The counters agree with an account of the pins, and the free list holds what is free. -/
structure SocketTable.Valid (r : HandleRange) (t : SocketTable) (pinned : Nat → Nat) : Prop where
  free : ∃ l, IsFree t l ∧
    ∀ i, i ∈ l ↔ i < t.size ∧ (t.slots i).socket = none ∧ (t.slots i).pins = 0
  pins : ∀ i, (t.slots i).pins = pinned i
  blank : ∀ i, t.size ≤ i → t.slots i = .empty
  size_le : t.size ≤ r.capacity

namespace SocketTable

variable {r : HandleRange} {t : SocketTable} {pinned : Nat → Nat} {i j : Nat} {slot : Slot}

@[simp] theorem setSlot_free : (t.setSlot i slot).free = t.free := rfl
@[simp] theorem setSlot_size : (t.setSlot i slot).size = t.size := rfl
@[simp] theorem setSlot_self : (t.setSlot i slot).slots i = slot := update_self ..
theorem setSlot_of_ne (h : j ≠ i) : (t.setSlot i slot).slots j = t.slots j := update_of_ne h ..

@[simp] theorem recycle_size : (t.recycle i).size = t.size := rfl
theorem recycle_of_ne (h : j ≠ i) : (t.recycle i).slots j = t.slots j := update_of_ne h ..
@[simp] theorem recycle_self :
    (t.recycle i).slots i = { t.slots i with nextFree := t.free } := update_self ..

@[simp] theorem recycle_socket : ((t.recycle i).slots j).socket = (t.slots j).socket := by
  by_cases hj : j = i
  · subst hj
    simp
  · rw [recycle_of_ne hj]

theorem valid_fresh (r : HandleRange) : SocketTable.fresh.Valid r fun _ => 0 where
  free := ⟨[], ⟨rfl, nodup_nil, trivial⟩, fun i => by simp [fresh]⟩
  pins _ := rfl
  blank _ _ := rfl
  size_le := Nat.zero_le _

/-- Slot `i` is taken out of the account: nothing is said about it but that the free list does not
    hold it. -/
structure Away (r : HandleRange) (t : SocketTable) (pinned : Nat → Nat) (i : Nat) : Prop where
  free : ∃ l, IsFree t l ∧ i ∉ l ∧
    ∀ j, j ≠ i → (j ∈ l ↔ j < t.size ∧ (t.slots j).socket = none ∧ (t.slots j).pins = 0)
  pins : ∀ j, j ≠ i → (t.slots j).pins = pinned j
  blank : ∀ j, t.size ≤ j → t.slots j = .empty
  size_le : t.size ≤ r.capacity
  lt_size : i < t.size

/-- A slot that is in use is not in the free list. -/
theorem Valid.away (h : t.Valid r pinned) (huse : (t.slots i).socket ≠ none ∨ 0 < pinned i) :
    Away r t pinned i := by
  obtain ⟨l, hl, hmem⟩ := h.free
  have hbusy : ¬((t.slots i).socket = none ∧ (t.slots i).pins = 0) := by
    rintro ⟨hsocket, hpins⟩
    rw [h.pins i] at hpins
    rcases huse with hne | hpos
    · exact hne hsocket
    · omega
  refine ⟨⟨l, hl, fun hil => hbusy ((hmem i).mp hil).2, fun j _ => hmem j⟩, fun j _ => h.pins j,
    h.blank, h.size_le, ?_⟩
  by_contra hle
  exact hbusy (by rw [h.blank i (by omega)]; exact ⟨rfl, rfl⟩)

/-- **A slot comes into use**, or stays in it. -/
theorem Away.setSlot (h : Away r t pinned i) (slot : Slot)
    (huse : slot.socket ≠ none ∨ slot.pins ≠ 0) :
    (t.setSlot i slot).Valid r (update pinned i slot.pins) := by
  obtain ⟨l, hl, hnot, hmem⟩ := h.free
  refine ⟨⟨l, ⟨hl.head, hl.nodup, hl.linked.frame fun j hj => ?_⟩, fun j => ?_⟩, fun j => ?_,
    fun j hj => ?_, h.size_le⟩
  · have hji : j ≠ i := fun heq => hnot (heq ▸ hj)
    rw [setSlot_of_ne hji]
  · by_cases hj : j = i
    · subst hj
      rw [setSlot_self]
      refine ⟨fun hjl => absurd hjl hnot, fun ⟨_, hsocket, hpins⟩ => ?_⟩
      exact absurd huse (by simp [hsocket, hpins])
    · rw [setSlot_of_ne hj, setSlot_size]
      exact hmem j hj
  · by_cases hj : j = i
    · subst hj
      rw [setSlot_self, update_self]
    · rw [setSlot_of_ne hj, update_of_ne hj]
      exact h.pins j hj
  · have hlt := h.lt_size
    rw [setSlot_size] at hj
    rw [setSlot_of_ne (by omega)]
    exact h.blank j hj

/-- **The last use of a slot ends**: it goes to the front of the free list. -/
theorem Away.recycle (h : Away r t pinned i) (slot : Slot) (hsocket : slot.socket = none)
    (hpins : slot.pins = 0) :
    ((t.setSlot i slot).recycle i).Valid r (update pinned i 0) := by
  obtain ⟨l, hl, hnot, hmem⟩ := h.free
  have hframe : ∀ j, j ≠ i → ((t.setSlot i slot).recycle i).slots j = t.slots j := by
    intro j hj
    rw [recycle_of_ne hj, setSlot_of_ne hj]
  refine ⟨⟨i :: l, ⟨rfl, nodup_cons.mpr ⟨hnot, hl.nodup⟩, ?_,
    hl.linked.frame fun j hj => ?_⟩, fun j => ?_⟩, fun j => ?_, fun j hj => ?_, h.size_le⟩
  · simpa using hl.head
  · rw [hframe j fun heq => hnot (heq ▸ hj)]
  · by_cases hj : j = i
    · subst hj
      simp [h.lt_size, hsocket, hpins]
    · rw [hframe j hj, recycle_size, setSlot_size, mem_cons, ← hmem j hj]
      simp [hj]
  · by_cases hj : j = i
    · subst hj
      simp [hpins]
    · rw [hframe j hj, update_of_ne hj]
      exact h.pins j hj
  · have hlt := h.lt_size
    rw [recycle_size, setSlot_size] at hj
    rw [hframe j (by omega)]
    exact h.blank j hj

/-- `emplace_back`, when no slot is free. -/
theorem Valid.grow (h : t.Valid r pinned) (hfree : t.free = none) (hsize : t.size ≠ r.capacity) :
    Away r { t with size := t.size + 1 } pinned t.size := by
  obtain ⟨l, hl, hmem⟩ := h.free
  have hnil : l = [] := List.head?_eq_none_iff.mp (hl.head.symm.trans hfree)
  subst hnil
  refine ⟨⟨[], ⟨hl.head, hl.nodup, trivial⟩, not_mem_nil, fun j hj => ?_⟩,
    fun j _ => h.pins j, fun j hj => ?_, Nat.lt_of_le_of_ne h.size_le hsize, Nat.lt_succ_self _⟩
  · rw [hmem j]
    refine and_congr_left fun _ => ?_
    show j < t.size ↔ j < t.size + 1
    omega
  · have hle : t.size + 1 ≤ j := hj
    exact h.blank j (by omega)

/-- The first slot of the free list is taken from it. -/
theorem Valid.pop (h : t.Valid r pinned) (hfree : t.free = some i) :
    (t.slots i).socket = none ∧ pinned i = 0 ∧
      Away r { t with free := (t.slots i).nextFree } pinned i := by
  obtain ⟨l, hl, hmem⟩ := h.free
  rcases l with _ | ⟨k, l⟩
  · exact absurd (hl.head.symm.trans hfree) (by simp)
  have hk : i = k := some.inj (hfree.symm.trans hl.head)
  subst hk
  obtain ⟨hi, hsocket, hpins⟩ := (hmem i).mp (mem_cons_self ..)
  obtain ⟨hnot, hnodup⟩ := nodup_cons.mp hl.nodup
  refine ⟨hsocket, (h.pins i).symm.trans hpins,
    ⟨l, ⟨hl.linked.1, hnodup, hl.linked.2⟩, hnot, fun j hj => ?_⟩, fun j _ => h.pins j, h.blank,
    h.size_le, hi⟩
  have hjl := hmem j
  rw [mem_cons] at hjl
  rw [← hjl]
  simp [hj]

variable {socket : Nat}

/-- `Insert` takes a slot with neither a socket nor a pin. -/
theorem Valid.insert (h : t.Valid r pinned) {t' : SocketTable}
    (hins : t.insert r socket = some (i, t')) :
    (t.slots i).socket = none ∧ pinned i = 0 ∧ t'.Valid r pinned ∧
      ∀ j, (t'.slots j).socket = if j = i then some socket else (t.slots j).socket := by
  have hsockets : ∀ (t₁ : SocketTable) (slot : Slot), t₁.slots = t.slots →
      slot.socket = some socket → ∀ j, ((t₁.setSlot i slot).slots j).socket =
        if j = i then some socket else (t.slots j).socket := by
    intro t₁ slot hslots hslot j
    by_cases hj : j = i
    · subst hj
      rw [setSlot_self, if_pos rfl, hslot]
    · rw [setSlot_of_ne hj, if_neg hj, hslots]
  rw [SocketTable.insert] at hins
  split at hins
  · rename_i hfree
    split at hins
    · cases hins
    rename_i hsize
    cases hins
    have hblank := h.blank t.size le_rfl
    have hpins : pinned t.size = 0 := by
      rw [← h.pins t.size, hblank]
      rfl
    refine ⟨by rw [hblank]; rfl, hpins, ?_, hsockets _ _ rfl rfl⟩
    have hvalid := (h.grow hfree hsize).setSlot { Slot.empty with socket }
      (.inl (by simp))
    rwa [show ({ Slot.empty with socket } : Slot).pins = pinned t.size from hpins.symm,
      update_eq_self] at hvalid
  · rename_i index hfree
    cases hins
    obtain ⟨hsocket, hpins, haway⟩ := h.pop hfree
    refine ⟨hsocket, hpins, ?_, hsockets _ _ rfl rfl⟩
    have hvalid := haway.setSlot { t.slots i with socket } (.inl (by simp))
    rwa [show ({ t.slots i with socket } : Slot).pins = pinned i from h.pins i,
      update_eq_self] at hvalid

/-- `Insert` fails only when every slot is in use. -/
theorem Valid.insert_none (h : t.Valid r pinned) (hins : t.insert r socket = none)
    (hi : i < r.capacity) : (t.slots i).socket ≠ none ∨ 0 < pinned i := by
  rw [SocketTable.insert] at hins
  split at hins
  · rename_i hfree
    split at hins
    · rename_i hsize
      obtain ⟨l, hl, hmem⟩ := h.free
      have hnil : l = [] := List.head?_eq_none_iff.mp (hl.head.symm.trans hfree)
      subst hnil
      by_contra hno
      rw [not_or, not_not, ← h.pins i, Nat.not_lt, Nat.le_zero] at hno
      exact not_mem_nil ((hmem i).mpr ⟨by omega, hno⟩)
    · cases hins
  · cases hins

theorem setPins_socket (i k : Nat) :
    ((t.setSlot i { t.slots i with pins := k }).slots j).socket = (t.slots j).socket := by
  by_cases hj : j = i
  · subst hj
    rw [setSlot_self]
  · rw [setSlot_of_ne hj]

@[simp] theorem hold_socket (x : Option Nat) :
    ((t.hold x).slots j).socket = (t.slots j).socket := by
  rcases x with _ | i
  · rfl
  · exact setPins_socket i _

@[simp] theorem drop_socket (x : Option Nat) :
    ((t.drop x).slots j).socket = (t.slots j).socket := by
  rcases x with _ | i
  · rfl
  simp only [drop]
  split
  · rw [recycle_socket, setPins_socket]
  · exact setPins_socket i _

variable {x : Option Nat}

/-- A pin of a slot that is in use. -/
theorem Valid.hold (h : t.Valid r pinned)
    (huse : ∀ i, x = some i → (t.slots i).socket ≠ none ∨ 0 < pinned i) :
    (t.hold x).Valid r fun i => pinned i + (x == some i).toNat := by
  rcases x with _ | i
  · simpa [SocketTable.hold] using h
  have hvalid := (h.away (huse i rfl)).setSlot
    { t.slots i with pins := (t.slots i).pins + 1 } (.inr (Nat.succ_ne_zero _))
  refine (congrArg (Valid r _) (funext fun j => ?_)).mp hvalid
  by_cases hj : j = i
  · subst hj
    simp [h.pins j]
  · simp [hj, Ne.symm hj]

/-- A pin goes. -/
theorem Valid.drop (h : t.Valid r pinned) (hpos : ∀ i, x = some i → 0 < pinned i) :
    (t.drop x).Valid r fun i => pinned i - (x == some i).toNat := by
  rcases x with _ | i
  · simpa [SocketTable.drop] using h
  have haway := h.away (.inr (hpos i rfl))
  have hupdate : ∀ k, k = pinned i - 1 →
      update pinned i k = fun j => pinned j - (some i == some j).toNat := by
    intro k hk
    funext j
    by_cases hj : j = i
    · subst hj
      simp [hk]
    have hij : (i == j) = false := beq_false_of_ne (Ne.symm hj)
    simp [hj, hij]
  have hpins := h.pins i
  simp only [SocketTable.drop, setSlot_self]
  split
  · rename_i hlast
    rw [← hupdate 0 (by omega)]
    exact haway.recycle _ hlast.2 hlast.1
  rename_i hlast
  rw [← hupdate ((t.slots i).pins - 1) (by omega)]
  refine haway.setSlot _ ?_
  by_contra hno
  rw [not_or, not_not, not_not] at hno
  exact hlast hno.symm

/-- What `Close` does: nothing, or it takes the socket out of the slot of the handle. -/
theorem close_cases (r : HandleRange) (t : SocketTable) (handle : Int) :
    t.close r handle = (none, t) ∨
      ∃ i socket, handle = r.handle i ∧ (t.slots i).socket = some socket ∧
        t.close r handle = (some socket,
          let t' := t.setSlot i { t.slots i with socket := none }
          if (t.slots i).pins = 0 then t'.recycle i else t') := by
  rw [close]
  rcases hindex : r.index handle with _ | i
  · exact .inl rfl
  dsimp only
  split
  · cases hsocket : (t.slots i).socket with
    | none =>
      have hslot : ({ t.slots i with socket := none } : Slot) = t.slots i := by rw [← hsocket]
      rw [hslot, setSlot, update_eq_self]
      exact .inl rfl
    | some socket => exact .inr ⟨i, socket, r.handle_of_index hindex, hsocket, rfl⟩
  · exact .inl rfl

/-- `Close` recycles the slot unless it is pinned. -/
theorem Valid.close (h : t.Valid r pinned) (hsocket : (t.slots i).socket = some socket) :
    let t' := t.setSlot i { t.slots i with socket := none }
    (if (t.slots i).pins = 0 then t'.recycle i else t').Valid r pinned := by
  have haway := h.away (.inl (by rw [hsocket]; simp))
  have hpins := h.pins i
  split
  · rename_i hzero
    have hvalid := haway.recycle { t.slots i with socket := none } rfl hzero
    rwa [show (0 : Nat) = pinned i by omega, update_eq_self] at hvalid
  rename_i hne
  have hvalid := haway.setSlot { t.slots i with socket := none } (.inr hne)
  rwa [show ({ t.slots i with socket := none } : Slot).pins = pinned i from hpins,
    update_eq_self] at hvalid

theorem close_socket (i j : Nat) : let t' := t.setSlot i { t.slots i with socket := none }
    ((if (t.slots i).pins = 0 then t'.recycle i else t').slots j).socket =
      if j = i then none else (t.slots j).socket := by
  have hset : ((t.setSlot i { t.slots i with socket := none }).slots j).socket =
      if j = i then none else (t.slots j).socket := by
    by_cases hj : j = i
    · subst hj
      rw [setSlot_self, if_pos rfl]
    · rw [setSlot_of_ne hj, if_neg hj]
  dsimp only
  split
  · rw [recycle_socket, hset]
  · exact hset

theorem Valid.find_handle (h : t.Valid r pinned) (i : Nat) :
    t.find r (r.handle i) = (t.slots i).socket := by
  rw [find, r.index_handle]
  dsimp only
  split
  · rfl
  rw [h.blank i (by omega)]
  rfl

/-- `Find` looks only at the slot of the handle. -/
theorem find_some (hfind : t.find r handle = some socket) :
    ∃ i, r.index handle = some i ∧ handle = r.handle i ∧ (t.slots i).socket = some socket := by
  rw [find] at hfind
  rcases hindex : r.index handle with _ | i
  · rw [hindex] at hfind
    cases hfind
  rw [hindex] at hfind
  dsimp only at hfind
  split at hfind
  · exact ⟨i, rfl, r.handle_of_index hindex, hfind⟩
  · cases hfind

end SocketTable

/-! ## The pins and the log -/

/-- The socket that the log says is stored under a handle. -/
def SocketEvent.current (handle : Int) : List SocketEvent → Option Nat
  | [] => none
  | .inserted handle' socket :: log =>
    if handle' = handle then some socket else SocketEvent.current handle log
  | .closed handle' _ :: log => if handle' = handle then none else SocketEvent.current handle log

/-- The socket was inserted under the handle, which was not closed since. -/
def SocketEvent.Open (log : List SocketEvent) (handle : Int) (socket : Nat) : Prop :=
  ∃ later earlier, log = later ++ .inserted handle socket :: earlier ∧
    ∀ other, SocketEvent.closed handle other ∉ later

theorem SocketEvent.open_of_current {socket : Nat} {log : List SocketEvent}
    (h : current handle log = some socket) : Open log handle socket := by
  induction log with
  | nil => cases h
  | cons event log ih =>
    have hback : ∀ {event}, (∀ other, event ≠ SocketEvent.closed handle other) →
        current handle log = some socket → Open (event :: log) handle socket := by
      intro event hevent hcurrent
      obtain ⟨later, earlier, heq, hno⟩ := ih hcurrent
      refine ⟨event :: later, earlier, by rw [heq]; rfl, fun other hmem => ?_⟩
      rcases mem_cons.mp hmem with hhead | htail
      · exact hevent other hhead.symm
      · exact hno other htail
    cases event with
    | inserted handle' socket' =>
      rw [current] at h
      split at h
      · rename_i heq
        cases h
        subst heq
        exact ⟨[], log, rfl, fun _ => not_mem_nil⟩
      · exact hback (by simp) h
    | closed handle' socket' =>
      rw [current] at h
      split at h
      · cases h
      rename_i hne
      exact hback (by simp [hne]) h

namespace Sockets

variable {r : HandleRange} {s s' : Sockets}

/-- How many objects pin a slot. -/
def pinned (s : Sockets) (index : Nat) : Nat :=
  Nat.count (fun v => (s.pin v == some index) = true) s.made

variable {v : Nat}

theorem pinned_put (hv : v < s.made) (x : Option Nat) (i : Nat) :
    (s.put v x).pinned i + (s.pin v == some i).toNat = s.pinned i + (x == some i).toNat :=
  count_update (fun y => y == some i) s.pin x hv

theorem pinned_push (x : Option Nat) (i : Nat) :
    (s.push x).pinned i = s.pinned i + (x == some i).toNat := by
  have hold : Nat.count (fun v => (update s.pin s.made x v == some i) = true) s.made = s.pinned i :=
    count_congr fun v hv => by rw [update_of_ne (Nat.ne_of_lt hv)]
  show Nat.count _ (s.made + 1) = _
  rw [Nat.count_succ]
  refine congr_arg₂ (· + ·) hold ?_
  simp only [push, update_self]
  cases x == some i <;> rfl

theorem pinned_pos (hv : v < s.made) (hpin : s.pin v = some i) : 0 < s.pinned i := by
  have hput := s.pinned_put hv none i
  rw [hpin] at hput
  simp at hput
  omega

theorem exists_of_pinned_pos (h : 0 < s.pinned i) : ∃ v < s.made, s.pin v = some i := by
  by_contra hno
  have hzero : s.pinned i = 0 := by
    refine Nat.count_iff_forall_not.mpr fun v hv hpin => ?_
    exact hno ⟨v, hv, by simpa using hpin⟩
  omega

/-- **The invariant**: the table is valid for the objects there are, and stores what the log says.
    -/
structure Inv (r : HandleRange) (s : Sockets) : Prop where
  valid : s.table.Valid r s.pinned
  history : ∀ i, (s.table.slots i).socket = SocketEvent.current (r.handle i) s.log

theorem inv_fresh (r : HandleRange) : Sockets.fresh.Inv r := by
  have hpinned : Sockets.fresh.pinned = fun _ => 0 := funext fun i => Nat.count_zero _
  refine ⟨?_, fun _ => rfl⟩
  rw [hpinned]
  exact SocketTable.valid_fresh r

theorem Inv.of_table (h : s.Inv r) (hvalid : s'.table.Valid r s'.pinned)
    (hsocket : ∀ i, (s'.table.slots i).socket = (s.table.slots i).socket) (hlog : s'.log = s.log) :
    s'.Inv r :=
  ⟨hvalid, fun i => by rw [hsocket i, hlog]; exact h.history i⟩

/-- Two accounts that agree. -/
theorem valid_of_eq {t : SocketTable} {p q : Nat → Nat} (h : t.Valid r p) (heq : ∀ i, p i = q i) :
    t.Valid r q := by
  rw [← funext heq]
  exact h

theorem Inv.insert (h : s.Inv r) (socket : Nat) : (s.insert r socket).2.Inv r := by
  rw [Sockets.insert]
  rcases hins : s.table.insert r socket with _ | result
  · exact h
  obtain ⟨index, t⟩ := result
  obtain ⟨-, -, hvalid, hsocket⟩ := h.valid.insert hins
  refine ⟨hvalid, fun i => ?_⟩
  rw [hsocket i, SocketEvent.current]
  by_cases hi : i = index
  · rw [if_pos hi, if_pos (congrArg r.handle hi.symm)]
  rw [if_neg hi, if_neg fun heq => hi (r.handle_inj heq.symm)]
  exact h.history i

/-- A new object with a pin of a slot that is in use. -/
theorem Inv.hold_push (h : s.Inv r) {x : Option Nat}
    (huse : ∀ i, x = some i → (s.table.slots i).socket ≠ none ∨ 0 < s.pinned i) :
    ((s.hold x).push x).Inv r := by
  refine h.of_table (valid_of_eq (h.valid.hold huse) fun i => ?_) (fun i => ?_) rfl
  · exact ((s.hold x).pinned_push x i).symm
  · exact SocketTable.hold_socket x

theorem Inv.push_none (h : s.Inv r) : (s.push none).Inv r := h.hold_push (x := none) (by simp)

theorem Inv.acquire (h : s.Inv r) (handle : Int) : (s.acquire r handle).Inv r := by
  refine h.hold_push fun i hi => .inl ?_
  split at hi
  · rename_i hfound
    obtain ⟨socket, hfind⟩ := isSome_iff_exists.mp hfound
    obtain ⟨j, hindex, -, hsocket⟩ := SocketTable.find_some hfind
    rw [hindex] at hi
    cases hi
    rw [hsocket]
    simp
  · cases hi

variable {source : Nat}

theorem Inv.copy (h : s.Inv r) (hsource : source < s.made) : (s.copy source).Inv r :=
  h.hold_push fun _ hi => .inr (pinned_pos hsource hi)

theorem Inv.move (h : s.Inv r) (hsource : source < s.made) : (s.move source).Inv r := by
  refine h.of_table (valid_of_eq h.valid fun i => ?_) (fun _ => rfl) rfl
  have hput := s.pinned_put hsource none i
  have hpush := (s.put source none).pinned_push (s.pin source) i
  rw [Sockets.move, hpush]
  simp at hput
  omega

theorem Inv.reset (h : s.Inv r) (hv : v < s.made) : (s.reset v).Inv r := by
  refine h.of_table (valid_of_eq (h.valid.drop fun i hi => pinned_pos hv hi) fun i => ?_)
    (fun i => ?_) rfl
  · have hput := s.pinned_put hv none i
    show _ = (s.put v none).pinned i
    simp at hput
    omega
  · exact SocketTable.drop_socket (s.pin v)

variable {target : Nat}

section

variable (h : s.Inv r) (htarget : target < s.made) (hsource : source < s.made)
include h htarget hsource

theorem Inv.moveAssign : (s.moveAssign target source).Inv r := by
  rw [Sockets.moveAssign]
  split
  · exact h
  rename_i hne
  have hreset := h.reset htarget
  refine hreset.of_table (valid_of_eq hreset.valid fun i => ?_) (fun _ => rfl) rfl
  have hfill := (s.reset target).pinned_put htarget (s.pin source) i
  have hempty := ((s.reset target).put target (s.pin source)).pinned_put hsource none i
  have hold : (s.reset target).pin target = none := update_self ..
  have hmoved : ((s.reset target).put target (s.pin source)).pin source = s.pin source := by
    show update (update s.pin target none) target (s.pin source) source = _
    rw [update_of_ne (Ne.symm hne), update_of_ne (Ne.symm hne)]
  rw [hold] at hfill
  rw [hmoved] at hempty
  simp at hfill hempty
  omega

theorem Inv.copyAssign : (s.copyAssign target source).Inv r := by
  rw [Sockets.copyAssign]
  split
  · exact h
  -- the temporary holds a pin of its own until the target takes it over
  have hheld := h.valid.hold fun i hi => .inr (pinned_pos hsource hi)
  have hdropped := hheld.drop fun i hi =>
    Nat.lt_of_lt_of_le (pinned_pos htarget hi) (Nat.le_add_right _ _)
  refine h.of_table (valid_of_eq hdropped fun i => ?_) (fun i => ?_) rfl
  · have hempty := s.pinned_put htarget none i
    have hfill := ((s.hold (s.pin source)).reset target).pinned_put htarget (s.pin source) i
    have hold : ((s.hold (s.pin source)).reset target).pin target = none := update_self ..
    have hsame : ((s.hold (s.pin source)).reset target).pinned i = (s.put target none).pinned i :=
      rfl
    rw [hold, hsame] at hfill
    simp at hempty hfill
    omega
  · exact (SocketTable.drop_socket (s.pin target)).trans (SocketTable.hold_socket (s.pin source))

end

theorem Inv.close (h : s.Inv r) (handle : Int) : (s.close r handle).Inv r := by
  rw [Sockets.close]
  rcases s.table.close_cases r handle with heq | ⟨index, socket, rfl, hsocket, heq⟩
  · rw [heq]
    exact h
  rw [heq]
  refine ⟨h.valid.close hsocket, fun i => ?_⟩
  refine (SocketTable.close_socket index i).trans ?_
  rw [SocketEvent.current]
  by_cases hi : i = index
  · rw [if_pos hi, if_pos (congrArg r.handle hi.symm)]
  rw [if_neg hi, if_neg fun heq => hi (r.handle_inj heq.symm)]
  exact h.history i

theorem Inv.closeAll (h : s.Inv r) : (s.closeAll r).Inv r := by
  rw [Sockets.closeAll]
  generalize List.range s.table.size = indices
  induction indices generalizing s with
  | nil => exact h
  | cons index indices ih => exact ih (h.close (r.handle index))

theorem step_inv {op : SocketOp} (h : s.Inv r) (hstep : s.step r op = some s') : s'.Inv r := by
  cases op with
  | insert socket => cases hstep; exact h.insert socket
  | acquire handle => cases hstep; exact h.acquire handle
  | empty => cases hstep; exact h.push_none
  | copy source =>
    refine of_guard hstep fun hsource => ?_
    exact h.copy hsource
  | move source =>
    refine of_guard hstep fun hsource => ?_
    exact h.move hsource
  | copyAssign target source =>
    refine of_guard hstep fun hboth => ?_
    exact h.copyAssign hboth.1 hboth.2
  | moveAssign target source =>
    refine of_guard hstep fun hboth => ?_
    exact h.moveAssign hboth.1 hboth.2
  | reset v =>
    refine of_guard hstep fun hv => ?_
    exact h.reset hv
  | close handle => cases hstep; exact h.close handle
  | closeAll => cases hstep; exact h.closeAll

theorem reachable_inv (hs : (socketSystem r).Reachable s) : s.Inv r := by
  refine Reachable.invariant (P := Inv r) ?_ (fun _ _ _ h hstep => step_inv h hstep) hs
  rintro s rfl
  exact inv_fresh r

/-! ## The results -/

/-- **What callers may rely on.** -/
structure Sound (r : HandleRange) (s : Sockets) : Prop where
  fresh : ∀ socket handle, (s.insert r socket).1 = some handle →
    (∃ i < r.capacity, handle = r.handle i) ∧ s.table.find r handle = none ∧
      ∀ v < s.made, ∀ i, s.pin v = some i → r.handle i ≠ handle
  find : ∀ handle socket, s.table.find r handle = some socket → SocketEvent.Open s.log handle socket
  get : ∀ v socket, s.get v = some socket →
    ∃ i, s.pin v = some i ∧ SocketEvent.Open s.log (r.handle i) socket
  free : ∃ l, IsFree s.table l ∧ ∀ i, i ∈ l ↔
    i < s.table.size ∧ s.table.find r (r.handle i) = none ∧ ∀ v < s.made, s.pin v ≠ some i
  full : ∀ socket, (s.insert r socket).1 = none → ∀ i < r.capacity,
    s.table.find r (r.handle i) ≠ none ∨ ∃ v < s.made, s.pin v = some i

theorem Inv.no_pin (h : s.Inv r) (i : Nat) :
    (s.table.slots i).pins = 0 ↔ ∀ v < s.made, s.pin v ≠ some i := by
  rw [h.valid.pins i]
  refine ⟨fun hzero v hv hpin => ?_, fun hno => ?_⟩
  · have hpos := pinned_pos hv hpin
    omega
  · by_contra hne
    obtain ⟨v, hv, hpin⟩ := exists_of_pinned_pos (s := s) (i := i) (by omega)
    exact hno v hv hpin

theorem Inv.sound (h : s.Inv r) : s.Sound r where
  fresh socket handle hins := by
    rw [Sockets.insert] at hins
    rcases hslot : s.table.insert r socket with _ | result
    · rw [hslot] at hins
      cases hins
    obtain ⟨index, t⟩ := result
    rw [hslot] at hins
    cases hins
    obtain ⟨hsocket, hpinned, hvalid, hstored⟩ := h.valid.insert hslot
    have haway := hvalid.away (i := index) (.inl (by simp [hstored index]))
    refine ⟨⟨index, Nat.lt_of_lt_of_le haway.lt_size haway.size_le, rfl⟩,
      (h.valid.find_handle index).trans hsocket, fun v hv i hpin heq => ?_⟩
    have hpos := pinned_pos hv hpin
    rw [r.handle_inj heq] at hpos
    omega
  find handle socket hfind := by
    obtain ⟨i, -, rfl, hsocket⟩ := SocketTable.find_some hfind
    exact SocketEvent.open_of_current ((h.history i).symm.trans hsocket)
  get v socket hget := by
    obtain ⟨i, hpin, hsocket⟩ := bind_eq_some_iff.mp hget
    exact ⟨i, hpin, SocketEvent.open_of_current ((h.history i).symm.trans hsocket)⟩
  free := by
    obtain ⟨l, hl, hmem⟩ := h.valid.free
    refine ⟨l, hl, fun i => ?_⟩
    rw [hmem i, h.valid.find_handle i, h.no_pin i]
  full socket hins i hi := by
    have hnone : s.table.insert r socket = none := by
      rw [Sockets.insert] at hins
      rcases hslot : s.table.insert r socket with _ | result
      · rfl
      rw [hslot] at hins
      cases hins
    rw [h.valid.find_handle i]
    exact (h.valid.insert_none hnone hi).imp_right exists_of_pinned_pos

end Sockets

/-! ## The workers' ranges -/

/-- `BYCORF_DPDK_MAX_WORKERS`, which the build admits from 1 to 1023. -/
structure MaxWorkers where
  count : Nat
  pos : 1 ≤ count
  le : count ≤ 1023

def firstHandle : Nat := 0x40000000

/-- How many bits of a handle are left for the slot, beside those for the worker. -/
def handleBits (n : MaxWorkers) : Nat := 30 - Nat.size (n.count - 1)

/-- The bits of the slot. -/
def handleMask (n : MaxWorkers) : Nat := (1 <<< handleBits n) - 1

/-- The owner's part of a handle stays below bit 30. -/
theorem shifted_lt (n : MaxWorkers) (id : Fin n.count) :
    (id.val + 1) * 2 ^ handleBits n ≤ firstHandle := by
  have hid : id.val < 2 ^ Nat.size (n.count - 1) := by
    have hlt := Nat.lt_size_self (n.count - 1)
    have := id.isLt
    omega
  have hsize : Nat.size (n.count - 1) ≤ 10 := by
    rw [Nat.size_le]
    have := n.le
    omega
  calc (id.val + 1) * 2 ^ handleBits n
      ≤ 2 ^ Nat.size (n.count - 1) * 2 ^ handleBits n := Nat.mul_le_mul_right _ hid
    _ = 2 ^ 30 := by
      rw [← Nat.pow_add, handleBits]
      congr 1
      omega
    _ = firstHandle := rfl

theorem first_or_shifted (n : MaxWorkers) (id : Fin n.count) :
    firstHandle ||| (id.val <<< handleBits n) = firstHandle + id.val * 2 ^ handleBits n := by
  have hlt := shifted_lt n id
  have hpos := Nat.two_pow_pos (handleBits n)
  rw [Nat.shiftLeft_eq]
  refine (Nat.two_pow_add_eq_or_of_lt (i := 30) ?_ 1).symm
  rw [Nat.add_mul, Nat.one_mul] at hlt
  show _ < firstHandle
  omega

/-- What `Init` passes to `Configure`. -/
def workerRange (n : MaxWorkers) (id : Fin n.count) : HandleRange where
  first := firstHandle ||| (id.val <<< handleBits n)
  capacity := handleMask n
  fits := by
    have hlt := shifted_lt n id
    have hpos := Nat.two_pow_pos (handleBits n)
    rw [first_or_shifted, handleMask, Nat.shiftLeft_eq, intMax]
    rw [Nat.add_mul] at hlt
    simp only [firstHandle] at hlt ⊢
    omega

theorem workerRange_handle (n : MaxWorkers) (id : Fin n.count) (i : Nat) :
    (workerRange n id).handle i = ((firstHandle + id.val * 2 ^ handleBits n + i : Nat) : Int) := by
  rw [HandleRange.handle, show (workerRange n id).first = _ from first_or_shifted n id]
  omega

variable {n : MaxWorkers} {id : Fin n.count}

theorem lt_of_lt_capacity (hi : i < (workerRange n id).capacity) : i < 2 ^ handleBits n := by
  have hcap : i < 1 <<< handleBits n - 1 := hi
  rw [Nat.shiftLeft_eq] at hcap
  omega

theorem workerRange_bounds (hi : i < (workerRange n id).capacity) :
    2 ^ 30 ≤ (workerRange n id).handle i ∧ (workerRange n id).handle i ≤ intMax := by
  have hfits := (workerRange n id).fits
  refine ⟨?_, ?_⟩
  · rw [workerRange_handle, firstHandle]
    omega
  · rw [HandleRange.handle]
    omega

/-- The owner of a handle is its quotient by the size of a range. -/
theorem workerRange_disjoint {id' : Fin n.count} (hne : id ≠ id') {i j : Nat}
    (hi : i < (workerRange n id).capacity) (hj : j < (workerRange n id').capacity) :
    (workerRange n id).handle i ≠ (workerRange n id').handle j := by
  intro heq
  rw [workerRange_handle, workerRange_handle, Nat.add_assoc, Nat.add_assoc] at heq
  have hsum : id.val * 2 ^ handleBits n + i = id'.val * 2 ^ handleBits n + j := by omega
  have howner : ∀ (k m : Nat), m < 2 ^ handleBits n →
      (k * 2 ^ handleBits n + m) / 2 ^ handleBits n = k := by
    intro k m hm
    rw [Nat.mul_comm, Nat.mul_add_div (Nat.two_pow_pos _), Nat.div_eq_of_lt hm, Nat.add_zero]
  refine hne (Fin.ext ?_)
  rw [← howner id.val i (lt_of_lt_capacity hi), hsum, howner id'.val j (lt_of_lt_capacity hj)]

/-- **Handles are not recycled early**, in every run over every range; and the ranges that the
    workers are configured with are disjoint and lie between `2 ^ 30` and `INT_MAX`. -/
theorem reachable_socketTable {r : HandleRange} {s : Sockets} (hs : (socketSystem r).Reachable s) :
    s.Sound r ∧ ∀ (n : MaxWorkers) (id : Fin n.count), (∀ i < (workerRange n id).capacity,
          2 ^ 30 ≤ (workerRange n id).handle i ∧ (workerRange n id).handle i ≤ intMax) ∧
        ∀ id', id ≠ id' → ∀ i < (workerRange n id).capacity, ∀ j < (workerRange n id').capacity,
          (workerRange n id).handle i ≠ (workerRange n id').handle j :=
  ⟨(Sockets.reachable_inv hs).sound, fun _ _ =>
    ⟨fun _ hi => workerRange_bounds hi, fun _ hne _ hi _ hj => workerRange_disjoint hne hi hj⟩⟩

/-- One slot whose socket is closed while a copy of its pin is left. -/
def closedWhilePinned : List SocketOp :=
  [.insert 7, .acquire 10, .copy 0, .close 10, .reset 0]

/-- The number is not given out while the copy lives, and again when it goes. -/
theorem closedWhilePinned_sound :
    ∃ r : HandleRange, ∃ s, (socketSystem r).run .fresh closedWhilePinned = some s ∧
      (s.insert r 8).1 = none ∧ ((s.reset 1).insert r 8).1 = some 10 ∧ s.Sound r :=
  ⟨⟨10, 1, by decide⟩, _, rfl, rfl, rfl,
    (reachable_socketTable (Reachable.run (.init rfl) closedWhilePinned rfl)).1⟩

end Bycorf.Dpdk
