/-
  `TcpListener::BindUnix` and `Close` of two listeners on one pathname, one system call at a time.

  1. **File system** — what the pathname names: nothing, or an inode with its number, which is a
     socket that one of the two bound, another socket that nobody listens on, or no socket.
  2. **Steps** — the next system call of a listener, answered by the file system (`call`), or with
     an error of its own (`fail`).  `bind` takes any inode number that no open descriptor holds.

  `robbed` remembers that the other one unlinked the pathname of a listener whose descriptor was
  open: its `BindUnix` was under way or had succeeded.
-/
import Bycorf.Lib.Transition

namespace Bycorf.Net.UnixListener

open Lib

/-- What stands at the path. -/
inductive Kind where
  | file | stale | bound (p : Bool)
deriving DecidableEq

/-- A directory entry. -/
structure Node where
  ino : Nat
  kind : Kind
deriving DecidableEq

/-- Where a listener is; the number is that of the last `lstat` that counts. -/
inductive Pc where
  | start
  | existing (ino : Nat)      -- about to probe
  | refused (ino : Nat)       -- in `UnlinkSocketIfSame` of `BindUnix`
  | matched                   -- about to unlink
  | clear                     -- about to bind
  | bound
  | named (ino : Nat)         -- about to `chmod`
  | ready (ino : Nat)         -- about to listen
  | listening (ino : Nat)
  | opened (ino : Nat)        -- `BindUnix` succeeded
  | closing (ino : Nat)       -- the descriptor is closed, by `Close` or by an error path
  | closeMatched
  | done
deriving DecidableEq

/-- The path, and two listeners that want it. -/
structure State where
  node : Option Node
  pc : Bool → Pc
  inode : Bool → Nat          -- the number of the inode that the listener bound
  robbed : Bool → Bool

namespace Pc

/-- The descriptor is bound and open. -/
def holds : Pc → Bool
  | bound | named _ | ready _ | listening _ | opened _ => true
  | _ => false

/-- The listener is listening. -/
def listens : Pc → Bool
  | listening _ | opened _ => true
  | _ => false

/-- It may unlink the pathname before it binds again. -/
def removes : Pc → Bool
  | refused _ | matched | closing _ | closeMatched => true
  | _ => false

end Pc

namespace State

def set (s : State) (p : Bool) (x : Pc) : State := { s with pc := Function.update s.pc p x }

/-- `unlink` of the path by the listener `p`; the other may have bound it. -/
def unlink (s : State) (p : Bool) : State :=
  let hit := s.node.any (fun n => n.kind = .bound (!p)) && (s.pc (!p)).holds
  { s with node := none, robbed := if hit then Function.update s.robbed (!p) true else s.robbed }

/-- Does a connection to the node succeed? -/
def accepts (s : State) (n : Node) : Bool :=
  match n.kind with
  | .bound q => (s.pc q).listens
  | _ => false

/-- The next system call of `p`. -/
def call (s : State) (p : Bool) (ino : Nat) : Option State :=
  match s.pc p, s.node with
  | .start, none => some (s.set p .clear)
  | .start, some n => some (s.set p (if n.kind = .file then .done else .existing n.ino))
  | .existing _, none => some (s.set p .clear)
  | .existing i, some n => some (s.set p (if s.accepts n then .done else .refused i))
  | .refused _, none => some (s.set p .clear)
  | .refused i, some n =>
    some (s.set p (if n.kind ≠ .file ∧ n.ino = i then .matched else .done))
  | .matched, _ => some ((s.unlink p).set p .clear)
  | .clear, none =>
    if (s.pc (!p)).holds ∧ s.inode (!p) = ino then none
    else some { s.set p .bound with
      node := some ⟨ino, .bound p⟩, inode := Function.update s.inode p ino }
  | .clear, some _ => some (s.set p .done)
  | .bound, none => some (s.set p .done)
  | .bound, some n => some (s.set p (if n.kind = .file then .done else .named n.ino))
  | .named i, none => some (s.set p (.closing i))
  | .named i, some _ => some (s.set p (.ready i))
  | .ready i, _ => some (s.set p (.listening i))
  | .listening i, _ => some (s.set p (.opened i))
  | .opened i, _ => some (s.set p (.closing i))
  | .closing _, none => some (s.set p .done)
  | .closing i, some n =>
    some (s.set p (if n.kind ≠ .file ∧ n.ino = i then .closeMatched else .done))
  | .closeMatched, _ => some ((s.unlink p).set p .done)
  | .done, _ => none

/-- The next system call of `p` fails; an error behind the `lstat` of the bound inode cleans up. -/
def fail (s : State) (p : Bool) : Option State :=
  match s.pc p with
  | .opened _ | .done => none
  | .named i | .ready i | .listening i => some (s.set p (.closing i))
  | _ => some (s.set p .done)

end State

/-- The next system call of a listener, or its failure. -/
inductive Label where
  | call (p : Bool) (ino : Nat)
  | fail (p : Bool)
deriving DecidableEq

/-- Two listeners on a pathname that names nothing, a file, or a socket of neither. -/
def system : System State Label where
  init s := (∀ p n, s.node = some n → n.kind ≠ .bound p) ∧ (∀ p, s.pc p = .start) ∧
    ∀ p, s.robbed p = false
  step s
    | .call p ino => s.call p ino
    | .fail p => s.fail p

/-! ## Two listeners that keep apart -/

/-- No probe while the other one has bound but does not listen yet; no `bind` while the other one is
    between what tells it to unlink (a refused probe, or its own close) and the unlink. -/
def apart (s : State) : Label → Bool
  | .call p _ =>
    match s.pc p with
    | .existing _ => !(s.pc (!p)).holds || (s.pc (!p)).listens
    | .clear => !(s.pc (!p)).removes
    | _ => true
  | .fail _ => true

/-- Who holds the path has bound what stands there. -/
structure Inv (s : State) : Prop where
  named : ∀ p, (s.pc p).holds = true → s.node.map Node.kind = some (.bound p)
  alone : ∀ p, (s.pc p).removes = true → (s.pc (!p)).holds = false
  whole : ∀ p, s.robbed p = false

variable {s s' : State} {p : Bool} {x : Pc}

theorem inv_of (p : Bool) (hp : (s.pc p).holds = true → s.node.map Node.kind = some (.bound p))
    (hq : (s.pc (!p)).holds = true → s.node.map Node.kind = some (.bound (!p)))
    (hp' : (s.pc p).removes = true → (s.pc (!p)).holds = false)
    (hq' : (s.pc (!p)).removes = true → (s.pc p).holds = false)
    (hrobbed : ∀ p, s.robbed p = false) : Inv s := by
  refine ⟨?_, ?_, hrobbed⟩
  · cases p <;> exact Bool.forall_bool.mpr ⟨‹_›, ‹_›⟩
  · cases p <;> exact Bool.forall_bool.mpr ⟨‹_›, ‹_›⟩

@[simp] theorem set_self : (s.set p x).pc p = x := update_self ..

@[simp] theorem set_other : (s.set p x).pc (!p) = s.pc (!p) :=
  update_of_ne (by cases p <;> decide) ..

/-- A step of `p` that leaves the pathname alone. -/
theorem Inv.set (h : Inv s) (hholds : x.holds = true → (s.pc p).holds = true)
    (hremoves : x.removes = true → (s.pc (!p)).holds = false) : Inv (s.set p x) := by
  have hq := h.alone (!p)
  rw [Bool.not_not] at hq
  refine inv_of p ?_ ?_ ?_ ?_ h.whole <;> simp only [set_self, set_other]
  · exact fun hx => h.named p (hholds hx)
  · exact h.named (!p)
  · exact hremoves
  · intro hr
    have := hq hr
    grind

theorem Inv.unlink (h : Inv s) (hp : (s.pc p).removes = true) (hx : x.holds = false)
    (hx' : x.removes = false) : Inv ((s.unlink p).set p x) := by
  have hother : (s.pc (!p)).holds = false := h.alone p hp
  have hpc : ((s.unlink p).set p x).pc (!p) = s.pc (!p) := set_other
  have hrobbed : ((s.unlink p).set p x).robbed = s.robbed := by
    simp [State.set, State.unlink, hother]
  refine inv_of p ?_ ?_ ?_ ?_ (hrobbed ▸ h.whole) <;> simp only [set_self, hpc]
  · simp [hx]
  · simp [hother]
  · simp [hx']
  · simp [hx]

/-- Two descriptors are not bound at once. -/
theorem Inv.not_both (h : Inv s) (hp : (s.pc p).holds = true) : (s.pc (!p)).holds = false := by
  by_contra hq
  have hkind := (h.named p hp).symm.trans (h.named (!p) (by simpa using hq))
  cases p <;> cases hkind

/-- A refused probe: the other one has no descriptor. -/
theorem Inv.refused (h : Inv s) {n : Node} (hnode : s.node = some n) (hn : s.accepts n = false)
    (hok : (!(s.pc (!p)).holds || (s.pc (!p)).listens) = true) :
    (s.pc (!p)).holds = false := by
  by_contra hq
  have hq : (s.pc (!p)).holds = true := by simpa using hq
  have hkind := h.named (!p) hq
  rw [hnode] at hkind
  rw [State.accepts, some.inj hkind] at hn
  dsimp only at hn
  rw [hq, hn] at hok
  cases hok

theorem Inv.call {ino : Nat} (h : Inv s) (hok : apart s (.call p ino) = true)
    (hs : s.call p ino = some s') : Inv s' := by
  unfold State.call at hs
  have hboth := h.not_both (p := p)
  have halone := h.alone p
  split at hs
  case h_4 i n hpc hnode =>
    cases hs
    refine h.set ?_ ?_ <;> split
    · nofun
    · nofun
    · nofun
    · next hn => exact fun _ =>
        h.refused hnode (by simpa using hn) (by simpa [apart, hpc] using hok)
  case h_7 hpc =>
    cases hs
    exact h.unlink (by rw [hpc]; rfl) rfl rfl
  case h_19 hpc =>
    cases hs
    exact h.unlink (by rw [hpc]; rfl) rfl rfl
  case h_8 hpc hnode =>
    obtain ⟨-, hs⟩ := ite_none_left_eq_some.mp hs
    cases hs
    have hother : (s.pc (!p)).holds = false := by
      by_contra hq
      have := h.named (!p) (by simpa using hq)
      rw [hnode] at this
      cases this
    have hpc' : (s.set p .bound).pc (!p) = s.pc (!p) := set_other
    refine inv_of p (fun _ => rfl) ?_ ?_ ?_ h.whole
    · simp [hpc', hother]
    · simp [Pc.removes]
    · rw [apart, hpc] at hok
      simp_all
  case h_20 => cases hs
  all_goals
    cases hs
    refine h.set ?_ ?_ <;> grind [Pc.holds, Pc.removes]

theorem Inv.fail (h : Inv s) (hs : s.fail p = some s') : Inv s' := by
  unfold State.fail at hs
  have hboth := h.not_both (p := p)
  split at hs
  case h_1 => cases hs
  case h_2 => cases hs
  all_goals
    cases hs
    refine h.set ?_ ?_ <;> grind [Pc.holds, Pc.removes]

/-- **Listeners that keep apart do not unlink each other's pathname.** -/
theorem reachable_not_robbed (h : system.ReachableUnder (fun s a => apart s a = true) s)
    (q : Bool) : s.robbed q = false := by
  suffices hinv : Inv s from hinv.whole q
  refine System.ReachableUnder.invariant ?_ ?_ h
  · rintro s ⟨-, hpc, hrobbed⟩
    refine ⟨fun p hp => ?_, fun p hp => ?_, hrobbed⟩
    · rw [hpc p] at hp
      cases hp
    · rw [hpc p] at hp
      cases hp
  · rintro s (⟨p, ino⟩ | p) s' hinv hok hs
    · exact hinv.call hok hs
    · exact hinv.fail hs

/-- A pathname that names nothing. -/
def unused : State := ⟨none, fun _ => .start, fun _ => 0, fun _ => false⟩

/-- The first listener opens, and the second one finds it. -/
def inTurn : List Label := List.replicate 6 (.call true 1) ++ [.call false 2, .call false 2]

theorem reachable_not_robbed_in_turn : ∃ s ∈ system.run unused inTurn,
    s.pc true = .opened 1 ∧ s.robbed true = false := by
  have hrun : system.Follows (fun s a => apart s a = true) unused inTurn ∧
      ∃ s ∈ system.run unused inTurn, s.pc true = .opened 1 := by
    decide
  obtain ⟨hok, s, hs, hpc⟩ := hrun
  have hinit : system.init unused := ⟨nofun, fun _ => rfl, fun _ => rfl⟩
  exact ⟨s, hs, hpc, reachable_not_robbed (.run (.init hinit) inTurn hok hs) true⟩

/-- The second listener probes while the first one has bound and does not listen yet. -/
def early : List Label :=
  List.replicate 4 (.call true 1) ++ List.replicate 4 (.call false 2) ++
    List.replicate 2 (.call true 1)

/-- **A live listener loses its pathname.** -/
theorem live_listener_robbed : ∃ s ∈ system.run unused early,
    s.pc true = .opened 1 ∧ s.robbed true = true ∧ s.node = none := by
  decide

end Bycorf.Net.UnixListener
