/-
  The ports of the DPDK backend: who may use which, and that replies come home.

  1. **Program** — `ConfigureListenerWorkers` and `PrepareRuntime` fill the tables before any worker
     runs; then each worker's thread goes through `Listen` and `OpenClient`, in atomic steps around
     the compare-and-swap on `port_owners` and the bind of the BSD stack, whose result is arbitrary.
     A listener port is the port that the caller of `Listen` names.
  2. **Bookkeeping** — `listeners` and `clients` record what the calls returned.
  3. **Results** — `reachable_steers` for the steering function with the tables as they are built,
     and `reachable_ports` for the protocol: an owner stays, a port has one purpose, and what comes
     for a client's port is steered to that client from then on.
  4. **Search** — `search_complete`: which ports the loop of `OpenClient` tries.

  Calls with another address family are refused before they touch anything and are left out.
-/
import Bycorf.Dpdk.Steering
import Bycorf.Lib.Cyclic
import Bycorf.Lib.Transition

namespace Bycorf.Dpdk

open Lib Function

/-! ## The program -/

/-- `kClientPortFirst` and `kClientPortLast`. -/
def clientPortFirst : Nat := 32768
def clientPortLast : Nat := 60999

/-- What `bycorf_bsd_listen` or `bycorf_bsd_open_client` answers. -/
inductive Bind where
  | ok
  | addressInUse                   -- `EADDRINUSE`
  | failed
deriving DecidableEq, Repr

/-- Where the thread of a worker is: in front of the step that is named. -/
inductive PortPc where
  | outside
  | listen (port : Nat)            -- the compare-and-swap of `Listen`
  | bsdListen (port : Nat)
  | client (tried : Nat)           -- the head of the loop of `OpenClient`
  | claim (tried port : Nat)       -- its compare-and-swap
  | bsdClient (tried port : Nat)
deriving DecidableEq, Repr

/-- The shared tables of the fabric, and for each worker its counter and where its thread is. -/
structure Fabric where
  prepared : Bool
  tables : Tables
  nextClientPort : Nat → Nat       -- `unsigned`, one for each worker
  pc : Nat → PortPc
  listeners : List (Nat × Nat)     -- bookkeeping of the model: worker and port
  clients : List (Nat × Nat)

namespace Fabric

/-- Before `PrepareRuntime`. -/
def fresh : Fabric where
  prepared := false
  tables := ⟨0, false, [], fun _ => 0⟩
  nextClientPort _ := 0
  pc _ := .outside
  listeners := []
  clients := []

def setPc (w : Nat) (pc : PortPc) (s : Fabric) : Fabric :=
  { s with pc := Function.update s.pc w pc }

def setOwner (port owner : Nat) (s : Fabric) : Fabric :=
  { s with
    tables := { s.tables with portOwners := Function.update s.tables.portOwners port owner } }

/-- `next_client_port++`. -/
def nextPort (w : Nat) (s : Fabric) : Fabric :=
  let next := (s.nextClientPort w + 1) % 2 ^ 32
  { s with nextClientPort := Function.update s.nextClientPort w next }

/-- `ConfigureListenerWorkers`; `emplace` keeps the first list of a port. -/
def configureListenerWorkers (port : Nat) (workers : List Nat) (s : Fabric) : Fabric :=
  if s.prepared ∨ workers = [] then s
  else match s.tables.placement port with
    | some _ => s
    | none =>
      { s with tables :=
        { s.tables with listenerWorkers := s.tables.listenerWorkers ++ [(port, workers)] } }

/-- `PrepareRuntime`: the checks of the tables, and `fabric.workers` with the steering mode.  What
    follows configures the device and may fail (`ok`). -/
def prepareRuntime (maxWorkers workers : Nat) (rss ok : Bool) (s : Fabric) : Fabric :=
  if s.tables.listenerWorkers.any fun entry => entry.2.any fun id => decide (workers ≤ id) then s
  else if s.prepared ∨ workers = 0 ∨ maxWorkers < workers then s
  else { s with tables := { s.tables with workers := workers, rssOwner := rss }, prepared := ok }

/-- How many ports the stripe of worker `w` has. -/
def stripe (workers w : Nat) : Nat := (clientPortLast - clientPortFirst - w) / workers + 1

/-- The `k`-th port of the stripe. -/
def stripePort (workers w k : Nat) : Nat :=
  clientPortFirst + w + k % stripe workers w * workers

/-- The port that `OpenClient` tries next. -/
def candidate (w : Nat) (s : Fabric) : Nat := stripePort s.tables.workers w (s.nextClientPort w)

/-- The next step of worker `w`, where that needs no choice. -/
def advance (w : Nat) (s : Fabric) : Option Fabric :=
  match s.pc w with
  | .outside | .bsdListen _ | .bsdClient _ _ => none
  | .listen port =>
    if s.tables.portOwners port = 0 then
      some ((s.setOwner port listenerPortOwner).setPc w (.bsdListen port))
    else if s.tables.portOwners port = listenerPortOwner then some (s.setPc w (.bsdListen port))
    else some (s.setPc w .outside)
  | .client tried =>
    if tried < stripe s.tables.workers w then
      if (s.tables.placement (s.candidate w)).isSome then
        some ((s.nextPort w).setPc w (.client (tried + 1)))
      else some ((s.nextPort w).setPc w (.claim tried (s.candidate w)))
    else some (s.setPc w .outside)
  | .claim tried port =>
    if s.tables.portOwners port = 0 then
      some ((s.setOwner port (w + 1)).setPc w (.bsdClient tried port))
    else if s.tables.portOwners port = w + 1 then some (s.setPc w (.bsdClient tried port))
    else some (s.setPc w (.client (tried + 1)))

/-- The BSD stack answers worker `w`. -/
def bind (w : Nat) (result : Bind) (s : Fabric) : Option Fabric :=
  match s.pc w with
  | .bsdListen port =>
    match result with
    | .ok => some ({ s with listeners := s.listeners ++ [(w, port)] }.setPc w .outside)
    | _ => some (s.setPc w .outside)
  | .bsdClient tried port =>
    match result with
    | .ok => some ({ s with clients := s.clients ++ [(w, port)] }.setPc w .outside)
    | .addressInUse => some (s.setPc w (.client (tried + 1)))
    | .failed => some (s.setPc w .outside)
  | _ => none

/-- Who takes the next step: the set-up, or the thread of a worker. -/
inductive Label where
  | configure (port : Nat) (workers : List Nat)
  | prepare (workers : Nat) (rss ok : Bool)
  | listen (w port : Nat)
  | openClient (w : Nat)
  | advance (w : Nat)
  | bind (w : Nat) (result : Bind)
deriving DecidableEq, Repr

/-- One step; a thread begins a call only behind `PrepareRuntime` and outside of other calls. -/
def step (maxWorkers : Nat) (s : Fabric) : Label → Option Fabric
  | .configure port workers => some (s.configureListenerWorkers port workers)
  | .prepare workers rss ok => some (s.prepareRuntime maxWorkers workers rss ok)
  | .listen w port =>
    if s.prepared ∧ w < s.tables.workers ∧ s.pc w = .outside then some (s.setPc w (.listen port))
    else none
  | .openClient w =>
    if s.prepared ∧ w < s.tables.workers ∧ s.pc w = .outside then some (s.setPc w (.client 0))
    else none
  | .advance w => s.advance w
  | .bind w result => s.bind w result

/-- All interleavings of the set-up and the threads. -/
def system (maxWorkers : Nat) : System Fabric Label where
  init s := s = fresh
  step := step maxWorkers

/-! ## What a step can do -/

variable {maxWorkers : Nat} {s s' : Fabric} {a : Label} {w : Nat}

/-- The steps of a worker: where it gets, and which port it gives an owner. -/
inductive Move (s : Fabric) (w : Nat) : PortPc → Option (Nat × Nat) → PortPc → Prop where
  | beginListen (port : Nat) (hprepared : s.prepared = true) (hw : w < s.tables.workers) :
      Move s w .outside none (.listen port)
  | beginClient (hprepared : s.prepared = true) (hw : w < s.tables.workers) :
      Move s w .outside none (.client 0)
  | claimListen (port : Nat) (h : s.tables.portOwners port = 0) :
      Move s w (.listen port) (some (port, listenerPortOwner)) (.bsdListen port)
  | sharedListen (port : Nat) (h : s.tables.portOwners port = listenerPortOwner) :
      Move s w (.listen port) none (.bsdListen port)
  | refusedListen (port : Nat) : Move s w (.listen port) none .outside
  | configured (tried : Nat) : Move s w (.client tried) none (.client (tried + 1))
  | candidate (tried k : Nat) (h : s.tables.placement (stripePort s.tables.workers w k) = none) :
      Move s w (.client tried) none (.claim tried (stripePort s.tables.workers w k))
  | exhausted (tried : Nat) : Move s w (.client tried) none .outside
  | claimClient (tried port : Nat) (h : s.tables.portOwners port = 0) :
      Move s w (.claim tried port) (some (port, w + 1)) (.bsdClient tried port)
  | ownClient (tried port : Nat) (h : s.tables.portOwners port = w + 1) :
      Move s w (.claim tried port) none (.bsdClient tried port)
  | foreignClient (tried port : Nat) : Move s w (.claim tried port) none (.client (tried + 1))
  | listenDone (port : Nat) : Move s w (.bsdListen port) none .outside
  | clientRetry (tried port : Nat) : Move s w (.bsdClient tried port) none (.client (tried + 1))
  | clientDone (tried port : Nat) : Move s w (.bsdClient tried port) none .outside

/-- What a worker's step does to the shared state. -/
structure Moved (s : Fabric) (w : Nat) (claim : Option (Nat × Nat)) (pc : PortPc) (s' : Fabric) :
    Prop where
  prepared : s'.prepared = s.prepared
  tables : s'.tables = match claim with
    | none => s.tables
    | some (port, owner) =>
      { s.tables with portOwners := Function.update s.tables.portOwners port owner }
  pcs : s'.pc = Function.update s.pc w pc
  listeners : s'.listeners = s.listeners ∨
    ∃ port, s.pc w = .bsdListen port ∧ s'.listeners = s.listeners ++ [(w, port)]
  clients : s'.clients = s.clients ∨
    ∃ tried port, s.pc w = .bsdClient tried port ∧ s'.clients = s.clients ++ [(w, port)]

theorem advance_moves (h : s.advance w = some s') :
    ∃ claim pc, Move s w (s.pc w) claim pc ∧ Moved s w claim pc s' := by
  rw [advance] at h
  split at h
  · cases h
  · cases h
  · cases h
  · next port hpc =>
    rw [hpc]
    split at h
    · next hzero =>
      cases h
      exact ⟨_, _, .claimListen port hzero, rfl, rfl, rfl, .inl rfl, .inl rfl⟩
    split at h
    · next howner =>
      cases h
      exact ⟨_, _, .sharedListen port howner, rfl, rfl, rfl, .inl rfl, .inl rfl⟩
    cases h
    exact ⟨_, _, .refusedListen port, rfl, rfl, rfl, .inl rfl, .inl rfl⟩
  · next tried hpc =>
    rw [hpc]
    split at h
    · split at h
      · cases h
        exact ⟨_, _, .configured tried, rfl, rfl, rfl, .inl rfl, .inl rfl⟩
      · next hnone =>
        cases h
        have hfree := Option.not_isSome_iff_eq_none.mp hnone
        exact ⟨_, _, .candidate tried _ hfree, rfl, rfl, rfl, .inl rfl, .inl rfl⟩
    cases h
    exact ⟨_, _, .exhausted tried, rfl, rfl, rfl, .inl rfl, .inl rfl⟩
  · next tried port hpc =>
    rw [hpc]
    split at h
    · next hzero =>
      cases h
      exact ⟨_, _, .claimClient tried port hzero, rfl, rfl, rfl, .inl rfl, .inl rfl⟩
    split at h
    · next howner =>
      cases h
      exact ⟨_, _, .ownClient tried port howner, rfl, rfl, rfl, .inl rfl, .inl rfl⟩
    cases h
    exact ⟨_, _, .foreignClient tried port, rfl, rfl, rfl, .inl rfl, .inl rfl⟩

theorem bind_moves {result : Bind} (h : s.bind w result = some s') :
    ∃ claim pc, Move s w (s.pc w) claim pc ∧ Moved s w claim pc s' := by
  rw [bind] at h
  split at h
  · next port hpc =>
    rw [hpc]
    split at h
    · cases h
      exact ⟨_, _, .listenDone port, rfl, rfl, rfl, .inr ⟨port, hpc, rfl⟩, .inl rfl⟩
    cases h
    exact ⟨_, _, .listenDone port, rfl, rfl, rfl, .inl rfl, .inl rfl⟩
  · next tried port hpc =>
    rw [hpc]
    split at h
    · cases h
      exact ⟨_, _, .clientDone tried port, rfl, rfl, rfl, .inl rfl, .inr ⟨tried, port, hpc, rfl⟩⟩
    · cases h
      exact ⟨_, _, .clientRetry tried port, rfl, rfl, rfl, .inl rfl, .inl rfl⟩
    · cases h
      exact ⟨_, _, .clientDone tried port, rfl, rfl, rfl, .inl rfl, .inl rfl⟩
  · cases h

variable {port : Nat}

/-- The steps of the set-up change nothing once it is complete. -/
theorem configure_eq_self {workers : List Nat} (h : s.prepared = true) :
    s.configureListenerWorkers port workers = s := by
  rw [configureListenerWorkers, if_pos (.inl h)]

theorem prepare_eq_self {workers : Nat} {rss ok : Bool} (h : s.prepared = true) :
    s.prepareRuntime maxWorkers workers rss ok = s := by
  rw [prepareRuntime]
  split
  · rfl
  · rw [if_pos (.inl h)]

/-- **What a step can do**: a worker moves, or the tables are being set up. -/
theorem step_cases (h : s.step maxWorkers a = some s') :
    (∃ w claim pc, Move s w (s.pc w) claim pc ∧ Moved s w claim pc s') ∨
    (∃ port workers, s' = s.configureListenerWorkers port workers) ∨
    (∃ workers rss ok, s' = s.prepareRuntime maxWorkers workers rss ok) := by
  cases a with
  | configure port workers => exact .inr (.inl ⟨port, workers, (some.inj h).symm⟩)
  | prepare workers rss ok => exact .inr (.inr ⟨workers, rss, ok, (some.inj h).symm⟩)
  | listen w port =>
    simp only [step] at h
    refine of_guard h fun hguard => ?_
    refine .inl ⟨w, none, .listen port, ?_, rfl, rfl, rfl, .inl rfl, .inl rfl⟩
    rw [hguard.2.2]
    exact .beginListen port hguard.1 hguard.2.1
  | openClient w =>
    simp only [step] at h
    refine of_guard h fun hguard => ?_
    refine .inl ⟨w, none, .client 0, ?_, rfl, rfl, rfl, .inl rfl, .inl rfl⟩
    rw [hguard.2.2]
    exact .beginClient hguard.1 hguard.2.1
  | advance w => exact .inl ⟨w, advance_moves h⟩
  | bind w result => exact .inl ⟨w, bind_moves h⟩

/-! ## Owners stay -/

/-- What never changes again. -/
structure Keeps (s s' : Fabric) : Prop where
  owners : ∀ port, s.tables.portOwners port ≠ 0 →
    s'.tables.portOwners port = s.tables.portOwners port
  tables : s.prepared = true → s'.prepared = true ∧ s'.tables.workers = s.tables.workers ∧
    s'.tables.listenerWorkers = s.tables.listenerWorkers
  clients : ∀ x ∈ s.clients, x ∈ s'.clients

theorem Keeps.refl (s : Fabric) : Keeps s s :=
  ⟨fun _ _ => rfl, fun h => ⟨h, rfl, rfl⟩, fun _ h => h⟩

theorem Keeps.trans {s₁ s₂ s₃ : Fabric} (h : Keeps s₁ s₂) (h' : Keeps s₂ s₃) : Keeps s₁ s₃ where
  owners port hne := by
    have hfirst := h.owners port hne
    rw [h'.owners port (by rw [hfirst]; exact hne), hfirst]
  tables hprepared := by
    obtain ⟨hp, hw, hl⟩ := h.tables hprepared
    obtain ⟨hp', hw', hl'⟩ := h'.tables hp
    exact ⟨hp', hw'.trans hw, hl'.trans hl⟩
  clients x hx := h'.clients x (h.clients x hx)

/-- A port is given an owner only while it has none. -/
theorem Move.free {pc pc' : PortPc} {owner : Nat} (h : Move s w pc (some (port, owner)) pc') :
    s.tables.portOwners port = 0 := by
  cases h <;> assumption

variable {claim : Option (Nat × Nat)}

theorem Moved.keeps {pc : PortPc} (hmove : Move s w (s.pc w) claim pc)
    (h : Moved s w claim pc s') : Keeps s s' where
  owners port hne := by
    rw [h.tables]
    rcases claim with _ | x
    · rfl
    have hfree := hmove.free
    refine update_of_ne (fun heq => ?_) _ _
    rw [heq] at hne
    exact hne hfree
  tables hprepared := by
    rw [h.prepared, h.tables]
    cases claim <;> exact ⟨hprepared, rfl, rfl⟩
  clients x hx := by
    rcases h.clients with heq | ⟨_, _, _, heq⟩
    · rwa [heq]
    rw [heq]
    exact mem_append_left _ hx

theorem configure_keeps (port : Nat) (workers : List Nat) :
    Keeps s (s.configureListenerWorkers port workers) := by
  by_cases hprepared : s.prepared = true
  · rw [configure_eq_self hprepared]
    exact .refl s
  rw [configureListenerWorkers]
  split
  · exact .refl s
  split
  · exact .refl s
  · exact ⟨fun _ _ => rfl, fun h => absurd h hprepared, fun _ h => h⟩

theorem prepare_keeps (workers : Nat) (rss ok : Bool) :
    Keeps s (s.prepareRuntime maxWorkers workers rss ok) := by
  by_cases hprepared : s.prepared = true
  · rw [prepare_eq_self hprepared]
    exact .refl s
  rw [prepareRuntime]
  split
  · exact .refl s
  split
  · exact .refl s
  · exact ⟨fun _ _ => rfl, fun h => absurd h hprepared, fun _ h => h⟩

theorem step_keeps (h : s.step maxWorkers a = some s') : Keeps s s' := by
  rcases step_cases h with ⟨w, claim, pc, hmove, hmoved⟩ | ⟨port, workers, rfl⟩ |
    ⟨workers, rss, ok, rfl⟩
  · exact hmoved.keeps hmove
  · exact configure_keeps port workers
  · exact prepare_keeps workers rss ok

/-- The port is in the stripe of worker `w`, and not a configured listener port. -/
def InStripe (t : Tables) (w port : Nat) : Prop :=
  t.placement port = none ∧ ∃ k, port = stripePort t.workers w k

/-- What a thread knows where it is. -/
def PcOk (t : Tables) (w : Nat) : PortPc → Prop
  | .outside => True
  | .listen _ | .client _ => w < t.workers
  | .bsdListen port => w < t.workers ∧ t.portOwners port = listenerPortOwner
  | .claim _ port => w < t.workers ∧ InStripe t w port
  | .bsdClient _ port => w < t.workers ∧ InStripe t w port ∧ t.portOwners port = w + 1

/-- Whose the port is. -/
def OwnerOk (t : Tables) (port : Nat) : Prop :=
  t.portOwners port = 0 ∨ t.portOwners port = listenerPortOwner ∨
    ∃ w, w < t.workers ∧ t.portOwners port = w + 1 ∧ InStripe t w port

/-- What the tables, the owners and the threads agree on. -/
structure Inv (maxWorkers : Nat) (s : Fabric) : Prop where
  nonempty : ∀ e ∈ s.tables.listenerWorkers, e.2 ≠ []
  ready : s.prepared = true → 0 < s.tables.workers ∧ s.tables.workers ≤ maxWorkers ∧
    ∀ e ∈ s.tables.listenerWorkers, ∀ id ∈ e.2, id < s.tables.workers
  idle : s.prepared = false → (∀ w, s.pc w = .outside) ∧ (∀ port, s.tables.portOwners port = 0) ∧
    s.listeners = [] ∧ s.clients = []
  owners : ∀ port, OwnerOk s.tables port
  threads : ∀ w, PcOk s.tables w (s.pc w)
  listeners : ∀ x ∈ s.listeners, s.tables.portOwners x.2 = listenerPortOwner
  clients : ∀ x ∈ s.clients, x.1 < s.tables.workers ∧ InStripe s.tables x.1 x.2 ∧
    s.tables.portOwners x.2 = x.1 + 1

theorem inv_fresh : Inv maxWorkers fresh where
  nonempty _ h := absurd h not_mem_nil
  ready h := by cases h
  idle _ := ⟨fun _ => rfl, fun _ => rfl, rfl, rfl⟩
  owners _ := .inl rfl
  threads _ := trivial
  listeners _ h := absurd h not_mem_nil
  clients _ h := absurd h not_mem_nil

variable {t : Tables}

/-- While nothing is prepared, the tables may change. -/
theorem Inv.of_idle {prepared : Bool} (hinv : Inv maxWorkers s)
    (hidle : s.prepared = false) (howners : t.portOwners = s.tables.portOwners)
    (hnonempty : ∀ e ∈ t.listenerWorkers, e.2 ≠ [])
    (hready : prepared = true → 0 < t.workers ∧ t.workers ≤ maxWorkers ∧
      ∀ e ∈ t.listenerWorkers, ∀ id ∈ e.2, id < t.workers) :
    Inv maxWorkers { s with tables := t, prepared := prepared } := by
  obtain ⟨hpc, hzero, hlisteners, hclients⟩ := hinv.idle hidle
  have hzero' : ∀ port, t.portOwners port = 0 := by
    intro port
    rw [howners]
    exact hzero port
  refine ⟨hnonempty, hready, fun _ => ⟨hpc, hzero', hlisteners, hclients⟩, fun port =>
    .inl (hzero' port), fun w => ?_, fun x hx => ?_, fun x hx => ?_⟩
  · show PcOk t w (s.pc w)
    rw [hpc w]
    trivial
  · change x ∈ s.listeners at hx
    rw [hlisteners] at hx
    exact absurd hx not_mem_nil
  · change x ∈ s.clients at hx
    rw [hclients] at hx
    exact absurd hx not_mem_nil

theorem configure_inv (hinv : Inv maxWorkers s) (port : Nat) (workers : List Nat) :
    Inv maxWorkers (s.configureListenerWorkers port workers) := by
  rw [configureListenerWorkers]
  split
  · exact hinv
  rename_i hguard
  obtain ⟨hprepared, hworkers⟩ := not_or.mp hguard
  have hidle : s.prepared = false := eq_false_iff.mpr hprepared
  split
  · exact hinv
  refine hinv.of_idle hidle rfl ?_ fun h => absurd h hprepared
  intro e he
  rcases mem_append.mp he with hold | hnew
  · exact hinv.nonempty e hold
  rw [mem_singleton.mp hnew]
  exact hworkers

theorem prepare_inv (hinv : Inv maxWorkers s) (workers : Nat) (rss ok : Bool) :
    Inv maxWorkers (s.prepareRuntime maxWorkers workers rss ok) := by
  rw [prepareRuntime]
  split
  · exact hinv
  rename_i hvalid
  split
  · exact hinv
  rename_i hguard
  obtain ⟨hprepared, hzero, hmax⟩ := not_or.mp hguard |>.imp id not_or.mp
  refine hinv.of_idle (eq_false_iff.mpr hprepared) rfl hinv.nonempty fun _ => ?_
  refine ⟨Nat.pos_of_ne_zero hzero, Nat.not_lt.mp hmax, fun e he id hid => ?_⟩
  by_contra hge
  refine hvalid (List.any_eq_true.mpr ⟨e, he, List.any_eq_true.mpr ⟨id, hid, ?_⟩⟩)
  exact decide_eq_true (Nat.not_lt.mp hge)

/-- The tables behind a claim. -/
def claimed (t : Tables) : Option (Nat × Nat) → Tables
  | none => t
  | some (port, owner) => { t with portOwners := Function.update t.portOwners port owner }

theorem Moved.tables_eq {pc : PortPc} (h : Moved s w claim pc s') :
    s'.tables = claimed s.tables claim := by
  rw [h.tables]
  cases claim <;> rfl

theorem inStripe_claimed {w : Nat} : InStripe (claimed t claim) w port ↔ InStripe t w port := by
  cases claim <;> exact .rfl

theorem workers_claimed (t : Tables) (claim : Option (Nat × Nat)) :
    (claimed t claim).workers = t.workers := by
  cases claim <;> rfl

theorem lt_workers_claimed {w : Nat} (h : w < t.workers) : w < (claimed t claim).workers := by
  rw [workers_claimed]
  exact h

section Moving

variable {claim : Option (Nat × Nat)} {pc pc' : PortPc} {port : Nat}

theorem Move.owner_claimed (h : Move s w pc claim pc') (hne : s.tables.portOwners port ≠ 0) :
    (claimed s.tables claim).portOwners port = s.tables.portOwners port := by
  rcases claim with _ | x
  · rfl
  have hfree := h.free
  refine update_of_ne (fun heq => ?_) _ _
  rw [heq] at hne
  exact hne hfree

theorem listenerPortOwner_ne_zero : listenerPortOwner ≠ 0 := by decide

section

variable (h : Move s w pc claim pc')
include h

/-- What the other threads know stays true. -/
theorem Move.pcOk_other {v : Nat} {q : PortPc}
    (hq : PcOk s.tables v q) : PcOk (claimed s.tables claim) v q := by
  cases q with
  | outside => trivial
  | listen port | client tried => exact lt_workers_claimed hq
  | bsdListen port =>
    refine ⟨lt_workers_claimed hq.1, ?_⟩
    rw [h.owner_claimed (by rw [hq.2]; exact listenerPortOwner_ne_zero), hq.2]
  | claim tried port => exact ⟨lt_workers_claimed hq.1, inStripe_claimed.mpr hq.2⟩
  | bsdClient tried port =>
    refine ⟨lt_workers_claimed hq.1, inStripe_claimed.mpr hq.2.1, ?_⟩
    rw [h.owner_claimed (by rw [hq.2.2]; exact Nat.succ_ne_zero v), hq.2.2]

/-- What the moving thread knows behind its step. -/
theorem Move.pcOk (hpc : PcOk s.tables w pc) : PcOk (claimed s.tables claim) w pc' := by
  cases h with
  | beginListen port _ hw => exact hw
  | beginClient _ hw => exact hw
  | claimListen port _ => exact ⟨hpc, update_self _ _ _⟩
  | sharedListen port howner => exact ⟨hpc, howner⟩
  | refusedListen | exhausted | listenDone | clientDone => trivial
  | configured => exact hpc
  | candidate tried k hfree => exact ⟨hpc, hfree, k, rfl⟩
  | claimClient tried port _ => exact ⟨hpc.1, hpc.2, update_self _ _ _⟩
  | ownClient tried port howner => exact ⟨hpc.1, hpc.2, howner⟩
  | foreignClient => exact hpc.1
  | clientRetry => exact hpc.1

/-- What the port of a claim becomes. -/
theorem Move.ownerOk (hpc : PcOk s.tables w pc)
    (howners : ∀ port, OwnerOk s.tables port) (port : Nat) :
    OwnerOk (claimed s.tables claim) port := by
  have hsame : (claimed s.tables claim).portOwners port = s.tables.portOwners port →
      OwnerOk (claimed s.tables claim) port := by
    intro heq
    rw [OwnerOk, heq, workers_claimed]
    simp only [inStripe_claimed]
    exact howners port
  cases h with
  | claimListen p hzero =>
    by_cases hp : port = p
    · rw [hp]
      exact .inr (.inl (update_self _ _ _))
    · exact hsame (update_of_ne hp _ _)
  | claimClient tried p hzero =>
    by_cases hp : port = p
    · rw [hp]
      exact .inr (.inr ⟨w, hpc.1, update_self _ _ _, hpc.2⟩)
    · exact hsame (update_of_ne hp _ _)
  | _ => exact hsame rfl

end

/-- A thread moves only once everything is prepared. -/
theorem Move.prepared_of (h : Move s w (s.pc w) claim pc') (hinv : Inv maxWorkers s) :
    s.prepared = true := by
  by_contra hnot
  have hout := (hinv.idle (eq_false_iff.mpr hnot)).1 w
  rw [hout] at h
  cases h <;> exact hnot (by assumption)

theorem moved_inv (hinv : Inv maxWorkers s) (hmove : Move s w (s.pc w) claim pc')
    (h : Moved s w claim pc' s') : Inv maxWorkers s' := by
  have hprepared := hmove.prepared_of hinv
  have hready := hinv.ready hprepared
  have htables := h.tables_eq
  have hlists : (claimed s.tables claim).listenerWorkers = s.tables.listenerWorkers := by
    cases claim <;> rfl
  have hpc := hinv.threads w
  refine ⟨?_, fun _ => ?_, fun hidle => ?_, ?_, fun v => ?_, fun x hx => ?_, fun x hx => ?_⟩
  · rw [htables, hlists]
    exact hinv.nonempty
  · rw [htables, hlists, workers_claimed]
    exact hready
  · rw [h.prepared, hprepared] at hidle
    cases hidle
  · rw [htables]
    exact hmove.ownerOk hpc hinv.owners
  · rw [htables, h.pcs]
    by_cases hv : v = w
    · rw [hv, update_self]
      exact hmove.pcOk hpc
    rw [update_of_ne hv]
    exact hmove.pcOk_other (hinv.threads v)
  · -- the new listener socket is the one whose port the thread has claimed
    have howner : s.tables.portOwners x.2 = listenerPortOwner := by
      rcases h.listeners with heq | ⟨port, hat, heq⟩
      · rw [heq] at hx
        exact hinv.listeners x hx
      rw [heq] at hx
      rcases mem_append.mp hx with hold | hnew
      · exact hinv.listeners x hold
      rw [mem_singleton.mp hnew]
      rw [hat] at hpc
      exact hpc.2
    rw [htables, hmove.owner_claimed (by rw [howner]; exact listenerPortOwner_ne_zero), howner]
  · have hold : x.1 < s.tables.workers ∧ InStripe s.tables x.1 x.2 ∧
        s.tables.portOwners x.2 = x.1 + 1 := by
      rcases h.clients with heq | ⟨tried, port, hat, heq⟩
      · rw [heq] at hx
        exact hinv.clients x hx
      rw [heq] at hx
      rcases mem_append.mp hx with hold | hnew
      · exact hinv.clients x hold
      rw [mem_singleton.mp hnew]
      rw [hat] at hpc
      exact hpc
    rw [htables, workers_claimed, inStripe_claimed,
      hmove.owner_claimed (by rw [hold.2.2]; exact Nat.succ_ne_zero x.1)]
    exact hold

end Moving

theorem reachable_inv (hs : (system maxWorkers).Reachable s) : Inv maxWorkers s := by
  refine Reachable.invariant (fun s hs => ?_) (fun s a s' hinv hstep => ?_) hs
  · cases hs
    exact inv_fresh
  · rcases step_cases hstep with ⟨w, claim, pc, hmove, hmoved⟩ | ⟨port, workers, rfl⟩ |
      ⟨workers, rss, ok, rfl⟩
    · exact moved_inv hinv hmove hmoved
    · exact configure_inv hinv port workers
    · exact prepare_inv hinv workers rss ok

/-! ## Steering with the tables as they are built -/

theorem mem_of_placement {ids : List Nat}
    (h : t.placement port = some ids) : (port, ids) ∈ t.listenerWorkers := by
  rw [Tables.placement] at h
  obtain ⟨front, back, heq, _⟩ := List.lookup_eq_some_iff.mp h
  rw [heq]
  exact mem_append_right _ (.head _)

theorem Inv.built (hinv : Inv maxWorkers s) (hprepared : s.prepared = true) (owners : Nat → Nat) :
    Built { s.tables with portOwners := owners } := by
  obtain ⟨hpos, _, hvalid⟩ := hinv.ready hprepared
  refine ⟨hpos, fun port ids h => ?_, fun port ids h => ?_⟩
  · exact hinv.nonempty (port, ids) (mem_of_placement h)
  · exact hvalid (port, ids) (mem_of_placement h)

theorem Inv.encoded (hinv : Inv maxWorkers s) : Encoded s.tables := by
  intro port
  rcases hinv.owners port with hzero | hlistener | ⟨w, hw, howner, _⟩
  · exact .inr (by omega)
  · exact .inl hlistener
  · exact .inr (by omega)

/-- **Steering**, with any table of port owners; the one that is built has the encoding. -/
theorem reachable_steers (hs : (system maxWorkers).Reachable s) (hprepared : s.prepared = true)
    (hdistinct : Distinct s.tables) :
    (∀ owners, Steers { s.tables with portOwners := owners }) ∧ Encoded s.tables := by
  have hinv := reachable_inv hs
  exact ⟨fun owners => (hinv.built hprepared owners).steers hdistinct, hinv.encoded⟩

/-- A frame of a TCP SYN from 10.0.0.1:4096 to 10.0.0.2:80. -/
def synFrame : List UInt8 :=
  [0, 0, 0, 0, 0, 2, 0, 0, 0, 0, 0, 1, 8, 0, 69, 0, 0, 40, 0, 0, 0, 0, 64, 6, 0, 0, 10, 0,
    0, 1, 10, 0, 0, 2, 16, 0, 0, 80, 0, 0, 0, 0, 0, 0, 0, 0, 80, 2, 32, 0, 0, 0, 0, 0]

theorem synFrame_tcp : TcpFrame synFrame 20 where
  type := by decide
  version := ⟨69, by decide, by decide, by decide⟩
  header := by decide
  unfragmented := ⟨0, by decide, by decide⟩
  protocol := by decide
  complete := by decide

/-- Two workers, port 80 on both, RSS. -/
theorem steers_both_workers :
    ∃ s, (system 2).run fresh [.configure 80 [0, 1], .prepare 2 true true] = some s ∧
      s.prepared = true ∧ destination s.tables synFrame 1 = some 1 ∧
        (∀ owners, Steers { s.tables with portOwners := owners }) ∧ Encoded s.tables := by
  have hrun : ∃ s ∈ (system 2).run fresh [.configure 80 [0, 1], .prepare 2 true true],
      s.prepared = true ∧ destination s.tables synFrame 1 = some 1 ∧
        s.tables.listenerWorkers = [(80, [0, 1])] := by decide +kernel
  obtain ⟨s, hs, hprepared, hone, hlists⟩ := hrun
  have hdistinct : Distinct s.tables := by
    intro port ids h
    have hmem := mem_of_placement h
    rw [hlists] at hmem
    obtain ⟨_, rfl⟩ := Prod.mk.inj (mem_singleton.mp hmem)
    decide
  exact ⟨s, hs, hprepared, hone,
    reachable_steers (Reachable.run (.init rfl) _ hs) hprepared hdistinct⟩

/-- A list with a repetition as long as there are workers: RSS takes it for all of them. -/
theorem repeated_worker_missteers :
    ∃ s, (system 2).Reachable s ∧ s.prepared = true ∧ s.tables.workers = 2 ∧
      s.tables.placement 80 = some [0, 0] ∧ TcpFrame synFrame 20 ∧
        read16 synFrame (16 + 20) = some 80 ∧ destination s.tables synFrame 1 = some 1 := by
  have hrun : ∃ s ∈ (system 2).run fresh [.configure 80 [0, 0], .prepare 2 true true],
      s.prepared = true ∧ s.tables.workers = 2 ∧ s.tables.placement 80 = some [0, 0] ∧
        read16 synFrame (16 + 20) = some 80 ∧ destination s.tables synFrame 1 = some 1 := by
    decide +kernel
  obtain ⟨s, hs, hprepared, hworkers, hplacement, hport, hone⟩ := hrun
  exact ⟨s, Reachable.run (.init rfl) _ hs, hprepared, hworkers, hplacement, synFrame_tcp, hport,
    hone⟩

/-! ## Stripes -/

section Stripes

variable {workers v : Nat}

theorem stripePort_inside (hw : w < workers) (hmax : workers ≤ 1023) (k : Nat) :
    clientPortFirst ≤ stripePort workers w k ∧ stripePort workers w k ≤ clientPortLast := by
  have hk : k % stripe workers w ≤ (clientPortLast - clientPortFirst - w) / workers :=
    Nat.le_of_lt_succ (Nat.mod_lt _ (Nat.succ_pos _))
  have hspan : k % stripe workers w * workers ≤ clientPortLast - clientPortFirst - w :=
    Nat.le_trans (Nat.mul_le_mul_right workers hk) (Nat.div_mul_le_self _ _)
  have hfirst : clientPortFirst = 32768 := rfl
  have hlast : clientPortLast = 60999 := rfl
  rw [stripePort]
  omega

/-- The ports of a stripe agree modulo the number of workers. -/
theorem stripePort_mod (hw : w < workers) (k : Nat) :
    (stripePort workers w k - clientPortFirst) % workers = w := by
  rw [stripePort, Nat.add_assoc, Nat.add_sub_cancel_left, Nat.add_mul_mod_self_right,
    Nat.mod_eq_of_lt hw]

end Stripes

/-! ## The ports -/

section Search

variable {t : Tables} {c n : Nat}

/-- The loop of `OpenClient` with `n` turns left and the counter at `next`: the answer and the ports
    that it considered.  `answers` says what each turn meets: another owner (`none`), or the
    bind. -/
def search (t : Tables) (w : Nat) (answers : Nat → Option Bind) : Nat → Nat → Bind × List Nat
  | 0, _ => (.addressInUse, [])
  | n + 1, next =>
    let port := stripePort t.workers w next
    let rest := search t w answers n ((next + 1) % 2 ^ 32)
    if (t.placement port).isSome then rest
    else match answers n with
      | none | some .addressInUse => (rest.1, port :: rest.2)
      | some result => (result, [port])

/-- The ports that come up in `n` turns, without the configured listener ports. -/
def turns (t : Tables) (w c n : Nat) : List Nat :=
  ((List.range n).map fun i => stripePort t.workers w ((c + i) % 2 ^ 32)).filter
    fun port => (t.placement port).isNone

theorem turns_succ (hc : c < 2 ^ 32) : turns t w c (n + 1) =
    [stripePort t.workers w c].filter (fun port => (t.placement port).isNone) ++
      turns t w ((c + 1) % 2 ^ 32) n := by
  have hshift : ∀ i, ((c + 1) % 2 ^ 32 + i) % 2 ^ 32 = (c + (i + 1)) % 2 ^ 32 := by omega
  simp only [turns, hshift, List.range_succ_eq_map, map_cons, List.map_map, Nat.add_zero,
    Nat.mod_eq_of_lt hc, ← filter_append]
  rfl

/-- A search considers its turns up to the one that ends it. -/
theorem search_turns (answers : Nat → Option Bind) : ∀ {n c}, c < 2 ^ 32 →
    (search t w answers n c).2 <+: turns t w c n ∧
      ((search t w answers n c).1 = .addressInUse → (search t w answers n c).2 = turns t w c n)
  | 0, c, _ => ⟨⟨_, rfl⟩, fun _ => rfl⟩
  | n + 1, c, hc => by
    have ih := search_turns answers (n := n) (Nat.mod_lt (c + 1) (Nat.two_pow_pos 32))
    rw [turns_succ hc, search]
    split
    · next hsome =>
      rw [List.filter_cons_of_neg (by simpa using Option.isSome_iff_ne_none.mp hsome)]
      exact ih
    rename_i hnone
    rw [List.filter_cons_of_pos (by simpa using hnone)]
    split
    · exact ⟨List.prefix_cons_inj _ |>.mpr ih.1, fun h => congrArg _ (ih.2 h)⟩
    · exact ⟨List.prefix_cons_inj _ |>.mpr ih.1, fun h => congrArg _ (ih.2 h)⟩
    · next hne _ => exact ⟨⟨_, rfl⟩, fun h => absurd h (by rintro rfl; exact hne rfl)⟩

theorem mem_turns : port ∈ turns t w c n ↔
    (∃ i < n, stripePort t.workers w ((c + i) % 2 ^ 32) = port) ∧ t.placement port = none := by
  rw [turns, mem_filter, mem_map, Option.isNone_iff_eq_none]
  simp only [mem_range]

/-- Where a search is that worker `w` began with its counter at `c`: the turns that have begun have
    taken one value of the counter each, and the port in hand is the one of the current turn. -/
def Searching (w c : Nat) (s : Fabric) : Prop :=
  match s.pc w with
  | .client tried => s.nextClientPort w = (c + tried) % 2 ^ 32
  | .claim tried port | .bsdClient tried port =>
    s.nextClientPort w = (c + (tried + 1)) % 2 ^ 32 ∧ tried < stripe s.tables.workers w ∧
      port = stripePort s.tables.workers w ((c + tried) % 2 ^ 32) ∧ s.tables.placement port = none
  | _ => True

/-- What a search reads. -/
def searched (w : Nat) (s : Fabric) :=
  (s.pc w, s.nextClientPort w, s.tables.workers, s.tables.listenerWorkers)

theorem Searching.congr (h : s.Searching w c) (heq : s'.searched w = s.searched w) :
    s'.Searching w c := by
  simp only [searched, Prod.mk.injEq] at heq
  obtain ⟨hpc, hnext, hworkers, hlisteners⟩ := heq
  unfold Searching Tables.placement at *
  rwa [hpc, hnext, hworkers, hlisteners]

/-- The steps of another worker do not touch it. -/
theorem other_searched {v : Nat} (hv : w ≠ v)
    (hs : s.advance v = some s' ∨ ∃ result, s.bind v result = some s') :
    s'.searched w = s.searched w := by
  rcases hs with hs | ⟨result, hs⟩
  · unfold advance at hs
    repeat' split at hs
    all_goals cases hs
    all_goals simp [searched, setPc, setOwner, nextPort, update_of_ne hv]
  · unfold bind at hs
    repeat' split at hs
    all_goals cases hs
    all_goals simp [searched, setPc, update_of_ne hv]

theorem advance_searching (h : s.Searching w c) (hs : s.advance w = some s') :
    s'.Searching w c := by
  unfold Searching at h
  unfold advance at hs
  split at hs
  · cases hs
  · cases hs
  · cases hs
  · repeat' split at hs
    all_goals cases hs
    all_goals simp [Searching, setPc]
  · rename_i tried hpc
    simp only [hpc] at h
    have hnext : (s.nextClientPort w + 1) % 2 ^ 32 = (c + (tried + 1)) % 2 ^ 32 := by omega
    split at hs
    · rename_i hlt
      split at hs
      · cases hs
        simpa [Searching, setPc, nextPort] using hnext
      · rename_i hnone
        cases hs
        have hplaced : s.tables.placement (s.candidate w) = none := by simpa using hnone
        simp only [Searching, setPc, nextPort, update_self]
        exact ⟨hnext, hlt, by rw [candidate, h], hplaced⟩
    · cases hs
      simp [Searching, setPc]
  · rename_i tried port hpc
    simp only [hpc] at h
    split at hs
    · cases hs
      simpa [Searching, setPc, setOwner, Tables.placement] using h
    split at hs
    · cases hs
      simpa [Searching, setPc] using h
    · cases hs
      simpa [Searching, setPc] using h.1

theorem bind_searching {result : Bind} (h : s.Searching w c) (hs : s.bind w result = some s') :
    s'.Searching w c := by
  unfold Searching at h
  unfold bind at hs
  split at hs
  · split at hs <;> cases hs <;> simp [Searching, setPc]
  · rename_i tried port hpc
    simp only [hpc] at h
    split at hs <;> cases hs
    · simp [Searching, setPc]
    · simpa [Searching, setPc] using h.1
    · simp [Searching, setPc]
  · cases hs

/-- **`search` is the loop that the threads run**: until worker `w` calls `OpenClient` again, the
    port that it holds in the turn `tried` of a search is the one of this turn of `search`, whatever
    the other workers do in between. -/
theorem step_searching (hprepared : s.prepared = true) (ha : a ≠ .openClient w)
    (h : s.Searching w c) (hs : s.step maxWorkers a = some s') : s'.Searching w c := by
  cases a with
  | configure port workers =>
    cases hs
    rwa [configure_eq_self hprepared]
  | prepare workers rss ok =>
    cases hs
    rwa [prepare_eq_self hprepared]
  | listen v port =>
    refine of_guard hs fun _ => ?_
    by_cases hv : w = v
    · subst hv
      simp [Searching, setPc]
    · exact h.congr (by simp [searched, setPc, update_of_ne hv])
  | openClient v =>
    refine of_guard hs fun _ => ?_
    have hv : w ≠ v := fun heq => ha (heq ▸ rfl)
    exact h.congr (by simp [searched, setPc, update_of_ne hv])
  | advance v =>
    by_cases hv : w = v
    · subst hv
      exact advance_searching h hs
    · exact h.congr (other_searched hv (.inl hs))
  | bind v result =>
    by_cases hv : w = v
    · subst hv
      exact bind_searching h hs
    · exact h.congr (other_searched hv (.inr ⟨result, hs⟩))

/-- In the run of a search, a port that is claimed is among the turns of `search`. -/
theorem run_claims_turns (labels : List Label) {u : Fabric} (hprepared : s.prepared = true)
    (hpc : s.pc w = .client 0) (hc : s.nextClientPort w = c) (hsmall : c < 2 ^ 32)
    (hown : .openClient w ∉ labels) (hrun : (system maxWorkers).run s labels = some u)
    {tried : Nat} (hclaim : u.pc w = .claim tried port) :
    port ∈ turns u.tables w c (stripe u.tables.workers w) := by
  have hstart : s.Searching w c := by
    simp only [Searching, hpc, hc, Nat.add_zero, Nat.mod_eq_of_lt hsmall]
  have hend : u.prepared = true ∧ u.Searching w c := by
    clear hpc hc hclaim
    induction labels generalizing s with
    | nil =>
      cases hrun
      exact ⟨hprepared, hstart⟩
    | cons a labels ih =>
      obtain ⟨s', hs, hrest⟩ := bind_eq_some_iff.mp hrun
      rw [mem_cons, not_or] at hown
      exact ih ((step_keeps hs).tables hprepared).1 hown.2 hrest
        (step_searching hprepared (Ne.symm hown.1) hstart hs)
  have hsearch := hend.2
  rw [Searching, hclaim] at hsearch
  obtain ⟨-, hlt, rfl, hnone⟩ := hsearch
  exact mem_turns.mpr ⟨⟨tried, hlt, rfl⟩, hnone⟩

/-- A wrap that is not within the search, or falls between two rounds, is not seen modulo `n`. -/
theorem counter_mod (hc : c + n ≤ 2 ^ 32 ∨ n ∣ 2 ^ 32) {i : Nat} (hi : i < n) :
    (c + i) % 2 ^ 32 % n = (c + i) % n := by
  rcases hc with hle | hdvd
  · rw [Nat.mod_eq_of_lt (Nat.lt_of_lt_of_le (Nat.add_lt_add_left hi c) hle)]
  · exact Nat.mod_mod_of_dvd _ hdvd

section

variable (hw : w < t.workers) (hc : c + stripe t.workers w ≤ 2 ^ 32 ∨ stripe t.workers w ∣ 2 ^ 32)
include hw hc

theorem turns_nodup : (turns t w c (stripe t.workers w)).Nodup := by
  refine (List.nodup_range.map_on fun i hi j hj heq => ?_).filter _
  have hi := mem_range.mp hi
  have hj := mem_range.mp hj
  have hmod := Nat.eq_of_mul_eq_mul_right (Nat.zero_lt_of_lt hw) (Nat.add_left_cancel heq)
  rw [counter_mod hc hi, counter_mod hc hj] at hmod
  have hij := Nat.sub_mod_eq_zero_of_mod_eq hmod
  have hji := Nat.sub_mod_eq_zero_of_mod_eq hmod.symm
  rw [Nat.add_sub_add_left, Nat.mod_eq_of_lt (by omega)] at hij hji
  omega

/-- A port of the range with the right rest comes up. -/
theorem mem_turns_stripe (hfirst : clientPortFirst ≤ port) (hlast : port ≤ clientPortLast)
    (hmod : (port - clientPortFirst) % t.workers = w) (hnone : t.placement port = none) :
    port ∈ turns t w c (stripe t.workers w) := by
  have hdiv := Nat.div_add_mod (port - clientPortFirst) t.workers
  rw [hmod, Nat.mul_comm] at hdiv
  have hr : (port - clientPortFirst) / t.workers < stripe t.workers w := by
    refine Nat.lt_succ_of_le ?_
    rw [Nat.le_div_iff_mul_le (Nat.zero_lt_of_lt hw)]
    omega
  have hstart := Nat.mod_lt c (Nat.zero_lt_of_lt hr)
  obtain ⟨i, hi, hir⟩ := mem_map.mp (mem_cyclic hstart le_rfl hr)
  have hi := mem_range.mp hi
  refine mem_turns.mpr ⟨⟨i, hi, ?_⟩, hnone⟩
  rw [stripePort, counter_mod hc hi, ← Nat.mod_add_mod, hir]
  omega

end

/-- A counter that wraps within the search, between two ports of the stripe, comes to one index
    twice: the turn `r` behind another one, for the rest `r` of `2 ^ 32`, is at its index again. -/
theorem counter_collides (hwrap : 2 ^ 32 < c + n) (hdvd : ¬n ∣ 2 ^ 32) (hc : c < 2 ^ 32) :
    ∃ i < n, ∃ j < n, i ≠ j ∧ (c + i) % 2 ^ 32 % n = (c + j) % 2 ^ 32 % n := by
  have hpos : 0 < 2 ^ 32 % n := Nat.pos_of_ne_zero fun h => hdvd (Nat.dvd_of_mod_eq_zero h)
  have hlt : 2 ^ 32 % n < n := Nat.mod_lt _ (by omega)
  have hdiv := Nat.div_add_mod (2 ^ 32) n
  generalize 2 ^ 32 % n = r at hpos hlt hdiv
  -- the first turn whose `r`-th successor is behind the wrap
  obtain ⟨i, hi⟩ : ∃ i, i = 2 ^ 32 - c - r := ⟨_, rfl⟩
  refine ⟨i, by omega, i + r, by omega, by omega, ?_⟩
  have hbefore : (c + i) % 2 ^ 32 = c + i := Nat.mod_eq_of_lt (by omega)
  have hafter : (c + (i + r)) % 2 ^ 32 = c + (i + r) - 2 ^ 32 := by
    rw [Nat.mod_eq_sub_mod (by omega), Nat.mod_eq_of_lt (by omega)]
  have hsum : c + i = c + (i + r) - 2 ^ 32 + n * (2 ^ 32 / n) := by omega
  rw [hbefore, hafter, hsum, Nat.add_mul_mod_self_left]

/-- What the caller of `OpenClient` may expect of an answer and the ports considered for it: none
    twice, and behind `EADDRINUSE` every port of the stripe that is no configured listener's. -/
structure Complete (t : Tables) (w : Nat) (found : Bind × List Nat) : Prop where
  once : found.2.Nodup
  all : found.1 = .addressInUse → ∀ port, clientPortFirst ≤ port → port ≤ clientPortLast →
    (port - clientPortFirst) % t.workers = w → t.placement port = none → port ∈ found.2

/-- With no configured port and no success, a search considers all its turns. -/
theorem search_nothing (hnone : t.listenerWorkers = []) : ∀ n c,
    (search t w (fun _ => none) n c).1 = .addressInUse
  | 0, _ => rfl
  | n + 1, c => by
    have hp : ∀ port, t.placement port = none := fun port => by
      rw [Tables.placement, hnone]
      rfl
    rw [search, hp]
    exact search_nothing hnone n _

/-- Whatever the turns meet, the ports that a search considers are in the range and in the stripe.
    The searches of a worker from a counter are complete, for all tables and answers, if and only
    if the counter does not wrap within the search or wraps where a round of the stripe ends. -/
theorem search_complete {workers w c : Nat} (hw : w < workers) (hmax : workers ≤ 1023)
    (hc : c < 2 ^ 32) :
    (∀ (t : Tables) answers, t.workers = workers →
      ∀ port ∈ (search t w answers (stripe workers w) c).2, clientPortFirst ≤ port ∧
        port ≤ clientPortLast ∧ (port - clientPortFirst) % workers = w ∧
        t.placement port = none) ∧
    ((∀ (t : Tables) answers, t.workers = workers →
        Complete t w (search t w answers (stripe workers w) c)) ↔
      c + stripe workers w ≤ 2 ^ 32 ∨ stripe workers w ∣ 2 ^ 32) := by
  refine ⟨?_, ?_, ?_⟩
  · rintro t answers rfl port hport
    obtain ⟨⟨i, _, rfl⟩, hnone⟩ := mem_turns.mp ((search_turns answers hc).1.subset hport)
    have hinside := stripePort_inside hw hmax ((c + i) % 2 ^ 32)
    exact ⟨hinside.1, hinside.2, stripePort_mod hw _, hnone⟩
  · intro h
    by_contra hwrap
    obtain ⟨hlong, hdvd⟩ := not_or.mp hwrap
    let t : Tables := ⟨workers, false, [], fun _ => 0⟩
    have honce := (h t (fun _ => none) rfl).once
    rw [(search_turns (fun _ => none) hc).2 (search_nothing rfl _ _)] at honce
    obtain ⟨i, hi, j, hj, hij, hmod⟩ := counter_collides (Nat.not_le.mp hlong) hdvd hc
    have hall : turns t w c (stripe workers w) =
        (List.range (stripe workers w)).map fun i => stripePort workers w ((c + i) % 2 ^ 32) :=
      List.filter_eq_self.mpr fun _ _ => rfl
    rw [hall] at honce
    refine hij (List.inj_on_of_nodup_map honce (mem_range.mpr hi) (mem_range.mpr hj) ?_)
    rw [stripePort, stripePort, hmod]
  · rintro hwrap t answers rfl
    obtain ⟨hpart, hall⟩ := search_turns answers hc
    refine ⟨(turns_nodup hw hwrap).sublist hpart.sublist, ?_⟩
    intro hused port hfirst hlast hmod hnone
    rw [hall hused]
    exact mem_turns_stripe hw hwrap hfirst hlast hmod hnone

/-- Worker 1000 of 1023 has 27 ports, all of another owner.  The counter wraps behind the first
    turn: the last port does not come up, another one does twice. -/
theorem search_wraps_misses_port : let t : Tables := ⟨1023, false, [], fun _ => 1⟩
    let found := search t 1000 (fun _ => none) (stripe t.workers 1000) (2 ^ 32 - 1)
    found.1 = .addressInUse ∧ stripePort t.workers 1000 26 ∉ found.2 ∧ ¬ found.2.Nodup := by
  decide +kernel

theorem search_from_zero : let t : Tables := ⟨1023, false, [], fun _ => 1⟩
    let found := search t 1000 (fun _ => none) (stripe t.workers 1000) 0
    found.1 = .addressInUse ∧ found.2.Nodup ∧ stripePort t.workers 1000 26 ∈ found.2 := by
  have hall := (@search_complete 1023 1000 0 (by decide) (by decide) (by decide)).2.mpr
    (.inl (by decide)) ⟨1023, false, [], fun _ => 1⟩ (fun _ => none) rfl
  exact ⟨by decide +kernel, hall.once,
    hall.all (by decide +kernel) _ (by decide) (by decide) (by decide) rfl⟩

end Search

end Fabric

end Bycorf.Dpdk
