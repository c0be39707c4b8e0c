import Mathlib.Data.List.Basic
import Xflow.Lib.Run

/-!
# Instance pools of a module

A module keeps the instances of its configuration in a pool.  A caller picks the active pool, waits
there for an instance and gives it back after its evaluation.  A change of the configuration
installs a new pool and drains the old one, whose instances in use are torn down when they come
back: a caller that still waits there is served by nobody.
-/

namespace Xflow

open List Option Transition

/-- `activePool`, with the callers and goroutines that refer to it. -/
structure ActivePool where
  size : Nat
  free : Nat := size
  /-- The callers that picked the pool and have no instance. -/
  waiting : Nat := 0
  inUse : Nat := 0
  rebuilding : Nat := 0
  /-- The instances about to be sent to `free` by a goroutine that saw the pool active. -/
  parking : Nat := 0
  /-- What the drain still receives. -/
  draining : Nat := 0
  deriving DecidableEq

namespace ActivePool

inductive Action
  /-- `borrow` loads the active pool. -/
  | borrow
  | receive
  /-- The context of a waiting caller is done. -/
  | cancel
  | giveBack
  | doom
  | recyclePlanned
  /-- `newInstance` is done. -/
  | rebuilt
  | park
  | drain
  | drainTimeout
  deriving DecidableEq

/-- A step at a pool that is the active one or not. -/
def step (active : Bool) (p : ActivePool) : Action → Option ActivePool
  | .borrow => if active then some { p with waiting := p.waiting + 1 } else none
  | .receive =>
    if 0 < p.waiting ∧ 0 < p.free then
      some { p with waiting := p.waiting - 1, free := p.free - 1, inUse := p.inUse + 1 }
    else none
  | .cancel => if 0 < p.waiting then some { p with waiting := p.waiting - 1 } else none
  | .giveBack =>
    if 0 < p.inUse then
      some { p with inUse := p.inUse - 1, parking := p.parking + active.toNat }
    else none
  | .doom | .recyclePlanned =>
    if 0 < p.inUse then
      some { p with inUse := p.inUse - 1, rebuilding := p.rebuilding + active.toNat }
    else none
  | .rebuilt =>
    if 0 < p.rebuilding then
      some { p with rebuilding := p.rebuilding - 1, parking := p.parking + active.toNat }
    else none
  -- an instance that finds the channel full is torn down
  | .park =>
    if 0 < p.parking then
      some { p with parking := p.parking - 1, free := min (p.free + 1) p.size }
    else none
  | .drain =>
    if 0 < p.draining ∧ 0 < p.free then
      some { p with draining := p.draining - 1, free := p.free - 1 }
    else none
  | .drainTimeout => if 0 < p.draining then some { p with draining := 0 } else none

/-- A caller waits at the empty channel of the pool. -/
abbrev Blocked (p : ActivePool) : Prop :=
  0 < p.waiting ∧ p.free = 0

/-- A pool that was swapped out has an instance, free or about to be, for each caller who waits. -/
structure Served (p : ActivePool) : Prop where
  waiting : p.waiting ≤ p.free + p.parking
  all : p.free + p.inUse + p.rebuilding + p.parking ≤ p.size

/-- Every instance of an active pool is free or on its way back. -/
structure Full (p : ActivePool) : Prop where
  undrained : p.draining = 0
  all : p.free + p.inUse + p.rebuilding + p.parking = p.size
  pos : 0 < p.size

variable {p q : ActivePool} {a : Action}

theorem Full.step (h : p.Full) (next : p.step true a = some q) :
  q.Full
  := by
  obtain ⟨undrained, all, pos⟩ := h
  revert next
  fun_cases ActivePool.step true p a <;> rintro ⟨⟩ <;> constructor <;> simp at * <;> omega

theorem Served.step (h : p.Served) (spare : a = .drain → p.waiting < p.free + p.parking)
    (next : p.step false a = some q) :
  q.Served
  := by
  obtain ⟨waiting, all⟩ := h
  revert next
  fun_cases ActivePool.step false p a <;> rintro ⟨⟩ <;> constructor <;> simp at * <;> omega

end ActivePool

/-- `reactorEngine`: the active pool and those that were swapped out. -/
structure ReactorEngine where
  active : Option ActivePool := none
  retired : List ActivePool := []
  /-- The size of the pool that `swapConfig` builds under its mutex. -/
  building : Option Nat := none
  deriving DecidableEq

namespace ReactorEngine

inductive Action
  | active (a : ActivePool.Action)
  | retired (i : Nat) (a : ActivePool.Action)
  | swapConfig (size : Nat)
  /-- An instance of the new pool cannot be built. -/
  | reject
  /-- The new pool is swapped in, and the drain of the old one starts. -/
  | install
  deriving DecidableEq

def step (a : Action) (s : ReactorEngine) : Option ReactorEngine :=
  match a with
  | .active a => do
    let p ← s.active
    return { s with active := ← p.step true a }
  | .retired i a => do
    let p ← s.retired[i]?
    return { s with retired := s.retired.set i (← p.step false a) }
  | .swapConfig size =>
    if s.building = none ∧ 0 < size then some { s with building := size } else none
  | .reject => do
    let _ ← s.building
    return { s with building := none }
  | .install => do
    let size ← s.building
    return {
      active := some { size }
      retired := s.active.toList.map (fun p => { p with draining := p.size }) ++ s.retired }

/-- A pool is swapped out while it has an instance, free or about to be, for each caller who waits,
and its drain receives none of these. -/
def Attended (a : Action) (s : ReactorEngine) : Prop :=
  match a with
  | .install => ∀ p ∈ s.active, p.waiting ≤ p.free + p.parking
  | .retired i .drain => ∀ p ∈ s.retired[i]?, p.waiting < p.free + p.parking
  | _ => True

instance (a : Action) (s : ReactorEngine) : Decidable (Attended a s) := by
  unfold Attended
  split <;> infer_instance

/-- No evaluation, rebuild, swap or drain is in progress. -/
abbrev Quiet (s : ReactorEngine) : Prop :=
  s.building = none ∧ ∀ p ∈ s.active.toList ++ s.retired,
    p.inUse = 0 ∧ p.rebuilding = 0 ∧ p.parking = 0 ∧ p.draining = 0

structure Sound (s : ReactorEngine) : Prop where
  full : ∀ p ∈ s.active, p.Full
  served : ∀ p ∈ s.retired, p.Served
  sized : ∀ size ∈ s.building, 0 < size

variable {s t : ReactorEngine} {a : Action}

theorem Sound.step (h : s.Sound) (attended : Attended a s) (next : step a s = some t) :
  t.Sound
  := by
  cases a with simp only [ReactorEngine.step, bind, pure, bind_eq_some_iff, some.injEq] at next
  | active a =>
    obtain ⟨p, found, q, moved, rfl⟩ := next
    refine { h with full := ?_ }
    rintro _ ⟨⟩
    exact (h.full p found).step moved
  | retired i a =>
    obtain ⟨p, found, q, moved, rfl⟩ := next
    refine { h with served := fun r mem => ?_ }
    rcases mem_or_eq_of_mem_set mem with old | rfl
    · exact h.served r old
    · refine (h.served p (mem_of_getElem? found)).step ?_ moved
      rintro rfl
      exact attended p found
  | swapConfig size =>
    split at next
    · obtain ⟨⟩ := next
      refine { h with sized := ?_ }
      rintro _ ⟨⟩
      tauto
    · cases next
  | reject =>
    obtain ⟨_, _, rfl⟩ := next
    exact { h with sized := nofun }
  | install =>
    obtain ⟨size, built, rfl⟩ := next
    refine ⟨?_, fun p mem => ?_, nofun⟩
    · rintro _ ⟨⟩
      exact ⟨rfl, rfl, h.sized size built⟩
    · rcases mem_append.mp mem with old | old
      · obtain ⟨q, was, rfl⟩ := mem_map.mp old
        have was := mem_toList.mp was
        exact ⟨attended q was, Nat.le_of_eq (h.full q was).all⟩
      · exact h.served p old

/-- Where a pool that is swapped out keeps an instance for each caller who waits, nobody is blocked
once all is quiet, and at any time a retired pool has these instances, free or about to be, and some
instance of the active pool is free or on its way back. -/
theorem no_borrower_stranded (run : Run step Attended {} s) :
  (s.Quiet → ∀ p ∈ s.active.toList ++ s.retired, ¬ p.Blocked) ∧
    (∀ p ∈ s.retired, p.waiting ≤ p.free + p.parking) ∧
    ∀ p ∈ s.active, 0 < p.free + p.inUse + p.rebuilding + p.parking
  := by
  have h : s.Sound := run.invariant ⟨nofun, nofun, nofun⟩ fun a s t h attended => h.step attended
  refine ⟨fun quiet p mem ⟨waits, empty⟩ => ?_, fun p mem => (h.served p mem).waiting,
    fun p mem => ?_⟩
  · obtain ⟨unused, built, parked, -⟩ := quiet.2 p mem
    rcases mem_append.mp mem with active | retired
    · obtain ⟨-, all, pos⟩ := h.full p (mem_toList.mp active)
      omega
    · have := (h.served p retired).waiting
      omega
  · obtain ⟨-, all, pos⟩ := h.full p mem
    omega

/-- One caller evaluates and another one waits at a pool of one instance. -/
def Sample.one : List Action :=
  [.swapConfig 1, .install, .active .borrow, .active .receive, .active .borrow]

/-- The instance is about to be given back when the pool is swapped out, and the waiting caller
finds it there. -/
theorem given_back :
  ∃ s, Run step Attended {} s ∧ (s.Quiet ∧ ∃ p ∈ s.retired, p.waiting = 1) ∧
    ∀ p ∈ s.active.toList ++ s.retired, ¬ p.Blocked
  :=
  exists_guarded_run_and (Sample.one ++ [.active .giveBack, .swapConfig 1, .install,
      .retired 0 .park, .retired 0 .drainTimeout]) (by decide)
    fun _ run quiet => (no_borrower_stranded run).1 quiet.1

/-- The configuration changes meanwhile, and the instance is torn down. -/
theorem borrower_stranded :
  ∃ s, Run step (fun _ _ => True) {} s ∧ s.Quiet ∧ ∃ p ∈ s.retired, p.Blocked
  :=
  exists_run
    (Sample.one ++ [.swapConfig 1, .install, .retired 0 .giveBack, .retired 0 .drainTimeout])
    (by decide)

end ReactorEngine

end Xflow
