import Mathlib.Data.List.Sort
import Mathlib.Logic.Function.Basic
import Xflow.Control.Activation

/-!
# Reconciliation of entry activations

A pass over the activations first looks at those that have an owner (`reconcileExisting`), and
keeps, renews or fences it; then it looks for a runner for those that have none (`assignUnowned`).
It decides on the records and runners that it read at its beginning, and remembers between passes
since when an activation has no runner that matches and when one that failed may be tried again.

Every call of the store and every directive for a runner is recorded as an effect of the pass.
-/

namespace Xflow.Control

open Function List

/-- `activationRetryState`, as far as it schedules: an entry without a next attempt counts as none.
-/
structure RetryState where
  nextAttempt : Option Int := none
  delay : Int := 0
  deriving DecidableEq

/-- What a reconciler remembers between passes. -/
structure ReconcilerMemory where
  noMatchSince : EntryActivationKey → Option Int := fun _ => none
  retryBackoff : EntryActivationKey → RetryState := fun _ => {}

/-- The activation as a runner can report it (`deactivationInventoryKey`). -/
structure InventoryKey where
  workflowID : String
  workflowVersion : String
  entryUnitID : String
  replicaIndex : Nat
  deriving DecidableEq

/-- `logicalActivationKey`: what the replicas of one entry unit share. -/
structure LogicalActivationKey where
  ns : String
  workflowID : String
  workflowVersion : String
  entryUnitID : String
  deriving DecidableEq

/-- `deactivationInventoryKeyFromActivation`. -/
def EntryActivationKey.inventory (key : EntryActivationKey) : InventoryKey :=
  ⟨key.workflowID, key.workflowVersion, key.entryUnitID, key.replicaIndex⟩

/-- `logicalKeyOf`. -/
def EntryActivationKey.logical (key : EntryActivationKey) : LogicalActivationKey :=
  ⟨key.ns, key.workflowID, key.workflowVersion, key.entryUnitID⟩

/-- `hostedRunnerActivations`: what the runner last reported to host, and at which generation. -/
structure HostedRunnerActivations where
  session : String
  index : InventoryKey → Option Nat

theorem nodup_defaultNamespace : [defaultNamespace].Nodup := List.nodup_singleton _

/-- `EntryActivationReconcilerConfig`, with its defaults applied. -/
structure ReconcilerConfig where
  selector : SelectorPolicy := {}
  namespaces : List String := [defaultNamespace]
  /-- Duplicates are dropped when the reconciler is made. -/
  distinct : namespaces.Nodup := by decide
  leaseTTL : Int := 60 * 1000
  renewThreshold : Int := 20 * 1000
  leaseGrace : Int := 60 * 1000
  retryBackoffMin : Int := 10 * 1000
  retryBackoffMax : Int := 5 * 60 * 1000

/-- What a pass reads once: the runners that are live, and what they report to host.  `jitter` is
what becomes of a delay. -/
structure PassView where
  cfg : ReconcilerConfig
  live : List RunnerSnapshot
  hosted : String → Option HostedRunnerActivations := fun _ => none
  now : Int
  jitter : Int → Int := id

/-- What a pass does. -/
inductive Effect where
  | activate (runnerID sessionID : String) (key : EntryActivationKey) (generation : Nat)
  | deactivate (runnerID sessionID : String) (key : EntryActivationKey) (generation : Nat)
  | fence (key : EntryActivationKey) (generation : Nat)
  /-- A lease was extended. -/
  | renew (key : EntryActivationKey) (generation : Nat)
  /-- A claim won. -/
  | assign (runnerID sessionID : String) (key : EntryActivationKey) (generation : Nat)
  deriving DecidableEq

/-- The state that a pass changes.  `owners` are the runners that host a replica. -/
structure PassState where
  store : MemoryEntryActivationStore := {}
  memory : ReconcilerMemory := {}
  owners : List (LogicalActivationKey × String) := []
  effects : List Effect := []

namespace PassState

variable (s : PassState)

/-- A directive is delivered, or a call recorded. -/
def emit (effects : List Effect) : PassState := { s with effects := s.effects ++ effects }

/-- A runner hosts a replica. -/
def own (key : EntryActivationKey) (runnerID : String) : PassState :=
  { s with owners := (key.logical, runnerID) :: s.owners }

end PassState

namespace ReconcilerMemory

variable (m : ReconcilerMemory)

def recordActivationFailure (view : PassView) (key : EntryActivationKey) : ReconcilerMemory :=
  let old := (m.retryBackoff key).delay
  let delay := if 0 < old then min (old * 2) view.cfg.retryBackoffMax else view.cfg.retryBackoffMin
  let state : RetryState := { nextAttempt := some (view.now + view.jitter delay), delay := delay }
  { m with retryBackoff := update m.retryBackoff key state }

def retryBlocked (key : EntryActivationKey) (now : Int) : Bool :=
  (m.retryBackoff key).nextAttempt.any (now < ·)

def clearRetryBackoff (key : EntryActivationKey) : ReconcilerMemory :=
  { m with retryBackoff := update m.retryBackoff key {} }

def clearNoMatch (key : EntryActivationKey) : ReconcilerMemory :=
  { m with noMatchSince := update m.noMatchSince key none }

/-- `pruneNoMatch` and `pruneRetryBackoff`. -/
def prune (seen : List EntryActivationKey) : ReconcilerMemory where
  noMatchSince key := if key ∈ seen then m.noMatchSince key else none
  retryBackoff key := if key ∈ seen then m.retryBackoff key else {}

end ReconcilerMemory

/-! ### What the runners report -/

inductive HostedReportVerdict where
  | noEvidence
  | confirmed
  | missing
  deriving DecidableEq

namespace PassView

variable (view : PassView)

/-- The runner reports the activation at this generation or a later one. -/
def covers (report : HostedRunnerActivations) (act : EntryActivation) : Bool :=
  (report.index act.key.inventory).any (act.generation ≤ ·)

def verdictFor (act : EntryActivation) : HostedReportVerdict :=
  match view.hosted act.runnerID with
  | none => .noEvidence
  | some report =>
    if act.sessionID ≠ "" ∧ report.session ≠ act.sessionID then .noEvidence
    else if covers report act then .confirmed
    else .missing

/-- The runner reports in its current session to host the activation, and the activation is not
assigned to it. -/
def foreignHost (act : EntryActivation) (snap : RunnerSnapshot) : Bool :=
  (view.hosted snap.runnerID).any (fun report =>
    snap.sessionID ≠ "" ∧ report.session = snap.sessionID ∧
      (report.index act.key.inventory).isSome ∧
      ¬ (snap.runnerID = act.runnerID ∧ (act.sessionID = "" ∨ act.sessionID = report.session)))

def cleanupForeignHostedActivations (act : EntryActivation) (s : PassState) : PassState :=
  s.emit ((view.live.filter (view.foreignHost act)).map
    (fun snap => .deactivate snap.runnerID snap.sessionID act.key act.generation))

def redeliverMissingActivation (act : EntryActivation) (s : PassState) : PassState :=
  match view.verdictFor act, view.hosted act.runnerID, s.store.get act.key with
  | .missing, some report, some current =>
    if ¬ current.desired ∨ current.runnerID ≠ act.runnerID then s
    else if current.sessionID ≠ "" ∧ current.sessionID ≠ act.sessionID then s
    else if covers report current then s
    else if s.memory.retryBlocked act.key view.now then s
    else
      let session := if current.sessionID = "" then report.session else current.sessionID
      { s.emit [.activate current.runnerID session act.key current.generation] with
        memory := s.memory.recordActivationFailure view act.key }
  | _, _, _ => s

end PassView

/-! ### Fences -/

/-- `DeactivationObligation`, whose state is pending. -/
structure DeactivationObligation where
  runnerID : String
  sessionID : String := ""
  key : EntryActivationKey
  generation : Nat
  drainGeneration : Nat := 0
  deriving DecidableEq

def deactivationFenceObserved (act : EntryActivation) (obligation : DeactivationObligation) :
    Bool :=
  act.generation ≠ obligation.generation || act.runnerID ≠ obligation.runnerID ||
    (obligation.sessionID ≠ "" && act.sessionID ≠ "" && act.sessionID ≠ obligation.sessionID)

/-- The owner that a pending obligation is about is still there. -/
def fencePending (store : MemoryEntryActivationStore) (obligation : DeactivationObligation) :
    Bool :=
  (store.get obligation.key).any (fun act => ! deactivationFenceObserved act obligation)

/-- What the directory says when an owner is to be fenced. -/
inductive DrainAnswer where
  /-- The owner is not being drained. -/
  | none
  /-- The intent to clean up after the drain was stored, and the drain goes on. -/
  | ensured
  /-- The drain was resumed or superseded. -/
  | superseded
  /-- The directory failed. -/
  | failed
  /-- The directory failed after the fence. -/
  | unmarked
  deriving DecidableEq

/-- The directory lets the owner be fenced. -/
def DrainAnswer.settled : DrainAnswer → Bool
  | .none | .ensured => true
  | _ => false

/-- `Fence`, recorded. -/
def PassState.fence (s : PassState) (key : EntryActivationKey) (generation : Nat) : PassState :=
  { s with
    store := s.store.fence key generation
    effects := s.effects ++ [.fence key generation] }

/-- `fenceAndDeactivate`: the state, and the owner that the pass takes the activation to have. -/
def fenceAndDeactivate (answer : DrainAnswer) (act : EntryActivation) (sessionID : String)
    (s : PassState) : PassState × String :=
  let plain := (s.fence act.key act.generation).emit
    [.deactivate act.runnerID sessionID act.key act.generation]
  match answer with
  | .none => (plain, "")
  | .ensured => (s.fence act.key act.generation, "")
  | .superseded => if act.desired then (s, act.runnerID) else (plain, "")
  | .failed => (s, act.runnerID)
  | .unmarked => (s.fence act.key act.generation, act.runnerID)

namespace PassView

variable (view : PassView)

def currentSessionFor (runnerID recorded : String) : String :=
  if recorded ≠ "" then recorded
  else ((view.live.find? (·.runnerID = runnerID)).map (·.sessionID)).getD ""

def capabilitiesSatisfy (act : EntryActivation) (snap : RunnerSnapshot) : Bool :=
  (act.key.replicaIndex = 0 ||
    runnerHasFeature snap.capabilities act.nodeType "entry.activation.replica.v1") &&
  matchCapabilities snap.capabilities act.requirements

def runnerIsLive (runnerID : String) : Bool :=
  (view.live.find? (·.runnerID = runnerID)).any (view.cfg.selector.isLive · view.now)

def ownerSatisfiesDesired (act : EntryActivation) : Bool :=
  (act.assignedPackageHash = "" || act.assignedPackageHash = act.packageHash) &&
  (view.live.find? (·.runnerID = act.runnerID)).any (fun snap =>
    selectorMatches act.selector snap.labels && capabilitiesSatisfy act snap)

/-- The lease of the activation ran out. -/
def expired (act : EntryActivation) : Bool := act.leaseDeadline.any (· < view.now)

/-- The lease did not run out, or only a short time ago. -/
def revivable (act : EntryActivation) : Bool :=
  act.leaseDeadline.all (fun deadline =>
    view.now ≤ deadline || view.now - deadline ≤ view.cfg.leaseGrace)

/-- The lease is soon to run out. -/
def renewable (act : EntryActivation) : Bool :=
  act.leaseDeadline.any (· - view.now < view.cfg.renewThreshold)

/-- The owner keeps the activation. -/
def keeps (act : EntryActivation) (s : PassState) : Bool :=
  view.runnerIsLive act.runnerID && view.ownerSatisfiesDesired act &&
    (act.key.logical, act.runnerID) ∉ s.owners && view.revivable act

/-- The lease of an owner that is kept is extended when it is soon to run out. -/
def renewLease (act : EntryActivation) (s : PassState) : PassState :=
  if view.renewable act then
    let renewed := s.store.renew act.key act.generation (view.now + view.cfg.leaseTTL)
    { s with
      store := renewed.1
      effects := s.effects ++ if renewed.2 then [.renew act.key act.generation] else [] }
  else s

/-- An owner is kept. -/
def keepOwner (act : EntryActivation) (s : PassState) : PassState :=
  let owned := s.own act.key act.runnerID
  let cleared :=
    if view.verdictFor act = .missing then owned
    else { owned with memory := owned.memory.clearRetryBackoff act.key }
  view.renewLease act (view.redeliverMissingActivation act cleared)

/-- `reconcileExisting`: the state, and the owner that the pass takes the activation to have. -/
def reconcileExisting (answer : DrainAnswer) (act : EntryActivation) (s : PassState) :
    PassState × String :=
  let cleaned := view.cleanupForeignHostedActivations act s
  let session := view.currentSessionFor act.runnerID act.sessionID
  if act.runnerID = "" then (cleaned, "")
  else if ¬ act.desired then fenceAndDeactivate answer act session cleaned
  else if view.keeps act s then (view.keepOwner act cleaned, act.runnerID)
  else fenceAndDeactivate answer act session cleaned

/-! ### Assignments -/

/-- The runner can be chosen, whatever its labels are. -/
def eligible (act : EntryActivation) (s : PassState) (snap : RunnerSnapshot) : Bool :=
  (act.key.logical, snap.runnerID) ∉ s.owners && view.cfg.selector.isLive snap view.now &&
    canServeNamespace snap.namespaces act.key.ns && ! snap.full && capabilitiesSatisfy act snap

def chooseRunner (act : EntryActivation) (s : PassState) : Option RunnerSnapshot :=
  view.live.find? (fun snap => view.eligible act s snap && selectorMatches act.selector snap.labels)

def fallbackChooseRunner (act : EntryActivation) (s : PassState) :
    ReconcilerMemory × Option RunnerSnapshot :=
  match s.memory.noMatchSince act.key with
  | none =>
    ({ s.memory with
        noMatchSince := update s.memory.noMatchSince act.key (some view.now) }, none)
  | some firstSeen =>
    if view.now - firstSeen < view.cfg.selector.selectorEffectiveGrace then (s.memory, none)
    else
      match view.live.find? (view.eligible act s) with
      | some snap => (s.memory.clearNoMatch act.key, some snap)
      | none => (s.memory, none)

/-- The runner for an activation that has none: a runner that matches, or any other one once the
grace of a default selector is over. -/
def chosenRunner (act : EntryActivation) (s : PassState) :
    ReconcilerMemory × Option RunnerSnapshot :=
  match view.chooseRunner act s with
  | some snap => (s.memory.clearNoMatch act.key, some snap)
  | none =>
    if selectorIsDefault act.selector then view.fallbackChooseRunner act s else (s.memory, none)

def assignUnowned (act : EntryActivation) (s : PassState) : PassState :=
  if s.memory.retryBlocked act.key view.now then s
  else
    let chosen := view.chosenRunner act s
    match chosen.2 with
    | none => { s with memory := chosen.1 }
    | some snap =>
      let gen := act.generation + 1
      let assigned := s.store.assign act.key snap.runnerID snap.sessionID gen
        (view.now + view.cfg.leaseTTL)
      if assigned.2 then
        { s with
          store := assigned.1
          memory := chosen.1
          owners := (act.key.logical, snap.runnerID) :: s.owners
          effects := s.effects ++ [.assign snap.runnerID snap.sessionID act.key gen,
            .activate snap.runnerID snap.sessionID act.key gen] }
      else { s with memory := chosen.1 }

end PassView

/-! ### A pass -/

/-- `activationLess`, or the same. -/
def activationLe (a b : EntryActivation) : Prop :=
  if a.key.ns ≠ b.key.ns then a.key.ns < b.key.ns
  else if a.key.workflowID ≠ b.key.workflowID then a.key.workflowID < b.key.workflowID
  else if a.key.workflowVersion ≠ b.key.workflowVersion then
    a.key.workflowVersion < b.key.workflowVersion
  else if a.key.entryUnitID ≠ b.key.entryUnitID then a.key.entryUnitID < b.key.entryUnitID
  else a.key.replicaIndex ≤ b.key.replicaIndex

instance : DecidableRel activationLe := fun a b => by
  unfold activationLe
  infer_instance

/-- The activations of the namespaces of a reconciler, in order. -/
def ReconcilerConfig.activations (cfg : ReconcilerConfig) (store : MemoryEntryActivationStore) :
    List EntryActivation :=
  (cfg.namespaces.flatMap store.list).insertionSort activationLe

/-! ### What becomes of an owner -/

/-- The activation that an effect is about. -/
def Effect.key : Effect → EntryActivationKey
  | .activate _ _ key _ | .deactivate _ _ key _ | .fence key _ | .renew key _
  | .assign _ _ key _ => key

namespace PassView

variable (view : PassView) (act : EntryActivation) (s t : PassState)

/-- The effect tells a runner that reports the activation without being assigned it to stop. -/
def Cleans (e : Effect) : Prop :=
  ∃ snap ∈ view.live, view.foreignHost act snap ∧
    e = .deactivate snap.runnerID snap.sessionID act.key act.generation

/-- Nothing is done to the owner. -/
structure Leaves : Prop where
  store : t.store = s.store
  owners : t.owners = s.owners
  grows : ∀ e ∈ s.effects, e ∈ t.effects
  effects : ∀ e ∈ t.effects, e ∈ s.effects ∨ view.Cleans act e

/-- The owner is fenced. -/
structure Fences : Prop where
  store : t.store = s.store.fence act.key act.generation
  owners : t.owners = s.owners
  grows : ∀ e ∈ s.effects, e ∈ t.effects
  fenced : .fence act.key act.generation ∈ t.effects
  effects : ∀ e ∈ t.effects, e ∈ s.effects ∨ view.Cleans act e ∨
    e = .fence act.key act.generation ∨
    ∃ sessionID, e = .deactivate act.runnerID sessionID act.key act.generation

/-- The owner is kept, and its lease is extended if it is soon to run out. -/
structure Keeps : Prop where
  store : t.store = if view.renewable act then
    (s.store.renew act.key act.generation (view.now + view.cfg.leaseTTL)).1 else s.store
  owners : t.owners = (act.key.logical, act.runnerID) :: s.owners
  grows : ∀ e ∈ s.effects, e ∈ t.effects
  effects : ∀ e ∈ t.effects, e ∈ s.effects ∨ view.Cleans act e ∨
    (∃ runnerID sessionID generation, e = .activate runnerID sessionID act.key generation) ∨
    e = .renew act.key act.generation ∧
      (s.store.renew act.key act.generation (view.now + view.cfg.leaseTTL)).2

variable {view act s t}

theorem cleanup_leaves : view.Leaves act s (view.cleanupForeignHostedActivations act s) where
  store := rfl
  owners := rfl
  grows _ mem := List.mem_append_left _ mem
  effects := by
    intro e mem
    refine (mem_append.mp mem).imp_right fun mem => ?_
    obtain ⟨snap, listed, rfl⟩ := mem_map.mp mem
    obtain ⟨live, foreign⟩ := mem_filter.mp listed
    exact ⟨snap, live, foreign, rfl⟩

theorem redeliver_spec (sent : t = view.redeliverMissingActivation act s) :
  t.store = s.store ∧ t.owners = s.owners ∧ (∀ e ∈ s.effects, e ∈ t.effects) ∧
    ∀ e ∈ t.effects, e ∈ s.effects ∨
      ∃ runnerID sessionID generation, e = .activate runnerID sessionID act.key generation
  := by
  subst sent
  fun_cases redeliverMissingActivation view act s with
  | case5 =>
    refine ⟨rfl, rfl, fun _ mem => mem_append_left _ mem, fun e mem => ?_⟩
    refine (mem_append.mp mem).imp_right fun mem => ?_
    exact ⟨_, _, _, mem_singleton.mp mem⟩
  | _ => exact ⟨rfl, rfl, fun _ mem => mem, fun _ mem => .inl mem⟩

theorem renewLease_spec (renewed : t = view.renewLease act s) :
  t.store = (if view.renewable act then
      (s.store.renew act.key act.generation (view.now + view.cfg.leaseTTL)).1 else s.store) ∧
    t.owners = s.owners ∧ (∀ e ∈ s.effects, e ∈ t.effects) ∧
    ∀ e ∈ t.effects, e ∈ s.effects ∨ e = .renew act.key act.generation ∧
      (s.store.renew act.key act.generation (view.now + view.cfg.leaseTTL)).2
  := by
  rw [renewed, renewLease]
  grind

theorem keepOwner_keeps (clean : view.Leaves act s t) :
  view.Keeps act s (view.keepOwner act t)
  := by
  -- the owner is recorded, whatever becomes of the backoff
  obtain ⟨cleared, eq, store, owners, effects⟩ : ∃ cleared,
      view.keepOwner act t = view.renewLease act (view.redeliverMissingActivation act cleared) ∧
        cleared.store = t.store ∧ cleared.owners = (act.key.logical, act.runnerID) :: t.owners ∧
        cleared.effects = t.effects := by
    rw [keepOwner]
    split <;> exact ⟨_, rfl, rfl, rfl, rfl⟩
  obtain ⟨sent, again, more, directives⟩ := @redeliver_spec view act cleared _ rfl
  obtain ⟨renewed, kept, grows, lease⟩ := renewLease_spec eq
  rw [sent, store, clean.store] at renewed lease
  refine ⟨renewed, ?_, fun e mem => ?_, fun e mem => ?_⟩
  · rw [kept, again, owners, clean.owners]
  · exact grows e (more e (effects ▸ clean.grows e mem))
  · have old := clean.effects e
    grind

theorem fenceAndDeactivate_cases (answer : DrainAnswer) (sessionID : String)
    (clean : view.Leaves act s t) {result}
    (eq : result = fenceAndDeactivate answer act sessionID t) :
  view.Fences act s result.1 ∧ (answer.settled → result.2 = "") ∨
    answer.settled = false ∧ view.Leaves act s result.1 ∧ result.2 = act.runnerID
  := by
  subst eq
  have quiet : view.Fences act s (t.fence act.key act.generation) := by
    refine ⟨?_, clean.owners, fun e mem => mem_append_left _ (clean.grows e mem),
      mem_append_right _ (mem_singleton_self _), fun e mem => ?_⟩
    · rw [PassState.fence, clean.store]
    · rcases mem_append.mp mem with mem | mem
      · exact (clean.effects e mem).imp_right .inl
      · exact .inr (.inr (.inl (mem_singleton.mp mem)))
  have plain : view.Fences act s ((t.fence act.key act.generation).emit
      [.deactivate act.runnerID sessionID act.key act.generation]) := by
    refine ⟨quiet.store, quiet.owners, fun e mem => mem_append_left _ (quiet.grows e mem),
      mem_append_left _ quiet.fenced, fun e mem => ?_⟩
    rcases mem_append.mp mem with mem | mem
    · exact quiet.effects e mem
    · exact .inr (.inr (.inr ⟨sessionID, mem_singleton.mp mem⟩))
  cases answer with
  | none => exact .inl ⟨plain, fun _ => rfl⟩
  | ensured => exact .inl ⟨quiet, fun _ => rfl⟩
  | unmarked => exact .inl ⟨quiet, nofun⟩
  | superseded =>
    rw [fenceAndDeactivate]
    split
    · exact .inr ⟨rfl, clean, rfl⟩
    · exact .inl ⟨plain, fun _ => rfl⟩
  | failed => exact .inr ⟨rfl, clean, rfl⟩

/-- What becomes of the owner of an activation. -/
theorem reconcileExisting_cases (answer : DrainAnswer) {result}
    (eq : result = view.reconcileExisting answer act s) :
  (act.runnerID ≠ "" ∧ act.desired ∧ view.keeps act s ∧ view.Keeps act s result.1 ∧
      result.2 = act.runnerID) ∨
    (act.runnerID ≠ "" ∧ ¬ (act.desired ∧ view.keeps act s) ∧ view.Fences act s result.1 ∧
      (answer.settled → result.2 = "")) ∨
    ((act.runnerID = "" ∨ answer.settled = false) ∧ view.Leaves act s result.1 ∧
      result.2 = act.runnerID)
  := by
  subst eq
  have clean := @cleanup_leaves view act s
  fun_cases view.reconcileExisting answer act s with
  | case1 _ free => exact .inr (.inr ⟨.inl free, clean, free.symm⟩)
  | case3 _ owned desired kept =>
    exact .inl ⟨owned, not_not.mp desired, kept, keepOwner_keeps clean, rfl⟩
  | case2 _ session owned gone | case4 _ session owned _ gone =>
    -- an owner that is not kept is to be fenced
    rcases fenceAndDeactivate_cases answer session clean rfl with fences | ⟨drained, leaves⟩
    · exact .inr (.inl ⟨owned, by grind, fences⟩)
    · exact .inr (.inr ⟨.inr drained, leaves⟩)

/-- A runner is assigned: it can be chosen, and the claim of the pass won. -/
structure Assigns (view : PassView) (act : EntryActivation) (snap : RunnerSnapshot)
    (s t : PassState) : Prop where
  live : snap ∈ view.live
  eligible : view.eligible act s snap
  labels : selectorIsDefault act.selector ∨ selectorMatches act.selector snap.labels
  won : (s.store.assign act.key snap.runnerID snap.sessionID (act.generation + 1)
    (view.now + view.cfg.leaseTTL)).2
  store : t.store = (s.store.assign act.key snap.runnerID snap.sessionID (act.generation + 1)
    (view.now + view.cfg.leaseTTL)).1
  owners : t.owners = (act.key.logical, snap.runnerID) :: s.owners
  effects : t.effects = s.effects ++
    [.assign snap.runnerID snap.sessionID act.key (act.generation + 1),
      .activate snap.runnerID snap.sessionID act.key (act.generation + 1)]

theorem chosenRunner_spec {snap : RunnerSnapshot}
    (chosen : (view.chosenRunner act s).2 = some snap) :
  snap ∈ view.live ∧ view.eligible act s snap ∧
    (selectorIsDefault act.selector ∨ selectorMatches act.selector snap.labels)
  := by
  revert chosen
  fun_cases chosenRunner view act s with
  | case1 _ found =>
    rintro ⟨⟩
    have both := find?_some found
    rw [Bool.and_eq_true] at both
    exact ⟨mem_of_find?_eq_some found, both.1, .inr both.2⟩
  | case2 _ relaxed =>
    fun_cases fallbackChooseRunner view act s with
    | case3 _ _ _ _ found =>
      rintro ⟨⟩
      exact ⟨mem_of_find?_eq_some found, find?_some found, .inl relaxed⟩
    | _ => exact nofun
  | case3 => exact nofun

theorem assignUnowned_cases :
  (∃ snap, view.Assigns act snap s (view.assignUnowned act s)) ∨
    (view.assignUnowned act s).store = s.store ∧ (view.assignUnowned act s).owners = s.owners ∧
      (view.assignUnowned act s).effects = s.effects
  := by
  fun_cases assignUnowned view act s with
  | case3 _ _ snap chosen _ _ won =>
    obtain ⟨live, eligible, labels⟩ := chosenRunner_spec chosen
    exact .inl ⟨snap, live, eligible, labels, won, rfl, rfl, rfl⟩
  | _ => exact .inr ⟨rfl, rfl, rfl⟩

end PassView

end Xflow.Control
