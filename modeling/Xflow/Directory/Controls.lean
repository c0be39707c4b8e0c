import Xflow.Directory.Queues

/-!
# Draining a runner

The desired state of a runner, the observations that it makes of itself while it drains, and the
projection of how far the drain is.  The cleanup of activations that a draining runner owes is kept
as obligations.  Generations are not bounded, and a clock reads a time that is set.
-/

namespace Xflow.Directory

open Control

/-! ### Progress -/

inductive RunnerDrainPhase where
  | quiescing
  | complete
  | timedOut
  deriving DecidableEq

structure HandoffDebtStats where
  activeClaims : Nat := 0
  leasedTasks : Nat := 0
  unsettledDebt : Nat := 0
  handoffDebt : Nat := 0
  leaseMayExistDebt : Nat := 0
  replayableDebt : Nat := 0
  deriving DecidableEq

structure RunnerDrainSnapshot extends HandoffDebtStats where
  phase : RunnerDrainPhase
  deadlineAt : Option Int
  pendingActivationCleanup : Nat
  serverQuiescent : Bool
  runnerQuiescent : Bool
  deriving DecidableEq

structure RunnerControlSnapshot where
  desiredState : RunnerDesiredState
  generation : Nat
  requestedAt : Option Int
  reason : String
  drain : Option RunnerDrainSnapshot := none
  deriving DecidableEq

structure RunnerDrainObservation where
  sessionID : String
  generation : Nat
  recoveryOnly : Bool
  inFlight : Int
  activeActivations : Nat
  observedAt : Int
  deriving DecidableEq

def defaultRunnerControlReceiptRetention : Int := 24 * 60 * 60 * 1000

def defaultRunnerDrainObservationFreshness : Int := 30 * 1000

def defaultRunnerDrainDeadline : Int := 30 * 60 * 1000

namespace Config

variable (cfg : Config)

/-- `runnerControlReceiptRetention`. -/
def receiptRetention : Int :=
  if 0 < cfg.controlReceiptRetention then cfg.controlReceiptRetention
  else defaultRunnerControlReceiptRetention

/-- `runnerDrainObservationFreshness`. -/
def freshness : Int :=
  if 0 < cfg.drainObservationFreshness then cfg.drainObservationFreshness
  else defaultRunnerDrainObservationFreshness

/-- `runnerDrainDeadline`. -/
def deadline : Int :=
  if 0 < cfg.drainDeadline then cfg.drainDeadline else defaultRunnerDrainDeadline

end Config

def drainObservationQuiescent (observation : Option RunnerDrainObservation) (sessionID : String)
    (generation : Nat) (now freshness : Int) : Bool :=
  observation.any (fun observation =>
    observation.sessionID ≠ "" ∧ observation.sessionID = sessionID ∧
      observation.generation = generation ∧ observation.recoveryOnly ∧ observation.inFlight = 0 ∧
      observation.activeActivations = 0 ∧ observation.observedAt ≤ now ∧
      now - observation.observedAt ≤ freshness)

/-! ### Desired states -/

/-- The components that `runnerControlReceiptID` hashes. -/
structure ReceiptID where
  actor : String
  action : String
  runnerID : String
  requestID : String
  deriving DecidableEq

structure RunnerControlReceipt where
  requestHash : String
  snapshot : RunnerControlSnapshot
  expiresAt : Int
  deriving DecidableEq

/-- `memoryRunnerControl`; without arguments it is `activeRunnerControl`. -/
structure RunnerControl where
  desired : RunnerDesiredState := .active
  generation : Nat := 0
  requestedAt : Option Int := none
  actor : String := ""
  reason : String := ""
  receipts : Table ReceiptID RunnerControlReceipt := ∅
  drainObservation : Option RunnerDrainObservation := none
  drainDeadline : Option Int := none

structure RunnerControlRequest where
  runnerID : String
  desiredState : RunnerDesiredState
  actor : String := ""
  reason : String := ""
  action : String := ""
  requestID : String := ""
  requestHash : String := ""
  now : Option Int := none
  deriving DecidableEq

/-- `runnerControlReceiptID`, with the action of `runnerControlAction`. -/
def RunnerControlRequest.receiptID (req : RunnerControlRequest) : ReceiptID where
  actor := req.actor
  action :=
    if req.action ≠ "" then req.action
    else if req.desiredState = .draining then "drain"
    else "resume"
  runnerID := req.runnerID
  requestID := req.requestID

namespace RunnerControl

variable (control : RunnerControl)

/-- `runnerControlProjection`. -/
def projection (sessionID : String) (stats : HandoffDebtStats) (pendingActivationCleanup : Nat)
    (now freshness : Int) : RunnerControlSnapshot where
  desiredState := control.desired
  generation := control.generation
  requestedAt := control.requestedAt
  reason := control.reason
  drain :=
    if control.desired ≠ .draining then none
    else
      let serverQuiescent : Bool :=
        stats.activeClaims = 0 ∧ stats.leasedTasks = 0 ∧ stats.unsettledDebt = 0 ∧
          pendingActivationCleanup = 0
      let runnerQuiescent := drainObservationQuiescent control.drainObservation sessionID
        control.generation now freshness
      let phase : RunnerDrainPhase :=
        if serverQuiescent ∧ runnerQuiescent then .complete
        else if control.drainDeadline.any (· ≤ now) then .timedOut
        else .quiescing
      some
        { stats with
          phase := phase
          deadlineAt := control.drainDeadline
          pendingActivationCleanup := pendingActivationCleanup
          serverQuiescent := serverQuiescent
          runnerQuiescent := runnerQuiescent }

/-- `cleanupExpiredRunnerControlReceiptsLocked`. -/
def cleanup (now : Int) : RunnerControl :=
  { control with receipts := control.receipts.filter (fun _ receipt => now < receipt.expiresAt) }

/-- The transition of `SetRunnerControl` to the desired state of a request. -/
def transition (cfg : Config) (req : RunnerControlRequest) (now : Int) : RunnerControl :=
  if control.desired = req.desiredState then control
  else
    { control with
      desired := req.desiredState
      generation := control.generation + 1
      drainObservation := none
      requestedAt := some now
      actor := req.actor
      reason := req.reason
      drainDeadline := if req.desiredState = .draining then some (now + cfg.deadline) else none }

end RunnerControl

/-! ### Obligations -/

inductive DeactivationObligationState where
  | pendingFence
  | ready
  deriving DecidableEq

structure DeactivationInventoryKey where
  workflowID : String
  workflowVersion : String
  entryUnitID : String
  replicaIndex : Nat := 0
  deriving DecidableEq

/-- The components that `deactivationObligationID` hashes. -/
structure DeactivationObligationID extends DeactivationInventoryKey where
  runnerID : String
  ns : String
  generation : Nat
  deriving DecidableEq

structure DeactivationObligation extends DeactivationObligationID where
  sessionID : String := ""
  drainGeneration : Nat := 0
  state : DeactivationObligationState := .pendingFence
  deriving DecidableEq

/-- `validateDeactivationObligation`. -/
def DeactivationObligation.valid (obligation : DeactivationObligation) : Bool :=
  obligation.runnerID ≠ "" ∧ obligation.ns ≠ "" ∧ obligation.workflowID ≠ "" ∧
    obligation.workflowVersion ≠ "" ∧ obligation.entryUnitID ≠ "" ∧ obligation.generation ≠ 0 ∧
    obligation.drainGeneration ≠ 0

/-- `ActivationAck`, with whether its status is deactivated. -/
structure ActivationAck extends DeactivationObligationID where
  sessionID : String
  deactivated : Bool := true
  deriving DecidableEq

structure ActivationInventoryItem extends DeactivationInventoryKey where
  generation : Nat
  deriving DecidableEq

end Xflow.Directory
