import Xflow.Control.Placement
import Xflow.Lib.Table

/-!
# What the runner directory records

The in-process runner directory keeps, for each runner, the claims that it has not finalized and the
leases that it has, and beside them the claims of all runners and the ledger of handoffs from a
claim to a lease.  This file has these records and what the operations of the directory do to them,
apart from the queues of assignments.

A map of the source is walked in an order of its own, which is here the order of a rank of its keys.
Times and durations are in milliseconds.
-/

namespace Xflow.Directory

open Control

abbrev AssignmentID := String

abbrev ClaimID := String

abbrev LeaseID := String

abbrev LeaseToken := String

/-! ### Assignments and leases -/

structure TaskRouting where
  nodeType : String
  nodeVersion : Int := 0
  runnerSelector : Option RunnerSelector := none
  requirements : List CapabilityRequirement := []
  deriving DecidableEq

/-- `MatchCapabilities`, for a routing. -/
def matchRouting (capabilities : List Capability) (routing : TaskRouting) : Bool :=
  canRunRouting capabilities routing.nodeType routing.nodeVersion &&
    routing.requirements.all (hasCapabilityForRequirement capabilities)

structure Assignment where
  assignmentID : AssignmentID
  routing : TaskRouting
  ns : String := ""
  deriving DecidableEq

/-- `TaskLease`, with what names its task and whether it has a `SubgraphPayload`. -/
structure TaskLease where
  leaseID : LeaseID := ""
  leaseToken : LeaseToken := ""
  nodeName : String := ""
  nodeIdx : Int := 0
  subgraphPayload : Bool := false
  deriving DecidableEq

structure ReleaseLeasedRequest where
  runnerID : String
  assignmentID : AssignmentID := ""
  leaseID : LeaseID := ""
  leaseToken : LeaseToken := ""
  removeSeen : Bool := false
  deriving DecidableEq

def matchesReleasedLease (current : TaskLease) (req : ReleaseLeasedRequest) : Bool :=
  if req.leaseToken ≠ "" then current.leaseToken = req.leaseToken
  else if req.leaseID ≠ "" then current.leaseID = req.leaseID
  else true

/-! ### Claims and handoffs -/

structure MemoryClaim where
  runnerID : String
  assignment : Assignment
  deriving DecidableEq

inductive HandoffDebtState where
  | reserved
  | leaseMayExist
  | leaseCreated
  | finalized
  deriving DecidableEq

/-- The engine was or may have been asked for a lease, and the claim is not finalized. -/
def HandoffDebtState.unresolved (state : HandoffDebtState) : Bool :=
  state = .leaseMayExist ∨ state = .leaseCreated

structure HandoffDebt where
  state : HandoffDebtState := .reserved
  admissionGeneration : Nat := 0
  lease : Option TaskLease := none
  deriving DecidableEq

structure MemoryHandoff where
  runnerID : String
  sessionID : String
  assignment : Assignment
  debt : HandoffDebt
  recoveryReady : Bool := false
  deriving DecidableEq

/-- The handoff is of a lease with this identity that was finalized. -/
def MemoryHandoff.settles (handoff : MemoryHandoff) (leaseID : LeaseID) (leaseToken : LeaseToken) :
    Bool :=
  handoff.debt.state = .finalized ∧
    handoff.debt.lease.any (fun lease => lease.leaseID = leaseID ∧ lease.leaseToken = leaseToken)

/-- A finalized handoff of a runner follows it to a new session. -/
def MemoryHandoff.follow (handoff : MemoryHandoff) (runnerID sessionID : String) : MemoryHandoff :=
  if handoff.runnerID = runnerID ∧ handoff.debt.state = .finalized then
    { handoff with sessionID := sessionID }
  else handoff

/-! ### Runners -/

/-- `memoryRunnerState`. -/
structure RunnerState where
  instanceUID : String := ""
  snapshot : RunnerSnapshot
  allowedNodeTypes : List String := []
  sessionID : String
  namespaces : List String := []
  activeClaims : Table ClaimID AssignmentID := ∅
  activeOrder : List ClaimID := []
  finalizedLease : Table AssignmentID TaskLease := ∅
  leaseByID : Table LeaseID AssignmentID := ∅
  leaseByToken : Table LeaseToken AssignmentID := ∅
  leasedAssignments : Table AssignmentID Assignment := ∅

namespace RunnerState

variable (state : RunnerState)

def allows (nodeType : String) : Bool :=
  state.allowedNodeTypes.any (fun allowed => allowed = "*" ∨ allowed = nodeType)

def headroom : Int :=
  max (state.snapshot.capacity - state.finalizedLease.size - state.activeClaims.size) 0

/-- A claim is no longer active. -/
def removeClaim (claimID : ClaimID) : RunnerState :=
  { state with
    activeClaims := state.activeClaims.drop claimID
    activeOrder := state.activeOrder.erase claimID }

def addLeaseIndexes (assignmentID : AssignmentID) (lease : TaskLease) : RunnerState :=
  { state with
    leaseByID :=
      if lease.leaseID ≠ "" then state.leaseByID.put lease.leaseID assignmentID
      else state.leaseByID
    leaseByToken :=
      if lease.leaseToken ≠ "" then state.leaseByToken.put lease.leaseToken assignmentID
      else state.leaseByToken }

/-- `removeLeaseIndexes`: an index that names another assignment stays. -/
def removeLeaseIndexes (assignmentID : AssignmentID) (lease : TaskLease) : RunnerState :=
  { state with
    leaseByID :=
      if lease.leaseID ≠ "" ∧ state.leaseByID.get lease.leaseID = some assignmentID then
        state.leaseByID.drop lease.leaseID
      else state.leaseByID
    leaseByToken :=
      if lease.leaseToken ≠ "" ∧ state.leaseByToken.get lease.leaseToken = some assignmentID then
        state.leaseByToken.drop lease.leaseToken
      else state.leaseByToken }

/-- The lease of an assignment goes, with all that says it is leased. -/
def removeLease (assignmentID : AssignmentID) (lease : TaskLease) : RunnerState :=
  { state with
    finalizedLease := state.finalizedLease.drop assignmentID
    leasedAssignments := state.leasedAssignments.drop assignmentID }.removeLeaseIndexes
      assignmentID lease

/-- The assignment is leased, in place of a lease that it had. -/
def addLease (assignment : Assignment) (lease : Option TaskLease) : RunnerState :=
  let id := assignment.assignmentID
  let cleared :=
    match state.finalizedLease.get id with
    | some existing => state.removeLeaseIndexes id existing
    | none => state
  let leased :=
    { cleared with
      leasedAssignments := cleared.leasedAssignments.put id assignment
      finalizedLease := cleared.finalizedLease.put id (lease.getD {}) }
  match lease with
  | some lease => leased.addLeaseIndexes id lease
  | none => leased

def resolveAssignmentID (req : ReleaseLeasedRequest) : Option AssignmentID :=
  if req.assignmentID ≠ "" ∧ (req.leaseToken ≠ "" ∨ req.leaseID ≠ "") ∧
      (state.finalizedLease.get req.assignmentID).any (matchesReleasedLease · req) then
    some req.assignmentID
  else if req.leaseToken ≠ "" ∧ (state.leaseByToken.get req.leaseToken).isSome then
    state.leaseByToken.get req.leaseToken
  else if req.leaseID ≠ "" ∧ (state.leaseByID.get req.leaseID).isSome then
    state.leaseByID.get req.leaseID
  else if req.assignmentID = "" then none
  else some req.assignmentID

/-- `ClearAssignment`, at one runner. -/
def clearLease (assignmentID : AssignmentID) (state : RunnerState) : RunnerState :=
  match state.finalizedLease.get assignmentID with
  | some lease => state.removeLease assignmentID lease
  | none => state

end RunnerState

/-- `indexLeaseIDs`: of the leases with one id the last that is walked is named. -/
def indexLeaseIDs (rank : String → Nat) (finalized : Table AssignmentID TaskLease) :
    Table LeaseID AssignmentID :=
  (finalized.walk rank).foldl (fun index entry =>
    if entry.2.leaseID = "" then index else index.put entry.2.leaseID entry.1) ∅

def indexLeaseTokens (rank : String → Nat) (finalized : Table AssignmentID TaskLease) :
    Table LeaseToken AssignmentID :=
  (finalized.walk rank).foldl (fun index entry =>
    if entry.2.leaseToken = "" then index else index.put entry.2.leaseToken entry.1) ∅

/-! ### The records -/

/-- The fields of `MemoryRunnerDirectory` that say who has what. -/
structure Records where
  runners : Table String RunnerState := ∅
  claims : Table ClaimID MemoryClaim := ∅
  handoffs : Table ClaimID MemoryHandoff := ∅
  handoffByAssignment : Table AssignmentID (List ClaimID) := ∅

namespace Records

variable (recs : Records)

/-- The claims of an assignment that have a handoff. -/
def handoffsOf (assignmentID : AssignmentID) : List ClaimID :=
  (recs.handoffByAssignment.get assignmentID).getD []

/-- `addHandoffLocked`. -/
def addHandoff (claimID : ClaimID) (handoff : MemoryHandoff) : Records :=
  let id := handoff.assignment.assignmentID
  { recs with
    handoffs := recs.handoffs.put claimID handoff
    handoffByAssignment := recs.handoffByAssignment.put id ((recs.handoffsOf id).insert claimID) }

/-- `deleteHandoffLocked`. -/
def deleteHandoff (claimID : ClaimID) (assignmentID : AssignmentID) : Records :=
  let left := (recs.handoffsOf assignmentID).filter (· ≠ claimID)
  { recs with
    handoffs := recs.handoffs.drop claimID
    handoffByAssignment :=
      if left = [] then recs.handoffByAssignment.drop assignmentID
      else recs.handoffByAssignment.put assignmentID left }

/-- `deleteHandoffByAssignmentLocked`. -/
def deleteHandoffByAssignment (assignmentID : AssignmentID) : Records :=
  { recs with
    handoffs := recs.handoffs.filter (fun claimID _ => claimID ∉ recs.handoffsOf assignmentID)
    handoffByAssignment := recs.handoffByAssignment.drop assignmentID }

/-- `deleteFinalizedHandoffLocked`: the first handoff of that lease that is walked goes. -/
def deleteFinalizedHandoff (rank : String → Nat) (assignmentID : AssignmentID) (leaseID : LeaseID)
    (leaseToken : LeaseToken) : Records :=
  match ((recs.handoffsOf assignmentID).insertionSort (fun a b => rank a ≤ rank b)).find?
      (fun claimID => (recs.handoffs.get claimID).any (·.settles leaseID leaseToken)) with
  | some claimID => recs.deleteHandoff claimID assignmentID
  | none => recs

/-- The claim is deleted, and no longer active at its runner. -/
def deleteClaim (claimID : ClaimID) (claim : MemoryClaim) : Records :=
  { recs with
    claims := recs.claims.drop claimID
    runners :=
      match recs.runners.get claim.runnerID with
      | some state => recs.runners.put claim.runnerID (state.removeClaim claimID)
      | none => recs.runners }

/-- `assignmentInFlightLocked`. -/
def assignmentInFlight (assignmentID : AssignmentID) : Bool :=
  recs.claims.any (fun _ claim => claim.assignment.assignmentID = assignmentID) ||
    recs.runners.any (fun _ state => (state.finalizedLease.get assignmentID).isSome ∨
      (state.leasedAssignments.get assignmentID).isSome)

/-! ### What the operations do to the records -/

/-- The end of `ClaimForRunner`: the assignment is reserved for the runner. -/
def reserve (claimID : ClaimID) (runnerID : String) (state : RunnerState) (assignment : Assignment)
    (generation : Nat) : Records :=
  { recs with
    claims := recs.claims.put claimID { runnerID := runnerID, assignment := assignment }
    runners := recs.runners.put runnerID
      { state with
        activeClaims := state.activeClaims.put claimID assignment.assignmentID
        activeOrder := state.activeOrder ++ [claimID] } }.addHandoff claimID
    { runnerID := runnerID
      sessionID := state.sessionID
      assignment := assignment
      debt := { admissionGeneration := generation } }

/-- `FinalizeClaim`, for a claim of a registered runner. -/
def finalize (claimID : ClaimID) (claim : MemoryClaim) (state : RunnerState)
    (lease : Option TaskLease) : Records :=
  let handoff := (recs.handoffs.get claimID).getD
    { runnerID := claim.runnerID
      sessionID := state.sessionID
      assignment := claim.assignment
      debt := {} }
  { recs with
    claims := recs.claims.drop claimID
    runners := recs.runners.put claim.runnerID
      ((state.removeClaim claimID).addLease claim.assignment lease) }.addHandoff claimID
    { handoff with
      sessionID := state.sessionID
      debt := { handoff.debt with state := .finalized, lease := lease }
      recoveryReady := false }

/-- The handoff of a claim is written over. -/
def editHandoff (claimID : ClaimID) (handoff : MemoryHandoff) : Records :=
  { recs with handoffs := recs.handoffs.put claimID handoff }

/-- The claim goes, with its handoff. -/
def dropClaim (claimID : ClaimID) (claim : MemoryClaim) : Records :=
  (recs.deleteClaim claimID claim).deleteHandoff claimID claim.assignment.assignmentID

/-- The lease of an assignment of a runner goes. -/
def dropLease (runnerID : String) (state : RunnerState) (assignmentID : AssignmentID)
    (lease : TaskLease) : Records :=
  { recs with runners := recs.runners.put runnerID (state.removeLease assignmentID lease) }

/-- `ClearAssignment`, apart from the queues. -/
def clear (assignmentID : AssignmentID) (rank : String → Nat) : Records :=
  let unclaimed := (recs.claims.walk rank).foldl (fun recs entry =>
      if entry.2.assignment.assignmentID ≠ assignmentID then recs
      else recs.dropClaim entry.1 entry.2)
    (recs.deleteHandoffByAssignment assignmentID)
  { unclaimed with
    runners := unclaimed.runners.adjust (fun _ => RunnerState.clearLease assignmentID) }

/-- A registration in the course of `rebindHandoffsLocked`. -/
structure Rebinding where
  recs : Records
  next : RunnerState
  requeue : List Assignment := []

/-- `rebindHandoffsLocked`, for one claim of the session before: a claim whose lease may exist is
kept for recovery, another one is given back. -/
def Rebinding.claim (reb : Rebinding) (claimID : ClaimID) : Rebinding :=
  match reb.recs.claims.get claimID with
  | none => reb
  | some claim =>
    match (reb.recs.handoffs.get claimID).filter (·.debt.state.unresolved) with
    | some handoff =>
      { reb with
        recs := reb.recs.editHandoff claimID
          { handoff with sessionID := reb.next.sessionID, recoveryReady := true }
        next :=
          { reb.next with
            activeClaims := reb.next.activeClaims.put claimID claim.assignment.assignmentID
            activeOrder := reb.next.activeOrder ++ [claimID] } }
    | none =>
      { reb with
        recs := { reb.recs with claims := reb.recs.claims.drop claimID }.deleteHandoff claimID
          claim.assignment.assignmentID
        requeue := reb.requeue ++ [claim.assignment] }

/-- The records with the session of a runner replaced, and the assignments to put back. -/
def rebind (runnerID : String) (previous next : RunnerState) : Records × List Assignment :=
  let reb := previous.activeOrder.foldl Rebinding.claim { recs := recs, next := next }
  ({ reb.recs with
    runners := reb.recs.runners.put runnerID reb.next
    handoffs := reb.recs.handoffs.adjust (fun _ handoff =>
      handoff.follow runnerID next.sessionID) }, reb.requeue)

end Records

end Xflow.Directory
