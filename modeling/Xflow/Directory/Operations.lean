import Xflow.Directory.Controls
import Xflow.Lib.Run
import Mathlib.Data.Finset.Erase
import Mathlib.Data.Finset.Insert

/-!
# The operations of the runner directory

`MemoryRunnerDirectory`: the records, the queues, the marks of assignments and the controls of the
runners, and the operations on them.  Each operation is one transition under the lock of the
directory; it takes the reading of the clock, the identifiers that are drawn and the order in which
maps are walked as arguments.
-/

namespace Xflow.Directory

open Control

/-- The errors of the operations. -/
inductive DirectoryError where
  | runnerIDRequired
  | concurrencyRequired
  | runnerIDConflict
  | runnerNotFound
  | runnerSessionStale
  | assignmentIDRequired
  | claimNotActive
  | nilLease
  | handoffResolutionRequired
  | runnerHasOutstandingWork
  | controlRequestIDRequired
  | controlRequestConflict
  | invalidObligation
  | obligationNotFound
  | invalidReceipt
  deriving DecidableEq

structure MemoryRunnerDirectory extends Records where
  queues : Queues := {}
  seen : Finset AssignmentID := ∅
  released : Finset AssignmentID := ∅
  controls : Table String RunnerControl := ∅
  deactivationObligations : Table DeactivationObligationID DeactivationObligation := ∅
  activationInventory : Table String (Table DeactivationInventoryKey Nat) := ∅

instance : EmptyCollection MemoryRunnerDirectory := ⟨{}⟩

/-- The directory after an operation, and what the operation answers. -/
abbrev Reply (α : Type) := MemoryRunnerDirectory × Except DirectoryError α

/-! ### Requests -/

/-- `RegisterRunnerRequest`, with the node types that its policy allows. -/
structure RegisterRunnerRequest where
  runnerID : String
  capacity : Int
  labels : List (String × String) := []
  capabilities : List Capability := []
  allowedNodeTypes : List String := ["*"]
  namespaces : List String := []
  activations : List ActivationInventoryItem := []
  instanceUID : String := ""
  now : Option Int := none
  deriving DecidableEq

/-- `RunnerDrainObservation` of the protocol. -/
structure ReportedObservation where
  generation : Nat
  recoveryOnly : Bool := true
  activeActivations : Nat := 0
  deriving DecidableEq

structure HeartbeatRequest where
  runnerID : String
  sessionID : String
  capacity : Int
  inFlight : Int := 0
  drainObservation : Option ReportedObservation := none
  now : Option Int := none
  deriving DecidableEq

structure ClaimRequest where
  runnerID : String
  sessionID : String
  activeLeaseIDs : List LeaseID := []
  recoveryOnly : Bool := false
  deriving DecidableEq

structure Claim where
  claimID : ClaimID := ""
  assignment : Assignment
  lease : Option TaskLease := none
  handoff : Option HandoffDebt := none
  deriving DecidableEq

inductive HandoffDisposition where
  | requeue
  | drop
  deriving DecidableEq

inductive ReleaseClaimReason where
  | requeue
  | drop
  | keepSeen
  deriving DecidableEq

inductive ExpiredDirectoryLeaseOutcome where
  | released
  | alreadyReleased
  | tokenMismatch
  deriving DecidableEq

structure LeaseLookupKey where
  assignmentID : AssignmentID := ""
  leaseID : LeaseID := ""
  leaseToken : LeaseToken := ""
  nodeName : String := ""
  nodeIdx : Int := 0
  deriving DecidableEq

def LeaseLookupKey.namesTask (key : LeaseLookupKey) (lease : TaskLease) : Bool :=
  lease.nodeName = key.nodeName ∧ lease.nodeIdx = key.nodeIdx

/-- `leaseIdentityMatches`. -/
def LeaseLookupKey.identifies (key : LeaseLookupKey) (lease : TaskLease) : Bool :=
  if key.leaseToken ≠ "" then lease.leaseToken = key.leaseToken
  else if key.leaseID ≠ "" then lease.leaseID = key.leaseID
  else false

/-- `instanceConflict`.  A heartbeat that was never set is long ago. -/
def instanceConflict (currentUID newUID : String) (lastHeartbeat : Option Int) (now : Int) : Bool :=
  currentUID ≠ "" ∧ newUID ≠ "" ∧ currentUID ≠ newUID ∧
    lastHeartbeat.any (fun beat => now - beat < defaultRunnerLiveTTL)

namespace MemoryRunnerDirectory

variable (cfg : Config) (d : MemoryRunnerDirectory)

/-! ### Registration -/

/-- `runnerForSessionLocked`. -/
def runnerForSession (runnerID sessionID : String) : Except DirectoryError RunnerState :=
  match d.runners.get runnerID with
  | none => .error .runnerNotFound
  | some state =>
    if sessionID = "" ∨ state.sessionID ≠ sessionID then .error .runnerSessionStale
    else .ok state

/-- The assignments are put back in their queues, one after the other. -/
def pushAll (now : Int) (assignments : List Assignment) : MemoryRunnerDirectory :=
  { d with
    queues := assignments.foldl (fun qs assignment => qs.push cfg now assignment) d.queues }

/-- `setActivationInventoryAndRebindLocked`. -/
def setActivationInventoryAndRebind (runnerID sessionID : String)
    (reported : List ActivationInventoryItem) : MemoryRunnerDirectory :=
  let hosted : Table DeactivationInventoryKey Nat := reported.foldl (fun hosted item =>
    hosted.put item.toDeactivationInventoryKey item.generation) ∅
  { d with
    activationInventory := d.activationInventory.put runnerID hosted
    deactivationObligations := d.deactivationObligations.adjust (fun _ obligation =>
      if obligation.runnerID = runnerID ∧ obligation.sessionID ≠ sessionID ∧
          hosted.get obligation.toDeactivationInventoryKey = some obligation.generation then
        { obligation with sessionID := sessionID }
      else obligation) }

/-- The state that `Register` installs, before the handoffs are rebound. -/
def registered (req : RegisterRunnerRequest) (sessionID : String) (now : Int)
    (rank : String → Nat) : RunnerState :=
  let previous := d.runners.get req.runnerID
  let finalized := (previous.map (·.finalizedLease)).getD ∅
  { instanceUID := req.instanceUID
    snapshot :=
      { runnerID := req.runnerID
        sessionID := sessionID
        capacity := req.capacity
        inFlight := (previous.map (·.snapshot.inFlight)).getD 0
        labels := req.labels
        capabilities := req.capabilities
        namespaces := if req.namespaces = [] then [defaultNamespace] else req.namespaces
        lastHeartbeat := some now }
    allowedNodeTypes := req.allowedNodeTypes
    sessionID := sessionID
    namespaces := req.namespaces
    finalizedLease := finalized
    leaseByID := indexLeaseIDs rank finalized
    leaseByToken := indexLeaseTokens rank finalized
    leasedAssignments := (previous.map (·.leasedAssignments)).getD ∅ }

/-- `Register`, with the session that is drawn. -/
def register (req : RegisterRunnerRequest) (sessionID : String) (clock : Int)
    (rank : String → Nat) : Reply String :=
  let now := req.now.getD clock
  if req.runnerID = "" then (d, .error .runnerIDRequired)
  else if req.capacity ≤ 0 then (d, .error .concurrencyRequired)
  else if (d.runners.get req.runnerID).any (fun previous =>
      instanceConflict previous.instanceUID req.instanceUID previous.snapshot.lastHeartbeat
        now) then
    (d, .error .runnerIDConflict)
  else
    let control := (d.controls.get req.runnerID).getD {}
    let next := d.registered req sessionID now rank
    let fenced :=
      { d with controls := d.controls.put req.runnerID { control with drainObservation := none } }
    let hosting := fenced.setActivationInventoryAndRebind req.runnerID sessionID req.activations
    match d.runners.get req.runnerID with
    | none =>
      ({ hosting with runners := d.runners.put req.runnerID next }, .ok sessionID)
    | some previous =>
      let rebound := d.toRecords.rebind req.runnerID previous next
      ({ hosting with toRecords := rebound.1 }.pushAll cfg clock rebound.2, .ok sessionID)

def heartbeat (req : HeartbeatRequest) (clock : Int) : Reply Unit :=
  match d.runnerForSession req.runnerID req.sessionID with
  | .error err => (d, .error err)
  | .ok state =>
    let snapshot :=
      { state.snapshot with
        capacity := req.capacity
        inFlight := req.inFlight
        lastHeartbeat := if req.now.isSome then req.now else state.snapshot.lastHeartbeat }
    let observe (control : RunnerControl) : Option RunnerDrainObservation :=
      req.drainObservation.bind (fun reported =>
        if control.desired = .draining ∧ reported.generation = control.generation then
          some
            { sessionID := req.sessionID
              generation := reported.generation
              recoveryOnly := reported.recoveryOnly
              inFlight := req.inFlight
              activeActivations := reported.activeActivations
              observedAt := clock }
        else none)
    ({ d with
      runners := d.runners.put req.runnerID { state with snapshot := snapshot }
      controls :=
        match d.controls.get req.runnerID with
        | some control =>
          d.controls.put req.runnerID { control with drainObservation := observe control }
        | none => d.controls }, .ok ())

def deregister (runnerID sessionID : String) : Reply Unit :=
  match d.runnerForSession runnerID sessionID with
  | .error err => (d, .error err)
  | .ok state =>
    ({ d with
      runners := d.runners.put runnerID
        { state with
          instanceUID := ""
          snapshot := { state.snapshot with lastHeartbeat := some 0 } } }, .ok ())

def removeRunner (runnerID : String) : Reply Unit :=
  if (d.runners.get runnerID).any (fun state =>
        state.activeClaims.size ≠ 0 ∨ state.finalizedLease.size ≠ 0) ∨
      d.claims.any (fun _ claim => claim.runnerID = runnerID) ∨
      d.handoffs.any (fun _ handoff => handoff.runnerID = runnerID) ∨
      d.deactivationObligations.any (fun _ obligation => obligation.runnerID = runnerID) then
    (d, .error .runnerHasOutstandingWork)
  else
    ({ d with
      runners := d.runners.drop runnerID
      controls := d.controls.drop runnerID
      activationInventory := d.activationInventory.drop runnerID }, .ok ())

/-! ### Queueing and claiming -/

/-- `assignmentLiveLocked`. -/
def assignmentLive (id : AssignmentID) : Bool :=
  id ∉ d.released ∧
    (d.queues.holds cfg id ∨
      d.claims.any (fun _ claim => claim.assignment.assignmentID = id) ∨
      d.runners.any (fun _ state => (state.finalizedLease.get id).isSome))

def enqueueAssignment (assignment : Assignment) (clock : Int) :
    Reply Bool :=
  let id := assignment.assignmentID
  if id = "" then (d, .error .assignmentIDRequired)
  else if id ∈ d.seen ∧ d.assignmentLive cfg id then (d, .ok false)
  else
    ({ d with
      seen := insert id d.seen
      released := d.released.erase id
      queues := d.queues.place cfg clock assignment }, .ok true)

/-- The runner is being drained. -/
def draining (runnerID : String) : Bool :=
  (d.controls.get runnerID).any (·.desired = .draining)

/-- `recoverableHandoffLocked`. -/
def recoverableHandoff (runnerID sessionID : String) (state : RunnerState) :
    Option (ClaimID × MemoryHandoff) :=
  state.activeOrder.findSome? (fun claimID =>
    ((d.handoffs.get claimID).filter (fun handoff =>
      handoff.runnerID = runnerID ∧ handoff.sessionID = sessionID ∧
        handoff.debt.state.unresolved ∧ handoff.recoveryReady)).map (fun handoff =>
          (claimID, handoff)))

def replayLease (state : RunnerState) (activeLeaseIDs : List LeaseID) (rank : String → Nat) :
    Option Claim :=
  (state.finalizedLease.walk rank).findSome? (fun entry =>
    if entry.2.leaseID ∈ activeLeaseIDs then none
    else (state.leasedAssignments.get entry.1).map (fun assignment =>
      { assignment := assignment, lease := some entry.2 }))

/-- An assignment in a queue may be handed to the runner. -/
def claimable (state : RunnerState) (now : Int) (assignment : Assignment) : Bool :=
  !d.assignmentInFlight assignment.assignmentID && assignment.assignmentID ∉ d.released &&
    matchRouting state.snapshot.capabilities assignment.routing &&
    state.allows assignment.routing.nodeType &&
    canServeNamespace state.namespaces assignment.ns &&
    (selectorMatches assignment.routing.runnerSelector state.snapshot.labels ||
      selectorGraceElapsed cfg.selector assignment.routing.runnerSelector
        (d.queues.queuedAt.get assignment.assignmentID) now)

/-- `ClaimForRunner`, with the claim id that is drawn. -/
def claimForRunner (req : ClaimRequest) (claimID : ClaimID) (clock : Int) (rank : String → Nat) :
    Reply (Option Claim) :=
  match d.runnerForSession req.runnerID req.sessionID with
  | .error err => (d, .error err)
  | .ok state =>
    match d.recoverableHandoff req.runnerID req.sessionID state with
    | some (recovered, handoff) =>
      ({ d with
        toRecords := d.editHandoff recovered { handoff with recoveryReady := false } },
        .ok (some
          { claimID := recovered
            assignment := handoff.assignment
            handoff := some handoff.debt }))
    | none =>
      if d.draining req.runnerID ∨ req.recoveryOnly then
        (d, .ok (replayLease state req.activeLeaseIDs rank))
      else if state.headroom ≤ 0 then (d, .ok none)
      else
        match d.queues.first (cfg.targets state.snapshot.capabilities)
            (d.claimable cfg state clock) with
        | none => (d, .ok none)
        | some (target, assignment) =>
          let generation := ((d.controls.get req.runnerID).map (·.generation)).getD 0
          ({ d with
            queues := d.queues.take target (d.claimable cfg state clock) assignment.assignmentID
            toRecords := d.reserve claimID req.runnerID state assignment generation },
            .ok (some { claimID := claimID, assignment := assignment }))

/-! ### Handoffs -/

def finalizeClaim (claimID : ClaimID) (lease : Option TaskLease) :
    Reply Unit :=
  match d.claims.get claimID with
  | none => (d, .ok ())
  | some claim =>
    match d.runners.get claim.runnerID with
    | none => (d, .error .claimNotActive)
    | some state => ({ d with toRecords := d.finalize claimID claim state lease }, .ok ())

def markClaimLeaseMayExist (claimID : ClaimID) : Reply Unit :=
  match d.claims.get claimID, d.handoffs.get claimID with
  | some _, some handoff =>
    if handoff.debt.state = .reserved ∨ handoff.debt.state = .leaseMayExist then
      ({ d with
        toRecords := d.editHandoff claimID
          { handoff with
            debt := { handoff.debt with state := .leaseMayExist }
            recoveryReady := false } }, .ok ())
    else (d, .error .claimNotActive)
  | _, _ => (d, .error .claimNotActive)

def recordClaimLeaseCreated (claimID : ClaimID) (lease : Option TaskLease) :
    Reply Unit :=
  match d.claims.get claimID, d.handoffs.get claimID, lease with
  | some _, some _, none => (d, .error .nilLease)
  | some _, some handoff, some lease =>
    if handoff.debt.state.unresolved then
      ({ d with
        toRecords := d.editHandoff claimID
          { handoff with
            debt := { handoff.debt with state := .leaseCreated, lease := some lease }
            recoveryReady := false } }, .ok ())
    else (d, .error .claimNotActive)
  | _, _, _ => (d, .error .claimNotActive)

def makeClaimHandoffRecoverable (claimID : ClaimID) : Reply Unit :=
  match d.handoffs.get claimID with
  | none => (d, .error .claimNotActive)
  | some handoff =>
    if handoff.debt.state.unresolved then
      ({ d with toRecords := d.editHandoff claimID { handoff with recoveryReady := true } }, .ok ())
    else (d, .ok ())

/-- The assignment ends: its queue entries and marks go. -/
def forget (id : AssignmentID) : MemoryRunnerDirectory :=
  { d with
    queues := d.queues.remove cfg id
    seen := d.seen.erase id
    released := d.released.erase id }

def settleClaimHandoff (claimID : ClaimID) (disposition : HandoffDisposition) (clock : Int) :
    Reply Unit :=
  match d.claims.get claimID with
  | none => (d, .ok ())
  | some claim =>
    match (d.handoffs.get claimID).filter (·.debt.state.unresolved) with
    | none => (d, .error .handoffResolutionRequired)
    | some handoff =>
      let settled :=
        { d with
          toRecords := (d.deleteClaim claimID claim).deleteHandoff claimID
            handoff.assignment.assignmentID }
      match disposition with
      | .requeue => (settled.pushAll cfg clock [claim.assignment], .ok ())
      | .drop => (settled.forget cfg claim.assignment.assignmentID, .ok ())

def releaseClaim (claimID : ClaimID) (reason : ReleaseClaimReason) (clock : Int) :
    Reply Unit :=
  match d.claims.get claimID with
  | none => (d, .ok ())
  | some claim =>
    if (d.handoffs.get claimID).any (·.debt.state ≠ .reserved) then
      (d, .error .handoffResolutionRequired)
    else
      let dropped := { d with toRecords := d.dropClaim claimID claim }
      match reason with
      | .requeue => (dropped.pushAll cfg clock [claim.assignment], .ok ())
      | .drop => (dropped.forget cfg claim.assignment.assignmentID, .ok ())
      | .keepSeen => (dropped, .ok ())

/-! ### Leases -/

/-- `ReleaseExpiredLease`: the first runner that has a lease of the assignment decides. -/
def releaseExpiredLease (assignmentID : AssignmentID) (leaseID : LeaseID) (leaseToken : LeaseToken)
    (rank : String → Nat) : MemoryRunnerDirectory × ExpiredDirectoryLeaseOutcome :=
  match (d.runners.walk rank).findSome? (fun entry =>
      (entry.2.finalizedLease.get assignmentID).map (fun lease => (entry.1, entry.2, lease))) with
  | none => (d, .alreadyReleased)
  | some (runnerID, state, lease) =>
    if lease.leaseID ≠ leaseID ∨ lease.leaseToken ≠ leaseToken then (d, .tokenMismatch)
    else
      let dropped := { d with toRecords := d.dropLease runnerID state assignmentID lease }
      (dropped.forget cfg assignmentID, .released)

def settleFinalizedHandoff (assignmentID : AssignmentID) (leaseID : LeaseID)
    (leaseToken : LeaseToken) (rank : String → Nat) : MemoryRunnerDirectory :=
  { d with toRecords := d.deleteFinalizedHandoff rank assignmentID leaseID leaseToken }

def releaseLeased (req : ReleaseLeasedRequest) (rank : String → Nat) :
    Reply Unit :=
  match d.runners.get req.runnerID with
  | none => (d, .error .runnerNotFound)
  | some state =>
    match state.resolveAssignmentID req with
    | none => (d, .ok ())
    | some id =>
      match (state.finalizedLease.get id).filter (matchesReleasedLease · req) with
      | none => (d, .ok ())
      | some current =>
        let dropped :=
          { d with
            toRecords := (d.dropLease req.runnerID state id current).deleteFinalizedHandoff rank id
              current.leaseID current.leaseToken }
        if req.removeSeen then (dropped.forget cfg id, .ok ())
        else ({ dropped with released := insert id dropped.released }, .ok ())

def clearAssignment (id : AssignmentID) (rank : String → Nat) : MemoryRunnerDirectory :=
  { d.forget cfg id with toRecords := d.clear id rank }

def lookupLease (runnerID sessionID : String) (key : LeaseLookupKey) (rank : String → Nat) :
    Option TaskLease :=
  match d.runners.get runnerID with
  | none => none
  | some state =>
    if state.sessionID ≠ sessionID then none
    else
      let req : ReleaseLeasedRequest :=
        { runnerID := runnerID
          assignmentID := key.assignmentID
          leaseID := key.leaseID
          leaseToken := key.leaseToken }
      let resolved := state.resolveAssignmentID req
      let leases := (state.finalizedLease.walk rank).map (·.2)
      match (resolved.bind state.finalizedLease.get).filter (fun current =>
          matchesReleasedLease current req ∧ (key.nodeName = "" ∨ key.namesTask current)) with
      | some current => some current
      | none =>
        if key.nodeName = "" then
          (leases.find? (fun lease => key.identifies lease ∧ lease.subgraphPayload)).or
            (leases.find? key.identifies)
        else if resolved = none ∨ key.leaseToken = "" then none
        else leases.find? (fun lease => lease.leaseToken = key.leaseToken ∧ key.namesTask lease)

/-! ### Controls -/

/-- `handoffStatsLocked`. -/
def handoffStats (runnerID : String) (state : RunnerState) : HandoffDebtStats where
  activeClaims := state.activeClaims.size
  leasedTasks := state.finalizedLease.size
  unsettledDebt := d.handoffs.count (fun _ handoff => handoff.runnerID = runnerID)
  handoffDebt := d.handoffs.count (fun _ handoff =>
    handoff.runnerID = runnerID ∧ handoff.debt.state.unresolved)
  leaseMayExistDebt := d.handoffs.count (fun _ handoff =>
    handoff.runnerID = runnerID ∧ handoff.debt.state = .leaseMayExist)
  replayableDebt := d.handoffs.count (fun _ handoff =>
    handoff.runnerID = runnerID ∧ handoff.debt.state = .finalized)

/-- `pendingDeactivationCleanupLocked`. -/
def pendingDeactivationCleanup (runnerID : String) : Nat :=
  d.deactivationObligations.count (fun _ obligation => obligation.runnerID = runnerID)

/-- The projection of a control of a runner. -/
def controlProjection (runnerID : String) (state : RunnerState) (control : RunnerControl)
    (now : Int) : RunnerControlSnapshot :=
  control.projection state.sessionID (d.handoffStats runnerID state)
    (d.pendingDeactivationCleanup runnerID) now cfg.freshness

/-- `RunnerControl`: the projection for a registered runner. -/
def runnerControl (runnerID : String) (clock : Int) : Option RunnerControlSnapshot :=
  (d.runners.get runnerID).map (fun state =>
    d.controlProjection cfg runnerID state ((d.controls.get runnerID).getD {}) clock)

def setRunnerControl (req : RunnerControlRequest) (clock : Int) : Reply RunnerControlSnapshot :=
  let now := req.now.getD clock
  if req.runnerID = "" then (d, .error .runnerIDRequired)
  else if req.requestID = "" ∨ req.requestHash = "" then (d, .error .controlRequestIDRequired)
  else
    match d.runners.get req.runnerID with
    | none => (d, .error .runnerNotFound)
    | some state =>
      let control := ((d.controls.get req.runnerID).getD {}).cleanup now
      let kept := { d with controls := d.controls.put req.runnerID control }
      match control.receipts.get req.receiptID with
      | some receipt =>
        if receipt.requestHash ≠ req.requestHash then (kept, .error .controlRequestConflict)
        else (kept, .ok receipt.snapshot)
      | none =>
        let moved := control.transition cfg req now
        let snapshot := d.controlProjection cfg req.runnerID state moved now
        let receipt : RunnerControlReceipt :=
          { requestHash := req.requestHash
            snapshot := snapshot
            expiresAt := now + cfg.receiptRetention }
        ({ d with
          controls := d.controls.put req.runnerID
            { moved with receipts := moved.receipts.put req.receiptID receipt } }, .ok snapshot)

/-! ### Obligations -/

def ensureDeactivationObligation (obligation : DeactivationObligation) : Reply Bool :=
  if !obligation.valid then (d, .error .invalidObligation)
  else
    match d.runners.get obligation.runnerID with
    | none => (d, .ok false)
    | some state =>
      if (d.controls.get obligation.runnerID).any (fun control =>
          control.desired = .draining ∧ control.generation = obligation.drainGeneration) then
        let reported : Bool := ((d.activationInventory.get obligation.runnerID).getD ∅).get
          obligation.toDeactivationInventoryKey = some obligation.generation
        let bound :=
          if obligation.sessionID = "" ∨ obligation.sessionID = state.sessionID ∨ reported then
            { obligation with sessionID := state.sessionID, state := .pendingFence }
          else { obligation with state := .pendingFence }
        let id := obligation.toDeactivationObligationID
        if (d.deactivationObligations.get id).isSome then (d, .ok true)
        else
          ({ d with deactivationObligations := d.deactivationObligations.put id bound }, .ok true)
      else (d, .ok false)

def markDeactivationObligationReady (obligation : DeactivationObligation) : Reply Unit :=
  if !obligation.valid then (d, .error .invalidObligation)
  else
    let id := obligation.toDeactivationObligationID
    match d.deactivationObligations.get id with
    | none => (d, .error .obligationNotFound)
    | some existing =>
      ({ d with
        deactivationObligations :=
          d.deactivationObligations.put id { existing with state := .ready } }, .ok ())

def cancelPendingDeactivationObligation (obligation : DeactivationObligation) : Reply Unit :=
  if !obligation.valid then (d, .error .invalidObligation)
  else
    let id := obligation.toDeactivationObligationID
    if (d.deactivationObligations.get id).any (·.state = .pendingFence) then
      ({ d with deactivationObligations := d.deactivationObligations.drop id }, .ok ())
    else (d, .ok ())

def acknowledgeDeactivation (ack : ActivationAck) : Reply Bool :=
  if !ack.deactivated ∨ ack.runnerID = "" ∨ ack.sessionID = "" ∨ ack.workflowVersion = "" then
    (d, .error .invalidReceipt)
  else if (d.runners.get ack.runnerID).any (·.sessionID = ack.sessionID) ∧
      (d.deactivationObligations.get ack.toDeactivationObligationID).any (fun obligation =>
        obligation.state = .ready ∧ obligation.sessionID = ack.sessionID) then
    ({ d with
      deactivationObligations :=
        d.deactivationObligations.drop ack.toDeactivationObligationID }, .ok true)
  else (d, .ok false)

def rebindDeactivationObligations (runnerID sessionID : String)
    (reported : List ActivationInventoryItem) : Reply Unit :=
  match d.runnerForSession runnerID sessionID with
  | .error err => (d, .error err)
  | .ok _ => (d.setActivationInventoryAndRebind runnerID sessionID reported, .ok ())

end MemoryRunnerDirectory

/-! ### Steps -/

/-- The operations, with their arguments. -/
inductive Operation where
  | register (req : RegisterRunnerRequest) (sessionID : String) (rank : String → Nat)
  | heartbeat (req : HeartbeatRequest)
  | deregister (runnerID sessionID : String)
  | removeRunner (runnerID : String)
  | enqueueAssignment (assignment : Assignment)
  | claimForRunner (req : ClaimRequest) (claimID : ClaimID) (rank : String → Nat)
  | finalizeClaim (claimID : ClaimID) (lease : Option TaskLease)
  | markClaimLeaseMayExist (claimID : ClaimID)
  | recordClaimLeaseCreated (claimID : ClaimID) (lease : Option TaskLease)
  | makeClaimHandoffRecoverable (claimID : ClaimID)
  | settleClaimHandoff (claimID : ClaimID) (disposition : HandoffDisposition)
  | releaseClaim (claimID : ClaimID) (reason : ReleaseClaimReason)
  | releaseExpiredLease (assignmentID : AssignmentID) (leaseID : LeaseID) (leaseToken : LeaseToken)
      (rank : String → Nat)
  | settleFinalizedHandoff (assignmentID : AssignmentID) (leaseID : LeaseID)
      (leaseToken : LeaseToken) (rank : String → Nat)
  | releaseLeased (req : ReleaseLeasedRequest) (rank : String → Nat)
  | clearAssignment (assignmentID : AssignmentID) (rank : String → Nat)
  | setRunnerControl (req : RunnerControlRequest)
  | ensureDeactivationObligation (obligation : DeactivationObligation)
  | markDeactivationObligationReady (obligation : DeactivationObligation)
  | cancelPendingDeactivationObligation (obligation : DeactivationObligation)
  | acknowledgeDeactivation (ack : ActivationAck)
  | rebindDeactivationObligations (runnerID sessionID : String)
      (reported : List ActivationInventoryItem)

namespace MemoryRunnerDirectory

/-- The directory after an operation at a reading of the clock. -/
def after (cfg : Config) (d : MemoryRunnerDirectory) (clock : Int) :
    Operation → MemoryRunnerDirectory
  | .register req sessionID rank => (d.register cfg req sessionID clock rank).1
  | .heartbeat req => (d.heartbeat req clock).1
  | .deregister runnerID sessionID => (d.deregister runnerID sessionID).1
  | .removeRunner runnerID => (d.removeRunner runnerID).1
  | .enqueueAssignment assignment => (d.enqueueAssignment cfg assignment clock).1
  | .claimForRunner req claimID rank => (d.claimForRunner cfg req claimID clock rank).1
  | .finalizeClaim claimID lease => (d.finalizeClaim claimID lease).1
  | .markClaimLeaseMayExist claimID => (d.markClaimLeaseMayExist claimID).1
  | .recordClaimLeaseCreated claimID lease => (d.recordClaimLeaseCreated claimID lease).1
  | .makeClaimHandoffRecoverable claimID => (d.makeClaimHandoffRecoverable claimID).1
  | .settleClaimHandoff claimID disposition =>
    (d.settleClaimHandoff cfg claimID disposition clock).1
  | .releaseClaim claimID reason => (d.releaseClaim cfg claimID reason clock).1
  | .releaseExpiredLease id leaseID leaseToken rank =>
    (d.releaseExpiredLease cfg id leaseID leaseToken rank).1
  | .settleFinalizedHandoff id leaseID leaseToken rank =>
    d.settleFinalizedHandoff id leaseID leaseToken rank
  | .releaseLeased req rank => (d.releaseLeased cfg req rank).1
  | .clearAssignment id rank => d.clearAssignment cfg id rank
  | .setRunnerControl req => (d.setRunnerControl cfg req clock).1
  | .ensureDeactivationObligation obligation => (d.ensureDeactivationObligation obligation).1
  | .markDeactivationObligationReady obligation => (d.markDeactivationObligationReady obligation).1
  | .cancelPendingDeactivationObligation obligation =>
    (d.cancelPendingDeactivationObligation obligation).1
  | .acknowledgeDeactivation ack => (d.acknowledgeDeactivation ack).1
  | .rebindDeactivationObligations runnerID sessionID reported =>
    (d.rebindDeactivationObligations runnerID sessionID reported).1

/-- A claim id that is drawn is not in use. -/
def drawable (d : MemoryRunnerDirectory) : Operation → Bool
  | .claimForRunner _ claimID _ =>
    d.claims.get claimID = none ∧ (d.handoffs.get claimID).isNone
  | _ => true

/-- One operation at a reading of the clock. -/
def step (cfg : Config) (call : Operation × Int) (d : MemoryRunnerDirectory) :
    Option MemoryRunnerDirectory :=
  if d.drawable call.1 then some (d.after cfg call.2 call.1) else none

/-- The directories that finitely many operations lead to. -/
def Reachable (cfg : Config) : MemoryRunnerDirectory → Prop :=
  Transition.Run (step cfg) (fun _ _ => True) ∅

end MemoryRunnerDirectory

end Xflow.Directory
