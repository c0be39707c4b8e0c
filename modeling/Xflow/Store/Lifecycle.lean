import Xflow.Graph.Topology
import Xflow.Store.Group

/-!
# The life of an execution in the local store

Creation with its initial intents, status updates, pausing, leaving the concurrency queue by
promotion or expiry, acquiring the lease of a node, and advancing past a node that was committed
without its arrivals.
-/

namespace Xflow

namespace MemoryState

/-! ### Creation -/

/-- `createExecutionLocked`: the records of a new execution.  Every unit starts with its in-degree;
the completion counters are seeded for a graph without cycles only. -/
def createExecution (g : Topology) (id : String) (snap : ExecutionSnapshot) (slot : SlotPlace) :
    MemoryState where
  id := id
  execution := some snap
  inDegrees := g.unitInDegreeAt
  remaining := if g.allowCycles then 0 else g.unitCount
  slot := slot

/-- Store an initial intent; a skip intent marks its unit. -/
def writeInitialIntent (held : Bool) (s : MemoryState) (e : OutboxEntry) : MemoryState :=
  let s :=
    if e.task.type = .nodeSkip
    then { s with scheduled := Function.update s.scheduled e.task.unitIdx .skip } else s
  (s.putOutboxEntry (if held then { e with availableAt := .held } else e)).1

/-- `writeInitialIntentsLocked`: store the initial intents, held while the execution is queued. -/
def writeInitialIntents (entries : List OutboxEntry) (held : Bool) (s : MemoryState) :
    MemoryState :=
  entries.foldl (writeInitialIntent held) s

theorem writeInitialIntents_spec (entries : List OutboxEntry) (s : MemoryState) :
  ∃ sched, writeInitialIntents entries false s =
      { s with scheduled := sched, outbox := entries.foldl putEntry s.outbox } ∧
    ∀ d, sched d = if ∃ e ∈ entries, e.task.type = .nodeSkip ∧ e.task.unitIdx = d
      then .skip else s.scheduled d
  := by
  induction entries generalizing s with
  | nil =>
    use s.scheduled
    simp [writeInitialIntents]
  | cons e entries ih =>
    obtain ⟨sched, heq, hsched⟩ := ih (writeInitialIntent false s e)
    use sched
    constructor
    · rw [writeInitialIntents, List.foldl_cons, ← writeInitialIntents, heq]
      simp only [writeInitialIntent]
      split <;> rfl
    · intro d
      rw [hsched]
      simp only [List.mem_cons, exists_eq_or_imp, writeInitialIntent, putOutboxEntry]
      by_cases hrest : ∃ e ∈ entries, e.task.type = .nodeSkip ∧ e.task.unitIdx = d
      · simp only [hrest, or_true, if_true]
      · by_cases htype : e.task.type = .nodeSkip
        · by_cases hd : d = e.task.unitIdx
          · simp [htype, hd]
          · simp [htype, hd, Ne.symm hd]
        · simp [htype]

/-! ### Status -/

/-- `updateExecutionStatusLocked`: a status that is over stays, and canceling gives way to canceled
only.  Reports whether the status was written. -/
def updateExecutionStatus (s : MemoryState) (status : ExecutionStatus) (errMsg : String) :
    MemoryState × Bool :=
  match s.execution with
  | none => (s, false)
  | some snap =>
    if snap.status.isTerminal then (s, false)
    else if snap.status = .canceling ∧ status ≠ .canceled then (s, false)
    else
      let s := { s with execution := some { snap with
        status := status, error := if errMsg ≠ "" then errMsg else snap.error } }
      (if status.isTerminal then s.releaseWorkflowSlot else s, true)

/-- Why a pause or a resume is refused. -/
inductive PauseError where
  | notPausable
  | notPaused
  deriving DecidableEq

/-- `PauseExecution`: a running execution is paused. -/
def pauseExecution (s : MemoryState) : Except PauseError MemoryState :=
  match s.execution with
  | none => .error .notPausable
  | some snap =>
    if snap.status = .paused then .ok s
    else if snap.status = .running then
      .ok { s with execution := some { snap with status := .paused } }
    else .error .notPausable

/-- `ResumeExecution`: a paused execution runs again. -/
def resumeExecution (s : MemoryState) : Except PauseError MemoryState :=
  match s.execution with
  | none => .error .notPaused
  | some snap =>
    if snap.status = .paused then
      .ok { s with execution := some { snap with status := .running } }
    else .error .notPaused

/-- `completePromotionLocked`: a queued execution that got a slot runs, and its intents become
deliverable. -/
def completePromotion (s : MemoryState) : MemoryState :=
  { s with
    slot := .holder
    execution := s.execution.map (fun snap =>
      if snap.status = .queued then { snap with status := .running } else snap)
    outbox := s.outbox.map (fun e =>
      if e.availableAt = .held then { e with availableAt := .now } else e) }

/-- `promoteLocked`, for one execution: it leaves the queue if it is in it. -/
def promote (s : MemoryState) : MemoryState :=
  match s.slot with
  | .queued _ => s.completePromotion
  | _ => s

/-- `ExpireQueuedExecutions`, for one execution: a queued execution whose deadline has passed times
out. -/
def expireQueued (s : MemoryState) (now : Nat) : MemoryState :=
  match s.slot with
  | .queued (some deadline) =>
    if deadline ≤ now then (s.updateExecutionStatus .timeout "concurrency queue timeout").1 else s
  | _ => s

/-! ### Leases -/

/-- A claim on the node a task names. -/
structure TaskLease where
  task : Task
  leaseID : String
  leaseToken : String
  /-- The attempt granted with the lease, which its holder presents. -/
  attempt : Int := 0
  issuedAt : Nat
  ttl : Nat

/-- `acquireTaskLeaseLocked`: why the row of the node refuses a claim. -/
def refusesLease (current : NodeSnapshot) (lease : TaskLease) : Bool :=
  let act := lease.task.activationID
  (0 < act ∧ act < current.activationID) ∨
    (current.status.isTerminal ∧ (act ≤ 0 ∨ act ≤ current.activationID)) ∨
    current.status = .committing ∨ current.status = .waiting ∨
    (current.status = .running ∧ current.leaseToken ≠ "" ∧
      (current.leaseIssuedAt = 0 ∨ current.leaseTTL = 0 ∨
        lease.issuedAt < current.leaseIssuedAt + current.leaseTTL))

/-- The row of a leased node. -/
def leasedRow (current : Option NodeSnapshot) (privateOutput : Bool) (lease : TaskLease) :
    NodeSnapshot where
  nodeIdx := lease.task.nodeIdx
  unitIdx := lease.task.unitIdx
  status := .running
  leaseID := lease.leaseID
  leaseToken := lease.leaseToken
  attempt :=
    match current with
    | none => 1
    | some row => if row.activationID = lease.task.activationID then row.attempt + 1 else 1
  activationID := lease.task.activationID
  autoDepth := lease.task.autoDepth
  leaseIssuedAt := lease.issuedAt
  leaseTTL := lease.ttl
  leaseTaskType := lease.task.type
  privateOutput := privateOutput
  childExecutionID := (current.map (·.childExecutionID)).getD ""

/-- `acquireTaskLeaseLocked`: claim a node; reports whether the claim was granted. -/
def acquireTaskLease (s : MemoryState) (lease : TaskLease) : MemoryState × Bool :=
  let name := lease.task.nodeName
  let current := s.nodes name
  if current.any (refusesLease · lease) then (s, false)
  else
    let (s, privateOutput) := s.preserveOutputPrivacy name false
    ({ s with
      nodes := Function.update s.nodes name (some (leasedRow current privateOutput lease)) }, true)

/-- `AcquireTaskLeaseChecked`: claim a node of an execution that is not over. -/
def acquireTaskLeaseChecked (s : MemoryState) (lease : TaskLease) (allowCycles : Bool) :
    MemoryState × Bool :=
  match s.execution with
  | none => (s, false)
  | some snap =>
    if snap.status.isTerminal then (s, false)
    else if allowCycles then
      if lease.task.activationID ≤ 0 then (s, false) else s.acquireTaskLease lease
    else if (s.nodes lease.task.nodeName).any (·.status.isTerminal) then (s, false)
    else s.acquireTaskLease lease

/-- A lease is refused, or the row of the node is written. -/
theorem acquireTaskLeaseChecked_or {s : MemoryState} {lease : TaskLease} {allowCycles : Bool} :
  s.acquireTaskLeaseChecked lease allowCycles = (s, false) ∨
    (∃ snap, s.execution = some snap ∧ snap.status.isTerminal = false) ∧
    (allowCycles = false → (s.nodes lease.task.nodeName).any (·.status.isTerminal) = false) ∧
    (s.nodes lease.task.nodeName).any (refusesLease · lease) = false ∧
    s.acquireTaskLeaseChecked lease allowCycles =
      let kept := s.preserveOutputPrivacy lease.task.nodeName false
      ({ kept.1 with
          nodes := Function.update kept.1.nodes lease.task.nodeName
            (some (leasedRow (s.nodes lease.task.nodeName) kept.2 lease)) }, true)
  := by
  unfold acquireTaskLeaseChecked acquireTaskLease
  repeat' split
  all_goals simp_all

/-! ### Advancing -/

/-- A request to advance past a committed node. -/
structure AdvanceNodeRequest where
  nodeName : String
  activationID : Int := 0
  autoDepth : Int := 0
  arrivals : List DownstreamArrival := []

/-- `AdvanceNode`: apply the arrivals of a node that was committed without them, once.  Reports
whether they were applied. -/
def advanceNode (s : MemoryState) (req : AdvanceNodeRequest) :
    MemoryState × Bool × List String × List SkippedUnit :=
  let key := (req.nodeName, req.activationID)
  if s.execution.all (·.status.isTerminal) then (s, false, [], [])
  else if (s.nodes req.nodeName).all (fun row =>
      ¬ row.status.isTerminal ∨ row.activationID ≠ req.activationID) then (s, false, [], [])
  else if s.advanced key then (s, false, [], [])
  else
    let s := { s with advanced := Function.update s.advanced key true }
    let (s, outboxIDs, skipped) := applyArrivals req.activationID req.autoDepth req.arrivals s
    (s, true, outboxIDs, skipped)

end MemoryState

end Xflow
