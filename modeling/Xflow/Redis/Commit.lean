import Xflow.Store.Commit

/-!
# Committing a node in Redis

The distributed store commits a node in one Lua script, `commitNodeLua`, which Redis runs
atomically.  `RedisState` is the part of the keyspace that belongs to one execution; a counter whose
key is absent reads as zero, and the intents are a hash from identifiers to bodies.  The script
finishes an execution only if it is neither over nor being canceled, and writes no intent while it
is being canceled.
-/

namespace Xflow

/-- The hash of a node; absent fields read as empty or zero. -/
structure NodeHash where
  leaseID : String := ""
  leaseToken : String := ""
  attempt : Int := 0
  activationID : Int := 0
  autoDepth : Int := 0
  port : String := ""
  error : String := ""
  errorDetails : Data := []
  committedLeaseToken : String := ""
  committedAttempt : Int := 0
  privateOutput : Bool := false

/-- The keys of one execution. -/
structure RedisState where
  id : String
  status : Option ExecutionStatus := none
  error : String := ""
  remaining : Int := 0
  failed : Int := 0
  nodeStatus : String → Option NodeStatus := fun _ => none
  nodeMeta : String → NodeHash := fun _ => {}
  outputs : String → Option Data := fun _ => none
  inDegree : Int → Int := fun _ => 0
  activeInputs : Int → Int := fun _ => 0
  schedule : Int → Marker := fun _ => .none
  outboxBody : String → Option OutboxEntry := fun _ => none

namespace RedisState

variable (r : RedisState)

/-- `HSETNX` of an intent; reports whether it was stored. -/
def putOutbox (e : OutboxEntry) : RedisState × Bool :=
  if r.outboxBody e.id = none
  then ({ r with outboxBody := Function.update r.outboxBody e.id (some e) }, true)
  else (r, false)

/-! ### The fence -/

/-- Whether a unit may be committed without a lease. -/
def systemAdmits (req : CommitNodeRequest) : Bool :=
  let action := r.schedule req.unitIdx
  let status := r.nodeStatus req.nodeName
  if req.status = .canceled then
    let live := status = some .suspended ∨ status = some .running ∨ status = some .committing
    let scheduled := (status = none ∨ status = some .pending) ∧ action = .execute
    (live ∧ action ≠ .skip) ∨ scheduled
  else
    let pinned := req.status = .pinned
    let skipped := req.status = .skipped
    ¬ ((pinned ∧ action = .skip) ∨ (¬ pinned ∧ ¬ skipped ∧ action ≠ .skip) ∨
      (status ≠ none ∧ status ≠ some .pending))

/-- Whether the request comes from the holder of the node's lease. -/
def leaseAdmits (req : CommitNodeRequest) : Bool :=
  let status := r.nodeStatus req.nodeName
  let hash := r.nodeMeta req.nodeName
  (status = some .running ∨ status = some .committing ∨ status = some .waiting) ∧
    hash.leaseID = req.leaseID ∧ hash.leaseToken = req.leaseToken ∧ hash.attempt = req.attempt ∧
    hash.activationID = req.activationID

/-- How the early returns of the script answer. -/
def commitVerdict (req : CommitNodeRequest) : CommitOutcome :=
  match r.status with
  | none => .executionInactive
  | some executionStatus =>
    let status := r.nodeStatus req.nodeName
    let hash := r.nodeMeta req.nodeName
    if status.any NodeStatus.isTerminal then
      if hash.activationID = req.activationID ∧
          ((req.system ∧ status = some req.status) ∨
            (¬ req.system ∧ hash.committedLeaseToken ≠ "" ∧
              hash.committedLeaseToken = req.leaseToken)) then .duplicateTerminal
      else .staleToken
    else if executionStatus.isTerminal then .executionInactive
    else if if req.system then r.systemAdmits req else r.leaseAdmits req then .accepted
    else .staleToken

/-! ### The parts of an accepted commit -/

/-- Write the row and the output of the node. -/
def writeNode (req : CommitNodeRequest) : RedisState :=
  let hash := r.nodeMeta req.nodeName
  { r with
    outputs :=
      if req.storeOutput then Function.update r.outputs req.nodeName req.output else r.outputs
    nodeStatus := Function.update r.nodeStatus req.nodeName (some req.status)
    nodeMeta := Function.update r.nodeMeta req.nodeName { hash with
      privateOutput := hash.privateOutput || req.privateOutput
      leaseID := ""
      leaseToken := ""
      activationID := req.activationID
      autoDepth := req.autoDepth
      port := req.port
      error := req.error
      errorDetails := req.errorDetails
      committedLeaseToken := req.leaseToken
      committedAttempt := req.attempt } }

/-- The execution is over or being canceled, so that a commit must not write its status. -/
def statusFenced : Bool := r.status.any (fun st => st = .canceling ∨ st.isTerminal)

/-- Write a final status, with its reason if it is failed. -/
def finish (status : ExecutionStatus) (error : String) : RedisState :=
  { r with
    status := some status
    error := if status = .failed ∧ error ≠ "" then error else r.error }

/-- Take one unit off the counter of remaining units, and count it if it failed. -/
def countUnit (req : CommitNodeRequest) : RedisState :=
  { r with
    remaining := r.remaining - 1
    failed := if req.status = .failed then r.failed + 1 else r.failed }

/-- Count a unit and finish the execution if it was the last one or the commit is fatal, unless the
status is fenced; reports the final status. -/
def settleUnit (req : CommitNodeRequest) : RedisState × Option ExecutionStatus :=
  let r := r.countUnit req
  if req.fatal ∨ r.remaining ≤ 0 then
    if r.statusFenced then (r, none)
    else
      let finalStatus : ExecutionStatus := if req.fatal ∨ 0 < r.failed then .failed else .success
      (r.finish finalStatus req.error, some finalStatus)
  else (r, none)

/-- The intent in the slot that the advance and the merge-cancel intent share. -/
def slotIntent (req : CommitNodeRequest) : Option OutboxEntry :=
  match req.mergeCancel with
  | some task => some ⟨mergeCancelOutboxID r.id req.nodeName req.activationID, task, .now⟩
  | none => req.advanceTask.map (⟨advanceOutboxID r.id req.nodeName req.activationID, ·, .now⟩)

/-- Write the intent of the slot. -/
def putSlot (req : CommitNodeRequest) : RedisState :=
  match r.slotIntent req with
  | some e => (r.putOutbox e).1
  | none => r

/-- The part of a cyclic commit: store the intents that follow, or finish with the final status. -/
def scheduleCyclic (req : CommitNodeRequest) : RedisState × Option ExecutionStatus :=
  if req.cyclicOutbox ≠ [] then (req.cyclicOutbox.foldl (fun r e => (r.putOutbox e).1) r, none)
  else if req.cyclicComplete ∧ ¬ r.statusFenced then
    (r.finish req.cyclicFinalStatus req.cyclicFinalError, some req.cyclicFinalStatus)
  else (r, none)

/-- Account for the edges of an arrival at its unit. -/
def countArrival (a : DownstreamArrival) : RedisState :=
  { r with
    inDegree := Function.update r.inDegree a.unitIdx (r.inDegree a.unitIdx - a.arrivalCount)
    activeInputs :=
      if 0 < a.activeCount
      then Function.update r.activeInputs a.unitIdx (r.activeInputs a.unitIdx + a.activeCount)
      else r.activeInputs }

/-- The marker that an arrival decides for its unit, after its edges are accounted for. -/
def nextAction (a : DownstreamArrival) (activeBefore : Int) : Marker :=
  if a.mergeMode = "wait_any" ∧ 0 < a.activeCount ∧ activeBefore = 0 then .execute
  else if r.inDegree a.unitIdx ≤ 0 then
    if 0 < r.activeInputs a.unitIdx then .execute else .skip
  else .none

/-- One round of the arrival loop.  Reports the unit if it is skipped, also when its intent was
there already. -/
def applyArrival (activationID autoDepth : Int) (a : DownstreamArrival) :
    RedisState × Option SkippedUnit :=
  let activeBefore := r.activeInputs a.unitIdx
  let r := r.countArrival a
  if r.schedule a.unitIdx ≠ .none then (r, none)
  else
    let action := r.nextAction a activeBefore
    if action = .none then (r, none)
    else
      let r := { r with schedule := Function.update r.schedule a.unitIdx action }
      let entry := MemoryState.arrivalEntry r.id activationID autoDepth a action
      ((r.putOutbox entry).1, if action = .skip then some ⟨a.nodeName, 1⟩ else none)

/-- The arrival loop. -/
def applyArrivals (activationID autoDepth : Int) :
    List DownstreamArrival → RedisState → RedisState × List SkippedUnit
  | [], r => (r, [])
  | a :: arrivals, r =>
    let (r, skip) := r.applyArrival activationID autoDepth a
    let (r, skips) := applyArrivals activationID autoDepth arrivals r
    (r, skip.toList ++ skips)

/-! ### The transition -/

/-- `commitNodeLua` on an admitted request: the state, the final status if the commit finished the
execution, and the units skipped. -/
def commitAccepted (req : CommitNodeRequest) :
    RedisState × Option ExecutionStatus × List SkippedUnit :=
  let r := r.writeNode req
  let (r, done) := if req.allowCycles then (r, none) else r.settleUnit req
  let r := if done = none ∧ ¬ req.fatal ∧ r.status ≠ some .canceling then r.putSlot req else r
  let (r, done) :=
    if req.allowCycles ∧ done = none ∧ ¬ req.fatal ∧ r.status ≠ some .canceling
    then r.scheduleCyclic req else (r, done)
  let (r, skips) :=
    if ¬ req.allowCycles ∧ done = none ∧ ¬ req.fatal ∧ r.status ≠ some .canceling
    then applyArrivals req.activationID req.autoDepth req.arrivals r else (r, [])
  let r := { r with
    outputs := fun name => if name ∈ req.reclaimOutputNames then none else r.outputs name }
  (r, done, skips)

/-- `commitNodeLua`, with the answer that `CommitNode` reads off its reply. -/
def commitNodeLua (req : CommitNodeRequest) : RedisState × CommitNodeResult :=
  match r.commitVerdict req with
  | .accepted =>
    let (t, done, skips) := r.commitAccepted req
    (t, {
      outcome := .accepted
      applied := true
      executionDone := done.isSome
      executionStatus := done
      outboxIDs :=
        if done = none ∧ ¬ req.fatal then
          (r.slotIntent req).toList.map (·.id) ++ req.cyclicOutbox.map (·.id) ++
            MemoryState.arrivalCandidateOutboxIDs r.id req.activationID req.arrivals
        else []
      skipped := skips })
  | outcome => (r, { outcome := outcome })

/-- `CommitNode`: validate the request, then run the script. -/
def commitNode (req : CommitNodeRequest) : Except String (RedisState × CommitNodeResult) :=
  match req.validate r.id with
  | some err => .error err
  | none => .ok (r.commitNodeLua req)

end RedisState

end Xflow
