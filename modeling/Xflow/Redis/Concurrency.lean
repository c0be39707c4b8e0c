import Xflow.Lib.SortedSet
import Xflow.Store.Concurrency

/-!
# Concurrency slots in Redis

The keys of one workflow that bound how many of its executions run at once, and the scripts that
read and write them, each in one atomic step.  The holders and the line are sorted sets: the line is
scored by a counter, and a second sorted set holds when the waits end.  What a script decides about
the slot is finished on the keys of the executions afterwards (`completePromotions`).

The lifetimes of keys, the index of workflows with slots and failures of the connection are left
out; times are in milliseconds.
-/

namespace Xflow

/-- The keys of one workflow's slots, and the status and the outbox of its executions. -/
structure RedisSlots where
  status : String → Option ExecutionStatus := fun _ => none
  outbox : String → List OutboxEntry := fun _ => []
  slot : SortedSet String := {}
  queue : SortedSet String := {}
  seq : Int := 0
  capacity : Option Int := none
  deadline : SortedSet String := {}

/-- `concurrencyAdmit…`: the reply codes of an admission. -/
inductive AdmitCode where
  | refusedLimit
  | admitted
  | queued
  | refusedQueueFull
  deriving DecidableEq

structure WorkflowAdmitResult where
  code : AdmitCode
  position : Nat := 0
  added : Bool := false
  promoted : List String := []
  deriving DecidableEq

/-- `concurrencyRefusal`. -/
def AdmitCode.refusal : AdmitCode → Option ConcurrencyError
  | .refusedLimit => some .concurrencyLimit
  | .refusedQueueFull => some .concurrencyQueueFull
  | _ => none

/-- The reply of a release. -/
structure WorkflowReleaseResult where
  drained : Bool
  wasQueued : Bool
  promoted : List String
  deriving DecidableEq

namespace RedisSlots

variable (r : RedisSlots)

/-! ### The scripts on the slot -/

/-- The loop that hands free slots to the head of the line, up to a number of rounds. -/
def handOver (limit now : Int) : Nat → RedisSlots → RedisSlots × List String
  | 0, r => (r, [])
  | n + 1, r =>
    if r.slot.card < limit then
      match r.queue.popMin with
      | none => (r, [])
      | some (head, rest) =>
        let r :=
          { r with
            slot := r.slot.add (now / 1000) head
            queue := rest
            deadline := r.deadline.remove head }
        let (r, promoted) := handOver limit now n r
        (r, head :: promoted)
    else (r, [])

/-- The end of `workflowAdmitLua`: the member goes to the end of the line, and free slots go to its
head. -/
def joinLine (member : String) (limit now deadline : Int) : RedisSlots × WorkflowAdmitResult :=
  let r :=
    { r with
      seq := r.seq + 1
      queue := r.queue.add (r.seq + 1) member
      deadline := if 0 < deadline then r.deadline.add deadline member else r.deadline }
  let position := r.queue.card
  let (r, promoted) := r.handOver limit now r.queue.card
  (r, { code := .queued, position := position, added := true, promoted := promoted })

/-- `workflowAdmitLua`. -/
def workflowAdmit (member : String) (limit now : Int) (mode : ConcurrencyMode) (maxQueued : Int)
    (deadline : Int) : RedisSlots × WorkflowAdmitResult :=
  let r := { r with capacity := some limit }
  if (r.slot.score? member).isSome then (r, { code := .admitted })
  else
    match r.queue.rank? member with
    | some rank => (r, { code := .queued, position := rank + 1 })
    | none =>
      if r.slot.card < limit ∧ r.queue.card = 0 then
        ({ r with slot := r.slot.add (now / 1000) member }, { code := .admitted, added := true })
      else if mode = .reject then (r, { code := .refusedLimit })
      else if 0 < maxQueued ∧ maxQueued ≤ r.queue.card then (r, { code := .refusedQueueFull })
      else r.joinLine member limit now deadline

/-- The end of `workflowReleaseLua`: keys that hold nothing go away. -/
def drain : RedisSlots × Bool :=
  if r.slot.card = 0 ∧ r.queue.card = 0 then
    ({ r with slot := {}, queue := {}, deadline := {}, capacity := none }, true)
  else (r, false)

/-- `workflowReleaseLua`. -/
def workflowRelease (member : String) (now : Int) : RedisSlots × WorkflowReleaseResult :=
  let removed := (r.slot.score? member).isSome
  let wasQueued := (r.queue.score? member).isSome
  let r :=
    { r with
      slot := r.slot.remove member
      queue := r.queue.remove member
      deadline := r.deadline.remove member }
  let limit := r.capacity.getD 0
  let (r, promoted) := if removed ∧ 0 < limit then r.handOver limit now r.queue.card else (r, [])
  let (r, drained) := r.drain
  (r, { drained := drained, wasQueued := wasQueued, promoted := promoted })

/-- `workflowFillLua`. -/
def workflowFill (now : Int) : RedisSlots × List String :=
  let limit := r.capacity.getD 0
  if 0 < limit then r.handOver limit now r.queue.card else (r, [])

/-- `workflowQueueExpireLua`: the members whose wait is over leave the line, and those that were
still in it are reported. -/
def workflowQueueExpire (now : Int) (limit : Nat) : RedisSlots × List String :=
  let due := r.deadline.upTo now limit
  due.foldl (fun (r, expired) id =>
    let deadline := r.deadline.remove id
    if (r.queue.score? id).isSome then
      ({ r with deadline := deadline, queue := r.queue.remove id }, expired ++ [id])
    else ({ r with deadline := deadline }, expired)) (r, [])

/-! ### The keys of an execution -/

/-- `promoteQueuedExecutionLua`: the execution leaves the queue and its parked intents become due.
If it is not queued any more, intents that are all parked are dropped. -/
def promoteQueuedExecution (id : String) : RedisSlots :=
  if r.status id = some .queued then
    { r with
      status := Function.update r.status id (some .running)
      outbox := Function.update r.outbox id (ConcurrencyState.promotedOutbox (r.outbox id)) }
  else if r.outbox id ≠ [] ∧ ∀ e ∈ r.outbox id, e.availableAt = .held then
    { r with outbox := Function.update r.outbox id [] }
  else r

def completePromotions (promoted : List String) : RedisSlots :=
  promoted.foldl promoteQueuedExecution r

def dropOutbox (id : String) : RedisSlots :=
  { r with outbox := Function.update r.outbox id [] }

/-- The intents of an execution as its creation writes them: an intent replaces one of its
identifier. -/
def writeIntents (outbox entries : List OutboxEntry) (parked : Bool) : List OutboxEntry :=
  entries.foldl (fun outbox e =>
    outbox.filter (·.id ≠ e.id) ++ [if parked then { e with availableAt := .held } else e]) outbox

def createExecutionAdmitted (id : String) (snap : ExecutionSnapshot) (entries : List OutboxEntry)
    (parked : Bool) : RedisSlots :=
  { r with
    status := Function.update r.status id (some (if parked then .queued else snap.status))
    outbox := Function.update r.outbox id (writeIntents (r.outbox id) entries parked) }

def createExecutionWithConcurrency (id : String) (snap : ExecutionSnapshot)
    (entries : List OutboxEntry) (admission : ConcurrencyAdmission) (now : Int) :
    RedisSlots × Except ConcurrencyError ConcurrencyAdmissionResult :=
  let deadline :=
    if admission.mode = .queue ∧ 0 < admission.queueTimeout then now + admission.queueTimeout
    else 0
  let (r, reply) :=
    r.workflowAdmit id admission.limit now admission.mode admission.maxQueued deadline
  match reply.code.refusal with
  | some err => (r, .error err)
  | none =>
    let r := r.createExecutionAdmitted id snap entries (reply.code = .queued)
    let r := r.completePromotions reply.promoted
    (r, .ok (if reply.code = .queued then { queued := true, queuePosition := reply.position }
      else {}))

def releaseWorkflowSlot (id : String) (now : Int) : RedisSlots :=
  let (r, reply) := r.workflowRelease id now
  let r := if reply.wasQueued then r.dropOutbox id else r
  r.completePromotions reply.promoted

/-- `UpdateExecutionStatus` reports whether the status was written.  An execution that is canceled
or runs out of time loses its outbox. -/
def updateExecutionStatus (id : String) (status : ExecutionStatus) (now : Int) :
    RedisSlots × Bool :=
  match r.status id with
  | none => (r, false)
  | some current =>
    if current.isTerminal then (r, false)
    else if current = .canceling ∧ status ≠ .canceled then (r, false)
    else
      let r := { r with status := Function.update r.status id (some status) }
      let r := if status = .canceled ∨ status = .timeout then r.dropOutbox id else r
      (if status.isTerminal then r.releaseWorkflowSlot id now else r, true)

def defaultConcurrencySweepBatch : Nat := 256

/-- How many executions one call of `ExpireQueuedExecutions` takes at most. -/
def sweepBatch (limit : Int) : Nat :=
  if limit ≤ 0 then defaultConcurrencySweepBatch else limit.toNat

/-- `ExpireQueuedExecutions`, on one workflow. -/
def expireQueuedExecutions (limit now : Int) : RedisSlots :=
  let (r, expired) := r.workflowQueueExpire now (sweepBatch limit)
  expired.foldl (fun r id => (r.updateExecutionStatus id .timeout now).1.dropOutbox id) r

def fillConcurrencySlots (now : Int) : RedisSlots :=
  let (r, filled) := r.workflowFill now
  r.completePromotions filled

end RedisSlots

end Xflow
