import Mathlib.Algebra.GroupWithZero.Nat
import Mathlib.Data.List.Sort
import Xflow.Trigger.Kafka

/-!
# The aggregating Kafka trigger

The records of a partition are collected into batches by a coordinator.  Batches are attempted
concurrently, fail and are tried again; the offsets of a batch are committed once it and all batches
before it succeeded.  A record that arrives while the coordinator holds as many as it may is
dropped, left in the channel, or published to a topic of its own before anything past it is
committed.

A step is one round of the loop of `run`, for the arm of the select that is ready.  The time is
given with each step, as are the outcomes of the calls that the round makes; timers may fire
whenever they like.  What an attempt does is accounted for in the round that takes its result.
-/

namespace Xflow

namespace Kafka

/-! ### Configuration -/

/-- What is done with a record that arrives while the coordinator holds as many as it may. -/
inductive OnOverflow where
  | discard
  | block
  | deadLetter
  deriving DecidableEq

structure AggregateConfig where
  maxSize : Int := 0
  flushInterval : Int := 0
  onOverflow : OnOverflow := .discard
  deadLetterTopic : String := ""
  deriving DecidableEq

/-- `aggregateRuntime`, as far as a coordinator reads it.  `emitSlots` is the capacity of
`emitSem`. -/
structure AggregateRuntime where
  cfg : AggregateConfig := {}
  messageSchema : Option MessageSchema := none
  deadLetterPublisher : Bool := false
  emitSlots : Int := 0
  keysOf : String → Option (List String) := fun _ => none

def defaultAggregateMaxSize : Nat := 100

/-- `defaultAggregateFlushInterval`, in milliseconds. -/
def defaultAggregateFlushInterval : Nat := 100

def maxBufferedBatches : Nat := 4

def maxPartitionPendingBatches : Nat := 4

def aggregateFlatRetryAttempts : Nat := 8

/-- `aggregateMaxRetryDelay`, in milliseconds. -/
def aggregateMaxRetryDelay : Nat := 30000

/-- The loop of `aggregateRetryDelay`: the delay is doubled a number of times, up to its maximum. -/
def doubleDelay : Nat → Nat → Nat
  | 0, delay => delay
  | n + 1, delay =>
    if aggregateMaxRetryDelay ≤ delay * 2 then aggregateMaxRetryDelay
    else doubleDelay n (delay * 2)

def aggregateRetryDelay (base : Int) (attempts : Nat) : Nat :=
  let base := if base ≤ 0 then defaultAggregateFlushInterval else base.toNat
  if attempts ≤ aggregateFlatRetryAttempts then base
  else doubleDelay (attempts - aggregateFlatRetryAttempts) base

namespace AggregateRuntime

variable (rt : AggregateRuntime)

/-- `maxSize` in `run`. -/
def maxSize : Nat := if rt.cfg.maxSize ≤ 0 then defaultAggregateMaxSize else rt.cfg.maxSize.toNat

/-- `maxPending` in `run`. -/
def maxPending : Nat :=
  let pending := min (maxPartitionPendingBatches : Int) rt.emitSlots
  if pending ≤ 0 then 1 else pending.toNat

/-- `maxRetained` in `run`. -/
def maxRetained : Nat := rt.maxSize * (maxBufferedBatches + rt.maxPending)

/-- Whether the schema accepts a record. -/
def accepts (msg : Message) : Bool :=
  rt.messageSchema.all (validateMessageSchema rt.keysOf msg)

/-- `handleInvalidMessage`, with the outcome of the publication it may make. -/
def handleInvalidMessage (published : Bool) : Bool :=
  match (rt.messageSchema.map (·.onInvalid)).getD .discard with
  | .discard => true
  | .fail => false
  | .deadLetter => rt.deadLetterPublisher && published

end AggregateRuntime

/-! ### Batches -/

inductive BatchState where
  | new
  | running
  | retryWait
  | succeeded
  deriving DecidableEq

/-- `aggregateBufferedMessage`. -/
structure BufferedMessage where
  message : Message
  valid : Bool
  deriving DecidableEq

/-- `aggregateBatch`.  A time of zero is none. -/
structure AggregateBatch where
  messages : List Message := []
  discarded : List Message := []
  unresolved : List Message := []
  itemCount : Nat := 0
  state : BatchState := .new
  attempts : Nat := 0
  retryAt : Nat := 0
  closeRetry : Bool := false
  deriving DecidableEq

/-- The batch that `appendBatch` appends. -/
def batchOf (items : List BufferedMessage) : AggregateBatch where
  messages := (items.filter (·.valid)).map (·.message)
  unresolved := (items.filter (! ·.valid)).map (·.message)
  itemCount := items.length

/-- Where `promoteSize` cuts the buffer: after the batch is full of valid records, or after as many
records of which none is valid. -/
def sizeCut (maxSize : Nat) : List BufferedMessage → Nat → Nat → Nat
  | [], _, _ => 0
  | item :: items, i, valid =>
    let valid := if item.valid then valid + 1 else valid
    if valid = maxSize ∨ (i + 1 = maxSize ∧ valid = 0) then i + 1
    else sizeCut maxSize items (i + 1) valid

/-- What happened to the records, in order. -/
inductive Event where
  /-- The coordinator took the record from its channel. -/
  | received (msg : Message)
  /-- The records were emitted in a batch whose attempt succeeded. -/
  | emitted (msgs : List Message)
  /-- The policy for invalid records got the record out of the way. -/
  | resolved (msg : Message)
  /-- The record was published to the overflow topic. -/
  | published (msg : Message)
  /-- `CommitMessages` was called. -/
  | commit (msgs : List Message)
  deriving DecidableEq

/-- `aggregateAttemptResult`, with the events of the attempt. -/
structure AttemptResult where
  ok : Bool
  discarded : List Message
  unresolved : List Message
  events : List Event
  deriving DecidableEq

/-- The loop of `executeBatch` over the invalid records: those that were resolved, and those that
are left. -/
def resolveInvalid (rt : AggregateRuntime) (published : Message → Bool) :
    List Message → List Message × List Message
  | [] => ([], [])
  | msg :: msgs =>
    if rt.handleInvalidMessage (published msg) then
      let (resolved, left) := resolveInvalid rt published msgs
      (msg :: resolved, left)
    else ([], msg :: msgs)

/-- `executeBatch`, with the outcomes of its publications and of its emission; the emission fails
when the attempt is canceled before it has a slot. -/
def executeBatch (rt : AggregateRuntime) (batch : AggregateBatch) (published : Message → Bool)
    (emits : Bool) : AttemptResult :=
  let (resolved, left) := resolveInvalid rt published batch.unresolved
  let ok := left = [] ∧ (batch.messages = [] ∨ emits)
  { ok := ok
    discarded := batch.discarded ++ resolved
    unresolved := left
    events := resolved.map .resolved ++
      if left = [] ∧ batch.messages ≠ [] ∧ emits then [.emitted batch.messages] else [] }

/-! ### The coordinator -/

/-- The variables of `run`.  `commitInFlight` is the number of batches that the commit in flight is
for. -/
structure PartitionAggregator where
  buffer : List BufferedMessage := []
  batches : List AggregateBatch := []
  commitInFlight : Option Nat := none
  commitRetryAt : Nat := 0
  commitAttempts : Nat := 0
  closeCommitRetry : Bool := false
  overflowDropped : Nat := 0
  pendingOverflow : Option Message := none
  dlqAttempts : Nat := 0
  dlqRetryAt : Nat := 0
  closing : Bool := false
  /-- `run` returned. -/
  ended : Bool := false
  events : List Event := []
  deriving DecidableEq

namespace PartitionAggregator

variable (rt : AggregateRuntime) (s : PartitionAggregator)

def retainedCount : Nat := s.buffer.length + (s.batches.map (·.itemCount)).sum

/-- The first records of the buffer become a batch. -/
def promote (cut : Nat) : PartitionAggregator :=
  { s with
    batches := s.batches ++ [batchOf (s.buffer.take cut)]
    buffer := s.buffer.drop cut }

/-- `promoteSize`, when it promotes. -/
def promoteSize : Option PartitionAggregator :=
  if rt.maxPending ≤ s.batches.length ∨ s.buffer.length < rt.maxSize then none
  else
    let cut := sizeCut rt.maxSize s.buffer 0 0
    if cut = 0 then none else some (s.promote cut)

/-- The loop of `fillWindow`; each round adds a batch. -/
def promoteSizes : Nat → PartitionAggregator → PartitionAggregator
  | 0, s => s
  | fuel + 1, s =>
    match s.promoteSize rt with
    | none => s
    | some t => promoteSizes fuel t

def promoteTail : PartitionAggregator :=
  if rt.maxPending ≤ s.batches.length ∨ s.buffer = [] then s else s.promote s.buffer.length

def launchBatch (batch : AggregateBatch) : AggregateBatch :=
  { batch with state := .running, attempts := batch.attempts + 1 }

/-- The second loop of `launchEligible`: of the batches that did not succeed only the first one is
tried again. -/
def relaunchFirst (now : Nat) : List AggregateBatch → List AggregateBatch
  | [] => []
  | batch :: batches =>
    if batch.state = .succeeded then batch :: relaunchFirst now batches
    else if batch.state = .retryWait ∧ ¬ now < batch.retryAt then launchBatch batch :: batches
    else batch :: batches

def launchEligible (now : Nat) : PartitionAggregator :=
  { s with
    batches := relaunchFirst now
      (s.batches.map (fun batch => if batch.state = .new then launchBatch batch else batch)) }

def fillWindow (now : Nat) (includeTail : Bool) : PartitionAggregator :=
  let filled := promoteSizes rt rt.maxPending s
  let filled := if includeTail then filled.promoteTail rt else filled
  filled.launchEligible now

/-- The batches at the front that succeeded. -/
def ready : List AggregateBatch := s.batches.takeWhile (·.state = .succeeded)

/-- The records of the batches that are ready, in the order of their offsets. -/
def readyMessages : List Message :=
  (s.ready.flatMap (fun batch => batch.messages ++ batch.discarded)).insertionSort
    (fun a b => a.offset ≤ b.offset)

def startCommit (now : Nat) : PartitionAggregator :=
  if s.commitInFlight.isSome ∨ now < s.commitRetryAt ∨ s.ready = [] then s
  else
    { s with
      commitInFlight := some s.ready.length
      events := s.events ++ [.commit s.readyMessages] }

/-- `publishOverflowDeadLetter` for the record that is held; `published` is the outcome of the
publication. -/
def publishOverflow (msg : Message) (published : Bool) (now attempts : Nat) :
    PartitionAggregator :=
  if rt.deadLetterPublisher ∧ published then
    { s with
      pendingOverflow := none
      dlqAttempts := 0
      dlqRetryAt := 0
      events := s.events ++ [.published msg] }
  else
    { s with
      pendingOverflow := some msg
      dlqAttempts := attempts
      dlqRetryAt := now + aggregateRetryDelay rt.cfg.flushInterval attempts }

def retryDeadLetter (now : Nat) (published : Bool) : PartitionAggregator :=
  match s.pendingOverflow with
  | none => s
  | some msg =>
    if s.closing ∨ now < s.dlqRetryAt then s
    else s.publishOverflow rt msg published now (s.dlqAttempts + 1)

def advance (now : Nat) (published : Bool) : PartitionAggregator :=
  ((((s.fillWindow rt now s.closing).launchEligible now).startCommit now).retryDeadLetter rt now
    published)

/-- A batch that waits for its next attempt gets one at once. -/
def closeBatch (batch : AggregateBatch) : AggregateBatch :=
  if batch.state = .retryWait then { batch with retryAt := 0, closeRetry := true } else batch

def beginClose (now : Nat) (published : Bool) : PartitionAggregator :=
  PartitionAggregator.advance rt
    { s with
      closing := true
      batches := s.batches.map closeBatch
      commitRetryAt := 0
      closeCommitRetry := s.closeCommitRetry || s.commitRetryAt ≠ 0 }
    now published

def handleOverflow (msg : Message) (now : Nat) (published : Bool) : PartitionAggregator :=
  match rt.cfg.onOverflow with
  | .deadLetter => s.publishOverflow rt msg published now 1
  | _ => { s with overflowDropped := s.overflowDropped + 1 }

/-- The coordinator does not receive. -/
def blocked : Bool :=
  (rt.cfg.onOverflow = .block ∧ rt.maxRetained ≤ s.retainedCount) ∨ s.pendingOverflow.isSome

/-- A batch with the result of its attempt; nothing if the coordinator returns. -/
def attempted (closing : Bool) (now : Nat) (batch : AggregateBatch) (result : AttemptResult) :
    Option AggregateBatch :=
  let batch := { batch with discarded := result.discarded, unresolved := result.unresolved }
  if result.ok then some { batch with state := .succeeded }
  else if closing then
    if batch.closeRetry then none
    else some { batch with state := .retryWait, closeRetry := true, retryAt := 0 }
  else some { batch with
    state := .retryWait
    retryAt := now + aggregateRetryDelay rt.cfg.flushInterval batch.attempts }

end PartitionAggregator

namespace Aggregate

/-- The arms of the select of `run`. -/
inductive Action where
  | receive (msg : Message) (now : Nat) (published : Bool)
  /-- The result of the attempt of a batch. -/
  | attemptResult (k : Nat) (resolves : Message → Bool) (emits : Bool) (now : Nat)
    (published : Bool)
  | commitResult (ok : Bool) (now : Nat) (published : Bool)
  | flushTimer (now : Nat) (published : Bool)
  | retryTimer (now : Nat) (published : Bool)
  | idleTimer
  /-- The channel or `stop` is closed. -/
  | close (now : Nat) (published : Bool)
  | closeTimer

open PartitionAggregator

/-- The offset is past those that were received. -/
def past (events : List Event) (msg : Message) : Bool :=
  events.all (fun
    | .received m => m.offset < msg.offset
    | _ => true)

/-- The loop returns at its top once it is closing and holds nothing. -/
def settle (s : PartitionAggregator) : PartitionAggregator :=
  if s.closing ∧ s.batches = [] ∧ s.buffer = [] ∧ s.commitInFlight = none
  then { s with ended := true } else s

/-- A record that arrives has an offset past those that were received. -/
def Increasing : Action → PartitionAggregator → Prop
  | .receive msg _ _, s => past s.events msg
  | _, _ => True

instance decidableIncreasing (a : Action) (s : PartitionAggregator) :
    Decidable (Increasing a s) := by
  unfold Increasing
  split <;> infer_instance

/-- One round of the loop. -/
def step (rt : AggregateRuntime) : Action → PartitionAggregator → Option PartitionAggregator
  | .receive msg now published, s =>
    if s.ended ∨ s.closing ∨ s.blocked rt then none
    else
      let s : PartitionAggregator := { s with events := s.events ++ [.received msg] }
      if rt.maxRetained ≤ s.retainedCount then some (s.handleOverflow rt msg now published)
      else some (({ s with buffer := s.buffer ++ [⟨msg, rt.accepts msg⟩] } :
        PartitionAggregator).fillWindow rt now false)
  | .attemptResult k resolves emits now published, s =>
    if s.ended then none
    else
      match s.batches[k]? with
      | none => none
      | some batch =>
        if batch.state ≠ .running then none
        else
          let result := executeBatch rt batch resolves emits
          let s : PartitionAggregator := { s with events := s.events ++ result.events }
          match attempted rt s.closing now batch result with
          | none => some { s with ended := true }
          | some batch =>
            some (settle (({ s with batches := s.batches.set k batch } :
              PartitionAggregator).advance rt now published))
  | .commitResult ok now published, s =>
    if s.ended then none
    else
      match s.commitInFlight with
      | none => none
      | some count =>
        let s : PartitionAggregator := { s with commitInFlight := none }
        if ok then
          some (settle (({ s with
            batches := s.batches.drop count
            commitRetryAt := 0
            commitAttempts := 0
            closeCommitRetry := false
            overflowDropped := 0 } : PartitionAggregator).advance rt now published))
        else if s.closing then
          if s.closeCommitRetry then some { s with ended := true }
          else some (settle (({ s with closeCommitRetry := true, commitRetryAt := 0 } :
            PartitionAggregator).advance rt now published))
        else some (settle (({ s with
          commitAttempts := s.commitAttempts + 1
          commitRetryAt := now + aggregateRetryDelay rt.cfg.flushInterval (s.commitAttempts + 1) } :
            PartitionAggregator).advance rt now published))
  | .flushTimer now published, s =>
    if s.ended then none
    else some (settle ((s.fillWindow rt now true).advance rt now published))
  | .retryTimer now published, s =>
    if s.ended then none else some (settle (s.advance rt now published))
  | .idleTimer, s =>
    if s.ended then none
    else if s.batches = [] ∧ s.buffer = [] ∧ s.commitInFlight = none ∧ s.pendingOverflow = none
    then some { s with ended := true } else some s
  | .close now published, s =>
    if s.ended ∨ s.closing then none else some (settle (s.beginClose rt now published))
  | .closeTimer, s =>
    if s.ended ∨ ¬ s.closing then none else some { s with ended := true }

end Aggregate

end Kafka

end Xflow
