import Mathlib.Data.List.Basic

/-!
# The per-message Kafka trigger

The records of a partition are handed to a worker that delivers them one after the other: it emits
each or has it admitted, or gets an invalid one out of the way, and then commits its offset.  A
commit covers every lower offset, so a record that was left must not be passed by the commit of a
later one.

The worker is modelled as the points of its code at which it waits for the outside: the answer to a
call, the end of a pause, a record on its channel.  Each answer takes it from one point to the next.
Beside the worker there is the goroutine that reads the topic.  It looks the worker of the partition
up, spawning one when there is none, and sends the record to it; between the two the worker may
stop.
-/

namespace Xflow

namespace Kafka

/-! ### Configuration -/

/-- A record of the partition. -/
structure Message where
  offset : Int
  key : String := ""
  value : String := ""
  deriving DecidableEq

/-- What is done with a record that the schema refuses. -/
inductive OnInvalid where
  | discard
  | fail
  | deadLetter
  deriving DecidableEq

structure MessageSchema where
  requiredFields : List String := []
  onInvalid : OnInvalid := .discard
  deadLetterTopic : String := ""
  deriving DecidableEq

/-- What is done with a record that cannot be emitted. -/
inductive OnEmitFailure where
  | retry
  | deadLetter
  deriving DecidableEq

def defaultEmitRetryMaxAttempts : Int := 10

/-- `defaultEmitRetryMaxBlock`, in milliseconds. -/
def defaultEmitRetryMaxBlock : Int := 30000

def defaultTriggerMaxInflight : Int := 64

structure EmitRetryConfig where
  onFailure : OnEmitFailure := .retry
  deadLetterTopic : String := ""
  maxAttempts : Int := 0
  maxBlock : Int := 0
  deriving DecidableEq

namespace EmitRetryConfig

def deadLetterReady (c : EmitRetryConfig) : Bool :=
  c.onFailure = .deadLetter ∧ c.deadLetterTopic ≠ ""

def effectiveMaxAttempts (c : EmitRetryConfig) : Int :=
  if 0 < c.maxAttempts then c.maxAttempts else defaultEmitRetryMaxAttempts

def effectiveMaxBlock (c : EmitRetryConfig) : Int :=
  if 0 < c.maxBlock then c.maxBlock else defaultEmitRetryMaxBlock

def retryBudgetExhausted (c : EmitRetryConfig) (failures blockedFor : Int) : Bool :=
  c.effectiveMaxAttempts ≤ failures ∨ c.effectiveMaxBlock ≤ blockedFor

end EmitRetryConfig

/-- `EntrySeedResponse`, as far as the trigger reads it. -/
structure EntrySeedResponse where
  accepted : Bool := false
  duplicate : Bool := false
  conflict : Bool := false
  refused : Bool := false
  queueFull : Bool := false
  deriving DecidableEq

/-- `observeBatchAdmission`: the answer means that the record is taken care of. -/
def EntrySeedResponse.observeBatchAdmission (resp : EntrySeedResponse) : Bool :=
  resp.accepted || resp.duplicate || resp.conflict

/-- `perMessageRuntime`, as it is set up for one partition.  `keysOf` gives the keys of a value that
decodes as an object. -/
structure PerMessageRuntime where
  entrySeed : Bool := false
  messageSchema : Option MessageSchema := none
  emitRetry : EmitRetryConfig := {}
  /-- There is a publisher for the dead-letter topics. -/
  deadLetterPublisher : Bool := false
  maxInflight : Int := 0
  keysOf : String → Option (List String) := fun _ => none

def validateMessageSchema (keysOf : String → Option (List String)) (msg : Message)
    (schema : MessageSchema) : Bool :=
  if schema.requiredFields = [] then true
  else if msg.value = "" then false
  else
    match keysOf msg.value with
    | none => false
    | some keys => schema.requiredFields.all (· ∈ keys)

/-! ### The worker -/

/-- Where the code of a worker waits for the outside. -/
inductive Point where
  /-- In the loop of `run`, for a record or the idle timer. -/
  | select
  /-- `deliverLegacy`: for the emission of the record, after a number of failures. -/
  | emit (msg : Message) (attempts : Int)
  /-- `deliverLegacy`: for the next attempt. -/
  | emitRetry (msg : Message) (attempts : Int)
  /-- `deliverLegacy`: for the publication of the record that could not be emitted. -/
  | publish (msg : Message) (attempts : Int)
  | publishRetry (msg : Message) (attempts : Int)
  /-- `deliverInvalid`: for the publication of the invalid record. -/
  | publishInvalid (msg : Message) (attempt : Int)
  | invalidRetry (msg : Message) (attempt : Int)
  /-- `deliverInvalid`: for the end of the activation. -/
  | hold (msg : Message)
  /-- `seedEntryBatch`: for the admission of the record, after a number of refusals. -/
  | seed (msg : Message) (attempts : Int)
  | seedRetry (msg : Message) (attempts : Int)
  /-- For the commit of a record that was taken care of. -/
  | commit (msg : Message)
  /-- `run` returned, and the worker is not evicted yet. -/
  | returned
  deriving DecidableEq

/-- What the outside answers. -/
inductive Answer where
  /-- The emission ended; `blockedFor` is the time since the first attempt. -/
  | emitted (ok : Bool) (blockedFor : Int)
  | published (ok : Bool)
  /-- The admission call ended, with an error when there is no response. -/
  | admitted (resp : Option EntrySeedResponse)
  /-- The pause ended, or the activation was canceled before. -/
  | waited (completed : Bool)
  | committed (ok : Bool)
  deriving DecidableEq

/-- The next point of a worker, and whether the record it delivers was taken care of. -/
structure Advance where
  point : Point
  handled : Option Message := none
  deriving DecidableEq

namespace PerMessageRuntime

variable (rt : PerMessageRuntime) (canceled : Bool)

/-- The policy `dead_letter` of `handleInvalidMessage`: without a publisher it fails at once. -/
def publishInvalid (msg : Message) (attempt : Int) : Point :=
  if rt.deadLetterPublisher then .publishInvalid msg attempt else .invalidRetry msg (attempt + 1)

/-- `deliverInvalid`, until it waits. -/
def deliverInvalid (schema : MessageSchema) (msg : Message) : Advance :=
  if canceled then { point := .select }
  else
    match schema.onInvalid with
    | .discard => { point := .commit msg, handled := some msg }
    | .fail => { point := .hold msg }
    | .deadLetter => { point := rt.publishInvalid msg 0 }

/-- `deliverLegacy`, until it waits. -/
def deliverLegacy (msg : Message) : Advance :=
  { point := if canceled then .select else .emit msg 0 }

/-- `seedEntryBatch`, until it waits. -/
def seedEntryBatch (msg : Message) : Advance :=
  { point := .seed msg 0 }

/-- `deliver`, until it waits. -/
def deliver (msg : Message) : Advance :=
  match rt.messageSchema.filter (fun schema => ¬ validateMessageSchema rt.keysOf msg schema) with
  | some schema => rt.deliverInvalid canceled schema msg
  | none => if rt.entrySeed then seedEntryBatch msg else deliverLegacy canceled msg

/-- A record that could not be emitted is published instead when its budget is used up. -/
def parks (attempts blockedFor : Int) : Bool :=
  rt.emitRetry.deadLetterReady ∧ rt.deadLetterPublisher ∧
    rt.emitRetry.retryBudgetExhausted attempts blockedFor

/-- How the worker goes on when it is answered; nothing when the answer is to something else. -/
def resume : Point → Answer → Option Advance
  | .emit msg _, .emitted true _ => some { point := .commit msg, handled := some msg }
  | .emit msg attempts, .emitted false blockedFor =>
    some { point :=
      if canceled then .select
      else if rt.parks (attempts + 1) blockedFor then .publish msg 0
      else .emitRetry msg (attempts + 1) }
  | .emitRetry msg attempts, .waited completed =>
    some { point := if completed then .emit msg attempts else .select }
  | .publish msg _, .published true => some { point := .commit msg, handled := some msg }
  | .publish msg attempts, .published false =>
    some { point := if canceled then .select else .publishRetry msg (attempts + 1) }
  | .publishRetry msg attempts, .waited completed =>
    some { point := if completed then .publish msg attempts else .select }
  | .publishInvalid msg _, .published true => some { point := .commit msg, handled := some msg }
  | .publishInvalid msg attempt, .published false =>
    some { point := .invalidRetry msg (attempt + 1) }
  | .invalidRetry msg attempt, .waited completed =>
    some { point := if completed then rt.publishInvalid msg attempt else .select }
  | .hold _, .waited false => some { point := .select }
  | .seed _ _, .admitted none => some { point := .select }
  | .seed msg attempts, .admitted (some resp) =>
    if resp.observeBatchAdmission then some { point := .commit msg, handled := some msg }
    else some { point := if resp.refused then .seedRetry msg (attempts + 1) else .select }
  | .seedRetry msg attempts, .waited completed =>
    some { point := if completed then .seed msg attempts else .select }
  | .commit _, .committed _ => some { point := .select }
  | _, _ => none

end PerMessageRuntime

structure PartitionWorker where
  ch : List Message := []
  closed : Bool := false
  point : Point := .select
  deriving DecidableEq

/-! ### One partition -/

/-- The worker that a record is being sent to: the one in the map, or one that was evicted since it
was looked up, with what its channel holds. -/
inductive Target where
  | current
  | evicted (ch : List Message)
  deriving DecidableEq

/-- The state of the runtime for one partition, with the records that were submitted, those that
were taken care of, and those that `CommitMessages` was called with. -/
structure PartitionState where
  /-- The entry of the map of workers. -/
  worker : Option PartitionWorker := none
  /-- The record that the reading goroutine is sending. -/
  sending : Option (Message × Target) := none
  reading : Bool := true
  canceled : Bool := false
  submitted : List Message := []
  handled : List Message := []
  commits : List Message := []
  deriving DecidableEq

inductive Action where
  /-- `submit`: a record is read, and its worker looked up or spawned. -/
  | submit (msg : Message)
  /-- `submit`: the record is on the channel. -/
  | send
  /-- `submit`: the activation was canceled before. -/
  | giveUp
  /-- The reading goroutine ends. -/
  | finish
  | cancel
  /-- `close`. -/
  | close
  /-- The worker takes a record from its channel. -/
  | receive
  /-- `run` returns: the idle timer fired, or the channel is closed, and no record is queued. -/
  | stop
  /-- `evictWorker`. -/
  | evict
  /-- The worker is answered. -/
  | answer (a : Answer)
  deriving DecidableEq

namespace PartitionState

/-- The number of records a channel holds. -/
def buffer (rt : PerMessageRuntime) : Nat :=
  (if rt.maxInflight ≤ 0 then defaultTriggerMaxInflight else rt.maxInflight).toNat

/-- The worker of the partition goes on. -/
def advance (s : PartitionState) (w : PartitionWorker) (next : Advance) : PartitionState :=
  { s with
    worker := some { w with point := next.point }
    handled := s.handled ++ next.handled.toList }

/-- The call of `CommitMessages` that a point waits for. -/
def committing : Point → Option Message
  | .commit msg => some msg
  | _ => none

/-- Take a step; the offsets of a partition increase. -/
def step (rt : PerMessageRuntime) : Action → PartitionState → Option PartitionState
  | .submit msg, s =>
    if s.reading ∧ s.sending = none ∧ ∀ earlier ∈ s.submitted, earlier.offset < msg.offset then
      some { s with
        worker := some (s.worker.getD {})
        sending := some (msg, .current)
        submitted := s.submitted ++ [msg] }
    else none
  | .send, s =>
    match s.sending, s.worker with
    | some (msg, .current), some w =>
      if w.ch.length < buffer rt then
        some { s with worker := some { w with ch := w.ch ++ [msg] }, sending := none }
      else none
    | some (_, .evicted ch), _ =>
      if ch.length < buffer rt then some { s with sending := none } else none
    | _, _ => none
  | .giveUp, s =>
    if s.canceled ∧ s.sending ≠ none then some { s with sending := none, reading := false }
    else none
  | .finish, s => if s.sending = none then some { s with reading := false } else none
  | .cancel, s => some { s with canceled := true }
  | .close, s =>
    if s.reading then none
    else some { s with worker := s.worker.map fun w => { w with closed := true } }
  | .receive, s => do
    let w ← s.worker
    match w.point, w.ch with
    | .select, msg :: rest => some (s.advance { w with ch := rest } (rt.deliver s.canceled msg))
    | _, _ => none
  | .stop, s => do
    let w ← s.worker
    if w.point = .select ∧ w.ch = [] then
      some { s with worker := some { w with point := .returned } }
    else none
  | .evict, s => do
    let w ← s.worker
    if w.point = .returned then
      some { s with
        worker := none
        sending := s.sending.map fun (msg, _) => (msg, .evicted w.ch) }
    else none
  | .answer a, s => do
    let w ← s.worker
    if a = .waited false ∧ ¬ s.canceled then none
    else
      let next ← rt.resume s.canceled w.point a
      some { s.advance w next with commits := s.commits ++ (committing w.point).toList }

end PartitionState

end Kafka

end Xflow
