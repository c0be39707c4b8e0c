import Mathlib.Data.List.AList

/-!
# The Kafka task queue

What the consumer of one topic is made of: how a worker processes a message (`process`), the tracker
that turns finished messages into commit positions (`Tracker`), and the committer that writes these
(`Committer`).
-/

namespace Xflow

namespace TaskQueue

/-! ### Messages -/

structure Header where
  key : String
  value : String
  deriving DecidableEq

structure Message where
  topic : String := ""
  partition : Int := 0
  offset : Int := 0
  key : String := ""
  value : String := ""
  headers : List Header := []
  deriving DecidableEq

def hdrAttempt : String := "x-xflow-attempt"
def hdrNotBefore : String := "x-xflow-not-before-ms"
def hdrTarget : String := "x-xflow-target"
def hdrSource : String := "x-xflow-source"
def hdrError : String := "x-xflow-error"

def maxErrorHeaderBytes : Nat := 512

def minimalDLQBytes : Nat := 128

def headerValue (msg : Message) (key : String) : Option String :=
  (msg.headers.find? (·.key = key)).map (·.value)

/-- `setHeader`: the first header of that key is replaced and the others are dropped, or a new one
is appended. -/
def setHeader (h : List Header) (key val : String) : List Header :=
  let rec go : List Header → Bool → List Header
    | [], replaced => if replaced then [] else [⟨key, val⟩]
    | e :: rest, replaced =>
      if e.key ≠ key then e :: go rest replaced
      else if replaced then go rest true
      else ⟨key, val⟩ :: go rest true
  go h false

/-- The characters that fit into a number of bytes. -/
def takeBytes : Nat → List Char → List Char
  | _, [] => []
  | n, c :: cs => if c.utf8Size ≤ n then c :: takeBytes (n - c.utf8Size) cs else []

def truncateUTF8 (s : String) (max : Nat) : String := String.ofList (takeBytes max s.toList)

/-- `cmp.Or` on strings. -/
def firstNonempty (a b : String) : String := if a = "" then b else a

/-- What the consumer of a topic reads of its transport and configuration.  `decodes` is whether
`queue.Unmarshal` reads a value and `decodeError` its error if it does not; `atoi` is
`strconv.Atoi`. -/
structure Transport where
  topic : String := "xflow.task.default"
  delay : String := "xflow.task.delay"
  dlq : String := "xflow.task.dlq"
  transient : Bool := false
  maxRetries : Int := 0
  maxPending : Int := 0
  /-- In milliseconds. -/
  maxRetryBackoff : Nat := 0
  handlerTimeout : String := ""
  decodes : String → Bool := fun _ => true
  decodeError : String → String := fun _ => ""
  atoi : String → Option Int := String.toInt?

/-! ### Processing a message -/

/-- The end of one write of `publish`, or of the context it is made under. -/
inductive WriteResult where
  | written
  | tooLarge
  | failed
  | cancelled
  deriving DecidableEq

inductive PublishResult where
  | written
  | cancelled
  | tooLarge
  deriving DecidableEq

/-- `publishRetrying`, with the results of its writes; none while it is still at it. -/
def publishRetrying : List WriteResult → Option (PublishResult × List WriteResult)
  | [] => none
  | .written :: writes => some (.written, writes)
  | .tooLarge :: writes => some (.tooLarge, writes)
  | .cancelled :: writes => some (.cancelled, writes)
  | .failed :: writes => publishRetrying writes

/-- How a message was finished. -/
inductive Fate where
  /-- Its handler returned nil. -/
  | handled
  /-- It failed and was dropped in transient mode. -/
  | dropped
  /-- A copy was written. -/
  | copied (copy : Message)
  /-- It is too large for every topic. -/
  | tooLarge
  deriving DecidableEq

/-- What the handler did. -/
inductive HandlerResult where
  | ok
  | error (permanent : Bool) (text : String)
  | panic (type : String)
  deriving DecidableEq

/-- What a worker meets while it processes a message.  `timedOut` is that the deadline of the
handler passed while the context of the worker had not ended. -/
structure Outcome where
  handler : HandlerResult := .ok
  timedOut : Bool := false
  now : Nat := 0
  writes : List WriteResult := []
  deriving DecidableEq

namespace Transport

variable (t : Transport)

def attemptOf (msg : Message) : Int :=
  match headerValue msg hdrAttempt with
  | none => 0
  | some v =>
    match t.atoi v with
    | none => 0
    | some n => if n < 0 then 0 else n

/-- The loop of `backoff`, in milliseconds. -/
def doubled (limit : Nat) : Nat → Nat → Nat
  | 0, d => min d limit
  | n + 1, d => if limit / 2 < d then limit else doubled limit n (d * 2)

def backoff (attempt : Int) (limit : Nat) : Nat := doubled limit (attempt - 1).toNat 1000

def dlqMessage (msg : Message) (cause : String) : Message where
  topic := t.dlq
  key := msg.key
  value := msg.value
  headers := setHeader (setHeader msg.headers hdrSource (firstNonempty msg.topic t.topic)) hdrError
    (truncateUTF8 cause maxErrorHeaderBytes)

/-- The smaller copy of `deadLetterMessage`. -/
def reducedMessage (msg : Message) (cause : String) : Message where
  topic := t.dlq
  key := msg.key
  value := msg.value
  headers := setHeader (setHeader [] hdrSource (firstNonempty msg.topic t.topic)) hdrError
    (truncateUTF8 cause minimalDLQBytes)

/-- `deadLetterMessage`: none while it is still at it, otherwise how the message was finished if it
was. -/
def deadLetterMessage (msg : Message) (cause : String) (writes : List WriteResult) :
    Option (Option Fate) := do
  match ← publishRetrying writes with
  | (.written, _) => return some (.copied (t.dlqMessage msg cause))
  | (.cancelled, _) => return none
  | (.tooLarge, writes) =>
    match ← publishRetrying writes with
    | (.written, _) => return some (.copied (t.reducedMessage msg cause))
    | (.cancelled, _) => return none
    | (.tooLarge, _) => return some .tooLarge

def publishCopy (out orig : Message) (cause : String) (writes : List WriteResult) :
    Option (Option Fate) := do
  match ← publishRetrying writes with
  | (.written, _) => return some (.copied out)
  | (.tooLarge, writes) => t.deadLetterMessage orig cause writes
  | (.cancelled, _) => return none

/-- The copy that `retry` parks on the delay topic. -/
def retryCopy (msg : Message) (attempt : Int) (now : Nat) : Message :=
  let target :=
    firstNonempty ((headerValue msg hdrTarget).getD "") (firstNonempty msg.topic t.topic)
  let due := now + backoff attempt t.maxRetryBackoff
  { topic := t.delay
    key := msg.key
    value := msg.value
    headers := setHeader (setHeader (setHeader msg.headers hdrAttempt (toString attempt))
      hdrNotBefore (toString due)) hdrTarget target }

def retry (msg : Message) (cause : String) (now : Nat) (writes : List WriteResult) :
    Option (Option Fate) :=
  let attempt := t.attemptOf msg + 1
  if t.maxRetries < attempt then t.deadLetterMessage msg cause writes
  else t.publishCopy (t.retryCopy msg attempt now) msg ("retry copy too large: " ++ cause) writes

/-- `invoke`: the error, if there is one, and whether it is permanent. -/
def invoke (outcome : Outcome) : Option (Bool × String) :=
  match outcome.handler with
  | .ok => none
  | .panic type => some (false, "kafka: task handler panic (" ++ type ++ ")")
  | .error permanent text =>
    if outcome.timedOut then
      some (false, "kafka: task handler timed out after " ++ t.handlerTimeout ++ ": " ++ text)
    else some (permanent, text)

/-- `process`: none while it is still at it, otherwise how the message was finished if it was. -/
def process (msg : Message) (outcome : Outcome) : Option (Option Fate) :=
  if ¬ t.decodes msg.value then
    t.deadLetterMessage msg ("decode task: " ++ t.decodeError msg.value) outcome.writes
  else
    match t.invoke outcome with
    | none => some (some .handled)
    | some (permanent, cause) =>
      if t.transient then some (some .dropped)
      else if permanent then t.deadLetterMessage msg cause outcome.writes
      else t.retry msg cause outcome.now outcome.writes

end Transport

/-! ### The tracker -/

structure Inflight where
  offset : Int
  done : Bool := false
  deriving DecidableEq

/-- `partitionTracker`.  `byOffset` has the messages of the queue under their offsets, which differ,
and is not kept apart. -/
structure PartitionTracker where
  epoch : Nat := 0
  highest : Int := 0
  queue : List Inflight := []
  deriving DecidableEq

structure Token where
  partition : Int
  offset : Int
  epoch : Nat
  deriving DecidableEq

structure Tracker where
  partitions : Int → Option PartitionTracker := fun _ => none
  pending : Int := 0

namespace Tracker

variable (t : Tracker)

/-- The partition, as `Begin` finds or resets it, and how many messages it abandons. -/
def opened (partition offset : Int) : PartitionTracker × Nat :=
  match t.partitions partition with
  | none => ({}, 0)
  | some ps =>
    if offset ≤ ps.highest then ({ ps with epoch := ps.epoch + 1, queue := [] }, ps.queue.length)
    else (ps, 0)

def begin (partition offset : Int) : Tracker × Token :=
  let opened := t.opened partition offset
  ({ partitions := Function.update t.partitions partition (some { opened.1 with
      queue := opened.1.queue ++ [{ offset := offset }]
      highest := offset })
     pending := t.pending - opened.2 + 1 },
    ⟨partition, offset, opened.1.epoch⟩)

/-- The message of an offset is done. -/
def mark (offset : Int) (queue : List Inflight) : List Inflight :=
  queue.map (fun m => if m.offset = offset then { m with done := true } else m)

/-- `Done`, with the position to commit if it advanced. -/
def done (tk : Token) : Tracker × Option Int :=
  match t.partitions tk.partition with
  | none => (t, none)
  | some ps =>
    if ps.epoch ≠ tk.epoch then (t, none)
    else
      match ps.queue.find? (·.offset = tk.offset) with
      | none => (t, none)
      | some m =>
        if m.done then (t, none)
        else
          let queue := mark tk.offset ps.queue
          let run := queue.takeWhile (·.done)
          ({ partitions := Function.update t.partitions tk.partition (some
              { ps with queue := queue.dropWhile (·.done) })
             pending := t.pending - run.length },
            run.getLast?.map (·.offset))

end Tracker

/-! ### The committer -/

/-- An offset for each of some partitions. -/
abbrev Offsets := AList (fun _ : Int => Int)

instance decidableEqOffsets : DecidableEq Offsets :=
  fun a b => decidable_of_iff (a.entries = b.entries) AList.ext_iff.symm

/-- Where `Run` stands. -/
inductive Phase where
  /-- It waits for `wake`. -/
  | waiting
  /-- It commits, the last time if its context has ended. -/
  | committing (flush : Bool)
  /-- It sleeps after a failure. -/
  | pausing
  | returned
  deriving DecidableEq

/-- The end of a commit; the reader may be closed. -/
inductive CommitResult where
  | ok
  | failed
  | closed
  deriving DecidableEq

structure Committer where
  pending : Offsets := ∅
  inflight : Offsets := ∅
  committed : Offsets := ∅
  wake : Bool := false
  phase : Phase := .waiting

namespace Committer

variable (c : Committer)

/-- There is an offset for the partition, and it is not less. -/
def reaches (offsets : Offsets) (partition offset : Int) : Bool :=
  (offsets.lookup partition).any (fun cur => offset ≤ cur)

def advance (partition offset : Int) : Committer :=
  if reaches c.committed partition offset ∨ reaches c.inflight partition offset ∨
    reaches c.pending partition offset then c
  else { c with pending := c.pending.insert partition offset, wake := true }

/-- The larger offset of each partition is kept. -/
def raise (batch offsets : Offsets) : Offsets :=
  batch.entries.foldl (fun offsets e =>
    if reaches offsets e.1 e.2 then offsets else offsets.insert e.1 e.2) offsets

/-- `take`, and the commit of what was taken, if anything was. -/
def take (idle : Phase) (flush : Bool) : Committer :=
  { c with
    pending := ∅
    inflight := c.pending
    phase := if c.pending.entries = [] then idle else .committing flush }

/-- `flush`, up to its commit. -/
def flush : Committer := c.take .returned true

/-- `drain`, up to its commit; `ended` is whether the context ended. -/
def drain (ended : Bool) : Committer := if ended then c.flush else c.take .waiting false

def restore : Committer := { c with pending := raise c.inflight c.pending, inflight := ∅ }

def markCommitted : Committer := { c with committed := raise c.inflight c.committed, inflight := ∅ }

/-- The commit ends. -/
def resume (flush : Bool) : CommitResult → Committer
  | .ok => { c.markCommitted with phase := if flush then .returned else .waiting }
  | .failed => { c.restore with phase := if flush then .returned else .pausing }
  | .closed => { c.restore with phase := .returned }

end Committer

end TaskQueue

end Xflow
