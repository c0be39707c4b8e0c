/-!
# Statuses, tasks and records

The enumerations and records that the engine and its state stores exchange: execution and node
statuses, the tasks of the outbox, the arrivals a finished unit reports to its successors, and the
records the local store keeps of a node and of a group unit.
-/

namespace Xflow

/-! ### Data -/

/-- A value as handlers produce and consume it. -/
inductive Value where
  | null
  | bool (b : Bool)
  | num (n : Int)
  | str (s : String)
  | arr (vs : List Value)
  | obj (fields : List (String × Value))

namespace Value

mutual

/-- Structural equality of values. -/
def eqb : Value → Value → Bool
  | null, null => true
  | bool a, bool b => a = b
  | num m, num n => m = n
  | str s, str t => s = t
  | arr vs, arr ws => eqbList vs ws
  | obj fs, obj gs => eqbFields fs gs
  | _, _ => false
  termination_by structural v => v

def eqbList : List Value → List Value → Bool
  | [], [] => true
  | v :: vs, w :: ws => eqb v w && eqbList vs ws
  | _, _ => false
  termination_by structural vs => vs

def eqbFields : List (String × Value) → List (String × Value) → Bool
  | [], [] => true
  | f :: fs, g :: gs => eqbField f g && eqbFields fs gs
  | _, _ => false
  termination_by structural fs => fs

def eqbField : String × Value → String × Value → Bool
  | (k, v), (l, w) => k = l && eqb v w
  termination_by structural f => f

end

mutual

theorem eqb_iff : ∀ v w : Value, eqb v w = true ↔ v = w
  | null, w => by cases w <;> simp [eqb]
  | bool a, w => by cases w <;> simp [eqb]
  | num m, w => by cases w <;> simp [eqb]
  | str s, w => by cases w <;> simp [eqb]
  | arr vs, w => by cases w <;> simp [eqb, eqbList_iff vs]
  | obj fs, w => by cases w <;> simp [eqb, eqbFields_iff fs]

theorem eqbList_iff : ∀ vs ws : List Value, eqbList vs ws = true ↔ vs = ws
  | [], ws => by cases ws <;> simp [eqbList]
  | v :: vs, ws => by cases ws <;> simp [eqbList, eqb_iff v, eqbList_iff vs]

theorem eqbFields_iff : ∀ fs gs : List (String × Value), eqbFields fs gs = true ↔ fs = gs
  | [], gs => by cases gs <;> simp [eqbFields]
  | f :: fs, gs => by cases gs <;> simp [eqbFields, eqbField_iff f, eqbFields_iff fs]

theorem eqbField_iff : ∀ f g : String × Value, eqbField f g = true ↔ f = g
  | (k, v), (l, w) => by simp [eqbField, eqb_iff v]

end

instance : DecidableEq Value := fun v w => decidable_of_decidable_of_iff (eqb_iff v w)

end Value

/-- The fields of a node's output or of its parameters. -/
abbrev Data := List (String × Value)

/-! ### Statuses -/

/-- The lifecycle state of a workflow execution. -/
inductive ExecutionStatus where
  | pending
  | running
  | success
  | failed
  | canceling
  | canceled
  | timeout
  | queued
  | paused
  deriving DecidableEq, Inhabited

/-- `IsTerminalExecutionStatus`. -/
def ExecutionStatus.isTerminal : ExecutionStatus → Bool
  | .success | .failed | .canceled | .timeout => true
  | _ => false

/-- The lifecycle state of a workflow node. -/
inductive NodeStatus where
  | pending
  | running
  | committing
  | success
  | failed
  | skipped
  | suspended
  | continued
  | canceled
  | waiting
  | pinned
  | expired
  deriving DecidableEq, Inhabited

/-- `IsTerminalNodeStatus`. -/
def NodeStatus.isTerminal : NodeStatus → Bool
  | .success | .failed | .skipped | .canceled | .continued | .pinned => true
  | _ => false

/-- The value of a unit's schedule marker; `none` is the empty string of a unit that was never
scheduled. -/
inductive Marker where
  | none
  | execute
  | skip
  | seed
  deriving DecidableEq

/-! ### Suspension -/

/-- How a suspended node waits for its resumption. -/
inductive SuspendMode where
  | signal
  | timer
  | multiSignal
  deriving DecidableEq

/-- What a node is waiting for.  Durations are in milliseconds; no timeout is zero. -/
structure SuspendSpec where
  mode : SuspendMode := .signal
  signals : List String := []
  quorum : Int := 0
  timer : Nat := 0
  timeout : Nat := 0
  /-- The keys removed from the output stored at the first suspension. -/
  stripFromOutput : List String := []
  deriving DecidableEq

/-- What caused a suspended node to resume. -/
inductive SignalTrigger where
  | received
  | timeoutFired
  | timerFired
  deriving DecidableEq, Inhabited

/-- The data delivered to a resuming node. -/
structure SignalPayload where
  triggered : SignalTrigger
  name : String
  data : Data := []
  /-- All collected signals, in the mode that waits for several. -/
  all : List (String × Data) := []
  deriving DecidableEq

/-! ### Tasks and intents -/

/-- The kind of work a task asks for. -/
inductive TaskType where
  | nodeExec
  | nodeResume
  | nodeAdvance
  | nodeSkip
  | nodeBatch
  | groupExec
  | subWorkflow
  | mergeCancel
  deriving DecidableEq, Inhabited

/-- The unit of work handed to the queue.  Its execution is the one whose store it lives in. -/
structure Task where
  nodeName : String
  nodeIdx : Int
  unitIdx : Int := 0
  type : TaskType
  activationID : Int := 0
  autoDepth : Int := 0
  /-- The port the source committed on, carried by advance tasks only. -/
  port : Option String := none
  /-- What resumed the node, carried by resume tasks only. -/
  payload : Option SignalPayload := none
  deriving DecidableEq, Inhabited

/-- The instant an outbox entry becomes deliverable: at once, when its queued execution is
promoted, or at a time. -/
inductive AvailableAt where
  | now
  | held
  | time (ms : Nat)
  deriving DecidableEq

/-- A durable delivery intent. -/
structure OutboxEntry where
  id : String
  task : Task
  availableAt : AvailableAt := .now
  deriving DecidableEq, Inhabited

/-- What a finished unit reports to one of its successors: how many of its edges lead there and how
many of them are active. -/
structure DownstreamArrival where
  nodeName : String
  nodeIdx : Int
  unitIdx : Int
  arrivalCount : Int
  activeCount : Int
  mergeMode : String
  execTaskType : TaskType
  deriving DecidableEq, Inhabited

/-- A downstream unit that a scheduling transition resolved as skip. -/
structure SkippedUnit where
  nodeName : String
  count : Nat
  deriving DecidableEq

/-! ### Records of the store -/

/-- The latest state of one node. -/
structure NodeSnapshot where
  nodeIdx : Int
  unitIdx : Int := 0
  status : NodeStatus
  leaseID : String := ""
  leaseToken : String := ""
  attempt : Int
  activationID : Int
  autoDepth : Int := 0
  leaseIssuedAt : Nat := 0
  leaseTTL : Nat := 0
  leaseTaskType : TaskType := .nodeExec
  committedLeaseToken : String := ""
  committedAttempt : Int := 0
  output : Option Data := none
  privateOutput : Bool := false
  port : String := ""
  error : String := ""
  errorDetails : Data := []
  childExecutionID : String := ""
  deriving Inhabited

/-- The row with its output withheld. -/
def NodeSnapshot.redact (n : NodeSnapshot) : NodeSnapshot :=
  { n with privateOutput := true, output := none }

/-- The phase of a group unit. -/
inductive GroupUnitStatus where
  | pending
  | running
  | done
  | suspended
  deriving DecidableEq, Inhabited

/-- The record of one group unit. -/
structure GroupUnitState where
  status : GroupUnitStatus
  leaseID : String := ""
  leaseToken : String := ""
  attempt : Int := 0
  committedToken : String := ""
  deriving DecidableEq

/-- The fields of an execution that its transitions read and write. -/
structure ExecutionSnapshot where
  status : ExecutionStatus
  error : String := ""
  testRun : Bool := false
  deriving DecidableEq

/-- How a store answers a commit. -/
inductive CommitOutcome where
  | accepted
  | duplicateTerminal
  | staleToken
  | executionInactive
  deriving DecidableEq

/-- The outcome of a group's run. -/
inductive GroupOutcome where
  | success
  | failed
  | timeout
  | canceled
  deriving DecidableEq

/-- The execution-level reason of a terminal status: the cyclic reason before the node's, and none
for a status other than failed. -/
def terminalExecutionError (status : ExecutionStatus) (nodeErr cyclicErr : String) : String :=
  if status ≠ .failed then ""
  else if cyclicErr ≠ "" then cyclicErr
  else nodeErr

end Xflow
