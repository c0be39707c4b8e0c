import Xflow.Store.Lease

/-!
# Suspended nodes and signals

A node suspends on a specification of the signals it waits for and keeps a waiter in the store.  A
signal is handed to a waiter, or stored until a suspension asks for it; either way the resumption
becomes an intent of the outbox.  `SignalState` adds the waiters, the stored signals and the
partial sets of signals to the records of an execution.
-/

namespace Xflow

open MemoryState (TaskLease)

/-- The records of one execution with its suspended nodes and its signals. -/
structure SignalState extends MemoryState where
  suspended : String → Option SuspendSpec := fun _ => none
  signals : String → Option Data := fun _ => none
  /-- The signals collected so far for a node that waits for several. -/
  signalSets : String → List (String × Data) := fun _ => []

/-! ### Resume intents -/

/-- `SuspendResumeOutboxEntry`: the resume intent of one suspended lease. -/
def suspendResumeOutboxEntry (id : String) (lease : TaskLease) (kind : String)
    (payload : SignalPayload) (availableAt : AvailableAt) : OutboxEntry where
  id :=
    outboxID "resume" id lease.task.nodeName lease.task.activationID ++ "/" ++ lease.leaseID ++
      "/" ++ kind
  task := {
    nodeName := lease.task.nodeName
    nodeIdx := lease.task.nodeIdx
    unitIdx := lease.task.unitIdx
    type := .nodeResume
    activationID := lease.task.activationID
    payload := some payload }
  availableAt := availableAt

/-- `SuspendOutboxEntries`: the resume intents that a suspension writes, a consumed signal or else
its timer and its timeout. -/
def suspendOutboxEntries (id : String) (lease : TaskLease) (spec : SuspendSpec)
    (payload : Option SignalPayload) (now : Nat) : List OutboxEntry :=
  match payload with
  | some payload => [suspendResumeOutboxEntry id lease "signal" payload (.time now)]
  | none =>
    (if spec.mode = .timer then
      [suspendResumeOutboxEntry id lease "timer" ⟨.timerFired, "_timer", [], []⟩
        (.time (now + spec.timer))] else []) ++
    (if 0 < spec.timeout then
      [suspendResumeOutboxEntry id lease "timeout" ⟨.timeoutFired, "_timeout", [], []⟩
        (.time (now + spec.timeout))] else [])

/-- What the engine knows of the node that a signal is about to resume. -/
structure ResumeIntent where
  nodeName : String := ""
  nodeIdx : Int := 0
  unitIdx : Int := 0
  activationID : Int := 0
  autoDepth : Int := 0
  deriving DecidableEq

/-- The identifier of the intent that resumes a node by a delivered signal. -/
def signalOutboxID (id name : String) (activationID : Int) : String :=
  outboxID "resume" id name activationID ++ "/signal"

/-- `signalQuorum`: how many signals a node waits for. -/
def signalQuorum (spec : SuspendSpec) : Int :=
  if 0 < spec.quorum then spec.quorum
  else if spec.signals ≠ [] then spec.signals.length
  else 1

/-! ### Collecting -/

/-- The signals collected for a node after one more. -/
def collect (all : List (String × Data)) (signal : String) (data : Data) :
    List (String × Data) :=
  all.filter (fun entry => entry.1 ≠ signal) ++ [(signal, data)]

/-- `addMultiSignalLocked`: the payload that the last of the collected signals resumes a node with,
when there are enough of them. -/
def quorumPayload (spec : SuspendSpec) (all : List (String × Data)) (signal : String)
    (data : Data) : Option SignalPayload :=
  if (all.length : Int) < signalQuorum spec then none else some ⟨.received, signal, data, all⟩

/-- The loop of a suspension on one signal: take the first awaited signal that is stored. -/
def consumeFirst : List String → (String → Option Data) →
    (String → Option Data) × Option SignalPayload
  | [], stored => (stored, none)
  | signal :: signals, stored =>
    match stored signal with
    | none => consumeFirst signals stored
    | some data => (Function.update stored signal none, some ⟨.received, signal, data, []⟩)

/-- The loop of a suspension on several signals: collect the stored ones until there are enough. -/
def consumeMulti (spec : SuspendSpec) :
    List String → (String → Option Data) → List (String × Data) →
    (String → Option Data) × List (String × Data) × Option SignalPayload
  | [], stored, all => (stored, all, none)
  | signal :: signals, stored, all =>
    match stored signal with
    | none => consumeMulti spec signals stored all
    | some data =>
      let stored := Function.update stored signal none
      let all := collect all signal data
      match quorumPayload spec all signal data with
      | some payload => (stored, [], some payload)
      | none => consumeMulti spec signals stored all

/-- What a suspension takes from the stored signals: those that remain, those collected for the
node, and the payload that resumes it at once. -/
def consume (spec : SuspendSpec) (stored : String → Option Data) (all : List (String × Data)) :
    (String → Option Data) × List (String × Data) × Option SignalPayload :=
  if spec.mode = .multiSignal then consumeMulti spec spec.signals stored all
  else
    let (stored, payload) := consumeFirst spec.signals stored
    (stored, all, payload)

namespace SignalState

/-! ### Suspending -/

/-- Whether the node is being committed under this very lease. -/
def holdsForCommit (row : NodeSnapshot) (lease : TaskLease) : Bool :=
  row.status = .committing ∧ row.leaseID = lease.leaseID ∧ row.leaseToken = lease.leaseToken ∧
    row.attempt = lease.attempt ∧ row.activationID = lease.task.activationID

/-- What a suspension stores besides the row. -/
structure Suspension where
  lease : TaskLease
  output : Option Data := none
  storeOutput : Bool := false
  privateOutput : Bool := false
  spec : SuspendSpec
  oldSignalName : String := ""
  now : Nat

/-- Store the output of a suspended node, if there is one to store. -/
def storeOutput (s : SignalState) (x : Suspension) : SignalState :=
  if x.storeOutput
  then { s with outputs := Function.update s.outputs x.lease.task.nodeName x.output } else s

/-- Register the waiter of a node, or remove it when its signal was there already. -/
def setWaiter (s : SignalState) (name : String) (waiter : Option SuspendSpec) : SignalState :=
  { s with suspended := Function.update s.suspended name waiter }

/-- Store the row of a suspended node. -/
def parkRow (s : SignalState) (name : String) (row : NodeSnapshot) (privateOutput : Bool) :
    SignalState :=
  { s with
    toMemoryState := s.toMemoryState.rewriteRow name (row.unlease .suspended) privateOutput }

/-- Store the intents of a suspension. -/
def putEntries (s : SignalState) (entries : List OutboxEntry) : SignalState :=
  { s with outbox := entries.foldl putEntry s.outbox }

/-- Park a node: take the stored signals it waits for, register its waiter unless they resume it at
once, and store its row and the intents that resume it.  Reports the payload of a signal that was
there already. -/
def park (s : SignalState) (x : Suspension) (row : NodeSnapshot) :
    SignalState × Option SignalPayload :=
  let name := x.lease.task.nodeName
  let s := s.storeOutput x
  let s := if x.oldSignalName ≠ "" then s.setWaiter name none else s
  let (signals, all, payload) := consume x.spec s.signals (s.signalSets name)
  let s := { s with signals := signals, signalSets := Function.update s.signalSets name all }
  let s := s.setWaiter name (if payload.isNone then some x.spec else none)
  let s := s.parkRow name row x.privateOutput
  (s.putEntries (suspendOutboxEntries s.id x.lease x.spec payload x.now), payload)

/-- `SuspendTaskLease`: park a node whose commit its lease has entered.  Reports nothing when the
lease does not hold the node. -/
def suspendTaskLease (s : SignalState) (x : Suspension) :
    SignalState × Option (Option SignalPayload) :=
  match s.nodes x.lease.task.nodeName with
  | none => (s, none)
  | some row =>
    if ¬ holdsForCommit row x.lease then (s, none)
    else
      let (s, payload) := s.park x row
      (s, some payload)

/-! ### Delivering -/

/-- The specification of a node that waits for a signal. -/
def awaiting (s : SignalState) (signal name : String) : Option (String × SuspendSpec) :=
  (s.suspended name).bind (fun spec => if signal ∈ spec.signals then some (name, spec) else none)

/-- The first waiter for a signal on a walk through the suspended nodes. -/
def waiter (s : SignalState) (walk : List String) (signal : String) :
    Option (String × SuspendSpec) :=
  walk.findSome? (s.awaiting signal)

/-- An order in which a walk meets the suspended nodes, each of them once.  The store keeps them in
a map, whose walks come in any order. -/
def Walks (s : SignalState) (walk : List String) : Prop :=
  walk.Nodup ∧ ∀ name, name ∈ walk ↔ (s.suspended name).isSome

/-- `PeekResumeTarget`: the node that waits for a signal, the empty name if there is none. -/
def peekResumeTarget (s : SignalState) (walk : List String) (signal : String) : String :=
  ((s.waiter walk signal).map Prod.fst).getD ""

/-- The activation of a node that is resumed, read from its row. -/
def resumeActivation (s : SignalState) (name : String) (intent : ResumeIntent) : Int :=
  ((s.nodes name).map NodeSnapshot.activationID).getD intent.activationID

/-- The intent that resumes a node by a signal. -/
def resumeEntry (s : SignalState) (name : String) (intent : ResumeIntent) (payload : SignalPayload)
    (now : Nat) : OutboxEntry where
  id := signalOutboxID s.id name (s.resumeActivation name intent)
  task := {
    nodeName := name
    nodeIdx := intent.nodeIdx
    unitIdx := intent.unitIdx
    type := .nodeResume
    activationID := s.resumeActivation name intent
    autoDepth := intent.autoDepth
    payload := some payload }
  availableAt := .time now

/-- `scheduleResumeOutbox`: store the intent that resumes a node. -/
def scheduleResumeOutbox (s : SignalState) (name : String) (intent : ResumeIntent)
    (payload : SignalPayload) (now : Nat) : SignalState :=
  s.putEntries [s.resumeEntry name intent payload now]

/-- Keep a signal for a suspension still to come. -/
def storeSignal (s : SignalState) (signal : String) (data : Data) : SignalState :=
  { s with signals := Function.update s.signals signal (some data) }

/-- The signals collected for a node once a delivered one is among them. -/
def collected (s : SignalState) (name signal : String) (data : Data) : List (String × Data) :=
  collect (s.signalSets name) signal data

/-- The payload that a signal resumes a waiter with, if it resumes it. -/
def wakes (s : SignalState) (name signal : String) (data : Data) (spec : SuspendSpec) :
    Option SignalPayload :=
  if spec.mode = .multiSignal then quorumPayload spec (s.collected name signal data) signal data
  else some ⟨.received, signal, data, []⟩

/-- Set the signals collected for a node that waits for several. -/
def setCollected (s : SignalState) (name : String) (spec : SuspendSpec)
    (all : List (String × Data)) : SignalState :=
  if spec.mode = .multiSignal
  then { s with signalSets := Function.update s.signalSets name all } else s

/-- Hand a signal to a waiter: it is woken, or the signal joins those it collected. -/
def handOver (s : SignalState) (name signal : String) (data : Data) (spec : SuspendSpec)
    (intent : ResumeIntent) (now : Nat) : SignalState :=
  match s.wakes name signal data spec with
  | none => s.setCollected name spec (s.collected name signal data)
  | some payload =>
    ((s.setWaiter name none).setCollected name spec []).scheduleResumeOutbox name intent payload now

/-- `DeliverSignalWithOutbox`: hand a signal to the first waiter on a walk, or store it.  An intent
that names no node stores it whoever waits.  Reports the node that was woken and its payload. -/
def deliverSignalWithOutbox (s : SignalState) (walk : List String) (signal : String) (data : Data)
    (intent : ResumeIntent) (now : Nat) : SignalState × Option (String × SignalPayload) :=
  if intent.nodeName = "" then (s.storeSignal signal data, none)
  else
    match s.waiter walk signal with
    | none => (s.storeSignal signal data, none)
    | some (name, spec) =>
      (s.handOver name signal data spec intent now,
        (s.wakes name signal data spec).map (fun payload => (name, payload)))

/-- `AckOutbox`: remove a delivered intent. -/
def ackOutbox (s : SignalState) (entryID : String) : SignalState :=
  { s with outbox := s.outbox.filter (fun e => e.id ≠ entryID) }

/-! ### Calls -/

/-- `CommitNode` with its effect on the waiters: a canceled branch gives up its waiter. -/
def commitNode (s : SignalState) (req : CommitNodeRequest) :
    Except String (SignalState × CommitNodeResult) :=
  match s.toMemoryState.commitNode req with
  | .error err => .error err
  | .ok (store, result) =>
    let s := { s with toMemoryState := store }
    if result.applied ∧ req.system ∧ req.status = .canceled then
      .ok ({ s.setWaiter req.nodeName none with
        signalSets := Function.update s.signalSets req.nodeName [] }, result)
    else .ok (s, result)

/-- The calls that lease, suspend, resume and commit the nodes of an execution. -/
inductive Op where
  | acquireTaskLease (lease : TaskLease) (allowCycles : Bool)
  | claimTaskLease (lease : TaskLease)
  | renewTaskLease (name token : String) (deadline now : Nat)
  | revokeLease (name token : String)
  | revokeLeaseWithOutbox (name token : String) (entry : OutboxEntry)
  | resetNodeForRetry (name token : String) (entry : OutboxEntry)
  | suspendTaskLease (suspension : Suspension)
  | commitNode (req : CommitNodeRequest)
  | deliverSignal (walk : List String) (signal : String) (data : Data) (intent : ResumeIntent)
      (now : Nat)
  | ackOutbox (entryID : String)

/-- How the store answers a call. -/
inductive Answer where
  | done (granted : Bool)
  | suspended (payload : Option (Option SignalPayload))
  | committed (outcome : CommitOutcome)
  | invalid (error : String)
  | delivered (target : Option (String × SignalPayload))
  deriving DecidableEq

/-- Answer a call that touches the records of the execution only. -/
def onStore (s : SignalState) (result : MemoryState × Bool) : SignalState × Answer :=
  ({ s with toMemoryState := result.1 }, .done result.2)

/-- Take a call. -/
def call : Op → SignalState → SignalState × Answer
  | .acquireTaskLease lease allowCycles, s =>
    s.onStore (s.toMemoryState.acquireTaskLeaseChecked lease allowCycles)
  | .claimTaskLease lease, s => s.onStore (s.toMemoryState.claimTaskLease lease)
  | .renewTaskLease name token deadline now, s =>
    s.onStore (s.toMemoryState.renewTaskLease name token deadline now)
  | .revokeLease name token, s => s.onStore (s.toMemoryState.revokeLease name token)
  | .revokeLeaseWithOutbox name token entry, s =>
    s.onStore (s.toMemoryState.revokeLeaseWithOutbox name token entry)
  | .resetNodeForRetry name token entry, s =>
    s.onStore (s.toMemoryState.resetNodeForRetryWithOutbox name token entry)
  | .suspendTaskLease suspension, s =>
    let (s, payload) := s.suspendTaskLease suspension
    (s, .suspended payload)
  | .commitNode req, s =>
    match s.commitNode req with
    | .error err => (s, .invalid err)
    | .ok (s, result) => (s, .committed result.outcome)
  | .deliverSignal walk signal data intent now, s =>
    let (s, target) := s.deliverSignalWithOutbox walk signal data intent now
    (s, .delivered target)
  | .ackOutbox entryID, s => (s.ackOutbox entryID, .done true)

/-! ### What the calls do -/

section

variable {s : SignalState} {x : Suspension} {row : NodeSnapshot}

theorem suspendTaskLease_cases :
  s.suspendTaskLease x = (s, none) ∨
    ∃ row, s.nodes x.lease.task.nodeName = some row ∧ holdsForCommit row x.lease ∧
      s.suspendTaskLease x = ((s.park x row).1, some (s.park x row).2)
  := by
  unfold suspendTaskLease
  grind

theorem storeOutput_frame :
  s.storeOutput x = { s with outputs := (s.storeOutput x).outputs }
  := by
  unfold storeOutput
  split <;> rfl

/-- What a suspension of a node takes from the stored signals. -/
abbrev taken (s : SignalState) (x : Suspension) :
    (String → Option Data) × List (String × Data) × Option SignalPayload :=
  consume x.spec s.signals (s.signalSets x.lease.task.nodeName)

theorem park_suspended :
  (s.park x row).1.suspended = Function.update s.suspended x.lease.task.nodeName
    (if (s.taken x).2.2.isNone then some x.spec else none)
  := by
  unfold park
  rw [storeOutput_frame]
  split
  · exact Function.update_idem ..
  · rfl

theorem park_signals :
  (s.park x row).1.signals = (s.taken x).1
  := by
  unfold park
  rw [storeOutput_frame]
  split <;> rfl

theorem park_store :
  let parked := (s.storeOutput x).toMemoryState.rewriteRow x.lease.task.nodeName
    (row.unlease .suspended) x.privateOutput
  (s.park x row).1.toMemoryState =
    { parked with
      outbox := (suspendOutboxEntries parked.id x.lease x.spec (s.taken x).2.2 x.now).foldl putEntry
        parked.outbox }
  := by
  unfold park
  rw [storeOutput_frame]
  split <;> rfl

theorem park_execution :
  (s.park x row).1.execution = s.execution
  := by
  rw [park_store, MemoryState.rewriteRow_frame, storeOutput_frame]

theorem park_nodes_self :
  ∃ privateOutput output, (s.park x row).1.nodes x.lease.task.nodeName =
    some { row.unlease .suspended with privateOutput := privateOutput, output := output }
  := by
  exact ⟨_, _, MemoryState.rewriteRow_nodes_self⟩

/-- A delivered signal writes nothing to the records of the execution but intents. -/
theorem deliverSignalWithOutbox_store {walk : List String} {signal : String} {data : Data}
    {intent : ResumeIntent} {now : Nat} :
  ∃ entries : List OutboxEntry,
    (s.deliverSignalWithOutbox walk signal data intent now).1.toMemoryState =
      { s.toMemoryState with outbox := entries.foldl putEntry s.outbox }
  := by
  unfold deliverSignalWithOutbox handOver setCollected
  repeat' split
  all_goals first | exact ⟨[], rfl⟩ | exact ⟨[_], rfl⟩

end

end SignalState

end Xflow
