import Xflow.Lib.Run
import Xflow.Lib.Semaphore
import Xflow.Store.State

/-!
# Concurrency slots

What the local store keeps to bound how many executions of a workflow run at once: for each workflow
the executions that hold a slot and the line of those that wait for one, and for each execution the
place it has.  An execution that ends gives its place back, and what capacity there is then goes to
the head of the line.

Of an execution only the status, the reason and the outbox are kept here; the row that a store may
mirror an execution to, its deadline, its counters and markers, the time since when it is being
canceled and the channels that report its end are left out.
-/

namespace Xflow

open Function Semaphore

/-! ### Admissions -/

/-- The slots of a workflow are identified by its namespace and name.  The source keeps them under a
digest of the two. -/
abbrev SlotKey := String × String

inductive ConcurrencyMode where
  | reject
  | queue
  deriving DecidableEq

/-- What one submission asks for. -/
structure ConcurrencyAdmission where
  workflow : SlotKey
  limit : Int
  mode : ConcurrencyMode
  /-- The longest line; zero is unbounded. -/
  maxQueued : Int := 0
  /-- How long the execution may wait; zero is without bound. -/
  queueTimeout : Int := 0
  deriving DecidableEq

inductive ConcurrencyError where
  | concurrencyLimit
  | concurrencyQueueFull
  deriving DecidableEq

structure ConcurrencyAdmissionResult where
  queued : Bool := false
  queuePosition : Nat := 0
  deriving DecidableEq

/-- An execution that stands in a line, and when its wait ends. -/
structure QueuedExecution where
  slot : SlotKey
  deadline : Option Int := none
  deriving DecidableEq

/-! ### The state -/

/-- What happened to a slot, with the number of holders and the limit at that moment. -/
inductive SlotEvent where
  | charged (slot : SlotKey) (id : String) (holders : Nat) (limit : Int)
  | parked (slot : SlotKey) (id : String)
  | promoted (slot : SlotKey) (id : String) (holders : Nat) (limit : Int)
  deriving DecidableEq

/-- The records of the store that the limit of concurrent executions needs. -/
structure ConcurrencyState where
  executions : String → Option ExecutionSnapshot := fun _ => none
  outbox : String → List OutboxEntry := fun _ => []
  workflowSlots : SlotKey → Option (Semaphore String) := fun _ => none
  slotHolders : String → Option SlotKey := fun _ => none
  queued : String → Option QueuedExecution := fun _ => none
  /-- What happened to the slots so far, which the store itself does not record. -/
  history : List SlotEvent := []

namespace ConcurrencyState

variable (s : ConcurrencyState)

/-- `slotForLocked`: the slot of a workflow, which is empty when it has none. -/
def slotFor (key : SlotKey) : Semaphore String :=
  (s.workflowSlots key).getD {}

def setSlot (key : SlotKey) (m : Semaphore String) : ConcurrencyState :=
  { s with workflowSlots := update s.workflowSlots key (some m) }

def status? (id : String) : Option ExecutionStatus :=
  (s.executions id).map (·.status)

/-! ### Admitting -/

/-- `chargeSlotLocked`: the execution holds a slot. -/
def chargeSlot (key : SlotKey) (id : String) : ConcurrencyState :=
  let m := s.slotFor key
  let m := { m with holders := if id ∈ m.holders then m.holders else m.holders ++ [id] }
  { s.setSlot key m with
    slotHolders := update s.slotHolders id (some key)
    history := s.history ++ [.charged key id m.holders.length m.limit] }

/-- The execution stands at the end of the line. -/
def park (key : SlotKey) (id : String) (deadline : Option Int) : ConcurrencyState :=
  let m := s.slotFor key
  { s.setSlot key { m with queued := m.queued ++ [id] } with
    queued := update s.queued id (some { slot := key, deadline := deadline })
    history := s.history ++ [.parked key id] }

/-- `parkOrChargeLocked`: a slot that is free belongs to the line, if there is one. -/
def parkOrCharge (id : String) (admission : ConcurrencyAdmission) (now : Int) :
    ConcurrencyState × Except ConcurrencyError Bool :=
  let m := s.slotFor admission.workflow
  if m.holders.length < m.limit ∧ m.queued = [] then
    (s.chargeSlot admission.workflow id, .ok false)
  else if 0 < admission.maxQueued ∧ admission.maxQueued ≤ m.queued.length then
    (s, .error .concurrencyQueueFull)
  else
    (s.park admission.workflow id
      (if 0 < admission.queueTimeout then some (now + admission.queueTimeout) else none), .ok true)

/-- `chargeOrParkLocked` tells whether the execution has to wait.  The slot takes the limit of the
submission first. -/
def chargeOrPark (id : String) (admission : ConcurrencyAdmission) (now : Int) :
    ConcurrencyState × Except ConcurrencyError Bool :=
  let s := s.setSlot admission.workflow
    { s.slotFor admission.workflow with limit := admission.limit }
  match admission.mode with
  | .queue => s.parkOrCharge id admission now
  | .reject =>
    if admission.limit ≤ (s.slotFor admission.workflow).holders.length then
      (s, .error .concurrencyLimit)
    else (s.chargeSlot admission.workflow id, .ok false)

/-- `queuePositionLocked`: the place in the line, counted from one. -/
def queuePosition (id : String) : Nat :=
  match s.queued id with
  | none => 0
  | some w => if id ∈ (s.slotFor w.slot).queued then (s.slotFor w.slot).queued.idxOf id + 1 else 0

/-- `writeInitialIntentsLocked`: the intents of an execution that has to wait are parked. -/
def writeInitialIntents (outbox entries : List OutboxEntry) (pending : Bool) : List OutboxEntry :=
  entries.foldl (fun outbox e =>
    putEntry outbox (if pending then { e with availableAt := .held } else e)) outbox

def createExecutionWithConcurrency (id : String) (snap : ExecutionSnapshot)
    (entries : List OutboxEntry) (admission : ConcurrencyAdmission) (now : Int) :
    ConcurrencyState × Except ConcurrencyError ConcurrencyAdmissionResult :=
  match s.chargeOrPark id admission now with
  | (s, .error err) => (s, .error err)
  | (s, .ok pending) =>
    let s :=
      { s with
        executions := update s.executions id
          (some { snap with status := if pending then .queued else .running })
        outbox := update s.outbox id (writeInitialIntents (s.outbox id) entries pending) }
    (s, .ok (if pending then { queued := true, queuePosition := s.queuePosition id } else {}))

/-! ### Releasing -/

/-- `dropHeldOutboxLocked`. -/
def dropHeldOutbox (id : String) : ConcurrencyState :=
  { s with
    outbox := update s.outbox id
      ((s.outbox id).filter fun e => e.availableAt ≠ .held) }

/-- The status of an execution that got a slot. -/
def promotedSnapshot (snap : ExecutionSnapshot) : ExecutionSnapshot :=
  if snap.status = .queued then { snap with status := .running } else snap

/-- The intents of an execution that got a slot. -/
def promotedOutbox (outbox : List OutboxEntry) : List OutboxEntry :=
  outbox.map fun e => if e.availableAt = .held then { e with availableAt := .now } else e

/-- `completePromotionLocked`. -/
def completePromotion (id : String) : ConcurrencyState :=
  { s with
    executions := update s.executions id ((s.executions id).map promotedSnapshot)
    outbox := update s.outbox id (promotedOutbox (s.outbox id)) }

/-- One round of `promoteLocked`: the head of the line gets a slot of `m`. -/
def takePlace (key : SlotKey) (id : String) (m : Semaphore String) : ConcurrencyState :=
  { s.setSlot key m with
    queued := update s.queued id none
    slotHolders := update s.slotHolders id (some key)
    history := s.history ++ [SlotEvent.promoted key id m.holders.length m.limit]
  }.completePromotion id

/-- The rounds of `promoteLocked`, up to a number of them. -/
def promoteRounds (key : SlotKey) : Nat → ConcurrencyState → ConcurrencyState
  | 0, s => s
  | n + 1, s =>
    match (s.slotFor key).promote with
    | none => s
    | some (id, m) => promoteRounds key n (s.takePlace key id m)

/-- `promoteLocked`: each round shortens the line, so that there are no more rounds than it has
members. -/
def promote (key : SlotKey) : ConcurrencyState :=
  promoteRounds key (s.slotFor key).queued.length s

/-- The end of `releaseWorkflowSlotLocked`: capacity goes to the line, and an empty slot goes away.
-/
def settleSlot (key : SlotKey) : ConcurrencyState :=
  let s := s.promote key
  if (s.slotFor key).holders = [] ∧ (s.slotFor key).queued = [] then
    { s with workflowSlots := update s.workflowSlots key none }
  else s

/-- A holder gives its slot back. -/
def vacate (key : SlotKey) (id : String) : ConcurrencyState :=
  let m := s.slotFor key
  { s.setSlot key { m with holders := m.holders.erase id } with
    slotHolders := update s.slotHolders id none }

/-- A waiting execution leaves the line, and its parked intents go with it. -/
def withdraw (key : SlotKey) (id : String) : ConcurrencyState :=
  let m := s.slotFor key
  { s.setSlot key { m with queued := m.queued.erase id } with
    queued := update s.queued id none }.dropHeldOutbox id

/-- `releaseWorkflowSlotLocked`. -/
def releaseWorkflowSlot (id : String) : ConcurrencyState :=
  match s.slotHolders id with
  | some key => (s.vacate key id).settleSlot key
  | none =>
    match s.queued id with
    | some w => (s.withdraw w.slot id).settleSlot w.slot
    | none => s

/-! ### Ending -/

def setExecution (id : String) (snap : ExecutionSnapshot) : ConcurrencyState :=
  { s with executions := update s.executions id (some snap) }

/-- `updateExecutionStatusLocked` reports whether the status was written. -/
def updateExecutionStatus (id : String) (status : ExecutionStatus) (errMsg : String) :
    ConcurrencyState × Bool :=
  match s.executions id with
  | none => (s, false)
  | some snap =>
    if snap.status.isTerminal then (s, false)
    else if snap.status = .canceling ∧ status ≠ .canceled then (s, false)
    else
      let s := s.setExecution id
        { snap with status := status, error := if errMsg ≠ "" then errMsg else snap.error }
      (if status.isTerminal then s.releaseWorkflowSlot id else s, true)

/-- `finishExecutionLocked`, with which a commit ends an execution. -/
def finishExecution (id : String) (status : ExecutionStatus) (errMsg : String) : ConcurrencyState :=
  match s.executions id with
  | none => s
  | some snap =>
    if snap.status.isTerminal then s
    else
      (s.setExecution id
        { snap with
          status := status
          error := if status = .failed ∧ errMsg ≠ "" then errMsg else snap.error }
      ).releaseWorkflowSlot id

def concurrencyQueueTimeoutError : String := "concurrency queue timeout"

/-- The wait of an execution is over. -/
def due (now : Int) (id : String) : Bool :=
  ((s.queued id).bind (·.deadline)).any (· ≤ now)

/-- The executions that `ExpireQueuedExecutions` collects, in the order in which it walks the map of
the queued ones; a positive limit bounds how many. -/
def collectExpired (walk : List String) (limit now : Int) : List String :=
  if 0 < limit then (walk.filter (s.due now)).take limit.toNat else walk.filter (s.due now)

/-- The second loop of `ExpireQueuedExecutions`. -/
def timeOut (ids : List String) : ConcurrencyState :=
  ids.foldl (fun s id => (s.updateExecutionStatus id .timeout concurrencyQueueTimeoutError).1) s

/-- `ExpireQueuedExecutions`, which reports how many executions it collected. -/
def expireQueuedExecutions (walk : List String) (limit now : Int) : ConcurrencyState × Nat :=
  let expired := s.collectExpired walk limit now
  (s.timeOut expired, expired.length)

/-- The order in which the map of the queued executions is walked. -/
def Walks (walk : List String) : Prop :=
  walk.Nodup ∧ ∀ id, id ∈ walk ↔ (s.queued id).isSome

/-! ### What a promotion changes -/

variable {s} {s' : ConcurrencyState} {key : SlotKey}

attribute [local simp] setSlot

@[simp]
theorem slotFor_setSlot (k : SlotKey) (m : Semaphore String) :
  (s.setSlot key m).slotFor k = if k = key then m else s.slotFor k
  := by
  by_cases same : k = key <;> simp [slotFor, same]

/-- The events of one promotion pass: the executions that got a slot, in order, each within the
limit. -/
def PromotionEvents (key : SlotKey) : List String → List SlotEvent → Prop :=
  List.Forall₂ fun id e => ∃ (holders : Nat) (limit : Int),
    e = .promoted key id holders limit ∧ (holders : Int) ≤ limit

/-- The state after those at the head of the line got the free slots of a workflow. -/
structure Promoted (key : SlotKey) (s s' : ConcurrencyState) : Prop where
  held : (s'.slotFor key).holders = (s.slotFor key).filled.holders
  line : (s'.slotFor key).queued = (s.slotFor key).filled.queued
  settled : (s'.slotFor key).free = 0 ∨ (s'.slotFor key).queued = []
  others : ∀ k, k ≠ key → s'.slotFor k = s.slotFor k
  slotHolders : ∀ id, s'.slotHolders id =
    if id ∈ (s.slotFor key).taken then some key else s.slotHolders id
  queued : ∀ id, s'.queued id = if id ∈ (s.slotFor key).taken then none else s.queued id
  executions : ∀ id, s'.executions id =
    if id ∈ (s.slotFor key).taken then (s.executions id).map promotedSnapshot else s.executions id
  history : ∃ events, s'.history = s.history ++ events ∧
    PromotionEvents key (s.slotFor key).taken events

theorem promotedSnapshot_idem (snap : ExecutionSnapshot) :
  promotedSnapshot (promotedSnapshot snap) = promotedSnapshot snap
  := by
  unfold promotedSnapshot
  split <;> simp_all

theorem Promoted.refl (h : (s.slotFor key).promote = none) :
  Promoted key s s
  := by
  obtain ⟨nobody, same⟩ := taken_nil h
  have settled := (s.slotFor key).filled_settled
  rw [same] at settled
  constructor
  case held => rw [same]
  case line => rw [same]
  case settled => exact settled
  case history => exact ⟨[], by simp, by simp [nobody, PromotionEvents]⟩
  all_goals simp [nobody]

attribute [local simp] completePromotion takePlace

theorem Promoted.cons {id : String} {m : Semaphore String}
    (h : (s.slotFor key).promote = some (id, m)) (rest : Promoted key (s.takePlace key id m) s') :
  Promoted key s s'
  := by
  obtain ⟨-, -, limit, bound⟩ := promote_some h
  obtain ⟨taken, filled⟩ := taken_cons h
  have slot : (s.takePlace key id m).slotFor key = m := by
    simp [slotFor]
  constructor
  case held => rw [rest.held, slot, filled]
  case line => rw [rest.line, slot, filled]
  case settled => exact rest.settled
  case others =>
    intro k other
    rw [rest.others k other]
    simp [slotFor, other]
  case slotHolders =>
    intro x
    rw [rest.slotHolders, slot, taken]
    by_cases same : x = id <;> simp [same]
  case queued =>
    intro x
    rw [rest.queued, slot, taken]
    by_cases same : x = id <;> simp [same]
  case executions =>
    intro x
    rw [rest.executions, slot, taken]
    by_cases same : x = id
    · simp [same, comp_def, promotedSnapshot_idem]
    · simp [same]
  case history =>
    obtain ⟨events, eq, promoted⟩ := rest.history
    refine ⟨.promoted key id m.holders.length m.limit :: events, ?_, ?_⟩
    · simp [eq]
    · rw [taken]
      rw [slot] at promoted
      exact List.Forall₂.cons ⟨_, _, rfl, limit ▸ bound⟩ promoted

theorem promoteRounds_promoted {n : Nat} (rounds : (s.slotFor key).queued.length ≤ n) :
  Promoted key s (promoteRounds key n s)
  := by
  induction n generalizing s with
  | zero =>
    apply Promoted.refl
    rw [Nat.le_zero, List.length_eq_zero_iff] at rounds
    simp [Semaphore.promote, rounds]
  | succ n ih =>
    unfold promoteRounds
    split
    · apply Promoted.refl
      assumption
    · rename_i id m h
      apply Promoted.cons h
      apply ih
      obtain ⟨line, -⟩ := promote_some h
      rw [line] at rounds
      simpa [slotFor] using rounds

theorem promote_settled (settled : (s.slotFor key).free = 0 ∨ (s.slotFor key).queued = []) :
  s.promote key = s
  := by
  have none : (s.slotFor key).promote = none := Semaphore.promote_settled settled
  unfold promote
  cases (s.slotFor key).queued.length with
  | zero => rfl
  | succ n => rw [promoteRounds, none]

theorem promoteRounds_limit {n : Nat} :
  ((promoteRounds key n s).slotFor key).limit = (s.slotFor key).limit
  := by
  induction n generalizing s with
  | zero => rfl
  | succ n ih =>
    unfold promoteRounds
    split
    · rfl
    · rename_i id m h
      obtain ⟨-, -, limit, -⟩ := promote_some h
      rw [ih, ← limit]
      simp [slotFor]

theorem settleSlot_limit
    (used : ((s.settleSlot key).slotFor key).holders ≠ [] ∨
      ((s.settleSlot key).slotFor key).queued ≠ []) :
  ((s.settleSlot key).slotFor key).limit = (s.slotFor key).limit
  := by
  unfold settleSlot at used ⊢
  dsimp only at used ⊢
  split
  · rename_i empty
    rw [if_pos empty] at used
    simp [slotFor] at used
  · exact promoteRounds_limit

theorem settleSlot_promoted :
  Promoted key s (s.settleSlot key)
  := by
  have pass : Promoted key s (s.promote key) := promoteRounds_promoted le_rfl
  unfold settleSlot
  dsimp only
  split
  · rename_i empty
    refine { pass with held := ?held, line := ?line, settled := ?settled, others := ?others }
    case held =>
      rw [← pass.held, empty.1]
      simp [slotFor]
    case line =>
      rw [← pass.line, empty.2]
      simp [slotFor]
    case settled => simp [slotFor]
    case others =>
      intro k other
      rw [← pass.others k other]
      simp [slotFor, other]
  · exact pass

end ConcurrencyState

end Xflow
