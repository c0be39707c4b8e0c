import Mathlib.Data.List.Sort
import Mathlib.Data.Prod.Lex
import Mathlib.Data.String.Basic
import Xflow.Engine.System
import Xflow.Graph.EntrySeed
import Xflow.Store.Concurrency
import Xflow.Store.Seed

/-!
# Entry admission

A trigger runner hands in the result of an entry unit, and the local store creates an execution
around it.  Each result has an admission key and a hash of its content: the first call that is
accepted for a key creates its execution, and the store answers every later call from the record of
the first one.  The admission, the place in the slot of the workflow, the execution with its
counters and outputs, and the intents of what follows are written under one lock.

The execution of a key is named by a digest of the key, which is a parameter here.

The exits of a result are sorted by node and port before they are written to its hash, so that their
order should not matter.  It does for exits of one node and port.
-/

namespace Xflow

open List Option Function ConcurrencyState

/-! ### Requests and answers -/

/-- The state of an answer. -/
inductive AdmissionState where
  | accepted
  | conflict
  | overLimit
  | queueFull
  deriving DecidableEq

/-- What a runner hands in: the outcome of an entry unit, its boundary outputs and the arrivals that
follow. -/
structure EntryRequest where
  admissionKey : String
  resultHash : String
  entryUnitIdx : Int
  graph : Option Topology
  outcome : GroupOutcome
  exits : List GroupExitResult := []
  error : String := ""
  downstream : List DownstreamArrival := []

/-- `SeedExecutionFromEntryResponse`. -/
structure EntryResponse where
  state : AdmissionState
  executionID : String := ""
  duplicate : Bool := false
  queued : Bool := false
  queuePosition : Nat := 0
  skipped : List SkippedUnit := []
  deriving DecidableEq

/-- `SeedAdmissionRefusal`: the answer to a refused slot decision names no execution. -/
def seedAdmissionRefusal : ConcurrencyError → EntryResponse
  | .concurrencyLimit => { state := .overLimit }
  | .concurrencyQueueFull => { state := .queueFull }

/-- The record of an accepted result. -/
structure AdmissionEntry where
  executionID : String
  resultHash : String
  deriving DecidableEq

/-- One call of `SeedExecutionFromEntry`, or of `SeedExecutionFromEntryWithConcurrency` if it has an
admission to a slot; `mirrored` tells whether a row of the execution is written to a database. -/
structure EntryCall where
  req : EntryRequest
  admission : Option ConcurrencyAdmission := none
  now : Int := 0
  mirrored : Bool := false

/-! ### The store -/

/-- The records that an admission reads and writes, of all executions.  Status, error and intents of
an execution are those of the concurrency records, and `records` has the others. -/
structure EntryState extends ConcurrencyState where
  records : String → MemoryState := fun id => { id := id }
  admissions : String → Option AdmissionEntry := fun _ => none
  /-- The executions whose row is not written yet. -/
  mirrorCreatePending : String → Bool := fun _ => false

namespace EntryState

variable (s : EntryState)

/-- The records of one execution. -/
def memory (id : String) : MemoryState :=
  { s.records id with id := id, execution := s.executions id, outbox := s.outbox id }

/-- Write the records of one execution. -/
def setMemory (id : String) (m : MemoryState) : EntryState :=
  { s with
    records := update s.records id m
    executions := update s.executions id m.execution
    outbox := update s.outbox id m.outbox }

/-- `createExecutionLocked` on records that may be there: it writes the execution and the counters
of its graph. -/
def createExecution (graph : Option Topology) (snap : ExecutionSnapshot) (m : MemoryState) :
    MemoryState :=
  match graph with
  | none => { m with execution := some snap }
  | some g =>
    { m with
      execution := some snap
      inDegrees := fun u => if g.isUnit u then g.unitInDegreeAt u else m.inDegrees u
      remaining := if g.allowCycles then m.remaining else g.unitCount
      failed := if g.allowCycles then m.failed else 0 }

/-- `finishExecutionLocked`.  Of the executions that it promotes, those without a row keep their
intents parked. -/
def finishExecution (id : String) (status : ExecutionStatus) (errMsg : String) : EntryState :=
  let c := s.toConcurrencyState.finishExecution id status errMsg
  { s with
    toConcurrencyState :=
      { c with
        outbox := fun j =>
          if j ≠ id ∧ s.mirrorCreatePending j then s.outbox j else c.outbox j } }

/-! ### The steps of an admission -/

/-- The slot decision, which a call without an admission does not take. -/
def decideSlot (id : String) (admission : Option ConcurrencyAdmission) (now : Int) :
    EntryState × Except ConcurrencyError Bool :=
  match admission with
  | none => (s, .ok false)
  | some admission =>
    let decision := s.toConcurrencyState.chargeOrPark id admission now
    ({ s with toConcurrencyState := decision.1 }, decision.2)

/-- The execution is created, its entry unit is done and the boundary outputs are stored. -/
def createFromEntry (id : String) (req : EntryRequest) (pending mirrored : Bool) : EntryState :=
  let snap : ExecutionSnapshot := { status := if pending then .queued else .running }
  let m := createExecution req.graph snap (s.memory id)
  let m := { m with
    groupUnits := update m.groupUnits req.entryUnitIdx
      (some { status := .done, committedToken := "seed-triggered" }) }
  { s.setMemory id (MemoryState.writeExits req.exits m) with
    mirrorCreatePending :=
      if mirrored then update s.mirrorCreatePending id true else s.mirrorCreatePending }

/-- The entry unit is counted, and the execution is over if it was the last one or failed with
nothing downstream. -/
def countEntry (id : String) (req : EntryRequest) : EntryState :=
  match req.graph with
  | none => s
  | some g =>
    if g.allowCycles then s
    else
      let m := (s.memory id).countUnit (req.outcome = .failed)
      let s := s.setMemory id m
      let fatal : Bool := req.outcome = .failed ∧ req.downstream = []
      if fatal ∨ m.remaining = 0 then
        let status : ExecutionStatus := if fatal ∨ 0 < m.failed then .failed else .success
        s.finishExecution id status (terminalExecutionError status req.error "")
      else s

/-- The arrivals that follow; reports the units that they skip. -/
def fanOut (id : String) (req : EntryRequest) : EntryState × List SkippedUnit :=
  if req.outcome = .success ∨ req.downstream ≠ [] then
    let (m, _, skipped) := MemoryState.applyArrivals 0 0 req.downstream (s.memory id)
    (s.setMemory id m, skipped)
  else (s, [])

/-- A root that was not selected is skipped, unless it is scheduled. -/
def skipRoot (m : MemoryState) (skip : Task) : MemoryState :=
  if m.scheduled skip.unitIdx ≠ .none then m
  else
    ({ m with scheduled := update m.scheduled skip.unitIdx .skip }.putOutboxEntry
      { id := skipOutboxID m.id skip.nodeName 0, task := skip, availableAt := .now }).1

/-- The roots that the admission did not seed are skipped, unless the execution is over. -/
def skipRoots (id : String) (req : EntryRequest) : EntryState :=
  match req.graph with
  | none => s
  | some g =>
    if (s.memory id).isOver then s
    else s.setMemory id ((g.unselectedRootSkips req.entryUnitIdx).foldl skipRoot (s.memory id))

/-- The intents of an execution in a line are parked, and so are those of one whose row is not
written yet, unless it is over. -/
def parkIntents (id : String) : EntryState :=
  let s := if 0 < s.queuePosition id then s.setMemory id (s.memory id).holdOutbox else s
  if s.mirrorCreatePending id ∧ (s.memory id).isOver = false
  then s.setMemory id (s.memory id).holdOutbox else s

/-- `seedExecutionFromEntryLocked`; reports whether an execution was created. -/
def seedExecutionFromEntry (executionID : String → String) (call : EntryCall) :
    EntryState × EntryResponse × Bool :=
  let req := call.req
  match s.admissions req.admissionKey with
  | some existing =>
    let position := s.queuePosition existing.executionID
    if existing.resultHash = req.resultHash then
      (s, {
        state := .accepted
        executionID := existing.executionID
        duplicate := true
        queued := 0 < position
        queuePosition := position }, false)
    else
      (s, {
        state := .conflict
        executionID := existing.executionID
        queued := 0 < position
        queuePosition := position }, false)
  | none =>
    let id := executionID req.admissionKey
    match s.decideSlot id call.admission call.now with
    | (s, .error err) => (s, seedAdmissionRefusal err, false)
    | (s, .ok pending) =>
      let s := (s.createFromEntry id req pending call.mirrored).countEntry id req
      let (s, skipped) := s.fanOut id req
      let s := s.skipRoots id req
      let position := s.queuePosition id
      let s := s.parkIntents id
      ({ s with
          admissions := update s.admissions req.admissionKey
            (some { executionID := id, resultHash := req.resultHash }) },
        {
          state := .accepted
          executionID := id
          queued := 0 < position
          queuePosition := position
          skipped := skipped }, true)

/-- `releaseInitialMirrorHold`: once the row of an execution is written, its intents are
deliverable, unless it is over or waits in a line. -/
def releaseInitialMirrorHold (id : String) : EntryState :=
  let s := { s with mirrorCreatePending := update s.mirrorCreatePending id false }
  match s.status? id with
  | none => s.setMemory id (s.memory id).dropHeldOutbox
  | some status =>
    if status.isTerminal then s.setMemory id (s.memory id).dropHeldOutbox
    else if status = .queued then s
    else { s with
      outbox := update s.outbox id (promotedOutbox (s.outbox id)) }

/-! ### What the calls change -/

variable {s} {executionID : String → String} {call : EntryCall} {id : String} {req : EntryRequest}
  {admission : Option ConcurrencyAdmission} {err : ConcurrencyError}

/-- No other execution comes or goes, and of the others at most status, error and intents are
written. -/
structure Apart (id : String) (s t : EntryState) : Prop where
  records : ∀ j, j ≠ id → t.records j = s.records j
  present : ∀ j, j ≠ id → (t.executions j).isSome = (s.executions j).isSome

/-- A step for one execution that leaves the admissions alone. -/
structure Own (id : String) (s t : EntryState) : Prop extends Apart id s t where
  admissions : t.admissions = s.admissions
  kept : (s.executions id).isSome → (t.executions id).isSome

theorem Own.refl (id : String) (s : EntryState) : Own id s s :=
  ⟨⟨fun _ _ => rfl, fun _ _ => rfl⟩, rfl, fun found => found⟩

theorem Own.trans {t u : EntryState} (first : Own id s t) (second : Own id t u) :
  Own id s u
  where
  admissions := second.admissions.trans first.admissions
  records j other := (second.records j other).trans (first.records j other)
  present j other := (second.present j other).trans (first.present j other)
  kept found := second.kept (first.kept found)

theorem own_setMemory {m : MemoryState} (kept : (s.executions id).isSome → m.execution.isSome) :
  Own id s (s.setMemory id m)
  := by
  refine ⟨⟨fun j other => ?_, fun j other => ?_⟩, rfl, fun found => ?_⟩
  · simp [setMemory, other]
  · simp [setMemory, other]
  · simpa [setMemory] using kept found

theorem own_decideSlot {now : Int} :
  Own id s (s.decideSlot id admission now).1
  := by
  have same : (s.decideSlot id admission now).1.executions = s.executions := by
    unfold decideSlot chargeOrPark parkOrCharge
    dsimp only
    repeat' split
    all_goals rfl
  refine ⟨⟨fun j _ => ?_, fun j _ => by rw [same]⟩, ?_, fun found => by rwa [same]⟩
  all_goals
    unfold decideSlot
    split <;> rfl

theorem own_createFromEntry {pending mirrored : Bool} :
  Own id s (s.createFromEntry id req pending mirrored) ∧
    ((s.createFromEntry id req pending mirrored).executions id).isSome
  := by
  have found : ((s.createFromEntry id req pending mirrored).executions id).isSome := by
    cases graph : req.graph <;> simp [createFromEntry, setMemory, createExecution, graph]
  refine ⟨⟨⟨fun j other => ?_, fun j other => ?_⟩, rfl, fun _ => found⟩, found⟩
  all_goals simp [createFromEntry, setMemory, other]

theorem isSome_finishExecution (c : ConcurrencyState) (id : String) (status : ExecutionStatus)
    (errMsg j : String) :
  ((c.finishExecution id status errMsg).executions j).isSome = (c.executions j).isSome
  := by
  have settled (c : ConcurrencyState) (key : SlotKey) :
      ((c.settleSlot key).executions j).isSome = (c.executions j).isSome := by
    rw [settleSlot_promoted.executions]
    split <;> simp
  have released (c : ConcurrencyState) :
      ((c.releaseWorkflowSlot id).executions j).isSome = (c.executions j).isSome := by
    fun_cases c.releaseWorkflowSlot id
    · exact settled _ _
    · exact settled _ _
    · rfl
  fun_cases c.finishExecution id status errMsg with
  | case3 snap found =>
    rw [released]
    by_cases same : j = id <;> simp [setExecution, same, found]
  | _ => rfl

theorem own_finishExecution {status : ExecutionStatus} {errMsg : String} :
  Own id s (s.finishExecution id status errMsg)
  where
  admissions := rfl
  records _ _ := rfl
  present j _ := isSome_finishExecution _ _ _ _ j
  kept found := (isSome_finishExecution _ _ _ _ id).trans found

theorem own_countEntry :
  Own id s (s.countEntry id req)
  := by
  unfold countEntry
  split
  · exact .refl id s
  · dsimp only
    split
    · exact .refl id s
    · have counted := @own_setMemory s id ((s.memory id).countUnit (req.outcome = .failed))
        fun found => found
      split
      · exact counted.trans own_finishExecution
      · exact counted

theorem own_fanOut :
  Own id s (s.fanOut id req).1
  := by
  unfold fanOut
  split
  · apply own_setMemory
    simp [memory]
  · exact .refl id s

theorem own_skipRoots :
  Own id s (s.skipRoots id req)
  := by
  unfold skipRoots
  split
  · exact .refl id s
  · split
    · exact .refl id s
    · apply own_setMemory
      intro found
      refine foldlRecOn (motive := fun m : MemoryState => m.execution.isSome) _ _ found ?_
      intro m found skip _
      unfold skipRoot
      split <;> exact found

theorem own_parkIntents :
  Own id s (s.parkIntents id)
  := by
  have held (s : EntryState) : Own id s (s.setMemory id (s.memory id).holdOutbox) :=
    own_setMemory fun found => found
  unfold parkIntents
  dsimp only
  split <;> split
  · exact (held s).trans (held _)
  · exact held s
  · exact held s
  · exact .refl id s

theorem own_settle :
  Own id s ((((s.countEntry id req).fanOut id req).1.skipRoots id req).parkIntents id)
  :=
  ((own_countEntry.trans own_fanOut).trans own_skipRoots).trans own_parkIntents

theorem releaseInitialMirrorHold_admissions :
  (s.releaseInitialMirrorHold id).admissions = s.admissions
  := by
  unfold releaseInitialMirrorHold
  dsimp only
  repeat' split
  all_goals rfl

/-- Two states that differ at most in the limits of their slots. -/
structure LimitsOnly (s t : EntryState) : Prop where
  rest : t = { s with workflowSlots := t.workflowSlots }
  held : ∀ key, (t.slotFor key).holders = (s.slotFor key).holders
  line : ∀ key, (t.slotFor key).queued = (s.slotFor key).queued

theorem decideSlot_refused {now : Int}
    (refused : (s.decideSlot id admission now).2 = .error err) :
  LimitsOnly s (s.decideSlot id admission now).1
  := by
  cases admission with
  | none => cases refused
  | some admission =>
    have limited : (s.toConcurrencyState.chargeOrPark id admission now).1
        = s.toConcurrencyState.setSlot admission.workflow
          { s.slotFor admission.workflow with limit := admission.limit } := by
      revert refused
      unfold decideSlot chargeOrPark parkOrCharge
      dsimp only
      repeat' split
      all_goals simp
    constructor
    case rest =>
      simp only [decideSlot, limited]
      rfl
    case held | line =>
      intro key
      simp only [decideSlot, limited, slotFor_setSlot]
      split
      · rename_i same
        rw [same]
      · rfl

/-- A slot is free for the call: it takes none, or its workflow has fewer holders than the limit
and, if they wait in a line, nobody waits. -/
def SlotFree (s : EntryState) (call : EntryCall) : Prop :=
  ∀ admission, call.admission = some admission →
    (s.slotFor admission.workflow).holders.length < admission.limit ∧
      (admission.mode = .queue → (s.slotFor admission.workflow).queued = [])

theorem decideSlot_of_free (free : s.SlotFree call) :
  (s.decideSlot id call.admission call.now).2 = .ok false
  := by
  unfold decideSlot
  split
  · rfl
  · rename_i admission asked
    obtain ⟨room, line⟩ := free admission asked
    unfold chargeOrPark parkOrCharge
    cases mode : admission.mode with
    | queue => simp [room, line mode]
    | reject => simp [not_le.mpr room]

/-! ### The three answers -/

/-- The key of a call is known, or the slot decides. -/
theorem answer_cases (executionID : String → String) (s : EntryState) (call : EntryCall) :
  (∃ existing, s.admissions call.req.admissionKey = some existing) ∨
    s.admissions call.req.admissionKey = none ∧
      ((∃ err, (s.decideSlot (executionID call.req.admissionKey) call.admission call.now).2
        = .error err) ∨
      ∃ pending, (s.decideSlot (executionID call.req.admissionKey) call.admission call.now).2
        = .ok pending)
  := by
  cases s.admissions call.req.admissionKey with
  | some existing => exact .inl ⟨existing, rfl⟩
  | none =>
    refine .inr ⟨rfl, ?_⟩
    cases (s.decideSlot (executionID call.req.admissionKey) call.admission call.now).2 with
    | error err => exact .inl ⟨err, rfl⟩
    | ok pending => exact .inr ⟨pending, rfl⟩

section

variable {answer : EntryState × EntryResponse × Bool}
  (asked : s.seedExecutionFromEntry executionID call = answer)

include asked

variable (executionID) in
/-- A call for a known key changes nothing: it is a duplicate or a conflict. -/
theorem seedExecutionFromEntry_of_known {existing : AdmissionEntry}
    (known : s.admissions call.req.admissionKey = some existing) :
  answer.1 = s ∧ answer.2.2 = false ∧ answer.2.1.executionID = existing.executionID ∧
    (call.req.resultHash = existing.resultHash →
      answer.2.1.state = .accepted ∧ answer.2.1.duplicate = true) ∧
    (call.req.resultHash ≠ existing.resultHash → answer.2.1.state = .conflict)
  := by
  simp only [seedExecutionFromEntry, known] at asked
  grind

variable (new : s.admissions call.req.admissionKey = none)

include new

/-- A refused call answers with the refusal and leaves what the slot decision left. -/
theorem seedExecutionFromEntry_of_refused
    (refused : (s.decideSlot (executionID call.req.admissionKey) call.admission call.now).2
      = .error err) :
  answer = ((s.decideSlot (executionID call.req.admissionKey) call.admission call.now).1,
    seedAdmissionRefusal err, false)
  := by
  simp only [seedExecutionFromEntry, new] at asked
  rw [← asked, ← Prod.eta (s.decideSlot _ _ _), refused]

/-- A call for a new key with a positive slot decision creates the execution of the key and records
the admission. -/
theorem seedExecutionFromEntry_of_new {pending : Bool}
    (ok : (s.decideSlot (executionID call.req.admissionKey) call.admission call.now).2
      = .ok pending) :
  answer.1.admissions = update s.admissions call.req.admissionKey
      (some ⟨executionID call.req.admissionKey, call.req.resultHash⟩) ∧
    answer.2.2 = true ∧ answer.2.1.executionID = executionID call.req.admissionKey ∧
    answer.2.1.state = .accepted ∧ answer.2.1.duplicate = false ∧
    (answer.1.executions (executionID call.req.admissionKey)).isSome ∧
    Apart (executionID call.req.admissionKey) s answer.1
  := by
  simp only [seedExecutionFromEntry, new] at asked
  rw [← asked, ← Prod.eta (s.decideSlot _ _ _), ok]
  obtain ⟨creates, found⟩ := @own_createFromEntry (s.decideSlot (executionID call.req.admissionKey)
    call.admission call.now).1 (executionID call.req.admissionKey) call.req pending call.mirrored
  have own := (own_decideSlot.trans creates).trans (@own_settle _ _ call.req)
  refine ⟨?_, rfl, rfl, rfl, rfl, own_settle.kept found, own.records, own.present⟩
  dsimp only
  rw [own.admissions]

end

end EntryState

/-! ### Runs of calls -/

/-- A call that was answered. -/
structure EntryAnswer where
  key : String
  hash : String
  response : EntryResponse
  created : Bool
  deriving DecidableEq

/-- The store, and the calls that it answered so far. -/
structure EntryHistory where
  store : EntryState
  answers : List EntryAnswer

namespace EntryHistory

open EntryState Transition

/-- A call, the end of one that wrote a row, or anything else that the store does; the last leaves
the admissions alone. -/
inductive Action where
  | seed (call : EntryCall)
  | release (id : String)
  | other (next : EntryState)

variable (executionID : String → String)

def step : Action → EntryHistory → Option EntryHistory
  | .seed call, σ =>
    let answer := σ.store.seedExecutionFromEntry executionID call
    some {
      store := answer.1
      answers := σ.answers ++
        [⟨call.req.admissionKey, call.req.resultHash, answer.2.1, answer.2.2⟩] }
  | .release id, σ => some { σ with store := σ.store.releaseInitialMirrorHold id }
  | .other next, σ => some { σ with store := { next with admissions := σ.store.admissions } }

/-- The calls that created an execution for a key. -/
def creations (σ : EntryHistory) (key : String) : List EntryAnswer :=
  σ.answers.filter (fun a => a.key = key ∧ a.created)

/-- The admissions record what was accepted: each accepted answer is that of the record of its key,
a key without a record has no execution, and no key has two. -/
structure Recorded (σ : EntryHistory) : Prop where
  accepted : ∀ a ∈ σ.answers, a.response.state = .accepted →
    σ.store.admissions a.key = some ⟨a.response.executionID, a.hash⟩
  fresh : ∀ key, σ.store.admissions key = none → σ.creations key = []
  once : ∀ key, (σ.creations key).length ≤ 1

variable {executionID} {σ τ : EntryHistory} {begin : EntryState}

section

variable (recorded : Recorded σ)

include recorded

theorem Recorded.answer {more : List EntryAnswer}
    (same : τ.store.admissions = σ.store.admissions) (answers : τ.answers = σ.answers ++ more)
    (kept : ∀ a ∈ more, a.created = false)
    (agrees : ∀ a ∈ more, a.response.state = .accepted →
      σ.store.admissions a.key = some ⟨a.response.executionID, a.hash⟩) :
  Recorded τ
  := by
  have creations : τ.creations = σ.creations := by
    funext key
    simpa [creations, answers] using fun a mem _ => kept a mem
  constructor
  case accepted =>
    intro a mem
    rw [same]
    rw [answers] at mem
    exact (mem_append.mp mem).elim (recorded.accepted a) (agrees a)
  case fresh =>
    rw [creations, same]
    exact recorded.fresh
  case once =>
    rw [creations]
    exact recorded.once

theorem Recorded.create {store : EntryState} {a : EntryAnswer}
    (new : σ.store.admissions a.key = none)
    (record : store.admissions =
      update σ.store.admissions a.key (some ⟨a.response.executionID, a.hash⟩)) :
  Recorded ⟨store, σ.answers ++ [a]⟩
  := by
  have others : ∀ key, key ≠ a.key → creations ⟨store, σ.answers ++ [a]⟩ key = σ.creations key := by
    intro key other
    simp [creations, Ne.symm other]
  constructor
  case accepted =>
    intro b mem ok
    rw [record]
    obtain mem | mem := mem_append.mp mem
    · -- the key of an earlier accepted answer has a record, so it is another one
      have known := recorded.accepted b mem ok
      rw [update_of_ne, known]
      intro same
      rw [same, new] at known
      cases known
    · rw [mem_singleton.mp mem, update_self]
  case fresh =>
    intro key none
    rw [record] at none
    have other : key ≠ a.key := by grind
    rw [others key other]
    rw [update_of_ne other] at none
    exact recorded.fresh key none
  case once =>
    intro key
    by_cases same : key = a.key
    · have nothing := recorded.fresh key (by rw [same, new])
      unfold creations at nothing ⊢
      rw [filter_append, nothing]
      apply length_filter_le
    · rw [others key same]
      apply recorded.once

theorem Recorded.step {a : Action} (next : step executionID a σ = some τ) :
  Recorded τ
  := by
  cases a with
  | seed call =>
    obtain rfl := some.inj next
    obtain ⟨existing, known⟩ | ⟨new, ⟨err, refused⟩ | ⟨pending, ok⟩⟩ :=
      answer_cases executionID σ.store call
    · obtain ⟨same, kept, id, dup, conflict⟩ :=
        seedExecutionFromEntry_of_known executionID rfl known
      apply recorded.answer (congrArg _ same) rfl
      · simpa using kept
      · rw [forall_mem_singleton]
        intro ok
        rw [known, id]
        by_cases hash : call.req.resultHash = existing.resultHash
        · rw [hash]
        · rw [conflict hash] at ok
          cases ok
    · rw [seedExecutionFromEntry_of_refused rfl new refused]
      apply recorded.answer own_decideSlot.admissions rfl
      · simp
      · cases err <;> simp [seedAdmissionRefusal]
    · obtain ⟨record, -, id, -⟩ := seedExecutionFromEntry_of_new rfl new ok
      apply recorded.create new
      rw [record, id]
  | release id =>
    obtain rfl := some.inj next
    exact recorded.answer releaseInitialMirrorHold_admissions (append_nil _).symm nofun nofun
  | other state =>
    obtain rfl := some.inj next
    exact recorded.answer rfl (append_nil _).symm nofun nofun

end

theorem recorded_run (run : Run (step executionID) (fun _ _ => True) ⟨begin, []⟩ σ) :
  Recorded σ
  := by
  apply run.invariant
  · constructor <;> simp [creations]
  · intro a σ τ recorded _ next
    exact recorded.step next

theorem admissions_eq_none_of_unaccepted {ρ : EntryHistory} {key : String}
    (run : Run (step executionID) (fun _ _ => True) ρ σ)
    (new : ρ.store.admissions key = none)
    (unaccepted : ∀ a ∈ σ.answers, a.key = key → a.response.state ≠ .accepted) :
  σ.store.admissions key = none
  := by
  revert unaccepted
  apply run.invariant (I := fun σ => _ → σ.store.admissions key = none)
  · exact fun _ => new
  · intro a σ τ ih _ next unaccepted
    cases a with
    | seed call =>
      obtain rfl := some.inj next
      have before := ih (fun a mem => unaccepted a (mem_append_left _ mem))
      have answer := unaccepted _ (mem_append_right _ (mem_singleton_self _))
      obtain ⟨existing, known⟩ | ⟨new, ⟨err, refused⟩ | ⟨pending, ok⟩⟩ :=
        answer_cases executionID σ.store call
      · rw [(seedExecutionFromEntry_of_known executionID rfl known).1]
        exact before
      · rw [seedExecutionFromEntry_of_refused rfl new refused, own_decideSlot.admissions]
        exact before
      · obtain ⟨record, -, -, accepted, -⟩ := seedExecutionFromEntry_of_new rfl new ok
        have other : key ≠ call.req.admissionKey := by grind
        rw [record, update_of_ne other]
        exact before
    | release id =>
      obtain rfl := some.inj next
      rw [releaseInitialMirrorHold_admissions]
      exact ih unaccepted
    | other state =>
      obtain rfl := some.inj next
      exact ih unaccepted

end EntryHistory

open Transition EntryHistory EntryState

/-- Entry admission is first-writer-wins.  In every run of calls, from any store and with anything
else that leaves the admissions alone in between: no key has more than one execution, and a call
that creates one creates that of its key and no other; once a call for a key was accepted, every
call for it changes nothing and names the same execution, as a duplicate if it has the same hash and
as a conflict otherwise; and a call that is refused changes at most the limit of a slot, so that as
long as no call for the key is accepted a retry is, as soon as a slot is free. -/
theorem entry_admission_first_writer (executionID : String → String) {begin : EntryState}
    {σ : EntryHistory} (run : Run (step executionID) (fun _ _ => True) ⟨begin, []⟩ σ) :
  (∀ key, (σ.creations key).length ≤ 1) ∧
  (∀ call : EntryCall, (σ.store.seedExecutionFromEntry executionID call).2.2 = true →
    ((σ.store.seedExecutionFromEntry executionID call).1.executions
      (executionID call.req.admissionKey)).isSome ∧
    Apart (executionID call.req.admissionKey) σ.store
      (σ.store.seedExecutionFromEntry executionID call).1) ∧
  (∀ a ∈ σ.answers, a.response.state = .accepted →
    ∀ call : EntryCall, call.req.admissionKey = a.key →
      (σ.store.seedExecutionFromEntry executionID call).1 = σ.store ∧
      (σ.store.seedExecutionFromEntry executionID call).2.2 = false ∧
      (σ.store.seedExecutionFromEntry executionID call).2.1.executionID
        = a.response.executionID ∧
      (call.req.resultHash = a.hash →
        (σ.store.seedExecutionFromEntry executionID call).2.1.state = .accepted ∧
          (σ.store.seedExecutionFromEntry executionID call).2.1.duplicate = true) ∧
      (call.req.resultHash ≠ a.hash →
        (σ.store.seedExecutionFromEntry executionID call).2.1.state = .conflict)) ∧
  (∀ call : EntryCall,
    (σ.store.seedExecutionFromEntry executionID call).2.1.state = .overLimit ∨
      (σ.store.seedExecutionFromEntry executionID call).2.1.state = .queueFull →
    EntryState.LimitsOnly σ.store (σ.store.seedExecutionFromEntry executionID call).1 ∧
    ∀ τ, Run (step executionID) (fun _ _ => True)
        ⟨(σ.store.seedExecutionFromEntry executionID call).1, []⟩ τ →
      (∀ a ∈ τ.answers, a.key = call.req.admissionKey → a.response.state ≠ .accepted) →
      ∀ retry : EntryCall, retry.req.admissionKey = call.req.admissionKey →
        τ.store.SlotFree retry →
        (τ.store.seedExecutionFromEntry executionID retry).2.1.state = .accepted ∧
        (τ.store.seedExecutionFromEntry executionID retry).2.1.duplicate = false ∧
        (τ.store.seedExecutionFromEntry executionID retry).2.2 = true)
  := by
  have recorded := recorded_run run
  refine ⟨recorded.once, ?_, ?_, ?_⟩
  · intro call created
    obtain ⟨existing, known⟩ | ⟨new, ⟨err, refused⟩ | ⟨pending, ok⟩⟩ :=
      answer_cases executionID σ.store call
    · rw [(seedExecutionFromEntry_of_known executionID rfl known).2.1] at created
      cases created
    · rw [seedExecutionFromEntry_of_refused rfl new refused] at created
      cases created
    · exact (seedExecutionFromEntry_of_new rfl new ok).2.2.2.2.2
  · intro a mem accepted call key
    have known := recorded.accepted a mem accepted
    rw [← key] at known
    exact seedExecutionFromEntry_of_known executionID rfl known
  · intro call refused
    obtain ⟨existing, known⟩ | ⟨new, ⟨err, decision⟩ | ⟨pending, ok⟩⟩ :=
      answer_cases executionID σ.store call
    · -- a key with a record is not refused
      obtain ⟨-, -, -, dup, conflict⟩ := seedExecutionFromEntry_of_known executionID rfl known
      grind
    · rw [seedExecutionFromEntry_of_refused rfl new decision]
      refine ⟨decideSlot_refused decision, ?_⟩
      intro τ later unaccepted retry key free
      have none := admissions_eq_none_of_unaccepted later
        (by rw [own_decideSlot.admissions, new]) unaccepted
      rw [← key] at none
      obtain ⟨-, created, -, accepted, fresh, -⟩ := seedExecutionFromEntry_of_new rfl none
        (decideSlot_of_free free)
      exact ⟨accepted, fresh, created⟩
    · obtain ⟨-, -, -, accepted, -⟩ := seedExecutionFromEntry_of_new rfl new ok
      simp [accepted] at refused

/-- A message handed in by a trigger whose workflow runs one execution at a time. -/
def soleMessage (key hash : String) : EntryCall where
  req := {
    admissionKey := key
    resultHash := hash
    entryUnitIdx := 0
    graph := some triggerToSubWorkflow.toTopology
    outcome := .success
    exits := [{ nodeIdx := 0, nodeName := "start", port := "main" }]
    downstream := triggerToSubWorkflow.downstreamArrivals 0 "main" }
  admission := some { workflow := ("ns", "flow"), limit := 1, mode := .reject }

/-- The first message is accepted once, its copy is a duplicate, and another result for it is a
conflict.  A second message is refused, and accepted once it needs no slot. -/
theorem soleMessage_first_writer :
  ∃ σ, exec (step id) [.seed (soleMessage "k" "h"), .seed (soleMessage "k" "h"),
      .seed (soleMessage "k" "other"), .seed (soleMessage "l" "h")] ⟨{}, []⟩ = some σ ∧
    σ.answers.map (·.response.state) = [.accepted, .accepted, .conflict, .overLimit] ∧
    (σ.creations "k").length ≤ 1 ∧
    (σ.store.seedExecutionFromEntry id (soleMessage "k" "h")).1 = σ.store ∧
    EntryState.LimitsOnly σ.store
      (σ.store.seedExecutionFromEntry id (soleMessage "l" "h")).1 ∧
    ((σ.store.seedExecutionFromEntry id (soleMessage "l" "h")).1.seedExecutionFromEntry id
      { soleMessage "l" "h" with admission := none }).2.1.state = .accepted
  := by
  have last : (exec (step id) [.seed (soleMessage "k" "h"), .seed (soleMessage "k" "h"),
      .seed (soleMessage "k" "other"), .seed (soleMessage "l" "h")] ⟨{}, []⟩).map (fun σ =>
        (σ.answers.map (fun a => (a.key, a.hash, a.response.state)),
          (σ.store.seedExecutionFromEntry id (soleMessage "l" "h")).2.1.state))
      = some ([("k", "h", .accepted), ("k", "h", .accepted), ("k", "other", .conflict),
        ("l", "h", .overLimit)], .overLimit) := by
    decide
  obtain ⟨σ, reached, final⟩ := map_eq_some_iff.mp last
  simp only [Prod.mk.injEq] at final
  have run : Run (step id) (fun _ _ => True) ⟨{}, []⟩ σ :=
    Run.of_exec reached
  obtain ⟨once, -, known, refused⟩ := entry_admission_first_writer id run
  obtain ⟨a, mem, answer⟩ : ∃ a ∈ σ.answers, (a.key, a.hash, a.response.state)
      = ("k", "h", AdmissionState.accepted) := by
    rw [← List.mem_map, final.1]
    exact mem_cons_self
  simp only [Prod.mk.injEq] at answer
  obtain ⟨limits, retry⟩ := refused (soleMessage "l" "h") (.inl final.2)
  refine ⟨σ, reached, ?_, once "k", ?_, limits, ?_⟩
  · have states := congrArg (map (fun x => x.2.2)) final.1
    rwa [List.map_map] at states
  · exact (known a mem answer.2.2 (soleMessage "k" "h") answer.1.symm).1
  · apply (retry _ .refl (by simp) { soleMessage "l" "h" with admission := none } rfl _).1
    intro admission asked
    cases asked

/-! ### The hash of a result -/

/-- The entries of a map in the order of their keys, each written as key, mark and value. -/
def writeEntries (mark : String) (entries : List (String × String)) : List String :=
  ((entries.map Prod.fst).insertionSort (· ≤ ·)).map fun k =>
    k ++ mark ++ (entries.lookup k).getD ""

variable (fmt : Int → String)

mutual

/-- `writePlainHashValue`; `fmt` writes a number. -/
def writePlainHashValue : Value → String
  | .null => "<nil>"
  | .bool b => if b then "true" else "false"
  | .num n => fmt n
  | .str s => s
  | .arr vs => "[" ++ " ".intercalate (writeElements vs) ++ "]"
  | .obj fields => "map[" ++ " ".intercalate (writeEntries ":" (writeFields fields)) ++ "]"
  termination_by structural v => v

def writeElements : List Value → List String
  | [] => []
  | v :: vs => writePlainHashValue v :: writeElements vs
  termination_by structural vs => vs

def writeFields : List (String × Value) → List (String × String)
  | [] => []
  | f :: fs => writeField f :: writeFields fs
  termination_by structural fs => fs

def writeField : String × Value → String × String
  | (k, v) => (k, writePlainHashValue v)
  termination_by structural f => f

end

/-- What is written of the data of an exit. -/
def writeData (data : Data) : String :=
  String.join ((writeEntries "=" (writeFields fmt data)).map (· ++ ","))

def writeExit (ex : GroupExitResult) : String :=
  ex.nodeName ++ "/" ++ ex.port ++ "/" ++ writeData fmt ex.data

/-- What `ComputeResultHash` writes to the hash once the exits are sorted. -/
def resultStream (outcome : String) (sorted : List GroupExitResult) : String :=
  outcome ++ String.join (sorted.map (writeExit fmt))

/-- The order of the exits: by node, and by port within a node. -/
def exitLess (a b : GroupExitResult) : Bool :=
  if a.nodeName ≠ b.nodeName then a.nodeName < b.nodeName else a.port < b.port

/-- What `sort.Slice` may make of the exits: it sorts a dozen of them by insertion and promises no
more than an order for others. -/
structure SortsExits (exits sorted : List GroupExitResult) : Prop where
  perm : sorted.Perm exits
  ordered : sorted.Pairwise (fun a b => ¬ exitLess b a)
  few : exits.length ≤ 12 → sorted = exits.insertionSort (fun a b => ¬ exitLess b a)

/-- The stream of a result is fed to the hash. -/
def HashedAs (outcome : String) (exits : List GroupExitResult) (stream : String) : Prop :=
  ∃ sorted, SortsExits exits sorted ∧ stream = resultStream fmt outcome sorted

variable {fmt} {outcome : String}

/-- What the exits are sorted by. -/
def GroupExitResult.key (ex : GroupExitResult) : String ×ₗ String := toLex (ex.nodeName, ex.port)

theorem not_exitLess {a b : GroupExitResult} : ¬ exitLess b a ↔ a.key ≤ b.key
  := by
  rw [← not_lt, not_iff_not, GroupExitResult.key, GroupExitResult.key, Prod.Lex.toLex_lt_toLex]
  unfold exitLess
  split <;> simp_all

/-- Lists that are sorted by a key are written alike if the elements of one key commute. -/
theorem join_of_sorted {α κ : Type} [PartialOrder κ] {key : α → κ} {write : α → String}
    {l l' : List α} (perm : l.Perm l') (sorted : l.Pairwise (key · ≤ key ·))
    (sorted' : l'.Pairwise (key · ≤ key ·))
    (commute : ∀ a ∈ l, ∀ b ∈ l, key a = key b → write a ++ write b = write b ++ write a) :
  String.join (l.map write) = String.join (l'.map write)
  := by
  induction l generalizing l' with
  | nil => rw [perm.nil_eq]
  | cons a l ih =>
    obtain ⟨u, v, rfl⟩ := append_of_mem (perm.mem_iff.mp mem_cons_self)
    have rest : l.Perm (u ++ v) := (perm.trans perm_middle).cons_inv
    -- what stands before the first element has its key
    have before : ∀ x ∈ u, write x ++ write a = write a ++ write x := by
      intro x mem
      have there : x ∈ a :: l := perm.mem_iff.mpr (mem_append_left _ mem)
      have le : key x ≤ key a := (pairwise_append.mp sorted').2.2 x mem a mem_cons_self
      rcases mem_cons.mp there with rfl | after
      · rfl
      · exact commute x there a mem_cons_self
          (le_antisymm le ((pairwise_cons.mp sorted).1 x after))
    have through : String.join (u.map write) ++ write a = write a ++ String.join (u.map write) := by
      clear * - before
      induction u with
      | nil => simp
      | cons x u ih =>
        rw [map_cons, String.join_cons, String.append_assoc, ih fun y mem => before y (.tail _ mem),
          ← String.append_assoc, before x mem_cons_self, String.append_assoc]
    rw [map_cons, String.join_cons, ih rest (pairwise_cons.mp sorted).2
      (sorted'.sublist (by simp)) fun a mem b mem' => commute a (.tail _ mem) b (.tail _ mem')]
    simp only [map_append, map_cons, String.join_append, String.join_cons, ← String.append_assoc,
      through]

theorem sortsExits_insertionSort (exits : List GroupExitResult) :
  SortsExits exits (exits.insertionSort fun a b => ¬ exitLess b a)
  := by
  have total : Std.Total (fun a b : GroupExitResult => ¬ exitLess b a) :=
    ⟨fun a b => by simp only [not_exitLess]; exact le_total ..⟩
  have trans : IsTrans GroupExitResult (fun a b => ¬ exitLess b a) :=
    ⟨fun a b c => by simp only [not_exitLess]; exact le_trans⟩
  exact ⟨perm_insertionSort .., pairwise_insertionSort .., fun _ => rfl⟩

/-- The sort keeps exits of one node and port in the order in which they come. -/
theorem insertionSort_pair {a b : GroupExitResult} (node : a.nodeName = b.nodeName)
    (port : a.port = b.port) {rest : List GroupExitResult} :
  (a :: b :: rest).insertionSort (fun a b => ¬ exitLess b a)
    = (rest.insertionSort fun a b => ¬ exitLess b a).takeWhile (exitLess · b) ++
      a :: b :: (rest.insertionSort fun a b => ¬ exitLess b a).dropWhile (exitLess · b)
  := by
  have same (x : GroupExitResult) : exitLess x a = exitLess x b := by
    simp only [exitLess, node, port]
  have last : exitLess b b = false := by simp [exitLess]
  rw [insertionSort_cons_eq_take_drop, insertionSort_cons_eq_take_drop]
  simp only [not_not, same, Bool.decide_eq_true]
  rw [takeWhile_append_of_pos, dropWhile_append_of_pos]
  · simp [last]
  all_goals exact fun x mem => all_eq_true.mp all_takeWhile x mem

/-- A result is hashed alike in every order of its exits, and the store takes it for a duplicate,
exactly if the order in which exits of one node and port are written makes no difference. -/
theorem reordered_is_duplicate (hash executionID : String → String) (exits : List GroupExitResult) :
  (∀ one two, one.Perm exits → two.Perm exits → ∀ stream stream',
    HashedAs fmt outcome one stream → HashedAs fmt outcome two stream' →
    stream = stream' ∧ ∀ (s : EntryState) (call : EntryCall) existing,
      s.admissions call.req.admissionKey = some existing → existing.resultHash = hash stream →
      call.req.resultHash = hash stream' →
      (s.seedExecutionFromEntry executionID call).2.1.state = .accepted ∧
        (s.seedExecutionFromEntry executionID call).2.1.duplicate = true) ↔
  ∀ a ∈ exits, ∀ b ∈ exits, a.nodeName = b.nodeName → a.port = b.port →
    writeExit fmt a ++ writeExit fmt b = writeExit fmt b ++ writeExit fmt a
  := by
  constructor
  case mpr =>
    rintro commute one two perm perm' _ _ ⟨sorted, ⟨order, ordered, -⟩, rfl⟩
      ⟨sorted', ⟨order', ordered', -⟩, rfl⟩
    simp only [not_exitLess] at ordered ordered'
    have same : resultStream fmt outcome sorted = resultStream fmt outcome sorted' := by
      refine congrArg (outcome ++ ·) (join_of_sorted
        (order.trans (perm.trans (perm'.symm.trans order'.symm))) ordered ordered' ?_)
      intro a mem b mem' key
      obtain ⟨node, port⟩ := Prod.mk.inj (toLex.injective key)
      exact commute a ((order.trans perm).mem_iff.mp mem) b ((order.trans perm).mem_iff.mp mem')
        node port
    refine ⟨same, fun s call existing known first again => ?_⟩
    apply (EntryState.seedExecutionFromEntry_of_known executionID rfl known).2.2.2.1
    rw [again, first, same]
  case mp =>
    intro alike a mem b mem' node port
    by_cases eq : b = a
    · rw [eq]
    -- the two exits are handed in before the others, in either order
    obtain ⟨rest, perm⟩ : ∃ rest, (a :: b :: rest).Perm exits := by
      obtain ⟨u, v, rfl⟩ := append_of_mem mem
      obtain ⟨u', v', there⟩ := append_of_mem (show b ∈ u ++ v by grind)
      refine ⟨u' ++ v', .trans (.cons a ?_) perm_middle.symm⟩
      rw [there]
      exact perm_middle.symm
    have same := (alike _ _ perm ((Perm.swap ..).trans perm) _ _
      ⟨_, sortsExits_insertionSort (a :: b :: rest), rfl⟩
      ⟨_, sortsExits_insertionSort (b :: a :: rest), rfl⟩).1
    rw [insertionSort_pair node port, insertionSort_pair node.symm port.symm] at same
    have first : (exitLess · a) = (exitLess · b) := by
      funext x
      simp only [exitLess, node, port]
    simp only [resultStream, first, map_append, map_cons, String.join_append, String.join_cons,
      ← String.append_assoc, String.append_left_inj] at same
    simpa only [String.append_assoc, String.append_right_inj] using same

namespace ResultHash.Sample

/-- An exit with one datum. -/
def exit (port value : String) : GroupExitResult where
  nodeIdx := 0
  nodeName := "body"
  port := port
  data := [("r", .str value)]

end ResultHash.Sample

open ResultHash.Sample

/-- Two ports of a node. -/
theorem ports_reordered :
  ∃ stream stream', HashedAs toString "success" [exit "a" "1", exit "b" "2"] stream ∧
    HashedAs toString "success" [exit "b" "2", exit "a" "1"] stream' ∧ stream = stream'
  := by
  have one : HashedAs toString "success" [exit "a" "1", exit "b" "2"] _ :=
    ⟨_, ⟨.rfl, by decide, fun _ => rfl⟩, rfl⟩
  have two : HashedAs toString "success" [exit "b" "2", exit "a" "1"] _ :=
    ⟨_, ⟨.swap .., by decide, fun _ => rfl⟩, rfl⟩
  refine ⟨_, _, one, two, ((reordered_is_duplicate id id [exit "a" "1", exit "b" "2"]).mpr ?_
    _ _ .rfl (.swap ..) _ _ one two).1⟩
  simp [exit]

/-- Two exits of one port are hashed in the order in which they are listed. -/
theorem one_port_conflicts :
  ∃ exits exits' : List GroupExitResult, exits.Perm exits' ∧ ∃ stream stream',
    HashedAs toString "success" exits stream ∧ HashedAs toString "success" exits' stream' ∧
    stream ≠ stream'
  := ⟨[exit "a" "1", exit "a" "2"], [exit "a" "2", exit "a" "1"], .swap .., _, _,
    ⟨_, ⟨.rfl, by decide, fun _ => rfl⟩, rfl⟩, ⟨_, ⟨.rfl, by decide, fun _ => rfl⟩, rfl⟩, by decide⟩

end Xflow
