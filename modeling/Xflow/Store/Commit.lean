import Xflow.Store.Arrivals

/-!
# Committing a node

`commitNodeLocked` is the terminal transition of a node: it is fenced by the node's row, the marker
of its unit and the status of the execution, and writes the row, the completion counters, the
status and the follow-up intents in one step.  An execution without cycles completes when its
counter of remaining units reaches zero and schedules through arrivals; one with cycles carries the
intents that follow, or the final status, in the request.
-/

namespace Xflow

/-- A request to commit a node. -/
structure CommitNodeRequest where
  nodeName : String
  nodeIdx : Int
  unitIdx : Int
  activationID : Int := 0
  autoDepth : Int := 0
  leaseID : String := ""
  leaseToken : String := ""
  attempt : Int := 0
  status : NodeStatus
  output : Option Data := none
  storeOutput : Bool := false
  reclaimOutputNames : List String := []
  privateOutput : Bool := false
  port : String := ""
  error : String := ""
  errorDetails : Data := []
  system : Bool := false
  fatal : Bool := false
  advanceTask : Option Task := none
  mergeCancel : Option Task := none
  arrivals : List DownstreamArrival := []
  allowCycles : Bool := false
  cyclicOutbox : List OutboxEntry := []
  cyclicComplete : Bool := false
  cyclicFinalStatus : ExecutionStatus := .pending
  cyclicFinalError : String := ""

namespace CommitNodeRequest

/-- A successful commit of a leased node of a graph without cycles that goes on. -/
def isPlainSuccess (r : CommitNodeRequest) : Bool :=
  !r.allowCycles && !r.fatal && !r.system && r.status = .success

/-- `Validate`: the error of a request whose graph type contradicts its payload. -/
def validate (id : String) (r : CommitNodeRequest) : Option String :=
  let commit := "commit " ++ id ++ "/" ++ r.nodeName ++ ": "
  if r.arrivals ≠ [] ∧ r.allowCycles then
    some (commit ++ "Arrivals is acyclic downstream scheduling; " ++
      "cyclic downstream travels in CyclicOutbox")
  else if r.arrivals ≠ [] ∧ r.fatal then
    some (commit ++ "Arrivals cannot be folded into a Fatal commit; a " ++
      "fatal commit finalizes the execution before downstream work can be scheduled")
  else if r.arrivals ≠ [] ∧ r.advanceTask ≠ none then
    some (commit ++ "Arrivals and AdvanceTask are alternative acyclic " ++
      "scheduling paths; setting both would count the same arrival twice")
  else if r.mergeCancel ≠ none ∧ r.advanceTask ≠ none then
    some (commit ++ "MergeCancel and AdvanceTask are alternative uses of the " ++
      "commit's single advance intent slot; setting both would drop one")
  else if r.mergeCancel ≠ none ∧ ¬ r.isPlainSuccess then
    some (commit ++
      "MergeCancel is only valid for a non-system, non-fatal successful acyclic commit")
  else if r.reclaimOutputNames ≠ [] ∧ ¬ r.isPlainSuccess then
    some (commit ++
      "ReclaimOutputNames is only valid for a non-system, non-fatal successful acyclic commit")
  else if r.allowCycles then
    if r.fatal then
      some (commit ++ "Fatal is the acyclic finalization signal and is " ++
        "meaningless on a cyclic graph; use CyclicComplete")
    else if r.advanceTask ≠ none then
      some (commit ++ "AdvanceTask is acyclic downstream scheduling; " ++
        "cyclic downstream travels in CyclicOutbox")
    else none
  else if r.cyclicOutbox ≠ [] then
    some (commit ++ "CyclicOutbox set on an acyclic commit; the backend " ++
      "would drop these delivery intents")
  else if r.cyclicComplete then
    some (commit ++ "CyclicComplete set on an acyclic commit; acyclic " ++
      "finalization is driven by the remaining-unit counter")
  else none

end CommitNodeRequest

/-- The answer to a commit. -/
structure CommitNodeResult where
  outcome : CommitOutcome
  applied : Bool := false
  executionDone : Bool := false
  executionStatus : Option ExecutionStatus := none
  outboxIDs : List String := []
  skipped : List SkippedUnit := []

namespace MemoryState

/-! ### The fence -/

/-- `cancelFenceAdmitsLocked`: whether a branch retired by a merge may be canceled. -/
def cancelFenceAdmits (s : MemoryState) (req : CommitNodeRequest) : Bool :=
  let marker := s.scheduled req.unitIdx
  match (s.nodes req.nodeName).map NodeSnapshot.status with
  | some .suspended | some .running | some .committing => marker ≠ .skip
  | some .pending | none => marker = .execute
  | some _ => false

/-- Whether a pinned, disabled or skipped node may be committed without a lease. -/
def systemFenceAdmits (s : MemoryState) (req : CommitNodeRequest) : Bool :=
  let skipMarked := s.scheduled req.unitIdx = .skip
  let pinned := req.status = .pinned
  let skipped := req.status = .skipped
  ¬ ((pinned ∧ skipMarked) ∨ (¬ pinned ∧ ¬ skipped ∧ ¬ skipMarked)) ∧
    (s.nodes req.nodeName).all (fun row => row.status = .pending)

/-- Whether the request comes from the holder of the node's lease. -/
def leaseFenceAdmits (s : MemoryState) (req : CommitNodeRequest) : Bool :=
  (s.nodes req.nodeName).any (fun row =>
    (row.status = .running ∨ row.status = .committing ∨ row.status = .waiting) ∧
      row.leaseID = req.leaseID ∧ row.leaseToken = req.leaseToken ∧ row.attempt = req.attempt ∧
      row.activationID = req.activationID)

/-- Whether a terminal row was written by this very request. -/
def isDuplicateOf (row : NodeSnapshot) (req : CommitNodeRequest) : Bool :=
  row.activationID = req.activationID ∧
    ((¬ req.system ∧ row.committedLeaseToken = req.leaseToken ∧ req.leaseToken ≠ "") ∨
      (req.system ∧ row.status = req.status))

/-- How the fence of `commitNodeLocked` answers. -/
def commitVerdict (s : MemoryState) (req : CommitNodeRequest) : CommitOutcome :=
  match s.execution with
  | none => .executionInactive
  | some snap =>
    let current := s.nodes req.nodeName
    if current.any (·.status.isTerminal) then
      if current.any (fun row => isDuplicateOf row req) then .duplicateTerminal else .staleToken
    else if snap.status.isTerminal then .executionInactive
    else
      let admitted :=
        if req.system ∧ req.status = .canceled then s.cancelFenceAdmits req
        else if req.system then s.systemFenceAdmits req
        else s.leaseFenceAdmits req
      if admitted then .accepted else .staleToken

/-! ### The row -/

/-- The row that a commit leaves. -/
def committedRow (current : Option NodeSnapshot) (privateOutput : Bool) (req : CommitNodeRequest) :
    NodeSnapshot where
  nodeIdx := req.nodeIdx
  status := req.status
  attempt := if req.system then (current.map (·.attempt)).getD req.attempt else req.attempt
  activationID := req.activationID
  autoDepth := if req.system then (current.map (·.autoDepth)).getD req.autoDepth else req.autoDepth
  privateOutput := privateOutput
  port := req.port
  error := req.error
  errorDetails := req.errorDetails
  committedLeaseToken := req.leaseToken
  committedAttempt := req.attempt
  output := if privateOutput then none else req.output
  childExecutionID := (current.map (·.childExecutionID)).getD ""

/-- Write the row and the outputs. -/
def writeNode (s : MemoryState) (req : CommitNodeRequest) : MemoryState :=
  let current := s.nodes req.nodeName
  let (s, privateOutput) := s.preserveOutputPrivacy req.nodeName req.privateOutput
  let outputs :=
    if req.storeOutput then Function.update s.outputs req.nodeName req.output else s.outputs
  { s with
    nodes := Function.update s.nodes req.nodeName (some (committedRow current privateOutput req))
    outputs := fun name => if name ∈ req.reclaimOutputNames then none else outputs name }

/-! ### Completion -/

/-- Take one unit off the counter of remaining units, and count it if it failed. -/
@[simps -fullyApplied]
def countUnit (s : MemoryState) (unitFailed : Bool) : MemoryState :=
  { s with
    remaining := s.remaining - 1
    failed := if unitFailed then s.failed + 1 else s.failed }

/-- Count a unit and finish the execution when it was the last one or the commit is fatal; reports
the final status.  Nodes and groups complete alike. -/
def settleUnit (s : MemoryState) (unitFailed fatal : Bool) (error : String) :
    MemoryState × Option ExecutionStatus :=
  let s := s.countUnit unitFailed
  if fatal ∨ s.remaining = 0 then
    let status : ExecutionStatus := if fatal ∨ 0 < s.failed then .failed else .success
    (s.finishExecution status (terminalExecutionError status error ""), some status)
  else (s, none)

/-! ### Scheduling -/

/-- Store an intent that may be absent; reports its identifier if it was stored. -/
def putIntent (s : MemoryState) : Option OutboxEntry → MemoryState × List String
  | none => (s, [])
  | some e =>
    let (s, written) := s.putOutboxEntry e
    (s, if written then [e.id] else [])

/-- Store the intents of a cyclic commit. -/
def putIntents : List OutboxEntry → MemoryState → MemoryState × List String
  | [], s => (s, [])
  | e :: entries, s =>
    let (s, ids) := s.putIntent (some e)
    let (s, ids') := putIntents entries s
    (s, ids ++ ids')

/-- `arrivalCandidateOutboxIDs`: the two intents each arrival may resolve to. -/
def arrivalCandidateOutboxIDs (id : String) (activationID : Int)
    (arrivals : List DownstreamArrival) : List String :=
  arrivals.flatMap (fun a =>
    [executeOutboxID id a.nodeName activationID, skipOutboxID id a.nodeName activationID])

/-- The part of a cyclic commit: store the intents that follow, or finish with the final status. -/
def scheduleCyclic (s : MemoryState) (req : CommitNodeRequest) :
    MemoryState × List String × Option ExecutionStatus :=
  if req.cyclicOutbox ≠ [] then
    let (s, ids) := putIntents req.cyclicOutbox s
    (s, ids, none)
  else if req.cyclicComplete then
    (s.finishExecution req.cyclicFinalStatus
      (terminalExecutionError req.cyclicFinalStatus req.error req.cyclicFinalError),
      [], some req.cyclicFinalStatus)
  else (s, [], none)

/-- Schedule what follows a commit that neither is fatal nor completed the execution.  The advance
intent is written also while the execution is being canceled. -/
def followUp (s : MemoryState) (req : CommitNodeRequest) : MemoryState × CommitNodeResult :=
  let canceling := s.status? = some .canceling
  let (s, advanceIDs) := s.putIntent (req.advanceTask.map
    (⟨advanceOutboxID s.id req.nodeName req.activationID, ·, .now⟩))
  let (s, mergeIDs) :=
    if canceling then (s, [])
    else s.putIntent (req.mergeCancel.map
      (⟨mergeCancelOutboxID s.id req.nodeName req.activationID, ·, .now⟩))
  let (s, _, skipped) :=
    if req.allowCycles ∨ canceling then (s, [], [])
    else applyArrivals req.activationID req.autoDepth req.arrivals s
  let candidates := arrivalCandidateOutboxIDs s.id req.activationID req.arrivals
  let (s, cyclicIDs, done) := if req.allowCycles then s.scheduleCyclic req else (s, [], none)
  (s, {
    outcome := .accepted
    applied := true
    executionDone := done.isSome
    executionStatus := done
    outboxIDs := advanceIDs ++ mergeIDs ++ candidates ++ cyclicIDs
    skipped := skipped })

/-! ### The transition -/

def commitNodeLocked (s : MemoryState) (req : CommitNodeRequest) :
    MemoryState × CommitNodeResult :=
  match s.commitVerdict req with
  | .accepted =>
    let s := s.writeNode req
    let (s, done) :=
      if req.allowCycles then (s, none)
      else s.settleUnit (req.status = .failed) req.fatal req.error
    if req.fatal ∨ done.isSome then
      (s, {
        outcome := .accepted
        applied := true
        executionDone := done.isSome
        executionStatus := done })
    else s.followUp req
  | outcome => (s, { outcome := outcome })

/-- `CommitNode`: validate the request, then commit. -/
def commitNode (s : MemoryState) (req : CommitNodeRequest) :
    Except String (MemoryState × CommitNodeResult) :=
  match req.validate s.id with
  | some err => .error err
  | none => .ok (s.commitNodeLocked req)

/-! ### What the parts of a commit leave alone -/

variable {s : MemoryState} {req : CommitNodeRequest}

theorem writeNode_eq :
  s.writeNode req =
    let kept := (s.preserveOutputPrivacy req.nodeName req.privateOutput).1
    { kept with
      nodes := Function.update kept.nodes req.nodeName
        (some (committedRow (s.nodes req.nodeName)
          (s.preserveOutputPrivacy req.nodeName req.privateOutput).2 req))
      outputs := fun name =>
        if name ∈ req.reclaimOutputNames then none
        else (if req.storeOutput then Function.update kept.outputs req.nodeName req.output
          else kept.outputs) name }
  := by
  rfl

theorem writeNode_frame :
  s.writeNode req =
    { s with
      nodes := (s.writeNode req).nodes
      outputs := (s.writeNode req).outputs
      privateOutputs := (s.writeNode req).privateOutputs }
  := by
  rw [writeNode_eq, preserveOutputPrivacy_frame]

theorem writeNode_nodes_self :
  (s.writeNode req).nodes req.nodeName =
    some (committedRow (s.nodes req.nodeName)
      (req.privateOutput || s.outputIsPrivate req.nodeName) req)
  := by
  rw [writeNode_eq]
  simp [preserveOutputPrivacy_snd]

theorem writeNode_nodes_of_ne {name : String} (h : name ≠ req.nodeName) :
  (s.writeNode req).nodes name = s.nodes name
  := by
  rw [writeNode_eq]
  simp [h, preserveOutputPrivacy_nodes_of_ne]

@[simp]
theorem writeNode_fields :
  (s.writeNode req).id = s.id ∧ (s.writeNode req).execution = s.execution ∧
    (s.writeNode req).inDegrees = s.inDegrees ∧ (s.writeNode req).activeIns = s.activeIns ∧
    (s.writeNode req).remaining = s.remaining ∧ (s.writeNode req).failed = s.failed ∧
    (s.writeNode req).scheduled = s.scheduled ∧ (s.writeNode req).outbox = s.outbox ∧
    (s.writeNode req).groupUnits = s.groupUnits ∧ (s.writeNode req).slot = s.slot
  := by
  rw [writeNode_frame]
  simp

/-! ### What the parts of a commit do -/

theorem putIntent_fst {e : Option OutboxEntry} :
  (s.putIntent e).1 = { s with outbox := e.elim s.outbox (putEntry s.outbox) }
  := by
  cases e <;> rfl

theorem putIntents_fst {entries : List OutboxEntry} :
  (putIntents entries s).1 = { s with outbox := entries.foldl putEntry s.outbox }
  := by
  induction entries generalizing s with
  | nil => rfl
  | cons e entries ih =>
    change (putIntents entries (s.putIntent (some e)).1).1 = _
    rw [ih]
    rfl

theorem commitNodeLocked_of_refused (h : s.commitVerdict req ≠ .accepted) :
  s.commitNodeLocked req = (s, { outcome := s.commitVerdict req })
  := by
  unfold commitNodeLocked
  split
  · contradiction
  · rfl

section

variable {unitFailed fatal : Bool} {error : String}

theorem settleUnit_isSome :
  (s.settleUnit unitFailed fatal error).2.isSome ↔ fatal ∨ s.remaining = 1
  := by
  have hlast : s.remaining - 1 = 0 ↔ s.remaining = 1 := by omega
  simp only [settleUnit]
  split <;> simp_all

theorem settleUnit_of_open (hfatal : fatal = false) (hlast : s.remaining ≠ 1) :
  (s.settleUnit unitFailed fatal error).1 = s.countUnit unitFailed
  := by
  have hne : s.remaining - 1 ≠ 0 := by omega
  simp [settleUnit, hfatal, hne]

/-- The status an execution is finished with. -/
def finalStatus (s : MemoryState) (unitFailed fatal : Bool) : ExecutionStatus :=
  if fatal ∨ 0 < (s.countUnit unitFailed).failed then .failed else .success

theorem settleUnit_of_done (h : fatal ∨ s.remaining = 1) :
  s.settleUnit unitFailed fatal error =
    ((s.countUnit unitFailed).finishExecution (s.finalStatus unitFailed fatal)
        (terminalExecutionError (s.finalStatus unitFailed fatal) error ""),
      some (s.finalStatus unitFailed fatal))
  := by
  have hlast : s.remaining - 1 = 0 ↔ s.remaining = 1 := by omega
  simp only [settleUnit, countUnit_remaining, hlast, h]
  rfl

end

theorem commitNodeLocked_of_accepted (h : s.commitVerdict req = .accepted)
    (hacyc : req.allowCycles = false) :
  (s.commitNodeLocked req).1 =
    let t := ((s.writeNode req).settleUnit (req.status = .failed) req.fatal req.error).1
    if req.fatal ∨ s.remaining = 1 then t else (t.followUp req).1
  := by
  have hdone : ((s.writeNode req).settleUnit (req.status = .failed) req.fatal
      req.error).2.isSome ↔ _ := settleUnit_isSome
  simp only [commitNodeLocked, h, hacyc, Bool.false_eq_true, if_false, hdone]
  by_cases hlast : s.remaining = 1
  · simp [hlast]
  · cases hfatal : req.fatal <;> simp [hlast]

theorem followUp_acyclic (hacyc : req.allowCycles = false) :
  (s.followUp req).1 =
    let t := (s.putIntent (req.advanceTask.map
      (⟨advanceOutboxID s.id req.nodeName req.activationID, ·, .now⟩))).1
    if s.status? = some .canceling then t
    else (applyArrivals req.activationID req.autoDepth req.arrivals
      (t.putIntent (req.mergeCancel.map
        (⟨mergeCancelOutboxID s.id req.nodeName req.activationID, ·, .now⟩))).1).1
  := by
  have hid (e : Option OutboxEntry) : (s.putIntent e).1.id = s.id := by
    rw [putIntent_fst]
  by_cases hcanceling : s.status? = some .canceling
  · simp [followUp, hacyc, hcanceling]
  · simp [followUp, hacyc, hcanceling, hid]

/-- What the parts of an accepted commit keep, the commit keeps. -/
theorem commitNodeLocked_induction {P : MemoryState → Prop}
    (accepted : s.commitVerdict req = .accepted) (write : P (s.writeNode req))
    (count : ∀ s failed, P s → P (s.countUnit failed))
    (finish : ∀ s status errMsg, P s → P (s.finishExecution status errMsg))
    (put : ∀ s e, P s → P (s.putOutboxEntry e).1)
    (arrive : ∀ s, P s → P (applyArrivals req.activationID req.autoDepth req.arrivals s).1) :
  P (s.commitNodeLocked req).1
  := by
  have settle : P ((s.writeNode req).settleUnit (req.status = .failed) req.fatal req.error).1 := by
    unfold settleUnit
    dsimp only
    split
    · exact finish _ _ _ (count _ _ write)
    · exact count _ _ write
  have intent (e : Option OutboxEntry) (s : MemoryState) (h : P s) : P (s.putIntent e).1 := by
    cases e with
    | none => exact h
    | some e => exact put s e h
  have intents (entries : List OutboxEntry) (s : MemoryState) (h : P s) :
      P (putIntents entries s).1 := by
    induction entries generalizing s with
    | nil => exact h
    | cons e entries ih => exact ih _ (put s e h)
  have cyclic (s : MemoryState) (h : P s) : P (s.scheduleCyclic req).1 := by
    unfold scheduleCyclic
    split
    · exact intents _ s h
    · split
      · exact finish s _ _ h
      · exact h
  have follow (s : MemoryState) (h : P s) : P (s.followUp req).1 := by
    unfold followUp
    dsimp only
    repeat' split
    all_goals grind
  simp only [commitNodeLocked]
  repeat' split
  all_goals grind

end MemoryState

end Xflow
