import Xflow.Lib.Run
import Xflow.Store.Lifecycle

/-!
# The status machine of an execution

The status of an execution is written by status updates, by pausing, resuming and leaving the
queue, and by the commits that complete the execution.  A status that is over never changes.  A
commit that completes an execution does not ask whether the execution is being canceled, so that
canceling gives way to canceled only as long as no such commit is accepted meanwhile
(`canceling_one_way`).
-/

namespace Xflow

namespace MemoryState

open Transition

/-! ### Calls -/

/-- The calls of the local store on one execution. -/
inductive Call where
  | updateExecutionStatus (status : ExecutionStatus) (errMsg : String)
  | commitNode (req : CommitNodeRequest)
  | advanceNode (req : AdvanceNodeRequest)
  | commitGroup (req : GroupCommitRequest)
  | acquireTaskLease (lease : TaskLease) (allowCycles : Bool)
  | acquireGroupLease (unitIdx : Int) (leaseID leaseToken : String) (attempt : Int)
  | pauseExecution
  | resumeExecution
  | promote
  | expireQueued (now : Nat)

/-- The state after a call; a call that fails leaves it as it was. -/
def call : Call → MemoryState → MemoryState
  | .updateExecutionStatus status errMsg, s => (s.updateExecutionStatus status errMsg).1
  | .commitNode req, s =>
    match s.commitNode req with
    | .ok (t, _) => t
    | .error _ => s
  | .advanceNode req, s => (s.advanceNode req).1
  | .commitGroup req, s => (s.commitGroupLocked req).1
  | .acquireTaskLease lease allowCycles, s => (s.acquireTaskLeaseChecked lease allowCycles).1
  | .acquireGroupLease unitIdx leaseID leaseToken attempt, s =>
    (s.acquireGroupLease unitIdx leaseID leaseToken attempt).1
  | .pauseExecution, s =>
    match s.pauseExecution with
    | .ok t => t
    | .error _ => s
  | .resumeExecution, s =>
    match s.resumeExecution with
    | .ok t => t
    | .error _ => s
  | .promote, s => s.promote
  | .expireQueued now, s => s.expireQueued now

variable {req : CommitNodeRequest}

theorem call_commitNode {s : MemoryState} :
  call (.commitNode req) s =
    if req.validate s.id = none then (s.commitNodeLocked req).1 else s
  := by
  simp only [call, commitNode]
  cases req.validate s.id <;> rfl

/-- The call is a commit that is admitted and completes the execution. -/
def completes (s : MemoryState) : Call → Bool
  | .commitNode req =>
    s.commitVerdict req = .accepted ∧
      if req.allowCycles then req.cyclicOutbox = [] ∧ req.cyclicComplete
      else req.fatal ∨ s.remaining = 1
  | .commitGroup req => s.groupVerdict req = .accepted ∧ (req.fatal ∨ s.remaining = 1)
  | _ => false

/-! ### Calls that do not touch the status -/

variable {s : MemoryState}

@[simp]
theorem putIntent_execution {e : Option OutboxEntry} :
  (s.putIntent e).1.execution = s.execution
  := by
  rw [putIntent_fst]

theorem followUp_execution (h : ¬ (req.allowCycles ∧ req.cyclicOutbox = [] ∧ req.cyclicComplete)) :
  (s.followUp req).1.execution = s.execution
  := by
  cases hcyc : req.allowCycles with
  | false =>
    rw [followUp_acyclic hcyc]
    split <;> simp
  | true =>
    have hcyclic (t : MemoryState) : (t.scheduleCyclic req).1.execution = t.execution := by
      unfold scheduleCyclic
      split
      · rw [putIntents_fst]
      · grind
    by_cases hcanceling : s.status? = some .canceling <;>
      simp [followUp, hcyc, hcanceling, hcyclic]

theorem commitNodeLocked_execution (h : s.completes (.commitNode req) = false) :
  (s.commitNodeLocked req).1.execution = s.execution
  := by
  by_cases haccepted : s.commitVerdict req = .accepted
  · simp only [completes, haccepted, true_and, decide_eq_false_iff_not] at h
    cases hcyc : req.allowCycles with
    | false =>
      simp only [hcyc, Bool.false_eq_true, if_false, not_or] at h
      rw [commitNodeLocked_of_accepted haccepted hcyc]
      simp only [h, Bool.false_eq_true, or_self, if_false]
      rw [followUp_execution (by simp [hcyc]), settleUnit_of_open rfl (by simpa using h.2)]
      simp
    | true =>
      cases hfatal : req.fatal with
      | true => simp [commitNodeLocked, haccepted, hcyc, hfatal]
      | false =>
        simp only [commitNodeLocked, haccepted, hcyc, hfatal, if_true, Option.isSome_none,
          Bool.false_eq_true, or_self, if_false]
        rw [followUp_execution (by simpa [hcyc] using h), writeNode_frame]
  · rw [commitNodeLocked_of_refused haccepted]

variable {req : GroupCommitRequest} {c : Call}

theorem commitGroupLocked_of_refused (h : s.groupVerdict req ≠ .accepted) :
  s.commitGroupLocked req = (s, { outcome := s.groupVerdict req })
  := by
  unfold commitGroupLocked
  split
  · contradiction
  · rfl

theorem commitGroupLocked_of_accepted (h : s.groupVerdict req = .accepted) :
  (s.commitGroupLocked req).1 =
    (applyArrivals 0 0 req.downstream
      (((writeExits req.exits s).finishGroup req).settleUnit (req.outcome = .failed) req.fatal
        req.error).1).1
  := by
  simp [commitGroupLocked, h]

theorem commitGroupLocked_execution (h : s.completes (.commitGroup req) = false) :
  (s.commitGroupLocked req).1.execution = s.execution
  := by
  by_cases haccepted : s.groupVerdict req = .accepted
  · simp only [completes, haccepted, true_and, decide_eq_false_iff_not, not_or,
      Bool.not_eq_true] at h
    rw [commitGroupLocked_of_accepted haccepted, settleUnit_of_open h.1 (by simpa using h.2)]
    simp
  · rw [commitGroupLocked_of_refused haccepted]

@[simp]
theorem advanceNode_execution {req : AdvanceNodeRequest} :
  (s.advanceNode req).1.execution = s.execution
  := by
  unfold advanceNode
  dsimp only
  repeat' split
  all_goals simp

@[simp]
theorem preserveOutputPrivacy_execution {name : String} {requested : Bool} :
  (s.preserveOutputPrivacy name requested).1.execution = s.execution
  := by
  rw [preserveOutputPrivacy_frame]

@[simp]
theorem acquireTaskLeaseChecked_execution {lease : TaskLease} {allowCycles : Bool} :
  (s.acquireTaskLeaseChecked lease allowCycles).1.execution = s.execution
  := by
  rcases @acquireTaskLeaseChecked_or s lease allowCycles with heq | ⟨-, -, -, heq⟩
  · rw [heq]
  · simp [heq]

@[simp]
theorem acquireGroupLease_execution {unitIdx attempt : Int} {leaseID leaseToken : String} :
  (s.acquireGroupLease unitIdx leaseID leaseToken attempt).1.execution = s.execution
  := by
  unfold acquireGroupLease
  dsimp only
  split <;> rfl

/-! ### Writing the status -/

theorem releaseWorkflowSlot_execution :
  s.releaseWorkflowSlot.execution = s.execution
  := by
  unfold releaseWorkflowSlot
  split <;> rfl

/-- The status is kept, or one that is not over gives way to another, canceling to canceled only. -/
def StatusMoves (s t : MemoryState) : Prop :=
  t.status? = s.status? ∨
    ∃ old new, s.status? = some old ∧ old.isTerminal = false ∧
      (old = .canceling → new = .canceled) ∧ t.status? = some new

theorem StatusMoves.of_execution {t : MemoryState} (h : t.execution = s.execution) :
  StatusMoves s t
  := by
  left
  rw [status?, h, status?]

theorem StatusMoves.write {t : MemoryState} {snap : ExecutionSnapshot} {new : ExecutionStatus}
    (hexec : s.execution = some snap) (hopen : snap.status.isTerminal = false)
    (hnew : snap.status = .canceling → new = .canceled) (h : t.status? = some new) :
  StatusMoves s t
  := by
  right
  exact ⟨snap.status, new, by simp [status?, hexec], hopen, hnew, h⟩

theorem updateExecutionStatus_moves (status : ExecutionStatus) (errMsg : String) :
  StatusMoves s (s.updateExecutionStatus status errMsg).1
  := by
  fun_cases s.updateExecutionStatus status errMsg with
  | case4 snap hexec hover hcanceling =>
    apply StatusMoves.write hexec (by simpa using hover) (by tauto : _ → status = _)
    split
    · rw [status?, releaseWorkflowSlot_execution]
      rfl
    · rfl
  | _ => exact .inl rfl

theorem pauseExecution_moves :
  StatusMoves s (call .pauseExecution s)
  := by
  rw [call]
  fun_cases pauseExecution s with
  | case3 snap hexec _ hrunning =>
    exact .write hexec (by rw [hrunning]; rfl) (by simp [hrunning]) rfl
  | _ => exact .inl rfl

theorem resumeExecution_moves :
  StatusMoves s (call .resumeExecution s)
  := by
  rw [call]
  fun_cases resumeExecution s with
  | case2 snap hexec hpaused =>
    exact .write hexec (by rw [hpaused]; rfl) (by simp [hpaused]) rfl
  | _ => exact .inl rfl

attribute [local simp] completePromotion

theorem completePromotion_moves :
  StatusMoves s s.completePromotion
  := by
  cases hexec : s.execution with
  | none =>
    left
    simp [status?, hexec]
  | some snap =>
    by_cases hqueued : snap.status = .queued
    · have hruns : s.completePromotion.status? = some .running := by simp [status?, hexec, hqueued]
      exact .write hexec (by rw [hqueued]; rfl) (by simp [hqueued]) hruns
    · left
      simp [status?, hexec, hqueued]

theorem call_status? (h : s.completes c = false) :
  StatusMoves s (call c s)
  := by
  cases c with
  | updateExecutionStatus status errMsg => apply updateExecutionStatus_moves
  | commitNode req =>
    apply StatusMoves.of_execution
    rw [call_commitNode]
    split
    · apply commitNodeLocked_execution h
    · rfl
  | advanceNode req => apply StatusMoves.of_execution advanceNode_execution
  | commitGroup req => apply StatusMoves.of_execution (commitGroupLocked_execution h)
  | acquireTaskLease lease allowCycles =>
    apply StatusMoves.of_execution acquireTaskLeaseChecked_execution
  | acquireGroupLease unitIdx leaseID leaseToken attempt =>
    apply StatusMoves.of_execution acquireGroupLease_execution
  | pauseExecution => apply pauseExecution_moves
  | resumeExecution => apply resumeExecution_moves
  | promote =>
    rw [call]
    fun_cases promote s with
    | case1 => apply completePromotion_moves
    | case2 => exact .inl rfl
  | expireQueued now =>
    rw [call]
    fun_cases s.expireQueued now with
    | case1 => apply updateExecutionStatus_moves
    | _ => exact .inl rfl

theorem completes_of_isOver (h : s.isOver) :
  s.completes c = false
  := by
  cases c with
  | commitNode req =>
    have hrefused : s.commitVerdict req ≠ .accepted := by
      fun_cases s.commitVerdict req <;> simp_all [isOver, status?]
    simp [completes, hrefused]
  | commitGroup req =>
    have hrefused : s.groupVerdict req ≠ .accepted := by
      fun_cases s.groupVerdict req <;> simp_all [isOver, status?]
    simp [completes, hrefused]
  | _ => rfl

/-! ### The two one-way rules -/

/-- The steps of the status machine. -/
def callStep (c : Call) (s : MemoryState) : Option MemoryState := some (call c s)

/-- The call does not complete an execution that is being canceled. -/
def SparesCanceling (c : Call) (s : MemoryState) : Prop :=
  s.status? = some .canceling → s.completes c = false

theorem call_isOver (h : s.isOver) :
  (call c s).status? = s.status?
  := by
  rcases call_status? (completes_of_isOver h) with hkeep | ⟨old, new, hold, hopen, -, -⟩
  · apply hkeep
  · simp [isOver, hold, hopen] at h

theorem call_canceling (hspare : SparesCanceling c s)
    (h : s.status? = some .canceling ∨ s.status? = some .canceled) :
  (call c s).status? = some .canceling ∨ (call c s).status? = some .canceled
  := by
  rcases h with hcanceling | hcanceled
  · rcases call_status? (hspare hcanceling) with hkeep | ⟨old, new, hold, -, hnew, hafter⟩
    · left
      rw [hkeep, hcanceling]
    · right
      rw [hcanceling, Option.some.injEq] at hold
      rw [hafter, hnew hold.symm]
  · right
    rw [call_isOver (by simp [isOver, hcanceled, ExecutionStatus.isTerminal]), hcanceled]

end MemoryState

open Transition in
/-- A status that is over never changes again.  In a run in which no commit completes an execution
that is being canceled, canceling gives way to canceled only. -/
theorem execution_status_one_way {s t : MemoryState} :
  (Run MemoryState.callStep (fun _ _ => True) s t → s.isOver → t.status? = s.status?) ∧
    (Run MemoryState.callStep MemoryState.SparesCanceling s t → s.status? = some .canceling →
      t.status? = some .canceling ∨ t.status? = some .canceled)
  := by
  constructor
  · intro run hover
    have hboth : t.status? = s.status? ∧ t.isOver := by
      apply run.invariant (I := fun u => u.status? = s.status? ∧ u.isOver) ⟨rfl, hover⟩
      rintro c u v ⟨hstatus, hu⟩ - hv
      obtain rfl : MemoryState.call c u = v := Option.some.inj hv
      have hkeep := MemoryState.call_isOver (c := c) hu
      refine ⟨by rw [hkeep, hstatus], ?_⟩
      rwa [MemoryState.isOver, hkeep]
    apply hboth.1
  · intro run hcanceling
    apply run.invariant (I := fun u => u.status? = some .canceling ∨ u.status? = some .canceled)
      (.inl hcanceling)
    intro c u v hu hspare hv
    obtain rfl : MemoryState.call c u = v := Option.some.inj hv
    apply MemoryState.call_canceling hspare hu

namespace MemoryState

/-- The workflow of one node. -/
def oneNode : Topology where
  nodes := [{ name := "a" }]
  edges := []

/-- The node is leased, the execution is asked to cancel, and then the node commits. -/
def cancelThenCommit : List Call :=
  [.acquireTaskLease {
      task := { nodeName := "a", nodeIdx := 0, type := .nodeExec }
      leaseID := "lease", leaseToken := "token", issuedAt := 1, ttl := 10 } false,
    .updateExecutionStatus .canceling "",
    .commitNode {
      nodeName := "a", nodeIdx := 0, unitIdx := 0, leaseID := "lease", leaseToken := "token"
      attempt := 1, status := .success, port := "main" }]

end MemoryState

open MemoryState Transition

/-- The commit of the last node moves the execution from canceling to success. -/
theorem cancelThenCommit_success :
  (exec callStep (cancelThenCommit.take 2)
      (createExecution oneNode "e" { status := .running } .free)).bind (·.status?)
    = some .canceling ∧
  (exec callStep cancelThenCommit
      (createExecution oneNode "e" { status := .running } .free)).bind (·.status?)
    = some .success
  := by
  decide

/-- An execution that is being canceled is canceled by a status update. -/
theorem execution_status_canceled :
  let s := createExecution oneNode "e" { status := .canceling } .free
  let t := call (.updateExecutionStatus .canceled "") s
  Run callStep SparesCanceling s t ∧
    (t.status? = some .canceling ∨ t.status? = some .canceled) ∧
    (call .pauseExecution t).status? = t.status?
  := by
  intro s t
  have run : Run callStep SparesCanceling s t :=
    .single ⟨.updateExecutionStatus .canceled "", fun _ => rfl, rfl⟩
  refine ⟨run, execution_status_one_way.2 run (by decide), ?_⟩
  exact execution_status_one_way.1 (.single ⟨.pauseExecution, trivial, rfl⟩) (by decide)

end Xflow
