import Xflow.Store.Fence

/-!
# Waking a suspended node

A suspension writes the intents of its timer and its timeout, and a signal delivered to its waiter
writes one more; these are the intents of that suspension.  Leasing a suspended node looks at the
activation of the task alone, so that any task of the activation wakes the node.
-/

namespace Xflow

open MemoryState (TaskLease)

namespace SignalState

/-- The intents that resume the present suspension of a node, read off the calls that led to a
state: those its last suspension wrote and those of the signals delivered to it since. -/
def wakeups (name : String) : List Occurrence → List OutboxEntry
  | [] => []
  | o :: past =>
    match o.op, o.answer with
    | .suspendTaskLease x, .suspended (some payload) =>
      if x.lease.task.nodeName = name
      then suspendOutboxEntries o.before.id x.lease x.spec payload x.now
      else wakeups name past
    | .deliverSignal _ _ _ intent now, .delivered (some (target, payload)) =>
      if target = name then o.before.resumeEntry name intent payload now :: wakeups name past
      else wakeups name past
    | _, _ => wakeups name past

/-- Nothing but the execution and the activation of the task refuses the lease of a suspended
node. -/
def refusesSuspended (s : SignalState) (row : NodeSnapshot) (task : Task) (allowCycles : Bool) :
    Prop :=
  s.execution.all (·.status.isTerminal) ∨ (allowCycles ∧ task.activationID ≤ 0) ∨
    (0 < task.activationID ∧ task.activationID < row.activationID)

theorem acquire_suspended_iff {s : SignalState} {row : NodeSnapshot} {lease : TaskLease}
    {allowCycles : Bool} (hrow : s.nodes lease.task.nodeName = some row)
    (hsuspended : row.status = .suspended) :
  call (.acquireTaskLease lease allowCycles) s = (s, .done false) ↔
    refusesSuspended s row lease.task allowCycles
  := by
  have hlocked : MemoryState.refusesLease row lease =
      decide (0 < lease.task.activationID ∧ lease.task.activationID < row.activationID) := by
    simp [MemoryState.refusesLease, hsuspended, NodeStatus.isTerminal]
  have hgranted :
      (s.toMemoryState.acquireTaskLeaseChecked lease allowCycles).2 = false ↔
        refusesSuspended s row lease.task allowCycles := by
    have hlease : (s.toMemoryState.acquireTaskLease lease).2 =
        !MemoryState.refusesLease row lease := by
      cases hrefuses : MemoryState.refusesLease row lease <;>
        simp [MemoryState.acquireTaskLease, hrow, hrefuses]
    unfold refusesSuspended
    fun_cases s.toMemoryState.acquireTaskLeaseChecked lease allowCycles <;>
      simp_all [NodeStatus.isTerminal]
  rw [← hgranted]
  constructor
  · intro h
    simpa [call, onStore] using congrArg Prod.snd h
  · intro h
    simp [call, onStore, h, MemoryState.acquireTaskLeaseChecked_refused h]

end SignalState

open SignalState

/-- Take any state and a delivery of an intent for a suspended node.  The node is woken by an intent
of its present suspension only, and stays suspended with its waiter for any other, exactly when the
delivered intent is one of them or the lease is refused for the sake of the execution or the
activation. -/
theorem suspended_woken_by_own_iff {t : Traced} {row : NodeSnapshot} {entry : OutboxEntry}
    {lease : TaskLease} {allowCycles : Bool} (htask : lease.task = entry.task)
    (hrow : t.now.nodes entry.task.nodeName = some row) (hsuspended : row.status = .suspended) :
  (entry ∉ wakeups entry.task.nodeName t.past →
      call (.acquireTaskLease lease allowCycles) t.now = (t.now, .done false)) ↔
    entry ∈ wakeups entry.task.nodeName t.past ∨
      refusesSuspended t.now row entry.task allowCycles
  := by
  rw [← htask] at hrow ⊢
  rw [acquire_suspended_iff hrow hsuspended]
  grind

/-! ### A node that suspends twice -/

namespace SignalState

/-- The intent that runs the node `n` first. -/
def executeIntent : OutboxEntry := ⟨"root/e/n/1", (leaseOf 1 "a").task, .now⟩

/-- The suspension of the node `n` under a lease it was granted with an attempt. -/
def suspensionOf (activation : Int) (token : String) (attempt : Int) (spec : SuspendSpec) :
    Suspension where
  lease := { leaseOf activation token with attempt := attempt }
  spec := spec
  now := 5

/-- The node `n` is leased and suspends for a while or until the signal `go`. -/
def suspendOnce (activation : Int) : List Op :=
  [.acquireTaskLease (leaseOf activation "a") false, .claimTaskLease (leaseOf activation "a"),
    .suspendTaskLease (suspensionOf activation "a" 1 ⟨.timer, ["go"], 0, 100, 0, []⟩)]

/-- The intent of the timer of that suspension. -/
def timerIntent : OutboxEntry :=
  suspendResumeOutboxEntry "e" (leaseOf 1 "a") "timer" ⟨.timerFired, "_timer", [], []⟩ (.time 105)

/-- A signal resumes the node `n`, which suspends again until the signal `on`. -/
def suspendTwice : List Op :=
  suspendOnce 1 ++
    [.deliverSignal ["n"] "go" [] ⟨"n", 0, 0, 0, 0⟩ 6,
      .acquireTaskLease (leaseOf 1 "b") false, .claimTaskLease (leaseOf 1 "b"),
      .suspendTaskLease (suspensionOf 1 "b" 2 ⟨.signal, ["on"], 0, 0, 0, []⟩)]

/-- The state after some calls on an execution none of whose nodes has begun. -/
def afterCalls (ops : List Op) : Traced := ops.foldl Traced.next ⟨idle, []⟩

theorem run_afterCalls (ops : List Op) :
  Transition.Run Traced.step (fun _ _ => True) ⟨idle, []⟩ (afterCalls ops)
  := by
  apply Transition.Run.of_exec_cond Traced.exec_step
  intros
  trivial

end SignalState

open SignalState Transition in
/-- The intent that ran a node first, and the timer of a suspension that is over, wake a suspended
node, and its waiter stays behind. -/
theorem suspended_woken_by_stale :
  (∃ t, Run Traced.step (fun _ _ => True) ⟨idle, []⟩ t ∧
      (t.now.nodes "n").map NodeSnapshot.status = some .suspended ∧
      executeIntent ∉ wakeups "n" t.past ∧
      (call (.acquireTaskLease (leaseOf 1 "c") false) t.now).2 = .done true ∧
      ((call (.acquireTaskLease (leaseOf 1 "c") false) t.now).1.nodes "n").map NodeSnapshot.status
        = some .running ∧
      (call (.acquireTaskLease (leaseOf 1 "c") false) t.now).1.suspended "n" =
        some ⟨.timer, ["go"], 0, 100, 0, []⟩) ∧
    ∃ t, Run Traced.step (fun _ _ => True) ⟨idle, []⟩ t ∧
      (t.now.nodes "n").map NodeSnapshot.status = some .suspended ∧
      timerIntent ∈ t.now.outbox ∧ timerIntent ∉ wakeups "n" t.past ∧
      (call (.acquireTaskLease { leaseOf 1 "c" with task := timerIntent.task } false) t.now).2
        = .done true
  := by
  constructor
  · exact ⟨_, run_afterCalls (suspendOnce 1), by decide⟩
  · exact ⟨_, run_afterCalls suspendTwice, by decide⟩

/-- An intent of an earlier activation does not wake a suspended node. -/
theorem suspended_not_woken_by_earlier :
  executeIntent ∉ wakeups "n" (afterCalls (suspendOnce 2)).past ∧
    call (.acquireTaskLease (leaseOf 1 "c") false) (afterCalls (suspendOnce 2)).now =
      ((afterCalls (suspendOnce 2)).now, .done false)
  := by
  have hother : executeIntent ∉ wakeups "n" (afterCalls (suspendOnce 2)).past := by decide
  refine ⟨hother, ?_⟩
  apply (suspended_woken_by_own_iff (t := afterCalls (suspendOnce 2)) rfl rfl rfl).mpr _ hother
  exact .inr (.inr (.inr (by decide)))

end Xflow
