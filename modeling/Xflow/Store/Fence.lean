import Xflow.Lib.Fencing
import Xflow.Store.Settle
import Xflow.Store.Signals

/-!
# The fence of a node

The calls that lease, claim, renew, suspend, revoke, retry and commit a node compare what their
caller presents with the row of the node.  Seen through its status and its last lease, the row is a
record in the sense of `Fencing`, and each call is one of its events, as long as no call turns the
activation of the row back.
-/

namespace Xflow

open Fencing List MemoryState NodeSnapshot Option

/-- The row of a node as a record held under its lease. -/
def NodeSnapshot.fence (row : NodeSnapshot) : Fencing.Row (String × String) Int Int where
  phase := if row.isLeased then .held else if row.status.isTerminal then .settled else .idle
  grant := ⟨(row.leaseID, row.leaseToken), row.attempt, row.activationID⟩

/-- The lease that the sender of a commit shows. -/
def CommitNodeRequest.grant (req : CommitNodeRequest) : Fencing.Grant (String × String) Int Int :=
  ⟨(req.leaseID, req.leaseToken), req.attempt, req.activationID⟩

namespace MemoryState

variable {s : MemoryState} {req : CommitNodeRequest}

theorem commitNodeLocked_nodes (h : s.commitVerdict req = .accepted) :
  (s.commitNodeLocked req).1.nodes = (s.writeNode req).nodes
  := by
  refine commitNodeLocked_induction (P := fun t => t.nodes = (s.writeNode req).nodes) h rfl
    (fun _ _ kept => kept) (fun _ _ _ kept => ?_) (fun _ _ kept => kept) (fun _ kept => ?_)
  · rwa [finishExecution_frame]
  · rwa [applyArrivals_nodes]

theorem commitNodeLocked_exists (h : s.execution.isSome) :
  (s.commitNodeLocked req).1.execution.isSome
  := by
  by_cases haccepted : s.commitVerdict req = .accepted
  · refine commitNodeLocked_induction (P := fun t => t.execution.isSome) haccepted
      (by rwa [writeNode_frame]) (fun _ _ kept => kept) (fun t status errMsg hsome => ?_)
      (fun _ _ kept => kept) (fun _ hsome => ?_)
    · unfold finishExecution releaseWorkflowSlot dropHeldOutbox
      repeat' split
      all_goals simp_all
    · rwa [applyArrivals_execution]
  · rwa [commitNodeLocked_of_refused haccepted]

/-- The row of a node seen through the fence. -/
def fenceAt (s : MemoryState) (name : String) : Option (Fencing.Row (String × String) Int Int) :=
  (s.nodes name).map NodeSnapshot.fence

variable {name : String}

@[simp]
theorem fenceAt_putOutboxEntry {entry : OutboxEntry} :
  (s.putOutboxEntry entry).1.fenceAt name = s.fenceAt name
  := by
  rfl

variable {row : NodeSnapshot}

theorem settled_of_fence (h : row.fence.phase = .settled) :
  row.status.isTerminal
  := by
  unfold fence at h
  split at h
  · cases h
  · split at h
    · assumption
    · cases h

theorem fence_of_terminal (h : row.status.isTerminal) :
  row.fence.phase = .settled
  := by
  have hleased : row.isLeased = false := by
    unfold isLeased
    cases hstatus : row.status <;> simp_all [NodeStatus.isTerminal]
  simp [fence, hleased, h]

theorem fence_of_leased (h : row.isLeased) :
  row.fence.phase = .held
  := by
  simp [fence, h]

/-! ### Leasing -/

section

variable {lease : TaskLease} {allowCycles : Bool}

theorem acquireTaskLeaseChecked_refused
    (h : (s.acquireTaskLeaseChecked lease allowCycles).2 = false) :
  (s.acquireTaskLeaseChecked lease allowCycles).1 = s
  := by
  rcases @acquireTaskLeaseChecked_or s lease allowCycles with heq | ⟨-, -, -, heq⟩
  · rw [heq]
  · simp [heq] at h

theorem acquireTaskLeaseChecked_granted
    (h : (s.acquireTaskLeaseChecked lease allowCycles).2 = true) :
  (∃ snap, s.execution = some snap ∧ snap.status.isTerminal = false) ∧
    (∀ row ∈ s.nodes lease.task.nodeName, refusesLease row lease = false) ∧
    ∃ privateOutput, (s.acquireTaskLeaseChecked lease allowCycles).1.nodes lease.task.nodeName =
      some (leasedRow (s.nodes lease.task.nodeName) privateOutput lease)
  := by
  rcases @acquireTaskLeaseChecked_or s lease allowCycles with heq | ⟨hopen, -, hfree, heq⟩
  · simp [heq] at h
  · refine ⟨hopen, fun row hrow => ?_, (s.preserveOutputPrivacy lease.task.nodeName false).2, ?_⟩
    · rw [mem_def] at hrow
      simpa [hrow] using hfree
    · simp [heq]

theorem fence_acquire (hok : (s.acquireTaskLeaseChecked lease allowCycles).2 = true)
    (hback : lease.task.activationID ≤ 0 → ∀ row ∈ s.nodes lease.task.nodeName,
      row.activationID ≤ lease.task.activationID) :
  let after := (s.acquireTaskLeaseChecked lease allowCycles).1
  Step (s.fenceAt lease.task.nodeName)
    (.granted ⟨(lease.leaseID, lease.leaseToken),
      ((after.nodes lease.task.nodeName).map attempt).getD 0,
      lease.task.activationID⟩)
    (after.fenceAt lease.task.nodeName)
  := by
  obtain ⟨-, hfree, privateOutput, hrow⟩ := acquireTaskLeaseChecked_granted hok
  dsimp only
  rw [fenceAt, fenceAt, hrow]
  apply Step.grant
  intro old hold
  obtain ⟨row, hmem, rfl⟩ := mem_map.mp hold
  have hrefuses := hfree row hmem
  have hle := fun hact => hback hact row hmem
  rw [mem_def] at hmem
  simp only [refusesLease, decide_eq_false_iff_not, not_or, not_and] at hrefuses
  simp only [fence, leasedRow, hmem]
  refine ⟨?_, ?_, ?_⟩
  · omega
  · intro hsettled
    have := hrefuses.2.1 (settled_of_fence hsettled)
    omega
  · intro heq
    simp [heq]

end

/-! ### Holding -/

theorem fence_claim {lease : TaskLease} :
  (s.claimTaskLease lease).1.fenceAt lease.task.nodeName = s.fenceAt lease.task.nodeName
  := by
  rcases claimTaskLease_cases with hsame | ⟨row, hrow, hrunning, heq⟩
  · rw [hsame]
  · rw [heq, fenceAt, fenceAt, rewriteRow_nodes_self, hrow]
    simp [fence, isLeased, hrunning]

theorem fence_renew {token : String} {deadline now : Nat} :
  (s.renewTaskLease name token deadline now).1.fenceAt name = s.fenceAt name
  := by
  rcases renewTaskLease_cases with hsame | ⟨row, issuedAt, ttl, hrow, heq⟩
  · rw [hsame]
  · rw [heq, fenceAt, fenceAt, hrow]
    simp [fence, isLeased]

theorem fence_release {token : String} :
  Step (s.fenceAt name)
    (if (s.releaseLease name token).2 then .withdrawn else .quiet)
    ((s.releaseLease name token).1.fenceAt name)
  := by
  rcases releaseLease_cases with hrefused | ⟨row, hrow, hleased, -, heq⟩
  · rw [hrefused]
    exact .quiet
  · rw [heq, fenceAt, fenceAt, rewriteRow_nodes_self, hrow]
    exact .withdraw (fence_of_leased hleased) rfl rfl rfl

/-! ### Committing -/

theorem fence_commit (h : s.commitVerdict req = .accepted) (hstatus : req.status.isTerminal)
    (hback : req.system → ∀ row ∈ s.nodes req.nodeName, row.activationID ≤ req.activationID) :
  Step (s.fenceAt req.nodeName)
    (.settled req.activationID (if req.system then none else some req.grant))
    ((s.commitNodeLocked req).1.fenceAt req.nodeName)
  := by
  obtain ⟨-, hopen, hfence⟩ := commitVerdict_accepted h
  rw [fenceAt, fenceAt, commitNodeLocked_nodes h, writeNode_nodes_self]
  have hsettled (current : Option NodeSnapshot) (privateOutput : Bool) :
      (committedRow current privateOutput req).fence.phase = .settled := fence_of_terminal hstatus
  cases hsystem : req.system with
  | true =>
    refine .settleAlone ?_ (hsettled _ _)
    intro old hold
    obtain ⟨row, hmem, rfl⟩ := mem_map.mp hold
    refine ⟨?_, hback hsystem row hmem⟩
    intro hphase
    rw [mem_def] at hmem
    simp [rowOutcome, hmem, settled_of_fence hphase] at hopen
  | false =>
    simp only [hsystem] at hfence
    obtain ⟨row, hrow, hheld⟩ := (any_eq_true _ _).mp hfence
    simp only [decide_eq_true_eq] at hheld
    obtain ⟨hleased, hid, htoken, hattempt, hact⟩ := hheld
    have hgrant : row.fence.grant = req.grant := by
      simp [fence, CommitNodeRequest.grant, hid, htoken, hattempt, hact]
    rw [hrow, ← hgrant, ← hact]
    have hphase : row.fence.phase = .held := by
      apply fence_of_leased
      simpa [isLeased] using hleased
    exact .settle hphase (hsettled (some row) _) hact.symm

theorem commitVerdict_of_terminal (hexists : s.execution.isSome)
    (hrow : s.nodes req.nodeName = some row) (hterminal : row.status.isTerminal) :
  s.commitVerdict req = .duplicateTerminal ∨ s.commitVerdict req = .staleToken
  := by
  obtain ⟨snap, hsnap⟩ := isSome_iff_exists.mp hexists
  simp only [commitVerdict, hsnap, hrow, any_some]
  split <;> simp

theorem commitVerdict_of_activation (hexists : s.execution.isSome) (hopen : s.isOver = false)
    (hrow : s.nodes req.nodeName = some row) (hterminal : row.status.isTerminal = false)
    (hsystem : req.system = false) (hact : row.activationID ≠ req.activationID) :
  s.commitVerdict req = .staleToken
  := by
  obtain ⟨snap, hsnap⟩ := isSome_iff_exists.mp hexists
  have hover : snap.status.isTerminal = false := by simpa [isOver, status?, hsnap] using hopen
  simp [commitVerdict, hsnap, hrow, hterminal, hover, hsystem, leaseFenceAdmits, hact]

end MemoryState

namespace SignalState

/-! ### What happened to a node -/

/-- The node that a call is on, if it is on one. -/
def Op.node : Op → Option String
  | .acquireTaskLease lease _ | .claimTaskLease lease => some lease.task.nodeName
  | .renewTaskLease name _ _ _ | .revokeLease name _ | .revokeLeaseWithOutbox name _ _ => some name
  | .resetNodeForRetry name _ _ => some name
  | .suspendTaskLease x => some x.lease.task.nodeName
  | .commitNode req => some req.nodeName
  | .deliverSignal .. | .ackOutbox _ => none

/-- A call with its answer, and the states before and after it. -/
structure Occurrence where
  before : SignalState
  op : Op
  answer : Answer
  after : SignalState

/-- What a call was for the fence of its node. -/
def Occurrence.event (o : Occurrence) : Fencing.Event (String × String) Int Int :=
  match o.op, o.answer with
  | .acquireTaskLease lease _, .done true =>
    .granted ⟨(lease.leaseID, lease.leaseToken),
      ((o.after.nodes lease.task.nodeName).map NodeSnapshot.attempt).getD 0,
      lease.task.activationID⟩
  | .revokeLease .., .done true => .withdrawn
  | .revokeLeaseWithOutbox .., .done true => .withdrawn
  | .resetNodeForRetry .., .done true => .withdrawn
  | .suspendTaskLease _, .suspended (some _) => .withdrawn
  | .commitNode req, .committed .accepted =>
    .settled req.activationID (if req.system then none else some req.grant)
  | _, _ => .quiet

/-- The occurrence of a call in a state. -/
def occurrence (op : Op) (s : SignalState) : Occurrence :=
  ⟨s, op, (call op s).2, (call op s).1⟩

/-- A call that does not turn the activation of its node back: a lease carries a positive activation
or one not below that of the row, and a commit has a final status and, when it comes without a
lease, an activation not below that of the row. -/
def Onward (op : Op) (s : SignalState) : Prop :=
  match op with
  | .acquireTaskLease lease _ =>
    lease.task.activationID ≤ 0 → ∀ row ∈ s.nodes lease.task.nodeName,
      row.activationID ≤ lease.task.activationID
  | .commitNode req =>
    req.status.isTerminal ∧
      (req.system → ∀ row ∈ s.nodes req.nodeName, row.activationID ≤ req.activationID)
  | _ => True

variable {s : SignalState} {req : CommitNodeRequest} {op : Op}

theorem commitNode_cases :
  (∃ err, call (.commitNode req) s = (s, .invalid err)) ∨
    (call (.commitNode req) s).2 = .committed (s.commitVerdict req) ∧
      (call (.commitNode req) s).1.toMemoryState = (s.toMemoryState.commitNodeLocked req).1 ∧
      (s.commitVerdict req ≠ .accepted → (call (.commitNode req) s).1 = s)
  := by
  have happlied := @commitNodeLocked_applied s.toMemoryState req
  simp only [call, commitNode, MemoryState.commitNode]
  cases req.validate s.id with
  | some err => exact .inl ⟨err, rfl⟩
  | none =>
    by_cases haccepted : s.commitVerdict req = .accepted
    · have houtcome : (s.toMemoryState.commitNodeLocked req).2.outcome = .accepted := by
        simp only [MemoryState.commitNodeLocked, haccepted]
        split <;> split <;> rfl
      by_cases hcancel : req.system ∧ req.status = .canceled <;>
        simp [happlied, hcancel, houtcome, haccepted, setWaiter]
    · rw [commitNodeLocked_of_refused haccepted]
      simp

/-- What every write of a call keeps, the call keeps. -/
theorem call_induction {P : MemoryState → Prop} (same : P s.toMemoryState)
    (acquire : ∀ lease allowCycles, op = .acquireTaskLease lease allowCycles →
      P (s.toMemoryState.acquireTaskLeaseChecked lease allowCycles).1)
    (claim : ∀ name row, s.nodes name = some row → row.status = .running →
      P (s.toMemoryState.rewriteRow name { row with status := .committing } row.privateOutput))
    (renew : ∀ name row issuedAt ttl, s.nodes name = some row → P { s.toMemoryState with
      nodes := Function.update s.nodes name
        (some { row with leaseIssuedAt := issuedAt, leaseTTL := ttl }) })
    (release : ∀ name (row : NodeSnapshot),
      P (s.toMemoryState.rewriteRow name (row.unlease .pending) row.privateOutput))
    (put : ∀ {t : MemoryState} (entries : List OutboxEntry), P t →
      P { t with outbox := entries.foldl putEntry t.outbox })
    (park : ∀ x row, P (s.park x row).1.toMemoryState)
    (commit : ∀ req, op = .commitNode req → (call op s).2 = .committed (s.commitVerdict req) →
      P (s.toMemoryState.commitNodeLocked req).1)
    (ack : ∀ entryID, op = .ackOutbox entryID → P (s.ackOutbox entryID).toMemoryState) :
  P (call op s).1.toMemoryState
  := by
  have released (name token : String) : P (s.toMemoryState.releaseLease name token).1 := by
    rcases @releaseLease_cases s.toMemoryState name token with eq | ⟨row, -, -, -, eq⟩
    · rwa [eq]
    · rw [eq]
      exact release name row
  have again (name token : String) (entry : OutboxEntry) :
      P (s.toMemoryState.revokeLeaseWithOutbox name token entry).1 := by
    unfold revokeLeaseWithOutbox
    dsimp only
    split
    · exact put [entry] (released name token)
    · exact released name token
  cases op with
  | acquireTaskLease lease allowCycles => exact acquire lease allowCycles rfl
  | claimTaskLease lease =>
    simp only [call, onStore]
    rcases @claimTaskLease_cases s.toMemoryState lease with eq | ⟨row, found, running, eq⟩
    · rwa [eq]
    · rw [eq]
      exact claim _ row found running
  | renewTaskLease name token deadline now =>
    simp only [call, onStore]
    rcases @renewTaskLease_cases s.toMemoryState name token deadline now with
      eq | ⟨row, issuedAt, ttl, found, eq⟩
    · rwa [eq]
    · rw [eq]
      exact renew name row issuedAt ttl found
  | revokeLease name token => exact released name token
  | revokeLeaseWithOutbox name token entry | resetNodeForRetry name token entry =>
    exact again name token entry
  | suspendTaskLease x =>
    simp only [call]
    rcases @suspendTaskLease_cases s x with eq | ⟨row, -, -, eq⟩
    · rwa [eq]
    · rw [eq]
      exact park x row
  | commitNode req =>
    rcases @commitNode_cases s req with ⟨err, invalid⟩ | ⟨answer, store, -⟩
    · rwa [invalid]
    · rw [store]
      exact commit req rfl answer
  | deliverSignal walk signal data intent now =>
    obtain ⟨entries, eq⟩ := @deliverSignalWithOutbox_store s walk signal data intent now
    simp only [call, eq]
    exact put entries same
  | ackOutbox entryID => exact ack entryID rfl

theorem fence_occurrence {name : String}
    (hnode : ∀ n ∈ op.node, n = name) (honward : Onward op s) :
  Step (s.fenceAt name) (occurrence op s).event ((call op s).1.fenceAt name)
  := by
  unfold occurrence Occurrence.event
  cases op with
  | acquireTaskLease lease allowCycles =>
    obtain rfl := hnode _ rfl
    cases hok : (s.toMemoryState.acquireTaskLeaseChecked lease allowCycles).2 with
    | true =>
      simp only [call, onStore, hok]
      exact fence_acquire hok honward
    | false =>
      simp only [call, onStore, hok, acquireTaskLeaseChecked_refused hok]
      exact .quiet
  | claimTaskLease lease =>
    obtain rfl := hnode _ rfl
    simp only [call, onStore, fence_claim]
    exact .quiet
  | renewTaskLease name' token deadline now =>
    obtain rfl := hnode _ rfl
    simp only [call, onStore, fence_renew]
    exact .quiet
  | revokeLease name' token | revokeLeaseWithOutbox name' token | resetNodeForRetry name' token =>
    obtain rfl := hnode _ rfl
    have hstep := @fence_release s.toMemoryState name' token
    cases hok : (s.toMemoryState.releaseLease name' token).2 <;>
      simpa [call, onStore, revokeLeaseWithOutbox, resetNodeForRetryWithOutbox, revokeLease, hok]
        using hstep
  | suspendTaskLease x =>
    obtain rfl := hnode _ rfl
    rcases @suspendTaskLease_cases s x with hrefused | ⟨row, hrow, hholds, heq⟩
    · simp only [call, hrefused]
      exact .quiet
    · obtain ⟨privateOutput, output, hparked⟩ := @park_nodes_self s x row
      simp only [call, heq]
      rw [fenceAt, fenceAt, hparked, hrow]
      have hleased : row.isLeased := by
        simp only [holdsForCommit, decide_eq_true_eq] at hholds
        simp [isLeased, hholds.1]
      exact .withdraw (fence_of_leased hleased) rfl rfl rfl
  | commitNode req =>
    obtain rfl := hnode _ rfl
    rcases @commitNode_cases s req with ⟨err, hinvalid⟩ | ⟨hanswer, hstore, hrefused⟩
    · simp only [hinvalid]
      exact .quiet
    · by_cases haccepted : s.commitVerdict req = .accepted
      · simp only [hanswer, haccepted, hstore]
        exact fence_commit haccepted honward.1 honward.2
      · simp only [hrefused haccepted, hanswer]
        cases hverdict : s.commitVerdict req with
        | accepted => contradiction
        | duplicateTerminal | staleToken | executionInactive => exact .quiet
  | deliverSignal walk signal data intent now =>
    obtain ⟨entries, heq⟩ := @deliverSignalWithOutbox_store s walk signal data intent now
    simp only [call, heq]
    exact .quiet
  | ackOutbox entryID => exact .quiet

/-! ### Runs of calls -/

/-- A state with the calls that led to it, the latest first. -/
structure Traced where
  now : SignalState
  past : List Occurrence

/-- Take a call and record it. -/
def Traced.next (t : Traced) (op : Op) : Traced :=
  ⟨(call op t.now).1, occurrence op t.now :: t.past⟩

def Traced.step (op : Op) (t : Traced) : Option Traced := some (t.next op)

theorem Traced.exec_step {ops : List Op} {t : Traced} :
  Transition.exec Traced.step ops t = some (ops.foldl Traced.next t)
  := by
  induction ops generalizing t with
  | nil => rfl
  | cons op ops ih => exact ih

/-- A call on one node that does not turn its activation back. -/
def OnwardAt (name : String) (op : Op) (t : Traced) : Prop :=
  (∀ n ∈ op.node, n = name) ∧ Onward op t.now

/-- The store accepted this commit. -/
def Occurrence.accepts (o : Occurrence) (req : CommitNodeRequest) : Prop :=
  o.op = .commitNode req ∧ o.answer = .committed .accepted

variable {o : Occurrence}

theorem Occurrence.accepts.event (h : o.accepts req) :
  o.event = .settled req.activationID (if req.system then none else some req.grant)
  := by
  unfold Occurrence.event
  rw [h.1, h.2]

theorem Occurrence.accepts_of_settled {activation : Int}
    {holder : Option (Grant (String × String) Int Int)}
    (h : o.event = .settled activation holder) :
  ∃ req, o.accepts req
  := by
  unfold Occurrence.event at h
  split at h
  case h_6 hop hanswer => exact ⟨_, hop, hanswer⟩
  all_goals cases h

theorem Occurrence.accepts.mem_settled {past : List Occurrence} (h : o.accepts req)
    (hmem : o ∈ past) :
  req.activationID ∈ settledActivations (past.map Occurrence.event)
  := by
  unfold settledActivations
  rw [mem_filterMap]
  exact ⟨_, mem_map_of_mem hmem, by rw [h.event]⟩

theorem call_execution (h : ∀ req, ¬ (occurrence op s).accepts req) :
  (call op s).1.execution = s.execution
  := by
  apply call_induction (P := fun t => t.execution = s.execution) rfl
  case acquire => exact fun _ _ _ => acquireTaskLeaseChecked_execution
  case claim => exact fun _ _ _ _ => rewriteRow_execution
  case renew => exact fun _ _ _ _ _ => rfl
  case release => exact fun _ _ => rewriteRow_execution
  case put => exact fun _ same => same
  case park => exact fun _ _ => park_execution
  case commit =>
    rintro req rfl answer
    rw [commitNodeLocked_of_refused]
    intro accepted
    exact h req ⟨rfl, by rw [occurrence, answer, accepted]⟩
  case ack => exact fun _ _ => rfl

theorem not_isOver_of_granted {grant : Grant (String × String) Int Int}
    (h : (occurrence op s).event = .granted grant) :
  s.isOver = false
  := by
  unfold occurrence Occurrence.event at h
  dsimp only at h
  split at h
  · rename_i lease allowCycles hanswer
    have hok : (s.toMemoryState.acquireTaskLeaseChecked lease allowCycles).2 = true := by
      simpa [call, onStore] using hanswer
    obtain ⟨⟨snap, hsnap, hopen⟩, -, -⟩ := acquireTaskLeaseChecked_granted hok
    simp [isOver, status?, hsnap, hopen]
  all_goals cases h

/-- A commit was answered with duplicate, stale or an error, and changed nothing. -/
def Occurrence.turnedAway (o : Occurrence) : Prop :=
  o.after = o.before ∧ (o.answer = .committed .duplicateTerminal ∨
    o.answer = .committed .staleToken ∨ ∃ err, o.answer = .invalid err)

/-- What holds of one node after calls that never turned its activation back. -/
structure Fenced (name : String) (t : Traced) : Prop where
  trace : Fencing.Trace (t.now.fenceAt name) (t.past.map Occurrence.event)
  alive : ∀ o ∈ t.past, ∀ req, o.accepts req →
    t.now.execution.isSome ∧ (t.now.isOver → ∀ row ∈ t.now.fenceAt name, row.phase = .settled)
  late : ∀ later o earlier req, t.past = later ++ o :: earlier → o.op = .commitNode req →
    ∀ o' ∈ earlier, ∀ req', o'.accepts req' → req'.activationID = req.activationID → o.turnedAway

variable {name : String} {t : Traced} {op : Op}

theorem Fenced.turnedAway {req' : CommitNodeRequest} {o' : Occurrence} (h : Fenced name t)
    (honward : OnwardAt name (.commitNode req) t) (hmem : o' ∈ t.past) (haccepts : o'.accepts req')
    (hact : req'.activationID = req.activationID) :
  (occurrence (.commitNode req) t.now).turnedAway
  := by
  obtain rfl := honward.1 _ rfl
  rcases @commitNode_cases t.now req with ⟨err, hinvalid⟩ | ⟨hanswer, -, hrefused⟩
  · simp [Occurrence.turnedAway, occurrence, hinvalid]
  · obtain ⟨_, hfence, -, hlt⟩ := h.trace.recorded.settled _ (haccepts.mem_settled hmem)
    obtain ⟨row, hrow, rfl⟩ := mem_map.mp hfence
    obtain ⟨hexists, hover⟩ := h.alive _ hmem _ haccepts
    have hverdict : t.now.commitVerdict req = .duplicateTerminal ∨
        t.now.commitVerdict req = .staleToken := by
      cases hterminal : row.status.isTerminal with
      | true => apply commitVerdict_of_terminal hexists hrow hterminal
      | false =>
        right
        have hunsettled : row.fence.phase ≠ .settled := by
          intro hphase
          rw [settled_of_fence hphase] at hterminal
          cases hterminal
        have hless : req'.activationID < row.activationID := hlt hunsettled
        apply commitVerdict_of_activation hexists _ hrow hterminal
        · by_contra hsystem
          have := honward.2.2 (by simpa using hsystem) row hrow
          omega
        · omega
        · by_contra hends
          exact hunsettled (hover (by simpa using hends) _ hfence)
    have hnot : t.now.commitVerdict req ≠ .accepted := by
      rcases hverdict with hv | hv <;> simp [hv]
    refine ⟨hrefused hnot, ?_⟩
    rcases hverdict with hv | hv <;> simp [occurrence, hanswer, hv]

theorem Fenced.next_alive (h : Fenced name t) (honward : OnwardAt name op t)
    (hmem : o ∈ occurrence op t.now :: t.past) (haccepts : o.accepts req) :
  (call op t.now).1.execution.isSome ∧
    ((call op t.now).1.isOver → ∀ row ∈ (call op t.now).1.fenceAt name, row.phase = .settled)
  := by
  have hstep := fence_occurrence honward.1 honward.2
  by_cases hnow : ∃ req, (occurrence op t.now).accepts req
  · -- the row has just been settled
    obtain ⟨req, hop, hanswer⟩ := hnow
    subst hop
    rcases @commitNode_cases t.now req with ⟨err, hinvalid⟩ | ⟨hverdict, hstore, -⟩
    · simp [occurrence, hinvalid] at hanswer
    · change (call (.commitNode req) t.now).2 = _ at hanswer
      rw [hanswer, Answer.committed.injEq] at hverdict
      obtain ⟨⟨st, hst, -⟩, -⟩ := commitVerdict_accepted hverdict.symm
      constructor
      · rw [hstore]
        apply commitNodeLocked_exists
        unfold status? at hst
        cases hexec : t.now.execution with
        | none => simp [hexec] at hst
        | some snap => rfl
      · intro _
        rw [Occurrence.accepts.event ⟨rfl, hanswer⟩] at hstep
        exact hstep.phase
  · -- the row stays settled, because nothing is leased once the execution is over
    push Not at hnow
    rcases mem_cons.mp hmem with rfl | hold
    · exact absurd haccepts (hnow req)
    · obtain ⟨hexists, hover⟩ := h.alive _ hold _ haccepts
      have hsame := call_execution hnow
      have hsameOver : (call op t.now).1.isOver = t.now.isOver := by
        rw [isOver, status?, hsame]
        rfl
      refine ⟨by rwa [hsame], ?_⟩
      intro hends row hrow
      rw [hsameOver] at hends
      generalize hevent : (occurrence op t.now).event = event at hstep
      generalize hafter : (call op t.now).1.fenceAt name = after at hstep hrow
      generalize hbefore : t.now.fenceAt name = before at hstep hover
      cases hstep with
      | quiet => exact hover hends row hrow
      | grant fresh =>
        rw [not_isOver_of_granted hevent] at hends
        cases hends
      | withdraw held =>
        rw [hover hends _ rfl] at held
        cases held
      | settle | settleAlone =>
        obtain ⟨req', haccepts'⟩ := Occurrence.accepts_of_settled hevent
        exact absurd haccepts' (hnow req')

theorem Fenced.next (h : Fenced name t) (honward : OnwardAt name op t) :
  Fenced name (t.next op)
  := by
  constructor
  · exact h.trace.cons (fence_occurrence honward.1 honward.2)
  · intro o hmem req haccepts
    exact h.next_alive honward hmem haccepts
  · intro later o earlier req hpast hop o' hmem req' haccepts hact
    cases later with
    | nil =>
      obtain ⟨rfl, rfl⟩ := cons.inj hpast
      subst hop
      exact h.turnedAway honward hmem haccepts hact
    | cons _ later =>
      exact h.late later o earlier req (cons.inj hpast).2 hop o' hmem req' haccepts hact

end SignalState

open SignalState Transition

/-- Let calls lease, claim, renew, suspend, revoke, retry and commit a node, and never turn its
activation back.  Then a commit under a lease is accepted only from the holder of the last lease
granted, if that was not taken away or parked since; no two commits are accepted for one activation;
a commit for an activation that was committed before is turned away; and the attempts granted for
one activation increase. -/
theorem lease_fencing {name : String} {s : SignalState} {t : Traced}
    (hfresh : s.nodes name = none) (run : Run Traced.step (OnwardAt name) ⟨s, []⟩ t) :
  (∀ later o earlier req, t.past = later ++ o :: earlier → o.accepts req → req.system = false →
      openGrant (earlier.map Occurrence.event) = some req.grant) ∧
    (settledActivations (t.past.map Occurrence.event)).Nodup ∧
    (∀ later o earlier req, t.past = later ++ o :: earlier → o.op = .commitNode req →
      ∀ o' ∈ earlier, ∀ req', o'.accepts req' → req'.activationID = req.activationID →
        o.turnedAway) ∧
    (grants (t.past.map Occurrence.event)).Pairwise (fun later earlier =>
      later.activation = earlier.activation → earlier.attempt < later.attempt)
  := by
  have hfenced : Fenced name t := by
    apply run.invariant
    · refine ⟨?_, by simp, by simp⟩
      rw [fenceAt, hfresh]
      exact .nil
    · rintro op u v hu honward hv
      obtain rfl := some.inj hv
      exact hu.next honward
  refine ⟨?_, hfenced.trace.settled_nodup, hfenced.late, hfenced.trace.attempts_increase⟩
  intro later o earlier req hpast haccepts hsystem
  have htrace := hfenced.trace
  rw [hpast, map_append, map_cons, haccepts.event, if_neg (by simp [hsystem])] at htrace
  exact htrace.settled_by_holder.1

/-! ### Two nodes -/

namespace SignalState

/-- A running execution none of whose nodes has begun. -/
def idle : SignalState where
  id := "e"
  execution := some { status := .running }
  remaining := 2

/-- A lease of the node `n`. -/
def leaseOf (activation : Int) (token : String) : TaskLease where
  task := { nodeName := "n", nodeIdx := 0, type := .nodeExec, activationID := activation }
  leaseID := token
  leaseToken := token
  issuedAt := 1
  ttl := 10

/-- The commit of the node `n` by the holder of its first lease. -/
def commitOf (token : String) : CommitNodeRequest where
  nodeName := "n"
  nodeIdx := 0
  unitIdx := 0
  activationID := 1
  leaseID := token
  leaseToken := token
  attempt := 1
  status := .success

/-- The calls of a worker that leases the node `n`, claims it and commits it. -/
def leaseThenCommit : List Op :=
  [.acquireTaskLease (leaseOf 1 "t") false, .claimTaskLease (leaseOf 1 "t"),
    .commitNode (commitOf "t")]

/-- Calls that lease the node `n` for its sixth activation, then without one, then for the sixth
again. -/
def leaseWithoutActivation : List Op :=
  [.acquireTaskLease (leaseOf 6 "a") false, .revokeLease "n" "a",
    .acquireTaskLease (leaseOf 0 "b") false, .revokeLease "n" "b",
    .acquireTaskLease (leaseOf 6 "c") false]

end SignalState

theorem leaseThenCommit_fenced :
  ∃ t o earlier req, Run Traced.step (OnwardAt "n") ⟨idle, []⟩ t ∧ t.past = o :: earlier ∧
    o.accepts req ∧ openGrant (earlier.map Occurrence.event) = some req.grant
  := by
  have run : Run Traced.step (OnwardAt "n") ⟨idle, []⟩
      (leaseThenCommit.foldl Traced.next ⟨idle, []⟩) := by
    apply Run.of_exec_cond Traced.exec_step
    intro op hop t
    simp only [leaseThenCommit, mem_cons, not_mem_nil, or_false] at hop
    rcases hop with rfl | rfl | rfl
    · exact ⟨by simp [Op.node, leaseOf], fun h => absurd h (by decide)⟩
    · exact ⟨by simp [Op.node, leaseOf], trivial⟩
    · exact ⟨by simp [Op.node, commitOf], rfl, fun h => by cases h⟩
  exact ⟨_, _, _, _, run, rfl, ⟨rfl, by decide⟩,
    (lease_fencing rfl run).1 [] _ _ _ rfl ⟨rfl, by decide⟩ rfl⟩

namespace SignalState

/-- Calls on the node `n`. -/
abbrev OnNode (op : Op) (_ : Traced) : Prop := ∀ n ∈ op.node, n = "n"

theorem run_onNode {ops : List Op} (only : ∀ op ∈ ops, ∀ n ∈ op.node, n = "n") :
  Run Traced.step OnNode ⟨idle, []⟩ (ops.foldl Traced.next ⟨idle, []⟩)
  :=
  Run.of_exec_cond Traced.exec_step fun op mem _ => only op mem

end SignalState

/-- A lease without an activation turns that of the row back: the same attempt of the sixth
activation is granted twice. -/
theorem leaseWithoutActivation_attempts :
  ∃ t, Run Traced.step (fun op _ => ∀ n ∈ op.node, n = "n") ⟨idle, []⟩ t ∧
    (grants (t.past.map Occurrence.event)).map (fun g => (g.activation, g.attempt)) =
      [(6, 1), (0, 1), (6, 1)]
  := ⟨leaseWithoutActivation.foldl Traced.next ⟨idle, []⟩, run_onNode (by decide), by decide⟩

/-- So does a commit without a lease that carries an earlier activation. -/
theorem earlierActivation_attempts :
  ∃ t, Run Traced.step OnNode ⟨idle, []⟩ t ∧
    (grants (t.past.map Occurrence.event)).map (fun g => (g.activation, g.attempt)) =
      [(6, 1), (6, 1)]
  :=
  ⟨[.acquireTaskLease (leaseOf 6 "a") false, .revokeLease "n" "a",
      .commitNode { commitOf "" with system := true, status := .skipped },
      .acquireTaskLease (leaseOf 6 "c") true].foldl Traced.next ⟨idle, []⟩,
    run_onNode (by decide), by decide⟩

/-- After a commit whose status is not final a second one is accepted for the activation. -/
theorem pendingCommit_settled_twice :
  ∃ t, Run Traced.step OnNode ⟨idle, []⟩ t ∧
    settledActivations (t.past.map Occurrence.event) = [1, 1]
  :=
  ⟨[.acquireTaskLease (leaseOf 1 "t") false, .commitNode { commitOf "t" with status := .pending },
      .commitNode { commitOf "" with system := true, status := .skipped }].foldl Traced.next
        ⟨idle, []⟩,
    run_onNode (by decide), by decide⟩

end Xflow
