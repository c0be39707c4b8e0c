import Xflow.Store.Lifecycle

/-!
# The lease of a node

Between the acquisition of a node and its commit the holder of the lease claims it for the commit or
renews it, and the engine takes it back by revocation or for a retry.  All of these read the row of
one node, compare what the caller presents with what the row records, and write that row only.
-/

namespace Xflow

/-- A lease of the node is out: it is running, being committed, or waiting for its batches. -/
def NodeSnapshot.isLeased (row : NodeSnapshot) : Bool :=
  row.status = .running ∨ row.status = .committing ∨ row.status = .waiting

/-- The row with its lease taken away. -/
def NodeSnapshot.unlease (row : NodeSnapshot) (status : NodeStatus) : NodeSnapshot :=
  { row with
    status := status
    leaseID := ""
    leaseToken := ""
    leaseIssuedAt := 0
    leaseTTL := 0
    leaseTaskType := .nodeExec }

namespace MemoryState

/-- Write the row of a node; its output is withheld if it is, or was, private. -/
def rewriteRow (s : MemoryState) (name : String) (row : NodeSnapshot) (requested : Bool) :
    MemoryState :=
  let (s, privateOutput) := s.preserveOutputPrivacy name requested
  { s with
    nodes := Function.update s.nodes name (some { row with
      privateOutput := privateOutput
      output := if privateOutput then none else row.output }) }

/-- `revokeLeaseLocked` and `resetNodeForRetryLocked`: put a leased node back to pending, for the
caller who has its token.  Reports whether the lease was taken away. -/
def releaseLease (s : MemoryState) (name token : String) : MemoryState × Bool :=
  match s.nodes name with
  | none => (s, false)
  | some row =>
    if ¬ row.isLeased then (s, false)
    else if token = "" ∨ row.leaseToken ≠ token then (s, false)
    else (s.rewriteRow name (row.unlease .pending) row.privateOutput, true)

def revokeLease (s : MemoryState) (name token : String) : MemoryState × Bool :=
  s.releaseLease name token

/-- `RevokeLeaseWithOutbox`: revoke, and store the intent that runs the task again. -/
def revokeLeaseWithOutbox (s : MemoryState) (name token : String) (entry : OutboxEntry) :
    MemoryState × Bool :=
  let (s, revoked) := s.revokeLease name token
  (if revoked then (s.putOutboxEntry entry).1 else s, revoked)

/-- `ResetNodeForRetryWithOutbox`: reset, and store the intent of the retry. -/
def resetNodeForRetryWithOutbox (s : MemoryState) (name token : String) (entry : OutboxEntry) :
    MemoryState × Bool :=
  let (s, scheduled) := s.releaseLease name token
  (if scheduled then (s.putOutboxEntry entry).1 else s, scheduled)

/-- `ClaimTaskLease`: the holder of the lease enters the commit.  The identifier, the attempt and
the activation are compared when the caller gives them.  A node that is over is reported claimed. -/
def claimTaskLease (s : MemoryState) (lease : TaskLease) : MemoryState × Bool :=
  let name := lease.task.nodeName
  match s.nodes name with
  | none => (s, false)
  | some row =>
    if 0 < lease.task.activationID ∧ row.activationID ≠ lease.task.activationID then (s, false)
    else if row.status.isTerminal then (s, true)
    else if row.status ≠ .running ∨ row.leaseToken = "" ∨ row.leaseToken ≠ lease.leaseToken then
      (s, false)
    else if lease.leaseID ≠ "" ∧ row.leaseID ≠ lease.leaseID then (s, false)
    else if lease.attempt ≠ 0 ∧ row.attempt ≠ lease.attempt then (s, false)
    else (s.rewriteRow name { row with status := .committing } row.privateOutput, true)

/-- `RenewTaskLease`: move the deadline of a running or waiting node. -/
def renewTaskLease (s : MemoryState) (name token : String) (deadline now : Nat) :
    MemoryState × Bool :=
  if token = "" then (s, false)
  else
    match s.nodes name with
    | none => (s, false)
    | some row =>
      if row.leaseToken ≠ token then (s, false)
      else if row.status ≠ .running ∧ row.status ≠ .waiting then (s, false)
      else
        let issuedAt := if row.leaseIssuedAt = 0 then now else row.leaseIssuedAt
        ({ s with nodes := Function.update s.nodes name (some { row with
            leaseIssuedAt := issuedAt
            leaseTTL := deadline - issuedAt }) }, true)

/-! ### What the calls do -/

variable {s : MemoryState} {name token : String} {row : NodeSnapshot} {requested : Bool}

theorem rewriteRow_frame :
  s.rewriteRow name row requested =
    { s with
      nodes := (s.rewriteRow name row requested).nodes
      privateOutputs := (s.rewriteRow name row requested).privateOutputs }
  := by
  unfold rewriteRow
  dsimp only
  rw [preserveOutputPrivacy_frame]

theorem rewriteRow_nodes_self :
  (s.rewriteRow name row requested).nodes name = some { row with
    privateOutput := requested || s.outputIsPrivate name
    output := if requested || s.outputIsPrivate name then none else row.output }
  := by
  unfold rewriteRow
  dsimp only
  rw [Function.update_self, preserveOutputPrivacy_snd]

theorem rewriteRow_nodes_of_ne {name' : String} (h : name' ≠ name) :
  (s.rewriteRow name row requested).nodes name' = s.nodes name'
  := by
  unfold rewriteRow
  dsimp only
  rw [Function.update_of_ne h, preserveOutputPrivacy_nodes_of_ne h]

@[simp]
theorem rewriteRow_execution :
  (s.rewriteRow name row requested).execution = s.execution
  := by
  rw [rewriteRow_frame]

theorem releaseLease_cases :
  s.releaseLease name token = (s, false) ∨
    ∃ row, s.nodes name = some row ∧ row.isLeased ∧ row.leaseToken = token ∧
      s.releaseLease name token =
        (s.rewriteRow name (row.unlease .pending) row.privateOutput, true)
  := by
  fun_cases s.releaseLease name token with
  | case4 row found leased fits =>
    grind
  | _ => exact .inl rfl

theorem claimTaskLease_cases {lease : TaskLease} :
  (s.claimTaskLease lease).1 = s ∨
    ∃ row, s.nodes lease.task.nodeName = some row ∧ row.status = .running ∧
      (s.claimTaskLease lease).1 =
        s.rewriteRow lease.task.nodeName { row with status := .committing } row.privateOutput
  := by
  fun_cases claimTaskLease s lease with
  | case7 _ row hrow _ _ hrunning =>
    simp only [not_or, not_not] at hrunning
    exact .inr ⟨row, hrow, hrunning.1, rfl⟩
  | _ => exact .inl rfl

theorem renewTaskLease_cases {deadline now : Nat} :
  (s.renewTaskLease name token deadline now).1 = s ∨
    ∃ row issuedAt ttl, s.nodes name = some row ∧
      (s.renewTaskLease name token deadline now).1 =
        { s with
          nodes := Function.update s.nodes name
            (some { row with leaseIssuedAt := issuedAt, leaseTTL := ttl }) }
  := by
  fun_cases renewTaskLease s name token deadline now with
  | case5 _ row hrow => exact .inr ⟨row, _, _, hrow, rfl⟩
  | _ => exact .inl rfl

end MemoryState

end Xflow
