import Xflow.Store.Signals

/-!
# The barrier of an expanded node

A map node that produced batches waits, under its lease, for one child execution per batch.  Each
child is reported by whoever ran it, possibly several times, possibly after the lease was taken back
and the node was expanded again under another one.  The store keeps the children of every lease it
expanded under; the report that finds all of them finished gets their results, for the commit of the
node.

What the store keeps of a child depends on the reports it received only: `replay` takes the reports
one after the other, and `firstTerminal` is the one that says how the child ended.
-/

namespace Xflow

open Function List

open MemoryState (TaskLease)

/-- `SubExecution`: one child of an expanded node. -/
structure SubExecution where
  parentExecID : String
  parentNode : String
  childExecID : String
  batchIndex : Int
  status : ExecutionStatus
  result : Option Data := none
  deriving DecidableEq

def errInvalidLeaseToken : String := "invalid lease token"

/-- `matchesExpansionLease`: the row has the status and was leased with the lease. -/
def NodeSnapshot.matchesExpansionLease (row : NodeSnapshot) (lease : TaskLease)
    (status : NodeStatus) : Bool :=
  row.status = status ∧ row.leaseID = lease.leaseID ∧ row.leaseToken = lease.leaseToken ∧
    row.attempt = lease.attempt ∧ row.activationID = lease.task.activationID

/-- `expansionSubExecutionKey`: the children of a node under a lease.  The source joins the two by a
slash, which no identifier of a lease contains. -/
def MemoryState.TaskLease.expansionSubExecutionKey (lease : TaskLease) : String × String :=
  (lease.task.nodeName, lease.leaseID)

/-- What a report has to present of the lease it was issued under. -/
def MemoryState.TaskLease.credentials (lease : TaskLease) : String × String × String × Int × Int :=
  (lease.task.nodeName, lease.leaseID, lease.leaseToken, lease.attempt, lease.task.activationID)

/-! ### What the engine asks for -/

def expansionChildID (id : String) (lease : TaskLease) (batchIndex : Int) : String :=
  id ++ "/sub/" ++ lease.task.nodeName ++ "/" ++ lease.leaseID ++ "/" ++ toString batchIndex

def expansionOutboxID (id : String) (lease : TaskLease) (batchIndex : Int) : String :=
  "expand/" ++ id ++ "/" ++ lease.task.nodeName ++ "/" ++ lease.leaseID ++ "/" ++
    toString batchIndex

/-- `expansionBatchTask`, without the items it carries. -/
def expansionBatchTask (lease : TaskLease) (batchIndex : Int) : Task where
  nodeName := lease.task.nodeName ++ "/_batch/" ++ toString batchIndex
  nodeIdx := lease.task.nodeIdx
  type := .nodeBatch
  activationID := lease.task.activationID
  autoDepth := lease.task.autoDepth

/-- The children `expandLoopSplit` creates for a number of batches. -/
def expansionChildren (id : String) (lease : TaskLease) (batches : Nat) : List SubExecution :=
  (List.range batches).map fun (i : Nat) =>
    { parentExecID := id
      parentNode := lease.task.nodeName
      childExecID := expansionChildID id lease i
      batchIndex := i
      status := .running }

/-- The intents `expandLoopSplit` stores for a number of batches. -/
def expansionEntries (id : String) (lease : TaskLease) (batches : Nat) : List OutboxEntry :=
  (List.range batches).map fun (i : Nat) =>
    { id := expansionOutboxID id lease i, task := expansionBatchTask lease i }

/-! ### The calls of the store -/

/-- The records of an execution with the children its nodes were expanded into. -/
structure ExpansionState extends SignalState where
  subExecs : String × String → List SubExecution := fun _ => []

/-- What a report of a child is answered. -/
structure ExpansionAnswer where
  allDone : Bool := false
  accepted : Bool := false
  results : List Data := []
  deriving DecidableEq

/-- Record the report of a child: the first one with the identifier is written, if it still runs. -/
def recordReport (childExecID : String) (status : ExecutionStatus) (result : Option Data) :
    List SubExecution → List SubExecution
  | [] => []
  | sub :: subs =>
    if sub.childExecID ≠ childExecID then sub :: recordReport childExecID status result subs
    else if sub.status = .running then { sub with status := status, result := result } :: subs
    else sub :: subs

/-- `expansionResults`: the results that were reported, in the order of the batches. -/
def expansionResults (subs : List SubExecution) : List Data :=
  (subs.insertionSort (fun a b => a.batchIndex ≤ b.batchIndex)).filterMap (·.result)

namespace ExpansionState

/-- `BeginTaskExpansionWithOutbox`: let a node that is being committed wait for its children.
Reports whether it does. -/
def beginTaskExpansionWithOutbox (s : ExpansionState) (lease : TaskLease)
    (children : List SubExecution) (entries : List OutboxEntry) :
    Except String (ExpansionState × Bool) :=
  let name := lease.task.nodeName
  if children.length ≠ entries.length then .error errInvalidLeaseToken
  else
    match s.nodes name with
    | none => .ok (s, false)
    | some row =>
      if ¬ row.matchesExpansionLease lease .committing then .ok (s, false)
      else if (children.zip entries).any (fun (child, entry) => child.childExecID = "" ∨
          child.parentExecID ≠ s.id ∨ child.parentNode ≠ name ∨ entry.id = "") then
        .error errInvalidLeaseToken
      else
        .ok ({ s with
          nodes := update s.nodes name (some { row with status := .waiting })
          subExecs := update s.subExecs lease.expansionSubExecutionKey
            (s.subExecs lease.expansionSubExecutionKey ++ children)
          outbox := entries.foldl putEntry s.outbox }, true)

/-- `CompleteExpandedSubExecution`: report a child of a node that waits under the lease.  The report
that finds every child finished is answered with their results. -/
def completeExpandedSubExecution (s : ExpansionState) (lease : TaskLease) (childExecID : String)
    (status : ExecutionStatus) (result : Option Data) :
    Except String (ExpansionState × ExpansionAnswer) :=
  if childExecID = "" then .error errInvalidLeaseToken
  else
    match s.nodes lease.task.nodeName with
    | none => .ok (s, {})
    | some row =>
      if ¬ row.matchesExpansionLease lease .waiting then .ok (s, {})
      else if ¬ (s.subExecs lease.expansionSubExecutionKey).any (·.childExecID = childExecID) then
        .ok (s, {})
      else
        let subs :=
          recordReport childExecID status result (s.subExecs lease.expansionSubExecutionKey)
        .ok ({ s with subExecs := update s.subExecs lease.expansionSubExecutionKey subs },
          if subs.all (·.status.isTerminal) then
            { allDone := true, accepted := true, results := expansionResults subs }
          else { accepted := true })

end ExpansionState

/-! ### Reports -/

/-- The children of a new generation: all run, each has its own identifier and its own batch. -/
structure FreshChildren (children : List SubExecution) : Prop where
  running : ∀ child ∈ children, child.status = .running
  identifiers : (children.map (·.childExecID)).Nodup
  batches : (children.map (·.batchIndex)).Nodup

instance (children : List SubExecution) : Decidable (FreshChildren children) :=
  decidable_of_iff ((∀ child ∈ children, child.status = .running) ∧
      (children.map (·.childExecID)).Nodup ∧ (children.map (·.batchIndex)).Nodup)
    ⟨fun h => ⟨h.1, h.2.1, h.2.2⟩, fun h => ⟨h.1, h.2, h.3⟩⟩

theorem freshChildren_expansionChildren {id : String} {lease : TaskLease} {batches : Nat} :
  FreshChildren (expansionChildren id lease batches)
  := by
  constructor
  case running =>
    intro child mem
    obtain ⟨i, -, rfl⟩ := mem_map.mp mem
    rfl
  case identifiers =>
    rw [expansionChildren, map_map]
    apply List.Nodup.map _ nodup_range
    intro i j same
    exact Int.ofNat.inj (Keys.toString_int_inj ((String.append_right_inj _).mp same))
  case batches =>
    rw [expansionChildren, map_map]
    apply List.Nodup.map _ nodup_range
    intro i j same
    exact Int.ofNat.inj same

/-- A report of a child, with the lease it carries. -/
structure ExpansionReport where
  lease : TaskLease
  childExecID : String
  status : ExecutionStatus
  result : Option Data

/-- The report is one of a child under a key. -/
def ExpansionReport.isOf (r : ExpansionReport) (key : String × String) (childExecID : String) :
    Bool :=
  r.lease.expansionSubExecutionKey = key ∧ r.childExecID = childExecID

/-- The first report that a child under a key finished. -/
def firstTerminal (reports : List ExpansionReport) (key : String × String) (childExecID : String) :
    Option ExpansionReport :=
  reports.find? fun r => r.isOf key childExecID ∧ r.status.isTerminal

namespace SubExecution

/-- What a report makes of a child under a key. -/
def receive (key : String × String) (sub : SubExecution) (r : ExpansionReport) : SubExecution :=
  if r.isOf key sub.childExecID ∧ sub.status = .running then
    { sub with status := r.status, result := r.result }
  else sub

/-- What a list of reports makes of a child under a key. -/
def replay (key : String × String) (reports : List ExpansionReport) (sub : SubExecution) :
    SubExecution :=
  reports.foldl (receive key) sub

variable {key : String × String} {reports : List ExpansionReport} {sub : SubExecution}
    {r : ExpansionReport}

@[simp]
theorem replay_keeps :
  (sub.replay key reports).childExecID = sub.childExecID ∧
    (sub.replay key reports).batchIndex = sub.batchIndex
  := by
  induction reports generalizing sub with
  | nil => exact ⟨rfl, rfl⟩
  | cons r reports ih =>
    rw [replay, foldl_cons, ← replay, ih.1, ih.2, receive]
    split <;> exact ⟨rfl, rfl⟩

theorem replay_concat :
  sub.replay key (reports ++ [r]) = (sub.replay key reports).receive key r
  := by
  simp [replay]

theorem replay_of_others (others : ∀ r ∈ reports, r.lease.expansionSubExecutionKey ≠ key) :
  sub.replay key reports = sub
  := by
  induction reports generalizing sub with
  | nil => rfl
  | cons r reports ih =>
    rw [forall_mem_cons] at others
    have left : sub.receive key r = sub := by
      simp [receive, ExpansionReport.isOf, others.1]
    rw [replay, foldl_cons, left]
    exact ih others.2

theorem replay_of_running (running : sub.status = .running) :
  ((sub.replay key reports).status = .running →
      firstTerminal reports key sub.childExecID = none) ∧
    ((sub.replay key reports).status.isTerminal →
      ∃ r, firstTerminal reports key sub.childExecID = some r ∧
        (sub.replay key reports).status = r.status ∧ (sub.replay key reports).result = r.result)
  := by
  induction reports using reverseRecOn with
  | nil =>
    refine ⟨fun _ => rfl, fun finished => ?_⟩
    rw [replay, foldl_nil, running] at finished
    cases finished
  | append_singleton reports r ih =>
    rw [replay_concat, receive, replay_keeps.1, firstTerminal, find?_append]
    rw [firstTerminal] at ih
    grind

end SubExecution

attribute [local simp] SubExecution.receive

theorem recordReport_eq_map {subs : List SubExecution} {r : ExpansionReport}
    (identifiers : (subs.map (·.childExecID)).Nodup) :
  recordReport r.childExecID r.status r.result subs
    = subs.map (fun sub => sub.receive r.lease.expansionSubExecutionKey r)
  := by
  induction subs with
  | nil => rfl
  | cons sub subs ih =>
    rw [map_cons, nodup_cons] at identifiers
    rw [recordReport]
    split
    case isTrue other =>
      rw [ih identifiers.2]
      simp [ExpansionReport.isOf, Ne.symm other]
    case isFalse same =>
      rw [not_not] at same
      -- no other child has the identifier of the report
      have rest : subs.map (fun sub => sub.receive r.lease.expansionSubExecutionKey r) = subs := by
        conv_rhs => rw [← map_id subs]
        apply map_congr_left
        intro sub' mem
        have other : r.childExecID ≠ sub'.childExecID := by grind
        simp [ExpansionReport.isOf, other]
      split <;> simp_all [ExpansionReport.isOf]

/-- The results of finished children are those of the reports that first said so, in the order of
the batches. -/
theorem expansionResults_replay {children : List SubExecution} {key : String × String}
    {reports : List ExpansionReport} (fresh : FreshChildren children)
    (finished : ∀ child ∈ children, (child.replay key reports).status.isTerminal) :
  ∃ order : List SubExecution, order.Perm children ∧
    order.Pairwise (fun a b => a.batchIndex < b.batchIndex) ∧
    expansionResults (children.map (SubExecution.replay key reports))
      = order.filterMap (fun child =>
          (firstTerminal reports key child.childExecID).bind (·.result))
  := by
  let before : SubExecution → SubExecution → Prop := fun a b => a.batchIndex ≤ b.batchIndex
  have perm := perm_insertionSort before children
  refine ⟨children.insertionSort before, perm, ?_, ?_⟩
  · have sorted := pairwise_insertionSort before children
    have distinct := (perm.map (·.batchIndex)).nodup_iff.mpr fresh.batches
    rw [Nodup, pairwise_map] at distinct
    apply (sorted.and distinct).imp
    rintro a b ⟨le, ne⟩
    exact lt_of_le_of_ne le ne
  · rw [expansionResults, ← map_insertionSort before, filterMap_map]
    · apply filterMap_congr
      intro child mem
      rw [mem_insertionSort] at mem
      obtain ⟨r, first, -, result⟩ :=
        (SubExecution.replay_of_running (fresh.running child mem)).2 (finished child mem)
      rw [first, comp_apply, result]
      rfl
    · intro a _ b _
      simp [before]

end Xflow
