import Xflow.Engine.Requests

/-!
# An execution and the engine that drives it

A system is the store of one execution together with the tasks that were ever handed out for it.
An intent of the outbox is delivered at least once: a delivery handles its task and removes the
intent, and a task that was handed out may be delivered again at any time.  Leased nodes and groups
commit when their runners report, with the right credentials or with any others.  A merge that gives
up its other branches cancels them one by one.  The log records the commits that were applied.
-/

namespace Xflow

open List MemoryState Option

/-- A commit that was applied: its unit, and whether it failed and was fatal. -/
structure AppliedCommit where
  unit : Int
  failed : Bool
  fatal : Bool
  deriving DecidableEq

/-- The store of an execution, the tasks handed out for it, and the commits applied to it. -/
structure System where
  store : MemoryState
  issued : List Task
  log : List AppliedCommit

/-- What a delivery offers to lease a node or a group with. -/
structure Claim where
  leaseID : String
  leaseToken : String
  issuedAt : Nat
  ttl : Nat

namespace MemoryState

/-- The execution exists and is not over. -/
def isActive (s : MemoryState) : Bool := s.status?.any (fun st => ¬ st.isTerminal)

/-- Commit a node; reports the commit if it was applied. -/
def commit (g : Topology) (s : MemoryState) (req : CommitNodeRequest) :
    MemoryState × List AppliedCommit :=
  match s.commitNode req with
  | .error _ => (s, [])
  | .ok (t, result) =>
    (t, if result.applied then [⟨g.nodeUnit req.nodeIdx, req.status = .failed, req.fatal⟩] else [])

/-- Commit a group; reports the commit if it was applied. -/
def commitGroup (s : MemoryState) (req : GroupCommitRequest) : MemoryState × List AppliedCommit :=
  let (t, result) := s.commitGroupLocked req
  (t, if result.applied then [⟨req.groupUnitIdx, req.outcome = .failed, req.fatal⟩] else [])

/-- `handleSystemTask`, and the lease of a task it leaves to a runner. -/
def handle (g : Topology) (s : MemoryState) (task : Task) (claim : Claim) :
    MemoryState × List AppliedCommit :=
  let lease : TaskLease := ⟨task, claim.leaseID, claim.leaseToken, 0, claim.issuedAt, claim.ttl⟩
  if ¬ s.isActive then (s, [])
  else
    match task.type with
    | .nodeExec =>
      match (g.disabledRequest task).or
          (g.pinnedRequest (s.execution.any (·.testRun)) task) with
      | some req => s.commit g req
      | none => ((s.acquireTaskLeaseChecked lease g.allowCycles).1, [])
    | .subWorkflow => ((s.acquireTaskLeaseChecked lease g.allowCycles).1, [])
    | .nodeSkip =>
      if 0 ≤ task.nodeIdx ∧ task.nodeIdx < g.nodeCount ∧ 0 ≤ task.unitIdx ∧
          task.unitIdx < g.unitCount
      then s.commit g (g.skipRequest task) else (s, [])
    | .groupExec =>
      if 0 ≤ task.unitIdx ∧ task.unitIdx < g.unitCount ∧ g.unitKindAt task.unitIdx = .group
      then ((s.acquireGroupLease task.unitIdx claim.leaseID claim.leaseToken 1).1, []) else (s, [])
    | _ => (s, [])

end MemoryState

/-- What can happen to an execution. -/
inductive Action where
  /-- An intent is delivered and removed. -/
  | deliver (entryID : String) (claim : Claim)
  /-- A task that was handed out is delivered once more. -/
  | redeliver (task : Task) (claim : Claim)
  /-- The runner of a node reports. -/
  | commitNode (task : Task) (key : LeaseKey) (result : NodeResult)
  /-- The runner of a group reports. -/
  | commitGroup (unitIdx : Int) (key : LeaseKey) (res : GroupResult)
    (order : List DownstreamArrival)
  /-- A merge cancels one of the nodes that reach it. -/
  | cancelNode (task : Task) (nodeIdx : Int)

namespace System

/-- The system after its store changed. -/
def after (σ : System) (store : MemoryState) (applied : List AppliedCommit) : System where
  store := store
  issued := σ.issued ++ store.outbox.map (·.task)
  log := σ.log ++ applied

/-- Take a step, if the action is enabled. -/
def step (g : Topology) : Action → System → Option System
  | .deliver entryID claim, σ =>
    (σ.store.outbox.find? (fun e => e.id = entryID ∧ e.availableAt = .now)).map (fun e =>
      let (s, applied) := σ.store.handle g e.task claim
      σ.after { s with outbox := s.outbox.filter (fun x => x.id ≠ entryID) } applied)
  | .redeliver task claim, σ =>
    if task ∈ σ.issued then
      let (s, applied) := σ.store.handle g task claim
      some (σ.after s applied)
    else none
  | .commitNode task key result, σ =>
    if task ∈ σ.issued ∧ (task.type = .nodeExec ∨ task.type = .subWorkflow) ∧
        result.status ∈ [NodeStatus.success, .failed, .continued] then
      let (s, applied) := σ.store.commit g (g.leasedRequest task key result)
      some (σ.after s applied)
    else none
  | .commitGroup unitIdx key res order, σ =>
    match g.commitGroupResult unitIdx key res order with
    | .error _ => none
    | .ok req =>
      let (s, applied) := σ.store.commitGroup req
      some (σ.after s applied)
  | .cancelNode task i, σ =>
    if task ∈ σ.issued ∧ task.type = .mergeCancel ∧ i ∈ g.cancelClosure task.nodeIdx then
      (g.cancelRequest σ.store task i).map (fun req =>
        let (s, applied) := σ.store.commit g req
        σ.after s applied)
    else none

end System

/-! ### Starting an execution -/

namespace Topology

variable (g : Topology)

def startIndex : Int :=
  ((g.nodes.findIdx? (fun n => n.type = "xflow.start")).map Nat.cast).getD (-1)

/-- The initial task of a root unit. -/
def rootTask (u : Int) : Task :=
  match g.groupMetaAt u with
  | some gm => { nodeName := gm.name, nodeIdx := gm.entryIdx, unitIdx := u, type := .groupExec }
  | none =>
    let i := (g.unitAt u).nodeIdx
    { nodeName := g.nodeName i
      nodeIdx := i
      unitIdx := u
      type := execTaskTypeForNode (g.nodeAt i) }

/-- `submitInitialTasks`: one task for each root unit, or the start node of a graph with cycles. -/
def submitInitialTasks : List Task :=
  if g.allowCycles then
    let start := g.nodeAt g.startIndex
    [{ nodeName := start.name, nodeIdx := g.startIndex, type := execTaskTypeForNode start
       activationID := 1 }]
  else ((indices g.units).filter (fun u => g.unitInDegreeAt u = 0)).map g.rootTask

/-- `UnselectedRootSkips`: a skip task for each single-node root that was not selected.  Group roots
are left alone. -/
def unselectedRootSkips (selectedUnit : Int) : List Task :=
  if g.allowCycles then []
  else
    ((indices g.units).filter (fun u =>
      ¬ (u = selectedUnit ∨ g.unitInDegreeAt u ≠ 0 ∨ g.unitKindAt u ≠ .node))).map
      (fun u =>
        let i := (g.unitAt u).nodeIdx
        { nodeName := g.nodeName i, nodeIdx := i, unitIdx := u, type := .nodeSkip })

/-- The tasks that `Invoke` writes for an entry node: the node itself, and skips of the other
roots. -/
def invokeTasks (entryIdx : Int) : List Task :=
  let entry := g.nodeAt entryIdx
  { nodeName := entry.name
    nodeIdx := entryIdx
    type := execTaskTypeForNode entry
    activationID := 1 } :: g.unselectedRootSkips (g.nodeUnit entryIdx)

end Topology

namespace System

/-- `startExecution`: create a running execution with the intents of its initial tasks.  An
execution of a limited workflow holds a slot. -/
def start (g : Topology) (id : String) (testRun limited : Bool) (tasks : List Task) : System :=
  let entries := tasks.map (fun task =>
    (⟨initialOutboxID id task.nodeName task.activationID, task, .now⟩ : OutboxEntry))
  let s := writeInitialIntents entries false
    (createExecution g id { status := .running, testRun := testRun }
      (if limited then .holder else .free))
  { store := s, issued := s.outbox.map (·.task), log := [] }

/-- `Submit`: start from all roots. -/
def submit (g : Topology) (id : String) (testRun limited : Bool) : System :=
  start g id testRun limited g.submitInitialTasks

/-- `Invoke`: start from one entry node; `none` if there is no such entry. -/
def invoke (g : Topology) (id : String) (testRun limited : Bool) (entryName : String) :
    Option System :=
  (g.entryIndex entryName).map (fun entryIdx =>
    start g id testRun limited (g.invokeTasks entryIdx))

end System

/-! ### What a step does -/

namespace Topology

variable {g : Topology}

/-- A task that the engine can handle: a task to run or to skip names its node, a node to run is a
unit of its own, and a task to run a group has the unit of a group. -/
def Handles (g : Topology) (task : Task) : Prop :=
  match task.type with
  | .nodeExec | .subWorkflow =>
    g.NamesNode task ∧ g.unitKindAt (g.nodeUnit task.nodeIdx) = .node
  | .nodeSkip => g.NamesNode task ∧ task.unitIdx = g.nodeUnit task.nodeIdx
  | .groupExec => g.isUnit task.unitIdx ∧ g.unitKindAt task.unitIdx = .group
  | .mergeCancel => True
  | _ => False

theorem src_of_mem_closureVisit {merge : Int} {fuel : Nat} {node : Int} {acc : List Int × List Int}
    (hnode : node = merge ∨ ∃ e ∈ g.edges, e.srcIdx = node)
    (hacc : ∀ i ∈ acc.2, ∃ e ∈ g.edges, e.srcIdx = i) :
  ∀ i ∈ (g.closureVisit merge fuel node acc).2, ∃ e ∈ g.edges, e.srcIdx = i
  := by
  induction fuel generalizing node acc with
  | zero => exact hacc
  | succ fuel ih =>
    have hfold : ∀ i ∈ ((g.nodeInEdges node).foldl
        (fun acc e =>
          if e.srcIdx ∈ acc.1 then acc
          else g.closureVisit merge fuel e.srcIdx (e.srcIdx :: acc.1, acc.2)) acc).2,
        ∃ e ∈ g.edges, e.srcIdx = i := by
      refine foldlRecOn (motive := fun acc : List Int × List Int =>
        ∀ i ∈ acc.2, ∃ e ∈ g.edges, e.srcIdx = i) _ _ hacc fun acc hacc e he => ?_
      split
      · exact hacc
      · exact ih (.inr ⟨e, (mem_filter.mp he).1, rfl⟩) hacc
    intro i hi
    simp only [closureVisit] at hi
    split at hi
    · apply hfold i hi
    · grind

theorem isDataNode_of_mem_cancelClosure {merge i : Int} (hi : i ∈ g.cancelClosure merge) :
  isDataNode g.nodes i
  := by
  unfold cancelClosure at hi
  split at hi
  · cases hi
  · obtain ⟨e, he, rfl⟩ := src_of_mem_closureVisit (.inl rfl) (by simp) i hi
    apply (g.edges_data e he).1

end Topology

namespace System

open Xflow.Topology

/-- The transitions of the store that the engine makes: a lease of a task handed out, or a commit of
the engine.  A commit of a member of a group carries out a skip task. -/
inductive Move (g : Topology) (issued : List Task) (s : MemoryState) :
    MemoryState → List AppliedCommit → Prop where
  | stay : Move g issued s s []
  | leaseNode (task : Task) (lease : MemoryState.TaskLease) (hissued : task ∈ issued)
      (htype : task.type = .nodeExec ∨ task.type = .subWorkflow) (htask : lease.task = task) :
      Move g issued s (s.acquireTaskLeaseChecked lease g.allowCycles).1 []
  | leaseGroup (task : Task) (leaseID leaseToken : String) (hissued : task ∈ issued)
      (htype : task.type = .groupExec) :
      Move g issued s (s.acquireGroupLease task.unitIdx leaseID leaseToken 1).1 []
  | commitNode (req : CommitNodeRequest) (hreq : g.EngineCommit req)
      (hunit : g.unitKindAt (g.nodeUnit req.nodeIdx) = .node ∨
        ∃ task ∈ issued, task.type = .nodeSkip ∧ task.nodeIdx = req.nodeIdx) :
      Move g issued s (s.commit g req).1 (s.commit g req).2
  | commitGroup (req : GroupCommitRequest) (hreq : g.EngineGroupCommit req) :
      Move g issued s (s.commitGroup req).1 (s.commitGroup req).2

variable {g : Topology} {issued : List Task} {s : MemoryState}

theorem move_handle {task : Task} {claim : Claim} (hissued : task ∈ issued)
    (hhandles : g.Handles task) :
  Move g issued s (s.handle g task claim).1 (s.handle g task claim).2
  := by
  unfold Handles at hhandles
  fun_cases s.handle g task claim with
  | case2 _ htype req hreq =>
    rw [htype] at hhandles
    obtain ⟨status, output, rfl, hstatus⟩ := intercept_cases hreq
    exact .commitNode _ (engineCommit_interceptRequest hhandles.1 hstatus) (.inl hhandles.2)
  | case3 lease _ htype => exact .leaseNode task _ hissued (.inl htype) rfl
  | case4 lease _ htype => exact .leaseNode task _ hissued (.inr htype) rfl
  | case5 _ htype =>
    rw [htype] at hhandles
    exact .commitNode _ (engineCommit_skipRequest hhandles.1) (.inr ⟨task, hissued, htype, rfl⟩)
  | case7 _ htype => exact .leaseGroup task _ _ hissued htype
  | _ => apply Move.stay

theorem Move.mono {issued' : List Task} {t : MemoryState} {applied : List AppliedCommit}
    (hsub : issued ⊆ issued') (h : Move g issued s t applied) :
  Move g issued' s t applied
  := by
  cases h with
  | stay => apply Move.stay
  | leaseNode task lease hissued htype htask =>
    exact Move.leaseNode task lease (hsub hissued) htype htask
  | leaseGroup task leaseID leaseToken hissued htype =>
    exact Move.leaseGroup task leaseID leaseToken (hsub hissued) htype
  | commitNode req hreq hunit =>
    apply Move.commitNode req hreq
    grind
  | commitGroup req hreq => exact Move.commitGroup req hreq

/-- The tasks that an action handles. -/
def handledTasks (a : Action) (σ : System) : List Task :=
  match a with
  | .deliver entryID _ => (σ.store.outbox.filter (fun e => e.id = entryID)).map (·.task)
  | .redeliver task _ => [task]
  | _ => []

section

variable {a : Action} {σ τ : System} (hhandles : ∀ task ∈ σ.issued, g.Handles task)
  (h : step g a σ = some τ)

include hhandles h

theorem step_cases :
  (∃ entryID claim e, a = .deliver entryID claim ∧ e ∈ σ.store.outbox ∧ e.id = entryID ∧
    τ = σ.after { (σ.store.handle g e.task claim).1 with
      outbox := (σ.store.handle g e.task claim).1.outbox.filter (fun x => x.id ≠ entryID) }
      (σ.store.handle g e.task claim).2) ∨
  (∃ task claim, a = .redeliver task claim ∧ task ∈ σ.issued ∧
    τ = σ.after (σ.store.handle g task claim).1 (σ.store.handle g task claim).2) ∨
  ∃ s applied, handledTasks a σ = [] ∧ Move g [] σ.store s applied ∧ τ = σ.after s applied
  := by
  cases a with
  | deliver entryID claim =>
    left
    obtain ⟨e, hfind, rfl⟩ := map_eq_some_iff.mp h
    grind
  | redeliver task claim =>
    right
    left
    obtain ⟨hissued, ⟨⟩⟩ := ite_none_right_eq_some.mp h
    exact ⟨task, claim, rfl, hissued, rfl⟩
  | commitNode task key result =>
    right
    right
    obtain ⟨hcond, h⟩ := ite_none_right_eq_some.mp h
    obtain ⟨hissued, htype, hstatus⟩ := hcond
    obtain rfl := some.inj h
    have htask := hhandles task hissued
    have hnode : g.NamesNode task ∧ g.unitKindAt (g.nodeUnit task.nodeIdx) = .node := by
      unfold Handles at htask
      rcases htype with htype | htype <;> rw [htype] at htask <;> exact htask
    have hterminal : result.status.isTerminal := by
      simp only [mem_cons, not_mem_nil, or_false] at hstatus
      rcases hstatus with hstatus | hstatus | hstatus <;> rw [hstatus] <;> rfl
    exact ⟨_, _, rfl, Move.commitNode _ (engineCommit_leasedRequest hnode.1 hterminal)
      (.inl hnode.2), rfl⟩
  | commitGroup unitIdx key res order =>
    right
    right
    simp only [step] at h
    split at h
    · cases h
    · rename_i req hreq
      obtain rfl := some.inj h
      exact ⟨_, _, rfl, Move.commitGroup req (engineGroupCommit_of_ok hreq).1, rfl⟩
  | cancelNode task i =>
    right
    right
    obtain ⟨hcond, h⟩ := ite_none_right_eq_some.mp h
    obtain ⟨req, hreq, rfl⟩ := map_eq_some_iff.mp h
    obtain ⟨hcommit, hidx, hkind⟩ :=
      engineCommit_cancelRequest (isDataNode_of_mem_cancelClosure hcond.2.2) hreq
    exact ⟨_, _, rfl, Move.commitNode req hcommit (.inl (by rwa [hidx])), rfl⟩

theorem step_moves (houtbox : ∀ e ∈ σ.store.outbox, e.task ∈ σ.issued) :
  ∃ s applied keep, handledTasks a σ ⊆ σ.issued ∧
    Move g (handledTasks a σ) σ.store s applied ∧
    τ = σ.after { s with outbox := s.outbox.filter keep } applied
  := by
  have hall (s : MemoryState) : { s with outbox := s.outbox.filter (fun _ => true) } = s := by
    simp
  rcases step_cases hhandles h with ⟨entryID, claim, e, rfl, he, hid, rfl⟩ |
    ⟨task, claim, rfl, hissued, rfl⟩ | ⟨s, applied, hnone, hmove, rfl⟩
  · refine ⟨_, _, _, ?_, move_handle ?_ (hhandles _ (houtbox e he)), rfl⟩
    · intro task htask
      obtain ⟨x, hx, rfl⟩ := mem_map.mp htask
      exact houtbox x (mem_filter.mp hx).1
    · apply List.mem_map_of_mem
      simp [he, hid]
  · refine ⟨(σ.store.handle g task claim).1, (σ.store.handle g task claim).2, fun _ => true, ?_,
      move_handle (mem_singleton_self task) (hhandles _ hissued), ?_⟩
    · simpa [handledTasks] using hissued
    · rw [hall]
  · refine ⟨s, applied, fun _ => true, ?_, ?_, ?_⟩
    · simp [hnone]
    · rwa [hnone]
    · rw [hall]

end

end System

end Xflow
