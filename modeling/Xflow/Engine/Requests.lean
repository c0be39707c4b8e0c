import Xflow.Graph.Fanout
import Xflow.Store.Status

/-!
# The commits the engine asks for

How the engine turns a task into a request to the store: the skip of a unit whose inputs are all
inactive, the commits of disabled and pinned nodes that are never leased, the commit of a leased
node, the cancellation of a branch that a merge gave up, and the commit of a group.  Each request of
a node carries the arrivals at its successors (`EngineCommit`).
-/

namespace Xflow

/-- What the handler of a leased node reports, after the error policy of the node was applied. -/
structure NodeResult where
  status : NodeStatus
  output : Option Data := none
  port : String
  error : String := ""
  errorDetails : Data := []
  fatal : Bool := false
  /-- The outputs that a successful commit deletes. -/
  reclaim : List String := []

/-- The credentials of a lease. -/
structure LeaseKey where
  leaseID : String
  leaseToken : String
  attempt : Int

/-- What a runner reports of a group. -/
structure GroupResult where
  outcome : GroupOutcome
  exits : List GroupExit := []
  error : String := ""
  failedMember : String := ""

/-- Why the commit of a group is not asked for. -/
inductive GroupCommitError where
  | invalidUnit (unitIdx : Int)
  | unknownExit (nodeName : String)
  | invalidExit (nodeName port : String)
  | panics

namespace Topology

variable (g : Topology)

/-! ### Requests without a lease -/

/-- `privateOutputForTask`: whether the output of the node of a task is private; so is that of a
task that does not name its node. -/
def privateOutputForTask (task : Task) : Bool :=
  if task.nodeIdx < 0 ∨ g.nodeCount ≤ task.nodeIdx then true
  else
    let node := g.nodeAt task.nodeIdx
    if node.name ≠ task.nodeName then true else node.privateOutput

/-- The request that `handleSystemTask` builds for a skip task.  The empty port makes all out-edges
inactive. -/
def skipRequest (task : Task) : CommitNodeRequest where
  nodeName := task.nodeName
  nodeIdx := task.nodeIdx
  unitIdx := task.unitIdx
  activationID := task.activationID
  autoDepth := task.autoDepth
  status := .skipped
  privateOutput := g.privateOutputForTask task
  system := true
  arrivals := g.downstreamArrivals task.nodeIdx ""

/-- The task names a single node that the engine may commit in place of leasing it. -/
def interceptable (task : Task) : Bool :=
  ¬ g.allowCycles ∧ 0 ≤ task.nodeIdx ∧ task.nodeIdx < g.nodeCount ∧
    (g.nodeAt task.nodeIdx).name = task.nodeName ∧ 0 ≤ g.nodeUnit task.nodeIdx ∧
    g.unitKindAt (g.nodeUnit task.nodeIdx) = .node

/-- A commit on the main port of a node that is not leased. -/
def interceptRequest (task : Task) (status : NodeStatus) (output : Option Data) :
    CommitNodeRequest where
  nodeName := task.nodeName
  nodeIdx := task.nodeIdx
  unitIdx := g.nodeUnit task.nodeIdx
  activationID := task.activationID
  autoDepth := task.autoDepth
  status := status
  output := output
  storeOutput := output.isSome
  privateOutput := g.privateOutputForTask task
  port := "main"
  system := true
  arrivals := g.downstreamArrivals task.nodeIdx "main"

/-- `handleDisabledNode`: a disabled node is skipped, but its successors run. -/
def disabledRequest (task : Task) : Option CommitNodeRequest :=
  if g.hasDisabledNodes ∧ g.interceptable task ∧ (g.nodeAt task.nodeIdx).disabled
  then some (g.interceptRequest task .skipped none) else none

/-- `pinAppliesTo`: whether the pinned outputs apply to an execution. -/
def pinAppliesTo (testRun : Bool) : Bool :=
  match g.pinDataMode with
  | .off => false
  | .always => true
  | .testOnly => testRun

/-- `handlePinnedNode`: a pinned node commits its pinned output. -/
def pinnedRequest (testRun : Bool) (task : Task) : Option CommitNodeRequest :=
  if g.interceptable task ∧ g.pinAppliesTo testRun then
    (g.nodeAt task.nodeIdx).pinOutput.map (fun mock => g.interceptRequest task .pinned (some mock))
  else none

/-! ### Merges that give up their other branches -/

/-- `mergeOnOthers`: what a merge does with the branches that have not reached it; `none` for a
value that is no policy. -/
def mergeOnOthers (params : Data) : Option String :=
  match params.lookup "on_others" with
  | none | some .null => some "cancel"
  | some (.str s) =>
    if s = "" then some "cancel"
    else if s = "cancel" ∨ s = "detach" then some s
    else none
  | some _ => none

def mergeCancelsOthers (i : Int) : Bool :=
  ¬ g.allowCycles ∧ 0 ≤ i ∧ i < g.nodeCount ∧ (g.nodeAt i).mergeMode = "wait_any" ∧
    mergeOnOthers (g.nodeAt i).parameters = some "cancel"

/-- The in-edges of a node. -/
def nodeInEdges (i : Int) : List Edge := g.edges.filter (fun e => e.dstIdx = i)

/-- Visit the ancestors of a node that were not seen, each after its own ancestors. -/
def closureVisit (merge : Int) : Nat → Int → List Int × List Int → List Int × List Int
  | 0, _, acc => acc
  | fuel + 1, node, acc =>
    let (seen, out) := (g.nodeInEdges node).foldl
      (fun acc e =>
        if e.srcIdx ∈ acc.1 then acc
        else closureVisit merge fuel e.srcIdx (e.srcIdx :: acc.1, acc.2))
      acc
    (seen, if node = merge then out else out ++ [node])

/-- `CancelClosure`: the nodes that reach a node, each after its own ancestors. -/
def cancelClosure (i : Int) : List Int :=
  if g.allowCycles ∨ i < 0 ∨ g.nodeCount ≤ i then []
  else (g.closureVisit i (g.nodes.length + 1) i ([i], [])).2

/-- `cancelClosureNode`: the request that cancels one node of the closure, `none` for a node that is
left alone. -/
def cancelRequest (s : MemoryState) (task : Task) (i : Int) : Option CommitNodeRequest :=
  let row := s.nodes (g.nodeName i)
  if g.unitKindAt (g.nodeUnit i) = .group then none
  else if row.any (fun n => n.status.isTerminal ∨ n.status = .waiting) then none
  else some {
    nodeName := g.nodeName i
    nodeIdx := i
    unitIdx := g.nodeUnit i
    activationID := ((row.map (·.activationID)).filter (0 < ·)).getD task.activationID
    status := .canceled
    system := true
    error := "canceled by merge " ++ g.nodeName task.nodeIdx
    arrivals := g.downstreamArrivals i "" }

/-! ### Leased nodes -/

/-- The intent to cancel the other branches of a merge. -/
def mergeCancelTask (task : Task) : Task where
  nodeName := task.nodeName
  nodeIdx := task.nodeIdx
  unitIdx := task.unitIdx
  type := .mergeCancel
  activationID := task.activationID

/-- `commitAcyclicNodeWithReclaimEligibility`: the commit of a leased node.  A fatal commit has no
successors. -/
def leasedRequest (task : Task) (key : LeaseKey) (result : NodeResult) : CommitNodeRequest :=
  let goesOn := result.status = .success ∧ ¬ result.fatal
  { nodeName := task.nodeName
    nodeIdx := task.nodeIdx
    unitIdx := task.unitIdx
    activationID := task.activationID
    autoDepth := task.autoDepth
    leaseID := key.leaseID
    leaseToken := key.leaseToken
    attempt := key.attempt
    status := result.status
    output := result.output
    storeOutput := true
    reclaimOutputNames := if goesOn then result.reclaim else []
    privateOutput := g.privateOutputForTask task
    port := result.port
    error := result.error
    errorDetails := result.errorDetails
    fatal := result.fatal
    mergeCancel :=
      if goesOn ∧ g.mergeCancelsOthers task.nodeIdx then some (mergeCancelTask task) else none
    arrivals := if result.fatal then [] else g.downstreamArrivals task.nodeIdx result.port }

/-! ### Groups -/

def groupOnErrorFatal (onError : String) : Bool := onError ≠ "continue" ∧ onError ≠ "error_output"

/-- `groupResultError`: the error of a group that did not succeed. -/
def groupResultError (res : GroupResult) : Option String :=
  match res.outcome with
  | .success => none
  | .failed => some (if res.error ≠ "" then res.error else "group failed")
  | .timeout => some (if res.error ≠ "" then res.error else "group timeout")
  | .canceled => some (if res.error ≠ "" then res.error else "group canceled")

def groupExitOutputIsPrivate (name : String) : Bool :=
  (g.nodeIndex name).all (fun i => (g.nodeAt i).privateOutput)

/-- `groupErrorOutputData`: the output of a group whose failure is routed to its error output. -/
def groupErrorOutputData (gm : GroupMeta) (error failedMember : String) : Data :=
  [("group", .str gm.name), ("error", .obj [("message", .str error)])] ++
    if failedMember ≠ "" then [("failed_members", .arr [.str failedMember])] else []

/-- `commitGroup`: the commit of a group unit whose downstream arrivals are given.  A failure that
is not fatal is committed as a success. -/
def groupRequest (gm : GroupMeta) (unitIdx : Int) (key : LeaseKey) (exits : List GroupExit)
    (fatal routeToErrorOutput : Bool) (error : Option String) (failedMember : String)
    (downstream : List DownstreamArrival) : GroupCommitRequest where
  groupUnitIdx := unitIdx
  leaseToken := key.leaseToken
  attempt := key.attempt
  outcome := if error.isSome ∧ fatal then .failed else .success
  exits :=
    exits.map (fun ex => {
      nodeIdx := g.nodeIdxOf ex.nodeName
      nodeName := ex.nodeName
      port := ex.port
      data := ex.data
      privateOutput := g.groupExitOutputIsPrivate ex.nodeName }) ++
    if routeToErrorOutput then [{
      nodeIdx := -1
      nodeName := gm.name
      port := "error"
      data := groupErrorOutputData gm (error.getD "") failedMember }]
    else []
  error := error.getD ""
  fatal := fatal
  downstream := downstream

/-- The exits are boundary outputs of the unit. -/
def validateExits (unitIdx : Int) : List GroupExit → Except GroupCommitError Unit
  | [] => .ok ()
  | ex :: exits =>
    match g.nodeIndex ex.nodeName with
    | none => .error (.unknownExit ex.nodeName)
    | some i =>
      if ⟨i, ex.port⟩ ∈ g.boundaryOutputs unitIdx then validateExits unitIdx exits
      else .error (.invalidExit ex.nodeName ex.port)

/-- Whether a report of a group fails the execution.  The policy of the group governs failures, not
timeouts and cancellations. -/
def groupFatal (gm : GroupMeta) : GroupOutcome → Bool
  | .success => false
  | .failed => groupOnErrorFatal gm.onError
  | .timeout | .canceled => true

/-- Whether a report of a group is routed to its error output. -/
def groupRoutes (gm : GroupMeta) (outcome : GroupOutcome) : Bool :=
  outcome = .failed ∧ ¬ groupFatal gm outcome ∧ gm.onError = "error_output"

/-- `CommitGroupResult`: check the report of a runner and ask for the commit of its group.  The walk
to the successors may panic; it returns its arrivals in any order, of which `order` is one. -/
def commitGroupResult (unitIdx : Int) (key : LeaseKey) (res : GroupResult)
    (order : List DownstreamArrival) : Except GroupCommitError GroupCommitRequest :=
  if unitIdx < 0 ∨ g.unitCount ≤ unitIdx then .error (.invalidUnit unitIdx)
  else
    match g.groupMetaAt unitIdx with
    | none => .error (.invalidUnit unitIdx)
    | some gm =>
      match g.validateExits unitIdx res.exits with
      | .error err => .error err
      | .ok () =>
        let fatal := groupFatal gm res.outcome
        let route := groupRoutes gm res.outcome
        let arrivals? := if fatal then some [] else g.downstreamUnitArrivals unitIdx res.exits route
        match arrivals? with
        | none => .error .panics
        | some arrivals =>
          .ok (g.groupRequest gm unitIdx key res.exits fatal route (groupResultError res)
            res.failedMember (if order.isPerm arrivals then order else arrivals))

/-! ### What the requests have in common -/

variable {g}

/-- A commit of a node as the engine asks for it in an acyclic graph: it names a data node, ends it,
carries the arrivals at its successors unless it is fatal, and has no advance task. -/
structure EngineCommit (g : Topology) (req : CommitNodeRequest) : Prop where
  data : isDataNode g.nodes req.nodeIdx
  name : req.nodeName = g.nodeName req.nodeIdx
  terminal : req.status.isTerminal
  acyclic : req.allowCycles = false
  advance : req.advanceTask = none
  arrivals : req.arrivals = if req.fatal then [] else g.downstreamArrivals req.nodeIdx req.port
  valid : ∀ id, req.validate id = none
  merge : ∀ task, req.mergeCancel = some task →
    task.type = .mergeCancel ∧ task.nodeIdx = req.nodeIdx

/-- The task names the data node of its index. -/
structure NamesNode (g : Topology) (task : Task) : Prop where
  data : isDataNode g.nodes task.nodeIdx
  name : task.nodeName = g.nodeName task.nodeIdx

variable {task : Task} {req : CommitNodeRequest}

attribute [local simp] CommitNodeRequest.validate

theorem engineCommit_skipRequest (h : g.NamesNode task) :
  g.EngineCommit (g.skipRequest task)
  where
  __ := h
  terminal := rfl
  acyclic := rfl
  advance := rfl
  arrivals := rfl
  valid _ := by simp [skipRequest]
  merge _ hmerge := by cases hmerge

theorem engineCommit_interceptRequest {status : NodeStatus} {output : Option Data}
    (h : g.NamesNode task) (hstatus : status = .skipped ∨ status = .pinned) :
  g.EngineCommit (g.interceptRequest task status output)
  where
  __ := h
  terminal := by rcases hstatus with rfl | rfl <;> rfl
  acyclic := rfl
  advance := rfl
  arrivals := rfl
  valid _ := by simp [interceptRequest]
  merge _ hmerge := by cases hmerge

theorem intercept_cases {testRun : Bool}
    (h : (g.disabledRequest task).or (g.pinnedRequest testRun task) = some req) :
  ∃ status output, req = g.interceptRequest task status output ∧
    (status = .skipped ∨ status = .pinned)
  := by
  rcases Option.or_eq_some_iff.mp h with hreq | ⟨-, hreq⟩
  · unfold disabledRequest at hreq
    split at hreq
    · cases hreq
      exact ⟨_, _, rfl, .inl rfl⟩
    · cases hreq
  · unfold pinnedRequest at hreq
    split at hreq
    · obtain ⟨mock, -, rfl⟩ := Option.map_eq_some_iff.mp hreq
      exact ⟨_, _, rfl, .inr rfl⟩
    · cases hreq

theorem engineCommit_cancelRequest {s : MemoryState} {i : Int}
    (hi : isDataNode g.nodes i) (h : g.cancelRequest s task i = some req) :
  g.EngineCommit req ∧ req.nodeIdx = i ∧ g.unitKindAt (g.nodeUnit i) = .node
  := by
  obtain ⟨hkind, h⟩ := Option.ite_none_left_eq_some.mp h
  split at h
  · cases h
  · cases h
    refine ⟨⟨hi, rfl, rfl, rfl, rfl, rfl, by simp, by simp⟩, rfl, ?_⟩
    cases hk : g.unitKindAt (g.nodeUnit i) with
    | node => rfl
    | group => exact absurd hk hkind

theorem engineCommit_leasedRequest {key : LeaseKey} {result : NodeResult}
    (h : g.NamesNode task) (hstatus : result.status.isTerminal) :
  g.EngineCommit (g.leasedRequest task key result)
  where
  __ := h
  terminal := hstatus
  acyclic := rfl
  advance := rfl
  arrivals := rfl
  valid _ := by
    by_cases hfatal : result.fatal <;> by_cases hsuccess : result.status = .success <;>
      simp [leasedRequest, hfatal, hsuccess, CommitNodeRequest.isPlainSuccess]
  merge task' hmerge := by
    simp only [leasedRequest] at hmerge
    split at hmerge
    · cases hmerge
      exact ⟨rfl, rfl⟩
    · cases hmerge

/-- A commit of a group as the engine asks for it: it is for a group unit, is fatal if it failed,
and carries the arrivals at all successors unless it is fatal. -/
structure EngineGroupCommit (g : Topology) (req : GroupCommitRequest) : Prop where
  unit : g.isUnit req.groupUnitIdx
  kind : g.unitKindAt req.groupUnitIdx = .group
  names : ∀ a ∈ req.downstream, g.Names a
  arrived : req.fatal = false → ∀ d,
    arrivedAt req.downstream d = g.unitGraph.multiplicity req.groupUnitIdx d
  quiet : req.fatal → req.downstream = []

theorem engineGroupCommit_of_ok {unitIdx : Int} {key : LeaseKey} {res : GroupResult}
    {order : List DownstreamArrival} {req : GroupCommitRequest}
    (h : g.commitGroupResult unitIdx key res order = .ok req) :
  g.EngineGroupCommit req ∧ req.groupUnitIdx = unitIdx
  := by
  revert h
  fun_cases commitGroupResult g unitIdx key res order with
  | case5 hrange gm hgm _ _ _ arrivals? arrivals harrivals =>
    rintro ⟨⟩
    have hkind : g.unitKindAt unitIdx = .group := by
      by_contra hkind
      simp [groupMetaAt, hkind] at hgm
    have hunit : g.isUnit unitIdx := by
      rw [isUnit, mem_indices]
      simp only [unitCount] at hrange
      omega
    have hperm : (if order.isPerm arrivals then order else arrivals).Perm arrivals := by
      split
      · rename_i hp
        apply List.isPerm_iff.mp hp
      · apply List.Perm.refl
    refine ⟨⟨hunit, hkind, ?_, ?_, ?_⟩, rfl⟩
    · intro a ha
      have ha' := hperm.mem_iff.mp ha
      dsimp only [arrivals?] at harrivals
      split at harrivals
      · cases harrivals
        cases ha'
      · apply (downstreamUnitArrivals_spec harrivals).2.1 a ha'
    · intro hfatal d
      replace harrivals := (if_neg (by simpa [groupRequest] using hfatal)).symm.trans harrivals
      exact (arrivedAt_perm hperm d).trans ((downstreamUnitArrivals_spec harrivals).2.2 d)
    · intro hfatal
      cases (if_pos (by simpa [groupRequest] using hfatal)).symm.trans harrivals
      exact List.Perm.eq_nil hperm
  | _ => rintro ⟨⟩

end Topology

end Xflow
