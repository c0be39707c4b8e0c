import Xflow.Engine.Start
import Xflow.Lib.Walk
import Xflow.Store.Seed

/-!
# Rerunning an execution from a node

`Rerun` derives a new execution from one that is over.  The units that are reachable from the
from-node run again; all others are recorded as resolved, with the status and the port that the
parent stored for them, and with the arrivals that this port sends to their successors.
-/

namespace Xflow

open List

/-- Why a rerun is refused. -/
inductive RerunError where
  /-- The parent is not in a status that can be rerun. -/
  | notRerunnable
  | graphUnsupported
  | nodeNotFound (fromNode : String)
  | insideGroup (fromNode : String)
  /-- A group unit that does not run again. -/
  | groupOutside (unit : String)
  /-- A node upstream of the from-node has no result to copy. -/
  | upstreamIncomplete (nodeName : String) (status : Option NodeStatus)
  | seed (err : SeedError)
  /-- The node of the rerun, or of a unit, is no unit of its own: the source panics. -/
  | panics
  deriving DecidableEq

/-- The units that a rerun resolves, and the task to start if no arrival reaches the from-unit. -/
structure RerunPlan where
  units : List SeedUnit
  startTask : Option Task

namespace Topology

variable (g : Topology)

/-! ### The partition of the units -/

/-- The destinations of the edges out of a unit. -/
def unitSuccessors (u : Int) : List Int := (g.unitOutEdges u).map (·.dstUnit)

/-- The sources of the edges into a unit. -/
def unitPredecessors (u : Int) : List Int :=
  (indices g.units).flatMap (fun v =>
    ((g.unitOutEdges v).filter (fun e => e.dstUnit = u)).map (fun _ => v))

/-- The units that run again: the from-unit and what is reachable from it. -/
def rerunning (fromUnit : Int) : List Int :=
  Walk.flood g.unitSuccessors g.units.length [fromUnit] [fromUnit]

/-- The strict ancestors of the from-unit. -/
def rerunClosure (fromUnit : Int) : List Int :=
  Walk.sweep g.unitPredecessors
    ((g.unitPredecessors fromUnit).length +
      Walk.unseen g.unitPredecessors (indices g.units) [])
    [] (g.unitPredecessors fromUnit)

/-! ### The plan -/

/-- `rerunResolution`: what a rerun records of a unit that the parent resolved.  A unit that is
required must have a result to copy; another one is recorded as skipped without it. -/
def rerunResolution (parent : MemoryState) (u : Int) (required : Bool) :
    Except RerunError SeedUnit :=
  match g.unitNodeIndex u with
  | none => .error .panics
  | some i =>
    let name := g.nodeName i
    let row := parent.nodes name
    let status : Option NodeStatus := row.map (·.status)
    let skipped : SeedUnit := {
      unitIdx := u
      nodeName := name
      nodeIdx := i
      status := .skipped
      privateOutput := g.groupExitOutputIsPrivate name
      downstream := g.downstreamArrivals i "" }
    match status with
    | some .success | some .pinned =>
      let port := (row.map (·.port)).getD ""
      .ok { skipped with
        status := .success
        port := port
        output := parent.outputs name
        downstream := g.downstreamArrivals i port }
    | some .skipped => .ok skipped
    | _ => if required then .error (.upstreamIncomplete name status) else .ok skipped

/-- The resolutions of the units that do not run again. -/
def rerunUnits (parent : MemoryState) (again closure : List Int) :
    List Int → Except RerunError (List SeedUnit)
  | [] => .ok []
  | u :: us =>
    if u ∈ again then rerunUnits parent again closure us
    else if g.unitKindAt u = .group then .error (.groupOutside (g.unitAt u).name)
    else
      match g.rerunResolution parent u (u ∈ closure) with
      | .error err => .error err
      | .ok unit => (rerunUnits parent again closure us).map (unit :: ·)

/-- The task of a from-node that no arrival can reach. -/
def rerunTask (fromNode : String) (i : Int) : Option Task :=
  if g.unitInDegreeAt (g.nodeUnit i) = 0 then some {
    nodeName := fromNode
    nodeIdx := i
    unitIdx := g.nodeUnit i
    type := execTaskTypeForNode (g.nodeAt i) }
  else none

/-- `rerunPlan`: partition the graph around the from-node and read the parent's results. -/
def rerunPlan (parent : MemoryState) (fromNode : String) : Except RerunError RerunPlan :=
  if g.allowCycles then .error .graphUnsupported
  else
    match g.nodeIndex fromNode with
    | none => .error (.nodeNotFound fromNode)
    | some i =>
      let fromUnit := g.nodeUnit i
      if fromUnit < 0 then .error .panics
      else if g.unitKindAt fromUnit = .group then .error (.insideGroup fromNode)
      else
        (g.rerunUnits parent (g.rerunning fromUnit) (g.rerunClosure fromUnit)
          (indices g.units)).map (fun units =>
            { units := units, startTask := g.rerunTask fromNode i })

end Topology

/-- `rerunnableStatus`: the statuses of a parent that can be rerun. -/
def rerunnableStatus (includeSuccess : Bool) : ExecutionStatus → Bool
  | .failed | .canceled | .timeout => true
  | .success => includeSuccess
  | _ => false

/-- The intent to start the from-node of a rerun. -/
def RerunPlan.entries (plan : RerunPlan) (id : String) : List OutboxEntry :=
  plan.startTask.toList.map (fun task =>
    { id := initialOutboxID id task.nodeName 0, task := task })

/-- `Rerun`: derive an execution from a parent that is over, with the place that its admission got
in the slot of the workflow.  A rerun of a test run is one, too. -/
def rerun (g : Topology) (parent : MemoryState) (includeSuccess : Bool) (fromNode id : String)
    (testRun : Bool) (slot : SlotPlace) : Except RerunError MemoryState :=
  if ¬ parent.status?.any (rerunnableStatus includeSuccess) then .error .notRerunnable
  else
    match g.rerunPlan parent fromNode with
    | .error err => .error err
    | .ok plan =>
      match MemoryState.seedExecution g id (testRun || parent.execution.any (·.testRun)) slot
          plan.units (plan.entries id) with
      | .error err => .error (.seed err)
      | .ok (s, _) => .ok s

namespace Topology

variable {g : Topology} {parent : MemoryState} {u v fromUnit : Int} {unit : SeedUnit}

/-! ### The walks -/

theorem mem_unitSuccessors :
  v ∈ g.unitSuccessors u ↔ ∃ e ∈ g.unitEdges, e.srcUnit = u ∧ e.dstUnit = v
  := by
  simp only [unitSuccessors, mem_map, mem_unitOutEdges]
  grind

theorem mem_unitPredecessors :
  v ∈ g.unitPredecessors u ↔ ∃ e ∈ g.unitEdges, e.srcUnit = v ∧ e.dstUnit = u
  := by
  simp only [unitPredecessors, mem_flatMap, mem_map, mem_filter, mem_unitOutEdges,
    decide_eq_true_eq]
  constructor
  · rintro ⟨w, -, e, ⟨⟨mem, src⟩, dst⟩, rfl⟩
    exact ⟨e, mem, src, dst⟩
  · rintro ⟨e, mem, src, dst⟩
    refine ⟨v, ?_, e, ⟨⟨mem, src⟩, dst⟩, rfl⟩
    rw [← src]
    apply g.unitGraph.src_mem e mem

/-- One unit leads to another. -/
def Leads (g : Topology) (u v : Int) : Prop := ∃ e ∈ g.unitEdges, e.srcUnit = u ∧ e.dstUnit = v

theorem isUnit_unitSuccessors :
  ∀ v ∈ indices g.units, ∀ w ∈ g.unitSuccessors v, w ∈ indices g.units
  := by
  intro v _ w hw
  obtain ⟨e, mem, -, rfl⟩ := mem_unitSuccessors.mp hw
  apply g.unitGraph.dst_mem e mem

theorem mem_rerunning (hunit : g.isUnit fromUnit) :
  u ∈ g.rerunning fromUnit ↔ Relation.ReflTransGen g.Leads fromUnit u
  := by
  have same : (fun a b => b ∈ g.unitSuccessors a) = g.Leads := by
    funext a b
    exact propext mem_unitSuccessors
  have walk := Walk.mem_flood_iff isUnit_unitSuccessors hunit (v := u)
  rw [same] at walk
  simpa [rerunning, indices] using walk

theorem rerunning_nodup (hunit : g.isUnit fromUnit) :
  (g.rerunning fromUnit).Nodup ∧ ∀ u ∈ g.rerunning fromUnit, g.isUnit u
  := by
  have flooding := Walk.flooding_flood isUnit_unitSuccessors hunit
  simp only [indices, length_map, length_range] at flooding
  exact ⟨flooding.nodup, flooding.within⟩

theorem mem_rerunClosure (leads : g.Leads u fromUnit) :
  u ∈ g.rerunClosure fromUnit
  := by
  have within (v : Int) : ∀ w ∈ g.unitPredecessors v, w ∈ indices g.units := by
    intro w hw
    obtain ⟨e, mem, rfl, -⟩ := mem_unitPredecessors.mp hw
    apply g.unitGraph.src_mem e mem
  apply Walk.subset_sweep (nodup_indices g.units) (fun v _ => within v) (within fromUnit)
    (Nat.le_refl _)
  apply mem_unitPredecessors.mpr leads

/-! ### What is resolved -/

/-- The resolution is that of a single node, with the arrivals of its port. -/
structure Resolves (g : Topology) (unit : SeedUnit) : Prop where
  data : isDataNode g.nodes unit.nodeIdx
  own : unit.unitIdx = g.nodeUnit unit.nodeIdx
  kind : g.unitKindAt unit.unitIdx = .node
  name : unit.nodeName = g.nodeName unit.nodeIdx
  status : unit.status = .success ∨ unit.status = .skipped
  downstream : unit.downstream = g.downstreamArrivals unit.nodeIdx unit.port

theorem resolves_of_ok {required : Bool} (hunit : g.isUnit u)
    (h : g.rerunResolution parent u required = .ok unit) :
  g.Resolves unit ∧ unit.unitIdx = u
  := by
  unfold rerunResolution at h
  cases idx : g.unitNodeIndex u with
  | none =>
    rw [idx] at h
    cases h
  | some i =>
    have kind : g.unitKindAt u = .node := by
      by_contra other
      simp [unitNodeIndex, other] at idx
    obtain ⟨j, data, idx', unit_eq⟩ := exists_node_of_unit hunit kind
    obtain rfl : i = j := Option.some.inj (idx.symm.trans idx')
    rw [idx] at h
    dsimp only at h
    split at h
    iterate 2
      cases h
      exact ⟨⟨data, unit_eq.symm, kind, rfl, .inl rfl, rfl⟩, rfl⟩
    · cases h
      exact ⟨⟨data, unit_eq.symm, kind, rfl, .inr rfl, rfl⟩, rfl⟩
    · split at h
      · cases h
      · cases h
        exact ⟨⟨data, unit_eq.symm, kind, rfl, .inr rfl, rfl⟩, rfl⟩

theorem rerunUnits_ok {again closure us : List Int} {units : List SeedUnit}
    (within : ∀ u ∈ us, g.isUnit u) (h : g.rerunUnits parent again closure us = .ok units) :
  units.map (·.unitIdx) = us.filter (· ∉ again) ∧ ∀ unit ∈ units, g.Resolves unit ∧
    g.rerunResolution parent unit.unitIdx (unit.unitIdx ∈ closure) = .ok unit
  := by
  revert h
  fun_induction g.rerunUnits parent again closure us generalizing units with
  | case1 =>
    rintro ⟨⟩
    simp
  | case2 u us mem ih =>
    rw [forall_mem_cons] at within
    intro h
    simpa [mem] using ih within.2 h
  | case5 u us mem _ unit resolved ih =>
    rw [forall_mem_cons] at within
    intro h
    cases rest : g.rerunUnits parent again closure us with
    | error err =>
      rw [rest] at h
      cases h
    | ok units' =>
      rw [rest] at h
      cases h
      obtain ⟨resolves, own⟩ := resolves_of_ok within.1 resolved
      obtain ⟨those, each⟩ := ih within.2 rest
      rw [map_cons, those, filter_cons, if_pos (by simpa using mem), forall_mem_cons, own]
      exact ⟨rfl, ⟨resolves, resolved⟩, each⟩
  | _ => exact nofun

/-- The plan of a rerun: the from-node is a unit of its own, and the units that do not run again are
resolved. -/
structure Plans (g : Topology) (fromNode : String) (i : Int) (plan : RerunPlan) : Prop where
  index : g.nodeIndex fromNode = some i
  name : fromNode = g.nodeName i
  data : isDataNode g.nodes i
  kind : g.unitKindAt (g.nodeUnit i) = .node
  units : plan.units.map (·.unitIdx)
    = (indices g.units).filter (· ∉ g.rerunning (g.nodeUnit i))
  resolves : ∀ unit ∈ plan.units, g.Resolves unit
  startTask : plan.startTask = g.rerunTask fromNode i

variable {fromNode : String} {plan : RerunPlan} {i : Int} {name : String}

theorem Plans.nodup (h : g.Plans fromNode i plan) :
  (plan.units.map (·.unitIdx)).Nodup
  := by
  rw [h.units]
  apply (nodup_indices g.units).filter

theorem Plans.mem_rerunning (h : g.Plans fromNode i plan) :
  u ∈ g.rerunning (g.nodeUnit i) ↔ g.isUnit u ∧ u ∉ plan.units.map (·.unitIdx)
  := by
  obtain ⟨-, within⟩ := rerunning_nodup (nodeUnit_mem h.data)
  rw [h.units, mem_filter]
  constructor
  · intro mem
    exact ⟨within u mem, by simp [mem]⟩
  · rintro ⟨hunit, absent⟩
    by_contra other
    exact absent ⟨hunit, by simpa using other⟩

theorem Plans.fresh (h : g.Plans fromNode i plan) :
  g.nodeUnit i ∉ plan.units.map (·.unitIdx)
  := (h.mem_rerunning.mp ((Topology.mem_rerunning (nodeUnit_mem h.data)).mpr .refl)).2

theorem nodeName_of_nodeIndex (h : g.nodeIndex name = some i) :
  g.nodeName i = name
  := by
  obtain ⟨n, found, rfl⟩ := Option.map_eq_some_iff.mp h
  obtain ⟨lt, holds, -⟩ := findIdx?_eq_some_iff_getElem.mp found
  simpa [nodeName, nodeAt, getElem?_eq_getElem lt] using holds

theorem isDataNode_of_nodeIndex (h : g.nodeIndex name = some i)
    (hunit : 0 ≤ g.nodeUnit i) :
  isDataNode g.nodes i
  := by
  obtain ⟨n, found, rfl⟩ := Option.map_eq_some_iff.mp h
  unfold nodeUnit at hunit
  split at hunit
  · rename_i grouped
    obtain ⟨none, -⟩ | ⟨gi, gm, at_gi, mem, -⟩ := groupIdx_cases (t := g) n
    · exact absurd none grouped
    · apply g.members_data gm (mem_of_getElem? at_gi) n mem
  · split at hunit
    · rename_i mem
      apply (isDataNode_of_mem_ungrouped mem).1
    · omega

theorem plans_of_ok (h : g.rerunPlan parent fromNode = .ok plan) :
  ∃ i, g.Plans fromNode i plan ∧ ∀ unit ∈ plan.units,
    g.rerunResolution parent unit.unitIdx (unit.unitIdx ∈ g.rerunClosure (g.nodeUnit i)) = .ok unit
  := by
  revert h
  fun_cases rerunPlan g parent fromNode with
  | case5 _ i index _ nonneg kind =>
    cases resolved : g.rerunUnits parent (g.rerunning (g.nodeUnit i))
        (g.rerunClosure (g.nodeUnit i)) (indices g.units) with
    | error err => exact nofun
    | ok units =>
      rintro ⟨⟩
      have data := isDataNode_of_nodeIndex index (by omega)
      obtain ⟨those, each⟩ := rerunUnits_ok (fun u mem => mem) resolved
      refine ⟨i, ?_, fun unit mem => (each unit mem).2⟩
      constructor
      case index => exact index
      case name => exact (nodeName_of_nodeIndex index).symm
      case data => exact data
      case kind =>
        cases eq : g.unitKindAt (g.nodeUnit i) with
        | node => rfl
        | group => exact absurd eq kind
      case units => exact those
      case resolves => exact fun unit mem => (each unit mem).1
      case startTask => rfl
  | _ => exact nofun

end Topology

end Xflow
