import Xflow.Graph.Arrivals
import Xflow.Graph.Basic
import Xflow.Lib.Keys

/-!
# Where a finished unit fans out to

The engine derives the arrivals of a finished unit in two ways: `downstreamArrivals` walks the
out-edges of a node, one arrival for each destination node, and `downstreamUnitArrivals` walks the
out-edges of a unit, one arrival for each destination unit.  The second walk looks the node of a
destination up before it asks whether the destination is a group, and a group has no node: the walk
panics, and covers the out-edges of a group unit exactly when none of them leads to a group
(`downstreamUnitArrivals_covers_iff`).
-/

namespace Xflow

open Aggregate DownstreamArrival List Option Topology

/-- A boundary output of a group that fired. -/
structure GroupExit where
  nodeName : String
  port : String
  data : Data := []

/-- `execTaskTypeForNode`: the task type an ungrouped node is scheduled as. -/
def execTaskTypeForNode (n : NodeMeta) : TaskType :=
  if n.type = "xflow.subworkflow" then .subWorkflow else .nodeExec

theorem execTaskTypeForNode_cases (n : NodeMeta) :
  execTaskTypeForNode n = .nodeExec ∨ execTaskTypeForNode n = .subWorkflow
  := by
  unfold execTaskTypeForNode
  split
  · right
    rfl
  · left
    rfl

/-- `boundaryKey`: the key under which a fired port is looked up. -/
def boundaryKey (nodeIdx : Int) (port : String) : String := toString nodeIdx ++ "\x00" ++ port

variable {i : Int}

theorem boundaryKey_inj {j : Int} {p q : String} :
  boundaryKey i p = boundaryKey j q ↔ i = j ∧ p = q
  := by
  constructor
  · apply Keys.intKey_inj (c := '\x00') (by decide) (by decide)
  · rintro ⟨rfl, rfl⟩
    rfl

namespace Topology

variable (g : Topology)

/-! ### The walk over the edges of a node -/

/-- The arrival at a destination node before any edge is accounted for. -/
def nodeArrival (dst : Int) : DownstreamArrival where
  nodeName := g.nodeName dst
  nodeIdx := dst
  unitIdx := g.nodeUnit dst
  arrivalCount := 0
  activeCount := 0
  mergeMode := (g.nodeAt dst).mergeMode
  execTaskType :=
    if g.unitKindAt (g.nodeUnit dst) = .group then .groupExec
    else execTaskTypeForNode (g.nodeAt dst)

/-- `downstreamArrivals`: the arrivals a node that committed on a port reports. -/
def downstreamArrivals (sourceIdx : Int) (activePort : String) : List DownstreamArrival :=
  if sourceIdx < 0 ∨ g.nodeCount ≤ sourceIdx then []
  else arrivalsBy Edge.dstIdx (fun e => e.srcPort = activePort) g.nodeArrival
    (g.nodeOutEdges sourceIdx)

/-! ### The walk over the edges of a unit -/

/-- `nodeIdxOf`: the index of a named node, zero for an unknown name. -/
def nodeIdxOf (name : String) : Int := (g.nodeIndex name).getD 0

/-- The arrival at a destination unit before any edge is accounted for.  The node of the unit is
looked up first, also when the unit is a group and has none. -/
def unitArrival (execType : NodeMeta → TaskType) (dst : Int) : Option DownstreamArrival := do
  let target ← g.unitNodeIndex dst
  if g.unitKindAt dst = .group then
    let gm ← g.groupMetaAt dst
    return {
      nodeName := gm.name, nodeIdx := gm.entryIdx, unitIdx := dst, arrivalCount := 0,
      activeCount := 0, mergeMode := g.unitMergeMode dst, execTaskType := .groupExec }
  else
    return {
      nodeName := (g.nodeAt target).name, nodeIdx := target, unitIdx := dst, arrivalCount := 0,
      activeCount := 0, mergeMode := g.unitMergeMode dst,
      execTaskType := execType (g.nodeAt target) }

/-- The edge is active: an error edge when the failure is routed to the error output, another edge
when its port is among the exits. -/
def edgeActive (exits : List GroupExit) (routeToErrorOutput : Bool) (ue : UnitEdge) : Bool :=
  let active := exits.map (fun ex => boundaryKey (g.nodeIdxOf ex.nodeName) ex.port)
  if ue.errorEdge then routeToErrorOutput
  else boundaryKey ue.src.nodeIdx ue.src.port ∈ active

/-- `downstreamUnitArrivals`: the arrivals a unit reports when the given exits fired.  The source
returns them in the order of a map, that is, in any order. -/
def downstreamUnitArrivals (srcUnit : Int) (exits : List GroupExit) (routeToErrorOutput : Bool) :
    Option (List DownstreamArrival) :=
  arrivalsByM UnitEdge.dstUnit (g.edgeActive exits routeToErrorOutput)
    (g.unitArrival execTaskTypeForNode) (g.unitOutEdges srcUnit)

/-! ### Arrivals of the walk over a node -/

variable {g}

theorem nodeArrival_fresh (dst : Int) :
  (g.nodeArrival dst).Fresh
  := by
  exact ⟨rfl, rfl⟩

/-- An arrival names a data node of its unit, with the data that node is scheduled with, and
accounts for at least one edge. -/
structure Names (g : Topology) (a : DownstreamArrival) : Prop where
  data : isDataNode g.nodes a.nodeIdx
  target : a = (g.nodeArrival a.nodeIdx).withCounts a.arrivalCount a.activeCount
  arrived : 1 ≤ a.arrivalCount
  active_nonneg : 0 ≤ a.activeCount
  active_le : a.activeCount ≤ a.arrivalCount

variable {exits : List GroupExit} {a : DownstreamArrival} {port : String} {u : Int}

theorem Names.unitIdx (h : g.Names a) :
  a.unitIdx = g.nodeUnit a.nodeIdx
  := by
  rw [h.target]
  rfl

theorem Names.nodeName (h : g.Names a) :
  a.nodeName = g.nodeName a.nodeIdx
  := by
  rw [h.target]
  rfl

theorem Names.execTaskType (h : g.Names a) :
  a.execTaskType =
    if g.unitKindAt (g.nodeUnit a.nodeIdx) = .group then .groupExec
    else execTaskTypeForNode (g.nodeAt a.nodeIdx)
  := by
  rw [h.target]
  rfl

theorem names_arrivalsBy {α : Type*} {key : α → Int} {active : α → Bool}
    {fresh : Int → DownstreamArrival} {edges : List α}
    (hfresh : ∀ k ∈ edges.map key, ∃ i, isDataNode g.nodes i ∧ fresh k = g.nodeArrival i)
    (hzero : ∀ k, (fresh k).Fresh) (ha : a ∈ arrivalsBy key active fresh edges) :
  g.Names a
  := by
  obtain ⟨k, hk, rfl⟩ := (mem_arrivalsBy hzero).mp ha
  obtain ⟨i, hdata, heq⟩ := hfresh k hk
  rw [heq]
  obtain ⟨e, he, rfl⟩ := mem_map.mp hk
  constructor
  · apply hdata
  · rfl
  · have hpos : 0 < edges.countP (fun e' => key e' = key e) := by
      rw [countP_pos_iff]
      use e, he
      simp
    simp only [withCounts]
    omega
  · simp [withCounts]
  · have hle : edges.countP (fun e' => key e' = key e ∧ active e')
        ≤ edges.countP (fun e' => key e' = key e) := by
      apply countP_mono_left
      intro e' _
      simp only [decide_eq_true_eq]
      apply And.left
    simp only [withCounts]
    omega

theorem names_downstreamArrivals (ha : a ∈ g.downstreamArrivals i port) :
  g.Names a
  := by
  unfold downstreamArrivals at ha
  split at ha
  · cases ha
  · apply names_arrivalsBy ?_ nodeArrival_fresh ha
    intro k hk
    obtain ⟨e, he, rfl⟩ := mem_map.mp hk
    exact ⟨e.dstIdx, (g.edges_data e (mem_filter.mp he).1).2, rfl⟩

theorem arrivedAt_downstreamArrivals (hi : isDataNode g.nodes i) (port : String)
    (d : Int) :
  arrivedAt (g.downstreamArrivals i port) d = g.nodeFanout i d
  := by
  have hrange := mem_indices.mp (isDataNode_iff.mp hi).1
  rw [downstreamArrivals, if_neg (by simp only [nodeCount]; omega),
    arrivedAt_arrivalsBy nodeArrival_fresh]
  rfl

theorem nodeFanout_pos (hi : isDataNode g.nodes i)
    (ha : a ∈ g.downstreamArrivals i port) :
  0 < g.nodeFanout i a.unitIdx
  := by
  have hpos := arrivedAt_pos (fun b hb => (names_downstreamArrivals hb).arrived) ha
  rw [arrivedAt_downstreamArrivals hi] at hpos
  exact_mod_cast hpos

/-- The edges from the committed port of a node to the nodes of a unit. -/
def portFanout (g : Topology) (i : Int) (port : String) (d : Int) : Nat :=
  (g.nodeOutEdges i).countP (fun e => e.srcPort = port ∧ g.nodeUnit e.dstIdx = d)

attribute [local simp] nodeArrival

theorem activeAt_downstreamArrivals (hi : isDataNode g.nodes i) (port : String)
    (d : Int) :
  activeAt (g.downstreamArrivals i port) d = g.portFanout i port d
  := by
  have hrange := mem_indices.mp (isDataNode_iff.mp hi).1
  rw [downstreamArrivals, if_neg (by simp only [nodeCount]; omega),
    activeAt_arrivalsBy nodeArrival_fresh]
  simp [portFanout]

theorem portFanout_eq_zero {d : Int} (hi : isDataNode g.nodes i)
    (hd : g.nodeUnit i ≠ d) :
  g.portFanout i port d = 0 ↔ ∀ e ∈ g.unitOutEdges (g.nodeUnit i),
    e.src.nodeIdx = i → e.dstUnit = d → e.src.port ≠ port
  := by
  unfold portFanout nodeOutEdges
  rw [countP_filter, countP_eq_zero]
  constructor
  · intro h e he hidx hdst hport
    obtain ⟨hmem, -⟩ := mem_unitOutEdges.mp he
    rcases mem_append.mp hmem with hb | herr
    · obtain ⟨x, hx, -, rfl⟩ := mem_boundaryEdges.mp hb
      grind
    · obtain ⟨gi, gm, dst, -, -, rfl⟩ := mem_errorEdges.mp herr
      have := (mem_indices.mp (isDataNode_iff.mp hi).1).1
      simp only at hidx
      omega
  · intro h x hx hactive
    simp only [Bool.and_eq_true, decide_eq_true_eq] at hactive
    obtain ⟨⟨hport, hdst⟩, rfl⟩ := hactive
    have hne : g.nodeUnit x.srcIdx ≠ g.nodeUnit x.dstIdx := by rwa [hdst]
    have hmem := mem_append_left g.errorEdges (mem_boundaryEdges.mpr ⟨x, hx, hne, rfl⟩)
    exact h _ (mem_unitOutEdges.mpr ⟨hmem, rfl⟩) rfl hdst hport

/-! ### Arrivals of the walk over a unit -/

theorem unitArrival_node {dst : Int} (hdst : g.isUnit dst) (hkind : g.unitKindAt dst = .node)
    (execType : NodeMeta → TaskType) :
  isDataNode g.nodes (g.unitAt dst).nodeIdx ∧ g.nodeUnit (g.unitAt dst).nodeIdx = dst ∧
    g.unitArrival execType dst
      = some { g.nodeArrival (g.unitAt dst).nodeIdx with
          execTaskType := execType (g.nodeAt (g.unitAt dst).nodeIdx) }
  := by
  obtain ⟨i, hdata, hidx, hunit⟩ := exists_node_of_unit hdst hkind
  have hnode : (g.unitAt dst).nodeIdx = i := by
    rw [unitNodeIndex, if_pos hkind] at hidx
    exact some.inj hidx
  rw [hnode]
  refine ⟨hdata, hunit, ?_⟩
  simp [unitArrival, hidx, hkind, nodeName, hunit, unitMergeMode, hnode]

theorem isUnit_dst {e : UnitEdge} (he : e ∈ g.unitOutEdges u) :
  g.isUnit e.dstUnit
  := by
  apply g.unitGraph.dst_mem e (mem_unitOutEdges.mp he).1

/-- The arrival at a node unit, scheduled as `execType` says, before any edge is accounted for. -/
def freshArrival (g : Topology) (execType : NodeMeta → TaskType) (dst : Int) :
    DownstreamArrival :=
  { g.nodeArrival (g.unitAt dst).nodeIdx with
    execTaskType := execType (g.nodeAt (g.unitAt dst).nodeIdx) }

theorem freshArrival_fresh {execType : NodeMeta → TaskType} (dst : Int) :
  (g.freshArrival execType dst).Fresh
  := by
  exact ⟨rfl, rfl⟩

theorem arrivalsByM_unitArrival (execType : NodeMeta → TaskType) (active : UnitEdge → Bool)
    (u : Int) :
  arrivalsByM UnitEdge.dstUnit active (g.unitArrival execType) (g.unitOutEdges u)
    = if ∀ e ∈ g.unitOutEdges u, g.unitKindAt e.dstUnit = .node
      then some (arrivalsBy UnitEdge.dstUnit active (g.freshArrival execType) (g.unitOutEdges u))
      else none
  := by
  unfold arrivalsByM
  split
  · rename_i h
    have each : ∀ e ∈ g.unitOutEdges u, g.unitArrival execType e.dstUnit
        = some (g.freshArrival execType e.dstUnit) :=
      fun e he => (unitArrival_node (isUnit_dst he) (h e he) execType).2.2
    rw [aggregateM_eq_some each]
    rfl
  · rename_i h
    push Not at h
    obtain ⟨e, he, hkind⟩ := h
    rw [aggregateM_eq_none he]
    · rfl
    · cases hk : g.unitKindAt e.dstUnit with
      | node => exact absurd hk hkind
      | group => simp [unitArrival, unitNodeIndex, hk]

variable {route : Bool} {ue : UnitEdge}

theorem downstreamUnitArrivals_spec {out : List DownstreamArrival}
    (h : g.downstreamUnitArrivals u exits route = some out) :
  (∀ e ∈ g.unitOutEdges u, g.unitKindAt e.dstUnit = .node) ∧ (∀ a ∈ out, g.Names a) ∧
    ∀ d, arrivedAt out d = g.unitGraph.multiplicity u d
  := by
  rw [downstreamUnitArrivals, arrivalsByM_unitArrival] at h
  obtain ⟨hnode, ⟨⟩⟩ := ite_none_right_eq_some.mp h
  refine ⟨hnode, ?_, ?_⟩
  · intro a ha
    apply names_arrivalsBy ?_ freshArrival_fresh ha
    intro k hk
    obtain ⟨e, he, rfl⟩ := mem_map.mp hk
    use (g.unitAt e.dstUnit).nodeIdx
    obtain ⟨hdata, hunit, -⟩ :=
      unitArrival_node (isUnit_dst he) (hnode e he) execTaskTypeForNode
    refine ⟨hdata, ?_⟩
    simp [freshArrival, hunit, hnode e he]
  · intro d
    rw [arrivedAt_arrivalsBy freshArrival_fresh, ← countP_unitOutEdges]
    congr 1
    apply countP_congr
    intro e he
    have hunit := (unitArrival_node (isUnit_dst he) (hnode e he) execTaskTypeForNode).2.1
    simp [freshArrival, hunit]

/-! ### Covering the out-edges -/

/-- The port an edge leaves from is among the exits. -/
def Exits (g : Topology) (exits : List GroupExit) (ue : UnitEdge) : Prop :=
  ∃ ex ∈ exits, g.nodeIndex ex.nodeName = some ue.src.nodeIdx ∧ ex.port = ue.src.port

instance (exits : List GroupExit) (ue : UnitEdge) : Decidable (g.Exits exits ue) :=
  inferInstanceAs (Decidable (∃ ex ∈ exits, _ ∧ _))

/-- The node, its name and the task type that a unit is scheduled with. -/
def scheduledAs (g : Topology) (d : Int) : Int × String × TaskType :=
  match g.unitKindAt d with
  | .node =>
    let i := (g.unitAt d).nodeIdx
    (i, g.nodeName i, execTaskTypeForNode (g.nodeAt i))
  | .group =>
    let i := ((g.groupMetaAt d).map (·.entryIdx)).getD (-1)
    (i, g.nodeName i, .groupExec)

/-- The arrivals cover the out-edges of a unit: one for each destination unit, with all edges that
lead there counted, and those counted as active that are error edges of a routed failure or leave
from an exit. -/
structure Covers (g : Topology) (u : Int) (exits : List GroupExit) (routeToErrorOutput : Bool)
    (out : List DownstreamArrival) : Prop where
  distinct : (out.map (·.unitIdx)).Nodup
  destinations : ∀ d, d ∈ out.map (·.unitIdx) ↔ ∃ ue ∈ g.unitOutEdges u, ue.dstUnit = d
  arrived : ∀ a ∈ out,
    a.arrivalCount = (g.unitOutEdges u).countP (fun ue => ue.dstUnit = a.unitIdx)
  active : ∀ a ∈ out,
    a.activeCount =
      (if routeToErrorOutput
        then (g.unitOutEdges u).countP (fun ue => ue.dstUnit = a.unitIdx ∧ ue.errorEdge) else 0) +
      (g.unitOutEdges u).countP (fun ue => ue.dstUnit = a.unitIdx ∧ g.Exits exits ue)
  scheduled : ∀ a ∈ out, (a.nodeIdx, a.nodeName, a.execTaskType) = g.scheduledAs a.unitIdx

theorem nodeIndex_nonneg {name : String} (h : g.nodeIndex name = some i) :
  0 ≤ i
  := by
  rw [nodeIndex, map_eq_some_iff] at h
  obtain ⟨n, -, rfl⟩ := h
  apply Int.natCast_nonneg

theorem not_exits_of_errorEdge (hue : ue ∈ g.unitEdges) (herr : ue.errorEdge) :
  ¬ g.Exits exits ue
  := by
  rintro ⟨ex, -, hidx, -⟩
  have hnonneg := nodeIndex_nonneg hidx
  rcases mem_append.mp hue with hb | he
  · obtain ⟨d, -, -, rfl⟩ := mem_boundaryEdges.mp hb
    cases herr
  · obtain ⟨gi, gm, dst, -, -, rfl⟩ := mem_errorEdges.mp he
    simp at hnonneg

section

variable (hexits : ∀ ex ∈ exits, ∃ i, g.nodeIndex ex.nodeName = some i)

include hexits

theorem edgeActive_iff (hue : ue ∈ g.unitEdges) :
  g.edgeActive exits route ue ↔ (route ∧ ue.errorEdge) ∨ g.Exits exits ue
  := by
  unfold edgeActive
  split
  · rename_i herr
    simp [herr, not_exits_of_errorEdge hue herr]
  · rename_i herr
    simp only [herr, decide_eq_true_eq, List.mem_map, and_false, false_or, Bool.false_eq_true]
    constructor
    · rintro ⟨ex, hex, hkey⟩
      obtain ⟨hidx, hport⟩ := boundaryKey_inj.mp hkey
      obtain ⟨i, hi⟩ := hexits ex hex
      rw [nodeIdxOf, hi] at hidx
      subst hidx
      exact ⟨ex, hex, hi, hport⟩
    · rintro ⟨ex, hex, hidx, hport⟩
      refine ⟨ex, hex, ?_⟩
      rw [nodeIdxOf, hidx, Option.getD_some, hport]

theorem countP_edgeActive {d : Int} :
  (g.unitOutEdges u).countP (fun ue => ue.dstUnit = d ∧ g.edgeActive exits route ue)
    = (if route
        then (g.unitOutEdges u).countP (fun ue => ue.dstUnit = d ∧ ue.errorEdge) else 0) +
      (g.unitOutEdges u).countP (fun ue => ue.dstUnit = d ∧ g.Exits exits ue)
  := by
  have hmem : ∀ ue ∈ g.unitOutEdges u, ue ∈ g.unitEdges := fun ue hue => (mem_unitOutEdges.mp hue).1
  generalize g.unitOutEdges u = edges at hmem ⊢
  induction edges with
  | nil => simp
  | cons ue es ih =>
    have ih := ih (fun ue' h => hmem ue' (mem_cons_of_mem _ h))
    have hue := hmem ue mem_cons_self
    have hactive : g.edgeActive exits route ue ↔ _ := edgeActive_iff hexits hue
    have herr : ue.errorEdge → ¬ g.Exits exits ue := not_exits_of_errorEdge hue
    grind

theorem covers_arrivalsBy
    (hnode : ∀ ue ∈ g.unitOutEdges u, g.unitKindAt ue.dstUnit = .node) :
  g.Covers u exits route
    (arrivalsBy UnitEdge.dstUnit (g.edgeActive exits route) (g.freshArrival execTaskTypeForNode)
      (g.unitOutEdges u))
  := by
  have hunit : ∀ k ∈ (g.unitOutEdges u).map UnitEdge.dstUnit,
      (g.freshArrival execTaskTypeForNode k).unitIdx = k := by
    intro k hk
    obtain ⟨ue, hue, rfl⟩ := mem_map.mp hk
    apply (unitArrival_node (isUnit_dst hue) (hnode ue hue) execTaskTypeForNode).2.1
  constructor
  case distinct =>
    apply nodup_arrivalsBy freshArrival_fresh hunit
  case destinations =>
    intro d
    simp only [List.mem_map, mem_arrivalsBy freshArrival_fresh]
    constructor
    · rintro ⟨a, ⟨k, ⟨ue, hue, rfl⟩, rfl⟩, rfl⟩
      exact ⟨ue, hue, (hunit _ (mem_map_of_mem hue)).symm⟩
    · rintro ⟨ue, hue, rfl⟩
      exact ⟨_, ⟨_, ⟨ue, hue, rfl⟩, rfl⟩, hunit _ (mem_map_of_mem hue)⟩
  case arrived =>
    intro a ha
    obtain ⟨k, hk, rfl⟩ := (mem_arrivalsBy freshArrival_fresh).mp ha
    simp [withCounts, hunit k hk]
  case active =>
    intro a ha
    obtain ⟨k, hk, rfl⟩ := (mem_arrivalsBy freshArrival_fresh).mp ha
    simp only [withCounts, hunit k hk, countP_edgeActive hexits]
    split <;> simp
  case scheduled =>
    intro a ha
    obtain ⟨k, hk, rfl⟩ := (mem_arrivalsBy freshArrival_fresh).mp ha
    obtain ⟨ue, hue, rfl⟩ := mem_map.mp hk
    simp only [withCounts, hunit _ hk, scheduledAs, hnode ue hue]
    rfl

end

end Topology

/-- The fan-out of a unit covers its out-edges exactly when none of them leads to a group. -/
theorem downstreamUnitArrivals_covers_iff (g : Graph) (u : Int) {exits : List GroupExit}
    (hexits : ∀ ex ∈ exits, ∃ out ∈ g.boundaryOutputs u,
      g.nodeIndex ex.nodeName = some out.nodeIdx ∧ ex.port = out.port)
    (routeToErrorOutput : Bool) :
  (∃ out, g.downstreamUnitArrivals u exits routeToErrorOutput = some out ∧
      g.Covers u exits routeToErrorOutput out) ↔
    ∀ ue ∈ g.unitOutEdges u, g.unitKindAt ue.dstUnit = .node
  := by
  constructor
  · rintro ⟨out, hout, -⟩
    apply (downstreamUnitArrivals_spec hout).1
  · intro hnode
    use arrivalsBy UnitEdge.dstUnit (g.edgeActive exits routeToErrorOutput)
      (g.freshArrival execTaskTypeForNode) (g.unitOutEdges u)
    constructor
    · rw [downstreamUnitArrivals, arrivalsByM_unitArrival, if_pos hnode]
    · apply covers_arrivalsBy _ hnode
      grind

/-- Two groups of one node each, the first leading to the second. -/
def groupToGroup : Graph where
  nodes := [{ name := "a" }, { name := "b" }]
  edges := [{ srcIdx := 0, dstIdx := 1, srcPort := "main" }]
  groups := [{ name := "first", members := [0], entryIdx := 0 },
    { name := "second", members := [1], entryIdx := 1 }]

/-- Committing the first group, with its boundary output fired, panics. -/
theorem downstreamUnitArrivals_groupToGroup :
  groupToGroup.unitKindAt 0 = .group ∧ ⟨0, "main"⟩ ∈ groupToGroup.boundaryOutputs 0 ∧
    groupToGroup.downstreamUnitArrivals 0 [{ nodeName := "a", port := "main" }] false = none
  := by
  decide

/-- A group of one node that leads to an ungrouped node. -/
def groupToNode : Graph where
  nodes := [{ name := "a" }, { name := "b" }]
  edges := [{ srcIdx := 0, dstIdx := 1, srcPort := "main" }]
  groups := [{ name := "first", members := [0], entryIdx := 0 }]

/-- Committing the group with its boundary output fired covers its out-edge. -/
theorem downstreamUnitArrivals_groupToNode :
  groupToNode.unitKindAt 1 = .group ∧
    ∃ out, groupToNode.downstreamUnitArrivals 1 [{ nodeName := "a", port := "main" }] false
        = some out ∧
      groupToNode.Covers 1 [{ nodeName := "a", port := "main" }] false out
  := by
  refine ⟨by decide, ?_⟩
  apply (downstreamUnitArrivals_covers_iff groupToNode 1 ?_ false).mpr
  · decide
  · intro ex hex
    rw [mem_singleton] at hex
    subst hex
    exact ⟨⟨0, "main"⟩, by decide, by decide, rfl⟩

end Xflow
