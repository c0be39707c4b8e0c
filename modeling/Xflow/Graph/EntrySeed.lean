import Xflow.Graph.Fanout

/-!
# The topology of an entry seed

A remote trigger that is admitted seeds an execution: its entry unit counts as finished and its
fired exits are reported to the successors.  `deriveEntrySeedTopology` derives these arrivals with a
copy of the walk of `downstreamUnitArrivals`.  The two agree unless the entry unit leads to a
sub-workflow node, which the copy schedules as an ordinary node
(`deriveEntrySeedTopology_agrees_iff`).
-/

namespace Xflow

open Aggregate DownstreamArrival List Option Topology

namespace Topology

variable (g : Topology)

/-! ### The seed topology -/

/-- `entryUnitIndex`: the unit of a group with the given name, else of the node with that name. -/
def entryUnitIndex (entryUnitID : String) : Option Int :=
  match g.groups.findIdx? (fun gm => gm.name = entryUnitID) with
  | some gi => some (g.groupUnit gi)
  | none => (g.nodeIndex entryUnitID).bind
      (fun i => if g.nodeUnit i < 0 then none else some (g.nodeUnit i))

/-- Why a seed is rejected. -/
inductive EntrySeedError where
  | entryUnitNotFound (entryUnitID : String)
  deriving DecidableEq

/-- The port of the edge is among the exits that name a node of the graph. -/
def seedActive (exits : List GroupExit) (ue : UnitEdge) : Bool :=
  let active := exits.filterMap (fun ex =>
    (g.nodeIndex ex.nodeName).map (fun nodeIdx => boundaryKey nodeIdx ex.port))
  boundaryKey ue.src.nodeIdx ue.src.port ∈ active

/-- `deriveEntrySeedTopology`: the entry unit and the arrivals its fired exits report; `none` when
the walk panics. -/
def deriveEntrySeedTopology (entryUnitID : String) (exits : List GroupExit) :
    Option (Except EntrySeedError (Int × List DownstreamArrival)) :=
  match g.entryUnitIndex entryUnitID with
  | none => some (.error (.entryUnitNotFound entryUnitID))
  | some entryUnitIdx =>
    (arrivalsByM UnitEdge.dstUnit (g.seedActive exits)
      (g.unitArrival (fun _ => .nodeExec)) (g.unitOutEdges entryUnitIdx)).map
      (fun downstream => .ok (entryUnitIdx, downstream))

/-! ### Arrivals as a map -/

/-- The arrivals as a map from units. -/
def arrivalMap (out : List DownstreamArrival) (d : Int) : Option DownstreamArrival :=
  out.find? (fun a => a.unitIdx = d)

/-- The map of arrivals that are aggregated by unit. -/
theorem arrivalMap_arrivalsBy {α : Type*} {key : α → Int} {active : α → Bool}
    {fresh : Int → DownstreamArrival} {edges : List α} (hfresh : ∀ k, (fresh k).Fresh)
    (hunit : ∀ k ∈ edges.map key, (fresh k).unitIdx = k) (d : Int) :
  arrivalMap (arrivalsBy key active fresh edges) d
    = if d ∈ edges.map key
      then some ((fresh d).withCounts (edges.countP (fun e => key e = d))
        (edges.countP (fun e => key e = d ∧ active e)))
      else none
  := by
  have hlookup : arrivalMap (arrivalsBy key active fresh edges) d
      = Aggregate.lookup d
        (aggregate key fresh (fun e => .addEdge (active e)) edges) := by
    rw [arrivalMap, arrivalsBy, find?_map, Aggregate.lookup, ← head?_filter, ← head?_filter]
    congr 2
    apply filter_congr
    rintro ⟨k, a⟩ hmem
    obtain ⟨hk, rfl⟩ := (mem_aggregate_addEdge hfresh).mp hmem
    have := hunit k hk
    simp [withCounts, this]
  rw [hlookup]
  split
  · rename_i hd
    rw [lookup_eq_some ascending_aggregate]
    apply (mem_aggregate_addEdge hfresh).mpr ⟨hd, rfl⟩
  · rename_i hd
    rw [lookup_aggregate, if_neg hd]

/-! ### Agreement -/

variable {g}

section

variable {exits : List GroupExit} (hexits : ∀ ex ∈ exits, ∃ i, g.nodeIndex ex.nodeName = some i)

include hexits

theorem seedActive_eq {ue : UnitEdge} (hue : ue ∈ g.unitEdges) :
  g.seedActive exits ue = g.edgeActive exits false ue
  := by
  rw [Bool.eq_iff_iff, edgeActive_iff hexits hue]
  simp only [seedActive, decide_eq_true_eq, mem_filterMap, map_eq_some_iff,
    Bool.false_eq_true, false_and, false_or]
  constructor
  · rintro ⟨ex, hex, i, hidx, hkey⟩
    obtain ⟨rfl, hport⟩ := boundaryKey_inj.mp hkey
    exact ⟨ex, hex, hidx, hport⟩
  · rintro ⟨ex, hex, hidx, hport⟩
    exact ⟨ex, hex, _, hidx, boundaryKey_inj.mpr ⟨rfl, hport⟩⟩

theorem countP_seedActive {u d : Int} :
  (g.unitOutEdges u).countP (fun ue => ue.dstUnit = d ∧ g.seedActive exits ue)
    = (g.unitOutEdges u).countP (fun ue => ue.dstUnit = d ∧ g.edgeActive exits false ue)
  := by
  apply countP_congr
  intro ue hue
  rw [seedActive_eq hexits (mem_unitOutEdges.mp hue).1]

end

theorem freshArrival_eq_iff {d n k : Int} :
  (g.freshArrival (fun _ => .nodeExec) d).withCounts n k
      = (g.freshArrival execTaskTypeForNode d).withCounts n k ↔
    (g.nodeAt (g.unitAt d).nodeIdx).type ≠ "xflow.subworkflow"
  := by
  by_cases h : (g.nodeAt (g.unitAt d).nodeIdx).type = "xflow.subworkflow" <;>
    simp [freshArrival, withCounts, execTaskTypeForNode]

/-- The seed topology of a unit and the fan-out of the engine are the same: the same unit with the
same map of arrivals, or a panic in both. -/
def SeedAgrees (g : Topology) (entryUnitID : String) (u : Int) (exits : List GroupExit) : Prop :=
  (g.deriveEntrySeedTopology entryUnitID exits).map (Except.map (Prod.map id arrivalMap))
    = (g.downstreamUnitArrivals u exits false).map (fun out => .ok (u, arrivalMap out))

end Topology

/-- The seed topology of an entry unit agrees with the fan-out of the engine exactly when an edge of
the unit leads to a group, where both panic, or none leads to a sub-workflow node. -/
theorem deriveEntrySeedTopology_agrees_iff (g : Graph) {entryUnitID : String} {u : Int}
    (hu : g.entryUnitIndex entryUnitID = some u) {exits : List GroupExit}
    (hexits : ∀ ex ∈ exits, ∃ i, g.nodeIndex ex.nodeName = some i) :
  g.SeedAgrees entryUnitID u exits ↔
    (∃ ue ∈ g.unitOutEdges u, g.unitKindAt ue.dstUnit = .group) ∨
      ∀ ue ∈ g.unitOutEdges u,
        (g.nodeAt (g.unitAt ue.dstUnit).nodeIdx).type ≠ "xflow.subworkflow"
  := by
  simp only [Topology.SeedAgrees, deriveEntrySeedTopology, hu,
    downstreamUnitArrivals, arrivalsByM_unitArrival]
  by_cases hnode : ∀ ue ∈ g.unitOutEdges u, g.unitKindAt ue.dstUnit = .node
  · have hno : ¬ ∃ ue ∈ g.unitOutEdges u, g.unitKindAt ue.dstUnit = .group := by grind
    have hunit (f : NodeMeta → TaskType) : ∀ k ∈ (g.unitOutEdges u).map UnitEdge.dstUnit,
        (g.freshArrival f k).unitIdx = k := by
      intro k hk
      obtain ⟨ue, hue, rfl⟩ := mem_map.mp hk
      apply (unitArrival_node (isUnit_dst hue) (hnode ue hue) f).2.1
    simp only [if_pos hnode, hno, false_or, map_some, some.injEq, Except.map,
      Except.ok.injEq, Prod.map, id, Prod.mk.injEq, true_and, funext_iff]
    simp only [arrivalMap_arrivalsBy freshArrival_fresh (hunit _), countP_seedActive hexits]
    constructor
    · intro h ue hue
      have := h ue.dstUnit
      rwa [if_pos (mem_map_of_mem hue), if_pos (mem_map_of_mem hue), some.injEq,
        freshArrival_eq_iff] at this
    · intro h d
      split
      · rename_i hd
        obtain ⟨ue, hue, rfl⟩ := mem_map.mp hd
        rw [some.injEq, freshArrival_eq_iff]
        exact h ue hue
      · rfl
  · have hgroup : ∃ ue ∈ g.unitOutEdges u, g.unitKindAt ue.dstUnit = .group := by
      push Not at hnode
      obtain ⟨ue, hue, hkind⟩ := hnode
      refine ⟨ue, hue, ?_⟩
      cases hk : g.unitKindAt ue.dstUnit with
      | node => exact absurd hk hkind
      | group => rfl
    simp [if_neg hnode, hgroup]

/-- A trigger that leads to a sub-workflow node. -/
def triggerToSubWorkflow : Graph where
  nodes := [{ name := "start", kind := .trigger }, { name := "sub", type := "xflow.subworkflow" }]
  edges := [{ srcIdx := 0, dstIdx := 1, srcPort := "main" }]

/-- The engine schedules the sub-workflow as such, a seeded execution as an ordinary node. -/
theorem deriveEntrySeedTopology_triggerToSubWorkflow :
  triggerToSubWorkflow.entryUnitIndex "start" = some 0 ∧
    (triggerToSubWorkflow.deriveEntrySeedTopology "start"
        [{ nodeName := "start", port := "main" }]).map
        (Except.map (fun r => r.2.map (·.execTaskType)))
      = some (.ok [.nodeExec]) ∧
    (triggerToSubWorkflow.downstreamUnitArrivals 0
        [{ nodeName := "start", port := "main" }] false).map (fun out => out.map (·.execTaskType))
      = some [.subWorkflow] ∧
    ¬ triggerToSubWorkflow.SeedAgrees "start" 0 [{ nodeName := "start", port := "main" }]
  := by
  refine ⟨by decide, by decide, by decide, ?_⟩
  intro h
  have := congrArg (Option.map (Except.map (fun r => (r.2 1).map (·.execTaskType)))) h
  revert this
  decide

/-- In the graph of a group and a node after it, the seed topology of the group agrees. -/
theorem deriveEntrySeedTopology_groupToNode :
  groupToNode.entryUnitIndex "first" = some 1 ∧
    groupToNode.SeedAgrees "first" 1 [{ nodeName := "a", port := "main" }]
  := by
  refine ⟨by decide, ?_⟩
  apply (deriveEntrySeedTopology_agrees_iff groupToNode (by decide) ?_).mpr
  · right
    decide
  · intro ex hex
    rw [mem_singleton] at hex
    subst hex
    exact ⟨0, by decide⟩

end Xflow
