import Mathlib.Data.List.Sort
import Xflow.Lib.Multidigraph
import Xflow.Types

/-!
# The unit topology of a workflow

A workflow is compiled to a list of nodes with data edges between them and to groups of nodes that
run together.  Scheduling happens on units: each ungrouped node is a unit, and each group is one
unit whatever its number of members.  Supply nodes belong to no unit.  This module follows
`buildUnits` and `buildUnitEdges`: ungrouped nodes come first, in node order, and groups after them,
in group order; the unit edges are the node edges between different units together with one error
edge for each error output of a group.
-/

namespace Xflow

/-! ### Nodes, edges and groups -/

/-- The kind of a node. -/
inductive NodeKind where
  | action
  | trigger
  | supply
  deriving DecidableEq

/-- The static metadata of a node. -/
structure NodeMeta where
  name : String
  type : String := ""
  kind : NodeKind := .action
  /-- `"wait_all"`, `"wait_any"`, or empty for a node that is not a merge. -/
  mergeMode : String := ""
  parameters : Data := []
  /-- The output is withheld from public snapshots. -/
  privateOutput : Bool := false
  /-- The output that `pin_data` puts in place of the handler's. -/
  pinOutput : Option Data := none
  disabled : Bool := false
  deriving Inhabited

/-- A data edge from an output port of one node to an input port of another. -/
structure Edge where
  srcIdx : Int
  dstIdx : Int
  srcPort : String
  dstPort : String := ""
  deriving DecidableEq

/-- A port of a node; the index is `-1` for the error output of a group. -/
structure BoundaryEndpoint where
  nodeIdx : Int
  port : String
  deriving DecidableEq, Inhabited

/-- A compiled group of nodes. -/
structure GroupMeta where
  name : String
  members : List Int
  entryIdx : Int
  onError : String := ""
  errorOutputs : List BoundaryEndpoint := []
  deriving DecidableEq

/-- When the pinned outputs of a workflow apply. -/
inductive PinDataMode where
  | off
  | always
  | testOnly
  deriving DecidableEq

/-- The element of a list at an integer index. -/
def nth? {α : Type*} (l : List α) (i : Int) : Option α :=
  if 0 ≤ i then l[i.toNat]? else none

/-- The integers that index a list. -/
def indices {α : Type*} (l : List α) : List Int := (List.range l.length).map Nat.cast

/-- The node exists and takes part in the data flow. -/
def isDataNode (nodes : List NodeMeta) (i : Int) : Bool :=
  (nth? nodes i).any (fun n => n.kind ≠ .supply)

theorem disjoint_nil :
  ([] : List GroupMeta).Pairwise (fun a b => ∀ i ∈ a.members, i ∉ b.members)
  := .nil

theorem entry_nil :
  ∀ gm ∈ ([] : List GroupMeta), gm.entryIdx ∈ gm.members
  := List.forall_mem_nil _

theorem ungrouped_nil :
  false → ([] : List GroupMeta) = []
  := nofun

/-- What compilation establishes about nodes, edges and groups before it builds the units. -/
structure Topology where
  nodes : List NodeMeta
  /-- The out-edges of all nodes, node by node. -/
  edges : List Edge
  groups : List GroupMeta := []
  allowCycles : Bool := false
  pinDataMode : PinDataMode := .off
  names_nodup : (nodes.map (·.name)).Nodup := by decide
  edges_data : ∀ e ∈ edges, isDataNode nodes e.srcIdx ∧ isDataNode nodes e.dstIdx := by decide
  groupNames_nodup : (groups.map (·.name)).Nodup := by first | exact List.nodup_nil | decide
  members_data : ∀ gm ∈ groups, ∀ i ∈ gm.members, isDataNode nodes i := by decide
  members_disjoint : groups.Pairwise (fun a b => ∀ i ∈ a.members, i ∉ b.members) := by
    first | exact disjoint_nil | decide
  members_plain : ∀ gm ∈ groups, ∀ i ∈ gm.members,
    (nth? nodes i).all (fun n => n.type ≠ "xflow.subworkflow") := by decide
  entry_mem : ∀ gm ∈ groups, gm.entryIdx ∈ gm.members := by
    first | exact entry_nil | decide
  errors_data : ∀ gm ∈ groups, ∀ d ∈ gm.errorOutputs,
    isDataNode nodes d.nodeIdx ∧ d.nodeIdx ∉ gm.members := by decide
  cycles_ungrouped : allowCycles → groups = [] := by first | exact ungrouped_nil | decide

/-! ### Integer indices -/

@[simp]
theorem nth?_natCast {α : Type*} (l : List α) (i : Nat) :
  nth? l (i : Int) = l[i]?
  := by
  simp [nth?]

@[simp]
theorem mem_indices {α : Type*} {l : List α} {i : Int} :
  i ∈ indices l ↔ 0 ≤ i ∧ i < l.length
  := by
  simp only [indices, List.mem_map, List.mem_range]
  constructor
  · rintro ⟨n, hn, rfl⟩
    omega
  · rintro ⟨h0, h1⟩
    use i.toNat
    omega

theorem nodup_indices {α : Type*} (l : List α) :
  (indices l).Nodup
  := by
  apply List.Nodup.map
  · intro a b h
    simpa using h
  · apply List.nodup_range

theorem nth?_eq_some {α : Type*} {l : List α} {i : Int} :
  (∃ a, nth? l i = some a) ↔ 0 ≤ i ∧ i < l.length
  := by
  unfold nth?
  split
  · constructor
    · rintro ⟨a, ha⟩
      obtain ⟨hlt, -⟩ := List.getElem?_eq_some_iff.mp ha
      omega
    · rintro ⟨-, hlt⟩
      use l[i.toNat]
      rw [List.getElem?_eq_getElem]
  · rename_i h
    simp [h]

namespace Topology

variable (t : Topology)

/-- The metadata of a node. -/
def nodeAt (i : Int) : NodeMeta := (nth? t.nodes i).getD default

/-- The name of a node. -/
def nodeName (i : Int) : String := (t.nodeAt i).name

/-- The number of nodes. -/
def nodeCount : Int := t.nodes.length

/-- The index of the node with a given name. -/
def nodeIndex (name : String) : Option Int :=
  (t.nodes.findIdx? (fun n => n.name = name)).map Nat.cast

/-- The index of an explicit entry node: a start node or a trigger. -/
def entryIndex (name : String) : Option Int :=
  (t.nodeIndex name).filter
    (fun i => (t.nodeAt i).type = "xflow.start" ∨ (t.nodeAt i).kind = .trigger)

/-- The out-edges of a node. -/
def nodeOutEdges (i : Int) : List Edge := t.edges.filter (fun e => e.srcIdx = i)

/-- Some node is disabled. -/
def hasDisabledNodes : Bool := t.nodes.any (·.disabled)

/-- The index of the group a node belongs to, or `-1`. -/
def groupIdx (i : Int) : Int :=
  match t.groups.findIdx? (fun gm => i ∈ gm.members) with
  | some gi => gi
  | none => -1

/-! ### Units -/

/-- The nodes that are units of their own: neither grouped nor supply nodes. -/
def ungrouped : List Int :=
  (indices t.nodes).filter (fun i => t.groupIdx i = -1 ∧ (t.nodeAt i).kind ≠ .supply)

end Topology

/-- Whether a unit is a single node or a group. -/
inductive UnitKind where
  | node
  | group
  deriving DecidableEq, Inhabited

/-- A vertex of the scheduling topology. -/
structure UnitMeta where
  kind : UnitKind
  name : String
  /-- The node of a node unit, `-1` otherwise. -/
  nodeIdx : Int
  /-- The group of a group unit, `-1` otherwise. -/
  groupIdx : Int
  deriving DecidableEq, Inhabited

/-- A scheduling edge between two units.  An error edge leaves the group itself and no member of
it. -/
structure UnitEdge where
  srcUnit : Int
  dstUnit : Int
  src : BoundaryEndpoint
  dst : BoundaryEndpoint
  errorEdge : Bool
  deriving DecidableEq

namespace Topology

variable (t : Topology)

/-- The units: ungrouped nodes in node order, then groups in group order. -/
def units : List UnitMeta :=
  t.ungrouped.map (fun i => ⟨.node, t.nodeName i, i, -1⟩) ++
    t.groups.zipIdx.map (fun (gm, gi) => ⟨.group, gm.name, -1, gi⟩)

/-- The number of units. -/
def unitCount : Int := t.units.length

/-- The unit of a group. -/
def groupUnit (gi : Int) : Int := t.ungrouped.length + gi

/-- The unit of a node, `-1` for a supply node. -/
def nodeUnit (i : Int) : Int :=
  if t.groupIdx i ≠ -1 then t.groupUnit (t.groupIdx i)
  else if i ∈ t.ungrouped then t.ungrouped.idxOf i
  else -1

/-- The unit edges of the node edges between different units. -/
def boundaryEdges : List UnitEdge :=
  t.edges.filterMap (fun e =>
    if t.nodeUnit e.srcIdx = t.nodeUnit e.dstIdx then none
    else some ⟨t.nodeUnit e.srcIdx, t.nodeUnit e.dstIdx, ⟨e.srcIdx, e.srcPort⟩,
      ⟨e.dstIdx, e.dstPort⟩, false⟩)

/-- The error edges of the groups. -/
def errorEdges : List UnitEdge :=
  t.groups.zipIdx.flatMap (fun (gm, gi) =>
    gm.errorOutputs.map (fun dst =>
      ⟨t.groupUnit gi, t.nodeUnit dst.nodeIdx, ⟨-1, "error"⟩, dst, true⟩))

/-- All unit edges. -/
def unitEdges : List UnitEdge := t.boundaryEdges ++ t.errorEdges

/-- The order in which the unit edges of a unit are kept. -/
def unitEdgeLess (a b : UnitEdge) : Bool :=
  if a.srcUnit ≠ b.srcUnit then a.srcUnit < b.srcUnit
  else if a.dstUnit ≠ b.dstUnit then a.dstUnit < b.dstUnit
  else if a.src.nodeIdx ≠ b.src.nodeIdx then a.src.nodeIdx < b.src.nodeIdx
  else if a.src.port ≠ b.src.port then a.src.port < b.src.port
  else if a.dst.nodeIdx ≠ b.dst.nodeIdx then a.dst.nodeIdx < b.dst.nodeIdx
  else a.dst.port < b.dst.port

/-- The unit edges out of a unit. -/
def unitOutEdges (u : Int) : List UnitEdge :=
  (t.unitEdges.filter (fun e => e.srcUnit = u)).insertionSort (fun a b => ¬ unitEdgeLess b a)

/-- The number of unit edges into a unit. -/
def unitInDegreeAt (u : Int) : Int := t.unitEdges.countP (fun e => e.dstUnit = u)

/-- The metadata of a unit. -/
def unitAt (u : Int) : UnitMeta := (nth? t.units u).getD default

/-- The kind of a unit. -/
def unitKindAt (u : Int) : UnitKind := (t.unitAt u).kind

/-- The node of a node unit; the source panics on a group unit. -/
def unitNodeIndex (u : Int) : Option Int :=
  if t.unitKindAt u = .node then some (t.unitAt u).nodeIdx else none

/-- The group of a group unit; the source panics on a node unit. -/
def groupMetaAt (u : Int) : Option GroupMeta :=
  if t.unitKindAt u = .group then nth? t.groups (t.unitAt u).groupIdx else none

/-- The merge mode of a unit, empty for a group. -/
def unitMergeMode (u : Int) : String :=
  if t.unitKindAt u = .group then "" else (t.nodeAt (t.unitAt u).nodeIdx).mergeMode

/-- The member ports whose edges leave a unit. -/
def boundaryOutputs (u : Int) : List BoundaryEndpoint :=
  (t.boundaryEdges.filter (fun e => e.srcUnit = u)).map (·.src)

end Topology

end Xflow
