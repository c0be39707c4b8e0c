import Xflow.Graph.Units

/-!
# Compiled graphs

The nodes with the data edges between them form a multigraph, and so do the units with their edges.
A compiled graph is a topology on which the two cycle checks of the compiler have succeeded, unless
the workflow allows cycles.  The edges from a node to the nodes of a unit are counted by
`nodeFanout`; for a unit of a single node this is the number of unit edges
(`multiplicity_nodeUnit`), while a member of a group accounts for its own boundary edges only
(`multiplicity_of_src`).  The checks find a cycle exactly when there is one
(`cycles_detected`), on the units after each group is contracted.
-/

namespace Xflow

open List Multidigraph Topology

namespace Topology

variable (t : Topology)

/-! ### The two multigraphs -/

/-- The nodes and the data edges. -/
def nodeGraph : Multidigraph Int Edge where
  vertices := indices t.nodes
  edges := t.edges
  src := Edge.srcIdx
  dst := Edge.dstIdx
  nodup := nodup_indices _
  src_mem e he := (isDataNode_iff.mp (t.edges_data e he).1).1
  dst_mem e he := (isDataNode_iff.mp (t.edges_data e he).2).1

variable {t} in
theorem mem_boundaryEdges {e : UnitEdge} :
  e ∈ t.boundaryEdges ↔ ∃ d ∈ t.edges, t.nodeUnit d.srcIdx ≠ t.nodeUnit d.dstIdx ∧
    e = ⟨t.nodeUnit d.srcIdx, t.nodeUnit d.dstIdx, ⟨d.srcIdx, d.srcPort⟩,
      ⟨d.dstIdx, d.dstPort⟩, false⟩
  := by
  rw [boundaryEdges, mem_filterMap]
  grind

variable {t} in
theorem mem_errorEdges {e : UnitEdge} :
  e ∈ t.errorEdges ↔ ∃ (gi : Nat) (gm : GroupMeta) (dst : BoundaryEndpoint),
    t.groups[gi]? = some gm ∧ dst ∈ gm.errorOutputs ∧
    e = ⟨t.groupUnit gi, t.nodeUnit dst.nodeIdx, ⟨-1, "error"⟩, dst, true⟩
  := by
  simp only [errorEdges, mem_flatMap, mem_map]
  constructor
  · grind
  · rintro ⟨gi, gm, dst, hgm, hdst, rfl⟩
    refine ⟨(gm, gi), ?_, dst, hdst, rfl⟩
    simpa [mem_zipIdx_iff_getElem?] using hgm

variable {t} in
theorem unitEdge_ends {e : UnitEdge} (he : e ∈ t.unitEdges) :
  e.srcUnit ∈ indices t.units ∧ isDataNode t.nodes e.dst.nodeIdx ∧
    e.dstUnit = t.nodeUnit e.dst.nodeIdx
  := by
  rcases mem_append.mp he with hb | he
  · obtain ⟨d, hd, -, rfl⟩ := mem_boundaryEdges.mp hb
    obtain ⟨hsrc, hdst⟩ := t.edges_data d hd
    exact ⟨nodeUnit_mem hsrc, hdst, rfl⟩
  · obtain ⟨gi, gm, dst, hgm, hdst, rfl⟩ := mem_errorEdges.mp he
    obtain ⟨hlt, rfl⟩ := List.getElem?_eq_some_iff.mp hgm
    exact ⟨groupUnit_mem hlt, (t.errors_data _ (getElem_mem hlt) dst hdst).1, rfl⟩

/-- The units and the unit edges. -/
def unitGraph : Multidigraph Int UnitEdge where
  vertices := indices t.units
  edges := t.unitEdges
  src := UnitEdge.srcUnit
  dst := UnitEdge.dstUnit
  nodup := nodup_indices _
  src_mem _ he := (unitEdge_ends he).1
  dst_mem _ he := by
    obtain ⟨-, hdata, heq⟩ := unitEdge_ends he
    rw [heq]
    apply nodeUnit_mem hdata

/-- A unit is one of the indices of the unit list. -/
def isUnit (u : Int) : Prop := u ∈ indices t.units

instance (u : Int) : Decidable (t.isUnit u) := inferInstanceAs (Decidable (u ∈ indices t.units))

/-- A unit no edge enters. -/
def isRoot (u : Int) : Prop := t.isUnit u ∧ t.unitInDegreeAt u = 0

instance (u : Int) : Decidable (t.isRoot u) := inferInstanceAs (Decidable (_ ∧ _))

theorem unitInDegreeAt_of_not_isUnit {u : Int} (none : ¬ t.isUnit u) :
  t.unitInDegreeAt u = 0
  := by
  unfold unitInDegreeAt
  rw [Int.natCast_eq_zero, countP_eq_zero]
  intro e he entered
  obtain ⟨-, data, unit⟩ := unitEdge_ends he
  rw [decide_eq_true_eq, unit] at entered
  apply none
  rw [← entered]
  apply nodeUnit_mem data

/-! ### Counting edges -/

variable {t}

@[simp]
theorem unitInDegreeAt_eq (u : Int) :
  t.unitInDegreeAt u = t.unitGraph.inDegree u
  := by
  rfl

theorem multiplicity_eq (u d : Int) :
  t.unitGraph.multiplicity u d = t.unitEdges.countP (fun e => e.srcUnit = u ∧ e.dstUnit = d)
  := by
  rfl

theorem unitOutEdges_perm (u : Int) :
  (t.unitOutEdges u).Perm (t.unitEdges.filter (fun e => e.srcUnit = u))
  := by
  apply perm_insertionSort

theorem mem_unitOutEdges {u : Int} {e : UnitEdge} :
  e ∈ t.unitOutEdges u ↔ e ∈ t.unitEdges ∧ e.srcUnit = u
  := by
  simp [(unitOutEdges_perm u).mem_iff]

/-- The edges kept with `u` that lead to `d` are those counted by the unit graph. -/
theorem countP_unitOutEdges (u d : Int) :
  (t.unitOutEdges u).countP (fun e => e.dstUnit = d) = t.unitGraph.multiplicity u d
  := by
  rw [(unitOutEdges_perm u).countP_eq, countP_filter, multiplicity_eq]
  apply countP_congr
  simp [and_comm]

/-- The number of data edges from a node to the nodes of a unit. -/
def nodeFanout (t : Topology) (i d : Int) : Nat :=
  (t.nodeOutEdges i).countP (fun e => t.nodeUnit e.dstIdx = d)

theorem nodeFanout_eq_countP {i d : Int} (hi : 0 ≤ i) (hd : t.nodeUnit i ≠ d) :
  t.nodeFanout i d = t.unitEdges.countP (fun e => e.src.nodeIdx = i ∧ e.dstUnit = d)
  := by
  have herr : t.errorEdges.countP (fun e => e.src.nodeIdx = i ∧ e.dstUnit = d) = 0 := by
    rw [countP_eq_zero]
    intro e he
    obtain ⟨gi, gm, dst, -, -, rfl⟩ := mem_errorEdges.mp he
    simp only [decide_eq_true_eq]
    omega
  rw [unitEdges, countP_append, herr, boundaryEdges, nodeFanout, nodeOutEdges,
    countP_filter, countP_filterMap]
  grind

theorem srcUnit_of_src {e : UnitEdge} (he : e ∈ t.unitEdges) (hsrc : 0 ≤ e.src.nodeIdx) :
  e.srcUnit = t.nodeUnit e.src.nodeIdx
  := by
  rcases mem_append.mp he with hb | herr
  · obtain ⟨d, -, -, rfl⟩ := mem_boundaryEdges.mp hb
    rfl
  · obtain ⟨gi, gm, dst, -, -, rfl⟩ := mem_errorEdges.mp herr
    cases hsrc

theorem multiplicity_of_src {i d : Int} (hi : isDataNode t.nodes i) (hd : t.nodeUnit i ≠ d)
    (hsrc : ∀ e ∈ t.unitOutEdges (t.nodeUnit i), e.src.nodeIdx = i) :
  t.unitGraph.multiplicity (t.nodeUnit i) d = t.nodeFanout i d
  := by
  have hnonneg : 0 ≤ i := (mem_indices.mp (isDataNode_iff.mp hi).1).1
  rw [nodeFanout_eq_countP hnonneg hd]
  apply countP_congr
  intro e he
  simp only [decide_eq_true_eq]
  constructor
  · rintro ⟨hu, hd'⟩
    exact ⟨hsrc e (mem_unitOutEdges.mpr ⟨he, hu⟩), hd'⟩
  · rintro ⟨rfl, hd'⟩
    exact ⟨srcUnit_of_src he hnonneg, hd'⟩

section

variable {i : Int} {e : UnitEdge} (hi : isDataNode t.nodes i)
  (he : e ∈ t.unitOutEdges (t.nodeUnit i))

include hi he

theorem src_of_nodeFanout {d : Int} (hd : t.nodeUnit i ≠ d)
    (hcount : t.unitGraph.multiplicity (t.nodeUnit i) d = t.nodeFanout i d) (hdst : e.dstUnit = d) :
  e.src.nodeIdx = i
  := by
  obtain ⟨hmem, hsrc⟩ := mem_unitOutEdges.mp he
  have hnonneg : 0 ≤ i := (mem_indices.mp (isDataNode_iff.mp hi).1).1
  -- the edges from the unit are those of the node and the others
  have hsplit : t.unitGraph.multiplicity (t.nodeUnit i) d
      = t.unitEdges.countP (fun e => e.src.nodeIdx = i ∧ e.dstUnit = d)
        + t.unitEdges.countP (fun e =>
          e.src.nodeIdx ≠ i ∧ e.srcUnit = t.nodeUnit i ∧ e.dstUnit = d) := by
    rw [multiplicity_eq]
    apply countP_or_of_disjoint
    · intro x hx
      by_cases hidx : x.src.nodeIdx = i
      · have hunit := srcUnit_of_src hx (by rwa [hidx])
        simp [hidx, hunit]
      · simp [hidx]
    · intro x _ hleft
      simp only [decide_eq_true_eq] at hleft
      simp [hleft.1]
  rw [nodeFanout_eq_countP hnonneg hd] at hcount
  have hnone : t.unitEdges.countP (fun e =>
      e.src.nodeIdx ≠ i ∧ e.srcUnit = t.nodeUnit i ∧ e.dstUnit = d) = 0 := by
    omega
  rw [countP_eq_zero] at hnone
  by_contra hne
  exact hnone e hmem (by simp [hne, hsrc, hdst])

theorem src_of_nodeUnit (hkind : t.unitKindAt (t.nodeUnit i) = .node) :
  e.src.nodeIdx = i
  := by
  obtain ⟨he, hu⟩ := mem_unitOutEdges.mp he
  rcases mem_append.mp he with hb | herr
  · obtain ⟨d, hd, -, rfl⟩ := mem_boundaryEdges.mp hb
    symm
    apply (nodeUnit_eq_iff hi (t.edges_data d hd).1 hkind).mp hu.symm
  · obtain ⟨gi, gm, dst, hgm, -, rfl⟩ := mem_errorEdges.mp herr
    obtain ⟨hlt, -⟩ := List.getElem?_eq_some_iff.mp hgm
    rw [← hu, unitKindAt_groupUnit hlt] at hkind
    cases hkind

end

/-! ### Cycles -/

variable (t)

/-- An edge of the graph in which each group is one vertex: it joins nodes of different units, or a
group with the target of one of its error outputs. -/
def Contracted (u v : Int) : Prop :=
  (∃ e ∈ t.edges, t.nodeUnit e.srcIdx = u ∧ t.nodeUnit e.dstIdx = v ∧ u ≠ v) ∨
    ∃ (gi : Nat) (gm : GroupMeta) (dst : BoundaryEndpoint), t.groups[gi]? = some gm ∧
      dst ∈ gm.errorOutputs ∧ t.groupUnit gi = u ∧ t.nodeUnit dst.nodeIdx = v

theorem unitGraph_adj :
  t.unitGraph.Adj = t.Contracted
  := by
  funext u v
  simp only [Adj, unitGraph, unitEdges, mem_append, mem_boundaryEdges, mem_errorEdges,
    eq_iff_iff]
  constructor
  · rintro ⟨e, ⟨d, hd, ne, rfl⟩ | ⟨gi, gm, dst, hgm, hdst, rfl⟩, rfl, rfl⟩
    · exact .inl ⟨d, hd, rfl, rfl, ne⟩
    · exact .inr ⟨gi, gm, dst, hgm, hdst, rfl, rfl⟩
  · rintro (⟨d, hd, rfl, rfl, ne⟩ | ⟨gi, gm, dst, hgm, hdst, rfl, rfl⟩)
    · exact ⟨_, .inl ⟨d, hd, ne, rfl⟩, rfl, rfl⟩
    · exact ⟨_, .inr ⟨gi, gm, dst, hgm, hdst, rfl⟩, rfl, rfl⟩

/-- Both checks find exactly the cycles, and a graph that passes the second has a root unit if one
of its nodes takes part in the data flow. -/
theorem cycles_detected :
  (t.nodeGraph.sorts = false ↔
    ∃ i, Relation.TransGen (fun i j => ∃ e ∈ t.edges, e.srcIdx = i ∧ e.dstIdx = j) i i) ∧
  (t.unitGraph.sorts = false ↔ ∃ u, Relation.TransGen t.Contracted u u) ∧
  (t.unitGraph.sorts → (∃ i, isDataNode t.nodes i) → ∃ u, t.isRoot u)
  := by
  refine ⟨?_, ?_, ?_⟩
  · rw [← Bool.not_eq_true, sorts_iff, not_forall_not]
    rfl
  · rw [← Bool.not_eq_true, sorts_iff, not_forall_not, unitGraph_adj]
  · rintro sorted ⟨i, data⟩
    obtain ⟨u, unit, -, least⟩ := exists_minimal sorted (P := fun _ => True)
      ⟨t.nodeUnit i, nodeUnit_mem data, trivial⟩
    use u, unit
    rw [unitInDegreeAt_eq]
    simpa [inDegree, countP_eq_zero] using least

/-- A group of two nodes between two others, with an error output. -/
def grouped : Topology where
  nodes := [{ name := "a" }, { name := "b" }, { name := "c" }, { name := "d" }, { name := "e" }]
  edges := [{ srcIdx := 0, dstIdx := 1, srcPort := "main" },
    { srcIdx := 1, dstIdx := 2, srcPort := "main" },
    { srcIdx := 2, dstIdx := 3, srcPort := "main" }]
  groups := [{ name := "g", members := [1, 2], entryIdx := 1, errorOutputs := [⟨4, "main"⟩] }]

theorem grouped_root :
  grouped.boundaryEdges.length = 2 ∧ grouped.errorEdges.length = 1 ∧ ∃ u, grouped.isRoot u
  := by
  refine ⟨by decide, by decide, ?_⟩
  apply (cycles_detected grouped).2.2 (by decide)
  exact ⟨0, by decide⟩

/-- A supply node and nothing else. -/
def supplyOnly : Topology where
  nodes := [{ name := "a", kind := .supply }]
  edges := []

theorem supplyOnly_rootless :
  supplyOnly.nodeGraph.sorts ∧ supplyOnly.unitGraph.sorts ∧ ¬ ∃ u, supplyOnly.isRoot u
  := by
  refine ⟨by decide, by decide, ?_⟩
  rintro ⟨u, unit, -⟩
  exact absurd unit not_mem_nil

end Topology

/-! ### Compiled graphs -/

/-- The result of compilation: a topology that passed `detectCycle` and `detectUnitCycle`. -/
structure Graph extends Topology where
  acyclic_nodes : allowCycles = false → toTopology.nodeGraph.sorts := by decide
  acyclic_units : allowCycles = false → toTopology.unitGraph.sorts := by decide

instance : Coe Graph Topology := ⟨Graph.toTopology⟩

namespace Graph

variable {g : Graph}

theorem edge_ne (hacyc : g.allowCycles = false) {e : Edge} (he : e ∈ g.edges) :
  e.srcIdx ≠ e.dstIdx
  := by
  apply g.nodeGraph.src_ne_dst (g.acyclic_nodes hacyc) he

theorem multiplicity_self (hacyc : g.allowCycles = false) (u : Int) :
  g.unitGraph.multiplicity u u = 0
  := by
  rw [Multidigraph.multiplicity, countP_eq_zero]
  intro e he
  have hne := g.unitGraph.src_ne_dst (g.acyclic_units hacyc) he
  simp only [decide_eq_true_eq, not_and]
  rintro rfl heq
  apply hne heq.symm

theorem multiplicity_nodeUnit (hacyc : g.allowCycles = false) {i : Int}
    (hi : isDataNode g.nodes i) (hkind : g.unitKindAt (g.nodeUnit i) = .node) (d : Int) :
  g.unitGraph.multiplicity (g.nodeUnit i) d = g.nodeFanout i d
  := by
  by_cases hd : g.nodeUnit i = d
  · subst hd
    rw [multiplicity_self hacyc, nodeFanout, eq_comm, countP_eq_zero]
    intro e he
    obtain ⟨hmem, hsrc⟩ := mem_filter.mp he
    simp only [decide_eq_true_eq] at hsrc ⊢
    intro heq
    apply edge_ne hacyc hmem
    rw [hsrc]
    apply (nodeUnit_eq_iff hi (g.edges_data e hmem).2 hkind).mp heq.symm
  · apply multiplicity_of_src hi hd
    intro e he
    apply src_of_nodeUnit hi he hkind

/-! ### Graphs without groups -/

open Xflow.Topology

theorem unitKindAt_of_ungrouped (hgroups : g.groups = []) {i : Int} (hi : isDataNode g.nodes i) :
  g.unitKindAt (g.nodeUnit i) = .node
  := by
  rcases nodeUnit_cases hi with ⟨-, -, hat⟩ | ⟨gi, gm, hgm, -⟩
  · rw [unitKindAt, hat]
  · rw [hgroups] at hgm
    cases hgm

theorem unitKindAt_eq_node (hgroups : g.groups = []) (u : Int) :
  g.unitKindAt u = .node
  := by
  have hnode : ∀ um ∈ g.units, um.kind = .node := by
    intro um hum
    simp only [units, hgroups, zipIdx_nil, map_nil, append_nil, mem_map] at hum
    obtain ⟨i, -, rfl⟩ := hum
    rfl
  unfold unitKindAt unitAt
  cases hnth : nth? g.units u with
  | none => rfl
  | some um =>
    unfold nth? at hnth
    split at hnth
    · apply hnode um (mem_of_getElem? hnth)
    · cases hnth

theorem allowCycles_of_group {u : Int} (hkind : g.unitKindAt u = .group) :
  g.allowCycles = false
  := by
  cases hcycles : g.allowCycles with
  | false => rfl
  | true =>
    rw [g.unitKindAt_eq_node (g.cycles_ungrouped hcycles)] at hkind
    cases hkind

theorem countP_unitEdges (hacyc : g.allowCycles = false) (hgroups : g.groups = [])
    (p : UnitEdge → Bool) :
  g.unitEdges.countP p = g.edges.countP (fun e =>
    p ⟨g.nodeUnit e.srcIdx, g.nodeUnit e.dstIdx, ⟨e.srcIdx, e.srcPort⟩, ⟨e.dstIdx, e.dstPort⟩,
      false⟩)
  := by
  have herr : g.errorEdges = [] := by simp [errorEdges, hgroups]
  rw [unitEdges, herr, append_nil, boundaryEdges, countP_filterMap]
  apply countP_congr
  intro e he
  obtain ⟨hsrc, hdst⟩ := g.edges_data e he
  have hne : g.nodeUnit e.srcIdx ≠ g.nodeUnit e.dstIdx := by
    rw [ne_eq, nodeUnit_eq_iff hsrc hdst (g.unitKindAt_of_ungrouped hgroups hsrc)]
    apply g.edge_ne hacyc he
  simp [hne]

end Graph

end Xflow
