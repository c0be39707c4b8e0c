import Xflow.Graph.Topology

/-!
# Nodes and their units

Every node that takes part in the data flow has a unit, a node unit has exactly one node
(`nodeUnit_eq_iff`), and the members of a group share the group's unit.  The nodes with their edges
and the units with theirs are multigraphs; a compiled graph is a topology on which both are free of
cycles, unless the workflow allows them.
-/

namespace Xflow

open List Option

namespace Topology

variable {t : Topology}

/-! ### The unit of a node -/

variable {i : Int} {gi : Nat} {u : Int} {gm : GroupMeta}

theorem isDataNode_iff {nodes : List NodeMeta} :
  isDataNode nodes i ↔ i ∈ indices nodes ∧ ((nth? nodes i).getD default).kind ≠ .supply
  := by
  rw [mem_indices, ← nth?_eq_some]
  unfold isDataNode
  cases nth? nodes i <;> simp

theorem groupIdx_of_mem
    (hgm : t.groups[gi]? = some gm) (hi : i ∈ gm.members) :
  t.groupIdx i = gi
  := by
  obtain ⟨hlt, rfl⟩ := List.getElem?_eq_some_iff.mp hgm
  have hfind : t.groups.findIdx? (fun gm => i ∈ gm.members) = some gi := by
    rw [findIdx?_eq_some_iff_getElem]
    refine ⟨hlt, by simpa using hi, ?_⟩
    intro j hj
    have := pairwise_iff_getElem.mp t.members_disjoint j gi (by omega) hlt hj
    simp only [decide_eq_true_eq]
    intro hmem
    apply this i hmem hi
  rw [groupIdx, hfind]

/-- The group index of a node is `-1` or names a group the node is a member of. -/
theorem groupIdx_cases (i : Int) :
  (t.groupIdx i = -1 ∧ ∀ gm ∈ t.groups, i ∉ gm.members) ∨
    ∃ (gi : Nat) (gm : GroupMeta),
      t.groups[gi]? = some gm ∧ i ∈ gm.members ∧ t.groupIdx i = gi
  := by
  cases h : t.groups.findIdx? (fun gm => i ∈ gm.members) with
  | none =>
    left
    constructor
    · rw [groupIdx, h]
    · simpa using h
  | some gi =>
    right
    obtain ⟨hlt, hmem, -⟩ := findIdx?_eq_some_iff_getElem.mp h
    use gi, t.groups[gi]
    refine ⟨getElem?_eq_getElem hlt, by simpa using hmem, ?_⟩
    rw [groupIdx, h]

theorem ungrouped_nodup (t : Topology) :
  t.ungrouped.Nodup
  := by
  apply (nodup_indices _).filter

theorem length_units (t : Topology) :
  t.units.length = t.ungrouped.length + t.groups.length
  := by
  simp [units]

theorem units_getElem?_node {u : Nat} (hu : u < t.ungrouped.length) :
  t.units[u]? = some ⟨.node, t.nodeName t.ungrouped[u], t.ungrouped[u], -1⟩
  := by
  rw [units, getElem?_append_left (by simpa using hu)]
  simp

theorem units_getElem?_group (h : t.groups[gi]? = some gm) :
  t.units[t.ungrouped.length + gi]? = some ⟨.group, gm.name, -1, gi⟩
  := by
  rw [units, getElem?_append_right (by simp)]
  simp [h]

theorem unit_cases (hu : u ∈ indices t.units) :
  (∃ i ∈ t.ungrouped, t.unitAt u = ⟨.node, t.nodeName i, i, -1⟩ ∧ t.nodeUnit i = u) ∨
    ∃ (gi : Nat) (gm : GroupMeta), t.groups[gi]? = some gm ∧
      t.unitAt u = ⟨.group, gm.name, -1, gi⟩ ∧ t.groupUnit gi = u
  := by
  rw [mem_indices, length_units] at hu
  obtain ⟨n, rfl⟩ := Int.eq_ofNat_of_zero_le hu.1
  by_cases hn : n < t.ungrouped.length
  · left
    have hmem : t.ungrouped[n] ∈ t.ungrouped := getElem_mem hn
    refine ⟨t.ungrouped[n], hmem, ?_, ?_⟩
    · simp [unitAt, units_getElem?_node hn]
    · have hidx : t.groupIdx t.ungrouped[n] = -1 := by
        have := of_mem_filter hmem
        simp only [decide_eq_true_eq] at this
        apply this.1
      simp [nodeUnit, hidx, (ungrouped_nodup t).idxOf_getElem n hn]
  · right
    obtain ⟨gi, rfl⟩ := Nat.exists_eq_add_of_le (Nat.le_of_not_lt hn)
    have hlt : gi < t.groups.length := by omega
    refine ⟨gi, t.groups[gi], getElem?_eq_getElem hlt, ?_, ?_⟩
    · simp only [unitAt, nth?_natCast, units_getElem?_group (getElem?_eq_getElem hlt),
        getD_some]
    · simp [groupUnit]

theorem nodeUnit_cases (hi : isDataNode t.nodes i) :
  (i ∈ t.ungrouped ∧ t.nodeUnit i = t.ungrouped.idxOf i ∧
      t.unitAt (t.nodeUnit i) = ⟨.node, t.nodeName i, i, -1⟩) ∨
    ∃ (gi : Nat) (gm : GroupMeta), t.groups[gi]? = some gm ∧ i ∈ gm.members ∧
      t.nodeUnit i = t.groupUnit gi ∧ t.unitAt (t.nodeUnit i) = ⟨.group, gm.name, -1, gi⟩
  := by
  rcases groupIdx_cases (t := t) i with ⟨hidx, -⟩ | ⟨gi, gm, hgm, hmem, hidx⟩
  · left
    rw [isDataNode_iff] at hi
    have hun : i ∈ t.ungrouped := by
      apply mem_filter.mpr
      refine ⟨hi.1, ?_⟩
      simpa [hidx, nodeAt] using hi.2
    have hunit : t.nodeUnit i = t.ungrouped.idxOf i := by simp [nodeUnit, hidx, hun]
    refine ⟨hun, hunit, ?_⟩
    have hlt : t.ungrouped.idxOf i < t.ungrouped.length := idxOf_lt_length_of_mem hun
    rw [hunit]
    simp [unitAt, units_getElem?_node hlt]
  · right
    have hunit : t.nodeUnit i = t.groupUnit gi := by simp [nodeUnit, hidx]
    refine ⟨gi, gm, hgm, hmem, hunit, ?_⟩
    have hcast : t.groupUnit gi = ((t.ungrouped.length + gi : Nat) : Int) := by
      simp [groupUnit]
    rw [hunit, hcast]
    simp only [unitAt, nth?_natCast, units_getElem?_group hgm, getD_some]

theorem nodeUnit_mem (hi : isDataNode t.nodes i) :
  t.nodeUnit i ∈ indices t.units
  := by
  rw [mem_indices, length_units]
  rcases nodeUnit_cases hi with ⟨hun, hunit, -⟩ | ⟨gi, gm, hgm, -, hunit, -⟩
  · have := idxOf_lt_length_of_mem hun
    omega
  · obtain ⟨hlt, -⟩ := List.getElem?_eq_some_iff.mp hgm
    rw [hunit, groupUnit]
    omega

theorem groupUnit_mem (h : gi < t.groups.length) :
  t.groupUnit gi ∈ indices t.units
  := by
  rw [mem_indices, length_units, groupUnit]
  omega

theorem unitKindAt_groupUnit (h : gi < t.groups.length) :
  t.unitKindAt (t.groupUnit gi) = .group
  := by
  have hcast : t.groupUnit gi = ((t.ungrouped.length + gi : Nat) : Int) := by
    simp [groupUnit]
  simp only [unitKindAt, unitAt, hcast, nth?_natCast,
    units_getElem?_group (getElem?_eq_getElem h), getD_some]

theorem isDataNode_of_mem_ungrouped (hi : i ∈ t.ungrouped) :
  isDataNode t.nodes i ∧ t.groupIdx i = -1
  := by
  obtain ⟨hmem, hprop⟩ := mem_filter.mp hi
  simp only [decide_eq_true_eq] at hprop
  rw [isDataNode_iff]
  exact ⟨⟨hmem, hprop.2⟩, hprop.1⟩

theorem unitNodeIndex_nodeUnit (hi : isDataNode t.nodes i)
    (hkind : t.unitKindAt (t.nodeUnit i) = .node) :
  t.unitNodeIndex (t.nodeUnit i) = some i
  := by
  rcases nodeUnit_cases hi with ⟨-, -, hat⟩ | ⟨gi, gm, -, -, -, hat⟩
  · simp [unitNodeIndex, unitKindAt, hat]
  · rw [unitKindAt, hat] at hkind
    cases hkind

theorem nodeUnit_eq_iff {i j : Int} (hi : isDataNode t.nodes i) (hj : isDataNode t.nodes j)
    (hkind : t.unitKindAt (t.nodeUnit i) = .node) :
  t.nodeUnit i = t.nodeUnit j ↔ i = j
  := by
  constructor
  · intro h
    have hindex := unitNodeIndex_nodeUnit hi hkind
    rw [h] at hindex hkind
    exact some.inj (hindex.symm.trans (unitNodeIndex_nodeUnit hj hkind))
  · rintro rfl
    rfl

theorem exists_node_of_unit (hu : u ∈ indices t.units) (hkind : t.unitKindAt u = .node) :
  ∃ i, isDataNode t.nodes i ∧ t.unitNodeIndex u = some i ∧ t.nodeUnit i = u
  := by
  rcases unit_cases hu with ⟨i, hi, hat, hunit⟩ | ⟨gi, gm, -, hat, -⟩
  · use i
    refine ⟨(isDataNode_of_mem_ungrouped hi).1, ?_, hunit⟩
    simp [unitNodeIndex, unitKindAt, hat]
  · rw [unitKindAt, hat] at hkind
    cases hkind

theorem exists_group_of_unit (hu : u ∈ indices t.units)
    (hkind : t.unitKindAt u = .group) :
  ∃ (gi : Nat) (gm : GroupMeta), t.groups[gi]? = some gm ∧ t.groupMetaAt u = some gm ∧
    t.groupUnit gi = u
  := by
  rcases unit_cases hu with ⟨i, hi, hat, hunit⟩ | ⟨gi, gm, hgm, hat, hunit⟩
  · rw [unitKindAt, hat] at hkind
    cases hkind
  · refine ⟨gi, gm, hgm, ?_, hunit⟩
    simp [groupMetaAt, unitKindAt, hat, hgm]

end Topology

end Xflow
