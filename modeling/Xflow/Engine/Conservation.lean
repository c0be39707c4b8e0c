import Xflow.Engine.Completion

/-!
# Conservation of arrivals

In a graph without groups the counters of a running execution can be read off the rows of the nodes:
the in-degree of a unit is the number of edges into it whose source has no terminal row, its active
inputs are the edges that start at the port on which their source was committed, and its marker is
the one that is due with these counters.  Roots have no marker.
-/

namespace Xflow

namespace Topology

variable (g : Topology)

/-- The source of the edge has no terminal row. -/
def edgeOpen (s : MemoryState) (e : UnitEdge) : Bool :=
  ¬ (s.rowOutcome (g.nodeName e.src.nodeIdx)).any (·.1.isTerminal)

/-- The source of the edge has a terminal row, with the port at which the edge starts. -/
def edgeTaken (s : MemoryState) (e : UnitEdge) : Bool :=
  (s.rowOutcome (g.nodeName e.src.nodeIdx)).any (fun row => row.1.isTerminal ∧ row.2 = e.src.port)

/-- The edges into a unit whose sources are open. -/
def openEdges (s : MemoryState) (d : Int) : Nat :=
  g.unitEdges.countP (fun e => e.dstUnit = d ∧ g.edgeOpen s e)

/-- The edges into a unit that were taken. -/
def takenEdges (s : MemoryState) (d : Int) : Nat :=
  g.unitEdges.countP (fun e => e.dstUnit = d ∧ g.edgeTaken s e)

end Topology

namespace System

open Function MemoryState Option Xflow.Topology

/-- The counters and the marker of each unit are those that the rows account for. -/
structure Conserved (g : Topology) (s : MemoryState) : Prop where
  inDegrees : ∀ d, g.isUnit d → s.inDegrees d = g.openEdges s d
  activeIns : ∀ d, g.isUnit d → s.activeIns d = g.takenEdges s d
  roots : ∀ d, g.isRoot d → s.scheduled d = .none
  due : ∀ d, g.isUnit d → ¬ g.isRoot d →
    s.scheduled d = dueMarker (g.unitMergeMode d) (s.inDegrees d) (s.activeIns d)

variable {g : Graph} {s t : MemoryState} {issued : List Task} {log : List AppliedCommit}

section

variable (hacyc : g.allowCycles = false) (hgroups : g.groups = [])

include hacyc hgroups

variable {st : NodeStatus} {port : String}

attribute [local simp] edgeTaken

omit hacyc hgroups in
theorem edges_of_lease {name : String} (hst : st.isTerminal = false)
    (hopen : (s.rowOutcome name).any (·.1.isTerminal) = false)
    (hrows : t.rowOutcome = update s.rowOutcome name (some (st, port))) :
  g.openEdges t = g.openEdges s ∧ g.takenEdges t = g.takenEdges s
  := by
  have hsame (p : NodeStatus × String → Bool) (hp : ∀ row, p row → row.1.isTerminal)
      (name' : String) : (t.rowOutcome name').any p = (s.rowOutcome name').any p := by
    by_cases hname : name' = name
    · subst hname
      have hnew : p (st, port) = false := by grind
      rw [hrows, update_self, any_some, hnew]
      cases hrow : s.rowOutcome name' <;> grind
    · rw [hrows, update_of_ne hname]
  constructor
  · funext d
    unfold openEdges edgeOpen
    congr 1
    funext e
    rw [hsame]
    simp
  · funext d
    unfold takenEdges edgeTaken
    congr 1
    funext e
    rw [hsame]
    simp

omit hacyc hgroups in
theorem Conserved.congr (h : Conserved g s) (hin : t.inDegrees = s.inDegrees)
    (hactive : t.activeIns = s.activeIns) (hsched : t.scheduled = s.scheduled)
    (hedges : g.openEdges t = g.openEdges s ∧ g.takenEdges t = g.takenEdges s) :
  Conserved g t
  := by
  constructor
  · rw [hin, hedges.1]
    exact h.inDegrees
  · rw [hactive, hedges.2]
    exact h.activeIns
  · rw [hsched]
    exact h.roots
  · rw [hsched, hin, hactive]
    exact h.due

omit hacyc in
theorem mergeMode_of_names {a : DownstreamArrival} (ha : g.Names a) :
  a.mergeMode = g.unitMergeMode a.unitIdx
  := by
  have hkind := g.unitKindAt_of_ungrouped hgroups ha.data
  have hidx := unitNodeIndex_nodeUnit ha.data hkind
  rw [unitNodeIndex, if_pos hkind] at hidx
  rw [ha.unitIdx, unitMergeMode, hkind, some.inj hidx, ha.target]
  rfl

section

variable {i : Int} (hi : isDataNode g.nodes i) (hst : st.isTerminal)
  (hopen : (s.rowOutcome (g.nodeName i)).any (·.1.isTerminal) = false)
  (hrows : t.rowOutcome = update s.rowOutcome (g.nodeName i) (some (st, port))) (d : Int)

include hi hst hopen hrows

theorem openEdges_of_update :
  g.openEdges s d = g.openEdges t d + g.nodeFanout i d
  := by
  unfold openEdges nodeFanout nodeOutEdges
  rw [g.countP_unitEdges hacyc hgroups, g.countP_unitEdges hacyc hgroups, List.countP_filter]
  apply Multidigraph.countP_or_of_disjoint
  · intro e he
    obtain ⟨hsrc, -⟩ := g.edges_data e he
    by_cases hidx : e.srcIdx = i
    · subst hidx
      simp [edgeOpen, hrows, hopen, hst]
    · simp [edgeOpen, hrows, nodeName_inj hsrc hi, hidx]
  · intro e he hleft
    by_cases hidx : e.srcIdx = i
    · subst hidx
      simp [edgeOpen, hrows, hst] at hleft
    · simp [hidx]

theorem takenEdges_of_update :
  g.takenEdges t d = g.takenEdges s d + g.portFanout i port d
  := by
  have hbefore {p : String} :
      (s.rowOutcome (g.nodeName i)).any (fun row => row.1.isTerminal && decide (row.2 = p))
        = false := by
    cases hrow : s.rowOutcome (g.nodeName i) with
    | none => rfl
    | some row =>
      rw [hrow] at hopen
      simp only [any_some] at hopen
      simp [hopen]
  unfold takenEdges portFanout nodeOutEdges
  rw [g.countP_unitEdges hacyc hgroups, g.countP_unitEdges hacyc hgroups, List.countP_filter]
  apply Multidigraph.countP_or_of_disjoint
  · intro e he
    obtain ⟨hsrc, -⟩ := g.edges_data e he
    by_cases hidx : e.srcIdx = i
    · subst hidx
      by_cases hport : e.srcPort = port
      · simp [hrows, hbefore, hst, hport]
      · simp [hrows, hbefore, hport, Ne.symm hport]
    · simp [hrows, nodeName_inj hsrc hi, hidx]
  · intro e he hleft
    by_cases hidx : e.srcIdx = i
    · subst hidx
      simp [hbefore] at hleft
    · simp [hidx]

/-- The arrivals of a committed node conserve the counters. -/
theorem Conserved.commit {failed fatal : Bool} {extra : Option OutboxEntry} {act depth : Int}
    (h : Conserved g s) (hsettled : Settled s t failed fatal extra)
    (hroot : ∀ d, g.isRoot d →
      (applyArrivals act depth (g.downstreamArrivals i port) t).1.scheduled d = s.scheduled d) :
  Conserved g (applyArrivals act depth (g.downstreamArrivals i port) t).1
  := by
  have hnames : ∀ a ∈ g.downstreamArrivals i port, g.Names a := fun a => names_downstreamArrivals
  have hcount : ∀ a ∈ g.downstreamArrivals i port, 0 < a.arrivalCount :=
    fun a ha => (hnames a ha).arrived
  have hactive : ∀ a ∈ g.downstreamArrivals i port, 0 ≤ a.activeCount :=
    fun a ha => (hnames a ha).active_nonneg
  have hrows' : (applyArrivals act depth (g.downstreamArrivals i port) t).1.rowOutcome
      = update s.rowOutcome (g.nodeName i) (some (st, port)) := by
    rw [rowOutcome_congr applyArrivals_nodes, hrows]
  have hin (d : Int) (hd : g.isUnit d) := h.inDegrees d hd
  constructor
  · intro d hd
    have hopens := openEdges_of_update hacyc hgroups hi hst hopen hrows' d
    rw [applyArrivals_inDegrees hcount, arrivedAt_downstreamArrivals hi, hsettled.inDegrees,
      hin d hd]
    omega
  · intro d hd
    have htaken := takenEdges_of_update hacyc hgroups hi hst hopen hrows' d
    rw [applyArrivals_activeIns hcount hactive, activeAt_downstreamArrivals hi,
      hsettled.activeIns, h.activeIns d hd]
    omega
  · intro d hd
    rw [hroot d hd, h.roots d hd]
  · intro d hd hnotRoot
    apply applyArrivals_due hcount hactive
    · rintro a ha rfl
      apply mergeMode_of_names hgroups (hnames a ha)
    · have hopens := openEdges_of_update hacyc hgroups hi hst hopen hrows' d
      rw [arrivedAt_downstreamArrivals hi, hsettled.inDegrees, hin d hd]
      omega
    · rw [hsettled.activeIns, h.activeIns d hd]
      omega
    · rw [hsettled.scheduled, hsettled.inDegrees, hsettled.activeIns]
      apply h.due d hd hnotRoot

end

theorem Conserved.move {applied : List AppliedCommit} (h : Conserved g s)
    (haccounted : Accounted g s issued log)
    (hmove : Move g issued s t applied) (hbefore : s.status? = some .running)
    (hafter : t.status? = some .running) :
  Conserved g t
  := by
  have hroot := (haccounted.move hacyc hmove).root
  cases hmove with
  | stay => exact h
  | leaseNode task lease hissued htype htask =>
    rw [hacyc]
    rcases @acquireTaskLeaseChecked_cases s lease with hsame | ⟨hopen, hrows⟩
    · rwa [hsame]
    · apply h.congr _ _ _ (edges_of_lease rfl hopen hrows) <;> rw [acquireTaskLeaseChecked_frame]
  | leaseGroup task leaseID leaseToken hissued htype =>
    obtain ⟨st, heq, -⟩ := s.acquireGroupLease_cases
    rw [heq]
    exact h.congr rfl rfl rfl ⟨rfl, rfl⟩
  | commitNode req hreq hunit =>
    rcases commit_running hreq hbefore hafter with ⟨-, hsame⟩ | ⟨b, happlies, -, hfolded⟩
    · rw [hsame]
      exact h
    · rw [happlies.eq, hfolded] at hroot ⊢
      apply h.commit hacyc hgroups hreq.data hreq.terminal happlies.opened happlies.rows
        happlies.settled hroot
  | commitGroup req hreq =>
    obtain ⟨gi, gm, hgm, -⟩ := exists_group_of_unit hreq.unit hreq.kind
    rw [hgroups] at hgm
    cases hgm

theorem Conserved.step {a : Action} {σ τ : System} (h : Conserved g σ.store)
    (haccounted : Accounted g σ.store σ.issued σ.log)
    (hbefore : σ.store.status? = some .running) (hstep : step g a σ = some τ)
    (hafter : τ.store.status? = some .running) :
  Conserved g τ.store
  := by
  obtain ⟨s, applied, keep, hsub, hmove, rfl⟩ :=
    step_moves haccounted.handles hstep haccounted.outbox
  exact (h.move hacyc hgroups haccounted (hmove.mono hsub) hbefore hafter).congr rfl rfl rfl
    ⟨rfl, rfl⟩

attribute [local simp] createExecution

omit hgroups in
theorem conserved_submit {id : String} {testRun limited : Bool} :
  Conserved g (submit g id testRun limited).store
  := by
  have hsched (d : Int) : (submit g id testRun limited).store.scheduled d = .none :=
    submit_scheduled hacyc d
  obtain ⟨sched, heq, -⟩ := start_spec g id testRun limited g.submitInitialTasks
  rw [submit] at hsched ⊢
  rw [heq] at hsched ⊢
  constructor
  · intro d _
    simp [openEdges, edgeOpen, rowOutcome, unitInDegreeAt]
  · intro d _
    simp [takenEdges, rowOutcome]
  · intro d _
    apply hsched
  · intro d hd hnotRoot
    have hpos : 0 < g.unitInDegreeAt d := by
      have hne : g.unitInDegreeAt d ≠ 0 := fun hzero => hnotRoot ⟨hd, hzero⟩
      unfold unitInDegreeAt at hne ⊢
      omega
    rw [hsched]
    symm
    apply dueMarker_eq_none.mpr
    exact ⟨hpos, by simp⟩

end

end System

open Transition

/-- In a graph without groups, in every state of a run in which the execution is still running, the
counters of a unit count the edges from open sources and from the committed ports of closed ones,
and its marker is the one that these counters decide. -/
theorem arrivals_conserved (g : Graph) (hacyc : g.allowCycles = false) (hgroups : g.groups = [])
    {id : String} {testRun limited : Bool} {σ : System}
    (hrun : Run (System.step g.toTopology) (fun _ _ => True)
      (System.submit g.toTopology id testRun limited) σ)
    (hrunning : σ.store.status? = some .running) {u : Int} (hu : g.isUnit u) :
  σ.store.inDegrees u = g.openEdges σ.store u ∧ σ.store.activeIns u = g.takenEdges σ.store u ∧
    0 ≤ σ.store.inDegrees u ∧ 0 ≤ σ.store.activeIns u ∧
    (σ.store.scheduled u = .none ↔ g.isRoot u ∨ 0 < σ.store.inDegrees u ∧
      ¬ (g.unitMergeMode u = "wait_any" ∧ 0 < σ.store.activeIns u)) ∧
    (¬ g.isRoot u →
      (g.unitMergeMode u = "wait_any" →
        (σ.store.scheduled u = .execute ↔ 0 < σ.store.activeIns u)) ∧
      (g.unitMergeMode u ≠ "wait_any" →
        (σ.store.scheduled u ≠ .none ↔ σ.store.inDegrees u = 0)) ∧
      (σ.store.scheduled u = .skip ↔ σ.store.inDegrees u = 0 ∧ σ.store.activeIns u = 0))
  := by
  have hconserved : System.Conserved g σ.store := by
    apply (System.accounted_of_starts hacyc (.inl ⟨id, testRun, limited, rfl⟩)).run_running
      (I := fun σ => System.Conserved g σ.store) hacyc hrun
      (System.conserved_submit hacyc) _ hrunning
    intro a σ τ h _ haccounted hbefore hstep hafter
    exact h.step hacyc hgroups haccounted hbefore hstep hafter
  have hin := hconserved.inDegrees u hu
  have hactive := hconserved.activeIns u hu
  refine ⟨hin, hactive, by omega, by omega, ?_, ?_⟩
  · by_cases hroot : g.isRoot u
    · simp [hconserved.roots u hroot, hroot]
    · rw [hconserved.due u hu hroot, MemoryState.dueMarker_eq_none]
      simp [hroot]
  · intro hroot
    rw [hconserved.due u hu hroot]
    refine ⟨?_, ?_, ?_⟩
    · intro hmode
      rw [MemoryState.dueMarker_eq_execute]
      simp [hmode]
    · intro hmode
      rw [ne_eq, MemoryState.dueMarker_eq_none]
      simp only [hmode, false_and, not_false_eq_true, and_true]
      omega
    · rw [MemoryState.dueMarker_eq_skip]
      omega

/-- A node with two successors, of which the second also follows the first and waits for any. -/
def earlyMerge : Graph where
  nodes := [{ name := "a" }, { name := "b" }, { name := "m", mergeMode := "wait_any" }]
  edges := [{ srcIdx := 0, dstIdx := 1, srcPort := "main" },
    { srcIdx := 0, dstIdx := 2, srcPort := "main" },
    { srcIdx := 1, dstIdx := 2, srcPort := "main" }]

/-- The merge is marked to be run after the first of its two edges was taken. -/
theorem earlyMerge_marked :
  ∃ σ, Run (System.step earlyMerge.toTopology) (fun _ _ => True)
      (System.submit earlyMerge.toTopology "e" false false) σ ∧
    σ.store.status? = some .running ∧ σ.store.inDegrees 2 = 1 ∧ σ.store.activeIns 2 = 1 ∧
    σ.store.scheduled 2 = .execute
  := by
  refine exists_run_of (P := fun σ => σ.store.status? = some .running ∧
    σ.store.inDegrees 2 = 1 ∧ σ.store.activeIns 2 = 1)
    [.deliver (initialOutboxID "e" "a" 0) soleClaim,
      .commitNode { nodeName := "a", nodeIdx := 0, type := .nodeExec } soleKey
        { status := .success, port := "main" }] (by decide) ?_
  rintro σ hrun ⟨hrunning, hin, hactive⟩
  refine ⟨hrunning, hin, hactive, ?_⟩
  have hdecides := arrivals_conserved earlyMerge rfl rfl hrun hrunning (u := 2) (by decide)
  apply ((hdecides.2.2.2.2.2 (by decide)).1 (by decide)).mpr
  omega

end Xflow
