import Xflow.Engine.Progress

/-!
# Skipping a group

A group whose inputs are all inactive is skipped by a commit of one of its members, and this commit
reports the edges of that member only.  So the skip reaches the successors of the group exactly when
all edges out of the group start at the member, and an execution is kept from being stuck exactly as
far as this holds for the groups it skips.
-/

namespace Xflow

namespace Graph

open Int Xflow.Topology

variable {g : Graph}

/-- The arrivals of a skipped member account for the edges out of its unit, with none of them
active, exactly when all of these start at the member, at a port with a name, and the arrivals are
not dropped. -/
theorem skipArrivals_cover_iff (hacyc : g.allowCycles = false) {i : Int}
    (hi : isDataNode g.nodes i) {last : Prop} [Decidable last] :
  (∀ d, g.isUnit d → d ≠ g.nodeUnit i →
    arrivedAt (if last then [] else g.downstreamArrivals i "") d
        = g.unitGraph.multiplicity (g.nodeUnit i) d ∧
      activeAt (if last then [] else g.downstreamArrivals i "") d = 0) ↔
    ∀ e ∈ g.unitOutEdges (g.nodeUnit i), e.src.nodeIdx = i ∧ e.src.port ≠ "" ∧ ¬ last
  := by
  constructor
  · intro h e he
    obtain ⟨hmem, hsrc⟩ := mem_unitOutEdges.mp he
    have hne : e.dstUnit ≠ g.nodeUnit i := by
      rw [← hsrc]
      exact Ne.symm (g.unitGraph.src_ne_dst (g.acyclic_units hacyc) hmem)
    obtain ⟨harrived, hactive⟩ := h e.dstUnit (isUnit_dst he) hne
    have hpos : 0 < g.unitGraph.multiplicity (g.nodeUnit i) e.dstUnit := by
      rw [multiplicity_eq, List.countP_pos_iff]
      exact ⟨e, hmem, by simp [hsrc]⟩
    by_cases hlast : last
    · rw [if_pos hlast, arrivedAt_nil] at harrived
      omega
    · rw [if_neg hlast] at harrived hactive
      rw [arrivedAt_downstreamArrivals hi, natCast_inj] at harrived
      rw [activeAt_downstreamArrivals hi, natCast_eq_zero,
        portFanout_eq_zero hi (Ne.symm hne)] at hactive
      have hidx := src_of_nodeFanout hi he (Ne.symm hne) harrived.symm rfl
      exact ⟨hidx, hactive e he hidx rfl, hlast⟩
  · intro h d _ hd
    by_cases hlast : last
    · have hnone : g.unitOutEdges (g.nodeUnit i) = [] := by
        apply List.eq_nil_iff_forall_not_mem.mpr
        intro e he
        exact (h e he).2.2 hlast
      rw [if_pos hlast, ← countP_unitOutEdges, hnone]
      exact ⟨rfl, rfl⟩
    · rw [if_neg hlast]
      constructor
      · rw [arrivedAt_downstreamArrivals hi,
          multiplicity_of_src hi (Ne.symm hd) (fun e he => (h e he).1)]
      · rw [activeAt_downstreamArrivals hi, natCast_eq_zero,
          portFanout_eq_zero hi (Ne.symm hd)]
        exact fun e he _ _ => (h e he).2.1

end Graph

namespace System

open Xflow.Topology MemoryState

variable {s : MemoryState} {issued : List Task} {log : List AppliedCommit}

/-- From `s` to `t` the skip of a unit reached its successors: each of them lost the edges from the
unit, none of them active, and the units whose predecessors are all closed are marked. -/
structure SkipPropagates (g : Topology) (s t : MemoryState) (u : Int) : Prop where
  counted : ∀ d, g.isUnit d → d ≠ u →
    t.inDegrees d = s.inDegrees d - g.unitGraph.multiplicity u d
  quiet : ∀ d, g.isUnit d → d ≠ u → t.activeIns d = s.activeIns d
  marked : ∀ d, g.isUnit d → ¬ g.isRoot d →
    (∀ e ∈ g.unitEdges, e.dstUnit = d → Closed g t e.srcUnit) → t.scheduled d ≠ .none

section

variable {g : Topology} {task : Task} (h : Accounted g s issued log) (htask : task ∈ issued)
  (htype : task.type = .nodeSkip) (hkind : g.unitKindAt task.unitIdx = .group)
  (hopen : ¬ Closed g s task.unitIdx) (hrunning : s.status? = some .running)

include h htask htype hkind hopen hrunning

theorem Accounted.skip_accepted :
  s.commitVerdict (g.skipRequest task) = .accepted
  := by
  obtain ⟨hnames, hunit⟩ : g.NamesNode task ∧ task.unitIdx = g.nodeUnit task.nodeIdx := by
    have hhandles := h.handles task htask
    unfold Handles at hhandles
    rwa [htype] at hhandles
  have hrow : s.nodes task.nodeName = none := by
    by_contra hsome
    apply hopen
    left
    use task.nodeIdx, hnames.data, hunit.symm
    rw [hunit] at hkind
    apply (h.rows task.nodeIdx hnames.data hkind _).1
    rw [rowOutcome, ← hnames.name, Option.isSome_map]
    exact Option.isSome_iff_ne_none.mpr hsome
  obtain ⟨snap, hsnap, hstatus⟩ := Option.map_eq_some_iff.mp hrunning
  simp [commitVerdict, skipRequest, hsnap, hrow, hstatus, ExecutionStatus.isTerminal,
    systemFenceAdmits]

/-- The skip of an open group settles the group and folds the arrivals of the member it names. -/
theorem Accounted.skip_settled {claim : Claim} :
  ∃ b act depth, Settled s b false false none ∧
    s.handle g task claim = ((applyArrivals act depth
        (if s.remaining = 1 then [] else g.downstreamArrivals task.nodeIdx "") b).1,
      [⟨task.unitIdx, false, false⟩])
  := by
  have hhandles := h.handles task htask
  have haccepted := h.skip_accepted htask htype hkind hopen hrunning
  rw [handle_skip hhandles htype hrunning]
  unfold Handles at hhandles
  rw [htype] at hhandles
  have hreq := engineCommit_skipRequest hhandles.1
  obtain ⟨b, happlies⟩ := (commit_cases hreq h.mild).resolve_left fun hno => hno.1 haccepted
  refine ⟨b, task.activationID, task.autoDepth, happlies.settled, ?_⟩
  rw [happlies.eq]
  have hfolded : s.foldedArrivals (g.skipRequest task)
      = if s.remaining = 1 then [] else g.downstreamArrivals task.nodeIdx "" := by
    unfold foldedArrivals ends
    simp [skipRequest]
  rw [hfolded, hhandles.2]
  rfl

end

section

variable {g : Graph} {b : MemoryState} {failed fatal : Bool} {extra : Option OutboxEntry}
  {arrivals : List DownstreamArrival} {act depth u : Int} (hacyc : g.allowCycles = false)
  (h : Counted g s log) (hledger : Ledger g s log) (hsettled : Settled s b failed fatal extra)
  (hopen : ¬ Closed g s u)
  (hclosed : ∀ v, v ∈ (log ++ [(⟨u, false, false⟩ : AppliedCommit)]).map (·.unit) ↔
    Closed g (applyArrivals act depth arrivals b).1 v)

include hacyc h hledger hsettled hopen hclosed

/-- A unit that is not a root is marked after a skip that counted the edges from the skipped unit,
if all its predecessors are closed then. -/
theorem Counted.marked_of_skip {d : Int} (hcount : ∀ a ∈ arrivals, 0 < a.arrivalCount)
    (hcover : d ≠ u → arrivedAt arrivals d = g.unitGraph.multiplicity u d) (hd : g.isUnit d)
    (hroot : ¬ g.isRoot d)
    (hpreds : ∀ e ∈ g.unitEdges, e.dstUnit = d →
      Closed g (applyArrivals act depth arrivals b).1 e.srcUnit) :
  (applyArrivals act depth arrivals b).1.scheduled d ≠ .none
  := by
  apply marked_of_arrivals hsettled hcount (h.due d hd hroot)
  -- no edge into the unit is open any more
  have hzero : g.unitGraph.openIn
      ((log ++ [(⟨u, false, false⟩ : AppliedCommit)]).map (·.unit)) d = 0 := by
    rw [g.unitGraph.openIn_eq_zero]
    intro e he hdst
    rw [hclosed]
    exact hpreds e he hdst
  have hsplit := openIn_append hledger (c := ⟨u, false, false⟩) hopen d
  dsimp only at hsplit
  have hle := h.counts_le d
  rw [applyArrivals_inDegrees hcount, hsettled.inDegrees]
  by_cases hne : d = u
  · subst hne
    have hself := g.multiplicity_self hacyc d
    have hnonneg := arrivedAt_nonneg hcount d
    omega
  · omega

/-- A skip reaches the successors of its unit exactly when its arrivals count the edges from the
unit and none of them is active. -/
theorem Counted.skipPropagates_iff (hnames : ∀ a ∈ arrivals, g.Names a) :
  SkipPropagates g s (applyArrivals act depth arrivals b).1 u ↔
    ∀ d, g.isUnit d → d ≠ u →
      arrivedAt arrivals d = g.unitGraph.multiplicity u d ∧ activeAt arrivals d = 0
  := by
  have hcount : ∀ a ∈ arrivals, 0 < a.arrivalCount := fun a ha => (hnames a ha).arrived
  have hactive : ∀ a ∈ arrivals, 0 ≤ a.activeCount := fun a ha => (hnames a ha).active_nonneg
  have hin (d : Int) : (applyArrivals act depth arrivals b).1.inDegrees d
      = s.inDegrees d - arrivedAt arrivals d := by
    rw [applyArrivals_inDegrees hcount, hsettled.inDegrees]
  have hout (d : Int) : (applyArrivals act depth arrivals b).1.activeIns d
      = s.activeIns d + activeAt arrivals d := by
    rw [applyArrivals_activeIns hcount hactive, hsettled.activeIns]
  constructor
  · intro hprop d hd hne
    have hdegree := hprop.counted d hd hne
    have hquiet := hprop.quiet d hd hne
    rw [hin] at hdegree
    rw [hout] at hquiet
    constructor
    · omega
    · omega
  · intro hcover
    constructor
    · intro d hd hne
      rw [hin, (hcover d hd hne).1]
    · intro d hd hne
      rw [hout, (hcover d hd hne).2, add_zero]
    · intro d hd hroot hpreds
      apply h.marked_of_skip hacyc hledger hsettled hopen hclosed hcount _ hd hroot hpreds
      exact fun hne => (hcover d hd hne).1

end

end System

open Transition Xflow.System

/-- The skip of an open group reaches its successors exactly when every edge out of the group starts
at the member that the skip task names, at a port with a name, and the skip does not end the
execution. -/
theorem group_skip_propagates_iff (g : Graph) {begin σ : System}
    (hstart : Starts g.toTopology begin)
    (hrun : Run (step g.toTopology) (SkipsCovered g.toTopology) begin σ)
    (hrunning : σ.store.status? = some .running) {task : Task} (htask : task ∈ σ.issued)
    (htype : task.type = .nodeSkip) (hkind : g.unitKindAt task.unitIdx = .group)
    (hopen : ¬ Closed g.toTopology σ.store task.unitIdx) (claim : Claim) :
  SkipPropagates g.toTopology σ.store (σ.store.handle g.toTopology task claim).1 task.unitIdx ↔
    ∀ e ∈ g.unitOutEdges task.unitIdx,
      e.src.nodeIdx = task.nodeIdx ∧ e.src.port ≠ "" ∧ σ.store.remaining ≠ 1
  := by
  have hacyc := g.allowCycles_of_group hkind
  have haccounted := accounted_run hacyc hstart hrun
  have hcounted : Counted g σ.store σ.log := by
    apply (accounted_of_starts hacyc hstart).run_running
      (I := fun σ => Counted g σ.store σ.log) hacyc hrun (counted_of_starts hstart) _
      hrunning
    intro a σ τ h hcover haccounted hbefore hstep hafter
    exact h.step hacyc haccounted hcover hbefore hstep hafter
  have hunit := haccounted.skip_unit htask htype
  have hhandles := haccounted.handles task htask
  have hdata : isDataNode g.nodes task.nodeIdx := by
    unfold Topology.Handles at hhandles
    rw [htype] at hhandles
    exact hhandles.1.data
  have hmove : Move g σ.issued σ.store
      (σ.store.handle g task claim).1 (σ.store.handle g task claim).2 :=
    move_handle htask hhandles
  have hclosed := (haccounted.move hacyc hmove).closed
  obtain ⟨b, act, depth, hsettled, heq⟩ : ∃ b act depth, _ ∧
      σ.store.handle g task claim = _ :=
    haccounted.skip_settled htask htype hkind hopen hrunning
  rw [heq] at hclosed ⊢
  rw [hunit] at hopen hclosed ⊢
  rw [← g.skipArrivals_cover_iff hacyc hdata]
  apply hcounted.skipPropagates_iff hacyc haccounted.toLedger hsettled hopen hclosed
  intro a ha
  split at ha
  · cases ha
  · exact Topology.names_downstreamArrivals ha

/-- A node that leads to a group of two, and a node that follows the second member. -/
def leavesAtSecond : Graph where
  nodes := [{ name := "a" }, { name := "m1" }, { name := "m2" }, { name := "b" }]
  edges := [{ srcIdx := 0, dstIdx := 1, srcPort := "x" },
    { srcIdx := 1, dstIdx := 2, srcPort := "main" },
    { srcIdx := 2, dstIdx := 3, srcPort := "main" }]
  groups := [{ name := "pair", members := [1, 2], entryIdx := 1 }]

/-- A node that leads to a group of two, and a node that follows the first member. -/
def leavesAtFirst : Graph where
  nodes := [{ name := "a" }, { name := "m1" }, { name := "m2" }, { name := "b" }]
  edges := [{ srcIdx := 0, dstIdx := 1, srcPort := "x" },
    { srcIdx := 1, dstIdx := 2, srcPort := "main" },
    { srcIdx := 1, dstIdx := 3, srcPort := "main" }]
  groups := [{ name := "pair", members := [1, 2], entryIdx := 1 }]

/-- The node before the group runs and commits on a port that does not lead to the group. -/
def takesOtherPort : List Action :=
  [.deliver (initialOutboxID "e" "a" 0) soleClaim,
    .commitNode { nodeName := "a", nodeIdx := 0, type := .nodeExec } soleKey
      { status := .success, port := "y" }]

/-- The task that skips the group. -/
def skipPair : Task where
  nodeName := "m1"
  nodeIdx := 1
  unitIdx := 2
  type := .nodeSkip

/-- The skip of the group commits, but the node that follows the second member still waits. -/
theorem leavesAtSecond_skip_lost :
  ∃ σ, Run (step leavesAtSecond.toTopology) (SkipsCovered leavesAtSecond.toTopology)
      (submit leavesAtSecond.toTopology "e" false false) σ ∧
    skipPair ∈ σ.issued ∧
    (σ.store.handle leavesAtSecond.toTopology skipPair soleClaim).2 = [⟨2, false, false⟩] ∧
    ¬ SkipPropagates leavesAtSecond.toTopology σ.store
      (σ.store.handle leavesAtSecond.toTopology skipPair soleClaim).1 2
  := by
  refine exists_guarded_run_of (P := fun σ => skipPair ∈ σ.issued ∧
      (σ.store.handle leavesAtSecond skipPair soleClaim).2 = [⟨2, false, false⟩] ∧
      σ.store.inDegrees 1 = 1 ∧
      (σ.store.handle leavesAtSecond skipPair soleClaim).1.inDegrees 1 = 1)
    takesOtherPort (by decide) ?_
  rintro σ - ⟨hissued, happlied, hbefore, hafter⟩
  refine ⟨hissued, happlied, ?_⟩
  intro hprop
  have hcounted := hprop.counted 1 (by decide) (by decide)
  rw [hbefore, hafter] at hcounted
  exact absurd hcounted (by decide)

/-- The skip of the group reaches the node that follows the first member. -/
theorem leavesAtFirst_skip_reaches :
  ∃ σ, Run (step leavesAtFirst.toTopology) (SkipsCovered leavesAtFirst.toTopology)
      (submit leavesAtFirst.toTopology "e" false false) σ ∧
    SkipPropagates leavesAtFirst.toTopology σ.store
      (σ.store.handle leavesAtFirst.toTopology skipPair soleClaim).1 2
  := by
  refine exists_guarded_run_of (P := fun σ => skipPair ∈ σ.issued ∧
    σ.store.status? = some .running ∧ σ.store.remaining = 2 ∧ σ.log.map (·.unit) = [0])
    takesOtherPort (by decide) ?_
  rintro σ hrun ⟨hissued, hrunning, hremaining, hlog⟩
  have hopen : ¬ Closed leavesAtFirst σ.store 2 := by
    rw [← (accounted_run rfl (.inl ⟨"e", false, false, rfl⟩) hrun).closed, hlog]
    decide
  apply (group_skip_propagates_iff leavesAtFirst (.inl ⟨"e", false, false, rfl⟩) hrun hrunning
    hissued rfl (by decide) hopen soleClaim).mpr
  rw [hremaining]
  decide

/-! ### Runs -/

/-- In every run in which groups are skipped only at members that cover their edges, a running
execution of a graph with units, whose roots have different names, has an open unit that is leased
or has its intent in the outbox; and once no unit waits, the execution is over, with no unit left
unless a commit was fatal. -/
theorem running_not_stuck (g : Graph) (hacyc : g.allowCycles = false) (hunits : 0 < g.unitCount)
    (hnames : g.rootNames.Nodup) {id : String} {testRun limited : Bool} {σ : System}
    (hrun : Run (step g.toTopology) (SkipsCovered g.toTopology)
      (submit g.toTopology id testRun limited) σ) :
  (σ.store.status? = some .running → ∃ u, g.isUnit u ∧ Waits g.toTopology σ.store u) ∧
    ((∀ u, g.isUnit u → ¬ Waits g.toTopology σ.store u) →
      (∃ st, σ.store.status? = some st ∧ st.isTerminal) ∧
      (σ.log.any (·.fatal) = false → σ.store.remaining = 0))
  := by
  apply waits_or_over hacyc hunits
    (accounted_of_starts hacyc (.inl ⟨id, testRun, limited, rfl⟩)) _ hrun
  apply progress_submit hacyc hnames

/-- No intent is in the outbox, and no node and no group is leased. -/
def Idle (g : Topology) (s : MemoryState) : Prop :=
  s.outbox = [] ∧
    (∀ i ∈ indices g.nodes, (s.rowOutcome (g.nodeName i)).any (·.1 = .running) = false) ∧
    ∀ u ∈ indices g.units, (s.groupUnits u).any (·.status = .running) = false

instance (g : Topology) (s : MemoryState) : Decidable (Idle g s) :=
  inferInstanceAs (Decidable (_ ∧ _ ∧ _))

theorem Idle.not_waits {g : Topology} {s : MemoryState} (h : Idle g s) {u : Int}
    (hu : g.isUnit u) :
  ¬ Waits g s u
  := by
  rintro ⟨-, (⟨i, hi, -, hrow⟩ | hrecord) | ⟨e, he, -⟩⟩
  · rw [h.2.1 i (Topology.isDataNode_iff.mp hi).1] at hrow
    cases hrow
  · rw [h.2.2 u hu] at hrecord
    cases hrecord
  · rw [h.1] at he
    cases he

/-- The group is skipped. -/
def skipsPair : List Action :=
  takesOtherPort ++ [.deliver (skipOutboxID "e" "m1" 0) soleClaim]

/-- The execution is running, but nothing is left to deliver or to commit. -/
theorem leavesAtSecond_stuck :
  ∃ σ, Run (step leavesAtSecond.toTopology) (fun _ _ => True)
      (submit leavesAtSecond.toTopology "e" false false) σ ∧
    σ.store.status? = some .running ∧
    ∀ u, leavesAtSecond.isUnit u → ¬ Waits leavesAtSecond.toTopology σ.store u
  := by
  refine exists_run_of (P := fun σ => σ.store.status? = some .running ∧
    Idle leavesAtSecond σ.store) skipsPair (by decide) ?_
  rintro σ - ⟨hrunning, hidle⟩
  exact ⟨hrunning, fun u => hidle.not_waits⟩

/-- After the group was skipped, the node that follows its first member waits for its turn. -/
theorem leavesAtFirst_not_stuck :
  ∃ σ, Run (step leavesAtFirst.toTopology) (SkipsCovered leavesAtFirst.toTopology)
      (submit leavesAtFirst.toTopology "e" false false) σ ∧
    σ.log.length = 2 ∧ σ.store.status? = some .running ∧
    ∃ u, leavesAtFirst.isUnit u ∧ Waits leavesAtFirst.toTopology σ.store u
  := by
  refine exists_guarded_run_of (P := fun σ => σ.log.length = 2 ∧ σ.store.status? = some .running)
    skipsPair (by decide) ?_
  rintro σ hrun ⟨hlog, hrunning⟩
  refine ⟨hlog, hrunning, ?_⟩
  apply (running_not_stuck leavesAtFirst rfl (by decide) (by decide) hrun).1 hrunning

end Xflow
