import Xflow.Engine.Journal
import Xflow.Engine.Seeded

/-!
# What a rerun reproduces of its parent

A rerun derives the arrivals of a resolved unit from the status and the port that the parent stored.
They are the ones that the unit's own commit pushed if the unit succeeded or was pinned.  A unit
with another status is resolved with the empty port, so its edges are inactive; but a disabled node
is stored as skipped although it left through its main port, and a node that failed and continued
left through its port, too.
-/

namespace Xflow

open Aggregate DownstreamArrival List MemoryState Nat Option Transition Xflow.System Xflow.Topology

/-- The destination of an arrival, its edges and its active edges. -/
def DownstreamArrival.counts (a : DownstreamArrival) : Int × Int × Int :=
  (a.unitIdx, a.arrivalCount, a.activeCount)

namespace Topology

variable {g : Topology}

/-- The edges from a port of a node to another node. -/
def portEdges (g : Topology) (i : Int) (port : String) (k : Int) : Nat :=
  (g.nodeOutEdges i).countP (fun e => e.dstIdx = k ∧ e.srcPort = port)

theorem counts_downstreamArrivals {i : Int} (data : isDataNode g.nodes i) {port port' : String} :
  (g.downstreamArrivals i port).map (·.counts) = (g.downstreamArrivals i port').map (·.counts) ↔
    ∀ k, g.portEdges i port k = g.portEdges i port' k
  := by
  have range := mem_indices.mp (isDataNode_iff.mp data).1
  have arrivals (port : String) : (g.downstreamArrivals i port).map (·.counts)
      = (keysOf Edge.dstIdx (g.nodeOutEdges i)).map (fun k =>
        (g.nodeUnit k, ((g.nodeOutEdges i).countP (fun e => e.dstIdx = k) : Int),
          (g.portEdges i port k : Int))) := by
    rw [downstreamArrivals, if_neg (by simp only [nodeCount]; omega),
      arrivalsBy_eq_map nodeArrival_fresh]
    simp [counts, withCounts, nodeArrival, portEdges]
  rw [arrivals, arrivals, map_inj_left]
  simp only [Prod.mk.injEq, true_and, Int.natCast_inj]
  constructor
  · intro same k
    by_cases mem : k ∈ keysOf Edge.dstIdx (g.nodeOutEdges i)
    · apply same k mem
    · -- no edge leads to this node
      have none (port : String) : g.portEdges i port k = 0 := by
        unfold portEdges
        rw [countP_eq_zero]
        intro e he
        simp only [decide_eq_true_eq, not_and]
        rintro rfl
        exact absurd (mem_keysOf.mpr (mem_map_of_mem he)) mem
      rw [none, none]
  · exact fun same k _ => same k

/-- The port whose arrivals a rerun attaches to a unit. -/
def rerunPort : Option (NodeStatus × String) → String
  | some (.success, port) | some (.pinned, port) => port
  | _ => ""

theorem rerunPort_some {status : NodeStatus} {port : String} :
  rerunPort (some (status, port)) = if status = .success ∨ status = .pinned then port else ""
  := by
  cases status <;> rfl

theorem rerunResolution_port {parent : MemoryState} {u : Int} {required : Bool} {unit : SeedUnit}
    (h : g.rerunResolution parent u required = .ok unit) :
  unit.port = rerunPort (parent.rowOutcome unit.nodeName) ∧
    (required → ∃ row, parent.rowOutcome unit.nodeName = some row ∧
      (row.1 = .success ∨ row.1 = .pinned ∨ row.1 = .skipped))
  := by
  unfold rerunResolution at h
  cases idx : g.unitNodeIndex u with
  | none =>
    rw [idx] at h
    cases h
  | some i =>
    rw [idx] at h
    cases at_row : parent.nodes (g.nodeName i) with
    | none =>
      simp only [at_row, map_none] at h
      split at h
      · cases h
      · rename_i free
        cases h
        simp [rowOutcome, at_row, rerunPort, free]
    | some row =>
      simp only [at_row, map_some] at h
      cases status : row.status <;> simp only [status] at h
      case success | pinned | skipped =>
        cases h
        simp [rowOutcome, at_row, rerunPort, status]
      all_goals
        split at h
        · cases h
        · rename_i free
          cases h
          simp [rowOutcome, at_row, rerunPort, status, free]

end Topology

/-! ### The from-unit -/

section

variable {g : Graph} {plan : RerunPlan} {fromNode id : String} {i : Int} {testRun : Bool}
  {slot place : SlotPlace}

theorem activeAt_pos {arrivals : List DownstreamArrival}
    (active : ∀ a ∈ arrivals, 0 ≤ a.activeCount) {d : Int} :
  0 ≤ activeAt arrivals d ∧
    (0 < activeAt arrivals d ↔ ∃ a ∈ arrivals, a.unitIdx = d ∧ 0 < a.activeCount)
  := by
  induction arrivals with
  | nil => simp
  | cons a arrivals ih =>
    rw [forall_mem_cons] at active
    obtain ⟨nonneg, iff⟩ := ih active.2
    rw [exists_mem_cons_iff, ← iff, activeAt_cons]
    by_cases here : a.unitIdx = d
    · omega
    · simpa [here] using nonneg

theorem openIn_from (hacyc : g.allowCycles = false) (plans : g.Plans fromNode i plan) :
  g.unitGraph.openIn (plan.units.map (·.unitIdx)) (g.nodeUnit i) = 0
  := by
  obtain ⟨rank, ascends⟩ := Multidigraph.exists_rank (g.acyclic_units hacyc)
  have later {u : Int} (path : Relation.ReflTransGen g.Leads (g.nodeUnit i) u) :
      rank (g.nodeUnit i) ≤ rank u := by
    induction path with
    | refl => exact le_refl _
    | tail _ leads ih =>
      obtain ⟨e, mem, rfl, rfl⟩ := leads
      exact le_trans ih (le_of_lt (ascends e mem))
  rw [openIn_resolved plans, countP_eq_zero]
  intro e mem
  simp only [decide_eq_true_eq, not_and]
  intro dst again
  rw [mem_rerunning (nodeUnit_mem plans.data)] at again
  have less := ascends e mem
  change rank e.srcUnit < rank e.dstUnit at less
  have le := later again
  rw [dst] at less
  omega

theorem seedDue_from (id : String) (testRun : Bool) (slot : SlotPlace)
    (hacyc : g.allowCycles = false) (plans : g.Plans fromNode i plan)
    (root : ¬ g.isRoot (g.nodeUnit i)) :
  (seedDue g id testRun slot plan.units).scheduled (g.nodeUnit i) = .execute ↔
    ∃ unit ∈ plan.units, ∃ a ∈ unit.downstream, a.unitIdx = g.nodeUnit i ∧ 0 < a.activeCount
  := by
  have names := names_resolved plans.resolves
  have positive : ∀ a ∈ plan.units.flatMap (·.downstream), 0 < a.arrivalCount :=
    fun a ha => (names a ha).arrived
  have active : ∀ a ∈ plan.units.flatMap (·.downstream), 0 ≤ a.activeCount :=
    fun a ha => (names a ha).active_nonneg
  have counted := arrivedAt_resolved hacyc plans.resolves plans.nodup (g.nodeUnit i)
  rw [openIn_from hacyc plans] at counted
  have degree : 0 < g.unitInDegreeAt (g.nodeUnit i) := by
    have nonzero : g.unitInDegreeAt (g.nodeUnit i) ≠ 0 :=
      fun zero => root ⟨nodeUnit_mem plans.data, zero⟩
    unfold unitInDegreeAt at nonzero ⊢
    omega
  have frame := @seedPrefix_frame g plan.units id testRun slot hacyc
  have inDegree : (seedPrefix g id testRun slot plan.units).inDegrees (g.nodeUnit i)
      = g.unitInDegreeAt (g.nodeUnit i) := by
    rw [frame]
    rfl
  have activeIn : (seedPrefix g id testRun slot plan.units).activeIns (g.nodeUnit i)
      = 0 := by
    rw [frame]
    rfl
  have unmarked : (seedPrefix g id testRun slot plan.units).scheduled (g.nodeUnit i)
      = .none := by
    rw [frame]
    exact if_neg plans.fresh
  have due : (seedDue g id testRun slot plan.units).scheduled (g.nodeUnit i)
      = dueMarker (g.nodeAt i).mergeMode
        ((seedDue g id testRun slot plan.units).inDegrees (g.nodeUnit i))
        ((seedDue g id testRun slot plan.units).activeIns (g.nodeUnit i)) := by
    apply applyArrivals_due positive active
    · intro a ha here
      have named := names a ha
      rw [named.unitIdx, eq_comm, nodeUnit_eq_iff plans.data named.data plans.kind] at here
      rw [named.target, ← here]
      rfl
    · omega
    · exact activeIn.ge
    · rw [unmarked, inDegree, activeIn, eq_comm, dueMarker_eq_none]
      exact ⟨degree, by simp⟩
  rw [due, seedDue, applyArrivals_inDegrees positive, applyArrivals_activeIns positive active,
    inDegree, activeIn, dueMarker_eq_execute, counted, Int.zero_add, (activeAt_pos active).2]
  grind

/-- The outbox has an intent to run the unit. -/
def RunsUnit (g : Topology) (s : MemoryState) (u : Int) : Prop :=
  ∃ task ∈ s.outbox.map (·.task), taskUnit g task = u ∧ task.type ≠ .nodeSkip ∧
    task.type ≠ .mergeCancel

instance (g : Topology) (s : MemoryState) (u : Int) : Decidable (RunsUnit g s u) :=
  inferInstanceAs (Decidable (∃ task ∈ s.outbox.map (·.task), taskUnit g task = u ∧
    task.type ≠ .nodeSkip ∧ task.type ≠ .mergeCancel))

theorem seedRunning_from (hacyc : g.allowCycles = false) (plans : g.Plans fromNode i plan)
    {t : MemoryState} (made : t = seedRunning g id testRun slot place plan) :
  RunsUnit g t (g.nodeUnit i) ↔
    (∃ unit ∈ plan.units, ∃ a ∈ unit.downstream, a.unitIdx = g.nodeUnit i ∧ 0 < a.activeCount) ∨
      g.isRoot (g.nodeUnit i)
  := by
  have outbox := (seedRunning_outbox hacyc plans made).2
  by_cases root : g.isRoot (g.nodeUnit i)
  · simp only [root, or_true, iff_true]
    obtain ⟨e, he⟩ := exists_entry id plans root
    refine ⟨e.task, ?_, taskUnit_start plans he, ?_⟩
    · rw [outbox]
      apply mem_map_of_mem (mem_append_right _ he)
    · rcases (handles_rerunTask plans he).2 with type | type <;> simp [type]
  · rw [← seedDue_from id testRun slot hacyc plans root]
    simp only [root, or_false]
    constructor
    · rintro ⟨task, given, unit, skip, merge⟩
      obtain ⟨e, mem, rfl⟩ := mem_map.mp given
      rw [outbox] at mem
      rcases mem_append.mp mem with due | start
      · rcases (schedules_seedDue hacyc plans _ _ _).fresh e due with
          old | other | ⟨a, act, depth, names, -, mark, rfl⟩
        · rw [(beforePrefix_fields hacyc _ _ _ _).1] at old
          cases old
        · exact absurd other.1 merge
        · rw [(carries_arrivalEntry names).unit] at unit
          rw [ne_eq, arrivalEntry_of_skip names] at skip
          rw [← unit]
          exact mark.resolve_right skip
      · exact absurd (plan_entries plans e start).2.2.1 root
    · intro mark
      have opened : ¬ Closed g t (g.nodeUnit i) := by
        rw [closed_seedRunning hacyc plans made]
        exact plans.fresh
      have marked : t.scheduled (g.nodeUnit i) = .execute := made ▸ mark
      rcases (progress_seedRunning hacyc plans made).pending _ opened
        (.inr (by rw [marked]; simp)) with begun | ⟨e, he, carries⟩
      · exact absurd (resolved_of_begun hacyc plans made begun) plans.fresh
      · refine ⟨e.task, mem_map_of_mem he, carries.unit, ?_, carries.type⟩
        rw [ne_eq, carries.skip, marked]
        simp

end

/-! ### The parent -/

/-- The arrivals of every resolved unit are, up to what does not count, those that its own commit
pushed in the parent.  A fatal commit has none. -/
def Reproduces (commits : List CommitNodeRequest) (plan : RerunPlan) : Prop :=
  ∀ unit ∈ plan.units, ∀ req ∈ commits, req.nodeIdx = unit.nodeIdx → req.fatal = false →
    unit.downstream.map (·.counts) = req.arrivals.map (·.counts)

instance (commits : List CommitNodeRequest) (plan : RerunPlan) :
    Decidable (Reproduces commits plan) :=
  inferInstanceAs (Decidable (∀ unit ∈ plan.units, ∀ req ∈ commits, _ → _ → _))

/-- An active edge led to the unit in the parent. -/
def HadActiveInput (commits : List CommitNodeRequest) (u : Int) : Prop :=
  ∃ req ∈ commits, ∃ a ∈ req.arrivals, a.unitIdx = u ∧ 0 < a.activeCount

instance (commits : List CommitNodeRequest) (u : Int) : Decidable (HadActiveInput commits u) :=
  inferInstanceAs (Decidable (∃ req ∈ commits, ∃ a ∈ req.arrivals, _))

/-- Every resolved unit that the parent committed succeeded or was pinned, or left through a port
that has as many edges to each node as the empty one. -/
def LeftAsStored (g : Topology) (commits : List CommitNodeRequest) (plan : RerunPlan) : Prop :=
  ∀ unit ∈ plan.units, ∀ req ∈ commits, req.nodeIdx = unit.nodeIdx → req.fatal = false →
    (req.status = .success ∨ req.status = .pinned) ∨
      ∀ k, g.portEdges req.nodeIdx req.port k = g.portEdges req.nodeIdx "" k

section

variable {g : Graph} {plan : RerunPlan} {fromNode : String} {i : Int} {J : Journal}

theorem reproduces_iff {parent : MemoryState} (plans : g.Plans fromNode i plan)
    (each : ∀ unit ∈ plan.units, g.rerunResolution parent unit.unitIdx
      (unit.unitIdx ∈ g.rerunClosure (g.nodeUnit i)) = .ok unit)
    (journaled : Journal.Journaled g J) (own : J.system.store = parent) :
  Reproduces J.commits plan ↔ LeftAsStored g J.commits plan
  := by
  subst own
  apply forall₂_congr
  intro unit mem
  apply forall₂_congr
  intro req committed
  apply forall₂_congr
  intro same mild
  have resolves := plans.resolves unit mem
  have engine := journaled.requests req committed
  have port := (rerunResolution_port (each unit mem)).1
  rw [resolves.name, ← same, journaled.rows req committed] at port
  rw [resolves.downstream, engine.arrivals, mild, if_neg Bool.false_ne_true, ← same,
    counts_downstreamArrivals engine.data, port, rerunPort_some]
  grind

theorem leads_of_arrival (hacyc : g.allowCycles = false) (hgroups : g.groups = []) {j : Int}
    (data : isDataNode g.nodes j) {port : String} {a : DownstreamArrival}
    (ha : a ∈ g.downstreamArrivals j port) :
  g.Leads (g.nodeUnit j) a.unitIdx
  := by
  have pos := nodeFanout_pos data ha
  rw [← g.multiplicity_nodeUnit hacyc data (g.unitKindAt_of_ungrouped hgroups data),
    multiplicity_eq, countP_pos_iff] at pos
  obtain ⟨e, mem, ends⟩ := pos
  simp only [decide_eq_true_eq] at ends
  exact ⟨e, mem, ends.1, ends.2⟩

/-- If the arrivals are reproduced, an active edge of a resolved unit leads to the from-unit exactly
if one did in the parent. -/
theorem active_iff (hacyc : g.allowCycles = false) (hgroups : g.groups = [])
    (plans : g.Plans fromNode i plan)
    (each : ∀ unit ∈ plan.units, g.rerunResolution J.system.store unit.unitIdx
      (unit.unitIdx ∈ g.rerunClosure (g.nodeUnit i)) = .ok unit)
    (journaled : Journal.Journaled g J) (reproduces : Reproduces J.commits plan) :
  (∃ unit ∈ plan.units, ∃ a ∈ unit.downstream, a.unitIdx = g.nodeUnit i ∧ 0 < a.activeCount) ↔
    HadActiveInput J.commits (g.nodeUnit i)
  := by
  constructor
  · rintro ⟨unit, mem, a, ha, here, active⟩
    have resolves := plans.resolves unit mem
    rw [resolves.downstream] at ha
    have leads := leads_of_arrival hacyc hgroups resolves.data ha
    rw [here, ← resolves.own] at leads
    obtain ⟨row, at_row, status⟩ :=
      (rerunResolution_port (each unit mem)).2 (by simpa using mem_rerunClosure leads)
    rw [resolves.name] at at_row
    have terminal : row.1.isTerminal := by
      rcases status with eq | eq | eq <;> rw [eq] <;> rfl
    obtain ⟨req, committed, idx, rfl⟩ :=
      journaled.exists_commit hgroups resolves.data at_row terminal
    have mild : req.fatal = false := by
      by_contra fatal
      have failed := journaled.fatal req committed (by simpa using fatal)
      simp [failed] at status
    have same := reproduces unit mem req committed idx mild
    rw [resolves.downstream] at same
    have given : a.counts ∈ req.arrivals.map (·.counts) := by
      rw [← same]
      apply mem_map_of_mem ha
    obtain ⟨b, hb, eq⟩ := mem_map.mp given
    simp only [counts, Prod.mk.injEq] at eq
    exact ⟨req, committed, b, hb, eq.1.trans here, by omega⟩
  · rintro ⟨req, committed, a, ha, here, active⟩
    have engine := journaled.requests req committed
    have mild : req.fatal = false := by
      by_contra fatal
      rw [engine.arrivals, if_pos (by simpa using fatal)] at ha
      cases ha
    have pushed := ha
    rw [engine.arrivals, mild] at pushed
    obtain ⟨e, edge, src, dst⟩ := leads_of_arrival hacyc hgroups engine.data pushed
    have resolved : e.srcUnit ∈ plan.units.map (·.unitIdx) :=
      g.unitGraph.openIn_eq_zero.mp (openIn_from hacyc plans) e edge (dst.trans here)
    rw [src] at resolved
    obtain ⟨unit, mem, own⟩ := mem_map.mp resolved
    have resolves := plans.resolves unit mem
    rw [resolves.own, eq_comm, nodeUnit_eq_iff engine.data resolves.data
      (g.unitKindAt_of_ungrouped hgroups engine.data)] at own
    have same := reproduces unit mem req committed own mild
    have given : a.counts ∈ unit.downstream.map (·.counts) := by
      rw [same]
      apply mem_map_of_mem ha
    obtain ⟨b, hb, eq⟩ := mem_map.mp given
    simp only [counts, Prod.mk.injEq] at eq
    exact ⟨unit, mem, b, hb, eq.1.trans here, by omega⟩

end

/-- For every run of an acyclic graph without groups in which the runners report fatal failures for
failed nodes only, and every plan of a rerun of what it reached: the arrivals attached to each
resolved unit are those its own commit pushed, and the seeded execution runs the from-unit exactly
if it had an active input in the run or is a root, if and only if each resolved unit that was
committed succeeded, was pinned, or left through a port that counts as the empty one. -/
theorem rerun_reproduces_iff (g : Graph) (hacyc : g.allowCycles = false) (hgroups : g.groups = [])
    {begin : System} (hstart : Starts g.toTopology begin) {J : Journal}
    (hrun : Run (Journal.step g.toTopology) Journal.FatalFails ⟨begin, []⟩ J)
    {fromNode : String} {plan : RerunPlan}
    (hplan : g.rerunPlan J.system.store fromNode = .ok plan)
    {i : Int} (hindex : g.nodeIndex fromNode = some i)
    {id : String} {testRun : Bool} {slot : SlotPlace} {s : MemoryState} {skipped : List SkippedUnit}
    (hseed : seedExecution g.toTopology id testRun slot plan.units (plan.entries id)
      = .ok (s, skipped)) :
  (Reproduces J.commits plan ∧
    (RunsUnit g.toTopology s (g.nodeUnit i) ↔
      HadActiveInput J.commits (g.nodeUnit i) ∨ g.isRoot (g.nodeUnit i))) ↔
    LeftAsStored g.toTopology J.commits plan
  := by
  obtain ⟨j, plans, each⟩ := plans_of_ok hplan
  obtain rfl : j = i := some.inj (plans.index.symm.trans hindex)
  have journaled := Journal.journaled_run hacyc hgroups hstart hrun
  obtain ⟨⟨place, store⟩, -, -, tasks⟩ := promote_seedExecution hacyc plans hseed
  have runs : RunsUnit g s (g.nodeUnit j) ↔ RunsUnit g s.promote (g.nodeUnit j) := by
    unfold RunsUnit
    rw [tasks]
  rw [← reproduces_iff plans each journaled rfl, runs, seedRunning_from hacyc plans store]
  constructor
  · exact fun both => both.1
  · intro reproduces
    refine ⟨reproduces, ?_⟩
    rw [active_iff hacyc hgroups plans each journaled reproduces]

/-! ### A node after a first one that is disabled or not -/

/-- Two nodes in a row, the first of them disabled or not. -/
def firstThenSecond (disabled : Bool) : Graph where
  nodes := [{ name := "a", disabled := disabled }, { name := "b" }]
  edges := [{ srcIdx := 0, dstIdx := 1, srcPort := "main" }]
  names_nodup := by simp
  edges_data := by
    cases disabled <;> decide
  members_data := by simp
  members_plain := by simp
  errors_data := by simp
  acyclic_nodes := by
    cases disabled <;> decide
  acyclic_units := by
    cases disabled <;> decide

/-- The first node succeeds. -/
def firstSucceeds : List Action :=
  [.deliver (initialOutboxID "p" "a" 0) soleClaim,
    .commitNode { nodeName := "a", nodeIdx := 0, type := .nodeExec } soleKey
      { status := .success, port := "main" }]

/-- The second node fails for good. -/
def secondFails : List Action :=
  [.deliver (executeOutboxID "p" "b" 0) soleClaim,
    .commitNode { nodeName := "b", nodeIdx := 1, unitIdx := 1, type := .nodeExec } soleKey
      { status := .failed, port := "", fatal := true }]

/-- A run of the two nodes, and the rerun of the second node of what it reached. -/
def rerunSecond (disabled : Bool) (ops : List Action) :
    Option (Journal × RerunPlan × MemoryState) :=
  (exec (guarded (Journal.step (firstThenSecond disabled).toTopology) Journal.FatalFails) ops
    ⟨submit (firstThenSecond disabled).toTopology "p" false false, []⟩).bind (fun J =>
      match (firstThenSecond disabled).rerunPlan J.system.store "b" with
      | .error _ => none
      | .ok plan =>
        match seedExecution (firstThenSecond disabled).toTopology "e" false .free plan.units
            (plan.entries "e") with
        | .error _ => none
        | .ok (s, _) => some (J, plan, s))

/-- The first node succeeded: its arrivals are reproduced, and the second node is run. -/
theorem rerunSecond_reproduces :
  ∃ J plan s, rerunSecond false (firstSucceeds ++ secondFails) = some (J, plan, s) ∧
    J.system.store.status? = some .failed ∧ Reproduces J.commits plan ∧
    (RunsUnit (firstThenSecond false).toTopology s 1 ↔
      HadActiveInput J.commits 1 ∨ (firstThenSecond false).isRoot 1)
  := by
  have last : (rerunSecond false (firstSucceeds ++ secondFails)).map (fun (J, _, _) =>
      (J.system.store.status?, J.commits.all (fun req => req.fatal ∨ req.status = .success)))
      = some (some .failed, true) := by
    decide
  obtain ⟨⟨J, plan, s⟩, rerun, final⟩ := map_eq_some_iff.mp last
  simp only [Prod.mk.injEq, List.all_eq_true, decide_eq_true_eq] at final
  obtain ⟨J', reached, rest⟩ := bind_eq_some_iff.mp rerun
  split at rest
  · cases rest
  · rename_i planned
    split at rest
    · cases rest
    · rename_i seeded
      cases rest
      have left : LeftAsStored (firstThenSecond false).toTopology J.commits plan := by
        intro unit _ req committed _ mild
        have success := (final.2 req committed).resolve_left (by simp [mild])
        exact .inl (.inl success)
      have both := (rerun_reproduces_iff (firstThenSecond false) rfl rfl
        (.inl ⟨"p", false, false, rfl⟩) (.of_guarded reached) planned (i := 1) (by decide)
        seeded).mpr left
      exact ⟨J, plan, s, rerun, final.1, both.1, both.2⟩

/-- The first node is disabled: it is resolved with inactive edges, although it left through its
main port, and the second node is not run, although it had an active input. -/
theorem rerunSecond_disabled :
  ∃ J plan s, rerunSecond true (firstSucceeds.take 1 ++ secondFails) = some (J, plan, s) ∧
    J.system.store.status? = some .failed ∧ ¬ Reproduces J.commits plan ∧
    ¬ (RunsUnit (firstThenSecond true).toTopology s 1 ↔
      HadActiveInput J.commits 1 ∨ (firstThenSecond true).isRoot 1)
  := by
  have last : (rerunSecond true (firstSucceeds.take 1 ++ secondFails)).map (fun (J, plan, s) =>
      (J.system.store.status?, decide (Reproduces J.commits plan),
        decide (RunsUnit (firstThenSecond true).toTopology s 1 ↔
          HadActiveInput J.commits 1 ∨ (firstThenSecond true).isRoot 1)))
      = some (some .failed, false, false) := by
    decide
  obtain ⟨⟨J, plan, s⟩, rerun, final⟩ := map_eq_some_iff.mp last
  simp only [Prod.mk.injEq, decide_eq_false_iff_not] at final
  exact ⟨J, plan, s, rerun, final.1, final.2.1, final.2.2⟩

end Xflow
