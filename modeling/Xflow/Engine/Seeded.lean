import Xflow.Engine.GroupSkip
import Xflow.Engine.Rerun

/-!
# The state a rerun starts in

A seeded execution is a legal state in the middle of a run: the resolved units are closed, the
counters of the others count the edges from units that run again, and the units that became due have
their intents.  The ordinary commits therefore drive it to its end, and none of them schedules a
unit that was resolved.
-/

namespace Xflow

open Xflow.Topology MemoryState List Option

namespace Topology

variable {g : Topology} {fromUnit : Int}

/-! ### Counting what runs again -/

theorem arrivedAt_append (as bs : List DownstreamArrival) (d : Int) :
  arrivedAt (as ++ bs) d = arrivedAt as d + arrivedAt bs d
  := by
  simp [arrivedAt]

theorem length_resolved (hunit : g.isUnit fromUnit) :
  (((indices g.units).filter (· ∉ g.rerunning fromUnit)).length : Int)
    + (g.rerunning fromUnit).length = g.unitCount
  := by
  obtain ⟨nodup, within⟩ := rerunning_nodup hunit
  have again : ((indices g.units).filter (· ∈ g.rerunning fromUnit)).Perm
      (g.rerunning fromUnit) := by
    apply (perm_ext_iff_of_nodup ((nodup_indices g.units).filter _) nodup).mpr
    intro u
    rw [mem_filter, decide_eq_true_eq]
    exact ⟨fun h => h.2, fun h => ⟨within u h, h⟩⟩
  have split := length_eq_length_filter_add (l := indices g.units)
    (fun u => decide (u ∈ g.rerunning fromUnit))
  rw [again.length_eq] at split
  have count : (indices g.units).length = g.units.length := by simp [indices]
  simp only [decide_not]
  unfold unitCount
  omega

end Topology

section

variable {g : Graph} {units : List SeedUnit}

theorem names_resolved (resolves : ∀ unit ∈ units, g.Resolves unit) :
  ∀ a ∈ units.flatMap (·.downstream), g.Names a
  := by
  intro a ha
  obtain ⟨unit, mem, ha⟩ := mem_flatMap.mp ha
  rw [(resolves unit mem).downstream] at ha
  apply names_downstreamArrivals ha

variable (hacyc : g.allowCycles = false) (resolves : ∀ unit ∈ units, g.Resolves unit)
  (nodup : (units.map (·.unitIdx)).Nodup)

include hacyc resolves nodup

theorem arrivedAt_resolved (d : Int) :
  g.unitInDegreeAt d - arrivedAt (units.flatMap (·.downstream)) d
    = g.unitGraph.openIn (units.map (·.unitIdx)) d
  := by
  induction units with
  | nil => simp
  | cons unit units ih =>
    rw [forall_mem_cons] at resolves
    rw [map_cons, nodup_cons] at nodup
    have rest := ih resolves.2 nodup.2
    have here : arrivedAt unit.downstream d = g.unitGraph.multiplicity unit.unitIdx d := by
      have kind := resolves.1.kind
      rw [resolves.1.own] at kind
      rw [resolves.1.downstream, arrivedAt_downstreamArrivals resolves.1.data, resolves.1.own,
        g.multiplicity_nodeUnit hacyc resolves.1.data kind]
    have split := g.unitGraph.openIn_cons nodup.1 d
    rw [flatMap_cons, arrivedAt_append, map_cons]
    omega

theorem not_root_resolved :
  ∀ a ∈ units.flatMap (·.downstream), ¬ g.isRoot a.unitIdx
  := by
  intro a ha root
  have counted := arrivedAt_resolved hacyc resolves nodup a.unitIdx
  have pos := arrivedAt_pos (fun b hb => (names_resolved resolves b hb).arrived) ha
  rw [root.2] at counted
  omega

end

/-! ### The resolved units -/

attribute [local simp] createExecution

section

variable {g : Topology} {units : List SeedUnit} {id : String} {testRun : Bool} {slot : SlotPlace}

theorem seedPrefix_frame (hacyc : g.allowCycles = false) :
  seedPrefix g id testRun slot units =
    { createExecution g id { status := seedStatus slot, testRun := testRun } slot with
      nodes := (seedPrefix g id testRun slot units).nodes
      outputs := (seedPrefix g id testRun slot units).outputs
      privateOutputs := (seedPrefix g id testRun slot units).privateOutputs
      scheduled := fun d => if d ∈ units.map (·.unitIdx) then .seed else .none
      remaining := g.unitCount - units.length }
  := by
  have marks : (units.foldl resolveUnit (createExecution g id
      { status := seedStatus slot, testRun := testRun } slot)).scheduled
        = fun d => if d ∈ units.map (·.unitIdx) then .seed else .none := by
    funext d
    rw [foldl_resolveUnit_scheduled]
    rfl
  unfold seedPrefix
  rw [foldl_resolveUnit_frame, marks]
  simp [hacyc]

theorem seedPrefix_rowOutcome (hacyc : g.allowCycles = false) :
  (seedPrefix g id testRun slot units).rowOutcome
    = (units.foldl resolveUnit (createExecution g id
      { status := seedStatus slot, testRun := testRun } slot)).rowOutcome
  := by
  apply rowOutcome_congr
  simp [seedPrefix, hacyc]

theorem names_nodup (resolves : ∀ unit ∈ units, g.Resolves unit)
    (nodup : (units.map (·.unitIdx)).Nodup) :
  (units.map (·.nodeName)).Nodup
  := by
  apply Nodup.map_on _ (Nodup.of_map _ nodup)
  intro a ha b hb same
  rw [(resolves a ha).name, (resolves b hb).name,
    nodeName_inj (resolves a ha).data (resolves b hb).data] at same
  apply inj_on_of_nodup_map nodup ha hb
  rw [(resolves a ha).own, (resolves b hb).own, same]

/-- The resolved units are closed, and no other unit has a row. -/
theorem closed_seedPrefix (id : String) (testRun : Bool) (slot : SlotPlace)
    (hacyc : g.allowCycles = false) (resolves : ∀ unit ∈ units, g.Resolves unit)
    (nodup : (units.map (·.unitIdx)).Nodup) {i : Int} (data : isDataNode g.nodes i) :
  (∀ unit ∈ units, unit.nodeIdx = i →
      (seedPrefix g id testRun slot units).rowOutcome (g.nodeName i)
        = some (unit.status, unit.port)) ∧
    (i ∉ units.map (·.nodeIdx) →
      (seedPrefix g id testRun slot units).rowOutcome (g.nodeName i) = none)
  := by
  obtain ⟨resolved, kept⟩ := foldl_resolveUnit_rowOutcome (s := createExecution g id
    { status := seedStatus slot, testRun := testRun } slot) (names_nodup resolves nodup)
    (g.nodeName i)
  rw [seedPrefix_rowOutcome hacyc]
  constructor
  · rintro unit mem rfl
    apply resolved unit mem (resolves unit mem).name
  · intro absent
    apply kept
    intro mem
    obtain ⟨unit, mem, same⟩ := mem_map.mp mem
    apply absent
    rw [(resolves unit mem).name, nodeName_inj (resolves unit mem).data data] at same
    rw [← same]
    apply mem_map_of_mem mem

end

/-! ### The execution once it runs -/

/-- The seeded execution after the arrivals of its resolved units. -/
def seedDue (g : Topology) (id : String) (testRun : Bool) (slot : SlotPlace)
    (units : List SeedUnit) : MemoryState :=
  (applyArrivals 0 0 (units.flatMap (·.downstream)) (seedPrefix g id testRun slot units)).1

/-- The seeded execution with all its intents. -/
def seedReady (g : Topology) (id : String) (testRun : Bool) (slot : SlotPlace) (plan : RerunPlan) :
    MemoryState :=
  { seedDue g id testRun slot plan.units with
    outbox := (plan.entries id).foldl putEntry (seedDue g id testRun slot plan.units).outbox }

/-- The seeded execution while it runs. -/
def seedRunning (g : Topology) (id : String) (testRun : Bool) (slot place : SlotPlace)
    (plan : RerunPlan) : MemoryState :=
  { seedReady g id testRun slot plan with
    execution := some { status := .running, testRun := testRun }
    slot := place }

/-- A seeded execution that runs, or was promoted to run: the resolved units count as committed. -/
def launch (units : List SeedUnit) (s : MemoryState) : System where
  store := s.promote
  issued := s.outbox.map (·.task)
  log := units.map (fun unit => ⟨unit.unitIdx, false, false⟩)

section

variable {g : Graph} {plan : RerunPlan} {fromNode id : String} {i : Int} {testRun : Bool}
  {slot : SlotPlace} {s : MemoryState} {skipped : List SkippedUnit}

theorem plan_entries (plans : g.Plans fromNode i plan) :
  ∀ e ∈ plan.entries id, e.availableAt = .now ∧ e.id = initialOutboxID id (g.nodeName i) 0 ∧
    g.isRoot (g.nodeUnit i) ∧ e.task = {
      nodeName := g.nodeName i
      nodeIdx := i
      unitIdx := g.nodeUnit i
      type := execTaskTypeForNode (g.nodeAt i) }
  := by
  intro e he
  obtain ⟨task, mem, rfl⟩ := mem_map.mp he
  rw [mem_toList, plans.startTask] at mem
  obtain ⟨zero, ⟨⟩⟩ := ite_none_right_eq_some.mp mem
  rw [← plans.name]
  exact ⟨rfl, rfl, ⟨nodeUnit_mem plans.data, zero⟩, rfl⟩

theorem exists_entry (id : String) (plans : g.Plans fromNode i plan)
    (root : g.isRoot (g.nodeUnit i)) :
  ∃ e, e ∈ plan.entries id
  := by
  unfold RerunPlan.entries
  rw [plans.startTask, rerunTask, if_pos root.2]
  exact ⟨_, mem_singleton_self _⟩

variable {e : OutboxEntry}

theorem handles_rerunTask (plans : g.Plans fromNode i plan) (he : e ∈ plan.entries id) :
  g.Handles e.task ∧ (e.task.type = .nodeExec ∨ e.task.type = .subWorkflow)
  := by
  rw [(plan_entries plans e he).2.2.2]
  rcases execTaskTypeForNode_cases (g.nodeAt i) with eq | eq <;>
    simp only [eq, true_or, or_true, and_true] <;> exact ⟨⟨plans.data, rfl⟩, plans.kind⟩

theorem taskUnit_start (plans : g.Plans fromNode i plan) (he : e ∈ plan.entries id) :
  System.taskUnit g e.task = g.nodeUnit i
  := by
  unfold System.taskUnit
  rcases (handles_rerunTask plans he).2 with type | type <;> simp only [type] <;>
    rw [(plan_entries plans e he).2.2.2]

theorem root_of_rerunning (plans : g.Plans fromNode i plan) {d : Int} (root : g.isRoot d)
    (again : d ∈ g.rerunning (g.nodeUnit i)) :
  d = g.nodeUnit i
  := by
  rw [mem_rerunning (nodeUnit_mem plans.data)] at again
  rcases again.cases_tail with same | ⟨u, -, e, mem, -, rfl⟩
  · exact same
  · exact absurd root (not_isRoot_of_edge mem)

theorem seedDue_execution (hacyc : g.allowCycles = false) (units : List SeedUnit) :
  (seedDue g id testRun slot units).execution
      = some { status := seedStatus slot, testRun := testRun } ∧
    (seedDue g id testRun slot units).slot = slot
  := by
  unfold seedDue
  rw [applyArrivals_frame, seedPrefix_frame hacyc]
  exact ⟨rfl, rfl⟩

theorem seedStatus_cases (slot : SlotPlace) :
  (∃ deadline, slot = .queued deadline) ∨
    seedStatus slot = .running ∧ ∀ deadline, slot ≠ .queued deadline
  := by
  cases slot with
  | free | holder => exact .inr ⟨rfl, by simp⟩
  | queued deadline => exact .inl ⟨deadline, rfl⟩

variable (hacyc : g.allowCycles = false) (plans : g.Plans fromNode i plan)

include hacyc plans

theorem seedPrefix_remaining (id : String) (testRun : Bool) (slot : SlotPlace) :
  (seedPrefix g id testRun slot plan.units).remaining
      = (g.rerunning (g.nodeUnit i)).length ∧
    0 < (g.rerunning (g.nodeUnit i)).length
  := by
  have hunit := nodeUnit_mem plans.data
  have total := length_resolved hunit
  have count := congrArg length plans.units
  rw [length_map] at count
  constructor
  · rw [seedPrefix_frame hacyc]
    dsimp only
    omega
  · apply length_pos_of_mem ((mem_rerunning hunit).mpr .refl)

theorem seedReady_now :
  ∀ e ∈ (seedReady g id testRun slot plan).outbox, e.availableAt = .now
  := by
  intro e he
  rcases mem_foldl_putEntry he with old | new
  · obtain ⟨a, -, -, -, rfl⟩ := applyArrivals_new old (by
      rw [seedPrefix_frame hacyc]
      simp)
    rfl
  · apply (plan_entries plans e new).1

theorem finishSeed_eq :
  finishSeed g (writeInitialIntents (plan.entries id) false
    (applyDownstream plan.units (seedPrefix g id testRun slot plan.units)).1)
    = seedReady g id testRun slot plan
  := by
  obtain ⟨sched, written, marks⟩ := writeInitialIntents_spec (plan.entries id)
    (seedDue g id testRun slot plan.units)
  have same : sched = (seedDue g id testRun slot plan.units).scheduled := by
    funext d
    rw [marks, if_neg]
    rintro ⟨e, he, type, -⟩
    rw [(plan_entries plans e he).2.2.2] at type
    rcases execTaskTypeForNode_cases (g.nodeAt i) with eq | eq <;> rw [eq] at type <;> cases type
  have left : 0 < (seedDue g id testRun slot plan.units).remaining := by
    obtain ⟨eq, pos⟩ := seedPrefix_remaining hacyc plans id testRun slot
    rw [seedDue, applyArrivals_remaining]
    omega
  rw [applyDownstream_fst, ← seedDue, written, same, finishSeed, if_neg]
  · rfl
  · rintro ⟨-, ended⟩
    exact absurd left (by simpa using ended)

theorem promote_seedExecution
    (h : seedExecution g id testRun slot plan.units (plan.entries id)
      = .ok (s, skipped)) :
  (∃ place, s.promote = seedRunning g id testRun slot place plan) ∧
    s.remaining = s.promote.remaining ∧ s.inDegrees = s.promote.inDegrees ∧
    s.outbox.map (·.task) = s.promote.outbox.map (·.task)
  := by
  unfold seedExecution at h
  split at h
  · cases h
  · dsimp only at h
    rw [finishSeed_eq hacyc plans] at h
    obtain ⟨rfl, -⟩ := Prod.mk.inj (Except.ok.inj h)
    have exec : (seedReady g id testRun slot plan).execution = _ := (seedDue_execution hacyc _).1
    have place : (seedReady g id testRun slot plan).slot = slot := (seedDue_execution hacyc _).2
    rcases seedStatus_cases slot with ⟨deadline, rfl⟩ | ⟨running, other⟩
    · rw [if_pos (by simp [status?, exec, seedStatus]),
        promote_holdOutbox place exec rfl (seedReady_now hacyc plans)]
      exact ⟨⟨.holder, rfl⟩, rfl, rfl, holdOutbox_tasks⟩
    · have stays : (seedReady g id testRun slot plan).promote
          = seedReady g id testRun slot plan := by
        rw [promote, place]
        split <;> simp_all
      rw [if_neg (by simp [status?, exec, running]), stays]
      refine ⟨⟨(seedReady g id testRun slot plan).slot, ?_⟩, rfl, rfl, rfl⟩
      rw [running] at exec
      rw [seedRunning, ← exec]

/-! ### The accounts of a seeded execution -/

/-- The resolved prefix as it would be one commit earlier. -/
def beforePrefix (g : Topology) (id : String) (testRun : Bool) (slot : SlotPlace)
    (units : List SeedUnit) : MemoryState :=
  { seedPrefix g id testRun slot units with
    remaining := (seedPrefix g id testRun slot units).remaining + 1 }

theorem settled_seedPrefix (id : String) (testRun : Bool) (slot : SlotPlace) :
  Settled (beforePrefix g id testRun slot plan.units)
    (seedPrefix g id testRun slot plan.units) false false none
  := by
  obtain ⟨eq, pos⟩ := seedPrefix_remaining hacyc plans id testRun slot
  have open_ : ¬ (beforePrefix g id testRun slot plan.units).ends false := by
    rintro (fatal | last)
    · cases fatal
    · simp only [beforePrefix] at last
      omega
  constructor
  case remaining => simp [beforePrefix]
  case status =>
    rw [if_neg open_]
    rfl
  case outbox => exact fun e he => .inl he
  case kept => exact fun _ e he => he
  case nodup => exact fun h => h
  all_goals rfl

omit plans in
theorem beforePrefix_fields (id : String) (testRun : Bool) (slot : SlotPlace)
    (units : List SeedUnit) :
  (beforePrefix g id testRun slot units).outbox = [] ∧
    (beforePrefix g id testRun slot units).id = id ∧
    (beforePrefix g id testRun slot units).inDegrees = g.unitInDegreeAt ∧
    (beforePrefix g id testRun slot units).scheduled
      = fun d => if d ∈ units.map (·.unitIdx) then .seed else .none
  := by
  unfold beforePrefix
  rw [seedPrefix_frame hacyc]
  exact ⟨rfl, rfl, rfl, rfl⟩

theorem schedules_seedDue (id : String) (testRun : Bool) (slot : SlotPlace) :
  System.Schedules g (beforePrefix g id testRun slot plan.units)
    (seedDue g id testRun slot plan.units)
  := by
  apply System.schedules_applyArrivals (settled_seedPrefix hacyc plans _ _ _)
  · intro e he
    cases he
  · apply names_resolved plans.resolves
  · intro a ha root
    exact absurd root (not_root_resolved hacyc plans.resolves (plans.nodup) a ha)

variable {place : SlotPlace} {t : MemoryState}
  (made : t = seedRunning g id testRun slot place plan)

include made

omit hacyc plans in
theorem seedRunning_rowOutcome :
  t.rowOutcome = (seedPrefix g id testRun slot plan.units).rowOutcome
  := by
  apply rowOutcome_congr
  simp [made, seedRunning, seedReady, seedDue]

omit plans in
theorem seedRunning_groupUnits (u : Int) :
  t.groupUnits u = none
  := by
  simp only [made, seedRunning, seedReady, seedDue, applyArrivals_groupUnits]
  rw [seedPrefix_frame hacyc]
  rfl

/-- A node has a row if its unit was resolved, and then it is terminal. -/
theorem seedRunning_row {j : Int} (data : isDataNode g.nodes j) :
  (∀ row, t.rowOutcome (g.nodeName j) = some row →
      g.nodeUnit j ∈ plan.units.map (·.unitIdx) ∧ row.1.isTerminal ∧
        g.unitKindAt (g.nodeUnit j) = .node) ∧
    (g.nodeUnit j ∈ plan.units.map (·.unitIdx) →
      (t.rowOutcome (g.nodeName j)).any (·.1.isTerminal))
  := by
  obtain ⟨resolved, absent⟩ := closed_seedPrefix id testRun slot hacyc
    plans.resolves plans.nodup data
  have terminal : ∀ unit ∈ plan.units, unit.status.isTerminal := by
    intro unit mem
    rcases (plans.resolves unit mem).status with eq | eq <;> rw [eq] <;> rfl
  rw [seedRunning_rowOutcome made]
  constructor
  · intro row at_row
    have own : ∀ unit ∈ plan.units, unit.unitIdx = g.nodeUnit unit.nodeIdx :=
      fun unit mem => (plans.resolves unit mem).own
    have kind : ∀ unit ∈ plan.units, g.unitKindAt unit.unitIdx = .node :=
      fun unit mem => (plans.resolves unit mem).kind
    grind
  · intro named
    obtain ⟨unit, mem, same⟩ := mem_map.mp named
    have resolves := plans.resolves unit mem
    have kind := resolves.kind
    rw [resolves.own] at kind same
    have idx : unit.nodeIdx = j := (nodeUnit_eq_iff resolves.data data kind).mp same
    rw [resolved unit mem idx]
    apply terminal unit mem

theorem resolved_of_begun {u : Int} (begun : System.Begun g t u) :
  u ∈ plan.units.map (·.unitIdx)
  := by
  rcases begun with ⟨j, data, rfl, has⟩ | has
  · obtain ⟨row, at_row⟩ := isSome_iff_exists.mp has
    exact ((seedRunning_row hacyc plans made data).1 row at_row).1
  · rw [seedRunning_groupUnits hacyc made] at has
    cases has

theorem recorded_seedRunning :
  System.Recorded t
  := by
  constructor
  case rows =>
    intro name row at_row
    obtain ⟨resolved, kept⟩ := foldl_resolveUnit_rowOutcome (s := createExecution g id
      { status := seedStatus slot, testRun := testRun } slot)
      (names_nodup plans.resolves plans.nodup) name
    rw [seedRunning_rowOutcome made, seedPrefix_rowOutcome hacyc] at at_row
    by_cases named : name ∈ plan.units.map (·.nodeName)
    · obtain ⟨unit, mem, same⟩ := mem_map.mp named
      rw [resolved unit mem same] at at_row
      obtain rfl := some.inj at_row
      right
      rcases (plans.resolves unit mem).status with eq | eq <;> rw [eq] <;> rfl
    · rw [kept named] at at_row
      cases at_row
  case records =>
    intro u st at_record
    rw [seedRunning_groupUnits hacyc made] at at_record
    cases at_record

theorem closed_seedRunning (u : Int) :
  System.Closed g t u ↔ u ∈ plan.units.map (·.unitIdx)
  := by
  constructor
  · rintro (⟨j, data, rfl, terminal⟩ | done)
    · obtain ⟨row, at_row, -⟩ := (any_eq_true _ _).mp terminal
      exact ((seedRunning_row hacyc plans made data).1 row at_row).1
    · rw [seedRunning_groupUnits hacyc made] at done
      cases done
  · intro mem
    obtain ⟨unit, mem', rfl⟩ := mem_map.mp mem
    have resolves := plans.resolves unit mem'
    rw [resolves.own] at mem
    exact .inl ⟨unit.nodeIdx, resolves.data, resolves.own.symm,
      (seedRunning_row hacyc plans made resolves.data).2 mem⟩

theorem seedRunning_accounts :
  System.RowsCarry g t (t.outbox.map (·.task)) ∧
    System.Ledger g t (plan.units.map (fun unit => ⟨unit.unitIdx, false, false⟩))
  := by
  have units : (plan.units.map (fun unit => (⟨unit.unitIdx, false, false⟩ : AppliedCommit))).map
      (·.unit) = plan.units.map (·.unitIdx) := by
    simp
  obtain ⟨left, pos⟩ := seedPrefix_remaining hacyc plans id testRun slot
  have total := length_resolved (nodeUnit_mem plans.data)
  have count := congrArg length plans.units
  rw [length_map] at count
  constructor
  · constructor
    case rows =>
      intro j data kind has
      obtain ⟨row, at_row⟩ := isSome_iff_exists.mp has
      have node := ((seedRunning_row hacyc plans made data).1 row at_row).2.2
      rw [kind] at node
      cases node
    case records =>
      intro u has
      rw [seedRunning_groupUnits hacyc made] at has
      cases has
  · constructor
    case units =>
      intro c logged
      obtain ⟨unit, mem, rfl⟩ := mem_map.mp logged
      rw [(plans.resolves unit mem).own]
      apply nodeUnit_mem (plans.resolves unit mem).data
    case nodup =>
      rw [units]
      apply plans.nodup
    case closed =>
      intro u
      rw [units, closed_seedRunning hacyc plans made]
    case remaining =>
      simp only [made, seedRunning, seedReady, seedDue, applyArrivals_remaining, length_map]
      omega
    case failed =>
      simp only [made, seedRunning, seedReady, seedDue, applyArrivals_failed]
      have none : plan.units.countP ((fun c : AppliedCommit => c.failed) ∘
          fun unit => ⟨unit.unitIdx, false, false⟩) = 0 := by
        simp
      rw [seedPrefix_frame hacyc, countP_map, none]
      rfl
    case status =>
      have running : System.ledgerStatus g
          (plan.units.map (fun unit => ⟨unit.unitIdx, false, false⟩)) = .running := by
        rw [System.ledgerStatus_eq_running]
        refine ⟨by simp, .inr ?_⟩
        rw [length_map]
        omega
      rw [running, made]
      rfl

theorem seedRunning_tasks :
  System.TasksCarry g t (t.outbox.map (·.task))
  := by
  have nothing : System.TasksCarry g
      (beforePrefix g id testRun slot plan.units) [] := by
    constructor
    case outbox =>
      rw [(beforePrefix_fields hacyc _ _ _ _).1]
      simp
    all_goals simp
  have due : System.TasksCarry g (seedDue g id testRun slot plan.units)
      ((seedDue g id testRun slot plan.units).outbox.map (·.task)) := by
    apply nothing.of_schedules (schedules_seedDue hacyc plans _ _ _)
    · grind
    · exact fun e mem => mem_map_of_mem mem
  -- a task is one of a unit that became due, or starts the from-node
  have cases_ : ∀ task ∈ t.outbox.map (·.task),
      task ∈ (seedDue g id testRun slot plan.units).outbox.map (·.task) ∨
        g.Handles task ∧ (task.type = .nodeExec ∨ task.type = .subWorkflow) := by
    intro task given
    obtain ⟨e, mem, rfl⟩ := mem_map.mp given
    rw [made] at mem
    rcases mem_foldl_putEntry mem with old | new
    · exact .inl (mem_map_of_mem old)
    · exact .inr (handles_rerunTask plans new)
  have old {task : Task} (mem : task ∈ t.outbox.map (·.task))
      (type : task.type = .nodeSkip ∨ task.type = .groupExec) :
      task ∈ (seedDue g id testRun slot plan.units).outbox.map (·.task) := by grind
  subst made
  constructor
  case handles =>
    intro task mem
    rcases cases_ task mem with old | ⟨handles, -⟩
    · apply due.handles task old
    · exact handles
  case outbox => exact fun e mem => mem_map_of_mem mem
  case skips => exact fun task mem type => due.skips task (old mem (.inl type)) type
  case skip_unique =>
    intro task mem task' mem' type type'
    exact due.skip_unique task (old mem (.inl type)) task' (old mem' (.inl type')) type type'
  case groups => exact fun task mem type => due.groups task (old mem (.inr type)) type

theorem counted_seedRunning :
  System.Counted g t (plan.units.map (fun unit => ⟨unit.unitIdx, false, false⟩))
  := by
  have names := names_resolved plans.resolves
  have positive : ∀ a ∈ plan.units.flatMap (·.downstream), 0 < a.arrivalCount :=
    fun a ha => (names a ha).arrived
  obtain ⟨-, -, inDegrees, scheduled⟩ := beforePrefix_fields hacyc id testRun slot plan.units
  have settled := settled_seedPrefix hacyc plans id testRun slot
  have counts (d : Int) : t.inDegrees d
      = g.unitGraph.openIn ((plan.units.map (fun unit =>
        (⟨unit.unitIdx, false, false⟩ : AppliedCommit))).map (·.unit)) d := by
    rw [made]
    change (seedDue g id testRun slot plan.units).inDegrees d = _
    rw [seedDue, applyArrivals_inDegrees positive, settled.inDegrees, inDegrees,
      arrivedAt_resolved hacyc plans.resolves plans.nodup, List.map_map]
    rfl
  constructor
  case counts => exact fun d _ => counts d
  case counts_le => exact fun d => (counts d).le
  case due =>
    subst made
    intro d hunit root zero
    apply System.marked_of_arrivals settled positive _ zero
    intro none
    exfalso
    apply root
    rw [inDegrees] at none
    use hunit
    unfold unitInDegreeAt at none ⊢
    omega

omit made in
theorem seedDue_entry (he : e ∈ (seedDue g id testRun slot plan.units).outbox) :
  ∃ a m, g.Names a ∧ (m = .execute ∨ m = .skip) ∧ e = arrivalEntry id 0 0 a m
  := by
  obtain ⟨a, mem, -, mark, eq⟩ := applyArrivals_new he (by
    rw [seedPrefix_frame hacyc]
    simp)
  have own : (seedPrefix g id testRun slot plan.units).id = id := by
    rw [seedPrefix_frame hacyc]
    rfl
  rw [own] at eq
  exact ⟨a, _, names_resolved plans.resolves a mem, mark, eq⟩

theorem seedRunning_outbox :
  (t.outbox.map (·.id)).Nodup ∧
    t.outbox = (seedDue g id testRun slot plan.units).outbox ++ plan.entries id
  := by
  have apart : (((seedDue g id testRun slot plan.units).outbox
      ++ plan.entries id).map (·.id)).Nodup := by
    rw [map_append, nodup_append]
    refine ⟨?_, ?_, ?_⟩
    · apply applyArrivals_nodup
      rw [seedPrefix_frame hacyc]
      apply nodup_nil
    · unfold RerunPlan.entries
      cases plan.startTask <;> simp
    · intro x hx y hy same
      obtain ⟨e, mem, rfl⟩ := mem_map.mp hx
      obtain ⟨e', mem', rfl⟩ := mem_map.mp hy
      obtain ⟨a, m, -, -, rfl⟩ := seedDue_entry hacyc plans mem
      rw [(plan_entries plans e' mem').2.1, System.arrivalEntry_id] at same
      have kind := outboxID_kind (by split <;> decide) (by decide) same
      split at kind <;> exact absurd kind (by decide)
  have all : t.outbox = (seedDue g id testRun slot plan.units).outbox ++ plan.entries id := by
    rw [made]
    apply foldl_putEntry_eq apart
    intro e he
    rw [(plan_entries plans e he).2.1]
    apply outboxID_ne_empty
  rw [all]
  exact ⟨apart, rfl⟩

theorem progress_seedRunning :
  System.Progress g t (plan.units.map (fun unit => ⟨unit.unitIdx, false, false⟩))
  := by
  obtain ⟨-, own, -, scheduled⟩ := beforePrefix_fields hacyc id testRun slot plan.units
  obtain ⟨ids, outbox⟩ := seedRunning_outbox hacyc plans made
  have schedules := schedules_seedDue hacyc plans id testRun slot
  have labels : ∀ e ∈ (seedDue g id testRun slot plan.units).outbox,
      System.Labelled g id e := by
    intro e he
    obtain ⟨a, m, names, mark, eq⟩ := seedDue_entry hacyc plans he
    exact .inr (.inr ⟨a, 0, 0, m, names, mark, eq⟩)
  have ident : t.id = id := made ▸ schedules.id.trans own
  constructor
  case toRecorded => exact recorded_seedRunning hacyc plans made
  case toCounted => exact counted_seedRunning hacyc plans made
  case ids => exact ids
  case labels =>
    intro e he
    rw [ident]
    rw [outbox] at he
    rcases mem_append.mp he with due | start
    · apply labels e due
    · exact .inl ⟨_, _, (plan_entries plans e start).2.1⟩
  case pending =>
    intro d opened mark
    rw [closed_seedRunning hacyc plans made] at opened
    right
    rw [outbox]
    have before : (beforePrefix g id testRun slot plan.units).scheduled d = .none := by
      rw [scheduled]
      exact if_neg opened
    by_cases root : g.isRoot d
    · obtain rfl := root_of_rerunning plans root (plans.mem_rerunning.mpr ⟨root.1, opened⟩)
      have unmarked : t.scheduled (g.nodeUnit i) = .none :=
        made ▸ (schedules.root _ root).trans before
      obtain ⟨e, he⟩ := exists_entry id plans root
      obtain ⟨-, exec⟩ := handles_rerunTask plans he
      refine ⟨e, mem_append_right _ he, ?_⟩
      rw [unmarked]
      constructor
      case unit => apply taskUnit_start plans he
      case type => rcases exec with type | type <;> simp [type]
      case skip => rcases exec with type | type <;> simp [type]
    · subst made
      obtain ⟨e, he, carries⟩ := System.carries_of_marker (settled_seedPrefix hacyc plans _ _ _)
        (names_resolved plans.resolves) (by rwa [own]) before (mark.resolve_left root)
      exact ⟨e, mem_append_left _ he, carries⟩

end

/-! ### Runs of a seeded execution -/

open Xflow.System Transition

/-- The resolved units keep their markers, and no task was handed out for them. -/
structure Untouched (g : Topology) (resolved : List Int) (σ : System) : Prop where
  seeded : ∀ d ∈ resolved, σ.store.scheduled d = .seed
  tasks : ∀ task ∈ σ.issued, task.type ≠ .mergeCancel → taskUnit g task ∉ resolved

variable {resolved : List Int}

theorem Untouched.step {g : Graph} {a : Action} {σ τ : System}
    (hacyc : g.allowCycles = false) (h : Untouched g resolved σ)
    (accounted : Accounted g σ.store σ.issued σ.log)
    (next : step g a σ = some τ) :
  Untouched g resolved τ
  := by
  obtain ⟨s, applied, keep, sub, move, rfl⟩ := step_moves accounted.handles next accounted.outbox
  have schedules := (accounted.move hacyc (move.mono sub)).toSchedules
  constructor
  case seeded => exact fun d mem => schedules.marked (h.seeded d mem) nofun
  case tasks =>
    intro task mem type
    have origin : task ∈ σ.issued ∨ ∃ e ∈ s.outbox, e.task = task := by
      rcases mem_append.mp mem with old | new
      · exact .inl old
      · grind
    rcases accounted.task_cases schedules origin with
      old | merge | ⟨-, -, rfl, -, b, act, depth, names, unmarked, -, rfl⟩
    · apply h.tasks task old type
    · exact absurd merge type
    · rw [(carries_arrivalEntry names).unit]
      intro resolved_b
      rw [h.seeded _ resolved_b] at unmarked
      cases unmarked

theorem Untouched.run {g : Graph} {C : Action → System → Prop}
    {begin σ : System} (hacyc : g.allowCycles = false) (h : Untouched g resolved begin)
    (accounted : Accounted g begin.store begin.issued begin.log)
    (run : Run (System.step g) C begin σ) :
  Untouched g resolved σ
  := by
  have both : Accounted g σ.store σ.issued σ.log ∧ Untouched g resolved σ := by
    apply run.invariant (I := fun σ => Accounted g σ.store σ.issued σ.log ∧
      Untouched g resolved σ) ⟨accounted, h⟩
    rintro a σ τ ⟨accounted, h⟩ _ next
    exact ⟨(accounted_step hacyc accounted next).1, h.step hacyc accounted next⟩
  exact both.2

theorem isUnit_taskUnit {g : Topology} {task : Task} (h : g.Handles task)
    (type : task.type ≠ .mergeCancel) :
  g.isUnit (taskUnit g task)
  := by
  unfold Handles at h
  unfold taskUnit
  cases eq : task.type with
  | nodeExec | subWorkflow =>
    simp only [eq] at h ⊢
    apply nodeUnit_mem h.1.data
  | nodeSkip =>
    simp only [eq] at h ⊢
    rw [h.2]
    apply nodeUnit_mem h.1.data
  | groupExec =>
    simp only [eq] at h ⊢
    exact h.1
  | mergeCancel => exact absurd eq type
  | nodeResume | nodeAdvance | nodeBatch => simp only [eq] at h

section

variable {g : Graph} {plan : RerunPlan} {fromNode id : String} {i : Int} {testRun : Bool}
  {slot : SlotPlace} {s : MemoryState} {skipped : List SkippedUnit} {σ : System}

theorem launch_units {units : List SeedUnit} :
  (launch units s).log.map (·.unit) = units.map (·.unitIdx)
  := by
  simp [launch]

theorem seedExecution_ok (id : String) (testRun : Bool) (slot : SlotPlace)
    (plans : g.Plans fromNode i plan) :
  ∃ s skipped, seedExecution g id testRun slot plan.units (plan.entries id)
    = .ok (s, skipped)
  := by
  have allowed : plan.units.find? (fun unit => unit.status ≠ .success ∧ unit.status ≠ .skipped)
      = none := by
    rw [find?_eq_none]
    intro unit mem
    rcases (plans.resolves unit mem).status with eq | eq <;> simp [eq]
  unfold seedExecution
  rw [allowed]
  exact ⟨_, _, rfl⟩

/-- What is launched has its accounts in order and all it needs, and the resolved units are out of
reach. -/
theorem launched (hacyc : g.allowCycles = false) (plans : g.Plans fromNode i plan)
    (h : seedExecution g id testRun slot plan.units (plan.entries id)
      = .ok (s, skipped)) :
  Accounted g (launch plan.units s).store (launch plan.units s).issued
      (launch plan.units s).log ∧
    Progress g (launch plan.units s).store (launch plan.units s).log ∧
    Untouched g (plan.units.map (·.unitIdx)) (launch plan.units s)
  := by
  obtain ⟨⟨place, store⟩, -, -, tasks⟩ := promote_seedExecution hacyc plans h
  obtain ⟨rows, ledger⟩ := seedRunning_accounts hacyc plans store
  have schedules := schedules_seedDue hacyc plans id testRun slot
  obtain ⟨-, -, -, scheduled⟩ := beforePrefix_fields hacyc id testRun slot plan.units
  have before : ∀ d ∈ plan.units.map (·.unitIdx),
      (beforePrefix g id testRun slot plan.units).scheduled d = .seed := by
    intro d mem
    rw [scheduled]
    exact if_pos mem
  unfold launch
  rw [tasks]
  refine ⟨⟨seedRunning_tasks hacyc plans store, rows, ledger⟩,
    progress_seedRunning hacyc plans store, ?_⟩
  constructor
  case seeded =>
    intro d mem
    rw [store]
    exact schedules.marked (before d mem) nofun
  case tasks =>
    intro task given type resolved
    obtain ⟨e, mem, rfl⟩ := mem_map.mp given
    rw [(seedRunning_outbox hacyc plans store).2] at mem
    rcases mem_append.mp mem with due | start
    · rcases schedules.fresh e due with old | merge | ⟨a, act, depth, names, unmarked, -, rfl⟩
      · rw [(beforePrefix_fields hacyc _ _ _ _).1] at old
        cases old
      · exact type merge.1
      · rw [(carries_arrivalEntry names).unit] at resolved
        rw [before _ resolved] at unmarked
        cases unmarked
    · apply plans.fresh
      rwa [taskUnit_start plans start] at resolved

theorem openIn_resolved (plans : g.Plans fromNode i plan) (u : Int) :
  g.unitGraph.openIn (plan.units.map (·.unitIdx)) u
    = g.unitEdges.countP (fun e => e.dstUnit = u ∧ e.srcUnit ∈ g.rerunning (g.nodeUnit i))
  := by
  apply countP_congr
  intro e he
  have source : g.isUnit e.srcUnit := g.unitGraph.src_mem e he
  simp only [decide_eq_true_eq]
  rw [plans.mem_rerunning]
  exact and_congr_right fun _ => (and_iff_right source).symm

end

/-- For every plan of a rerun of an acyclic graph without groups, whatever the parent stored: the
seeded execution counts the units that are reachable from the from-unit as left, each of them waits
for its edges from such units, and in every run no other unit is given an intent to run or to skip
it; and once every intent is delivered and committed, and no commit was fatal, no unit is left. -/
theorem seeded_rerun_legal (g : Graph) (hacyc : g.allowCycles = false) (hgroups : g.groups = [])
    {parent : MemoryState} {fromNode : String} {plan : RerunPlan}
    (hplan : g.rerunPlan parent fromNode = .ok plan) (id : String) (testRun : Bool)
    (slot : SlotPlace) :
  ∃ s skipped i, ∃ set : List Int,
    seedExecution g.toTopology id testRun slot plan.units (plan.entries id) = .ok (s, skipped) ∧
    g.nodeIndex fromNode = some i ∧ set.Nodup ∧
    (∀ u, u ∈ set ↔ Relation.ReflTransGen g.Leads (g.nodeUnit i) u) ∧
    s.remaining = set.length ∧
    (∀ u ∈ set, s.inDegrees u = g.unitEdges.countP (fun e => e.dstUnit = u ∧ e.srcUnit ∈ set)) ∧
    ∀ σ, Run (step g.toTopology) (fun _ _ => True) (launch plan.units s) σ →
      (∀ task ∈ σ.issued, task.type ≠ .mergeCancel → taskUnit g.toTopology task ∈ set) ∧
      (Idle g.toTopology σ.store → σ.log.any (·.fatal) = false → σ.store.remaining = 0)
  := by
  obtain ⟨i, plans, -⟩ := plans_of_ok hplan
  have hunit := nodeUnit_mem plans.data
  obtain ⟨s, skipped, seeded⟩ := seedExecution_ok id testRun slot plans
  obtain ⟨⟨place, store⟩, remaining, inDegrees, -⟩ := promote_seedExecution hacyc plans seeded
  obtain ⟨accounted, progress, untouched⟩ := launched hacyc plans seeded
  refine ⟨s, skipped, i, g.rerunning (g.nodeUnit i), seeded, plans.index,
    (rerunning_nodup hunit).1, fun u => mem_rerunning hunit, ?_, ?_, ?_⟩
  · rw [remaining, store]
    change (seedDue g id testRun slot plan.units).remaining = _
    rw [seedDue, applyArrivals_remaining]
    apply (seedPrefix_remaining hacyc plans _ _ _).1
  · intro u mem
    rw [inDegrees]
    have opened : ¬ Closed g (launch plan.units s).store u := by
      rw [← accounted.closed, launch_units]
      apply (plans.mem_rerunning.mp mem).2
    have counts := progress.counts u opened
    rw [launch_units, openIn_resolved plans] at counts
    exact counts
  · intro σ run
    have later := accounted.run hacyc run
    constructor
    · intro task mem type
      rw [plans.mem_rerunning]
      use isUnit_taskUnit (later.handles task mem) type
      apply (untouched.run hacyc accounted run).tasks task mem type
    · intro idle fatal
      have covered : Run (step g) (SkipsCovered g) (launch plan.units s) σ := by
        apply run.mono
        intro a τ _ task _ _ group
        rw [g.unitKindAt_eq_node hgroups] at group
        cases group
      apply ((waits_or_over hacyc _ accounted progress covered).2 _).2 fatal
      · have range := mem_indices.mp hunit
        exact lt_of_le_of_lt range.1 range.2
      · exact fun u hu => idle.not_waits hu

/-! ### A rerun of the second of three nodes -/

/-- Three nodes in a row. -/
def threeInRow : Graph where
  nodes := [{ name := "a" }, { name := "b" }, { name := "c" }]
  edges := [{ srcIdx := 0, dstIdx := 1, srcPort := "main" },
    { srcIdx := 1, dstIdx := 2, srcPort := "main" }]

/-- An execution whose second node failed. -/
def failedAtSecond : MemoryState where
  id := "p"
  execution := some { status := .failed }
  nodes := fun name =>
    if name = "a" then some { nodeIdx := 0, status := .success, attempt := 1, activationID := 0
                              port := "main" }
    else if name = "b" then some { nodeIdx := 1, unitIdx := 1, status := .failed, attempt := 1
                                   activationID := 0 }
    else none

/-- The rerun of the second node, with what was resolved for it. -/
def secondRerun : Option (RerunPlan × MemoryState) :=
  match threeInRow.rerunPlan failedAtSecond "b" with
  | .error _ => none
  | .ok plan =>
    match seedExecution threeInRow.toTopology "e" false .free plan.units (plan.entries "e") with
    | .error _ => none
    | .ok (s, _) => some (plan, s)

/-- The second node is run again, with the given result. -/
def secondAgain (result : NodeResult) : List Action :=
  [.deliver (executeOutboxID "e" "b" 0) soleClaim,
    .commitNode { nodeName := "b", nodeIdx := 1, unitIdx := 1, type := .nodeExec } soleKey result]

/-- The third node runs, too. -/
def thirdFollows : List Action :=
  [.deliver (executeOutboxID "e" "c" 0) soleClaim,
    .commitNode { nodeName := "c", nodeIdx := 2, unitIdx := 2, type := .nodeExec } soleKey
      { status := .success, port := "main" }]

/-- The second and the third node succeed, and no unit is left. -/
theorem secondRerun_completes :
  ∃ plan s σ, secondRerun = some (plan, s) ∧
    Run (step threeInRow.toTopology) (fun _ _ => True) (launch plan.units s) σ ∧
    Idle threeInRow.toTopology σ.store ∧ σ.store.remaining = 0
  := by
  have last : (secondRerun.bind (fun (plan, s) =>
      exec (step threeInRow)
        (secondAgain { status := .success, port := "main" } ++ thirdFollows)
        (launch plan.units s))).map
          (fun σ => (decide (Idle threeInRow σ.store), σ.log.any (·.fatal)))
      = some (true, false) := by
    decide
  obtain ⟨σ, reached, final⟩ := map_eq_some_iff.mp last
  obtain ⟨⟨plan, s⟩, rerun, reached⟩ := bind_eq_some_iff.mp reached
  simp only [Prod.mk.injEq, decide_eq_true_eq] at final
  have run := Run.of_exec reached
  have made := rerun
  unfold secondRerun at made
  split at made
  · cases made
  · rename_i planned
    obtain ⟨s', skipped', i, set, seeded, -, -, -, -, -, runs⟩ :=
      seeded_rerun_legal threeInRow rfl rfl planned "e" false .free
    rw [seeded] at made
    cases made
    exact ⟨plan, s, σ, rerun, run, final.1, (runs σ run).2 final.1 final.2⟩

/-- The second node fails for good: every intent was delivered and committed, and yet a unit is
left. -/
theorem secondRerun_fatal :
  ∃ plan s σ, secondRerun = some (plan, s) ∧
    Run (step threeInRow.toTopology) (fun _ _ => True) (launch plan.units s) σ ∧
    Idle threeInRow.toTopology σ.store ∧ σ.store.remaining ≠ 0
  := by
  have last : (secondRerun.bind (fun (plan, s) =>
      exec (step threeInRow) (secondAgain { status := .failed, port := "", fatal := true })
        (launch plan.units s))).map
          (fun σ => (decide (Idle threeInRow σ.store), σ.store.remaining))
      = some (true, 1) := by
    decide
  obtain ⟨σ, reached, final⟩ := map_eq_some_iff.mp last
  obtain ⟨⟨plan, s⟩, rerun, reached⟩ := bind_eq_some_iff.mp reached
  simp only [Prod.mk.injEq, decide_eq_true_eq] at final
  refine ⟨plan, s, σ, rerun, Run.of_exec reached, final.1, ?_⟩
  rw [final.2]
  decide

end Xflow
