import Xflow.Engine.System

/-!
# The first state of an execution

The tasks that `Submit` and `Invoke` write, and the state in which they leave a new execution:
every unit waits for all its edges, the units of skip tasks are marked, and the outbox has the
intents of the tasks.
-/

namespace Xflow

open List MemoryState Topology

namespace Topology

variable {g : Topology} {u : Int}

/-! ### Initial tasks -/

theorem rootTask_node (hu : g.isUnit u) (hkind : g.unitKindAt u = .node) :
  ∃ i, isDataNode g.nodes i ∧ g.nodeUnit i = u ∧
    g.rootTask u = { nodeName := g.nodeName i, nodeIdx := i, unitIdx := u
                     type := execTaskTypeForNode (g.nodeAt i) }
  := by
  obtain ⟨i, hi, hidx, hunit⟩ := exists_node_of_unit hu hkind
  use i, hi, hunit
  rw [unitNodeIndex, if_pos hkind] at hidx
  have hnone : g.groupMetaAt u = none := by simp [groupMetaAt, hkind]
  simp [rootTask, hnone, Option.some.inj hidx]

theorem rootTask_group (hu : g.isUnit u) (hkind : g.unitKindAt u = .group) :
  ∃ gm, g.groupMetaAt u = some gm ∧
    g.rootTask u = { nodeName := gm.name, nodeIdx := gm.entryIdx, unitIdx := u, type := .groupExec }
  := by
  obtain ⟨gi, gm, -, hmeta, -⟩ := exists_group_of_unit hu hkind
  use gm, hmeta
  simp [rootTask, hmeta]

/-- The names of the roots. -/
def rootNames (g : Topology) : List String :=
  ((indices g.units).filter (fun u => g.unitInDegreeAt u = 0)).map (fun u => (g.unitAt u).name)

theorem rootTask_nodeName (hu : g.isUnit u) :
  (g.rootTask u).nodeName = (g.unitAt u).name
  := by
  rcases unit_cases hu with ⟨i, -, hat, -⟩ | ⟨gi, gm, hgm, hat, -⟩
  · simp [rootTask, groupMetaAt, unitKindAt, hat]
  · simp [rootTask, groupMetaAt, unitKindAt, hat, hgm]

variable {task : Task}

/-- `Submit` starts the roots. -/
theorem mem_submitInitialTasks (hacyc : g.allowCycles = false) :
  task ∈ g.submitInitialTasks ↔ ∃ u, g.isRoot u ∧ g.rootTask u = task
  := by
  simp [submitInitialTasks, hacyc, isRoot, isUnit]

/-- `Submit` skips nothing. -/
theorem submitInitialTasks_type (hacyc : g.allowCycles = false)
    (htask : task ∈ g.submitInitialTasks) :
  task.type ≠ .nodeSkip
  := by
  obtain ⟨u, ⟨hu, -⟩, rfl⟩ := (mem_submitInitialTasks hacyc).mp htask
  cases hkind : g.unitKindAt u with
  | node =>
    obtain ⟨i, -, -, heq⟩ := rootTask_node hu hkind
    rw [heq]
    rcases execTaskTypeForNode_cases (g.nodeAt i) with htype | htype <;> rw [htype] <;> simp
  | group =>
    obtain ⟨gm, -, heq⟩ := rootTask_group hu hkind
    rw [heq]
    simp

/-- The unit of an initial task of `Submit`. -/
theorem rootTask_unitIdx :
  (g.rootTask u).unitIdx = u
  := by
  unfold rootTask
  split <;> rfl

/-- `Invoke` skips the roots that are single nodes, except for the selected one. -/
theorem mem_unselectedRootSkips (hacyc : g.allowCycles = false) {selected : Int} :
  task ∈ g.unselectedRootSkips selected ↔
    ∃ i, isDataNode g.nodes i ∧ g.unitKindAt (g.nodeUnit i) = .node ∧ g.isRoot (g.nodeUnit i) ∧
      g.nodeUnit i ≠ selected ∧
      task = { nodeName := g.nodeName i, nodeIdx := i, unitIdx := g.nodeUnit i, type := .nodeSkip }
  := by
  simp only [unselectedRootSkips, hacyc, Bool.false_eq_true, if_false, mem_map,
    mem_filter, decide_eq_true_eq, not_or, not_not]
  constructor
  · rintro ⟨u, ⟨hu, hselected, hzero, hkind⟩, rfl⟩
    obtain ⟨i, hi, hidx, rfl⟩ := exists_node_of_unit hu hkind
    rw [unitNodeIndex, if_pos hkind] at hidx
    rw [Option.some.inj hidx]
    exact ⟨i, hi, hkind, ⟨hu, hzero⟩, hselected, rfl⟩
  · rintro ⟨i, hi, hkind, ⟨hu, hzero⟩, hselected, rfl⟩
    have hidx := unitNodeIndex_nodeUnit hi hkind
    rw [unitNodeIndex, if_pos hkind] at hidx
    refine ⟨g.nodeUnit i, ⟨hu, hselected, hzero, hkind⟩, ?_⟩
    rw [Option.some.inj hidx]

theorem handles_rootTask (hu : g.isUnit u) :
  g.Handles (g.rootTask u)
  := by
  cases hkind : g.unitKindAt u with
  | node =>
    obtain ⟨i, hi, rfl, htask⟩ := rootTask_node hu hkind
    rw [htask]
    rcases execTaskTypeForNode_cases (g.nodeAt i) with htype | htype <;> rw [htype] <;>
      exact ⟨⟨hi, rfl⟩, hkind⟩
  | group =>
    obtain ⟨gm, -, htask⟩ := rootTask_group hu hkind
    rw [htask]
    exact ⟨hu, hkind⟩

theorem unitKindAt_entry {i : Int} (hi : i ∈ g.ungrouped) :
  g.unitKindAt (g.nodeUnit i) = .node
  := by
  obtain ⟨hdata, hgroup⟩ := isDataNode_of_mem_ungrouped hi
  rcases nodeUnit_cases hdata with ⟨-, -, hat⟩ | ⟨gi, gm, hgm, hmem, -, -⟩
  · simp [unitKindAt, hat]
  · rw [groupIdx_of_mem hgm hmem] at hgroup
    omega

/-- A task that `Invoke` writes for an entry that is a unit can be handled. -/
theorem handles_invokeTasks (hacyc : g.allowCycles = false) {i : Int} (hi : i ∈ g.ungrouped)
    (htask : task ∈ g.invokeTasks i) :
  g.Handles task
  := by
  rcases mem_cons.mp htask with rfl | hskip
  · have hdata := (isDataNode_of_mem_ungrouped hi).1
    have hkind := unitKindAt_entry hi
    rcases execTaskTypeForNode_cases (g.nodeAt i) with htype | htype <;>
      simp only [htype] <;> exact ⟨⟨hdata, rfl⟩, hkind⟩
  · obtain ⟨j, hj, -, -, -, rfl⟩ := (mem_unselectedRootSkips hacyc).mp hskip
    exact ⟨⟨hj, rfl⟩, rfl⟩

end Topology

namespace System

variable {g : Topology} {id : String} {testRun limited : Bool} {tasks : List Task}

/-! ### The first state -/

/-- The intent of an initial task. -/
def initialEntry (id : String) (task : Task) : OutboxEntry where
  id := initialOutboxID id task.nodeName task.activationID
  task := task

theorem start_spec (g : Topology) (id : String) (testRun limited : Bool) (tasks : List Task) :
  ∃ sched,
    (start g id testRun limited tasks).store =
      { createExecution g id { status := .running, testRun := testRun }
          (if limited then .holder else .free) with
        scheduled := sched
        outbox := (tasks.map (initialEntry id)).foldl putEntry [] } ∧
    ∀ d, sched d = if ∃ task ∈ tasks, task.type = .nodeSkip ∧ task.unitIdx = d
      then .skip else .none
  := by
  obtain ⟨sched, heq, hsched⟩ := writeInitialIntents_spec
    (tasks.map (initialEntry id))
    (createExecution g id { status := .running, testRun := testRun }
      (if limited then .holder else .free))
  use sched, heq
  simpa [initialEntry, createExecution] using hsched

theorem start_issued {task : Task} (h : task ∈ (start g id testRun limited tasks).issued) :
  task ∈ tasks
  := by
  obtain ⟨sched, heq, -⟩ := start_spec g id testRun limited tasks
  have hissued : (start g id testRun limited tasks).issued
      = (start g id testRun limited tasks).store.outbox.map (·.task) := rfl
  rw [hissued, heq] at h
  obtain ⟨e, he, rfl⟩ := mem_map.mp h
  rcases mem_foldl_putEntry he with hnil | hmem
  · cases hnil
  · obtain ⟨task, htask, rfl⟩ := mem_map.mp hmem
    exact htask

/-- `Submit` marks nothing. -/
theorem submit_scheduled (hacyc : g.allowCycles = false) (d : Int) :
  (submit g id testRun limited).store.scheduled d = .none
  := by
  obtain ⟨sched, heq, hsched⟩ := start_spec g id testRun limited g.submitInitialTasks
  rw [submit, heq]
  dsimp only
  rw [hsched, if_neg]
  rintro ⟨task, htask, htype, -⟩
  exact submitInitialTasks_type hacyc htask htype

theorem initialEntry_ids
    (hnames : (tasks.map (fun task => (task.nodeName, task.activationID))).Nodup) :
  ((tasks.map (initialEntry id)).map (·.id)).Nodup
  := by
  have hids : (tasks.map (initialEntry id)).map (·.id)
      = (tasks.map (fun task => (task.nodeName, task.activationID))).map
        (fun x => initialOutboxID id x.1 x.2) := by
    rw [map_map, map_map]
    rfl
  rw [hids]
  apply hnames.map
  intro x y hxy
  obtain ⟨hname, hactivation⟩ := outboxID_inj.mp hxy
  exact Prod.ext hname hactivation

theorem start_outbox (hnames : (tasks.map (fun task => (task.nodeName, task.activationID))).Nodup) :
  (start g id testRun limited tasks).store.outbox = tasks.map (initialEntry id)
  := by
  obtain ⟨sched, heq, -⟩ := start_spec g id testRun limited tasks
  rw [heq]
  rw [foldl_putEntry_eq, nil_append]
  · apply initialEntry_ids hnames
  · intro e he
    obtain ⟨task, -, rfl⟩ := mem_map.mp he
    apply outboxID_ne_empty

/-- The initial tasks of `Submit` have different names if the roots have. -/
theorem submit_names (hacyc : g.allowCycles = false) (hnames : g.rootNames.Nodup) :
  (g.submitInitialTasks.map (fun task => (task.nodeName, task.activationID))).Nodup
  := by
  have htasks : g.submitInitialTasks.map (fun task => (task.nodeName, task.activationID))
      = g.rootNames.map (fun name => (name, 0)) := by
    simp only [submitInitialTasks, hacyc, Bool.false_eq_true, if_false,
      rootNames, map_map]
    apply map_congr_left
    intro u hu
    have hunit : g.isUnit u := (mem_filter.mp hu).1
    have hact : (g.rootTask u).activationID = 0 := by
      unfold rootTask
      split <;> rfl
    simp [rootTask_nodeName hunit, hact]
  rw [htasks]
  apply hnames.map
  intro x y hxy
  exact (Prod.mk.inj hxy).1

end System

end Xflow
