import Xflow.Engine.Start
import Xflow.Store.Settle

/-!
# Completion accounting

Every applied commit settles one unit of the graph, and no unit is settled twice: a node by its row,
a group by its record or, when it is skipped, by the row of the member that its skip task names.
The log of applied commits therefore determines the counters and the status of the execution
(`Ledger`).
-/

namespace Xflow

open Function Int List Option

namespace Topology

variable {g : Topology}

theorem nodeName_inj {i j : Int} (hi : isDataNode g.nodes i) (hj : isDataNode g.nodes j) :
  g.nodeName i = g.nodeName j ↔ i = j
  := by
  constructor
  · intro h
    obtain ⟨hi0, hi1⟩ := mem_indices.mp (isDataNode_iff.mp hi).1
    obtain ⟨hj0, hj1⟩ := mem_indices.mp (isDataNode_iff.mp hj).1
    obtain ⟨n, rfl⟩ := eq_ofNat_of_zero_le hi0
    obtain ⟨m, rfl⟩ := eq_ofNat_of_zero_le hj0
    have hn : n < g.nodes.length := by omega
    have hm : m < g.nodes.length := by omega
    have hname : (g.nodes.map (·.name))[n]? = (g.nodes.map (·.name))[m]? := by
      simpa [nodeName, nodeAt, hn, hm] using h
    have := (getElem?_inj (by simpa using hn) g.names_nodup).mp hname
    omega
  · rintro rfl
    rfl

theorem not_isRoot_of_edge {e : UnitEdge} (he : e ∈ g.unitEdges) :
  ¬ g.isRoot e.dstUnit
  := by
  rintro ⟨-, hzero⟩
  unfold unitInDegreeAt at hzero
  rw [natCast_eq_zero, countP_eq_zero] at hzero
  apply hzero e he
  simp

theorem not_isRoot_of_countP {p : UnitEdge → Prop} [DecidablePred p] {d : Int}
    (h : 0 < g.unitEdges.countP (fun e => p e ∧ e.dstUnit = d)) :
  ¬ g.isRoot d
  := by
  obtain ⟨e, he, hends⟩ := countP_pos_iff.mp h
  simp only [decide_eq_true_eq] at hends
  rw [← hends.2]
  apply not_isRoot_of_edge he

end Topology

namespace System

open Xflow.Topology MemoryState

/-! ### What is scheduled -/

/-- An intent of a merge that gives up its other branches. -/
def MergeEntry (id : String) (e : OutboxEntry) : Prop :=
  e.task.type = .mergeCancel ∧ ∃ name act, e.id = mergeCancelOutboxID id name act

/-- From `s` to `t` markers are only added, none of them to a root, and the intents that are added
are those of merges and of the units that were marked, one for each unit. -/
structure Schedules (g : Topology) (s t : MemoryState) : Prop where
  id : t.id = s.id
  kept : ∀ d, s.scheduled d ≠ .none → t.scheduled d = s.scheduled d
  root : ∀ d, g.isRoot d → t.scheduled d = s.scheduled d
  fresh : ∀ e ∈ t.outbox, e ∈ s.outbox ∨ MergeEntry s.id e ∨
    ∃ a act depth, g.Names a ∧ s.scheduled a.unitIdx = .none ∧
      (t.scheduled a.unitIdx = .execute ∨ t.scheduled a.unitIdx = .skip) ∧
      e = arrivalEntry s.id act depth a (t.scheduled a.unitIdx)
  unique : ∀ e ∈ t.outbox, ∀ e' ∈ t.outbox, e ∉ s.outbox → e' ∉ s.outbox →
    e.task.type = .nodeSkip → e'.task.type = .nodeSkip → e.task.unitIdx = e'.task.unitIdx → e = e'

variable {g : Topology} {s t b : MemoryState} {issued : List Task} {m : Marker}

theorem schedules_of_eq (hid : t.id = s.id) (hsched : t.scheduled = s.scheduled)
    (hout : t.outbox = s.outbox) :
  Schedules g s t
  := by
  constructor
  · exact hid
  · intro d _
    rw [hsched]
  · intro d _
    rw [hsched]
  · intro e he
    left
    rwa [← hout]
  · intro e he e' _ hnew
    rw [hout] at he
    exact absurd he hnew

theorem Schedules.marked (h : Schedules g s t) {d : Int} (hmark : s.scheduled d = m)
    (hne : m ≠ .none) :
  t.scheduled d = m
  := by
  rw [h.kept d (hmark ▸ hne), hmark]

variable {req : CommitNodeRequest} {a : DownstreamArrival} {task : Task} {act depth : Int}
  {id : String} {i : Int} {extra : Option OutboxEntry} {outbox : List OutboxEntry} {port : String}

theorem arrivalEntry_type :
  (arrivalEntry id act depth a m).task.type = if m = .skip then .nodeSkip else a.execTaskType
  := by
  rfl

theorem handles_arrivalEntry (ha : g.Names a) :
  g.Handles (arrivalEntry id act depth a m).task
  := by
  have hnames : g.NamesNode (arrivalEntry id act depth a m).task := ⟨ha.data, ha.nodeName⟩
  unfold Handles
  rw [arrivalEntry_type]
  by_cases hskip : m = .skip
  · rw [if_pos hskip]
    exact ⟨hnames, ha.unitIdx⟩
  · rw [if_neg hskip, ha.execTaskType]
    by_cases hkind : g.unitKindAt (g.nodeUnit a.nodeIdx) = .group
    · rw [if_pos hkind]
      refine ⟨?_, ?_⟩
      · change g.isUnit a.unitIdx
        rw [ha.unitIdx]
        exact nodeUnit_mem ha.data
      · change g.unitKindAt a.unitIdx = .group
        rwa [ha.unitIdx]
    · rw [if_neg hkind]
      have hnode : g.unitKindAt (g.nodeUnit a.nodeIdx) = .node := by
        cases hk : g.unitKindAt (g.nodeUnit a.nodeIdx) with
        | node => rfl
        | group => exact absurd hk hkind
      rcases execTaskTypeForNode_cases (g.nodeAt a.nodeIdx) with htype | htype <;>
        rw [htype] <;> exact ⟨hnames, hnode⟩

theorem schedules_applyArrivals {failed fatal : Bool}
    {arrivals : List DownstreamArrival} (hsettled : Settled s b failed fatal extra)
    (hextra : ∀ e, extra = some e → MergeEntry s.id e) (hnames : ∀ a ∈ arrivals, g.Names a)
    (hroot : ∀ a ∈ arrivals, g.isRoot a.unitIdx → s.scheduled a.unitIdx ≠ .none) :
  Schedules g s (applyArrivals act depth arrivals b).1
  := by
  have hkept (d : Int) (hd : s.scheduled d ≠ .none) :
      (applyArrivals act depth arrivals b).1.scheduled d = s.scheduled d := by
    rw [← hsettled.scheduled] at hd ⊢
    apply applyArrivals_scheduled_of_ne hd
  constructor
  · rw [applyArrivals_id, hsettled.id]
  · exact hkept
  · intro d hd
    by_cases hmark : s.scheduled d = .none
    · by_contra hne
      rw [hmark] at hne
      rw [← hsettled.scheduled] at hmark
      obtain ⟨a, ha, rfl, -⟩ := applyArrivals_marker hmark hne
      rw [hsettled.scheduled] at hmark
      exact hroot a ha hd hmark
    · apply hkept d hmark
  · intro e he
    by_cases hbase : e ∈ b.outbox
    · rcases hsettled.outbox e hbase with hold | hmerge
      · left
        exact hold
      · right
        left
        exact hextra e hmerge
    · right
      right
      obtain ⟨a, ha, hnone, hmark, heq⟩ := applyArrivals_new he hbase
      rw [hsettled.scheduled] at hnone
      rw [hsettled.id] at heq
      exact ⟨a, act, depth, hnames a ha, hnone, hmark, heq⟩
  · intro e he e' he' hnew hnew' hskip hskip' hunit
    have hbase {x : OutboxEntry} (hx : x ∉ s.outbox) (htype : x.task.type = .nodeSkip) :
        x ∉ b.outbox := by
      intro hmem
      rcases hsettled.outbox x hmem with hold | hmerge
      · exact hx hold
      · rw [(hextra x hmerge).1] at htype
        cases htype
    exact applyArrivals_new_unique he (hbase hnew hskip) he' (hbase hnew' hskip') hunit

/-! ### The tasks handed out -/

/-- The tasks handed out can be handled, and carry out the markers of their units: a skip task has a
unit that is marked to be skipped, and no other skip task of it names another node; a task to run a
group has a unit that is marked to be run, or an unmarked root. -/
structure TasksCarry (g : Topology) (s : MemoryState) (issued : List Task) : Prop where
  handles : ∀ task ∈ issued, g.Handles task
  outbox : ∀ e ∈ s.outbox, e.task ∈ issued
  skips : ∀ task ∈ issued, task.type = .nodeSkip → s.scheduled task.unitIdx = .skip
  skip_unique : ∀ task ∈ issued, ∀ task' ∈ issued, task.type = .nodeSkip →
    task'.type = .nodeSkip → task.unitIdx = task'.unitIdx → task.nodeIdx = task'.nodeIdx
  groups : ∀ task ∈ issued, task.type = .groupExec →
    s.scheduled task.unitIdx = .execute ∨ g.isRoot task.unitIdx ∧ s.scheduled task.unitIdx = .none

theorem arrivalEntry_of_skip (ha : g.Names a) :
  (arrivalEntry id act depth a m).task.type = .nodeSkip ↔ m = .skip
  := by
  rw [arrivalEntry_type]
  by_cases hskip : m = .skip
  · simp [hskip]
  · simp only [hskip, if_false]
    rw [ha.execTaskType]
    split
    · simp
    · rcases execTaskTypeForNode_cases (g.nodeAt a.nodeIdx) with h | h <;> simp [h]

/-- A task that is handed out is an old one, a merge's, or that of a unit that was marked in
between. -/
theorem TasksCarry.task_cases (h : TasksCarry g s issued) (hs : Schedules g s t)
    (hnew : task ∈ issued ∨ ∃ e ∈ t.outbox, e.task = task) :
  task ∈ issued ∨ task.type = .mergeCancel ∨
    ∃ e ∈ t.outbox, e.task = task ∧ e ∉ s.outbox ∧
      ∃ a act depth, g.Names a ∧ s.scheduled a.unitIdx = .none ∧
        (t.scheduled a.unitIdx = .execute ∨ t.scheduled a.unitIdx = .skip) ∧
        e = arrivalEntry s.id act depth a (t.scheduled a.unitIdx)
  := by
  rcases hnew with hold | ⟨e, he, rfl⟩
  · left
    exact hold
  · by_cases hold : e ∈ s.outbox
    · left
      exact h.outbox e hold
    · right
      apply ((hs.fresh e he).resolve_left hold).imp
      · exact And.left
      · exact fun hentry => ⟨e, he, rfl, hold, hentry⟩

theorem TasksCarry.of_schedules {issued' : List Task}
    (h : TasksCarry g s issued) (hs : Schedules g s t)
    (hnew : ∀ task ∈ issued', task ∈ issued ∨ ∃ e ∈ t.outbox, e.task = task)
    (hout : ∀ e ∈ outbox, e.task ∈ issued') :
  TasksCarry g { t with outbox := outbox } issued'
  := by
  have carried {task : Task} (htask : task ∈ issued') (other : task.type ≠ .mergeCancel) :=
    (h.task_cases hs (hnew task htask)).imp_right (·.resolve_left other)
  constructor
  · intro task htask
    rcases h.task_cases hs (hnew task htask) with
      hold | hmerge | ⟨-, -, rfl, -, a, act, depth, ha, -, -, rfl⟩
    · exact h.handles task hold
    · unfold Handles
      rw [hmerge]
      trivial
    · apply handles_arrivalEntry ha
  · exact hout
  · intro task htask htype
    rcases carried htask (by simp [htype]) with
      hold | ⟨-, -, rfl, -, a, act, depth, ha, -, -, rfl⟩
    · exact hs.marked (h.skips task hold htype) (by simp)
    · apply (arrivalEntry_of_skip ha).mp htype
  · intro task htask task' htask' htype htype' hunit
    have hskips := h.skips
    rcases carried htask (by simp [htype]) with
      hold | ⟨e, he, rfl, hfresh, a, act, depth, -, hnone, -, heq⟩
    · rcases carried htask' (by simp [htype']) with
        hold' | ⟨-, -, rfl, -, a', act', depth', -, hnone', -, rfl⟩
      · exact h.skip_unique task hold task' hold' htype htype' hunit
      · grind [arrivalEntry]
    · rcases carried htask' (by simp [htype']) with hold' | ⟨e', he', rfl, hfresh', -⟩
      · grind [arrivalEntry]
      · rw [hs.unique e he e' he' hfresh hfresh' htype htype' hunit]
  · intro task htask htype
    rcases carried htask (by simp [htype]) with
      hold | ⟨-, -, rfl, -, a, act, depth, ha, -, hmark, rfl⟩
    · rcases h.groups task hold htype with hexec | ⟨hroot, hnone⟩
      · exact .inl (hs.marked hexec (by simp))
      · exact .inr ⟨hroot, (hs.root _ hroot).trans hnone⟩
    · left
      apply hmark.resolve_right
      intro hskip
      rw [(arrivalEntry_of_skip ha).mpr hskip] at htype
      cases htype

/-! ### Closed units -/

/-- The unit had its terminal commit: one of its nodes has a terminal row, or its group record is
done. -/
def Closed (g : Topology) (s : MemoryState) (u : Int) : Prop :=
  (∃ i, isDataNode g.nodes i ∧ g.nodeUnit i = u ∧
    (s.rowOutcome (g.nodeName i)).any (·.1.isTerminal)) ∨
  (s.groupUnits u).any (·.status = .done)

/-- Rows of members of a group and records of groups exist only where a task was handed out to skip
the member or to run the group; the row of a member is terminal. -/
structure RowsCarry (g : Topology) (s : MemoryState) (issued : List Task) : Prop where
  rows : ∀ i, isDataNode g.nodes i → g.unitKindAt (g.nodeUnit i) = .group →
    (s.rowOutcome (g.nodeName i)).isSome →
    (s.rowOutcome (g.nodeName i)).any (·.1.isTerminal) ∧
      ∃ task ∈ issued, task.type = .nodeSkip ∧ task.nodeIdx = i
  records : ∀ u, (s.groupUnits u).isSome →
    ∃ task ∈ issued, task.type = .groupExec ∧ task.unitIdx = u

theorem closed_of_update {st : NodeStatus} (hi : isDataNode g.nodes i)
    (hrows : t.rowOutcome = update s.rowOutcome (g.nodeName i) (some (st, port)))
    (hrecords : t.groupUnits = s.groupUnits)
    (hopen : (s.rowOutcome (g.nodeName i)).any (·.1.isTerminal) = false) (u : Int) :
  Closed g t u ↔ (u = g.nodeUnit i ∧ st.isTerminal) ∨ Closed g s u
  := by
  unfold Closed
  rw [hrows, hrecords]
  have hother {j : Int} (hj : isDataNode g.nodes j) (hne : j ≠ i) :
      update s.rowOutcome (g.nodeName i) (some (st, port)) (g.nodeName j)
        = s.rowOutcome (g.nodeName j) := by
    apply update_of_ne
    rwa [ne_eq, nodeName_inj hj hi]
  constructor
  · grind
  · grind

theorem closed_of_record {v : Int} {st : Option GroupUnitState}
    (hrows : t.rowOutcome = s.rowOutcome)
    (hrecords : t.groupUnits = update s.groupUnits v st)
    (hkept : (s.groupUnits v).any (·.status = .done) → st.any (·.status = .done)) (u : Int) :
  Closed g t u ↔ (u = v ∧ st.any (·.status = .done)) ∨ Closed g s u
  := by
  unfold Closed
  rw [hrows, hrecords]
  by_cases huv : u = v <;> grind

/-! ### The ledger -/

/-- The status of an execution with the given commits. -/
def ledgerStatus (g : Topology) (log : List AppliedCommit) : ExecutionStatus :=
  if log.any (·.fatal) ∨ log ≠ [] ∧ log.length = g.unitCount then
    if log.any (·.fatal) ∨ log.any (·.failed) then .failed else .success
  else .running

/-- The log lists the closed units, each once, and determines the counters and the status. -/
structure Ledger (g : Topology) (s : MemoryState) (log : List AppliedCommit) : Prop where
  units : ∀ c ∈ log, g.isUnit c.unit
  nodup : (log.map (·.unit)).Nodup
  closed : ∀ u, u ∈ log.map (·.unit) ↔ Closed g s u
  remaining : s.remaining = g.unitCount - log.length
  failed : s.failed = log.countP (·.failed)
  status : s.status? = some (ledgerStatus g log)

variable {log : List AppliedCommit}

theorem ledgerStatus_eq_running :
  ledgerStatus g log = .running ↔
    log.any (·.fatal) = false ∧ (log = [] ∨ (log.length : Int) ≠ g.unitCount)
  := by
  unfold ledgerStatus
  grind

theorem Ledger.running {st : ExecutionStatus} (h : Ledger g s log) (hst : s.status? = some st)
    (hopen : st.isTerminal = false) :
  ledgerStatus g log = .running
  := by
  rw [h.status] at hst
  grind [ledgerStatus, ExecutionStatus.isTerminal]

theorem Ledger.mild (h : Ledger g s log) :
  s.status? ≠ some .canceling
  := by
  rw [h.status, ledgerStatus]
  split
  · split <;> simp
  · simp

theorem Ledger.length_le (h : Ledger g s log) :
  (log.length : Int) ≤ g.unitCount
  := by
  have hsub : log.map (·.unit) ⊆ indices g.units := by
    intro u hu
    obtain ⟨c, hc, rfl⟩ := mem_map.mp hu
    apply h.units c hc
  have hle := (h.nodup.subperm hsub).length_le
  simp only [length_map, indices, length_range] at hle
  unfold unitCount
  omega

theorem Ledger.close {c : AppliedCommit} (h : Ledger g s log)
    (hsettled : Settled s b c.failed c.fatal extra) (hrunning : ledgerStatus g log = .running)
    {arrivals : List DownstreamArrival} (hunit : g.isUnit c.unit) (hopen : ¬ Closed g s c.unit)
    (hclosed : ∀ v, Closed g (applyArrivals act depth arrivals b).1 v ↔ v = c.unit ∨ Closed g s v) :
  Ledger g (applyArrivals act depth arrivals b).1 (log ++ [c])
  := by
  have hcount : b.failed = (log ++ [c]).countP (·.failed) := by
    rw [hsettled.failed, h.failed, countP_append, countP_singleton]
    split <;> simp
  constructor
  · have hunits := h.units
    grind
  · rw [map_append, nodup_append]
    have hnodup := h.nodup
    have hlisted := h.closed
    grind
  · intro v
    rw [hclosed, map_append, mem_append, h.closed, map_singleton, mem_singleton, or_comm]
  · rw [applyArrivals_remaining, hsettled.remaining, h.remaining, length_append, length_singleton]
    omega
  · rw [applyArrivals_failed, hcount]
  · obtain ⟨hfatal, -⟩ := ledgerStatus_eq_running.mp hrunning
    have hends : s.ends c.fatal ↔ c.fatal ∨ ((log ++ [c]).length : Int) = g.unitCount := by
      rw [ends, h.remaining, length_append, length_singleton]
      apply or_congr Iff.rfl
      omega
    have hpos : 0 < b.failed ↔ (log ++ [c]).any (·.failed) := by
      rw [hcount, natCast_pos, List.countP_pos_iff, List.any_eq_true]
    have hany : (log ++ [c]).any (·.fatal) = c.fatal := by
      simp [hfatal]
    have hne : log ++ [c] ≠ [] := by simp
    rw [status?, applyArrivals_execution, ← status?, hsettled.status, h.status, hrunning]
    simp only [ledgerStatus, hends, hpos, hany, hne, ne_eq, not_false_eq_true, true_and]
    split <;> rfl

/-! ### Transitions -/

/-- What the accounting rests on: tasks, rows and records, and the log. -/
structure Accounted (g : Topology) (s : MemoryState) (issued : List Task)
    (log : List AppliedCommit) : Prop
    extends TasksCarry g s issued, RowsCarry g s issued, Ledger g s log

/-- What a transition leaves for the accounting to go on. -/
structure Accounts (g : Topology) (s t : MemoryState) (issued : List Task)
    (log applied : List AppliedCommit) : Prop
    extends Schedules g s t, RowsCarry g t issued, Ledger g t (log ++ applied) where
  applied : applied = [] ∨ ledgerStatus g log = .running ∧ ∃ c, applied = [c]

section

variable (h : TasksCarry g s issued)

include h

theorem TasksCarry.not_both {task task' : Task} (htask : task ∈ issued) (htask' : task' ∈ issued)
    (htype : task.type = .nodeSkip) (htype' : task'.type = .groupExec)
    (hunit : task.unitIdx = task'.unitIdx) :
  False
  := by
  have hskip := h.skips task htask htype
  have hgroup := h.groups task' htask' htype'
  grind

theorem TasksCarry.skip_unit (htask : task ∈ issued) (htype : task.type = .nodeSkip) :
  task.unitIdx = g.nodeUnit task.nodeIdx
  := by
  have hhandles := h.handles task htask
  grind [Handles]

theorem TasksCarry.group_unit (htask : task ∈ issued) (htype : task.type = .groupExec) :
  g.isUnit task.unitIdx ∧ g.unitKindAt task.unitIdx = .group
  := by
  have hhandles := h.handles task htask
  grind [Handles]

theorem TasksCarry.node_unit (htask : task ∈ issued)
    (htype : task.type = .nodeExec ∨ task.type = .subWorkflow) :
  g.NamesNode task ∧ g.unitKindAt (g.nodeUnit task.nodeIdx) = .node
  := by
  have hhandles := h.handles task htask
  grind [Handles]

end

section

variable (h : Accounted g s issued log)

include h

theorem Accounted.stay :
  Accounts g s s issued log []
  := by
  refine ⟨schedules_of_eq rfl rfl rfl, h.toRowsCarry, ?_, .inl rfl⟩
  rw [append_nil]
  exact h.toLedger

theorem Accounted.leaseNode {lease : TaskLease} (hissued : lease.task ∈ issued)
    (htype : lease.task.type = .nodeExec ∨ lease.task.type = .subWorkflow) :
  Accounts g s (s.acquireTaskLeaseChecked lease false).1 issued log []
  := by
  obtain ⟨hnames, hkind⟩ := h.node_unit hissued htype
  rcases @acquireTaskLeaseChecked_cases s lease with hsame | ⟨hopen, hrows⟩
  · rw [hsame]
    exact h.stay
  · rw [hnames.name] at hrows hopen
    have hrecords : (s.acquireTaskLeaseChecked lease false).1.groupUnits = s.groupUnits := by
      rw [acquireTaskLeaseChecked_frame]
    have hclosed := closed_of_update hnames.data hrows hrecords hopen
    rw [acquireTaskLeaseChecked_frame] at hrows hclosed ⊢
    refine ⟨schedules_of_eq rfl rfl rfl, ⟨?_, h.records⟩, ?_, .inl rfl⟩
    · intro i hi hgroup
      have hname := nodeName_inj hi hnames.data
      have hold := h.rows i hi hgroup
      rw [hrows]
      grind
    · rw [append_nil]
      refine { h.toLedger with closed := ?_ }
      intro u
      rw [h.closed, hclosed]
      simp [NodeStatus.isTerminal]

theorem Accounted.leaseGroup {leaseID token : String} (hissued : task ∈ issued)
    (htype : task.type = .groupExec) :
  Accounts g s (s.acquireGroupLease task.unitIdx leaseID token 1).1 issued log []
  := by
  obtain ⟨st, heq, -, hdone⟩ := s.acquireGroupLease_cases
  rw [heq]
  refine ⟨schedules_of_eq rfl rfl rfl, ⟨h.rows, ?_⟩, ?_, .inl rfl⟩
  · have hrecords := h.records
    grind
  · rw [append_nil]
    refine { h.toLedger with closed := ?_ }
    intro u
    have hclosed : Closed g { s with
        groupUnits := update s.groupUnits task.unitIdx (some st) } u
        ↔ u = task.unitIdx ∧ (some st).any (·.status = .done) ∨ Closed g s u := by
      apply closed_of_record
      · rfl
      · rfl
      · intro hrecord
        simpa using hdone.mpr hrecord
    rw [h.closed, hclosed, any_some, decide_eq_true_eq, hdone, Closed]
    grind

/-- A commit of the engine of a node unit, or of a member that a skip task names. -/
def Commits (g : Topology) (issued : List Task) (i : Int) : Prop :=
  g.unitKindAt (g.nodeUnit i) = .node ∨
    ∃ task ∈ issued, task.type = .nodeSkip ∧ task.nodeIdx = i

theorem Accounted.open_of_row (hi : isDataNode g.nodes i) (hunit : Commits g issued i)
    (hopen : (s.rowOutcome (g.nodeName i)).any (·.1.isTerminal) = false) :
  ¬ Closed g s (g.nodeUnit i)
  := by
  rintro (⟨j, hj, hsame, hterminal⟩ | hdone)
  · -- a terminal row of the unit belongs to the node itself
    have hji : j = i := by
      rcases hunit with hkind | ⟨task, htask, htype, hidx⟩
      · symm
        apply (nodeUnit_eq_iff hi hj hkind).mp hsame.symm
      · cases hkind : g.unitKindAt (g.nodeUnit j) with
        | node => apply (nodeUnit_eq_iff hj hi hkind).mp hsame
        | group =>
          obtain ⟨-, task', htask', htype', hidx'⟩ := h.rows j hj hkind (by
            cases hrow : s.rowOutcome (g.nodeName j) <;> simp_all)
          rw [← hidx, ← hidx']
          apply h.skip_unique task' htask' task htask htype' htype
          rw [h.skip_unit htask' htype', h.skip_unit htask htype, hidx, hidx', hsame]
    rw [hji, hopen] at hterminal
    cases hterminal
  · have hrecord : (s.groupUnits (g.nodeUnit i)).isSome := by
      cases hst : s.groupUnits (g.nodeUnit i) <;> simp_all
    obtain ⟨task', htask', htype', hunit'⟩ := h.records _ hrecord
    rcases hunit with hkind | ⟨task, htask, htype, hidx⟩
    · have hgroup := (h.group_unit htask' htype').2
      rw [hunit', hkind] at hgroup
      cases hgroup
    · apply h.not_both htask htask' htype htype'
      rw [h.skip_unit htask htype, hidx, hunit']

theorem Accounted.open_of_record {u : Int} {st : GroupUnitState}
    (hrecord : s.groupUnits u = some st) (hrunning : st.status = .running) :
  ¬ Closed g s u
  := by
  obtain ⟨task', htask', htype', hunit'⟩ := h.records u (by rw [hrecord]; rfl)
  rintro (⟨i, hi, rfl, hterminal⟩ | hdone)
  · have hkind : g.unitKindAt (g.nodeUnit i) = .group := by
      rw [← hunit']
      apply (h.group_unit htask' htype').2
    obtain ⟨-, task, htask, htype, hidx⟩ := h.rows i hi hkind (by
      cases hrow : s.rowOutcome (g.nodeName i) <;> simp_all)
    apply h.not_both htask htask' htype htype'
    rw [h.skip_unit htask htype, hidx, hunit']
  · simp [hrecord, hrunning] at hdone

end

theorem Accounted.scheduled_of_arrival {g : Graph} (hacyc : g.allowCycles = false)
    (h : Accounted g s issued log)
    (hi : isDataNode g.nodes i) (hunit : Commits g issued i)
    (ha : a ∈ g.downstreamArrivals i port) (hroot : g.isRoot a.unitIdx) :
  s.scheduled a.unitIdx ≠ .none
  := by
  have hfanout := nodeFanout_pos hi ha
  by_cases hself : g.nodeUnit i = a.unitIdx
  · rcases hunit with hkind | ⟨task, htask, htype, hidx⟩
    · rw [← g.multiplicity_nodeUnit hacyc hi hkind, ← hself, g.multiplicity_self hacyc] at hfanout
      cases hfanout
    · rw [← hself, ← hidx, ← h.skip_unit htask htype, h.skips task htask htype]
      simp
  · rw [nodeFanout_eq_countP (mem_indices.mp (isDataNode_iff.mp hi).1).1 hself] at hfanout
    exact absurd hroot (not_isRoot_of_countP hfanout)

theorem mem_foldedArrivals (hreq : g.EngineCommit req) (ha : a ∈ s.foldedArrivals req) :
  a ∈ g.downstreamArrivals req.nodeIdx req.port
  := by
  unfold foldedArrivals at ha
  rw [hreq.arrivals] at ha
  split at ha
  · cases ha
  · split at ha
    · cases ha
    · exact ha

theorem commit_of_refused (hreq : g.EngineCommit req) (h : s.commitVerdict req ≠ .accepted) :
  s.commit g req = (s, [])
  := by
  unfold commit commitNode
  simp only [hreq.valid, commitNodeLocked_applied, h, decide_false, Bool.false_eq_true, if_false]
  rw [commitNodeLocked_of_refused h]

/-- The commit of a node is admitted: it settles the node and folds arrivals. -/
structure Applies (g : Topology) (s : MemoryState) (req : CommitNodeRequest) (b : MemoryState) :
    Prop where
  accepted : s.commitVerdict req = .accepted
  settled : Settled s b (req.status = .failed) req.fatal (s.mergeIntent req)
  opened : (s.rowOutcome (g.nodeName req.nodeIdx)).any (·.1.isTerminal) = false
  rows : b.rowOutcome = update s.rowOutcome (g.nodeName req.nodeIdx) (some (req.status, req.port))
  records : b.groupUnits = s.groupUnits
  eq : s.commit g req
    = ((applyArrivals req.activationID req.autoDepth (s.foldedArrivals req) b).1,
      [⟨g.nodeUnit req.nodeIdx, req.status = .failed, req.fatal⟩])

theorem commit_cases (hreq : g.EngineCommit req) (hmild : s.status? ≠ some .canceling) :
  s.commitVerdict req ≠ .accepted ∧ s.commit g req = (s, []) ∨ ∃ b, Applies g s req b
  := by
  by_cases haccepted : s.commitVerdict req = .accepted
  · right
    obtain ⟨b, hsettled, hrows, hrecords, heq⟩ :=
      commitNodeLocked_settled haccepted hreq.acyclic hreq.advance hmild
    obtain ⟨-, hrow, -⟩ := commitVerdict_accepted haccepted
    rw [hreq.name] at hrows hrow
    refine ⟨b, haccepted, hsettled, hrow, hrows, hrecords, ?_⟩
    unfold commit commitNode
    simp [hreq.valid, commitNodeLocked_applied, haccepted, heq]
  · left
    exact ⟨haccepted, commit_of_refused hreq haccepted⟩

theorem Applies.rowOutcome (h : Applies g s req b) :
  (s.commit g req).1.rowOutcome
    = update s.rowOutcome (g.nodeName req.nodeIdx) (some (req.status, req.port))
  := by
  rw [h.eq, rowOutcome_congr applyArrivals_nodes, h.rows]

/-- The commit of a group is admitted. -/
structure GroupApplies (s : MemoryState) (req : GroupCommitRequest) (b : MemoryState)
    (st : GroupUnitState) : Prop where
  accepted : s.groupVerdict req = .accepted
  settled : Settled s b (req.outcome = .failed) req.fatal none
  record : s.groupUnits req.groupUnitIdx = some st
  running : st.status = .running
  rows : b.rowOutcome = s.rowOutcome
  records : b.groupUnits
    = update s.groupUnits req.groupUnitIdx (some (doneRecord req.leaseToken st))
  eq : s.commitGroup req = ((applyArrivals 0 0 req.downstream b).1,
    [⟨req.groupUnitIdx, req.outcome = .failed, req.fatal⟩])

theorem commitGroup_cases {req : GroupCommitRequest} :
  s.commitGroup req = (s, []) ∨ ∃ b st, GroupApplies s req b st
  := by
  by_cases haccepted : s.groupVerdict req = .accepted
  · right
    obtain ⟨b, hsettled, hrows, hrecords, heq⟩ := commitGroupLocked_settled haccepted
    obtain ⟨-, st, hst, hheld⟩ := groupVerdict_accepted haccepted
    rw [hst] at hrecords
    refine ⟨b, st, haccepted, hsettled, hst, hheld, hrows, hrecords, ?_⟩
    simp [commitGroup, commitGroupLocked_applied, haccepted, heq]
  · left
    simp only [commitGroup, commitGroupLocked_applied, haccepted, decide_false, Bool.false_eq_true,
      if_false]
    rw [commitGroupLocked_of_refused haccepted]

theorem not_ends_of_settled {failed fatal : Bool} {intent : Option OutboxEntry}
    {arrivals : List DownstreamArrival} (h : Settled s b failed fatal intent)
    (hafter : (applyArrivals act depth arrivals b).1.status? = some .running) :
  ¬ s.ends fatal
  := by
  intro hends
  rw [status?, applyArrivals_execution, ← status?, h.status, if_pos hends] at hafter
  split at hafter <;> cases hafter

/-- A commit of a node after which the execution is running was refused, or folded the arrivals of
the port. -/
theorem commit_running (hreq : g.EngineCommit req) (hbefore : s.status? = some .running)
    (hafter : (s.commit g req).1.status? = some .running) :
  s.commitVerdict req ≠ .accepted ∧ s.commit g req = (s, []) ∨
    ∃ b, Applies g s req b ∧ ¬ s.ends req.fatal ∧
      s.foldedArrivals req = g.downstreamArrivals req.nodeIdx req.port
  := by
  refine (commit_cases hreq (by rw [hbefore]; simp)).imp_right fun ⟨b, h⟩ => ?_
  rw [h.eq] at hafter
  have hends := not_ends_of_settled h.settled hafter
  have hfatal : req.fatal = false := by
    rw [ends, not_or] at hends
    simpa using hends.1
  refine ⟨b, h, hends, ?_⟩
  rw [foldedArrivals, if_neg hends, hreq.arrivals, hfatal]
  rfl

theorem Accounted.commitNode {g : Graph} (hacyc : g.allowCycles = false)
    (h : Accounted g s issued log) (hreq : g.EngineCommit req)
    (hunit : Commits g issued req.nodeIdx) :
  Accounts g s (s.commit g req).1 issued log (s.commit g req).2
  := by
  rcases commit_cases hreq h.mild with ⟨-, hsame⟩ | ⟨b, happlies⟩
  · rw [hsame]
    exact h.stay
  · obtain ⟨⟨st, hst, hopen⟩, -⟩ := commitVerdict_accepted happlies.accepted
    have hrunning := h.running hst hopen
    rw [happlies.eq]
    have hrows :
        (applyArrivals req.activationID req.autoDepth (s.foldedArrivals req) b).1.rowOutcome = _ :=
      (rowOutcome_congr applyArrivals_nodes).trans happlies.rows
    refine ⟨?_, ⟨?_, ?_⟩, ?_, .inr ⟨hrunning, _, rfl⟩⟩
    · apply schedules_applyArrivals happlies.settled
      · intro e he
        obtain ⟨task, htask, rfl⟩ := map_eq_some_iff.mp he
        exact ⟨(hreq.merge task htask).1, _, _, rfl⟩
      · intro a ha
        apply names_downstreamArrivals (mem_foldedArrivals hreq ha)
      · intro a ha
        apply h.scheduled_of_arrival hacyc hreq.data hunit (mem_foldedArrivals hreq ha)
    · intro i hi hkind hsome
      have hold := h.rows i hi hkind
      have hname := nodeName_inj hi hreq.data
      have hterminal := hreq.terminal
      rw [hrows] at hsome ⊢
      grind [Commits]
    · rw [applyArrivals_groupUnits, happlies.records]
      exact h.records
    · apply h.close (c := ⟨g.nodeUnit req.nodeIdx, req.status = .failed, req.fatal⟩)
        happlies.settled hrunning (nodeUnit_mem hreq.data)
      · apply h.open_of_row hreq.data hunit happlies.opened
      · intro v
        rw [closed_of_update hreq.data hrows _ happlies.opened]
        · simp [hreq.terminal]
        · rw [applyArrivals_groupUnits, happlies.records]

theorem Accounted.commitGroup (h : Accounted g s issued log) {req : GroupCommitRequest}
    (hreq : g.EngineGroupCommit req) :
  Accounts g s (s.commitGroup req).1 issued log (s.commitGroup req).2
  := by
  rcases @commitGroup_cases s req with hsame | ⟨b, rec, happlies⟩
  · rw [hsame]
    exact h.stay
  · obtain ⟨⟨st, hst, hopen⟩, -⟩ := groupVerdict_accepted happlies.accepted
    have hrunning := h.running hst hopen
    rw [happlies.eq]
    have hrows : (applyArrivals 0 0 req.downstream b).1.rowOutcome = _ :=
      (rowOutcome_congr applyArrivals_nodes).trans happlies.rows
    have hrecords : (applyArrivals 0 0 req.downstream b).1.groupUnits = _ :=
      applyArrivals_groupUnits.trans happlies.records
    refine ⟨?_, ⟨?_, ?_⟩, ?_, .inr ⟨hrunning, _, rfl⟩⟩
    · apply schedules_applyArrivals happlies.settled
      · intro e he
        cases he
      · exact hreq.names
      · intro a ha hroot
        have hpos := arrivedAt_pos (fun b hb => (hreq.names b hb).arrived) ha
        cases hfatal : req.fatal with
        | true =>
          rw [hreq.quiet hfatal] at ha
          cases ha
        | false =>
          rw [hreq.arrived hfatal] at hpos
          exact absurd hroot (not_isRoot_of_countP (Int.natCast_pos.mp hpos))
    · rw [hrows]
      exact h.rows
    · have hold := h.records
      have hrecord := happlies.record
      rw [hrecords]
      grind
    · apply h.close (c := ⟨req.groupUnitIdx, req.outcome = .failed, req.fatal⟩)
        happlies.settled hrunning hreq.unit
      · apply h.open_of_record happlies.record happlies.running
      · intro v
        rw [closed_of_record hrows hrecords]
        · simp [doneRecord]
        · simp [doneRecord]

variable {applied : List AppliedCommit} {σ : System}

theorem Accounted.move {g : Graph} (hacyc : g.allowCycles = false)
    (h : Accounted g s issued log)
    (hmove : Move g issued s t applied) :
  Accounts g s t issued log applied
  := by
  cases hmove with
  | stay => exact h.stay
  | leaseNode task lease hissued htype htask =>
    subst htask
    rw [hacyc]
    apply h.leaseNode hissued htype
  | leaseGroup task leaseID leaseToken hissued htype => apply h.leaseGroup hissued htype
  | commitNode req hreq hunit => apply h.commitNode hacyc hreq hunit
  | commitGroup req hreq => apply h.commitGroup hreq

theorem Accounted.after
    (h : Accounted g σ.store σ.issued σ.log)
    (haccounts : Accounts g σ.store s σ.issued σ.log applied) (hsub : ∀ e ∈ outbox, e ∈ s.outbox) :
  Accounted g (σ.after { s with outbox := outbox } applied).store
    (σ.after { s with outbox := outbox } applied).issued
    (σ.after { s with outbox := outbox } applied).log
  := by
  have hissued {task : Task} (htask : task ∈ σ.issued) :
      task ∈ (σ.after { s with outbox := outbox } applied).issued :=
    mem_append_left _ htask
  refine ⟨?_, ⟨?_, ?_⟩, { haccounts with }⟩
  · apply h.toTasksCarry.of_schedules haccounts.toSchedules
    · intro task htask
      rcases mem_append.mp htask with hold | hnew
      · left
        exact hold
      · right
        obtain ⟨e, he, rfl⟩ := mem_map.mp hnew
        exact ⟨e, hsub e he, rfl⟩
    · intro e he
      apply mem_append_right
      apply mem_map_of_mem he
  · intro i hi hkind hrow
    obtain ⟨hterminal, task, htask, hnames⟩ := haccounts.rows i hi hkind hrow
    exact ⟨hterminal, task, hissued htask, hnames⟩
  · intro u hrecord
    obtain ⟨task, htask, hnames⟩ := haccounts.records u hrecord
    exact ⟨task, hissued htask, hnames⟩

theorem accounted_step {g : Graph} (hacyc : g.allowCycles = false) {a : Action} {τ : System}
    (h : Accounted g σ.store σ.issued σ.log) (hstep : step g a σ = some τ) :
  Accounted g τ.store τ.issued τ.log ∧
    (τ.log = σ.log ∨ ledgerStatus g σ.log = .running ∧ ∃ c, τ.log = σ.log ++ [c])
  := by
  obtain ⟨s, applied, keep, hsub, hmove, rfl⟩ := step_moves h.handles hstep h.outbox
  have haccounts := h.move hacyc (hmove.mono hsub)
  constructor
  · exact h.after haccounts (fun e he => (mem_filter.mp he).1)
  · rcases haccounts.applied with rfl | ⟨hrunning, c, rfl⟩
    · left
      apply append_nil
    · right
      exact ⟨hrunning, c, rfl⟩

/-! ### The start -/

attribute [local simp] createExecution

/-- An execution starts accounted for when its initial tasks can be handled, its skip tasks name one
node for each unit, and its group tasks run roots that are not skipped. -/
theorem accounted_start {testRun limited : Bool} {tasks : List Task} (hacyc : g.allowCycles = false)
    (hhandles : ∀ task ∈ tasks, g.Handles task)
    (hskips : ∀ task ∈ tasks, ∀ task' ∈ tasks, task.type = .nodeSkip → task'.type = .nodeSkip →
      task.unitIdx = task'.unitIdx → task.nodeIdx = task'.nodeIdx)
    (hgroups : ∀ task ∈ tasks, task.type = .groupExec → g.isRoot task.unitIdx ∧
      ∀ task' ∈ tasks, task'.type = .nodeSkip → task'.unitIdx ≠ task.unitIdx) :
  Accounted g (start g id testRun limited tasks).store (start g id testRun limited tasks).issued
    (start g id testRun limited tasks).log
  := by
  have hlog : (start g id testRun limited tasks).log = [] := rfl
  have houtbox : ∀ e ∈ (start g id testRun limited tasks).store.outbox,
      e.task ∈ (start g id testRun limited tasks).issued := fun e => mem_map_of_mem
  have hissued : ∀ task ∈ (start g id testRun limited tasks).issued, task ∈ tasks :=
    fun task => start_issued
  obtain ⟨sched, heq, hsched⟩ := start_spec g id testRun limited tasks
  rw [hlog]
  rw [heq] at houtbox ⊢
  refine ⟨⟨?_, houtbox, ?_, ?_, ?_⟩, ⟨?_, ?_⟩, ⟨?_, nodup_nil, ?_, ?_, rfl, ?_⟩⟩
  · exact fun task htask => hhandles task (hissued task htask)
  · intro task htask htype
    change sched task.unitIdx = _
    rw [hsched, if_pos ⟨task, hissued task htask, htype, rfl⟩]
  · exact fun task htask task' htask' => hskips task (hissued _ htask) task' (hissued _ htask')
  · grind
  · intro i _ _ hrow
    cases hrow
  · intro u hrecord
    cases hrecord
  · intro c hc
    cases hc
  · intro u
    simp [Closed, rowOutcome]
  · simp [hacyc]
  · simp [status?, ledgerStatus]

/-- An execution starts by `Submit`, or by `Invoke` on an entry that is a unit of its own. -/
def Starts (g : Topology) (σ : System) : Prop :=
  (∃ id testRun limited, σ = submit g id testRun limited) ∨
  ∃ id testRun limited entryName i, g.entryIndex entryName = some i ∧ i ∈ g.ungrouped ∧
    invoke g id testRun limited entryName = some σ

theorem accounted_of_starts (hacyc : g.allowCycles = false) (h : Starts g σ) :
  Accounted g σ.store σ.issued σ.log
  := by
  rcases h with ⟨id, testRun, limited, rfl⟩ |
    ⟨id, testRun, limited, entryName, i, hentry, hi, hinvoke⟩
  · apply accounted_start hacyc
    · intro task htask
      obtain ⟨u, ⟨hu, -⟩, rfl⟩ := (mem_submitInitialTasks hacyc).mp htask
      apply handles_rootTask hu
    · intro task htask _ _ htype
      exact absurd htype (submitInitialTasks_type hacyc htask)
    · intro task htask htype
      constructor
      · obtain ⟨u, hroot, rfl⟩ := (mem_submitInitialTasks hacyc).mp htask
        rwa [rootTask_unitIdx]
      · intro task' htask' htype'
        exact absurd htype' (submitInitialTasks_type hacyc htask')
  · rw [invoke, hentry] at hinvoke
    obtain rfl := some.inj hinvoke
    have hentryTask {task : Task} (htask : task ∈ g.invokeTasks i) :
        (task.type = .nodeExec ∨ task.type = .subWorkflow) ∨
          task ∈ g.unselectedRootSkips (g.nodeUnit i) := by
      rcases mem_cons.mp htask with rfl | hskip
      · exact .inl (execTaskTypeForNode_cases (g.nodeAt i))
      · exact .inr hskip
    have hskipTask {task : Task} (htask : task ∈ g.invokeTasks i) (htype : task.type = .nodeSkip) :
        ∃ j, isDataNode g.nodes j ∧ g.unitKindAt (g.nodeUnit j) = .node ∧
          task.nodeIdx = j ∧ task.unitIdx = g.nodeUnit j := by
      rcases hentryTask htask with hexec | hskip
      · simp [htype] at hexec
      · obtain ⟨j, hj, hkind, -, -, rfl⟩ := (mem_unselectedRootSkips hacyc).mp hskip
        exact ⟨j, hj, hkind, rfl, rfl⟩
    apply accounted_start hacyc
    · exact fun task htask => handles_invokeTasks hacyc hi htask
    · intro task htask task' htask' htype htype' hunit
      obtain ⟨j, hj, hkind, hidx, hj'⟩ := hskipTask htask htype
      obtain ⟨k, hk, -, hidx', hk'⟩ := hskipTask htask' htype'
      rw [hidx, hidx']
      apply (nodeUnit_eq_iff hj hk hkind).mp
      rw [← hj', ← hk', hunit]
    · intro task htask htype
      rcases hentryTask htask with hexec | hskip
      · simp [htype] at hexec
      · obtain ⟨j, -, -, -, -, rfl⟩ := (mem_unselectedRootSkips hacyc).mp hskip
        cases htype

end System

end Xflow
