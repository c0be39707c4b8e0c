import Xflow.Engine.Completion

/-!
# Progress

A running execution is never stuck: some unit is leased, or an intent for an open unit is in the
outbox.  The counters of the open units count the edges from open units, a unit whose last edge was
counted is marked, and a unit that is marked or a root is leased, closed or has its intent in the
outbox (`Progress`).  As the units are ordered, there is a first open one, and it waits for nothing.

The skip of a group propagates the edges of the one member it names, so this holds for runs in which
a group is skipped only if all edges out of it start at that member.
-/

namespace Xflow

open List Option Function

namespace System

open Xflow.Topology MemoryState

variable {g : Topology} {s t b : MemoryState} {issued tasks : List Task} {log : List AppliedCommit}

/-! ### Leased units -/

/-- A node of the unit is leased, or the unit is a group that is leased. -/
def Leased (g : Topology) (s : MemoryState) (u : Int) : Prop :=
  (∃ i, isDataNode g.nodes i ∧ g.nodeUnit i = u ∧
    (s.rowOutcome (g.nodeName i)).any (·.1 = .running)) ∨
  (s.groupUnits u).any (·.status = .running)

/-- The unit has a row or a record. -/
def Begun (g : Topology) (s : MemoryState) (u : Int) : Prop :=
  (∃ i, isDataNode g.nodes i ∧ g.nodeUnit i = u ∧ (s.rowOutcome (g.nodeName i)).isSome) ∨
  (s.groupUnits u).isSome

/-- Rows and records are those of leases and of commits. -/
structure Recorded (s : MemoryState) : Prop where
  rows : ∀ name row, s.rowOutcome name = some row → row.1 = .running ∨ row.1.isTerminal
  records : ∀ u st, s.groupUnits u = some st → st.status = .running ∨ st.status = .done

/-- From `s` to `t` rows and records are written by leases and by commits only, and no intent is
lost. -/
structure Records (s t : MemoryState) : Prop where
  rows : t.rowOutcome = s.rowOutcome ∨ ∃ name row,
    t.rowOutcome = Function.update s.rowOutcome name (some row) ∧
      (row.1 = .running ∨ row.1.isTerminal)
  records : t.groupUnits = s.groupUnits ∨ ∃ u st,
    t.groupUnits = Function.update s.groupUnits u (some st) ∧
      (st.status = .running ∨ st.status = .done)
  outbox : ∀ e ∈ s.outbox, e ∈ t.outbox

theorem leased_or_closed (h : Recorded s) {u : Int} (hbegun : Begun g s u) :
  Leased g s u ∨ Closed g s u
  := by
  rcases hbegun with ⟨i, hi, hunit, hrow⟩ | hrecord
  · obtain ⟨row, hrow⟩ := isSome_iff_exists.mp hrow
    rcases h.rows _ row hrow with hrunning | hterminal
    · left
      left
      use i, hi, hunit
      simp [hrow, hrunning]
    · right
      left
      use i, hi, hunit
      simp [hrow, hterminal]
  · obtain ⟨st, hst⟩ := isSome_iff_exists.mp hrecord
    rcases h.records u st hst with hrunning | hdone
    · left
      right
      simp [hst, hrunning]
    · right
      right
      simp [hst, hdone]

section

variable {K V : Type*} [DecidableEq K] {P : V → Prop} {m m' : K → Option V}
  (next : m' = m ∨ ∃ k v, m' = Function.update m k (some v) ∧ P v)

include next

theorem forall_written (h : ∀ k v, m k = some v → P v) : ∀ k v, m' k = some v → P v
  := by
  rcases next with rfl | ⟨k, v, rfl, hv⟩
  · exact h
  · grind

theorem isSome_written {k : K} (h : (m k).isSome) : (m' k).isSome
  := by
  rcases next with rfl | ⟨k', v, rfl, -⟩
  · exact h
  · rw [update_apply]
    split
    · rfl
    · exact h

end

theorem Recorded.next (h : Recorded s) (hnext : Records s t) :
  Recorded t
  :=
  ⟨forall_written hnext.rows h.rows, forall_written hnext.records h.records⟩

theorem Begun.next {u : Int} (h : Begun g s u) (hnext : Records s t) :
  Begun g t u
  := by
  rcases h with ⟨i, hi, hunit, hrow⟩ | hrecord
  · left
    exact ⟨i, hi, hunit, isSome_written hnext.rows hrow⟩
  · right
    exact isSome_written hnext.records hrecord

variable {applied : List AppliedCommit}

theorem Move.records (hacyc : g.allowCycles = false)
    (hmove : Move g tasks s t applied) (hbefore : s.status? = some .running)
    (hafter : t.status? = some .running) :
  Records s t
  := by
  have hstay : Records s s := ⟨.inl rfl, .inl rfl, fun _ he => he⟩
  cases hmove with
  | stay => exact hstay
  | leaseNode task lease hissued htype htask =>
    rw [hacyc]
    rcases @acquireTaskLeaseChecked_cases s lease with hsame | ⟨-, hrows⟩
    · rw [hsame]
      exact hstay
    · rw [acquireTaskLeaseChecked_frame] at hrows ⊢
      exact ⟨.inr ⟨_, _, hrows, .inl rfl⟩, .inl rfl, fun _ he => he⟩
  | leaseGroup task leaseID leaseToken hissued htype =>
    obtain ⟨st, heq, hkind, -⟩ := s.acquireGroupLease_cases
    rw [heq]
    exact ⟨.inl rfl, .inr ⟨_, _, rfl, hkind⟩, fun _ he => he⟩
  | commitNode req hreq hunit =>
    rcases commit_running hreq hbefore hafter with ⟨-, hsame⟩ | ⟨b, h, hends, -⟩
    · rw [hsame]
      exact hstay
    · refine ⟨.inr ⟨_, _, h.rowOutcome, .inr hreq.terminal⟩, .inl ?_, ?_⟩
      · rw [h.eq, applyArrivals_groupUnits, h.records]
      · rw [h.eq]
        exact fun e he => applyArrivals_outbox_mono (h.settled.kept hends e he)
  | commitGroup req hreq =>
    rcases @commitGroup_cases s req with hsame | ⟨b, st, h⟩
    · rw [hsame]
      exact hstay
    · rw [h.eq] at hafter ⊢
      have hends := not_ends_of_settled h.settled hafter
      refine ⟨.inl ?_, .inr ?_, ?_⟩
      · rw [rowOutcome_congr applyArrivals_nodes, h.rows]
      · rw [applyArrivals_groupUnits]
        exact ⟨_, _, h.records, .inr rfl⟩
      · exact fun e he => applyArrivals_outbox_mono (h.settled.kept hends e he)

/-! ### Handling a task -/

/-- The unit that a task is for. -/
def taskUnit (g : Topology) (task : Task) : Int :=
  match task.type with
  | .nodeExec | .subWorkflow => g.nodeUnit task.nodeIdx
  | _ => task.unitIdx

attribute [local simp] ExecutionStatus.isTerminal

theorem handle_skip {task : Task} {claim : Claim} (hhandles : g.Handles task)
    (htype : task.type = .nodeSkip) (hrunning : s.status? = some .running) :
  s.handle g task claim = s.commit g (g.skipRequest task)
  := by
  unfold Handles at hhandles
  rw [htype] at hhandles
  have hidx := mem_indices.mp (isDataNode_iff.mp hhandles.1.data).1
  have hunit := mem_indices.mp (nodeUnit_mem hhandles.1.data)
  have hactive : s.isActive := by simp [isActive, hrunning]
  have hrange : 0 ≤ task.nodeIdx ∧ task.nodeIdx < g.nodeCount ∧ 0 ≤ task.unitIdx ∧
      task.unitIdx < g.unitCount := by
    rw [hhandles.2]
    exact ⟨hidx.1, hidx.2, hunit.1, hunit.2⟩
  simp only [handle, hactive, not_true_eq_false, if_false, htype]
  rw [if_pos hrange]

theorem begun_lease (lease : TaskLease) (hacyc : g.allowCycles = false)
    (hnames : g.NamesNode lease.task) (hrunning : s.status? = some .running) :
  Begun g (s.acquireTaskLeaseChecked lease g.allowCycles).1 (g.nodeUnit lease.task.nodeIdx)
  := by
  left
  use lease.task.nodeIdx, hnames.data, rfl
  rw [hacyc, ← hnames.name]
  obtain ⟨snap, hsnap, hopen⟩ := map_eq_some_iff.mp hrunning
  cases hrow : s.nodes lease.task.nodeName with
  | none =>
    simp [acquireTaskLeaseChecked, acquireTaskLease, hsnap, hopen, hrow, rowOutcome]
  | some row =>
    rcases acquireTaskLeaseChecked_cases with hsame | ⟨-, hrows⟩
    · rw [hsame, rowOutcome, hrow]
      rfl
    · rw [hrows, update_self]
      rfl

theorem begun_commit {req : CommitNodeRequest} (hreq : g.EngineCommit req) (hsystem : req.system)
    (hstatus : req.status = .skipped ∨ req.status = .pinned ∧ s.scheduled req.unitIdx ≠ .skip)
    (hbefore : s.status? = some .running) (hafter : (s.commit g req).1.status? = some .running) :
  Begun g (s.commit g req).1 (g.nodeUnit req.nodeIdx)
  := by
  left
  use req.nodeIdx, hreq.data, rfl
  rcases commit_running hreq hbefore hafter with ⟨hrefused, hsame⟩ | ⟨b, h, -⟩
  · -- a node without a row is not refused
    rw [hsame]
    by_contra hnone
    have hnodes : s.nodes req.nodeName = none := by
      rw [hreq.name]
      simpa [rowOutcome] using hnone
    obtain ⟨snap, hsnap, hrunning⟩ := map_eq_some_iff.mp hbefore
    have hadmits : s.systemFenceAdmits req := by
      rcases hstatus with hst | ⟨hst, hmark⟩
      · simp [systemFenceAdmits, hst, hnodes]
      · simp [systemFenceAdmits, hst, hmark, hnodes]
    have hcancel : req.status ≠ .canceled := by grind
    apply hrefused
    simp [commitVerdict, hsnap, hnodes, hrunning, hsystem, hcancel, hadmits]
  · rw [h.rowOutcome, update_self]
    rfl

theorem begun_handle {task : Task} {claim : Claim} (hacyc : g.allowCycles = false)
    (hhandles : g.Handles task) (htype : task.type ≠ .mergeCancel)
    (hmark : task.type ≠ .nodeSkip → s.scheduled (taskUnit g task) ≠ .skip)
    (hbefore : s.status? = some .running)
    (hafter : (s.handle g task claim).1.status? = some .running) :
  Begun g (s.handle g task claim).1 (taskUnit g task)
  := by
  have hactive : s.isActive := by simp [isActive, hbefore]
  have hcan := hhandles
  unfold taskUnit at hmark ⊢
  unfold Handles at hcan
  cases htask : task.type with
  | nodeExec =>
    simp only [htask] at hcan hmark ⊢
    simp only [handle, hactive, htask] at hafter ⊢
    cases hreq : (g.disabledRequest task).or
        (g.pinnedRequest (s.execution.any (·.testRun)) task) with
    | some req =>
      rw [hreq] at hafter
      obtain ⟨status, output, rfl, hstatus⟩ := intercept_cases hreq
      apply begun_commit (engineCommit_interceptRequest hcan.1 hstatus) rfl _ hbefore hafter
      exact hstatus.imp_right fun hpinned => ⟨hpinned, hmark (by simp)⟩
    | none => exact begun_lease ⟨task, _, _, _, _, _⟩ hacyc hcan.1 hbefore
  | subWorkflow =>
    simp only [htask] at hcan ⊢
    simp only [handle, hactive, htask]
    exact begun_lease ⟨task, _, _, _, _, _⟩ hacyc hcan.1 hbefore
  | nodeSkip =>
    simp only [htask] at hcan ⊢
    rw [handle_skip hhandles htask hbefore] at hafter ⊢
    rw [hcan.2]
    apply begun_commit (engineCommit_skipRequest hcan.1) rfl (.inl rfl) hbefore hafter
  | groupExec =>
    simp only [htask] at hcan ⊢
    have hrange : 0 ≤ task.unitIdx ∧ task.unitIdx < g.unitCount ∧
        g.unitKindAt task.unitIdx = .group := by
      have hunit := mem_indices.mp hcan.1
      exact ⟨hunit.1, hunit.2, hcan.2⟩
    simp only [handle, hactive, htask]
    rw [if_pos hrange]
    obtain ⟨st, heq, -⟩ := s.acquireGroupLease_cases
    right
    rw [heq]
    simp
  | mergeCancel => exact absurd htask htype
  | nodeResume | nodeAdvance | nodeBatch => simp only [htask] at hcan

/-! ### Intents -/

/-- The intent is for a unit with the given marker. -/
structure Carries (g : Topology) (e : OutboxEntry) (u : Int) (m : Marker) : Prop where
  unit : taskUnit g e.task = u
  type : e.task.type ≠ .mergeCancel
  skip : e.task.type = .nodeSkip ↔ m = .skip

/-- The intent is an initial one, one of a merge, or one of a decided unit. -/
def Labelled (g : Topology) (id : String) (e : OutboxEntry) : Prop :=
  (∃ name act, e.id = initialOutboxID id name act) ∨ MergeEntry id e ∨
  ∃ a act depth m, g.Names a ∧ (m = .execute ∨ m = .skip) ∧ e = arrivalEntry id act depth a m

variable {act depth : Int} {id : String} {a : DownstreamArrival} {e : OutboxEntry}

theorem carries_arrivalEntry {m : Marker} (ha : g.Names a) :
  Carries g (arrivalEntry id act depth a m) a.unitIdx m
  := by
  refine ⟨?_, ?_, arrivalEntry_of_skip ha⟩
  · unfold taskUnit
    split
    · exact ha.unitIdx.symm
    · exact ha.unitIdx.symm
    · rfl
  · rw [arrivalEntry_type, ha.execTaskType]
    split
    · simp
    · split
      · simp
      · rcases execTaskTypeForNode_cases (g.nodeAt a.nodeIdx) with h | h <;> simp [h]

theorem arrivalEntry_id {m : Marker} :
  (arrivalEntry id act depth a m).id
    = outboxID (if m = .skip then "skip" else "execute") id a.nodeName act
  := by
  by_cases hskip : m = .skip <;> simp [arrivalEntry, hskip, skipOutboxID, executeOutboxID]

theorem Labelled.carries {m : Marker} (h : Labelled g id e) (ha : g.Names a)
    (hm : m = .execute ∨ m = .skip) (hid : e.id = (arrivalEntry id act depth a m).id) :
  Carries g e a.unitIdx m
  := by
  have hkind : '/' ∉ (if m = .skip then "skip" else "execute").toList := by
    split <;> decide
  rw [arrivalEntry_id] at hid
  rcases h with ⟨name, act', hlabel⟩ | ⟨-, name, act', hlabel⟩ |
    ⟨a', act', depth', m', ha', hm', rfl⟩
  iterate 2
    rw [hlabel] at hid
    have hkinds := outboxID_kind (by decide) hkind hid
    split at hkinds <;> exact absurd hkinds (by decide)
  · rw [arrivalEntry_id] at hid
    have hkind' : '/' ∉ (if m' = .skip then "skip" else "execute").toList := by
      split <;> decide
    have hsame := outboxID_kind hkind' hkind hid
    have hmm : m' = m := by grind
    rw [hsame] at hid
    have hname := (outboxID_inj.mp hid).1
    rw [ha.nodeName, ha'.nodeName, nodeName_inj ha'.data ha.data] at hname
    have hunit : a'.unitIdx = a.unitIdx := by rw [ha'.unitIdx, ha.unitIdx, hname]
    rw [← hunit, ← hmm]
    apply carries_arrivalEntry ha'

theorem Labelled.next (h : ∀ e ∈ s.outbox, Labelled g s.id e) (hs : Schedules g s t) :
  ∀ e ∈ t.outbox, Labelled g t.id e
  := by
  intro e he
  rw [hs.id]
  rcases hs.fresh e he with hold | hmerge | ⟨a, act, depth, ha, -, hmark, heq⟩
  · exact h e hold
  · exact .inr (.inl hmerge)
  · exact .inr (.inr ⟨a, act, depth, _, ha, hmark, heq⟩)

/-! ### Counters -/

/-- The in-degree of an open unit counts the edges from open units, and that of a closed one counts
no more; a unit whose edges are all counted is marked. -/
structure Counted (g : Topology) (s : MemoryState) (log : List AppliedCommit) : Prop where
  counts : ∀ d, ¬ Closed g s d → s.inDegrees d = g.unitGraph.openIn (log.map (·.unit)) d
  counts_le : ∀ d, s.inDegrees d ≤ g.unitGraph.openIn (log.map (·.unit)) d
  due : ∀ d, g.isUnit d → ¬ g.isRoot d → s.inDegrees d ≤ 0 → s.scheduled d ≠ .none

variable {arrivals : List DownstreamArrival} {extra : Option OutboxEntry} {failed fatal : Bool}
  {d : Int} {c : AppliedCommit}

theorem marked_of_arrivals (hsettled : Settled s b failed fatal extra)
    (hcount : ∀ a ∈ arrivals, 0 < a.arrivalCount)
    (hdue : s.inDegrees d ≤ 0 → s.scheduled d ≠ .none)
    (hzero : (applyArrivals act depth arrivals b).1.inDegrees d ≤ 0) :
  (applyArrivals act depth arrivals b).1.scheduled d ≠ .none
  := by
  by_cases harrival : ∃ a ∈ arrivals, a.unitIdx = d
  · apply applyArrivals_decides hcount harrival hzero
  · -- nothing arrives, so the unit was marked before
    rw [applyArrivals_inDegrees hcount, arrivedAt_of_none harrival, Int.sub_zero,
      hsettled.inDegrees] at hzero
    have hmark := hdue hzero
    rw [← hsettled.scheduled] at hmark
    rw [applyArrivals_scheduled_of_ne hmark]
    exact hmark

theorem openIn_append (hledger : Ledger g s log) (hopen : ¬ Closed g s c.unit)
    (d : Int) :
  g.unitGraph.openIn ((log ++ [c]).map (·.unit)) d + g.unitGraph.multiplicity c.unit d
    = g.unitGraph.openIn (log.map (·.unit)) d
  := by
  have hfresh : c.unit ∉ log.map (·.unit) := by
    rwa [hledger.closed]
  rw [← g.unitGraph.openIn_cons hfresh d]
  congr 1
  apply g.unitGraph.openIn_congr
  simp [or_comm]

/-- A commit closes a unit and folds arrivals that account for the edges out of it. -/
theorem Counted.close (h : Counted g s log) (hledger : Ledger g s log)
    (hsettled : Settled s b failed fatal extra) (hnames : ∀ a ∈ arrivals, g.Names a)
    (harrived : ∀ d, d ≠ c.unit → arrivedAt arrivals d = g.unitGraph.multiplicity c.unit d)
    (hself : g.unitGraph.multiplicity c.unit c.unit = 0) (hopen : ¬ Closed g s c.unit)
    (hclosed : ∀ v, Closed g (applyArrivals act depth arrivals b).1 v ↔ v = c.unit ∨ Closed g s v) :
  Counted g (applyArrivals act depth arrivals b).1 (log ++ [c])
  := by
  have hcount : ∀ a ∈ arrivals, 0 < a.arrivalCount := fun a ha => (hnames a ha).arrived
  have hin (d : Int) : (applyArrivals act depth arrivals b).1.inDegrees d
      = s.inDegrees d - arrivedAt arrivals d := by
    rw [applyArrivals_inDegrees hcount, hsettled.inDegrees]
  constructor
  · intro d hd
    rw [hclosed, not_or] at hd
    have hsplit := openIn_append hledger hopen d
    rw [hin, h.counts d hd.2, harrived d hd.1]
    omega
  · intro d
    have hsplit := openIn_append hledger hopen d
    have hle := h.counts_le d
    rw [hin]
    by_cases hd : d = c.unit
    · subst hd
      have hnonneg := arrivedAt_nonneg hcount c.unit
      omega
    · rw [harrived d hd]
      omega
  · intro d hunit hroot
    apply marked_of_arrivals hsettled hcount (h.due d hunit hroot)

/-! ### Transitions that leave the execution running -/

/-- A skip task of a group names a member at which all edges out of the group start. -/
def Covering (g : Topology) (task : Task) : Prop :=
  task.type = .nodeSkip → g.unitKindAt task.unitIdx = .group →
    ∀ e ∈ g.unitOutEdges task.unitIdx, e.src.nodeIdx = task.nodeIdx

instance (g : Topology) (task : Task) : Decidable (Covering g task) :=
  inferInstanceAs (Decidable (_ → _ → _))

theorem nodeFanout_of_commits {g : Graph} (hacyc : g.allowCycles = false)
    (hcarry : TasksCarry g s issued) (hsub : tasks ⊆ issued)
    (hcover : ∀ task ∈ tasks, Covering g task) {i : Int} (hi : isDataNode g.nodes i)
    (hunit : Commits g tasks i) (hd : d ≠ g.nodeUnit i) :
  g.nodeFanout i d = g.unitGraph.multiplicity (g.nodeUnit i) d
  := by
  rcases hunit with hkind | ⟨task, htask, htype, rfl⟩
  · rw [g.multiplicity_nodeUnit hacyc hi hkind]
  · cases hkind : g.unitKindAt (g.nodeUnit task.nodeIdx) with
    | node => rw [g.multiplicity_nodeUnit hacyc hi hkind]
    | group =>
      have hcovers := hcover task htask htype
      rw [hcarry.skip_unit (hsub htask) htype] at hcovers
      rw [multiplicity_of_src hi (Ne.symm hd) (hcovers hkind)]

/-- A transition from `s` to `t` leaves counters, markers and intents alone, or settles a unit and
folds arrivals that account for the edges out of it. -/
inductive Folds (g : Topology) (s : MemoryState) : MemoryState → List AppliedCommit → Prop where
  | idle {t : MemoryState} (hin : t.inDegrees = s.inDegrees) (hsched : t.scheduled = s.scheduled)
      (hout : t.outbox = s.outbox) : Folds g s t []
  | close (b : MemoryState) (c : AppliedCommit) (failed fatal : Bool)
      (extra : Option OutboxEntry) (arrivals : List DownstreamArrival) (act depth : Int)
      (hsettled : Settled s b failed fatal extra) (hnames : ∀ a ∈ arrivals, g.Names a)
      (harrived : ∀ d, d ≠ c.unit →
        arrivedAt arrivals d = g.unitGraph.multiplicity c.unit d) :
      Folds g s (applyArrivals act depth arrivals b).1 [c]

section

variable {g : Graph} {applied : List AppliedCommit} (hacyc : g.allowCycles = false)
  (haccounted : Accounted g.toTopology s issued log) (hsub : tasks ⊆ issued)
  (hcover : ∀ task ∈ tasks, Covering g.toTopology task)
  (hmove : Move g.toTopology tasks s t applied) (hbefore : s.status? = some .running)
  (hafter : t.status? = some .running)

include hacyc haccounted hsub hcover hmove hbefore hafter

theorem Move.folds :
  Folds g s t applied
  := by
  cases hmove with
  | stay => exact Folds.idle rfl rfl rfl
  | leaseNode task lease hissued htype htask =>
    apply Folds.idle <;> rw [acquireTaskLeaseChecked_frame]
  | leaseGroup task leaseID leaseToken hissued htype =>
    obtain ⟨st, heq, -⟩ := s.acquireGroupLease_cases
    apply Folds.idle <;> rw [heq]
  | commitNode req hreq hunit =>
    rcases commit_running hreq hbefore hafter with ⟨-, hsame⟩ | ⟨b, h, -, hfolded⟩
    · rw [hsame]
      exact Folds.idle rfl rfl rfl
    · rw [h.eq, hfolded]
      apply Folds.close b _ _ _ _ _ _ _ h.settled (fun a => names_downstreamArrivals)
      intro d hd
      rw [arrivedAt_downstreamArrivals hreq.data,
        nodeFanout_of_commits hacyc haccounted.toTasksCarry hsub hcover hreq.data hunit hd]
  | commitGroup req hreq =>
    rcases @commitGroup_cases s req with hsame | ⟨b, st, h⟩
    · rw [hsame]
      exact Folds.idle rfl rfl rfl
    · rw [h.eq] at hafter ⊢
      have hends := not_ends_of_settled h.settled hafter
      apply Folds.close b _ _ _ _ _ _ _ h.settled hreq.names
      intro d _
      apply hreq.arrived
      rw [ends, not_or] at hends
      simpa using hends.1

omit hcover hbefore hafter in
theorem Move.closed :
  (applied = [] → ∀ u, Closed g t u ↔ Closed g s u) ∧
    ∀ c, applied = [c] → ¬ Closed g s c.unit ∧
      ∀ v, Closed g t v ↔ v = c.unit ∨ Closed g s v
  := by
  have haccounts := haccounted.move hacyc (hmove.mono hsub)
  have hclosed := haccounts.closed
  constructor
  · rintro rfl u
    rw [← hclosed, append_nil, haccounted.closed]
  · rintro c rfl
    have hnodup := haccounts.nodup
    rw [map_append, nodup_append] at hnodup
    constructor
    · rw [← haccounted.closed]
      intro hmem
      exact hnodup.2.2 _ hmem _ (by simp) rfl
    · intro v
      rw [← hclosed, ← haccounted.closed]
      simp [or_comm]

theorem Counted.move (h : Counted g s log) :
  Counted g t (log ++ applied)
  := by
  obtain ⟨hidle, hclose⟩ := Move.closed hacyc haccounted hsub hmove
  cases Move.folds hacyc haccounted hsub hcover hmove hbefore hafter with
  | idle hin hsched hout =>
    rw [append_nil]
    constructor
    · intro d hopen
      rw [hidle rfl] at hopen
      rw [hin]
      exact h.counts d hopen
    · rw [hin]
      exact h.counts_le
    · rw [hin, hsched]
      exact h.due
  | close b c failed fatal extra arrivals act depth hsettled hnames harrived =>
    obtain ⟨hopen, hclosed⟩ := hclose c rfl
    exact h.close haccounted.toLedger hsettled hnames harrived (g.multiplicity_self hacyc _) hopen
      hclosed

end

/-! ### The invariant -/

/-- The counters are right, and a unit that is marked or a root has begun, or its intent is there.
-/
structure Progress (g : Topology) (s : MemoryState) (log : List AppliedCommit) : Prop
    extends Recorded s, Counted g s log where
  ids : (s.outbox.map (·.id)).Nodup
  labels : ∀ e ∈ s.outbox, Labelled g s.id e
  pending : ∀ d, ¬ Closed g s d → g.isRoot d ∨ s.scheduled d ≠ .none →
    Begun g s d ∨ ∃ e ∈ s.outbox, Carries g e d (s.scheduled d)

/-- The part of it that does not ask how a unit began. -/
structure Pending (g : Topology) (s : MemoryState) (log : List AppliedCommit) : Prop
    extends Counted g s log where
  ids : (s.outbox.map (·.id)).Nodup
  labels : ∀ e ∈ s.outbox, Labelled g s.id e
  pending : ∀ d, ¬ Closed g s d → g.isRoot d ∨ s.scheduled d ≠ .none →
    Begun g s d ∨ ∃ e ∈ s.outbox, Carries g e d (s.scheduled d)

theorem Progress.toPending (h : Progress g s log) :
  Pending g s log
  := { h with }

theorem Pending.kept (h : Pending g s log) (hs : Schedules g s t) (hnext : Records s t)
    (hopen : ¬ Closed g s d) (hmark : g.isRoot d ∨ s.scheduled d ≠ .none) :
  Begun g t d ∨ ∃ e ∈ t.outbox, Carries g e d (t.scheduled d)
  := by
  have hsame : t.scheduled d = s.scheduled d := by
    rcases hmark with hroot | hmark
    · exact hs.root d hroot
    · exact hs.kept d hmark
  rw [hsame]
  rcases h.pending d hopen hmark with hbegun | ⟨e, he, hcarries⟩
  · left
    exact hbegun.next hnext
  · right
    exact ⟨e, hnext.outbox e he, hcarries⟩

/-- A new marker comes with its intent, or with one that has its identifier. -/
theorem carries_of_marker (hsettled : Settled s b failed fatal extra)
    (hnames : ∀ a ∈ arrivals, g.Names a)
    (hlabels : ∀ e ∈ (applyArrivals act depth arrivals b).1.outbox, Labelled g s.id e)
    (hbefore : s.scheduled d = .none)
    (hafter : (applyArrivals act depth arrivals b).1.scheduled d ≠ .none) :
  ∃ e ∈ (applyArrivals act depth arrivals b).1.outbox,
    Carries g e d ((applyArrivals act depth arrivals b).1.scheduled d)
  := by
  have hbase : b.scheduled d = .none := by rw [hsettled.scheduled, hbefore]
  have hseed : (applyArrivals act depth arrivals b).1.scheduled d ≠ .seed := by
    apply applyArrivals_ne_seed
    rw [hbase]
    simp
  obtain ⟨a, ha, rfl, hid⟩ := applyArrivals_marker hbase hafter
  obtain ⟨e, he, heq⟩ := mem_map.mp hid
  rw [hsettled.id] at heq
  refine ⟨e, he, (hlabels e he).carries (hnames a ha) ?_ heq⟩
  cases hvalue : (applyArrivals act depth arrivals b).1.scheduled a.unitIdx with
  | none => exact absurd hvalue hafter
  | execute => exact .inl rfl
  | skip => exact .inr rfl
  | seed => exact absurd hvalue hseed

theorem Pending.move {g : Graph} (hacyc : g.allowCycles = false)
    (h : Pending g s log) (haccounted : Accounted g s issued log)
    (hsub : tasks ⊆ issued) (hcover : ∀ task ∈ tasks, Covering g task)
    (hmove : Move g tasks s t applied) (hbefore : s.status? = some .running)
    (hafter : t.status? = some .running) :
  Pending g t (log ++ applied)
  := by
  have hs := (haccounted.move hacyc (hmove.mono hsub)).toSchedules
  have hnext := hmove.records hacyc hbefore hafter
  have hlabels := Labelled.next h.labels hs
  obtain ⟨hidle, hclose⟩ := Move.closed hacyc haccounted hsub hmove
  refine ⟨h.toCounted.move hacyc haccounted hsub hcover hmove hbefore hafter, ?_, hlabels, ?_⟩
  · cases Move.folds hacyc haccounted hsub hcover hmove hbefore hafter with
    | idle hin hsched hout =>
      rw [hout]
      exact h.ids
    | close b c failed fatal extra arrivals act depth hsettled hnames harrived =>
      exact applyArrivals_nodup (hsettled.nodup h.ids)
  · intro d hd hmark
    cases Move.folds hacyc haccounted hsub hcover hmove hbefore hafter with
    | idle hin hsched hout =>
      rw [hidle rfl] at hd
      rw [hsched] at hmark
      exact h.kept hs hnext hd hmark
    | close b c failed fatal extra arrivals act depth hsettled hnames harrived =>
      rw [(hclose c rfl).2, not_or] at hd
      by_cases hmarked : g.isRoot d ∨ s.scheduled d ≠ .none
      · exact h.kept hs hnext hd.2 hmarked
      · right
        push Not at hmarked
        rw [hs.id] at hlabels
        exact carries_of_marker hsettled hnames hlabels hmarked.2 (hmark.resolve_left hmarked.1)

/-! ### Steps -/

/-- The action does not skip a group at a member that misses edges out of the group. -/
def SkipsCovered (g : Topology) (a : Action) (σ : System) : Prop :=
  ∀ task ∈ handledTasks a σ, Covering g task

instance (g : Topology) (a : Action) (σ : System) : Decidable (SkipsCovered g a σ) :=
  inferInstanceAs (Decidable (∀ _ ∈ _, _))

variable {σ : System}

theorem Pending.remove (h : Pending g t log) (he : e ∈ t.outbox)
    (hbegun : ∀ d, Carries g e d (t.scheduled d) → Begun g t d) :
  Pending g { t with outbox := t.outbox.filter (fun x => x.id ≠ e.id) } log
  := by
  refine ⟨{ h with }, ?_, ?_, ?_⟩
  · apply h.ids.sublist (filter_sublist.map _)
  · exact fun x hx => h.labels x (mem_filter.mp hx).1
  · intro d hopen hmark
    rcases h.pending d hopen hmark with hdone | ⟨x, hx, hcarries⟩
    · left
      exact hdone
    · by_cases hid : x.id = e.id
      · left
        obtain rfl : x = e := inj_on_of_nodup_map h.ids hx he hid
        exact hbegun d hcarries
      · right
        exact ⟨x, mem_filter.mpr ⟨hx, by simpa using hid⟩, hcarries⟩

section

variable {g : Graph} {a : Action} {τ : System} (hacyc : g.allowCycles = false)
  (haccounted : Accounted g σ.store σ.issued σ.log) (hcover : SkipsCovered g a σ)
  (hbefore : σ.store.status? = some .running) (hstep : step g a σ = some τ)
  (hafter : τ.store.status? = some .running)

include hacyc haccounted hcover hbefore hstep hafter

theorem Counted.step (h : Counted g σ.store σ.log) :
  Counted g τ.store τ.log
  := by
  obtain ⟨s, applied, keep, hsub, hmove, rfl⟩ :=
    step_moves haccounted.handles hstep haccounted.outbox
  have hmoved := h.move hacyc haccounted hsub hcover hmove hbefore hafter
  exact { hmoved with }

theorem Pending.step (h : Pending g σ.store σ.log) :
  Pending g τ.store τ.log
  := by
  rcases step_cases haccounted.handles hstep with ⟨entryID, claim, e, rfl, he, rfl, rfl⟩ |
    ⟨task, claim, rfl, hissued, rfl⟩ | ⟨s, applied, -, hmove, rfl⟩
  · have hissued := haccounted.outbox e he
    have hhandles := haccounted.handles _ hissued
    have hafter' : (σ.store.handle g e.task claim).1.status? = some .running := hafter
    have hmove : Move g [e.task] σ.store
        (σ.store.handle g e.task claim).1
        (σ.store.handle g e.task claim).2 :=
      move_handle (mem_singleton_self e.task) hhandles
    have hcover' : ∀ task ∈ [e.task], Covering g task := by
      intro task htask
      apply hcover
      rw [mem_singleton.mp htask]
      apply List.mem_map_of_mem
      simp [he]
    have hsub : [e.task] ⊆ σ.issued := by simpa using hissued
    have hmoved := h.move hacyc haccounted hsub hcover' hmove hbefore hafter'
    have hkept := (haccounted.move hacyc (hmove.mono hsub)).kept
    apply hmoved.remove ((hmove.records hacyc hbefore hafter').outbox e he)
    intro d hcarries
    rw [← hcarries.unit]
    apply begun_handle hacyc hhandles hcarries.type _ hbefore hafter'
    intro htype hskip
    rw [hcarries.unit] at hskip
    apply htype
    rw [hcarries.skip, hkept d (by rw [hskip]; simp), hskip]
  · have hmove : Move g [task] σ.store (σ.store.handle g task claim).1
        (σ.store.handle g task claim).2 :=
      move_handle (mem_singleton_self task) (haccounted.handles _ hissued)
    have hsub : [task] ⊆ σ.issued := by simpa using hissued
    exact h.move hacyc haccounted hsub hcover hmove hbefore hafter
  · exact h.move hacyc haccounted (nil_subset _) (by simp) hmove hbefore hafter

theorem Progress.step (h : Progress g σ.store σ.log) :
  Progress g τ.store τ.log
  := by
  have hpending := h.toPending.step hacyc haccounted hcover hbefore hstep hafter
  obtain ⟨s, applied, keep, -, hmove, rfl⟩ := step_moves haccounted.handles hstep haccounted.outbox
  have hrecorded := h.toRecorded.next (hmove.records hacyc hbefore hafter)
  exact { hpending with rows := hrecorded.rows, records := hrecorded.records }

end

theorem Pending.first {g : Graph} (hacyc : g.allowCycles = false)
    (h : Pending g s log) (hledger : Ledger g s log)
    (hopen : ∃ u ∈ indices g.units, ¬ Closed g s u) :
  ∃ u, g.isUnit u ∧ ¬ Closed g s u ∧
    (Begun g s u ∨ ∃ e ∈ s.outbox, Carries g e u (s.scheduled u))
  := by
  obtain ⟨u, hu, hopen, hfirst⟩ := g.unitGraph.exists_minimal (g.acyclic_units hacyc) hopen
  have hzero : s.inDegrees u = 0 := by
    rw [h.counts u hopen, Int.natCast_eq_zero, g.unitGraph.openIn_eq_zero]
    intro e he hdst
    rw [hledger.closed]
    exact not_not.mp (hfirst e he hdst)
  have hmark : g.isRoot u ∨ s.scheduled u ≠ .none := by
    by_cases hroot : g.isRoot u
    · exact .inl hroot
    · exact .inr (h.due u hu hroot hzero.le)
  exact ⟨u, hu, hopen, h.pending u hopen hmark⟩

/-! ### No running execution is stuck -/

/-- The unit is open, and leased or with an intent to run or to skip it. -/
def Waits (g : Topology) (s : MemoryState) (u : Int) : Prop :=
  ¬ Closed g s u ∧ (Leased g s u ∨
    ∃ e ∈ s.outbox, e.task.type ≠ .mergeCancel ∧ taskUnit g e.task = u)

theorem exists_open (h : Ledger g s log) (hunits : 0 < g.unitCount)
    (hrunning : s.status? = some .running) :
  ∃ u ∈ indices g.units, ¬ Closed g s u
  := by
  by_contra hall
  push Not at hall
  have hsub : indices g.units ⊆ log.map (·.unit) := fun u hu => (h.closed u).mpr (hall u hu)
  have hle := ((nodup_indices g.units).subperm hsub).length_le
  simp only [length_map, indices, length_range] at hle
  have hlength : (log.length : Int) = g.unitCount := by
    have := h.length_le
    unfold unitCount at this ⊢
    omega
  rw [h.status, some.injEq, ledgerStatus_eq_running] at hrunning
  grind

theorem Accounted.over_of_not_running (h : Accounted g s issued log)
    (hnot : s.status? ≠ some .running) :
  (∃ st, s.status? = some st ∧ st.isTerminal) ∧
    (log.any (·.fatal) = false → s.remaining = 0)
  := by
  have hstatus : ledgerStatus g log ≠ .running := by
    intro hrunning
    rw [h.status, hrunning] at hnot
    exact hnot rfl
  constructor
  · refine ⟨_, h.status, ?_⟩
    by_contra hopen
    exact hstatus (h.running h.status (by simpa using hopen))
  · intro hfatal
    rw [ne_eq, ledgerStatus_eq_running] at hstatus
    simp only [hfatal, true_and] at hstatus
    rw [h.remaining]
    omega

theorem Progress.waits {g : Graph} (hacyc : g.allowCycles = false)
    (h : Progress g s log) (hledger : Ledger g s log)
    (hunits : 0 < g.unitCount) (hrunning : s.status? = some .running) :
  ∃ u, g.isUnit u ∧ Waits g s u
  := by
  obtain ⟨u, hu, hopen, hpending⟩ :=
    h.toPending.first hacyc hledger (exists_open hledger hunits hrunning)
  refine ⟨u, hu, hopen, ?_⟩
  rcases hpending with hbegun | ⟨e, he, hcarries⟩
  · left
    exact (leased_or_closed h.toRecorded hbegun).resolve_right hopen
  · right
    exact ⟨e, he, hcarries.type, hcarries.unit⟩

/-! ### The start -/

variable {testRun limited : Bool}

theorem counted_start :
  Counted g (start g id testRun limited tasks).store []
  := by
  obtain ⟨sched, heq, -⟩ := start_spec g id testRun limited tasks
  rw [heq]
  have hcounts (d : Int) : g.unitInDegreeAt d = g.unitGraph.openIn [] d := by
    rw [g.unitGraph.openIn_nil]
    rfl
  constructor
  · intro d _
    exact hcounts d
  · intro d
    exact (hcounts d).le
  · intro d hunit hroot hzero
    exfalso
    apply hroot
    use hunit
    change g.unitInDegreeAt d ≤ 0 at hzero
    unfold unitInDegreeAt at hzero ⊢
    omega

theorem counted_of_starts (h : Starts g σ) :
  Counted g σ.store σ.log
  := by
  rcases h with ⟨id, testRun, limited, rfl⟩ |
    ⟨id, testRun, limited, entryName, i, hentry, -, hinvoke⟩
  · apply counted_start
  · rw [invoke, hentry, map_some, some.injEq] at hinvoke
    rw [← hinvoke]
    apply counted_start

theorem progress_start
    (hnames : (tasks.map (fun task => (task.nodeName, task.activationID))).Nodup)
    (hroots : ∀ d, g.isRoot d →
      ∃ task ∈ tasks, taskUnit g task = d ∧ task.type ≠ .mergeCancel) :
  Progress g (start g id testRun limited tasks).store (start g id testRun limited tasks).log
  := by
  have houtbox : (start g id testRun limited tasks).store.outbox = tasks.map (initialEntry id) :=
    start_outbox hnames
  have hcounted : Counted g (start g id testRun limited tasks).store [] := counted_start
  obtain ⟨sched, heq, hsched⟩ := start_spec g id testRun limited tasks
  have hids : ((start g id testRun limited tasks).store.outbox.map (·.id)).Nodup := by
    rw [houtbox]
    apply initialEntry_ids hnames
  rw [heq] at houtbox hids hcounted ⊢
  refine ⟨⟨?_, ?_⟩, hcounted, hids, ?_, ?_⟩
  · intro name row hrow
    cases hrow
  · intro u st hst
    cases hst
  · intro e he
    rw [houtbox] at he
    obtain ⟨task, -, rfl⟩ := mem_map.mp he
    exact .inl ⟨_, _, rfl⟩
  · intro d _ hmark
    right
    rw [houtbox]
    change ∃ e ∈ tasks.map (initialEntry id), Carries g e d (sched d)
    by_cases hskips : ∃ task ∈ tasks, task.type = .nodeSkip ∧ task.unitIdx = d
    · -- a unit that some task skips is marked, and this task carries it out
      have hvalue : sched d = .skip := by rw [hsched, if_pos hskips]
      obtain ⟨task, htask, htype, hunit⟩ := hskips
      refine ⟨initialEntry id task, mem_map_of_mem htask, ?_, ?_, ?_⟩
      · simp [taskUnit, initialEntry, htype, hunit]
      · simp [initialEntry, htype]
      · simp [initialEntry, htype, hvalue]
    · have hvalue : sched d = .none := by rw [hsched, if_neg hskips]
      have hroot : g.isRoot d := by
        apply hmark.resolve_right
        simp [hvalue]
      obtain ⟨task, htask, hunit, htype⟩ := hroots d hroot
      refine ⟨initialEntry id task, mem_map_of_mem htask, hunit, htype, ?_⟩
      rw [hvalue]
      simp only [reduceCtorEq, iff_false]
      intro (hskip : task.type = .nodeSkip)
      apply hskips
      refine ⟨task, htask, hskip, ?_⟩
      simpa [taskUnit, hskip] using hunit

/-- `Submit` starts an execution with all it needs if the names of its roots differ. -/
theorem progress_submit (hacyc : g.allowCycles = false) (hnames : g.rootNames.Nodup) :
  Progress g (submit g id testRun limited).store (submit g id testRun limited).log
  := by
  apply progress_start (submit_names hacyc hnames)
  intro d hroot
  refine ⟨g.rootTask d, (mem_submitInitialTasks hacyc).mpr ⟨d, hroot, rfl⟩, ?_⟩
  cases hkind : g.unitKindAt d with
  | node =>
    obtain ⟨i, -, hunit, heq⟩ := rootTask_node hroot.1 hkind
    rw [heq]
    rcases execTaskTypeForNode_cases (g.nodeAt i) with htype | htype <;>
      simp [taskUnit, htype, hunit]
  | group =>
    obtain ⟨gm, -, heq⟩ := rootTask_group hroot.1 hkind
    rw [heq]
    simp [taskUnit]

/-- In every run in which groups are skipped only at members that cover their edges, and that begins
with its accounts in order and with all it needs, a running execution has a unit that waits for its
turn; and once no unit waits, it is over, with no unit left unless a commit was fatal. -/
theorem waits_or_over {g : Graph} {begin : System} (hacyc : g.allowCycles = false)
    (hunits : 0 < g.unitCount) (hstart : Accounted g begin.store begin.issued begin.log)
    (hbegin : Progress g begin.store begin.log)
    (hrun : Transition.Run (step g) (SkipsCovered g) begin σ) :
  (σ.store.status? = some .running → ∃ u, g.isUnit u ∧ Waits g σ.store u) ∧
    ((∀ u, g.isUnit u → ¬ Waits g σ.store u) →
      (∃ st, σ.store.status? = some st ∧ st.isTerminal) ∧
      (σ.log.any (·.fatal) = false → σ.store.remaining = 0))
  := by
  have haccounted := hstart.run hacyc hrun
  have hwaits (hrunning : σ.store.status? = some .running) :
      ∃ u, g.isUnit u ∧ Waits g σ.store u := by
    have hprogress : Progress g σ.store σ.log := by
      apply hstart.run_running (I := fun σ => Progress g σ.store σ.log) hacyc hrun
        hbegin _ hrunning
      intro a σ τ h hcover haccounted hbefore hstep hafter
      exact h.step hacyc haccounted hcover hbefore hstep hafter
    exact hprogress.waits hacyc haccounted.toLedger hunits hrunning
  use hwaits
  intro hnone
  apply haccounted.over_of_not_running
  intro hrunning
  obtain ⟨u, hu, hwait⟩ := hwaits hrunning
  exact hnone u hu hwait

end System

end Xflow
