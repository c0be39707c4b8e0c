import Xflow.Engine.Branches

/-!
# Merge-cancel settles the losing branches

In an acyclic execution without groups every node of a merge's closure is committed at most once,
and a late result of a canceled node is refused.  A delivery of the merge-cancel task that nothing
interrupts leaves nothing for the next one to do.  A later delivery finds nothing to do either, if
the nodes that the task left open were on their way to be skipped (`Sealed`); a root that was not
leased yet is not.

Once every other intent is delivered and every node that has a row is committed, the closure is
closed, unless a fatal commit ended the execution.
-/

namespace Xflow

open Function Journal List Option

namespace MemoryState

/-- `cancelClosureNode`, with nothing between its read and its commit. -/
def cancelClosureNode (g : Topology) (s : MemoryState) (task : Task) (i : Int) :
    MemoryState × List AppliedCommit :=
  match g.cancelRequest s task i with
  | none => (s, [])
  | some req => s.commit g req

/-- `handleMergeCancelTask`, with nothing in between. -/
def handleMergeCancelTask (g : Topology) (s : MemoryState) (task : Task) :
    MemoryState × List AppliedCommit :=
  if ¬ s.isActive then (s, [])
  else (g.cancelClosure task.nodeIdx).foldl
    (fun acc i =>
      let (t, applied) := acc.1.cancelClosureNode g task i
      (t, acc.2 ++ applied))
    (s, [])

/-- The unit is marked to be skipped, or unmarked without an active input. -/
def Inactive (d : Int) (s : MemoryState) : Prop :=
  s.scheduled d = .skip ∨ s.scheduled d = .none ∧ s.activeIns d = 0

/-- Arrivals without active edges leave a unit without active inputs, and do not mark it to be
run. -/
theorem applyArrivals_inactive {s : MemoryState} {act depth d : Int}
    {arrivals : List DownstreamArrival}
    (quiet : ∀ a ∈ arrivals, a.unitIdx = d → a.activeCount ≤ 0) (idle : Inactive d s) :
  Inactive d (applyArrivals act depth arrivals s).1
  := by
  apply applyArrivals_induction (P := Inactive d) idle
  intro s a mem idle
  rw [Inactive, applyArrival_scheduled_apply]
  rcases idle with skip | ⟨none, zero⟩
  · left
    rw [if_neg, skip]
    rintro ⟨decided, rfl⟩
    apply decided
    apply decision_of_scheduled
    rw [skip]
    simp
  · by_cases here : d = a.unitIdx
    · subst here
      have inactive : ¬ 0 < a.activeCount := by
        have := quiet a mem rfl
        omega
      have active : (s.applyArrival act depth a).1.activeIns = s.activeIns := by
        rw [applyArrival_fst]
        simp [countArrival, inactive]
      rw [active]
      have decided : s.decision a = .none ∨ s.decision a = .skip := by
        unfold decision
        split
        · exact .inl rfl
        · simp only [schedule, countArrival, inactive, and_false, false_and, if_false, zero]
          split
          · exact .inr (if_neg (lt_irrefl 0))
          · exact .inl rfl
      grind
    · right
      have active : (s.applyArrival act depth a).1.activeIns d = s.activeIns d := by
        rw [applyArrival_fst]
        split
        · rfl
        · unfold countArrival
          split
          · exact update_of_ne here _ _
          · rfl
      rw [active]
      simp [here, none, zero]

end MemoryState

namespace Topology

variable {g : Graph} {i j : Int} {port : String} {a : DownstreamArrival}

theorem edge_of_arrival (hgroups : g.groups = []) (hi : isDataNode g.nodes i)
    (hj : isDataNode g.nodes j) (ha : a ∈ g.downstreamArrivals j port)
    (at_unit : a.unitIdx = g.nodeUnit i) :
  ∃ e ∈ g.edges, e.srcIdx = j ∧ e.dstIdx = i
  := by
  have fanout := nodeFanout_pos hj ha
  rw [nodeFanout, countP_pos_iff] at fanout
  obtain ⟨e, he, unit⟩ := fanout
  obtain ⟨mem, src⟩ := mem_filter.mp he
  simp only [decide_eq_true_eq] at unit src
  refine ⟨e, mem, src, ?_⟩
  rw [at_unit] at unit
  exact (nodeUnit_eq_iff (g.edges_data e mem).2 hi (g.unitKindAt_eq_node hgroups _)).mp unit

theorem inactive_of_arrival (hj : isDataNode g.nodes j)
    (named : ∀ e ∈ g.edges, e.srcIdx = j → e.srcPort ≠ "") (ha : a ∈ g.downstreamArrivals j "") :
  a.activeCount ≤ 0
  := by
  have none : activeAt (g.downstreamArrivals j "") a.unitIdx = 0 := by
    rw [activeAt_downstreamArrivals hj, Int.natCast_eq_zero, portFanout, countP_eq_zero]
    intro e he
    obtain ⟨mem, src⟩ := mem_filter.mp he
    simp only [decide_eq_true_eq] at src
    simp [named e mem src]
  rw [← none]
  apply single_le_sum
  · intro n mem
    obtain ⟨b, hb, rfl⟩ := mem_map.mp mem
    exact (names_downstreamArrivals (mem_filter.mp hb).1).active_nonneg
  · exact mem_map.mpr ⟨a, mem_filter.mpr ⟨ha, by simp⟩, rfl⟩

end Topology

namespace Branching

open Xflow.System Xflow.Topology MemoryState Transition

variable {g : Graph} {s t : MemoryState} {issued : List Task} {log applied : List AppliedCommit}
  {B C : Branching} {a : Action} {i : Int}

/-! ### Rows that stay -/

theorem Turn.row_kept (hacyc : g.allowCycles = false)
    (accounted : Accounted g s issued log)
    (turn : Turn g issued s t applied) {name : String} {row : NodeStatus × String}
    (at_row : s.rowOutcome name = some row) (terminal : row.1.isTerminal) :
  t.rowOutcome name = some row
  := by
  cases turn with
  | stay => exact at_row
  | lease lease given type =>
    rw [hacyc]
    rcases @acquireTaskLeaseChecked_cases s lease with same | ⟨opened, rows⟩
    · rwa [same]
    · exact row_kept_of_write opened rows at_row terminal
  | tend name' row' live stays =>
    rw [rowOutcome] at at_row ⊢
    dsimp only
    rwa [update_of_ne]
    rintro rfl
    obtain ⟨current, found, rfl⟩ := map_eq_some_iff.mp at_row
    simp only [found, any_some, decide_eq_true_eq] at live
    exact live terminal
  | commit req engine origin =>
    rcases commit_cases engine accounted.mild with ⟨-, same⟩ | ⟨b, applies⟩
    · rwa [same]
    · exact row_kept_of_write applies.opened applies.rowOutcome at_row terminal

/-! ### Nodes that need no further delivery -/

/-- The node is committed; or it has no row, no task to run it was handed out, it is marked to be
skipped or unmarked without an active input, and no edge leaves it from a port without a name. -/
def Sealed (g : Topology) (s : MemoryState) (issued : List Task) (i : Int) : Prop :=
  (s.rowOutcome (g.nodeName i)).any (·.1.isTerminal) ∨
    (s.rowOutcome (g.nodeName i)).isNone ∧ ¬ Runs issued i ∧
      (s.scheduled (g.nodeUnit i) = .skip ∨
        s.scheduled (g.nodeUnit i) = .none ∧ s.activeIns (g.nodeUnit i) = 0) ∧
      ∀ e ∈ g.edges, e.srcIdx = i → e.srcPort ≠ ""

instance (g : Topology) (s : MemoryState) (issued : List Task) (i : Int) :
    Decidable (Sealed g s issued i) :=
  inferInstanceAs (Decidable (_ ∨ _ ∧ _ ∧ _ ∧ _))

section

variable (accounted : Accounted g s issued log) (turn : Turn g issued s t applied)
  (hi : isDataNode g.nodes i)

include accounted turn hi

theorem Turn.row_none (hacyc : g.allowCycles = false) (none : (s.rowOutcome (g.nodeName i)).isNone)
    (idle : ¬ Runs issued i) :
  (t.rowOutcome (g.nodeName i)).any (·.1.isTerminal) ∨ (t.rowOutcome (g.nodeName i)).isNone
  := by
  cases turn with
  | stay => exact .inr none
  | lease lease given type =>
    right
    rw [hacyc]
    rcases @acquireTaskLeaseChecked_cases s lease with same | ⟨-, rows⟩
    · rwa [same]
    · have names := (accounted.node_unit given type).1
      rw [rows, update_of_ne]
      · exact none
      · rw [names.name, ne_eq, nodeName_inj hi names.data]
        intro index
        exact idle ⟨_, given, type, index.symm⟩
  | tend name row live stays =>
    right
    rw [rowOutcome, isNone_map] at none ⊢
    dsimp only
    rwa [update_of_ne]
    rintro rfl
    rw [isNone_iff_eq_none.mp none] at live
    cases live
  | commit req engine origin =>
    rcases commit_cases engine accounted.mild with ⟨-, same⟩ | ⟨b, applies⟩
    · rw [same]
      exact .inr none
    · rw [applies.rowOutcome]
      by_cases here : i = req.nodeIdx
      · left
        rw [here, update_self]
        exact engine.terminal
      · right
        rw [update_of_ne]
        · exact none
        · rwa [ne_eq, nodeName_inj hi engine.data]

/-- A unit without active inputs stays so, if the nodes with edges to it are sealed. -/
theorem Turn.inactive (hgroups : g.groups = [])
    (sources : ∀ e ∈ g.edges, e.dstIdx = i → Sealed g s issued e.srcIdx)
    (idle : Inactive (g.nodeUnit i) s) :
  Inactive (g.nodeUnit i) t
  := by
  cases turn with
  | stay => exact idle
  | lease lease given type =>
    rw [acquireTaskLeaseChecked_frame]
    exact idle
  | tend name row live stays => exact idle
  | commit req engine origin =>
    rcases commit_cases engine accounted.mild with ⟨-, same⟩ | ⟨b, applies⟩
    · rwa [same]
    · rw [applies.eq]
      apply applyArrivals_inactive
      · -- an arrival comes from a sealed node, which takes no port
        intro a mem at_unit
        have folded := mem_foldedArrivals engine mem
        obtain ⟨e, he, src, dst⟩ := edge_of_arrival hgroups hi engine.data folded at_unit
        have source := sources e he dst
        rw [src] at source
        rcases source with terminal | ⟨-, unasked, -, named⟩
        · rw [applies.opened] at terminal
          cases terminal
        · rw [origin.resolve_left unasked] at folded
          exact inactive_of_arrival engine.data named folded
      · rw [Inactive, applies.settled.scheduled, applies.settled.activeIns]
        exact idle

/-- Sealed nodes stay sealed, if the sources of their edges are sealed. -/
theorem Sealed.stays (hacyc : g.allowCycles = false) (hgroups : g.groups = [])
    (sources : ∀ e ∈ g.edges, e.dstIdx = i → Sealed g s issued e.srcIdx) (h : Sealed g s issued i)
    {issued' : List Task} (outbox : List OutboxEntry)
    (new : ∀ task ∈ issued', task ∈ issued ∨ ∃ e ∈ t.outbox, e.task = task) :
  Sealed g { t with outbox := outbox } issued' i
  := by
  rcases h with terminal | ⟨none, unasked, idle, named⟩
  · left
    obtain ⟨row, at_row, terminal⟩ := (any_eq_true _ _).mp terminal
    change (t.rowOutcome (g.nodeName i)).any (·.1.isTerminal) = true
    rw [turn.row_kept hacyc accounted at_row terminal]
    exact terminal
  · rcases turn.row_none accounted hi hacyc none unasked with terminal | none
    · exact .inl terminal
    · have idle := turn.inactive accounted hi hgroups sources idle
      refine .inr ⟨none, ?_, idle, named⟩
      -- a new task to run the node would come with its marker
      rintro ⟨task, given, type, index⟩
      have schedules := (turn.accounts hacyc hgroups accounted).toSchedules
      rcases accounted.task_cases schedules (new task given) with
        old | merge | ⟨e, -, rfl, -, a, act, depth, names, -, mark, rfl⟩
      · exact unasked ⟨task, old, type, index⟩
      · rw [merge] at type
        rcases type with type | type <;> cases type
      · have unit : a.unitIdx = g.nodeUnit i := by
          rw [names.unitIdx]
          exact congrArg g.nodeUnit index
        rw [unit] at mark
        have executes : t.scheduled (g.nodeUnit i) = .execute := by
          apply mark.resolve_right
          intro skip
          rw [← unit] at skip
          rw [(arrivalEntry_of_skip names).mpr skip] at type
          rcases type with type | type <;> cases type
        rw [Inactive, executes] at idle
        rcases idle with skip | ⟨none, -⟩
        · cases skip
        · cases none

end

/-! ### The fence of a cancellation -/

/-- The commit cancels the node without a lease. -/
structure CancelsNode (g : Topology) (i : Int) (req : CommitNodeRequest) : Prop where
  name : req.nodeName = g.nodeName i
  unitIdx : req.unitIdx = g.nodeUnit i
  system : req.system
  status : req.status = .canceled

variable {task : Task} {req : CommitNodeRequest}

theorem cancelsNode_of_request (asked : g.cancelRequest s task i = some req) :
  CancelsNode g i req ∧ req.nodeIdx = i
  := by
  unfold cancelRequest at asked
  dsimp only at asked
  split at asked
  · cases asked
  · split at asked
    · cases asked
    · cases asked
      exact ⟨⟨rfl, rfl, rfl, rfl⟩, rfl⟩

theorem CancelsNode.accepted (h : CancelsNode g i req)
    (accepted : s.commitVerdict req = .accepted) :
  s.isActive ∧ (s.rowOutcome (g.nodeName i)).any (·.1.isTerminal) = false ∧
    s.cancelFenceAdmits req
  := by
  obtain ⟨⟨st, status, opened⟩, row, fence⟩ := commitVerdict_accepted accepted
  rw [h.name] at row
  rw [if_pos ⟨h.system, h.status⟩] at fence
  exact ⟨by simp [isActive, status, opened], row, fence⟩

/-- No cancellation of the node is accepted. -/
def Idles (g : Topology) (s : MemoryState) (i : Int) : Prop :=
  ∀ req, CancelsNode g i req → s.commitVerdict req ≠ .accepted

theorem idles_of_terminal (terminal : (s.rowOutcome (g.nodeName i)).any (·.1.isTerminal)) :
  Idles g s i
  := by
  intro req cancels accepted
  rw [(cancels.accepted accepted).2.1] at terminal
  cases terminal

theorem Idles.transfer (cancels : CancelsNode g i req)
    (refused : s.commitVerdict req ≠ .accepted)
    (rows : t.rowOutcome (g.nodeName i) = s.rowOutcome (g.nodeName i))
    (marker : t.scheduled (g.nodeUnit i) = s.scheduled (g.nodeUnit i))
    (active : t.isActive → s.isActive) :
  Idles g t i
  := by
  intro req' cancels' accepted
  obtain ⟨running, row, admits⟩ := cancels'.accepted accepted
  apply refused
  obtain ⟨st, status, opened⟩ := (any_eq_true _ _).mp (active running)
  obtain ⟨snap, found, rfl⟩ : ∃ snap, s.execution = some snap ∧ snap.status = st :=
    map_eq_some_iff.mp status
  simp only [decide_eq_true_eq] at opened
  rw [rows, rowOutcome, Option.any_map] at row
  have statuses : (t.nodes (g.nodeName i)).map NodeSnapshot.status
      = (s.nodes (g.nodeName i)).map NodeSnapshot.status := by
    have fst := congrArg (Option.map Prod.fst) rows
    simpa [rowOutcome, comp_def] using fst
  have same : s.cancelFenceAdmits req = t.cancelFenceAdmits req' := by
    unfold cancelFenceAdmits
    rw [cancels.name, cancels.unitIdx, cancels'.name, cancels'.unitIdx, statuses, marker]
  simp only [commitVerdict, found, cancels.name, cancels.system, cancels.status, and_self, if_true]
  rw [if_neg, if_neg opened, same, if_pos admits]
  simpa using row

theorem Idles.commit (h : Idles g s i)
    (cancels : CancelsNode g i req) (engine : g.EngineCommit req) :
  s.commit g req = (s, [])
  :=
  commit_of_refused engine (h req cancels)

theorem Sealed.idles (h : Sealed g s issued i) :
  Idles g s i
  := by
  rcases h with terminal | ⟨none, -, idle, -⟩
  · exact idles_of_terminal terminal
  · intro req cancels accepted
    obtain ⟨-, -, admits⟩ := cancels.accepted accepted
    rw [rowOutcome, isNone_map, isNone_iff_eq_none] at none
    simp only [cancelFenceAdmits, cancels.name, none, map_none, cancels.unitIdx,
      decide_eq_true_eq] at admits
    grind

/-! ### A delivery that nothing interrupts -/

theorem Idles.cancelClosureNode (h : Idles g s i) (hi : isDataNode g.nodes i) :
  s.cancelClosureNode g task i = (s, [])
  := by
  unfold MemoryState.cancelClosureNode
  cases asked : g.cancelRequest s task i with
  | none => rfl
  | some req =>
    exact h.commit (cancelsNode_of_request asked).1 (engineCommit_cancelRequest hi asked).1

section

variable (mild : s.status? ≠ some .canceling) (hi : isDataNode g.nodes i)

include mild hi

theorem idles_cancelClosureNode (hgroups : g.groups = []) :
  Idles g (s.cancelClosureNode g task i).1 i
  := by
  unfold cancelClosureNode
  cases asked : g.cancelRequest s task i with
  | none =>
    -- the row is terminal or waits
    unfold cancelRequest at asked
    rw [g.unitKindAt_eq_node hgroups] at asked
    rw [if_neg (by simp)] at asked
    split at asked
    · rename_i ended
      obtain ⟨row, found, status⟩ := (any_eq_true _ _).mp ended
      rw [decide_eq_true_eq] at status
      rcases status with terminal | waits
      · apply idles_of_terminal
        simpa [rowOutcome, found] using terminal
      · intro req cancels accepted
        obtain ⟨-, -, admits⟩ := cancels.accepted accepted
        simp [cancelFenceAdmits, cancels.name, found, waits] at admits
    · cases asked
  | some req =>
    dsimp only
    obtain ⟨cancels, index⟩ := cancelsNode_of_request asked
    have engine := (engineCommit_cancelRequest hi asked).1
    rcases commit_cases engine mild with ⟨refused, same⟩ | ⟨b, applies⟩
    · rw [same]
      exact Idles.transfer cancels refused rfl rfl id
    · apply idles_of_terminal
      rw [applies.rowOutcome, index, update_self]
      exact engine.terminal

theorem Idles.other {j : Int} (hgroups : g.groups = []) (hj : isDataNode g.nodes j) (ne : i ≠ j)
    (apart : ∀ e ∈ g.edges, e.dstIdx = i → e.srcIdx ≠ j) (h : Idles g s i) :
  Idles g (s.cancelClosureNode g task j).1 i
  := by
  unfold MemoryState.cancelClosureNode
  cases asked : g.cancelRequest s task j with
  | none => exact h
  | some req =>
    dsimp only
    obtain ⟨cancels, index⟩ := cancelsNode_of_request asked
    have engine := (engineCommit_cancelRequest hj asked).1
    rcases commit_cases engine mild with ⟨-, same⟩ | ⟨b, applies⟩
    · rwa [same]
    · intro req' cancels' accepted'
      apply Idles.transfer cancels' (h req' cancels') _ _ _ req' cancels' accepted'
      · rw [applies.rowOutcome, update_of_ne]
        rwa [index, ne_eq, nodeName_inj hi hj]
      · rw [applies.eq, ← applies.settled.scheduled]
        by_cases marked : b.scheduled (g.nodeUnit i) = .none
        · by_contra changed
          rw [marked] at changed
          obtain ⟨a, mem, at_unit, -⟩ := applyArrivals_marker marked changed
          have folded := mem_foldedArrivals engine mem
          obtain ⟨e, he, src, dst⟩ := edge_of_arrival hgroups hi engine.data folded at_unit
          exact apart e he dst (src.trans index)
        · exact applyArrivals_scheduled_of_ne marked
      · exact fun _ => (cancels.accepted applies.accepted).1

theorem mild_cancelClosureNode :
  (s.cancelClosureNode g task i).1.status? ≠ some .canceling
  := by
  unfold cancelClosureNode
  cases asked : g.cancelRequest s task i with
  | none => exact mild
  | some req =>
    dsimp only
    have engine := (engineCommit_cancelRequest hi asked).1
    rcases commit_cases engine mild with ⟨-, same⟩ | ⟨b, applies⟩
    · rwa [same]
    · rw [applies.eq, status?, applyArrivals_execution, ← status?, applies.settled.status]
      split
      · split <;> simp
      · exact mild

end

/-- A visit with its commits added to those before. -/
def visit (g : Topology) (task : Task) (acc : MemoryState × List AppliedCommit) (i : Int) :
    MemoryState × List AppliedCommit :=
  ((acc.1.cancelClosureNode g task i).1, acc.2 ++ (acc.1.cancelClosureNode g task i).2)

theorem idles_foldl (hgroups : g.groups = []) {done rest : List Int}
    (data : ∀ i ∈ done ++ rest, isDataNode g.nodes i) (once : (done ++ rest).Nodup)
    (ordered : g.Ordered (done ++ rest)) {acc : MemoryState × List AppliedCommit}
    (mild : acc.1.status? ≠ some .canceling) (idle : ∀ i ∈ done, Idles g acc.1 i) :
  ∀ i ∈ done ++ rest, Idles g (rest.foldl (visit g task) acc).1 i
  := by
  induction rest generalizing done acc with
  | nil => simpa using idle
  | cons j rest ih =>
    have split : done ++ j :: rest = (done ++ [j]) ++ rest := by simp
    have hj : isDataNode g.nodes j := data j (by simp)
    rw [split]
    rw [split] at data ordered
    refine ih data (by rwa [split] at once) ordered (mild_cancelClosureNode mild hj) ?_
    intro i mem
    rcases mem_append.mp mem with earlier | here
    · -- the sources of the edges into an earlier node come before it
      have fresh : j ∉ done := by grind
      apply (idle i earlier).other mild (data i (by simp [earlier])) hgroups hj
      · rintro rfl
        exact fresh earlier
      · rintro e he rfl rfl
        exact fresh (ordered done ⟨[e.srcIdx] ++ rest, by simp⟩ e he earlier)
    · rw [mem_singleton.mp here]
      exact idles_cancelClosureNode mild hj hgroups

theorem foldl_of_idles {is : List Int} (data : ∀ i ∈ is, isDataNode g.nodes i)
    (idle : ∀ i ∈ is, Idles g s i) :
  is.foldl (visit g task) (s, []) = (s, [])
  := by
  induction is with
  | nil => rfl
  | cons i is ih =>
    rw [forall_mem_cons] at data idle
    rw [foldl_cons, visit, idle.1.cancelClosureNode data.1]
    exact ih data.2 idle.2

theorem handleMergeCancelTask_of_active (active : s.isActive) :
  s.handleMergeCancelTask g task
    = (g.cancelClosure task.nodeIdx).foldl (visit g task) (s, [])
  := by
  unfold handleMergeCancelTask
  rw [if_neg (by simp [active])]
  rfl

theorem handleMergeCancelTask_twice (hacyc : g.allowCycles = false) (hgroups : g.groups = [])
    (mild : s.status? ≠ some .canceling) (task : Task) :
  (s.handleMergeCancelTask g task).1.handleMergeCancelTask g task
    = ((s.handleMergeCancelTask g task).1, [])
  := by
  by_cases active : s.isActive
  · obtain ⟨once, ordered⟩ := g.cancelClosure_ordered hacyc task.nodeIdx
    have data (i : Int) (mem : i ∈ g.cancelClosure task.nodeIdx) : isDataNode g.nodes i :=
      isDataNode_of_mem_cancelClosure mem
    rw [handleMergeCancelTask_of_active active]
    have idle : ∀ i ∈ g.cancelClosure task.nodeIdx, Idles g
        ((g.cancelClosure task.nodeIdx).foldl (visit g task) (s, [])).1 i :=
      @idles_foldl g task hgroups [] _ data once ordered (s, []) mild (by simp)
    generalize (g.cancelClosure task.nodeIdx).foldl (visit g task) (s, []) = done at idle
    by_cases still : done.1.isActive
    · rw [handleMergeCancelTask_of_active still]
      exact foldl_of_idles data idle
    · simp [handleMergeCancelTask, still]
  · simp [handleMergeCancelTask, active]

attribute [local simp] cancelClosureNode

theorem run_visits {k : Nat} {rest : List Int} {base : List AppliedCommit}
    {acc : MemoryState × List AppliedCommit} (found : B.scans[k]? = some ⟨task, rest, none⟩)
    (store : B.system.store = acc.1) (commits : B.system.log = base ++ acc.2) :
  ∃ C, Run (step g) (fun _ _ => True) B C ∧ C.scans[k]? = some ⟨task, [], none⟩ ∧
    C.system.store = (rest.foldl (visit g task) acc).1 ∧
    C.system.log = base ++ (rest.foldl (visit g task) acc).2
  := by
  induction rest generalizing B acc with
  | nil => exact ⟨B, .refl, found, store, commits⟩
  | cons i rest ih =>
    have bound : k < B.scans.length := (List.getElem?_eq_some_iff.mp found).1
    -- the state after the row of the node was read
    have reads : Via (step g) (fun _ _ => True) B
        { B with scans := B.scans.set k ⟨task, rest, g.cancelRequest B.system.store task i⟩ } := by
      refine ⟨.read k, trivial, ?_⟩
      simp [step, found]
    cases asked : g.cancelRequest B.system.store task i with
    | none =>
      rw [asked] at reads
      obtain ⟨C, run, done⟩ := @ih { B with scans := B.scans.set k ⟨task, rest, none⟩ }
        (visit g task acc i) (by rw [getElem?_set_self bound])
        (by simp [visit, ← store, asked])
        (by simp [visit, ← store, asked, commits])
      exact ⟨C, .head reads run, done⟩
    | some req =>
      rw [asked] at reads
      have commit : Via (step g) (fun _ _ => True)
          { B with scans := B.scans.set k ⟨task, rest, some req⟩ }
          { system := B.system.after (B.system.store.commit g req).1
              (B.system.store.commit g req).2
            scans := (B.scans.set k ⟨task, rest, some req⟩).set k ⟨task, rest, none⟩ } := by
        refine ⟨.commit k, trivial, ?_⟩
        simp [step, getElem?_set_self bound]
      obtain ⟨C, run, done⟩ := @ih
        { system := B.system.after (B.system.store.commit g req).1
            (B.system.store.commit g req).2
          scans := (B.scans.set k ⟨task, rest, some req⟩).set k ⟨task, rest, none⟩ }
        (visit g task acc i) (by rw [set_set, getElem?_set_self bound])
        (by simp [visit, ← store, asked, System.after])
        (by simp [visit, ← store, asked, System.after, commits])
      exact ⟨C, .head reads (.head commit run), done⟩

/-- `handleMergeCancelTask` is a delivery whose steps follow one another. -/
theorem run_handleMergeCancelTask (given : task ∈ B.system.issued)
    (type : task.type = .mergeCancel) (active : B.system.store.isActive) :
  ∃ C, Run (step g) (fun _ _ => True) B C ∧
    C.system.store = (B.system.store.handleMergeCancelTask g task).1 ∧
    C.system.log = B.system.log ++ (B.system.store.handleMergeCancelTask g task).2
  := by
  rw [handleMergeCancelTask_of_active active]
  have enters : Via (step g) (fun _ _ => True) B
      { B with scans := B.scans ++ [⟨task, g.cancelClosure task.nodeIdx, none⟩] } := by
    refine ⟨.enter task, trivial, ?_⟩
    simp [step, given, type, active]
  obtain ⟨C, run, -, done⟩ := @run_visits g
    { B with scans := B.scans ++ [⟨task, g.cancelClosure task.nodeIdx, none⟩] } task B.scans.length
    (g.cancelClosure task.nodeIdx) B.system.log (B.system.store, []) (by simp) rfl (by simp)
  exact ⟨C, .head enters run, done⟩

/-! ### The end of an execution -/

/-- The units that are not committed. -/
def openUnits (g : Topology) (s : MemoryState) : List Int :=
  (indices g.units).filter (fun u => ¬ (s.rowOutcome (g.unitAt u).name).any (·.1.isTerminal))

section

variable (hgroups : g.groups = [])

include hgroups

theorem unit_named {u : Int} (hu : g.isUnit u) :
  ∃ i, isDataNode g.nodes i ∧ (g.unitAt u).name = g.nodeName i ∧ g.nodeUnit i = u
  := by
  rcases unit_cases hu with ⟨i, hi, eq, unit⟩ | ⟨gi, gm, found, -⟩
  · exact ⟨i, (isDataNode_of_mem_ungrouped hi).1, by rw [eq], unit⟩
  · rw [hgroups] at found
    simp at found

variable (accounted : Accounted g.toTopology s issued log)

include accounted

theorem groupUnits_eq_none (u : Int) :
  s.groupUnits u = none
  := by
  by_contra record
  obtain ⟨task, given, type, -⟩ := accounted.records u (isSome_iff_ne_none.mpr record)
  have group := (accounted.group_unit given type).2
  rw [g.unitKindAt_eq_node hgroups] at group
  cases group

theorem closed_iff_row {u : Int} (hu : g.isUnit u) :
  Closed g s u ↔ (s.rowOutcome (g.unitAt u).name).any (·.1.isTerminal)
  := by
  obtain ⟨i, data, name, unit⟩ := unit_named hgroups hu
  rw [name]
  constructor
  · rintro (⟨j, hj, same, terminal⟩ | done)
    · rw [← unit, nodeUnit_eq_iff hj data (g.unitKindAt_eq_node hgroups _)] at same
      rwa [← same]
    · rw [groupUnits_eq_none hgroups accounted] at done
      cases done
  · exact fun terminal => .inl ⟨i, data, unit, terminal⟩

theorem remaining_eq :
  s.remaining = (openUnits g s).length
  := by
  have closed : (log.map (·.unit)).Perm ((indices g.units).filter (fun u =>
      (s.rowOutcome (g.unitAt u).name).any (·.1.isTerminal))) := by
    rw [perm_ext_iff_of_nodup accounted.nodup ((nodup_indices g.units).filter _)]
    intro u
    rw [mem_filter, accounted.closed]
    constructor
    · intro shut
      have hu : g.isUnit u := by
        obtain ⟨c, mem, rfl⟩ := mem_map.mp ((accounted.closed u).mpr shut)
        exact accounted.units c mem
      exact ⟨hu, (closed_iff_row hgroups accounted hu).mp shut⟩
    · rintro ⟨hu, terminal⟩
      exact (closed_iff_row hgroups accounted hu).mpr terminal
  have total := length_eq_length_filter_add (l := indices g.units)
    (fun u => (s.rowOutcome (g.unitAt u).name).any (·.1.isTerminal))
  rw [← closed.length_eq, length_map] at total
  have units : ((indices g.units).length : Int) = g.unitCount := by
    simp [indices, unitCount]
  rw [accounted.remaining, openUnits]
  simp only [decide_not, Bool.decide_eq_true]
  omega

end

theorem Held.all_closed (hacyc : g.allowCycles = false) (hgroups : g.groups = [])
    (held : Held g B)
    (delivered : ∀ e ∈ B.system.store.outbox, e.task.type = .mergeCancel)
    (committed : ∀ name row, B.system.store.rowOutcome name = some row → row.1.isTerminal)
    (mild : B.system.log.any (·.fatal) = false) (hi : isDataNode g.nodes i) :
  (B.system.store.rowOutcome (g.nodeName i)).any (·.1.isTerminal)
  := by
  have hu := nodeUnit_mem hi
  have units : 0 < g.unitCount := by
    have range := mem_indices.mp hu
    unfold unitCount
    omega
  have ended : B.system.store.status? ≠ some .running := by
    intro running
    obtain ⟨u, unit, opened, waits⟩ := (held.pending running).first hacyc held.accounted.toLedger
      (exists_open held.accounted.toLedger units running)
    rcases waits with begun | ⟨e, mem, carries⟩
    · -- what has begun has a row, which is terminal
      rcases begun with ⟨j, hj, same, row⟩ | record
      · obtain ⟨row, found⟩ := isSome_iff_exists.mp row
        apply opened
        left
        refine ⟨j, hj, same, ?_⟩
        rw [found]
        exact committed _ row found
      · rw [groupUnits_eq_none hgroups held.accounted] at record
        cases record
    · exact carries.type (delivered e mem)
  have left := (held.accounted.over_of_not_running ended).2 mild
  rw [remaining_eq hgroups held.accounted, Int.natCast_eq_zero, length_eq_zero_iff,
    openUnits, filter_eq_nil_iff] at left
  have closed := left (g.nodeUnit i) hu
  obtain ⟨j, hj, name, unit⟩ := unit_named hgroups hu
  rw [name, (nodeUnit_eq_iff hj hi (g.unitKindAt_eq_node hgroups _)).mp unit] at closed
  simpa using closed

/-! ### Runs -/

/-- An execution starts by `Submit`, by `Invoke`, or as the rerun of another one. -/
def Begins (g : Graph) (σ : System) : Prop :=
  Starts g.toTopology σ ∨
  ∃ parent fromNode plan id testRun slot s skipped,
    g.rerunPlan parent fromNode = .ok plan ∧
    seedExecution g.toTopology id testRun slot plan.units (plan.entries id) = .ok (s, skipped) ∧
    σ = launch plan.units s

theorem rootNames_nodup (hgroups : g.groups = []) :
  g.rootNames.Nodup
  := by
  apply Nodup.map_on _ ((nodup_indices g.units).filter _)
  intro u hu v hv same
  obtain ⟨i, hi, name, rfl⟩ := unit_named hgroups (mem_filter.mp hu).1
  obtain ⟨j, hj, name', rfl⟩ := unit_named hgroups (mem_filter.mp hv).1
  rw [name, name', nodeName_inj hi hj] at same
  rw [same]

theorem held_of_begins (hacyc : g.allowCycles = false) (hgroups : g.groups = []) {σ : System}
    (h : Begins g σ) :
  Held g ⟨σ, []⟩
  := by
  rcases h with
    starts | ⟨parent, fromNode, plan, id, testRun, slot, s, skipped, planned, seeded, rfl⟩
  · refine ⟨accounted_of_starts hacyc starts, by simp, fun _ => ?_⟩
    rcases starts with ⟨id, testRun, limited, rfl⟩ |
      ⟨id, testRun, limited, entryName, i, entry, -, invoked⟩
    · exact (progress_submit hacyc (rootNames_nodup hgroups)).toPending
    · rw [invoke, entry] at invoked
      obtain rfl := some.inj invoked
      exact (progress_invoke hacyc fun u _ => g.unitKindAt_eq_node hgroups u).toPending
  · obtain ⟨i, plans, -⟩ := plans_of_ok planned
    obtain ⟨accounted, progress, -⟩ := launched hacyc plans seeded
    exact ⟨accounted, by simp, fun _ => progress.toPending⟩

theorem sealed_run (hacyc : g.allowCycles = false) (hgroups : g.groups = []) {merge : Int}
    (held : Held g B)
    (shut : ∀ i ∈ g.cancelClosure merge, Sealed g B.system.store B.system.issued i)
    (run : Run (step g) (fun _ _ => True) B C) :
  Held g C ∧
    ∀ i ∈ g.cancelClosure merge, Sealed g C.system.store C.system.issued i
  := by
  apply run.invariant (I := fun C => Held g C ∧
    ∀ i ∈ g.cancelClosure merge, Sealed g C.system.store C.system.issued i) ⟨held, shut⟩
  rintro a B C ⟨held, shut⟩ - next
  refine ⟨held.step hacyc hgroups next, ?_⟩
  intro i mem
  have closure := (g.cancelClosure_ordered hacyc merge).2 _ prefix_rfl
  rcases (turn_of_branching hgroups held.accounted held.scans next).2 with
    same | ⟨s, applied, outbox, turn, sub, eq⟩
  · rw [same]
    exact shut i mem
  · rw [eq]
    refine (shut i mem).stays held.accounted turn (isDataNode_of_mem_cancelClosure mem) hacyc
      hgroups ?_ outbox ?_
    · rintro e he rfl
      exact shut _ (closure e he mem)
    · intro task given
      rcases mem_append.mp given with old | new
      · exact .inl old
      · obtain ⟨e, mem, rfl⟩ := mem_map.mp new
        exact .inr ⟨e, sub e mem, rfl⟩

theorem commit_of_terminal (terminal : (s.rowOutcome req.nodeName).any (·.1.isTerminal)) :
  s.commit g req = (s, [])
  := by
  have refused : s.commitVerdict req ≠ .accepted := by
    intro accepted
    rw [(commitVerdict_accepted accepted).2.1] at terminal
    cases terminal
  unfold commit commitNode
  cases req.validate s.id with
  | none =>
    simp only [commitNodeLocked_applied, refused, decide_false, Bool.false_eq_true, if_false]
    rw [commitNodeLocked_of_refused refused]
  | some err => rfl

/-- In every run of an acyclic execution without groups: a node of a merge's closure is committed
once at most, and its row stays; the result of a canceled node is refused; of two deliveries in a
row the second changes nothing, and once the nodes of the closure are sealed no delivery does; and
when every other intent is delivered and every row is terminal, the closure is closed, unless a
commit was fatal.  The number of units that remain is that of the units that are not committed. -/
theorem merge_cancel_settles (g : Graph) (hacyc : g.allowCycles = false) (hgroups : g.groups = [])
    {begin : System} {B : Branching} (hbegin : Begins g begin)
    (hrun : Run (step g.toTopology) (fun _ _ => True) ⟨begin, []⟩ B) (merge : Int) :
  (∀ i ∈ g.cancelClosure merge,
    (B.system.log.map (·.unit)).count (g.nodeUnit i) ≤ 1 ∧
    ∀ a C row, step g.toTopology a B = some C →
      B.system.store.rowOutcome (g.nodeName i) = some row → row.1.isTerminal →
      C.system.store.rowOutcome (g.nodeName i) = some row) ∧
  (∀ task key result, (B.system.store.rowOutcome task.nodeName).any (·.1 = .canceled) →
    B.system.store.commit g.toTopology (g.leasedRequest task key result) = (B.system.store, [])) ∧
  (∀ task, task.nodeIdx = merge →
    let s := (B.system.store.handleMergeCancelTask g.toTopology task).1
    s.handleMergeCancelTask g.toTopology task = (s, [])) ∧
  ((∀ i ∈ g.cancelClosure merge, Sealed g.toTopology B.system.store B.system.issued i) →
    ∀ C D k scan, Run (step g.toTopology) (fun _ _ => True) B C →
      C.scans[k]? = some scan → scan.task.nodeIdx = merge →
      step g.toTopology (.commit k) C = some D →
      D.system.store = C.system.store ∧ D.system.log = C.system.log) ∧
  ((∀ e ∈ B.system.store.outbox, e.task.type = .mergeCancel) →
    (∀ name row, B.system.store.rowOutcome name = some row → row.1.isTerminal) →
    B.system.log.any (·.fatal) = false →
    ∀ i ∈ g.cancelClosure merge,
      (B.system.store.rowOutcome (g.nodeName i)).any (·.1.isTerminal)) ∧
  B.system.store.remaining = (openUnits g.toTopology B.system.store).length
  := by
  have held : Held g B := by
    apply hrun.invariant (I := Held g) (held_of_begins hacyc hgroups hbegin)
    intro a B C held _ next
    exact held.step hacyc hgroups next
  refine ⟨?_, ?_, ?_, ?_, ?_, remaining_eq hgroups held.accounted⟩
  · intro i _
    refine ⟨nodup_iff_count_le_one.mp held.accounted.nodup _, ?_⟩
    intro a C row next at_row terminal
    rcases (turn_of_branching hgroups held.accounted held.scans next).2 with
      same | ⟨s, applied, outbox, turn, -, eq⟩
    · rwa [same]
    · rw [eq]
      exact turn.row_kept hacyc held.accounted at_row terminal
  · intro task key result canceled
    apply commit_of_terminal
    obtain ⟨row, found, status⟩ := (any_eq_true _ _).mp canceled
    rw [decide_eq_true_eq] at status
    change (B.system.store.rowOutcome task.nodeName).any (·.1.isTerminal) = true
    rw [found, any_some, status]
    rfl
  · exact fun task _ => handleMergeCancelTask_twice hacyc hgroups held.accounted.mild task
  · rintro shut C D k scan run found rfl next
    obtain ⟨held, shut⟩ := sealed_run hacyc hgroups held shut run
    simp only [step] at next
    split at next
    · rename_i task rest req at_k
      obtain rfl := some.inj next
      rw [at_k] at found
      obtain rfl := some.inj found
      have cancels := (held.scans _ (mem_of_getElem? at_k)).asked req rfl
      obtain ⟨engine, -, mem⟩ := cancels.engine
      obtain ⟨s, task', i, -, asked⟩ := cancels
      obtain ⟨node, index⟩ := cancelsNode_of_request asked
      rw [index] at mem
      rw [(shut i mem).idles.commit node engine]
      exact ⟨rfl, append_nil _⟩
    · cases next
  · intro delivered committed mild i mem
    exact held.all_closed hacyc hgroups delivered committed mild
      (isDataNode_of_mem_cancelClosure mem)

/-! ### Samples -/

/-- Two roots that lead to a merge which waits for any of them and gives up the other, and a root of
its own. -/
def twoRoots : Graph where
  nodes := [{ name := "q" }, { name := "r" }, { name := "m", mergeMode := "wait_any" },
    { name := "f" }]
  edges := [{ srcIdx := 0, dstIdx := 2, srcPort := "main" },
    { srcIdx := 1, dstIdx := 2, srcPort := "main" }]

/-- The runner of a node reports success. -/
def succeeds (name : String) (i : Int) : Action :=
  .act (.commitNode { nodeName := name, nodeIdx := i, unitIdx := i, type := .nodeExec } soleKey
    { status := .success, port := "main" })

/-- The first root runs, and the merge fires. -/
def mergeFires : List Action :=
  [.act (.deliver (initialOutboxID "e" "q" 0) soleClaim), succeeds "q" 0,
    .act (.deliver (executeOutboxID "e" "m" 0) soleClaim), succeeds "m" 2]

/-- The task of the merge. -/
def giveUp : Task :=
  mergeCancelTask { nodeName := "m", nodeIdx := 2, unitIdx := 2, type := .nodeExec }

/-- The second root is leased before the merge fires; the delivery cancels it. -/
def rootGivenUp : List Action :=
  .act (.deliver (initialOutboxID "e" "r" 0) soleClaim) :: mergeFires ++
    [.enter giveUp, .read 0, .read 0, .commit 0]

/-- Both roots are sealed after the delivery, and whatever follows, no delivery changes anything;
the late report of the second root is refused. -/
theorem rootGivenUp_sealed :
  ∃ B, Run (step twoRoots.toTopology) (fun _ _ => True)
      ⟨submit twoRoots.toTopology "e" false false, []⟩ B ∧
    (B.system.store.rowOutcome "r").any (·.1 = .canceled) ∧
    (∀ task key result, task.nodeName = "r" →
      B.system.store.commit twoRoots.toTopology (twoRoots.leasedRequest task key result)
        = (B.system.store, [])) ∧
    ∀ C D k scan, Run (step twoRoots.toTopology) (fun _ _ => True) B C →
      C.scans[k]? = some scan → scan.task.nodeIdx = 2 →
      step twoRoots.toTopology (.commit k) C = some D →
      D.system.store = C.system.store ∧ D.system.log = C.system.log
  := by
  refine exists_run_of (P := fun B => (B.system.store.rowOutcome "r").any (·.1 = .canceled) ∧
    ∀ i ∈ twoRoots.cancelClosure 2, Sealed twoRoots B.system.store B.system.issued i)
    rootGivenUp (by decide) ?_
  rintro B run ⟨canceled, given⟩
  have begins : Begins twoRoots (submit twoRoots "e" false false) :=
    .inl (.inl ⟨"e", false, false, rfl⟩)
  obtain ⟨-, refused, -, quiet, -⟩ := merge_cancel_settles twoRoots rfl rfl begins run 2
  refine ⟨canceled, ?_, quiet given⟩
  intro task key result name
  apply refused
  rw [name]
  exact canceled

/-- The delivery passes the second root before it is leased. -/
def rootPassed : List Action :=
  mergeFires ++ [.enter giveUp, .read 0, .read 0, .commit 0]

/-- The second root is leased after the delivery, and the task is delivered again. -/
def deliveredAgain : List Action :=
  [.act (.deliver (initialOutboxID "e" "r" 0) soleClaim), .enter giveUp, .read 1, .read 1]

/-- The root of its own fails the execution; the intent of the second root is delivered after it. -/
def fatalElsewhere : List Action :=
  [.act (.deliver (initialOutboxID "e" "f" 0) soleClaim),
    .act (.commitNode { nodeName := "f", nodeIdx := 3, unitIdx := 3, type := .nodeExec } soleKey
      { status := .failed, port := "", fatal := true }),
    .act (.deliver (initialOutboxID "e" "r" 0) soleClaim)]

/-- A delivery that went through the closure leaves a root that was not leased; once it is leased, a
further delivery cancels it.  If a fatal commit ends the execution instead, the root is never
committed, although every other intent was delivered and every node with a row is committed. -/
theorem unleasedRoot_left :
  (∃ B C D, Run (step twoRoots.toTopology) (fun _ _ => True)
      ⟨submit twoRoots.toTopology "e" false false, []⟩ B ∧
    B.scans.map (fun scan => (scan.task.nodeIdx, scan.rest, scan.asked.isNone)) = [(2, [], true)] ∧
    Run (step twoRoots.toTopology) (fun _ _ => True) B C ∧
    step twoRoots.toTopology (.commit 1) C = some D ∧ D.system.log ≠ C.system.log ∧
    (D.system.store.rowOutcome "r").any (·.1 = .canceled)) ∧
  ∃ B, Run (step twoRoots.toTopology) (fun _ _ => True)
      ⟨submit twoRoots.toTopology "e" false false, []⟩ B ∧
    (∀ e ∈ B.system.store.outbox, e.task.type = .mergeCancel) ∧
    (∀ i ∈ indices twoRoots.nodes,
      (B.system.store.rowOutcome (twoRoots.nodeName i)).all (·.1.isTerminal)) ∧
    1 ∈ twoRoots.cancelClosure 2 ∧ B.system.store.rowOutcome (twoRoots.nodeName 1) = none
  := by
  constructor
  · have last : ((exec (step twoRoots) rootPassed
        ⟨submit twoRoots "e" false false, []⟩).bind (fun B =>
          (exec (step twoRoots) deliveredAgain B).bind (fun C =>
            (step twoRoots (.commit 1) C).map (fun D =>
              (B.scans.map (fun scan => (scan.task.nodeIdx, scan.rest, scan.asked.isNone)),
                decide (D.system.log ≠ C.system.log),
                (D.system.store.rowOutcome "r").any (·.1 = .canceled))))))
        = some ([(2, [], true)], true, true) := by
      decide
    obtain ⟨B, reached, last⟩ := bind_eq_some_iff.mp last
    obtain ⟨C, again, last⟩ := bind_eq_some_iff.mp last
    obtain ⟨D, next, final⟩ := map_eq_some_iff.mp last
    simp only [Prod.mk.injEq, decide_eq_true_eq] at final
    exact ⟨B, C, D, Run.of_exec reached, final.1,
      Run.of_exec again, next, final.2⟩
  · apply exists_run (rootPassed ++ fatalElsewhere)
    decide

end Branching

end Xflow
