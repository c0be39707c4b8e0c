import Xflow.Store.Status

/-!
# Commits as one transition

A commit that is admitted while its execution is running does two things: it settles a unit, that
is, writes the row of a node or the record of a group, counts the unit and finishes the execution if
it was the last one or the commit is fatal; and it folds arrivals into the counters.  `Settled`
describes the state between the two, and `commitNodeLocked_settled` and `commitGroupLocked_settled`
say that the two commits have this shape.
-/

namespace Xflow

open Bool Function Option

namespace MemoryState

/-- The status and the port in the row of a node. -/
def rowOutcome (s : MemoryState) (name : String) : Option (NodeStatus × String) :=
  (s.nodes name).map (fun row => (row.status, row.port))

/-- The commit ends the execution. -/
def ends (s : MemoryState) (fatal : Bool) : Prop := fatal ∨ s.remaining = 1

instance (s : MemoryState) (fatal : Bool) : Decidable (s.ends fatal) :=
  inferInstanceAs (Decidable (_ ∨ _))

/-- A unit of `s` was settled in `b`, and besides those of `s` the intent `extra` may be there. -/
structure Settled (s b : MemoryState) (failed fatal : Bool) (extra : Option OutboxEntry) :
    Prop where
  id : b.id = s.id
  inDegrees : b.inDegrees = s.inDegrees
  activeIns : b.activeIns = s.activeIns
  scheduled : b.scheduled = s.scheduled
  remaining : b.remaining = s.remaining - 1
  failed : b.failed = if failed then s.failed + 1 else s.failed
  status : b.status? =
    if s.ends fatal then some (if fatal ∨ 0 < b.failed then .failed else .success) else s.status?
  outbox : ∀ e ∈ b.outbox, e ∈ s.outbox ∨ extra = some e
  kept : ¬ s.ends fatal → ∀ e ∈ s.outbox, e ∈ b.outbox
  nodup : (s.outbox.map (·.id)).Nodup → (b.outbox.map (·.id)).Nodup

variable {s b : MemoryState} {failed fatal : Bool} {error : String}

/-! ### Rows -/

variable {req : CommitNodeRequest} {extra : Option OutboxEntry} {t : MemoryState}

theorem writeNode_rowOutcome :
  (s.writeNode req).rowOutcome
    = update s.rowOutcome req.nodeName (some (req.status, req.port))
  := by
  funext name
  by_cases hname : name = req.nodeName
  · subst hname
    rw [update_self, rowOutcome, writeNode_nodes_self]
    rfl
  · rw [update_of_ne hname, rowOutcome, writeNode_nodes_of_ne hname, rowOutcome]

theorem writeExits_rowOutcome {exits : List GroupExitResult} :
  (writeExits exits s).rowOutcome = s.rowOutcome
  := by
  induction exits generalizing s with
  | nil => rfl
  | cons ex exits ih =>
    rw [writeExits_cons, ih]
    funext name
    unfold rowOutcome writeExit preserveOutputPrivacy
    by_cases h : name = ex.nodeName
    · split <;> simp [h, comp_def, NodeSnapshot.redact]
    · split <;> simp [h]

theorem rowOutcome_congr (h : t.nodes = s.nodes) :
  t.rowOutcome = s.rowOutcome
  := by
  funext name
  rw [rowOutcome, h, rowOutcome]

/-! ### Settling -/

/-- A commit is accepted: the execution is not over, nor is the node, and its fence admits it. -/
theorem commitVerdict_accepted (h : s.commitVerdict req = .accepted) :
  (∃ st, s.status? = some st ∧ st.isTerminal = false) ∧
    (s.rowOutcome req.nodeName).any (·.1.isTerminal) = false ∧
    if req.system ∧ req.status = .canceled then s.cancelFenceAdmits req
    else if req.system then s.systemFenceAdmits req else s.leaseFenceAdmits req
  := by
  revert h
  fun_cases commitVerdict s req with
  | case5 snap exec current open_ active _ fence =>
    refine fun _ => ⟨⟨snap.status, by simp [status?, exec], by simpa using active⟩, ?_, fence⟩
    rw [rowOutcome, any_map]
    simpa using open_
  | _ => rintro ⟨⟩

theorem groupVerdict_accepted {req : GroupCommitRequest} (h : s.groupVerdict req = .accepted) :
  (∃ st, s.status? = some st ∧ st.isTerminal = false) ∧
    ∃ st, s.groupUnits req.groupUnitIdx = some st ∧ st.status = .running
  := by
  revert h
  fun_cases groupVerdict s req with
  | case6 st record held snap exec active =>
    push Not at held
    exact fun _ =>
      ⟨⟨snap.status, by simp [status?, exec], by simpa using active⟩, st, record, held.2.2⟩
  | _ => rintro ⟨⟩

theorem settled_settleUnit {st : ExecutionStatus} (hst : s.status? = some st)
    (hopen : st.isTerminal = false) :
  Settled s (s.settleUnit failed fatal error).1 failed fatal none
  := by
  by_cases hends : s.ends fatal
  · rw [settleUnit_of_done hends]
    constructor
    case status =>
      have hcounted : (s.countUnit failed).status? = some st := hst
      rw [if_pos hends, finishExecution_status?]
      simp [isOver, hcounted, hopen, finalStatus]
    case outbox =>
      intro e he
      left
      simpa using mem_outbox_of_finishExecution he
    case kept => exact absurd hends
    case nodup =>
      intro hnodup
      apply finishExecution_nodup
      simpa using hnodup
    all_goals simp
  · have hopen' : ¬ (fatal ∨ s.remaining = 1) := hends
    push Not at hopen'
    rw [settleUnit_of_open (by simpa using hopen'.1) hopen'.2]
    constructor
    case status =>
      rw [if_neg hends]
      rfl
    all_goals simp +contextual

/-- Rows, outputs and records do not matter. -/
theorem Settled.of_rows {nodes : String → Option NodeSnapshot} {outputs : String → Option Data}
    {privateOutputs : String → Bool} {groupUnits : Int → Option GroupUnitState}

    (h : Settled { s with nodes, outputs, privateOutputs, groupUnits } b failed fatal extra) :
  Settled s b failed fatal extra
  :=
  { h with }

theorem settleUnit_rows (ht : t = (s.settleUnit failed fatal error).1) :
  t.rowOutcome = s.rowOutcome ∧ t.groupUnits = s.groupUnits
  := by
  rw [ht]
  unfold settleUnit rowOutcome
  dsimp only
  split <;> simp

theorem Settled.putIntent (h : Settled s b failed fatal none) :
  Settled s (b.putIntent extra).1 failed fatal extra
  := by
  rw [putIntent_fst]
  refine { h with outbox := ?_, kept := ?_, nodup := ?_ }
  · intro e he
    cases extra with
    | none => exact h.outbox e he
    | some x =>
      rcases mem_putEntry.mp he with hold | ⟨rfl, -⟩
      · left
        exact (h.outbox e hold).resolve_right (by simp)
      · right
        rfl
  · intro hends e he
    have hkept := h.kept hends e he
    cases extra with
    | none => exact hkept
    | some x => exact mem_putEntry.mpr (.inl hkept)
  · intro hnodup
    cases extra with
    | none => exact h.nodup hnodup
    | some x => exact putEntry_nodup (h.nodup hnodup)

/-! ### The two commits -/

/-- The intent of a merge that gives up its other branches. -/
def mergeIntent (s : MemoryState) (req : CommitNodeRequest) : Option OutboxEntry :=
  req.mergeCancel.map (⟨mergeCancelOutboxID s.id req.nodeName req.activationID, ·, .now⟩)

/-- The arrivals that the commit of a node folds into the counters: none if it ends the execution.
-/
def foldedArrivals (s : MemoryState) (req : CommitNodeRequest) : List DownstreamArrival :=
  if s.ends req.fatal then [] else req.arrivals

/-- An admitted commit of a node without an advance task settles the node and folds its arrivals. -/
theorem commitNodeLocked_settled
    (haccepted : s.commitVerdict req = .accepted) (hacyc : req.allowCycles = false)
    (hadvance : req.advanceTask = none) (hrunning : s.status? ≠ some .canceling) :
  ∃ b, Settled s b (req.status = .failed) req.fatal (s.mergeIntent req) ∧
    b.rowOutcome = update s.rowOutcome req.nodeName (some (req.status, req.port)) ∧
    b.groupUnits = s.groupUnits ∧
    (s.commitNodeLocked req).1
      = (applyArrivals req.activationID req.autoDepth (s.foldedArrivals req) b).1
  := by
  obtain ⟨⟨st, hst, hopen⟩, -⟩ := commitVerdict_accepted haccepted
  obtain ⟨t, ht⟩ : ∃ t, t =
    ((s.writeNode req).settleUnit (req.status = .failed) req.fatal req.error).1 := ⟨_, rfl⟩
  have hsettled : Settled s t (req.status = .failed) req.fatal none := by
    rw [ht, writeNode_frame]
    exact .of_rows (settled_settleUnit hst hopen)
  obtain ⟨hrows, hrecords⟩ := settleUnit_rows ht
  rw [writeNode_rowOutcome] at hrows
  rw [writeNode_frame] at hrecords
  rw [commitNodeLocked_of_accepted haccepted hacyc, ← ht]
  by_cases hends : s.ends req.fatal
  · refine ⟨_, { hsettled with outbox := ?_ }, hrows, hrecords, ?_⟩
    · intro e he
      left
      exact (hsettled.outbox e he).resolve_right (by simp)
    · have hends' : req.fatal ∨ s.remaining = 1 := hends
      simp [foldedArrivals, hends, hends']
  · refine ⟨_, hsettled.putIntent, ?_, ?_, ?_⟩
    · have hnodes (t : MemoryState) (e : Option OutboxEntry) :
          (t.putIntent e).1.nodes = t.nodes := by
        rw [putIntent_fst]
      rw [rowOutcome_congr (hnodes _ _), hrows]
    · rw [putIntent_fst]
      exact hrecords
    · have hends' : ¬ (req.fatal ∨ s.remaining = 1) := hends
      have hstatus : ¬ t.status? = some .canceling := by
        rw [hsettled.status, if_neg hends]
        exact hrunning
      simp only [foldedArrivals, hends, hends']
      rw [followUp_acyclic hacyc, hadvance]
      rw [if_neg hstatus, hsettled.id]
      rfl

/-- The record of a group unit that was committed. -/
def doneRecord (token : String) (st : GroupUnitState) : GroupUnitState :=
  { st with status := .done, committedToken := token, leaseID := "", leaseToken := "" }

theorem commitGroupLocked_settled {req : GroupCommitRequest}
    (haccepted : s.groupVerdict req = .accepted) :
  ∃ b, Settled s b (req.outcome = .failed) req.fatal none ∧ b.rowOutcome = s.rowOutcome ∧
    b.groupUnits = update s.groupUnits req.groupUnitIdx
      ((s.groupUnits req.groupUnitIdx).map (doneRecord req.leaseToken)) ∧
    (s.commitGroupLocked req).1 = (applyArrivals 0 0 req.downstream b).1
  := by
  obtain ⟨⟨st, hst, hopen⟩, -⟩ := groupVerdict_accepted haccepted
  refine ⟨_, ?_, ?_, ?_, commitGroupLocked_of_accepted haccepted⟩
  · rw [writeExits_frame]
    exact .of_rows (settled_settleUnit hst hopen)
  · rw [(settleUnit_rows rfl).1]
    exact writeExits_rowOutcome
  · rw [(settleUnit_rows rfl).2]
    simp only [finishGroup_groupUnits, writeExits_fields]
    rfl

theorem commitNodeLocked_applied :
  (s.commitNodeLocked req).2.applied = decide (s.commitVerdict req = .accepted)
  := by
  by_cases haccepted : s.commitVerdict req = .accepted
  · simp only [commitNodeLocked, haccepted]
    split <;> split <;> rfl
  · rw [commitNodeLocked_of_refused haccepted]
    simp [haccepted]

theorem commitGroupLocked_applied {req : GroupCommitRequest} :
  (s.commitGroupLocked req).2.applied = decide (s.groupVerdict req = .accepted)
  := by
  by_cases haccepted : s.groupVerdict req = .accepted
  · simp [commitGroupLocked, haccepted]
  · rw [commitGroupLocked_of_refused haccepted]
    simp [haccepted]

/-! ### Leases -/

variable {lease : TaskLease}

theorem acquireTaskLeaseChecked_frame {allowCycles : Bool} :
  (s.acquireTaskLeaseChecked lease allowCycles).1 =
    { s with
      nodes := (s.acquireTaskLeaseChecked lease allowCycles).1.nodes
      privateOutputs := (s.acquireTaskLeaseChecked lease allowCycles).1.privateOutputs }
  := by
  unfold acquireTaskLeaseChecked acquireTaskLease preserveOutputPrivacy
  dsimp only
  repeat' split
  all_goals rfl

theorem acquireTaskLeaseChecked_cases :
  (s.acquireTaskLeaseChecked lease false).1 = s ∨
    (s.rowOutcome lease.task.nodeName).any (·.1.isTerminal) = false ∧
      (s.acquireTaskLeaseChecked lease false).1.rowOutcome
        = update s.rowOutcome lease.task.nodeName (some (.running, ""))
  := by
  rcases @acquireTaskLeaseChecked_or s lease false with heq | ⟨-, hopen, -, heq⟩
  · left
    rw [heq]
  · right
    constructor
    · rw [rowOutcome, any_map]
      simpa using hopen
    · funext name
      by_cases hname : name = lease.task.nodeName
      · subst hname
        simp [heq, rowOutcome, leasedRow]
      · simp [heq, rowOutcome, hname, preserveOutputPrivacy_nodes_of_ne hname]

theorem acquireGroupLease_cases {u attempt : Int} {leaseID leaseToken : String} :
  ∃ st, (s.acquireGroupLease u leaseID leaseToken attempt).1
      = { s with groupUnits := update s.groupUnits u (some st) } ∧
    (st.status = .running ∨ st.status = .done) ∧
    (st.status = .done ↔ (s.groupUnits u).any (·.status = .done))
  := by
  fun_cases s.acquireGroupLease u leaseID leaseToken attempt with
  | case1 st held =>
    refine ⟨_, rfl, held, ?_⟩
    cases found : s.groupUnits u <;> simp_all [st]
  | case2 st free =>
    refine ⟨_, rfl, .inl rfl, ?_⟩
    cases found : s.groupUnits u <;> simp_all [st]

end MemoryState

end Xflow
