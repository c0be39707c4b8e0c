import Xflow.Store.Expansion
import Xflow.Store.Fence

/-!
# What the barrier hands back

Nodes are leased, expanded, reclaimed and expanded again, and reports of their children arrive in
any order and more than once.  A history keeps, beside the store, the generations of children that
began and the reports that were accepted, so that what the barrier hands back can be compared with
what was reported.

A node that waits was expanded last under the lease it waits under; a node that is leased and does
not wait was never expanded under its lease.  So a report that carries another lease than that of
the latest generation finds no row to match it.
-/

namespace Xflow

open Except Function List MemoryState NodeSnapshot Option SignalState

open MemoryState (TaskLease)

/-! ### Leases under the other calls -/

/-- The row is leased as another one is: under the same lease, and waiting as the other does. -/
structure NodeSnapshot.LeasedAs (row old : NodeSnapshot) : Prop where
  leaseID : row.leaseID = old.leaseID
  leaseToken : row.leaseToken = old.leaseToken
  attempt : row.attempt = old.attempt
  activationID : row.activationID = old.activationID
  leased : old.isLeased
  waiting : row.status = .waiting ↔ old.status = .waiting

attribute [local simp] isLeased

namespace MemoryState

/-- Every lease that is out in the second state was out in the first. -/
def LeasesFrom (s t : MemoryState) : Prop :=
  ∀ name row, t.nodes name = some row → row.isLeased →
    ∃ old, s.nodes name = some old ∧ row.LeasedAs old

variable {s t : MemoryState} {name : String} {row : NodeSnapshot}

theorem LeasesFrom.of_nodes (same : t.nodes = s.nodes) :
  LeasesFrom s t
  := by
  intro name row stored leased
  rw [same] at stored
  exact ⟨row, stored, rfl, rfl, rfl, rfl, leased, Iff.rfl⟩

theorem LeasesFrom.of_row (self : t.nodes name = some row)
    (others : ∀ other ≠ name, t.nodes other = s.nodes other)
    (kept : row.isLeased → ∃ old, s.nodes name = some old ∧ row.LeasedAs old) :
  LeasesFrom s t
  := by
  intro other row' stored leased
  by_cases eq : other = name
  · grind
  · rw [others other eq] at stored
    exact ⟨row', stored, rfl, rfl, rfl, rfl, leased, Iff.rfl⟩

variable {lease : TaskLease}

theorem leasesFrom_commitNodeLocked {req : CommitNodeRequest} (final : req.status.isTerminal) :
  LeasesFrom s (s.commitNodeLocked req).1
  := by
  by_cases accepted : s.commitVerdict req = .accepted
  · have written := @writeNode_nodes_self s req
    rw [← commitNodeLocked_nodes accepted] at written
    apply LeasesFrom.of_row written
    · intro other ne
      rw [commitNodeLocked_nodes accepted, writeNode_nodes_of_ne ne]
    · intro leased
      have held := fence_of_leased leased
      rw [fence_of_terminal final] at held
      cases held
  · rw [commitNodeLocked_of_refused accepted]
    exact .of_nodes rfl

theorem leased_acquireTaskLeaseChecked {allowCycles : Bool}
    (stored : (s.acquireTaskLeaseChecked lease allowCycles).1.nodes name = some row) :
  s.nodes name = some row ∨
    lease.task.nodeName = name ∧ row.leaseID = lease.leaseID ∧ row.status = .running
  := by
  rcases @acquireTaskLeaseChecked_or s lease allowCycles with eq | ⟨-, -, -, eq⟩
  · rw [eq] at stored
    exact .inl stored
  · simp only [eq] at stored
    by_cases here : name = lease.task.nodeName
    · subst here
      rw [update_self] at stored
      obtain rfl := some.inj stored
      exact .inr ⟨rfl, rfl, rfl⟩
    · rw [update_of_ne here, preserveOutputPrivacy_nodes_of_ne here] at stored
      exact .inl stored

end MemoryState

namespace SignalState

variable {s : SignalState} {op : Op}

/-- A commit with a final status, or another call. -/
def Final : Op → Prop
  | .commitNode req => req.status.isTerminal
  | _ => True

theorem leasesFrom_call (final : Final op)
    (other : ∀ lease allowCycles, op ≠ .acquireTaskLease lease allowCycles) :
  MemoryState.LeasesFrom s.toMemoryState (call op s).1.toMemoryState
  := by
  apply call_induction (P := MemoryState.LeasesFrom s.toMemoryState) (.of_nodes rfl)
  case acquire => exact fun lease allowCycles eq => absurd eq (other lease allowCycles)
  case claim =>
    intro name row stored running
    apply MemoryState.LeasesFrom.of_row rewriteRow_nodes_self (fun _ => rewriteRow_nodes_of_ne)
    intro _
    refine ⟨row, stored, rfl, rfl, rfl, rfl, ?_, ?_⟩
    · simp [running]
    · simp [running]
  case renew =>
    intro name row issuedAt ttl stored
    apply MemoryState.LeasesFrom.of_row (update_self ..) (fun _ other => update_of_ne other ..)
    intro leased
    exact ⟨row, stored, rfl, rfl, rfl, rfl, leased, Iff.rfl⟩
  case release =>
    intro name row
    apply MemoryState.LeasesFrom.of_row rewriteRow_nodes_self (fun _ => rewriteRow_nodes_of_ne)
    intro leased
    simp [unlease] at leased
  case put => exact fun _ leases => leases
  case park =>
    intro x row
    rw [park_store]
    apply MemoryState.LeasesFrom.of_row rewriteRow_nodes_self
    · intro other ne
      rw [rewriteRow_nodes_of_ne ne, storeOutput_frame]
    · intro leased
      simp [unlease] at leased
  case commit =>
    rintro req rfl _
    exact leasesFrom_commitNodeLocked final
  case ack => exact fun _ _ => .of_nodes rfl

end SignalState

/-! ### Histories -/

/-- The children that a node was expanded into under a lease. -/
structure Generation where
  lease : TaskLease
  children : List SubExecution

/-- A store with the generations that began, the latest first, and the reports that were accepted,
the earliest first. -/
structure ExpansionHistory where
  store : ExpansionState
  begun : List Generation := []
  reports : List ExpansionReport := []

namespace ExpansionHistory

inductive Action where
  | call (op : SignalState.Op)
  | expand (lease : TaskLease) (children : List SubExecution) (entries : List OutboxEntry)
  | complete (r : ExpansionReport)

/-- The latest generation of a node. -/
def latest (σ : ExpansionHistory) (name : String) : Option Generation :=
  σ.begun.find? (·.lease.task.nodeName = name)

/-- Take a report. -/
def report (σ : ExpansionHistory) (r : ExpansionReport) :
    Except String (ExpansionState × ExpansionAnswer) :=
  σ.store.completeExpandedSubExecution r.lease r.childExecID r.status r.result

def step : Action → ExpansionHistory → Option ExpansionHistory
  | .call op, σ =>
    some { σ with store := { σ.store with
      toSignalState := (call op σ.store.toSignalState).1 } }
  | .expand lease children entries, σ =>
    match σ.store.beginTaskExpansionWithOutbox lease children entries with
    | .error _ => some σ
    | .ok answer => some { σ with
        store := answer.1
        begun := if answer.2 then ⟨lease, children⟩ :: σ.begun else σ.begun }
  | .complete r, σ =>
    match σ.report r with
    | .error _ => some σ
    | .ok answer => some { σ with
        store := answer.1
        reports := if answer.2.accepted then σ.reports ++ [r] else σ.reports }

/-- A lease is granted under an identifier that its node was not expanded under, a commit has a
final status, and a generation consists of fresh children. -/
def Regular (action : Action) (σ : ExpansionHistory) : Prop :=
  match action with
  | .call (.acquireTaskLease lease _) =>
    ∀ gen ∈ σ.begun, gen.lease.expansionSubExecutionKey ≠ lease.expansionSubExecutionKey
  | .call op => SignalState.Final op
  | .expand _ children _ => FreshChildren children
  | .complete _ => True

instance (action : Action) (σ : ExpansionHistory) : Decidable (Regular action σ) := by
  unfold Regular SignalState.Final
  split <;> (try split) <;> infer_instance

/-- Nothing was expanded yet. -/
structure Start (σ : ExpansionHistory) : Prop where
  rows : ∀ name row, σ.store.nodes name = some row → row.status ≠ .waiting
  subExecs : σ.store.subExecs = fun _ => []
  begun : σ.begun = []
  reports : σ.reports = []

/-- What holds of the barrier in every history. -/
structure Barrier (σ : ExpansionHistory) : Prop where
  fresh : ∀ gen ∈ σ.begun, FreshChildren gen.children
  distinct : σ.begun.Pairwise fun gen older =>
    gen.lease.expansionSubExecutionKey ≠ older.lease.expansionSubExecutionKey
  heard : ∀ r ∈ σ.reports, ∃ gen ∈ σ.begun,
    gen.lease.expansionSubExecutionKey = r.lease.expansionSubExecutionKey
  recorded : ∀ gen ∈ σ.begun, σ.store.subExecs gen.lease.expansionSubExecutionKey =
    gen.children.map (SubExecution.replay gen.lease.expansionSubExecutionKey σ.reports)
  empty : ∀ key, (∀ gen ∈ σ.begun, gen.lease.expansionSubExecutionKey ≠ key) →
    σ.store.subExecs key = []
  waiting : ∀ name row, σ.store.nodes name = some row → row.status = .waiting →
    ∃ gen, σ.latest name = some gen ∧ row.matchesExpansionLease gen.lease .waiting
  unexpanded : ∀ name row, σ.store.nodes name = some row → row.isLeased → row.status ≠ .waiting →
    ∀ gen ∈ σ.begun, gen.lease.expansionSubExecutionKey ≠ (name, row.leaseID)

variable {σ τ : ExpansionHistory}

theorem Start.barrier (start : Start σ) :
  Barrier σ
  := by
  constructor
  case empty =>
    intro key _
    rw [start.subExecs]
  case waiting =>
    intro name row stored waits
    exact absurd waits (start.rows name row stored)
  all_goals simp [start.begun, start.reports]

theorem Barrier.of_rows (barrier : Barrier σ) {s : SignalState}
    (rows : ∀ name row, s.nodes name = some row → row.isLeased →
      (∃ old, σ.store.nodes name = some old ∧ row.LeasedAs old) ∨ row.status ≠ .waiting ∧
        ∀ gen ∈ σ.begun, gen.lease.expansionSubExecutionKey ≠ (name, row.leaseID)) :
  Barrier { σ with store := { σ.store with toSignalState := s } }
  := by
  refine { barrier with waiting := ?waiting, unexpanded := ?unexpanded }
  case waiting =>
    intro name row stored waits
    have leased : row.isLeased := by simp [waits]
    rcases rows name row stored leased with ⟨old, before, same⟩ | ⟨unwaiting, -⟩
    · obtain ⟨gen, latest, held⟩ := barrier.waiting name old before (same.waiting.mp waits)
      refine ⟨gen, latest, ?_⟩
      simp only [matchesExpansionLease, decide_eq_true_eq] at held ⊢
      rw [same.leaseID, same.leaseToken, same.attempt, same.activationID]
      exact ⟨waits, held.2⟩
    · exact absurd waits unwaiting
  case unexpanded =>
    have unexpanded := barrier.unexpanded
    grind [LeasedAs]

theorem Barrier.call (barrier : Barrier σ) {op : SignalState.Op} (regular : Regular (.call op) σ) :
  Barrier { σ with store := { σ.store with
    toSignalState := (call op σ.store.toSignalState).1 } }
  := by
  apply barrier.of_rows
  intro name row stored leased
  by_cases granting : ∃ lease allowCycles, op = .acquireTaskLease lease allowCycles
  · obtain ⟨lease, allowCycles, rfl⟩ := granting
    rcases leased_acquireTaskLeaseChecked stored with before | ⟨rfl, id, running⟩
    · exact .inl ⟨row, before, rfl, rfl, rfl, rfl, leased, Iff.rfl⟩
    · right
      rw [running, id]
      exact ⟨by decide, regular⟩
  · left
    apply leasesFrom_call _ _ name row stored leased
    · cases op <;> first | exact regular | trivial
    · rintro lease allowCycles rfl
      exact granting ⟨lease, allowCycles, rfl⟩

variable {lease : TaskLease} {row : NodeSnapshot}

theorem Barrier.expand (barrier : Barrier σ) {children : List SubExecution}
    {outbox : List OutboxEntry} (stored : σ.store.nodes lease.task.nodeName = some row)
    (held : row.matchesExpansionLease lease .committing) (fresh : FreshChildren children) :
  Barrier { σ with
    store := { σ.store with
      nodes := update σ.store.nodes lease.task.nodeName
        (some { row with status := .waiting })
      subExecs := update σ.store.subExecs lease.expansionSubExecutionKey
        (σ.store.subExecs lease.expansionSubExecutionKey ++ children)
      outbox := outbox }
    begun := ⟨lease, children⟩ :: σ.begun }
  := by
  simp only [matchesExpansionLease, decide_eq_true_eq] at held
  obtain ⟨status, id, credentials⟩ := held
  have unexpanded : ∀ gen ∈ σ.begun,
      gen.lease.expansionSubExecutionKey ≠ lease.expansionSubExecutionKey := by
    intro gen mem
    have other := barrier.unexpanded _ row stored (by simp [status])
      (by simp [status]) gen mem
    rwa [id] at other
  constructor
  case fresh => exact forall_mem_cons.mpr ⟨fresh, barrier.fresh⟩
  case distinct =>
    exact pairwise_cons.mpr ⟨fun gen mem => (unexpanded gen mem).symm, barrier.distinct⟩
  case heard => grind [barrier.heard]
  case recorded =>
    rw [forall_mem_cons]
    constructor
    · -- no report was accepted under the key of the new generation
      have silent : ∀ r ∈ σ.reports,
          r.lease.expansionSubExecutionKey ≠ lease.expansionSubExecutionKey := by
        intro r mem
        obtain ⟨gen, begun, key⟩ := barrier.heard r mem
        rw [← key]
        exact unexpanded gen begun
      dsimp only
      rw [update_self, barrier.empty _ unexpanded]
      conv_lhs => rw [← map_id children]
      apply map_congr_left
      intro child _
      exact (SubExecution.replay_of_others silent).symm
    · grind [barrier.recorded]
  case empty =>
    intro key others
    rw [forall_mem_cons] at others
    dsimp only
    rw [update_of_ne (Ne.symm others.1)]
    exact barrier.empty key others.2
  case waiting =>
    intro name row' stored' waits
    dsimp only at stored'
    by_cases eq : lease.task.nodeName = name
    · subst eq
      rw [update_self] at stored'
      obtain rfl := some.inj stored'
      refine ⟨⟨lease, children⟩, by simp [latest], ?_⟩
      simp [matchesExpansionLease, id, credentials]
    · rw [update_of_ne (Ne.symm eq)] at stored'
      obtain ⟨gen, found, matched⟩ := barrier.waiting name row' stored' waits
      exact ⟨gen, by simpa [latest, eq] using found, matched⟩
  case unexpanded =>
    intro name row' stored' leased unwaiting
    have before := barrier.unexpanded name row'
    simp only [update_apply, TaskLease.expansionSubExecutionKey] at before stored' ⊢
    grind

theorem Barrier.latest_of_waiting (barrier : Barrier σ)
    (stored : σ.store.nodes lease.task.nodeName = some row)
    (held : row.matchesExpansionLease lease .waiting) :
  ∃ gen, σ.latest lease.task.nodeName = some gen ∧ gen.lease.credentials = lease.credentials
  := by
  simp only [matchesExpansionLease, decide_eq_true_eq] at held
  obtain ⟨waits, id, token, attempt, activation⟩ := held
  obtain ⟨gen, found, matched⟩ := barrier.waiting _ row stored waits
  have name : gen.lease.task.nodeName = lease.task.nodeName := by
    simpa using find?_some found
  simp only [matchesExpansionLease, decide_eq_true_eq] at matched
  refine ⟨gen, found, ?_⟩
  rw [TaskLease.credentials, TaskLease.credentials, name, ← id, ← token, ← attempt, ← activation,
    ← matched.2.1, ← matched.2.2.1, ← matched.2.2.2.1, ← matched.2.2.2.2]

theorem key_of_credentials {lease' : TaskLease} (same : lease.credentials = lease'.credentials) :
  lease.expansionSubExecutionKey = lease'.expansionSubExecutionKey
  := by
  simp only [TaskLease.credentials, Prod.mk.injEq] at same
  rw [TaskLease.expansionSubExecutionKey, TaskLease.expansionSubExecutionKey, same.1, same.2.1]

variable {r : ExpansionReport}

theorem Barrier.recordReport (barrier : Barrier σ) {gen : Generation} (begun : gen ∈ σ.begun)
    (key : gen.lease.expansionSubExecutionKey = r.lease.expansionSubExecutionKey) :
  Xflow.recordReport r.childExecID r.status r.result
      (σ.store.subExecs r.lease.expansionSubExecutionKey)
    = gen.children.map (SubExecution.replay r.lease.expansionSubExecutionKey (σ.reports ++ [r]))
  := by
  rw [← key, barrier.recorded gen begun, recordReport_eq_map, key, List.map_map]
  · apply map_congr_left
    intro child _
    exact SubExecution.replay_concat.symm
  · rw [List.map_map]
    have same : (fun sub : SubExecution => sub.childExecID) ∘
        SubExecution.replay gen.lease.expansionSubExecutionKey σ.reports = (·.childExecID) := by
      funext sub
      exact SubExecution.replay_keeps.1
    rw [same]
    exact (barrier.fresh gen begun).identifiers

theorem Barrier.complete (barrier : Barrier σ)
    (stored : σ.store.nodes r.lease.task.nodeName = some row)
    (held : row.matchesExpansionLease r.lease .waiting) :
  Barrier { σ with
    store := { σ.store with
      subExecs := update σ.store.subExecs r.lease.expansionSubExecutionKey
        (Xflow.recordReport r.childExecID r.status r.result
          (σ.store.subExecs r.lease.expansionSubExecutionKey)) }
    reports := σ.reports ++ [r] }
  := by
  obtain ⟨current, found, credentials⟩ := barrier.latest_of_waiting stored held
  have begun := mem_of_find?_eq_some found
  refine { barrier with heard := ?heard, recorded := ?recorded, empty := ?empty }
  case heard =>
    have heard := barrier.heard
    have same := key_of_credentials credentials
    grind
  case recorded =>
    intro gen mem
    dsimp only
    by_cases key : gen.lease.expansionSubExecutionKey = r.lease.expansionSubExecutionKey
    · rw [key, update_self, barrier.recordReport mem key]
    · rw [update_of_ne key, barrier.recorded gen mem]
      apply map_congr_left
      intro child _
      rw [SubExecution.replay_concat]
      simp [SubExecution.receive, ExpansionReport.isOf, Ne.symm key]
  case empty =>
    have empty := barrier.empty
    have same := key_of_credentials credentials
    grind

theorem Barrier.step {action : Action} (barrier : Barrier σ) (regular : Regular action σ)
    (next : step action σ = some τ) :
  Barrier τ
  := by
  cases action with
  | call op =>
    obtain rfl := some.inj next
    exact barrier.call regular
  | expand lease children entries =>
    rw [ExpansionHistory.step] at next
    revert next
    fun_cases σ.store.beginTaskExpansionWithOutbox lease children entries with
    | case5 _ _ row stored held =>
      rintro ⟨⟩
      exact barrier.expand stored (not_not.mp held) regular
    | _ =>
      rintro ⟨⟩
      exact barrier
  | complete r =>
    rw [ExpansionHistory.step, report] at next
    revert next
    fun_cases σ.store.completeExpandedSubExecution r.lease r.childExecID r.status r.result with
    | case5 _ row stored held =>
      rintro ⟨⟩
      have kept := barrier.complete stored (not_not.mp held)
      split <;> exact kept
    | _ =>
      rintro ⟨⟩
      exact barrier

theorem barrier_run {start : ExpansionHistory} (fresh : Start start)
    (run : Transition.Run step Regular start σ) :
  Barrier σ
  := by
  apply run.invariant fresh.barrier
  intro action σ τ barrier regular next
  exact barrier.step regular next

/-- A report changes nothing, or it is of the latest generation of its node and is recorded. -/
theorem Barrier.report_cases (barrier : Barrier σ) {after : ExpansionState}
    {answer : ExpansionAnswer} (taken : σ.report r = .ok (after, answer)) :
  (after = σ.store ∧ answer = {}) ∨
  ∃ row gen, σ.store.nodes r.lease.task.nodeName = some row ∧
    row.matchesExpansionLease r.lease .waiting ∧ σ.latest r.lease.task.nodeName = some gen ∧
    gen.lease.credentials = r.lease.credentials ∧
    let key := r.lease.expansionSubExecutionKey
    let subs := gen.children.map (SubExecution.replay key (σ.reports ++ [r]))
    after.subExecs key = subs ∧ answer = if subs.all (·.status.isTerminal) then
        { allDone := true, accepted := true, results := expansionResults subs }
      else { accepted := true }
  := by
  rw [report] at taken
  revert taken
  fun_cases σ.store.completeExpandedSubExecution r.lease r.childExecID r.status r.result with
  | case1 => exact nofun
  | case5 _ row stored held _ subs =>
    obtain ⟨gen, found, credentials⟩ := barrier.latest_of_waiting stored (not_not.mp held)
    have replayed : subs = _ :=
      barrier.recordReport (mem_of_find?_eq_some found) (key_of_credentials credentials)
    rintro ⟨⟩
    rw [replayed]
    exact .inr ⟨row, gen, stored, not_not.mp held, found, credentials, update_self .., rfl⟩
  | _ =>
    rintro ⟨⟩
    exact .inl ⟨rfl, rfl⟩

/-- In every history and for every report: it is accepted only for the latest generation of its
node, while the node waits under the lease of that generation; a report that is not accepted, such
as one that carries the lease of an older generation, changes nothing; and all children are reported
finished only when they are, with the results that their first final reports carried, in the order
of the batches. -/
theorem expansion_barrier {start : ExpansionHistory} (fresh : Start start)
    (run : Transition.Run step Regular start σ) (r : ExpansionReport) {after : ExpansionState}
    {answer : ExpansionAnswer} (taken : σ.report r = .ok (after, answer)) :
  (answer.allDone = true → ∃ gen, σ.latest r.lease.task.nodeName = some gen ∧
    gen.lease.credentials = r.lease.credentials ∧
    (after.subExecs r.lease.expansionSubExecutionKey).map (·.childExecID)
      = gen.children.map (·.childExecID) ∧
    (∀ sub ∈ after.subExecs r.lease.expansionSubExecutionKey, sub.status.isTerminal) ∧
    ∃ order : List SubExecution, order.Perm gen.children ∧
      order.Pairwise (fun a b => a.batchIndex < b.batchIndex) ∧
      answer.results = order.filterMap (fun child =>
        (firstTerminal (σ.reports ++ [r]) r.lease.expansionSubExecutionKey child.childExecID).bind
          (·.result))) ∧
  (answer.accepted = true → (∃ gen, σ.latest r.lease.task.nodeName = some gen ∧
      gen.lease.credentials = r.lease.credentials) ∧
    ∃ row, σ.store.nodes r.lease.task.nodeName = some row ∧
      row.matchesExpansionLease r.lease .waiting) ∧
  (answer.accepted = false → after = σ.store ∧ answer.allDone = false) ∧
  (∀ gen ∈ σ.begun, gen.lease.credentials = r.lease.credentials →
    σ.latest r.lease.task.nodeName ≠ some gen → answer.accepted = false ∧ after = σ.store)
  := by
  have barrier := barrier_run fresh run
  rcases barrier.report_cases taken with
    ⟨rfl, rfl⟩ | ⟨row, gen, stored, held, found, credentials, recorded, rfl⟩
  · simp
  · refine ⟨fun done => ⟨gen, found, credentials, ?_⟩,
      fun _ => ⟨⟨gen, found, credentials⟩, row, stored, held⟩, ?_, ?_⟩
    · split at done
      case isFalse => cases done
      case isTrue finished =>
        rw [recorded, if_pos finished, List.map_map]
        rw [List.all_eq_true] at finished
        refine ⟨?_, finished, ?_⟩
        · apply map_congr_left
          intro child _
          exact SubExecution.replay_keeps.1
        · apply expansionResults_replay (barrier.fresh gen (mem_of_find?_eq_some found))
          intro child mem
          exact finished _ (mem_map_of_mem mem)
    · intro no
      split at no <;> cases no
    · intro gen' begun same older
      have symm : Std.Symm fun gen older : Generation =>
          gen.lease.expansionSubExecutionKey ≠ older.lease.expansionSubExecutionKey :=
        ⟨fun _ _ => Ne.symm⟩
      have apart := barrier.distinct.forall (mem_of_find?_eq_some found) begun (by grind)
      exact absurd (key_of_credentials (credentials.trans same.symm)) apart

/-! ### A batch without a result -/

namespace Sample

/-- An execution before any of its nodes ran. -/
def idleMap : ExpansionHistory where
  store := { id := "e", execution := some { status := .running } }

/-- The lease of the map node. -/
def mapLease : TaskLease where
  task := { nodeName := "map", nodeIdx := 0, type := .nodeExec }
  leaseID := "l"
  leaseToken := "t"
  attempt := 1
  issuedAt := 0
  ttl := 10

/-- The report that a batch of the map node succeeded. -/
def batchSucceeds (batchIndex : Int) (result : Option Data) : ExpansionReport where
  lease := mapLease
  childExecID := expansionChildID "e" mapLease batchIndex
  status := .success
  result := result

/-- Two batches begin, and the first is reported without a result. -/
def firstWithoutResult : List Action :=
  [.call (.acquireTaskLease mapLease false), .call (.claimTaskLease mapLease),
    .expand mapLease (expansionChildren "e" mapLease 2) (expansionEntries "e" mapLease 2),
    .complete (batchSucceeds 0 none)]

end Sample

theorem report_of_toOption {answered : ExpansionState × ExpansionAnswer}
    (taken : (σ.report r).toOption = some answered) :
  σ.report r = .ok answered
  := by
  cases given : σ.report r with
  | error err =>
    rw [given] at taken
    cases taken
  | ok answered' =>
    rw [given] at taken
    rw [some.inj taken]

open Sample Transition

/-- Both batches of a node are reported finished, one of them without a result: the barrier hands
back one result. -/
theorem nilResult_dropped :
  ∃ σ after answer gen, Run step Regular idleMap σ ∧
    σ.report (batchSucceeds 1 (some [])) = .ok (after, answer) ∧
    answer.allDone = true ∧ σ.latest "map" = some gen ∧
    gen.children.length = 2 ∧ answer.results.length = 1
  := by
  have last : (exec (guarded step Regular) firstWithoutResult idleMap).bind (fun σ =>
      (σ.latest "map").map (fun gen => (gen.children.length,
        (σ.report (batchSucceeds 1 (some []))).toOption.map (·.2))))
      = some (2, some { allDone := true, accepted := true, results := [[]] }) := by
    decide
  obtain ⟨σ, reached, last⟩ := bind_eq_some_iff.mp last
  obtain ⟨gen, latest, last⟩ := map_eq_some_iff.mp last
  obtain ⟨two, last⟩ := Prod.mk.inj last
  obtain ⟨⟨after, answer⟩, taken, eq⟩ := map_eq_some_iff.mp last
  obtain rfl : answer = _ := eq
  exact ⟨σ, after, _, gen, Run.of_guarded reached, report_of_toOption taken, rfl, latest, two, rfl⟩

/-- The second of two batches is reported when the first one was: the barrier opens. -/
theorem secondBatch_opens :
  ∃ σ after answer gen, Run step Regular idleMap σ ∧
    σ.report (batchSucceeds 1 (some [])) = .ok (after, answer) ∧ answer.allDone = true ∧
    σ.latest "map" = some gen ∧ gen.lease.credentials = mapLease.credentials
  := by
  have last : (exec (guarded step Regular) firstWithoutResult idleMap).bind (fun σ =>
      (σ.report (batchSucceeds 1 (some []))).toOption.map (·.2))
      = some { allDone := true, accepted := true, results := [[]] } := by
    decide
  obtain ⟨σ, reached, last⟩ := bind_eq_some_iff.mp last
  obtain ⟨⟨after, answer⟩, taken, eq⟩ := map_eq_some_iff.mp last
  obtain rfl : answer = _ := eq
  have start : Start idleMap := ⟨by simp [idleMap], rfl, rfl, rfl⟩
  obtain ⟨done, -⟩ := expansion_barrier start (Run.of_guarded reached) (batchSucceeds 1 (some []))
    (report_of_toOption taken)
  obtain ⟨gen, latest, same, -⟩ := done rfl
  exact ⟨σ, after, _, gen, Run.of_guarded reached, report_of_toOption taken, rfl, latest, same⟩

end ExpansionHistory

end Xflow
