import Xflow.Engine.Completion

/-!
# The commits of an execution

An execution together with the requests of the commits that were applied to it.  In a graph without
groups these are one for each closed unit, in the order of the log, and the row of each node still
shows the status and the port of its commit (`Journaled`).
-/

namespace Xflow

open List Option Function

namespace Topology

/-- The commit that handling a task asks for, if it is not leased. -/
def taskRequest (g : Topology) (s : MemoryState) (task : Task) : Option CommitNodeRequest :=
  match task.type with
  | .nodeExec => (g.disabledRequest task).or (g.pinnedRequest (s.execution.any (·.testRun)) task)
  | .nodeSkip => some (g.skipRequest task)
  | _ => none

/-- The commit of a node that an action asks for. -/
def actionRequest (g : Topology) (a : Action) (σ : System) : Option CommitNodeRequest :=
  match a with
  | .deliver entryID _ =>
    (σ.store.outbox.find? (fun e => e.id = entryID ∧ e.availableAt = .now)).bind
      (fun e => g.taskRequest σ.store e.task)
  | .redeliver task _ => g.taskRequest σ.store task
  | .commitNode task key result => some (g.leasedRequest task key result)
  | .commitGroup .. => none
  | .cancelNode task i => g.cancelRequest σ.store task i

end Topology

/-- An execution with the requests of the commits applied to it. -/
structure Journal where
  system : System
  commits : List CommitNodeRequest

namespace Journal

open Xflow.System Xflow.Topology MemoryState Transition

/-- A step of the system; the request of an action that was applied is recorded. -/
def step (g : Topology) (a : Action) (J : Journal) : Option Journal :=
  (System.step g a J.system).map (fun τ =>
    { system := τ
      commits := J.commits ++
        if J.system.log.length < τ.log.length then (g.actionRequest a J.system).toList else [] })

/-- A runner reports that the execution fails only for a node that failed. -/
def FatalFails (a : Action) (_ : Journal) : Prop :=
  match a with
  | .commitNode _ _ result => result.fatal → result.status = .failed
  | _ => True

instance (a : Action) (J : Journal) : Decidable (FatalFails a J) := by
  unfold FatalFails
  split <;> infer_instance

variable {g : Graph} {s : MemoryState} {σ τ : System} {a : Action} {J K : Journal}

/-- The requests recorded are those of the log, and the rows of the nodes show them. -/
structure Journaled (g : Topology) (J : Journal) : Prop where
  accounted : Accounted g J.system.store J.system.issued J.system.log
  requests : ∀ req ∈ J.commits, g.EngineCommit req
  log : J.system.log = J.commits.map
    (fun req => ⟨g.nodeUnit req.nodeIdx, req.status = .failed, req.fatal⟩)
  rows : ∀ req ∈ J.commits,
    J.system.store.rowOutcome (g.nodeName req.nodeIdx) = some (req.status, req.port)
  fatal : ∀ req ∈ J.commits, req.fatal → req.status = .failed

/-! ### The commit of a step -/

/-- Handling a task applies nothing, or the commit that it asks for.  A commit that takes a port is
one of a node that is to be run. -/
theorem handle_commit {task : Task} {claim : Claim} (handles : g.Handles task) :
  (s.handle g task claim).2 = [] ∨
    ∃ req, g.taskRequest s task = some req ∧ s.handle g task claim = s.commit g req ∧
      g.EngineCommit req ∧ req.fatal = false ∧
      ((task.type = .nodeExec ∨ task.type = .subWorkflow) ∧ task.nodeIdx = req.nodeIdx ∨
        req.port = "")
  := by
  unfold Handles at handles
  unfold taskRequest
  fun_cases s.handle g task claim with
  | case2 _ type req found =>
    rw [type] at handles ⊢
    obtain ⟨status, output, rfl, final⟩ := intercept_cases found
    exact .inr ⟨_, found, rfl, engineCommit_interceptRequest handles.1 final, rfl,
      .inl ⟨.inl rfl, rfl⟩⟩
  | case5 _ type =>
    rw [type] at handles ⊢
    exact .inr ⟨_, rfl, rfl, engineCommit_skipRequest handles.1, rfl, .inr rfl⟩
  | _ => exact .inl rfl

variable {req : CommitNodeRequest} {row : NodeStatus × String}

theorem cancelRequest_mild {task : Task} {i : Int} (asked : g.cancelRequest s task i = some req) :
  req.fatal = false ∧ req.port = ""
  := by
  revert asked
  fun_cases g.cancelRequest s task i with
  | case3 =>
    rintro ⟨⟩
    exact ⟨rfl, rfl⟩
  | _ => exact nofun

attribute [local simp] System.after

/-- A step applies nothing, or commits the request its action asks for, which ends a node.  If that
takes a port, a task to run the node was handed out. -/
theorem step_commit (hgroups : g.groups = [])
    (accounted : Accounted g σ.store σ.issued σ.log)
    (next : System.step g a σ = some τ) :
  τ.log = σ.log ∨ ∃ req outbox, g.actionRequest a σ = some req ∧ g.EngineCommit req ∧
    (FatalFails a ⟨σ, []⟩ → req.fatal → req.status = .failed) ∧
    ((∃ task ∈ σ.issued, (task.type = .nodeExec ∨ task.type = .subWorkflow) ∧
      task.nodeIdx = req.nodeIdx) ∨ req.port = "") ∧
    (∀ e ∈ outbox, e ∈ (σ.store.commit g req).1.outbox) ∧
    τ = σ.after { (σ.store.commit g req).1 with outbox := outbox }
      (σ.store.commit g req).2
  := by
  cases a with
  | deliver entryID claim =>
    obtain ⟨e, found, rfl⟩ := map_eq_some_iff.mp next
    have issued := accounted.outbox e (mem_of_find?_eq_some found)
    rcases @handle_commit g σ.store e.task claim (accounted.handles _ issued) with
      nothing | ⟨req, asked, eq, engine, mild, origin⟩
    · left
      simp [nothing]
    · right
      refine ⟨req, (σ.store.commit g req).1.outbox.filter (fun x => x.id ≠ entryID), ?_,
        engine, by simp [mild], origin.imp_left fun runs => ⟨_, issued, runs⟩,
        fun e mem => (mem_filter.mp mem).1, ?_⟩
      · exact bind_eq_some_iff.mpr ⟨e, found, asked⟩
      · rw [eq]
  | redeliver task claim =>
    simp only [System.step] at next
    obtain ⟨issued, ⟨⟩⟩ := ite_none_right_eq_some.mp next
    rcases @handle_commit g σ.store task claim (accounted.handles _ issued) with
      nothing | ⟨req, asked, eq, engine, mild, origin⟩
    · left
      simp [nothing]
    · right
      refine ⟨req, (σ.store.commit g req).1.outbox, asked, engine, by simp [mild],
        origin.imp_left fun runs => ⟨_, issued, runs⟩, fun _ mem => mem, ?_⟩
      rw [eq]
  | commitNode task key result =>
    obtain ⟨cond, next⟩ := ite_none_right_eq_some.mp next
    obtain ⟨issued, type, status⟩ := cond
    obtain rfl := some.inj next
    right
    have terminal : result.status.isTerminal := by
      simp only [mem_cons, not_mem_nil, or_false] at status
      rcases status with status | status | status <;> rw [status] <;> rfl
    exact ⟨_, _, rfl, engineCommit_leasedRequest (accounted.node_unit issued type).1 terminal,
      fun reports => reports, .inl ⟨task, issued, type, rfl⟩, fun _ mem => mem, rfl⟩
  | commitGroup u key res order =>
    simp only [System.step] at next
    split at next
    · cases next
    · rename_i req ok
      have group := (engineGroupCommit_of_ok ok).1.kind
      rw [g.unitKindAt_eq_node hgroups] at group
      cases group
  | cancelNode task i =>
    obtain ⟨cond, next⟩ := ite_none_right_eq_some.mp next
    obtain ⟨req, asked, rfl⟩ := map_eq_some_iff.mp next
    right
    obtain ⟨engine, -, -⟩ :=
      engineCommit_cancelRequest (isDataNode_of_mem_cancelClosure cond.2.2) asked
    obtain ⟨mild, port⟩ := cancelRequest_mild asked
    exact ⟨req, _, asked, engine, by simp [mild], .inr port, fun _ mem => mem, rfl⟩

/-! ### Rows -/

/-- A row that is written was open before, so a row that is over stays. -/
theorem row_kept_of_write {t : MemoryState} {name name' : String} {row' : NodeStatus × String}
    (opened : (s.rowOutcome name').any (·.1.isTerminal) = false)
    (rows : t.rowOutcome = update s.rowOutcome name' (some row'))
    (at_row : s.rowOutcome name = some row) (terminal : row.1.isTerminal) :
  t.rowOutcome name = some row
  := by
  rw [rows, update_of_ne, at_row]
  rintro rfl
  rw [at_row, any_some, terminal] at opened
  cases opened

theorem row_kept (hacyc : g.allowCycles = false)
    (accounted : Accounted g σ.store σ.issued σ.log)
    (next : System.step g a σ = some τ) {name : String}
    (at_row : σ.store.rowOutcome name = some row) (terminal : row.1.isTerminal) :
  τ.store.rowOutcome name = some row
  := by
  obtain ⟨s, applied, keep, sub, move, rfl⟩ := step_moves accounted.handles next accounted.outbox
  change s.rowOutcome name = some row
  cases move with
  | stay => exact at_row
  | leaseNode task lease issued type named =>
    rw [hacyc]
    rcases @acquireTaskLeaseChecked_cases σ.store lease with same | ⟨opened, rows⟩
    · rwa [same]
    · exact row_kept_of_write opened rows at_row terminal
  | leaseGroup task leaseID leaseToken issued type =>
    obtain ⟨st, eq, -, -⟩ := σ.store.acquireGroupLease_cases
    rw [eq]
    exact at_row
  | commitNode req engine unit =>
    rcases commit_cases engine accounted.mild with ⟨-, same⟩ | ⟨b, applies⟩
    · rwa [same]
    · exact row_kept_of_write applies.opened applies.rowOutcome at_row terminal
  | commitGroup req engine =>
    rcases @commitGroup_cases σ.store req with same | ⟨b, st, applies⟩
    · rwa [same]
    · rwa [applies.eq, rowOutcome_congr applyArrivals_nodes, applies.rows]

/-! ### Runs -/

theorem Journaled.step (hacyc : g.allowCycles = false) (hgroups : g.groups = [])
    (h : Journaled g J) (reports : FatalFails a J)
    (next : Journal.step g a J = some K) :
  Journaled g K
  := by
  obtain ⟨τ, stepped, made⟩ := map_eq_some_iff.mp next
  have accounted := (accounted_step hacyc h.accounted stepped).1
  have kept {req : CommitNodeRequest} (mem : req ∈ J.commits) :=
    row_kept hacyc h.accounted stepped (h.rows req mem) (h.requests req mem).terminal
  have idle (same : τ.log = J.system.log) : Journaled g K := by
    rw [← made, if_neg (by rw [same]; omega), append_nil]
    exact ⟨accounted, h.requests, same.trans h.log, fun req mem => kept mem, h.fatal⟩
  rcases step_commit hgroups h.accounted stepped with
    same | ⟨req, outbox, asked, engine, fatal, -, -, eq⟩
  · exact idle same
  · rcases commit_cases engine h.accounted.mild with ⟨-, refused⟩ | ⟨b, applies⟩
    · exact idle (by simp [eq, refused])
    have log : τ.log = J.system.log ++
        [⟨g.nodeUnit req.nodeIdx, req.status = .failed, req.fatal⟩] := by
      simp [eq, applies.eq]
    have grew : J.system.log.length < τ.log.length := by simp [log]
    rw [← made, if_pos grew, asked, toList_some]
    constructor
    case accounted => exact accounted
    case requests =>
      rw [forall_mem_append, forall_mem_singleton]
      exact ⟨h.requests, engine⟩
    case log => rw [log, h.log, map_append, map_singleton]
    case rows =>
      rw [forall_mem_append, forall_mem_singleton]
      refine ⟨fun req mem => kept mem, ?_⟩
      rw [eq]
      exact (congrFun applies.rowOutcome _).trans (update_self ..)
    case fatal =>
      rw [forall_mem_append, forall_mem_singleton]
      exact ⟨h.fatal, fatal reports⟩

theorem journaled_run {begin : System} (hacyc : g.allowCycles = false) (hgroups : g.groups = [])
    (start : Starts g begin)
    (run : Run (Journal.step g) FatalFails ⟨begin, []⟩ J) :
  Journaled g J
  := by
  apply run.invariant (I := Journaled g)
  · constructor
    case accounted => apply accounted_of_starts hacyc start
    case log => apply log_of_starts start
    all_goals simp
  · intro a J K h reports next
    apply h.step hacyc hgroups reports next

theorem Journaled.exists_commit (hgroups : g.groups = []) (h : Journaled g J) {i : Int}
    (data : isDataNode g.nodes i)
    (at_row : J.system.store.rowOutcome (g.nodeName i) = some row) (terminal : row.1.isTerminal) :
  ∃ req ∈ J.commits, req.nodeIdx = i ∧ row = (req.status, req.port)
  := by
  have closed : Closed g J.system.store (g.nodeUnit i) := by
    refine .inl ⟨i, data, rfl, ?_⟩
    rw [at_row, any_some, terminal]
  rw [← h.accounted.closed, h.log, List.map_map] at closed
  obtain ⟨req, mem, same⟩ := mem_map.mp closed
  have idx : req.nodeIdx = i :=
    (nodeUnit_eq_iff (h.requests req mem).data data
      (g.unitKindAt_of_ungrouped hgroups (h.requests req mem).data)).mp same
  refine ⟨req, mem, idx, ?_⟩
  have shown := h.rows req mem
  rw [idx, at_row] at shown
  exact some.inj shown

end Journal

end Xflow
