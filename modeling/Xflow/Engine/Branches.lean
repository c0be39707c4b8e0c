import Xflow.Engine.Closure
import Xflow.Engine.Entry
import Xflow.Engine.Reproduction

/-!
# Giving up branches

An execution together with the deliveries of merge-cancel tasks that are under way.  A delivery goes
through the closure of its merge in order; for each node it reads the row and then commits, and
anything may happen before, between and after the two.  Meanwhile the rows of nodes that run change
as their runners claim them again, suspend, resume or wait for a child.
-/

namespace Xflow

open Function Journal List Option

/-- A delivery of a merge-cancel task: the nodes it has still to visit, and the commit it asks for
after it read a row. -/
structure Scan where
  task : Task
  rest : List Int
  asked : Option CommitNodeRequest

/-- An execution and the deliveries of merge-cancel tasks under way. -/
structure Branching where
  system : System
  scans : List Scan

namespace Branching

/-- What can happen to an execution whose merges give up branches. -/
inductive Action where
  /-- A task is delivered or a runner reports. -/
  | act (a : Xflow.Action)
  /-- The row of a node that is not committed changes. -/
  | tend (nodeName : String) (row : NodeSnapshot)
  /-- `handleMergeCancelTask` begins. -/
  | enter (task : Task)
  /-- A delivery reads the row of its next node. -/
  | read (k : Nat)
  /-- A delivery commits the node it has read. -/
  | commit (k : Nat)

/-- Take a step, if the action is enabled. -/
def step (g : Topology) : Action → Branching → Option Branching
  | .act (.cancelNode ..), _ => none
  | .act a, B => (System.step g a B.system).map (fun σ => { B with system := σ })
  | .tend name row, B =>
    if (B.system.store.nodes name).any (fun n => ¬ n.status.isTerminal) ∧ ¬ row.status.isTerminal
    then some { B with
      system := B.system.after
        { B.system.store with nodes := update B.system.store.nodes name (some row) } [] }
    else none
  | .enter task, B =>
    if task ∈ B.system.issued ∧ task.type = .mergeCancel ∧ B.system.store.isActive
    then some { B with scans := B.scans ++ [⟨task, g.cancelClosure task.nodeIdx, none⟩] }
    else none
  | .read k, B =>
    match B.scans[k]? with
    | some ⟨task, i :: rest, none⟩ =>
      some { B with scans := B.scans.set k ⟨task, rest, g.cancelRequest B.system.store task i⟩ }
    | _ => none
  | .commit k, B =>
    match B.scans[k]? with
    | some ⟨task, rest, some req⟩ =>
      let (s, applied) := B.system.store.commit g req
      some { system := B.system.after s applied, scans := B.scans.set k ⟨task, rest, none⟩ }
    | _ => none

open Xflow.System Xflow.Topology MemoryState Transition

variable {g : Graph} {s t : MemoryState} {issued : List Task} {log : List AppliedCommit}
  {B C : Branching} {a : Action}

/-! ### What a step does -/

/-- The commit asks to cancel a node of the closure. -/
def Cancels (g : Topology) (merge : Int) (req : CommitNodeRequest) : Prop :=
  ∃ s task i, i ∈ g.cancelClosure merge ∧ g.cancelRequest s task i = some req

/-- A delivery visits nodes of the closure and asks to cancel them. -/
structure Scan.Sound (g : Topology) (scan : Scan) : Prop where
  rest : scan.rest ⊆ g.cancelClosure scan.task.nodeIdx
  asked : ∀ req, scan.asked = some req → Cancels g scan.task.nodeIdx req

/-- A task to run the node was handed out. -/
def Runs (issued : List Task) (i : Int) : Prop :=
  ∃ task ∈ issued, (task.type = .nodeExec ∨ task.type = .subWorkflow) ∧ task.nodeIdx = i

instance (issued : List Task) (i : Int) : Decidable (Runs issued i) :=
  inferInstanceAs (Decidable (∃ _ ∈ _, _))

/-- What a step does to the store of an execution without groups.  A commit that takes an active
port is one of a node that was handed out to be run. -/
inductive Turn (g : Topology) (issued : List Task) (s : MemoryState) :
    MemoryState → List AppliedCommit → Prop where
  | stay : Turn g issued s s []
  | lease (lease : TaskLease) (given : lease.task ∈ issued)
      (type : lease.task.type = .nodeExec ∨ lease.task.type = .subWorkflow) :
      Turn g issued s (s.acquireTaskLeaseChecked lease g.allowCycles).1 []
  | tend (name : String) (row : NodeSnapshot)
      (live : (s.nodes name).any (fun n => ¬ n.status.isTerminal))
      (stays : row.status.isTerminal = false) :
      Turn g issued s { s with nodes := update s.nodes name (some row) } []
  | commit (req : CommitNodeRequest) (engine : g.EngineCommit req)
      (origin : Runs issued req.nodeIdx ∨ req.port = "") :
      Turn g issued s (s.commit g req).1 (s.commit g req).2

variable {req : CommitNodeRequest}

theorem turn_of_step {a : Xflow.Action} {σ τ : System} (hgroups : g.groups = [])
    (accounted : Accounted g σ.store σ.issued σ.log)
    (next : System.step g a σ = some τ) :
  ∃ s applied outbox, Turn g σ.issued σ.store s applied ∧
    (∀ e ∈ outbox, e ∈ s.outbox) ∧ τ = σ.after { s with outbox := outbox } applied
  := by
  rcases step_commit hgroups accounted next with
    same | ⟨req, outbox, -, engine, -, origin, sub, eq⟩
  · -- nothing is applied, so the transition is no commit
    obtain ⟨s, applied, keep, sub, move, rfl⟩ := step_moves accounted.handles next accounted.outbox
    have nothing : applied = [] := by
      simpa [System.after] using same
    subst nothing
    refine ⟨s, [], s.outbox.filter keep, ?_, fun e mem => (mem_filter.mp mem).1, rfl⟩
    have ungrouped (u : Int) : g.unitKindAt u ≠ .group := by
      rw [g.unitKindAt_eq_node hgroups]
      simp
    generalize done : ([] : List AppliedCommit) = applied at move
    cases move with
    | stay => exact .stay
    | leaseNode task lease given type named =>
      subst named
      exact .lease lease (sub given) type
    | leaseGroup task leaseID leaseToken given type =>
      exact absurd (accounted.group_unit (sub given) type).2 (ungrouped _)
    | commitNode req engine unit =>
      rcases commit_cases engine accounted.mild with ⟨-, same⟩ | ⟨b, applies⟩
      · rw [same]
        exact .stay
      · rw [applies.eq] at done
        cases done
    | commitGroup req engine => exact absurd engine.kind (ungrouped _)
  · exact ⟨_, _, outbox, .commit req engine origin, sub, eq⟩

theorem Cancels.engine {merge : Int} (h : Cancels g merge req) :
  g.EngineCommit req ∧ req.port = "" ∧ req.nodeIdx ∈ g.cancelClosure merge
  := by
  obtain ⟨s, task, i, mem, asked⟩ := h
  obtain ⟨engine, index, -⟩ :=
    engineCommit_cancelRequest (isDataNode_of_mem_cancelClosure mem) asked
  refine ⟨engine, (cancelRequest_mild asked).2, ?_⟩
  rwa [index]

/-- What a step does: the deliveries stay sound, and the execution stays as it is or makes a turn,
after which intents may be removed. -/
theorem turn_of_branching (hgroups : g.groups = [])
    (accounted : Accounted g B.system.store B.system.issued B.system.log)
    (sound : ∀ scan ∈ B.scans, Scan.Sound g scan)
    (next : step g a B = some C) :
  (∀ scan ∈ C.scans, Scan.Sound g scan) ∧
    (C.system = B.system ∨ ∃ s applied outbox,
      Turn g B.system.issued B.system.store s applied ∧
      (∀ e ∈ outbox, e ∈ s.outbox) ∧ C.system = B.system.after { s with outbox := outbox } applied)
  := by
  -- a delivery that goes on replaces its own entry
  have replaced {k : Nat} {scan : Scan} (fine : Scan.Sound g scan) :
      ∀ x ∈ B.scans.set k scan, Scan.Sound g x := by grind
  revert next
  fun_cases step g a B with
  | case2 a =>
    intro next
    obtain ⟨τ, stepped, rfl⟩ := map_eq_some_iff.mp next
    exact ⟨sound, .inr (turn_of_step hgroups accounted stepped)⟩
  | case3 name row _ cond =>
    rintro ⟨⟩
    refine ⟨sound, .inr ⟨_, _, _, .tend name row cond.1 ?_, fun _ mem => mem, rfl⟩⟩
    simpa using cond.2
  | case5 task =>
    rintro ⟨⟩
    refine ⟨?_, .inl rfl⟩
    intro scan mem
    rcases mem_append.mp mem with old | new
    · exact sound scan old
    · rw [mem_singleton.mp new]
      exact ⟨fun _ mem => mem, fun _ none => by cases none⟩
  | case7 k _ task i rest found =>
    rintro ⟨⟩
    have fine := sound _ (mem_of_getElem? found)
    have visits := cons_subset.mp fine.rest
    exact ⟨replaced ⟨visits.2, fun req asked => ⟨_, task, i, visits.1, asked⟩⟩, .inl rfl⟩
  | case9 k _ task rest req found s applied commits =>
    rintro ⟨⟩
    have fine := sound _ (mem_of_getElem? found)
    obtain ⟨engine, port, -⟩ := (fine.asked req rfl).engine
    have turn := @Turn.commit g B.system.issued B.system.store req engine (.inr port)
    rw [commits] at turn
    exact ⟨replaced ⟨fine.rest, fun _ none => by cases none⟩,
      .inr ⟨_, _, _, turn, fun _ mem => mem, rfl⟩⟩
  | _ => exact nofun

/-! ### Rows that change -/

section

variable {name : String} {row : NodeSnapshot}
  (live : (s.nodes name).any (fun n => ¬ n.status.isTerminal))
  (stays : row.status.isTerminal = false)

theorem begun_tend {u : Int} (h : Begun g s u) :
  Begun g { s with nodes := update s.nodes name (some row) } u
  := by
  rcases h with ⟨i, hi, unit, some⟩ | record
  · left
    refine ⟨i, hi, unit, ?_⟩
    rw [rowOutcome] at some ⊢
    grind
  · right
    exact record

include live stays

theorem terminal_tend (other : String) :
  (({ s with nodes := update s.nodes name (some row) } : MemoryState).rowOutcome other).any
      (·.1.isTerminal)
    = (s.rowOutcome other).any (·.1.isTerminal)
  := by
  rw [rowOutcome, rowOutcome, Option.any_map, Option.any_map]
  dsimp only
  by_cases here : other = name
  · subst here
    cases found : s.nodes other with
    | none => simp [found] at live
    | some current =>
      simp only [found, any_some, decide_eq_true_eq] at live
      simp [stays, live]
  · rw [update_of_ne here]

theorem closed_tend (u : Int) :
  Closed g { s with nodes := update s.nodes name (some row) } u
    ↔ Closed g s u
  := by
  unfold Closed
  simp [terminal_tend live stays]

theorem Accounted.tend (hgroups : g.groups = []) (h : Accounted g s issued log) :
  Accounts g s { s with nodes := update s.nodes name (some row) } issued log []
  := by
  refine ⟨schedules_of_eq rfl rfl rfl, ⟨?_, h.records⟩, ?_, .inl rfl⟩
  · intro i _ group
    rw [g.unitKindAt_eq_node hgroups] at group
    cases group
  · rw [append_nil]
    refine { h.toLedger with closed := ?_ }
    intro u
    rw [h.closed, closed_tend live stays]

theorem Pending.tend (h : Pending g s log) :
  Pending g { s with nodes := update s.nodes name (some row) } log
  := by
  refine ⟨⟨?_, h.counts_le, h.due⟩, h.ids, h.labels, ?_⟩
  · intro d opened
    rw [closed_tend live stays] at opened
    exact h.counts d opened
  · intro d opened mark
    rw [closed_tend live stays] at opened
    exact (h.pending d opened mark).imp_left begun_tend

end

/-! ### Runs -/

theorem Turn.accounts (hacyc : g.allowCycles = false) (hgroups : g.groups = [])
    (h : Accounted g s issued log) {applied : List AppliedCommit}
    (turn : Turn g issued s t applied) :
  Accounts g s t issued log applied
  := by
  cases turn with
  | stay => exact h.stay
  | lease lease given type =>
    rw [hacyc]
    exact h.leaseNode given type
  | tend name row live stays => exact Accounted.tend live stays hgroups h
  | commit req engine origin =>
    exact h.commitNode hacyc engine (.inl (g.unitKindAt_eq_node hgroups _))

theorem skipsCovered_of_ungrouped (hgroups : g.groups = []) (a : Xflow.Action) (σ : System) :
  SkipsCovered g a σ
  := by
  intro task _ _ group
  rw [g.unitKindAt_eq_node hgroups] at group
  cases group

/-- What holds in every state: the accounts are in order, the deliveries are sound, and a running
execution has all it needs. -/
structure Held (g : Topology) (B : Branching) : Prop where
  accounted : Accounted g B.system.store B.system.issued B.system.log
  scans : ∀ scan ∈ B.scans, Scan.Sound g scan
  pending : B.system.store.status? = some .running → Pending g B.system.store B.system.log

theorem Pending.branching (hacyc : g.allowCycles = false) (hgroups : g.groups = [])
    (held : Held g B) (next : step g a B = some C)
    (before : B.system.store.status? = some .running)
    (after : C.system.store.status? = some .running) :
  Pending g C.system.store C.system.log
  := by
  have pending := held.pending before
  revert next
  fun_cases step g a B with
  | case2 a =>
    intro next
    obtain ⟨τ, stepped, rfl⟩ := map_eq_some_iff.mp next
    exact pending.step hacyc held.accounted (skipsCovered_of_ungrouped hgroups _ _) before stepped
      after
  | case3 name row _ cond =>
    rintro ⟨⟩
    simp only [System.after, append_nil]
    apply Pending.tend cond.1 _ pending
    simpa using cond.2
  | case5 | case7 =>
    rintro ⟨⟩
    exact pending
  | case9 k _ task rest req found s applied commits =>
    rintro ⟨⟩
    obtain ⟨engine, -, -⟩ := ((held.scans _ (mem_of_getElem? found)).asked req rfl).engine
    have move := @Move.commitNode g [] B.system.store req engine
      (.inl (g.unitKindAt_eq_node hgroups _))
    rw [commits] at move
    exact pending.move hacyc held.accounted (nil_subset _) (by simp) move before after
  | _ => exact nofun

theorem Held.step (hacyc : g.allowCycles = false) (hgroups : g.groups = [])
    (held : Held g B) (next : step g a B = some C) :
  Held g C
  := by
  obtain ⟨sound, turns⟩ := turn_of_branching hgroups held.accounted held.scans next
  rcases turns with same | ⟨s, applied, outbox, turn, sub, eq⟩
  · refine ⟨?_, sound, ?_⟩
    · rw [same]
      exact held.accounted
    · rw [same]
      exact held.pending
  · have accounts := turn.accounts hacyc hgroups held.accounted
    have accounted := held.accounted.after accounts sub
    rw [← eq] at accounted
    refine ⟨accounted, sound, ?_⟩
    intro after
    apply Pending.branching hacyc hgroups held next _ after
    -- an execution that is over stays so
    have grows : C.system.log = B.system.log ∨
        ledgerStatus g B.system.log = .running ∧ ∃ c, C.system.log = B.system.log ++ [c] := by
      rw [eq]
      rcases accounts.applied with rfl | ⟨running, c, rfl⟩
      · exact .inl (append_nil _)
      · exact .inr ⟨running, c, rfl⟩
    rcases held.accounted.countsCommit accounted grows with ⟨-, same, -⟩ | ⟨before, -⟩
    · rw [← same, after]
    · exact before

end Branching

end Xflow
