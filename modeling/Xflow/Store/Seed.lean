import Xflow.Store.Settle

/-!
# Seeding an execution in the local store

`SeedExecution` creates an execution around units whose outcome is already decided.  Every resolved
unit is written as terminal and marked before any arrival is applied, so that the arrivals of one
resolved unit schedule no other; then all arrivals are applied as those of commits are.
-/

namespace Xflow

open List Function

/-- A unit that a seed records as resolved. -/
structure SeedUnit where
  unitIdx : Int
  nodeName : String
  nodeIdx : Int
  status : NodeStatus
  port : String := ""
  output : Option Data := none
  privateOutput : Bool
  downstream : List DownstreamArrival
  deriving Inhabited

/-- Why a seed is refused: a unit is neither successful nor skipped. -/
inductive SeedError where
  | unitStatus (nodeName : String) (status : NodeStatus)
  deriving DecidableEq

namespace MemoryState

variable {s : MemoryState} {unit : SeedUnit} {units : List SeedUnit}

/-- The row of a resolved unit. -/
def seedRow (unit : SeedUnit) (privateOutput : Bool) : NodeSnapshot where
  nodeIdx := unit.nodeIdx
  unitIdx := unit.unitIdx
  status := unit.status
  attempt := 0
  activationID := 0
  output := if privateOutput then none else unit.output
  privateOutput := privateOutput
  port := unit.port

/-- Record a resolved unit and mark it.  Its output is stored also when it is private. -/
def resolveUnit (s : MemoryState) (unit : SeedUnit) : MemoryState :=
  let kept := s.preserveOutputPrivacy unit.nodeName unit.privateOutput
  { kept.1 with
    nodes := Function.update kept.1.nodes unit.nodeName (some (seedRow unit kept.2))
    outputs := Function.update kept.1.outputs unit.nodeName unit.output
    scheduled := Function.update kept.1.scheduled unit.unitIdx .seed }

/-- Apply the arrivals of the resolved units, unit by unit; reports the units that were skipped. -/
def applyDownstream : List SeedUnit → MemoryState → MemoryState × List SkippedUnit
  | [], s => (s, [])
  | unit :: units, s =>
    let (s, _, skipped) := applyArrivals 0 0 unit.downstream s
    let (s, rest) := applyDownstream units s
    (s, skipped ++ rest)

/-- `holdOutboxLocked`: the intents that are deliverable are held. -/
def holdOutbox (s : MemoryState) : MemoryState :=
  { s with
    outbox := s.outbox.map (fun e =>
      if e.availableAt = .now then { e with availableAt := .held } else e) }

/-- An execution in the queue of its workflow is created queued. -/
def seedStatus : SlotPlace → ExecutionStatus
  | .queued _ => .queued
  | _ => .running

/-- The execution with all units resolved and counted, before any arrival. -/
def seedPrefix (g : Topology) (id : String) (testRun : Bool) (slot : SlotPlace)
    (units : List SeedUnit) : MemoryState :=
  let s := units.foldl resolveUnit
    (createExecution g id { status := seedStatus slot, testRun := testRun } slot)
  if g.allowCycles then s else { s with remaining := s.remaining - units.length }

/-- An execution with nothing left to run completes. -/
def finishSeed (g : Topology) (s : MemoryState) : MemoryState :=
  if g.allowCycles = false ∧ s.remaining ≤ 0
  then s.finishExecution (if 0 < s.failed then .failed else .success) "" else s

/-- `seedExecution`: create an execution around resolved units, with the place that its admission
got in the slot of its workflow.  Reports the units that the arrivals skip. -/
def seedExecution (g : Topology) (id : String) (testRun : Bool) (slot : SlotPlace)
    (units : List SeedUnit) (entries : List OutboxEntry) :
    Except SeedError (MemoryState × List SkippedUnit) :=
  match units.find? (fun unit => unit.status ≠ .success ∧ unit.status ≠ .skipped) with
  | some unit => .error (.unitStatus unit.nodeName unit.status)
  | none =>
    let (s, skipped) := applyDownstream units (seedPrefix g id testRun slot units)
    let s := finishSeed g (writeInitialIntents entries false s)
    .ok (if s.status? = some .queued then s.holdOutbox else s, skipped)

/-! ### Resolving -/

theorem resolveUnit_rowOutcome :
  (s.resolveUnit unit).rowOutcome
    = Function.update s.rowOutcome unit.nodeName (some (unit.status, unit.port))
  := by
  funext name
  by_cases self : name = unit.nodeName
  · subst self
    simp [rowOutcome, resolveUnit, seedRow]
  · simp only [rowOutcome, resolveUnit, update_of_ne self]
    rw [preserveOutputPrivacy_nodes_of_ne self]

theorem resolveUnit_frame :
  s.resolveUnit unit =
    { s with
      nodes := (s.resolveUnit unit).nodes
      outputs := (s.resolveUnit unit).outputs
      privateOutputs := (s.resolveUnit unit).privateOutputs
      scheduled := (s.resolveUnit unit).scheduled }
  := by
  simp only [resolveUnit]
  rw [preserveOutputPrivacy_frame]

theorem foldl_resolveUnit_frame :
  units.foldl resolveUnit s =
    { s with
      nodes := (units.foldl resolveUnit s).nodes
      outputs := (units.foldl resolveUnit s).outputs
      privateOutputs := (units.foldl resolveUnit s).privateOutputs
      scheduled := (units.foldl resolveUnit s).scheduled }
  := by
  induction units generalizing s with
  | nil => rfl
  | cons unit units ih =>
    rw [foldl_cons, ih, resolveUnit_frame]

theorem foldl_resolveUnit_scheduled (d : Int) :
  (units.foldl resolveUnit s).scheduled d
    = if d ∈ units.map (·.unitIdx) then .seed else s.scheduled d
  := by
  induction units generalizing s with
  | nil => simp
  | cons unit units ih =>
    have first : (s.resolveUnit unit).scheduled
        = Function.update s.scheduled unit.unitIdx .seed := by
      rw [resolveUnit, preserveOutputPrivacy_frame]
    rw [foldl_cons, ih, first, map_cons]
    grind

theorem foldl_resolveUnit_rowOutcome (names : (units.map (·.nodeName)).Nodup) (name : String) :
  (∀ unit ∈ units, unit.nodeName = name →
      (units.foldl resolveUnit s).rowOutcome name = some (unit.status, unit.port)) ∧
    (name ∉ units.map (·.nodeName) →
      (units.foldl resolveUnit s).rowOutcome name = s.rowOutcome name)
  := by
  induction units generalizing s with
  | nil => simp
  | cons unit units ih =>
    rw [map_cons, nodup_cons] at names
    obtain ⟨resolved, kept⟩ := ih (s := s.resolveUnit unit) names.2
    constructor
    · intro one mem named
      obtain rfl | mem := mem_cons.mp mem
      · rw [foldl_cons, kept (named ▸ names.1), resolveUnit_rowOutcome, named, update_self]
      · exact resolved one mem named
    · intro absent
      rw [map_cons, mem_cons, not_or] at absent
      rw [foldl_cons, kept absent.2, resolveUnit_rowOutcome, update_of_ne absent.1]

/-! ### Arrivals -/

theorem applyDownstream_fst :
  (applyDownstream units s).1 = (applyArrivals 0 0 (units.flatMap (·.downstream)) s).1
  := by
  induction units generalizing s with
  | nil => rfl
  | cons unit units ih =>
    rw [flatMap_cons, applyArrivals_fst, foldl_append, ← applyArrivals_fst,
      ← applyArrivals_fst, ← ih]
    rfl

/-! ### Promotion -/

theorem holdOutbox_tasks :
  s.holdOutbox.outbox.map (·.task) = s.outbox.map (·.task)
  := by
  simp only [holdOutbox, map_map]
  apply map_congr_left
  intro e _
  simp only [comp_apply]
  split <;> rfl

theorem promote_holdOutbox {deadline : Option Nat} {snap : ExecutionSnapshot}
    (place : s.slot = .queued deadline) (exec : s.execution = some snap)
    (queued : snap.status = .queued) (ready : ∀ e ∈ s.outbox, e.availableAt = .now) :
  s.holdOutbox.promote
    = { s with slot := .holder, execution := some { snap with status := .running } }
  := by
  have outbox : s.outbox.map ((fun e : OutboxEntry =>
      if e.availableAt = .held then { e with availableAt := .now } else e) ∘ fun e =>
      if e.availableAt = .now then { e with availableAt := .held } else e) = s.outbox := by
    nth_rewrite 2 [← map_id s.outbox]
    apply map_congr_left
    intro e he
    simp [← ready e he]
  simp [promote, holdOutbox, place, completePromotion, exec, queued, outbox]

end MemoryState

end Xflow
