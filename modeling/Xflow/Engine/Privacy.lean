import Xflow.Engine.Admission
import Xflow.Store.Fence

/-!
# Private outputs

The output of a private node stays in the store, for the nodes that read it, but no public read
shows it.  The store keeps a mark for each node whose output is private; every transition that
rebuilds the row of a node or writes an output asks for the mark first, and none takes a mark away.

Rows, outputs and marks are kept under the identifier of the execution and the name of the node,
joined by a slash, so that two executions may share a record.  The other records of an execution are
part of a call here: whatever they are, the marks stay.
-/

namespace Xflow

open EntryState Function List

namespace MemoryState

variable {s t : MemoryState}

/-! ### Further writes -/

/-- `upsertNodeLocked`: write a row, unless the node is over or past it.  The mark is written in any
case.  Reports whether the row was written. -/
def upsertNode (s : MemoryState) (name : String) (row : NodeSnapshot) : MemoryState × Bool :=
  let kept := s.preserveOutputPrivacy name row.privateOutput
  if (kept.1.nodes name).any (fun existing =>
      (existing.status.isTerminal ∧ row.activationID ≤ existing.activationID) ∨
      ((existing.status = .committing ∨ existing.status = .waiting) ∧ row.status = .running))
  then (kept.1, false)
  else (s.rewriteRow name row row.privateOutput, true)

/-- `CancelSuspendedNode`, as far as the row is concerned. -/
def cancelSuspendedNode (s : MemoryState) (name : String) : MemoryState × Bool :=
  match s.nodes name with
  | none => (s, false)
  | some row =>
    if row.status ≠ .suspended then (s, false)
    else (s.rewriteRow name { row with status := .canceled } row.privateOutput, true)

def putOutput (s : MemoryState) (name : String) (data : Option Data) : MemoryState :=
  let kept := (s.preserveOutputPrivacy name false).1
  { kept with outputs := update kept.outputs name data }

/-- `seedExecution` on records that may be there already. -/
def reseedExecution (s : MemoryState) (g : Topology) (testRun : Bool) (slot : SlotPlace)
    (units : List SeedUnit) (entries : List OutboxEntry) :
    Except SeedError (MemoryState × List SkippedUnit) :=
  match units.find? (fun unit => unit.status ≠ .success ∧ unit.status ≠ .skipped) with
  | some unit => .error (.unitStatus unit.nodeName unit.status)
  | none =>
    let s := units.foldl resolveUnit (EntryState.createExecution (some g)
      { status := seedStatus slot, testRun := testRun } { s with slot := slot })
    let s := if g.allowCycles then s else { s with remaining := s.remaining - units.length }
    let (s, skipped) := applyDownstream units s
    let s := finishSeed g (writeInitialIntents entries false s)
    .ok (if s.status? = some .queued then s.holdOutbox else s, skipped)

variable {req : CommitNodeRequest} {entries : List OutboxEntry} {units : List SeedUnit}
  {g : Topology} {slot : SlotPlace} {u : MemoryState} {testRun : Bool}

theorem reseedExecution_new {id : String} :
  reseedExecution { id := id } g testRun slot units entries
    = seedExecution g id testRun slot units entries
  := by
  have degrees : (fun u => if g.isUnit u then g.unitInDegreeAt u else 0) = g.unitInDegreeAt := by
    funext u
    split
    · rfl
    · rename_i none
      rw [g.unitInDegreeAt_of_not_isUnit none]
  have create : EntryState.createExecution (some g)
      { status := seedStatus slot, testRun := testRun } { id := id, slot := slot }
      = createExecution g id { status := seedStatus slot, testRun := testRun } slot := by
    simp only [EntryState.createExecution, createExecution, degrees, ite_self]
  unfold reseedExecution
  rewrite [create]
  rfl

/-! ### Marks -/

/-- What is private stays private. -/
def KeepsPrivate (s t : MemoryState) : Prop :=
  ∀ name, s.outputIsPrivate name → t.outputIsPrivate name

theorem KeepsPrivate.refl :
  KeepsPrivate s s
  := by
  intro name marked
  exact marked

theorem KeepsPrivate.trans (first : KeepsPrivate s t) (second : KeepsPrivate t u) :
  KeepsPrivate s u
  := by
  intro name marked
  exact second name (first name marked)

/-- The rows and the marks are the same. -/
def SameRows (s t : MemoryState) : Prop :=
  t.nodes = s.nodes ∧ t.privateOutputs = s.privateOutputs

theorem SameRows.refl :
  SameRows s s
  := by
  exact ⟨rfl, rfl⟩

theorem SameRows.trans (first : SameRows s t) (second : SameRows t u) :
  SameRows s u
  := by
  exact ⟨second.1.trans first.1, second.2.trans first.2⟩

theorem SameRows.outputIsPrivate (same : SameRows s t) (name : String) :
  t.outputIsPrivate name = s.outputIsPrivate name
  := by
  unfold MemoryState.outputIsPrivate
  rw [same.1, same.2]

theorem SameRows.keeps (same : SameRows s t) :
  KeepsPrivate s t
  := by
  intro name marked
  rwa [same.outputIsPrivate]

theorem outputIsPrivate_preserve {name : String} {requested : Bool} (other : String) :
  (s.preserveOutputPrivacy name requested).1.outputIsPrivate other
    = (s.outputIsPrivate other || (decide (other = name) && requested))
  := by
  by_cases same : other = name
  · subst same
    by_cases asked : (requested || s.outputIsPrivate other) = true
    · rw [decide_eq_true rfl, Bool.true_and, Bool.or_comm, asked]
      unfold preserveOutputPrivacy
      rw [if_pos asked]
      simp [outputIsPrivate]
    · simp_all [preserveOutputPrivacy]
  · unfold preserveOutputPrivacy
    split <;> simp [outputIsPrivate, same]

/-- A transition that asks for the mark of a node and then writes its row with the answer. -/
structure Writes (name : String) (requested : Bool) (s t : MemoryState) : Prop where
  row : ∃ row, row.privateOutput = (s.preserveOutputPrivacy name requested).2 ∧
    t.nodes = update (s.preserveOutputPrivacy name requested).1.nodes name (some row)
  marks : t.privateOutputs = (s.preserveOutputPrivacy name requested).1.privateOutputs

variable {name : String} {requested : Bool} {row : NodeSnapshot}

theorem Writes.outputIsPrivate (writes : Writes name requested s t) (other : String) :
  t.outputIsPrivate other = (s.outputIsPrivate other || (decide (other = name) && requested))
  := by
  obtain ⟨row, flag, nodes⟩ := writes.row
  rw [← outputIsPrivate_preserve]
  by_cases same : other = name
  · subst same
    have answer : (s.preserveOutputPrivacy other requested).2
        = (s.preserveOutputPrivacy other requested).1.outputIsPrivate other := by
      rw [preserveOutputPrivacy_snd, outputIsPrivate_preserve, Bool.or_comm]
      simp
    simp only [outputIsPrivate, nodes, writes.marks, update_self, Option.any_some, flag]
    rw [answer, outputIsPrivate]
    cases (s.preserveOutputPrivacy other requested).1.privateOutputs other <;> simp
  · simp [MemoryState.outputIsPrivate, nodes, writes.marks, update_of_ne same]

theorem Writes.keeps (writes : Writes name requested s t) :
  KeepsPrivate s t
  := by
  intro other marked
  rw [writes.outputIsPrivate, marked, Bool.true_or]

theorem keepsPrivate_preserve :
  KeepsPrivate s (s.preserveOutputPrivacy name requested).1
  := by
  intro other marked
  rw [outputIsPrivate_preserve, marked, Bool.true_or]

/-! ### Rows of nodes -/

theorem writes_rewriteRow :
  Writes name requested s (s.rewriteRow name row requested)
  := by
  constructor
  case row => exact ⟨_, rfl, rfl⟩
  case marks => rfl

theorem writes_writeNode :
  Writes req.nodeName req.privateOutput s (s.writeNode req)
  := by
  constructor
  case row => exact ⟨_, rfl, rfl⟩
  case marks => rfl

theorem writes_resolveUnit {unit : SeedUnit} :
  Writes unit.nodeName unit.privateOutput s (s.resolveUnit unit)
  := by
  constructor
  case row => exact ⟨_, rfl, rfl⟩
  case marks => rfl

variable {lease : TaskLease}

theorem keepsPrivate_acquireTaskLeaseChecked {allowCycles : Bool} :
  KeepsPrivate s (s.acquireTaskLeaseChecked lease allowCycles).1
  := by
  rcases @acquireTaskLeaseChecked_or s lease allowCycles with eq | ⟨-, -, -, eq⟩
  · rw [eq]
    exact .refl
  · have writes : Writes lease.task.nodeName false s
        (s.acquireTaskLeaseChecked lease allowCycles).1 := by
      rw [eq]
      exact ⟨⟨_, rfl, rfl⟩, rfl⟩
    exact writes.keeps

theorem keepsPrivate_upsertNode :
  KeepsPrivate s (s.upsertNode name row).1
  := by
  unfold upsertNode
  dsimp only
  split
  · exact keepsPrivate_preserve
  · exact writes_rewriteRow.keeps

theorem keepsPrivate_cancelSuspendedNode :
  KeepsPrivate s (s.cancelSuspendedNode name).1
  := by
  unfold cancelSuspendedNode
  repeat' split
  all_goals first
    | exact .refl
    | exact writes_rewriteRow.keeps

theorem keepsPrivate_putOutput {data : Option Data} :
  KeepsPrivate s (s.putOutput name data)
  := by
  exact keepsPrivate_preserve.trans (SameRows.keeps ⟨rfl, rfl⟩)

/-! ### Commits -/

theorem sameRows_finishExecution {status : ExecutionStatus} {errMsg : String} :
  SameRows s (s.finishExecution status errMsg)
  := by
  rw [finishExecution_frame]
  exact ⟨rfl, rfl⟩

theorem sameRows_applyArrivals {act depth : Int} {arrivals : List DownstreamArrival} :
  SameRows s (applyArrivals act depth arrivals s).1
  := by
  rw [applyArrivals_frame]
  exact ⟨rfl, rfl⟩

theorem sameRows_settleUnit {failed fatal : Bool} {error : String} :
  SameRows s (s.settleUnit failed fatal error).1
  := by
  unfold settleUnit
  dsimp only
  split
  · exact .trans ⟨rfl, rfl⟩ sameRows_finishExecution
  · exact ⟨rfl, rfl⟩

theorem sameRows_commitNodeLocked (accepted : s.commitVerdict req = .accepted) :
  SameRows (s.writeNode req) (s.commitNodeLocked req).1
  :=
  commitNodeLocked_induction (P := SameRows (s.writeNode req)) accepted .refl (fun _ _ h => h)
    (fun _ _ _ same => same.trans sameRows_finishExecution) (fun _ _ h => h)
    (fun _ same => same.trans sameRows_applyArrivals)

theorem keepsPrivate_commitNodeLocked :
  KeepsPrivate s (s.commitNodeLocked req).1
  := by
  by_cases accepted : s.commitVerdict req = .accepted
  · exact writes_writeNode.keeps.trans (sameRows_commitNodeLocked accepted).keeps
  · rw [commitNodeLocked_of_refused accepted]
    exact .refl

/-! ### Groups -/

theorem outputIsPrivate_writeExits {exits : List GroupExitResult} (other : String) :
  (writeExits exits s).outputIsPrivate other ↔
    s.outputIsPrivate other ∨ ∃ ex ∈ exits, ex.nodeName = other ∧ ex.privateOutput
  := by
  induction exits generalizing s with
  | nil => simp [writeExits]
  | cons ex exits ih =>
    have here : (s.writeExit ex).outputIsPrivate other = _ := outputIsPrivate_preserve other
    rw [writeExits_cons, ih, here, exists_mem_cons_iff, ← or_assoc]
    simp [@eq_comm _ other]

theorem sameRows_commitGroupLocked {req : GroupCommitRequest}
    (accepted : s.groupVerdict req = .accepted) :
  SameRows (writeExits req.exits s) (s.commitGroupLocked req).1
  := by
  simp only [commitGroupLocked, accepted]
  have done : SameRows (writeExits req.exits s) ((writeExits req.exits s).finishGroup req) :=
    ⟨rfl, rfl⟩
  exact (done.trans sameRows_settleUnit).trans sameRows_applyArrivals

theorem keepsPrivate_commitGroupLocked {req : GroupCommitRequest} :
  KeepsPrivate s (s.commitGroupLocked req).1
  := by
  by_cases accepted : s.groupVerdict req = .accepted
  · intro name marked
    rw [(sameRows_commitGroupLocked accepted).outputIsPrivate, outputIsPrivate_writeExits]
    exact .inl marked
  · rw [commitGroupLocked_of_refused accepted]
    exact .refl

/-! ### Seeds -/

theorem outputIsPrivate_resolveUnits (other : String) :
  (units.foldl resolveUnit s).outputIsPrivate other ↔
    s.outputIsPrivate other ∨ ∃ unit ∈ units, unit.nodeName = other ∧ unit.privateOutput
  := by
  induction units generalizing s with
  | nil => simp
  | cons unit units ih =>
    rw [foldl_cons, ih, writes_resolveUnit.outputIsPrivate, exists_mem_cons_iff,
      ← or_assoc]
    simp [@eq_comm _ other]

theorem sameRows_writeInitialIntents {held : Bool} :
  SameRows s (writeInitialIntents entries held s)
  := by
  refine foldlRecOn (motive := SameRows s) entries _ .refl fun t same e _ => same.trans ?_
  unfold writeInitialIntent
  split <;> exact ⟨rfl, rfl⟩

theorem sameRows_finishSeed :
  SameRows s (finishSeed g s)
  := by
  unfold finishSeed
  split
  · exact sameRows_finishExecution
  · exact .refl

theorem outputIsPrivate_reseedExecution
    {skipped : List SkippedUnit}
    (ok : s.reseedExecution g testRun slot units entries = .ok (t, skipped)) (other : String) :
  t.outputIsPrivate other ↔
    s.outputIsPrivate other ∨ ∃ unit ∈ units, unit.nodeName = other ∧ unit.privateOutput
  := by
  unfold reseedExecution at ok
  split at ok
  · cases ok
  · obtain ⟨rfl, -⟩ := Prod.mk.inj (Except.ok.inj ok)
    generalize created : EntryState.createExecution (some g)
      { status := seedStatus slot, testRun := testRun } { s with slot := slot } = c
    have start : SameRows s c := by
      rw [← created]
      exact ⟨rfl, rfl⟩
    rw [← start.outputIsPrivate, ← outputIsPrivate_resolveUnits]
    generalize units.foldl resolveUnit c = r
    have counted : SameRows r
        (if g.allowCycles then r else { r with remaining := r.remaining - units.length }) := by
      split <;> exact ⟨rfl, rfl⟩
    generalize (if g.allowCycles then r
      else { r with remaining := r.remaining - units.length }) = n at counted ⊢
    have arrived : SameRows n (applyDownstream units n).1 := by
      rw [applyDownstream_fst]
      exact sameRows_applyArrivals
    have finished : SameRows r
        (finishSeed g (writeInitialIntents entries false (applyDownstream units n).1)) :=
      (counted.trans arrived).trans (sameRows_writeInitialIntents.trans sameRows_finishSeed)
    rw [← finished.outputIsPrivate]
    split
    · rfl
    · rfl

end MemoryState

open MemoryState

/-! ### Calls on the nodes of an execution -/

namespace SignalState

variable {s : SignalState} {x : Suspension} {row : NodeSnapshot}

theorem outputIsPrivate_park (other : String) :
  (s.park x row).1.toMemoryState.outputIsPrivate other
    = (s.toMemoryState.outputIsPrivate other ||
      (decide (other = x.lease.task.nodeName) && x.privateOutput))
  := by
  have stored : SameRows s.toMemoryState (s.storeOutput x).toMemoryState := by
    rw [storeOutput_frame]
    exact ⟨rfl, rfl⟩
  have parked : SameRows ((s.storeOutput x).toMemoryState.rewriteRow x.lease.task.nodeName
      (row.unlease .suspended) x.privateOutput) (s.park x row).1.toMemoryState := by
    rw [park_store]
    exact ⟨rfl, rfl⟩
  rw [parked.outputIsPrivate, writes_rewriteRow.outputIsPrivate, stored.outputIsPrivate]

/-- The names whose output a call marks as private. -/
def marks (op : Op) (s : SignalState) (name : String) : Prop :=
  match op with
  | .suspendTaskLease x => x.lease.task.nodeName = name ∧ x.privateOutput ∧
      ∃ row, s.nodes name = some row ∧ holdsForCommit row x.lease
  | .commitNode req => req.nodeName = name ∧ req.privateOutput ∧ req.validate s.id = none ∧
      s.toMemoryState.commitVerdict req = .accepted
  | _ => False

theorem keepsPrivate_call (op : Op) :
  KeepsPrivate s.toMemoryState (call op s).1.toMemoryState
  := by
  apply call_induction (P := KeepsPrivate s.toMemoryState) .refl
  case acquire => exact fun _ _ _ => keepsPrivate_acquireTaskLeaseChecked
  case claim => exact fun _ _ _ _ => writes_rewriteRow.keeps
  case renew =>
    intro name row issuedAt ttl found other marked
    by_cases same : other = name
    · simp_all [outputIsPrivate]
    · simpa [outputIsPrivate, same] using marked
  case release => exact fun _ _ => writes_rewriteRow.keeps
  case put => exact fun _ keeps => keeps.trans (SameRows.keeps ⟨rfl, rfl⟩)
  case park =>
    intro x row name marked
    rw [outputIsPrivate_park, marked, Bool.true_or]
  case commit => exact fun _ _ _ => keepsPrivate_commitNodeLocked
  case ack => exact fun _ _ => SameRows.keeps ⟨rfl, rfl⟩

theorem marked_call {op : Op} {name : String} (asked : marks op s name) :
  (call op s).1.toMemoryState.outputIsPrivate name
  := by
  cases op with
  | suspendTaskLease x =>
    obtain ⟨rfl, flag, row, found, holds⟩ := asked
    simp only [call]
    rcases @suspendTaskLease_cases s x with same | ⟨row, -, -, parked⟩
    · simp [suspendTaskLease, found, holds] at same
    · rw [parked, outputIsPrivate_park, flag]
      simp
  | commitNode req =>
    obtain ⟨rfl, flag, valid, accepted⟩ := asked
    rcases @commitNode_cases s req with ⟨err, invalid⟩ | ⟨-, store, -⟩
    · simp only [call, commitNode, MemoryState.commitNode] at invalid
      grind
    · rw [store, (sameRows_commitNodeLocked accepted).outputIsPrivate,
        writes_writeNode.outputIsPrivate, flag]
      simp
  | _ => exact asked.elim

end SignalState

/-! ### Entry admissions -/

namespace EntryState

variable {s : EntryState} {id : String} {req : EntryRequest} {m : MemoryState}

theorem sameRows_setMemory (same : SameRows (s.memory id) m) :
  SameRows (s.records id) ((s.setMemory id m).records id)
  := by
  simp only [setMemory, update_self]
  exact same

theorem sameRows_countEntry :
  SameRows (s.records id) ((s.countEntry id req).records id)
  := by
  unfold countEntry
  split
  · exact .refl
  · split
    · exact .refl
    · dsimp only
      split
      all_goals exact sameRows_setMemory ⟨rfl, rfl⟩

theorem sameRows_fanOut :
  SameRows (s.records id) ((s.fanOut id req).1.records id)
  := by
  unfold fanOut
  split
  · exact sameRows_setMemory sameRows_applyArrivals
  · exact .refl

theorem sameRows_skipRoot {skip : Task} :
  SameRows m (skipRoot m skip)
  := by
  unfold skipRoot
  split <;> exact ⟨rfl, rfl⟩

theorem sameRows_skipRoots :
  SameRows (s.records id) ((s.skipRoots id req).records id)
  := by
  unfold skipRoots
  split
  · exact .refl
  · split
    · exact .refl
    · exact sameRows_setMemory (foldlRecOn (motive := SameRows (s.memory id)) _ skipRoot .refl
        fun _ same _ _ => same.trans sameRows_skipRoot)

theorem sameRows_holdOutbox :
  SameRows (s.records id) ((s.setMemory id (s.memory id).holdOutbox).records id)
  := by
  exact sameRows_setMemory ⟨rfl, rfl⟩

theorem sameRows_parkIntents :
  SameRows (s.records id) ((s.parkIntents id).records id)
  := by
  unfold parkIntents
  dsimp only
  split
  · split
    · exact sameRows_holdOutbox.trans sameRows_holdOutbox
    · exact sameRows_holdOutbox
  · split
    · exact sameRows_holdOutbox
    · exact .refl

theorem decideSlot_records {admission : Option ConcurrencyAdmission} {now : Int} :
  (s.decideSlot id admission now).1.records = s.records
  := by
  unfold decideSlot
  split <;> rfl

/-- An admission marks the nodes of its private exits if it creates an execution, and no other. -/
theorem outputIsPrivate_seedExecutionFromEntry {executionID : String → String} {call : EntryCall}
    (other : String) :
  ((s.seedExecutionFromEntry executionID call).1.records
      (executionID call.req.admissionKey)).outputIsPrivate other ↔
    (s.records (executionID call.req.admissionKey)).outputIsPrivate other ∨
      ((s.seedExecutionFromEntry executionID call).2.2 = true ∧
        ∃ ex ∈ call.req.exits, ex.nodeName = other ∧ ex.privateOutput)
  := by
  cases known : s.admissions call.req.admissionKey with
  | some existing =>
    obtain ⟨same, kept, -⟩ := seedExecutionFromEntry_of_known executionID rfl known
    rw [same, kept]
    simp
  | none =>
    cases decision : (s.decideSlot (executionID call.req.admissionKey) call.admission
        call.now).2 with
    | error err =>
      rw [seedExecutionFromEntry_of_refused rfl known decision, decideSlot_records]
      simp
    | ok pending =>
      obtain ⟨-, created, -⟩ := seedExecutionFromEntry_of_new rfl known decision
      rw [created]
      simp only [true_and]
      unfold seedExecutionFromEntry
      simp only [known]
      rw [← Prod.eta (s.decideSlot _ _ _), decision]
      rw [sameRows_parkIntents.outputIsPrivate, sameRows_skipRoots.outputIsPrivate,
        sameRows_fanOut.outputIsPrivate, sameRows_countEntry.outputIsPrivate]
      unfold createFromEntry
      simp only [setMemory, update_self]
      rw [outputIsPrivate_writeExits]
      have start : SameRows (s.records (executionID call.req.admissionKey))
          (createExecution call.req.graph { status := if pending then .queued else .running }
            ((s.decideSlot (executionID call.req.admissionKey) call.admission call.now).1.memory
              (executionID call.req.admissionKey))) := by
        unfold createExecution memory
        rw [decideSlot_records]
        split <;> exact ⟨rfl, rfl⟩
      rw [← start.outputIsPrivate]
      rfl

end EntryState

/-! ### The records of all executions -/

/-- `memoryNodeKey`: where the records of a node are kept. -/
def memoryNodeKey (id name : String) : String := id ++ "/" ++ name

/-- The node of an execution whose records are kept at a key. -/
def nodeOfKey (id key : String) : Option String :=
  (key.toList.dropPrefix? (id ++ "/").toList).map String.ofList

theorem nodeOfKey_eq_some {id key name : String} :
  nodeOfKey id key = some name ↔ key = memoryNodeKey id name
  := by
  unfold nodeOfKey memoryNodeKey
  rw [Option.map_eq_some_iff]
  constructor
  · rintro ⟨rest, found, rfl⟩
    obtain ⟨front, split, same⟩ := dropPrefix?_eq_some_iff.mp found
    rw [beq_iff_eq] at same
    apply String.toList_injective
    simp [split, same]
  · rintro rfl
    refine ⟨name.toList, ?_, String.ofList_toList⟩
    rw [String.toList_append]
    exact dropPrefix?_append_of_beq _ (by simp)

/-- The rows, the outputs and the marks of all executions. -/
structure OutputStore where
  nodes : String → Option NodeSnapshot := fun _ => none
  outputs : String → Option Data := fun _ => none
  privateOutputs : String → Bool := fun _ => false

namespace OutputStore

variable (s : OutputStore)

/-- The records of an execution, with what the store keeps in them. -/
def load (id : String) (rest : MemoryState) : MemoryState :=
  { rest with
    id := id
    nodes := fun name => s.nodes (memoryNodeKey id name)
    outputs := fun name => s.outputs (memoryNodeKey id name)
    privateOutputs := fun name => s.privateOutputs (memoryNodeKey id name) }

/-- Keep the records of an execution. -/
def save (id : String) (m : MemoryState) : OutputStore where
  nodes key := ((nodeOfKey id key).map m.nodes).getD (s.nodes key)
  outputs key := ((nodeOfKey id key).map m.outputs).getD (s.outputs key)
  privateOutputs key := ((nodeOfKey id key).map m.privateOutputs).getD (s.privateOutputs key)

/-- `outputIsPrivateLocked`. -/
def outputIsPrivate (key : String) : Bool :=
  s.privateOutputs key || (s.nodes key).any (·.privateOutput)

/-- `GetNode`, with `publicNodeSnapshotLocked`. -/
def getNode (id name : String) : Option NodeSnapshot :=
  let key := memoryNodeKey id name
  if s.outputIsPrivate key then (s.nodes key).map NodeSnapshot.redact else s.nodes key

/-- `GetAllOutputs`: the data under each name. -/
def getAllOutputs (id name : String) : Option Data :=
  let key := memoryNodeKey id name
  if s.outputIsPrivate key then none else s.outputs key

/-! ### Writes -/

/-- The calls that write rows and outputs: those that lease, suspend, retry and commit nodes,
upserts, group commits, seeds and entry admissions.  Each comes with the other records that it
finds. -/
inductive Write where
  | node (id : String) (rest : SignalState) (op : SignalState.Op)
  | upsertNode (id name : String) (row : NodeSnapshot)
  | cancelSuspendedNode (id name : String)
  | putOutput (id name : String) (data : Option Data)
  | commitGroup (id : String) (rest : MemoryState) (req : GroupCommitRequest)
  | seed (id : String) (rest : MemoryState) (g : Topology) (testRun : Bool) (slot : SlotPlace)
      (units : List SeedUnit) (entries : List OutboxEntry)
  | entry (rest : EntryState) (call : EntryCall)

/-- The records of an execution before a call on its nodes. -/
def loadSignals (id : String) (rest : SignalState) : SignalState :=
  { rest with toMemoryState := s.load id rest.toMemoryState }

/-- The records before an entry admission. -/
def loadEntries (rest : EntryState) : EntryState :=
  { rest with records := fun id => s.load id (rest.records id) }

variable (executionID : String → String)

/-- Take a call. -/
def write : Write → OutputStore → OutputStore
  | .node e rest op, s => s.save e (SignalState.call op (s.loadSignals e rest)).1.toMemoryState
  | .upsertNode e name row, s => s.save e ((s.load e { id := e }).upsertNode name row).1
  | .cancelSuspendedNode e name, s =>
    s.save e ((s.load e { id := e }).cancelSuspendedNode name).1
  | .putOutput e name data, s => s.save e ((s.load e { id := e }).putOutput name data)
  | .commitGroup e rest req, s => s.save e ((s.load e rest).commitGroupLocked req).1
  | .seed e rest g testRun slot units entries, s =>
    match (s.load e rest).reseedExecution g testRun slot units entries with
    | .error _ => s
    | .ok (m, _) => s.save e m
  | .entry rest call, s =>
    s.save (executionID call.req.admissionKey)
      (((s.loadEntries rest).seedExecutionFromEntry executionID call).1.records
        (executionID call.req.admissionKey))

/-- The call is a write that marks the output of a node as private. -/
def Marks (s : OutputStore) (id name : String) : Write → Prop
  | .node e rest op => e = id ∧ SignalState.marks op (s.loadSignals id rest) name
  | .upsertNode e name' row => e = id ∧ name' = name ∧ row.privateOutput
  | .commitGroup e rest req => e = id ∧ (s.load id rest).groupVerdict req = .accepted ∧
      ∃ ex ∈ req.exits, ex.nodeName = name ∧ ex.privateOutput
  | .seed e _ _ _ _ units _ => e = id ∧
      (∀ unit ∈ units, unit.status = .success ∨ unit.status = .skipped) ∧
      ∃ unit ∈ units, unit.nodeName = name ∧ unit.privateOutput
  | .entry rest call => executionID call.req.admissionKey = id ∧
      ((s.loadEntries rest).seedExecutionFromEntry executionID call).2.2 = true ∧
      ∃ ex ∈ call.req.exits, ex.nodeName = name ∧ ex.privateOutput
  | _ => False

/-! ### Marks stay -/

variable {s} {executionID} {id name key : String} {rest m : MemoryState}

theorem outputIsPrivate_save :
  (s.save id m).outputIsPrivate (memoryNodeKey id name) = m.outputIsPrivate name
  := by
  have found : nodeOfKey id (memoryNodeKey id name) = some name := nodeOfKey_eq_some.mpr rfl
  simp [outputIsPrivate, MemoryState.outputIsPrivate, save, found]

theorem outputIsPrivate_of_keeps (keeps : KeepsPrivate (s.load id rest) m)
    (marked : s.outputIsPrivate key) :
  (s.save id m).outputIsPrivate key
  := by
  cases found : nodeOfKey id key with
  | none => simpa [outputIsPrivate, save, found] using marked
  | some name =>
    obtain rfl := nodeOfKey_eq_some.mp found
    rw [outputIsPrivate_save]
    exact keeps name marked

theorem outputIsPrivate_write (w : Write) (marked : s.outputIsPrivate key) :
  (write executionID w s).outputIsPrivate key
  := by
  cases w with
  | node e rest op =>
    have keeps : KeepsPrivate (s.load e rest.toMemoryState) _ :=
      SignalState.keepsPrivate_call (s := s.loadSignals e rest) op
    exact outputIsPrivate_of_keeps keeps marked
  | upsertNode e name row => exact outputIsPrivate_of_keeps keepsPrivate_upsertNode marked
  | cancelSuspendedNode e name =>
    exact outputIsPrivate_of_keeps keepsPrivate_cancelSuspendedNode marked
  | putOutput e name data => exact outputIsPrivate_of_keeps keepsPrivate_putOutput marked
  | commitGroup e rest req => exact outputIsPrivate_of_keeps keepsPrivate_commitGroupLocked marked
  | seed e rest g testRun slot units entries =>
    simp only [write]
    split
    · exact marked
    · rename_i m skipped ok
      have keeps : KeepsPrivate (s.load e rest) m := by
        intro name before
        exact (outputIsPrivate_reseedExecution ok name).mpr (.inl before)
      exact outputIsPrivate_of_keeps keeps marked
  | entry rest call =>
    have keeps : KeepsPrivate ((s.loadEntries rest).records (executionID call.req.admissionKey))
        (((s.loadEntries rest).seedExecutionFromEntry executionID call).1.records
          (executionID call.req.admissionKey)) := by
      intro name before
      exact (outputIsPrivate_seedExecutionFromEntry name).mpr (.inl before)
    exact outputIsPrivate_of_keeps keeps marked

theorem outputIsPrivate_of_marks {w : Write} (marks : Marks executionID s id name w) :
  (write executionID w s).outputIsPrivate (memoryNodeKey id name)
  := by
  cases w with
  | node e rest op =>
    obtain ⟨rfl, asked⟩ := marks
    simp only [write, outputIsPrivate_save]
    exact SignalState.marked_call asked
  | upsertNode e name' row =>
    obtain ⟨rfl, rfl, flag⟩ := marks
    simp only [write, outputIsPrivate_save, upsertNode]
    split
    · rw [outputIsPrivate_preserve, flag]
      simp
    · rw [writes_rewriteRow.outputIsPrivate, flag]
      simp
  | cancelSuspendedNode e name => exact marks.elim
  | putOutput e name data => exact marks.elim
  | commitGroup e rest req =>
    obtain ⟨rfl, accepted, exit⟩ := marks
    simp only [write, outputIsPrivate_save]
    rw [(sameRows_commitGroupLocked accepted).outputIsPrivate, outputIsPrivate_writeExits]
    exact .inr exit
  | seed e rest g testRun slot units entries =>
    obtain ⟨rfl, resolved, unit⟩ := marks
    have allowed : units.find? (fun unit => unit.status ≠ .success ∧ unit.status ≠ .skipped)
        = none := by grind
    obtain ⟨t, skipped, ok⟩ : ∃ t skipped,
        (s.load e rest).reseedExecution g testRun slot units entries = .ok (t, skipped) := by
      unfold reseedExecution
      rw [allowed]
      exact ⟨_, _, rfl⟩
    simp only [write, ok, outputIsPrivate_save]
    exact (outputIsPrivate_reseedExecution ok name).mpr (.inr unit)
  | entry rest call =>
    obtain ⟨rfl, created, exit⟩ := marks
    simp only [write, outputIsPrivate_save]
    exact (outputIsPrivate_seedExecutionFromEntry name).mpr (.inr ⟨created, exit⟩)

/-- One call as a step, which every call is. -/
def step (executionID : String → String) (w : Write) (s : OutputStore) : Option OutputStore :=
  some (write executionID w s)

end OutputStore

open Transition OutputStore

/-- Private outputs never become public.  After a write that marked the output of a node as private,
in every state that any further calls lead to, the row that `GetNode` returns for the node has no
output, and `GetAllOutputs` has no entry for it.  This holds for every node that shares its key. -/
theorem private_outputs_stay_private (executionID : String → String) {s t : OutputStore}
    {id name : String} {w : Write} (marks : Marks executionID s id name w)
    (run : Run (step executionID) (fun _ _ => True) (write executionID w s) t) :
  ∀ id' name', memoryNodeKey id' name' = memoryNodeKey id name →
    (∀ row, t.getNode id' name' = some row → row.output = none ∧ row.privateOutput = true) ∧
      t.getAllOutputs id' name' = none
  := by
  have marked : t.outputIsPrivate (memoryNodeKey id name) := by
    apply run.invariant
    · exact outputIsPrivate_of_marks marks
    · intro w s t marked _ next
      obtain rfl := Option.some.inj next
      exact outputIsPrivate_write w marked
  intro id' name' same
  rw [← same] at marked
  constructor
  · intro row shown
    simp only [getNode, marked, if_true] at shown
    obtain ⟨stored, -, rfl⟩ := Option.map_eq_some_iff.mp shown
    exact ⟨rfl, rfl⟩
  · simp [getAllOutputs, marked]

/-- What a node produced, first marked as private and then written without a mark. -/
def secretRow (privateOutput : Bool) : NodeSnapshot where
  nodeIdx := 0
  status := .success
  attempt := 1
  activationID := if privateOutput then 0 else 1
  output := some [("token", .str "s3cr3t")]
  privateOutput := privateOutput

/-- The row of the later, unmarked upsert and the output put next to it are stored, but neither is
shown. -/
theorem secretRow_hidden :
  ∃ t, exec (step id) [.upsertNode "e" "n" (secretRow false),
      .putOutput "e" "n" (secretRow false).output]
      (write id (.upsertNode "e" "n" (secretRow true)) {}) = some t ∧
    (t.nodes (memoryNodeKey "e" "n")).map (·.activationID) = some 1 ∧
    (t.outputs (memoryNodeKey "e" "n")).isSome ∧
    (∀ row, t.getNode "e" "n" = some row → row.output = none ∧ row.privateOutput = true) ∧
    t.getAllOutputs "e" "n" = none
  := by
  obtain ⟨t, reached, stored, written⟩ := @exists_exec _ _ (step id)
    (fun t => (t.nodes (memoryNodeKey "e" "n")).map (·.activationID) = some 1 ∧
      (t.outputs (memoryNodeKey "e" "n")).isSome)
    _ (write id (.upsertNode "e" "n" (secretRow true)) {})
    [.upsertNode "e" "n" (secretRow false), .putOutput "e" "n" (secretRow false).output] (by decide)
  have marks : Marks id {} "e" "n" (.upsertNode "e" "n" (secretRow true)) := ⟨rfl, rfl, rfl⟩
  have hidden := private_outputs_stay_private id marks
    (Run.of_exec reached) "e" "n" rfl
  exact ⟨t, reached, stored, written, hidden⟩

end Xflow
