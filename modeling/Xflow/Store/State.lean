import Mathlib.Logic.Function.Basic
import Xflow.Lib.Keys
import Xflow.Types

/-!
# The state of one execution in the local store

The local store keeps its records in maps keyed by execution and by node or unit; all calls happen
under one lock.  `MemoryState` is the part of these maps that belongs to one execution: its node
rows, the in-degree, active-input and marker of each unit, the completion counters, the group units
and the outbox of delivery intents.  This module has the operations that the transitions share.
-/

namespace Xflow

open Function List NodeSnapshot

/-- The place of an execution in the concurrency slot of its workflow. -/
inductive SlotPlace where
  | free
  | holder
  | queued (deadline : Option Nat)
  deriving DecidableEq

/-- The records of one execution. -/
structure MemoryState where
  id : String
  execution : Option ExecutionSnapshot := none
  nodes : String → Option NodeSnapshot := fun _ => none
  outputs : String → Option Data := fun _ => none
  privateOutputs : String → Bool := fun _ => false
  inDegrees : Int → Int := fun _ => 0
  activeIns : Int → Int := fun _ => 0
  remaining : Int := 0
  failed : Int := 0
  advanced : String × Int → Bool := fun _ => false
  scheduled : Int → Marker := fun _ => .none
  outbox : List OutboxEntry := []
  groupUnits : Int → Option GroupUnitState := fun _ => none
  slot : SlotPlace := .free

/-! ### Identifiers of intents -/

/-- The identifier of an intent: its kind, the execution, a node and an activation. -/
def outboxID (kind id name : String) (activationID : Int) : String :=
  kind ++ "/" ++ id ++ "/" ++ name ++ "/" ++ toString activationID

def advanceOutboxID : String → String → Int → String := outboxID "advance"
def mergeCancelOutboxID : String → String → Int → String := outboxID "mergecancel"
def executeOutboxID : String → String → Int → String := outboxID "execute"
def skipOutboxID : String → String → Int → String := outboxID "skip"
def initialOutboxID : String → String → Int → String := outboxID "root"

variable {kind name name' : String} {act : Int}

theorem outboxID_inj {id : String} {act' : Int} :
  outboxID kind id name act = outboxID kind id name' act' ↔ name = name' ∧ act = act'
  := by
  constructor
  · intro h
    obtain ⟨hname, rfl⟩ := Keys.keyInt_inj (c := '/') (by decide) (by decide) h
    have hlist := congrArg String.toList hname
    simp only [String.toList_append] at hlist
    exact ⟨String.toList_injective (append_cancel_left hlist), rfl⟩
  · rintro ⟨rfl, rfl⟩
    rfl

theorem outboxID_kind {kind' id : String} {act' : Int} (hkind : '/' ∉ kind.toList)
    (hkind' : '/' ∉ kind'.toList) (h : outboxID kind id name act = outboxID kind' id name' act') :
  kind = kind'
  := by
  have hlist := congrArg String.toList h
  simp only [outboxID, String.toList_append, append_assoc] at hlist
  apply String.toList_injective (Keys.append_cons_inj hlist hkind hkind').1

theorem outboxID_ne_empty {id : String} :
  outboxID kind id name act ≠ ""
  := by
  intro h
  have hlist := congrArg String.toList h
  simp [outboxID] at hlist

/-! ### The outbox -/

/-- Whether the outbox takes an entry: it has an identifier, and a new one. -/
def accepts (outbox : List OutboxEntry) (e : OutboxEntry) : Bool :=
  e.id ≠ "" ∧ e.id ∉ outbox.map (·.id)

/-- The outbox after an entry was put. -/
def putEntry (outbox : List OutboxEntry) (e : OutboxEntry) : List OutboxEntry :=
  if accepts outbox e then outbox ++ [e] else outbox

variable {outbox : List OutboxEntry} {x e : OutboxEntry}

theorem mem_putEntry :
  x ∈ putEntry outbox e ↔ x ∈ outbox ∨ (x = e ∧ accepts outbox e)
  := by
  unfold putEntry
  split <;> simp_all

theorem putEntry_nodup (h : (outbox.map (·.id)).Nodup) :
  ((putEntry outbox e).map (·.id)).Nodup
  := by
  unfold putEntry
  split
  · rename_i haccepts
    unfold accepts at haccepts
    grind
  · exact h

theorem foldl_putEntry_eq {entries : List OutboxEntry}
    (hids : ((outbox ++ entries).map (·.id)).Nodup) (hne : ∀ e ∈ entries, e.id ≠ "") :
  entries.foldl putEntry outbox = outbox ++ entries
  := by
  induction entries generalizing outbox with
  | nil => simp
  | cons e entries ih =>
    rw [forall_mem_cons] at hne
    have haccepts : accepts outbox e := by
      unfold accepts
      grind
    rw [foldl_cons, putEntry, if_pos haccepts, ih _ hne.2]
    · simp
    · simpa using hids

theorem mem_foldl_putEntry {entries : List OutboxEntry}
    (h : x ∈ entries.foldl putEntry outbox) :
  x ∈ outbox ∨ x ∈ entries
  := by
  refine foldlRecOn (motive := fun acc => x ∈ acc → x ∈ outbox ∨ x ∈ entries) entries putEntry .inl
    (fun acc ih e mem h => ?_) h
  rcases mem_putEntry.mp h with hold | ⟨rfl, -⟩
  · exact ih hold
  · exact .inr mem

theorem mem_foldl_putEntry_of_mem {entries : List OutboxEntry} (h : x ∈ outbox) :
  x ∈ entries.foldl putEntry outbox
  := foldlRecOn entries putEntry h fun _ h _ _ => mem_putEntry.mpr (.inl h)

namespace MemoryState

variable (s : MemoryState)

/-- `putOutboxEntryLocked`: store an intent, unless its identifier is empty or taken; reports
whether it was stored. -/
def putOutboxEntry (e : OutboxEntry) : MemoryState × Bool :=
  ({ s with outbox := putEntry s.outbox e }, accepts s.outbox e)

/-- The status of the execution. -/
def status? : Option ExecutionStatus := s.execution.map (·.status)

/-- The execution exists and is over. -/
def isOver : Bool := s.status?.any ExecutionStatus.isTerminal

/-! ### Finishing -/

/-- `dropHeldOutboxLocked`: discard the intents a queued execution parked. -/
def dropHeldOutbox : MemoryState :=
  { s with outbox := s.outbox.filter (fun e => e.availableAt ≠ .held) }

/-- `releaseWorkflowSlotLocked`: give the slot back or leave the queue. -/
def releaseWorkflowSlot : MemoryState :=
  match s.slot with
  | .free => s
  | .holder => { s with slot := .free }
  | .queued _ => { s with slot := .free }.dropHeldOutbox

/-- `finishExecutionLocked`: drive an execution that is not over to a terminal status. -/
def finishExecution (status : ExecutionStatus) (errMsg : String) : MemoryState :=
  match s.execution with
  | none => s
  | some snap =>
    if snap.status.isTerminal then s
    else
      { s with
        execution := some { snap with
          status := status
          error := if status = ExecutionStatus.failed ∧ errMsg ≠ "" then errMsg else snap.error }
      }.releaseWorkflowSlot

/-! ### Output privacy -/

/-- `outputIsPrivateLocked`: the output of a node was marked private before. -/
def outputIsPrivate (name : String) : Bool :=
  s.privateOutputs name || (s.nodes name).any (·.privateOutput)

/-- `preserveOutputPrivacyLocked`: keep an output private once it was; reports whether it is. -/
def preserveOutputPrivacy (name : String) (requested : Bool) : MemoryState × Bool :=
  if requested || s.outputIsPrivate name then
    ({ s with
      privateOutputs := update s.privateOutputs name true
      nodes := update s.nodes name ((s.nodes name).map redact) }, true)
  else (s, false)

/-! ### Arrivals -/

/-- Account for the edges of an arrival at its unit. -/
def countArrival (a : DownstreamArrival) : MemoryState :=
  { s with
    inDegrees := update s.inDegrees a.unitIdx (s.inDegrees a.unitIdx - a.arrivalCount)
    activeIns :=
      if 0 < a.activeCount
      then update s.activeIns a.unitIdx (s.activeIns a.unitIdx + a.activeCount)
      else s.activeIns }

/-- The marker that an arrival decides for its unit, after its edges are accounted for. -/
def schedule (a : DownstreamArrival) (previousActive : Int) : Marker :=
  if a.mergeMode = "wait_any" ∧ 0 < a.activeCount ∧ previousActive = 0 then .execute
  else if s.inDegrees a.unitIdx ≤ 0 then
    if 0 < s.activeIns a.unitIdx then .execute else .skip
  else .none

/-- The intent of a decided unit. -/
def arrivalEntry (id : String) (activationID autoDepth : Int) (a : DownstreamArrival)
    (schedule : Marker) : OutboxEntry where
  id :=
    if schedule = .skip then skipOutboxID id a.nodeName activationID
    else executeOutboxID id a.nodeName activationID
  task := {
    nodeName := a.nodeName
    nodeIdx := a.nodeIdx
    unitIdx := a.unitIdx
    type := if schedule = .skip then .nodeSkip else a.execTaskType
    activationID := activationID
    autoDepth := autoDepth }

/-- One round of the loop of `applyArrivalsLocked`: count the edges, and mark a unit that is due and
write its intent.  Reports the intent, if it was written, with the marker it carries out. -/
def applyArrival (activationID autoDepth : Int) (a : DownstreamArrival) :
    MemoryState × Option (OutboxEntry × Marker) :=
  if a.arrivalCount ≤ 0 then (s, none)
  else
    let previousActive := s.activeIns a.unitIdx
    let s := s.countArrival a
    if s.scheduled a.unitIdx ≠ .none then (s, none)
    else
      let schedule := s.schedule a previousActive
      if schedule = .none then (s, none)
      else
        let s := { s with scheduled := update s.scheduled a.unitIdx schedule }
        let entry := arrivalEntry s.id activationID autoDepth a schedule
        let (s, written) := s.putOutboxEntry entry
        (s, if written then some (entry, schedule) else none)

/-- `applyArrivalsLocked`: turn arrivals into intents.  Reports the intents written and the units
among them that were skipped. -/
def applyArrivals (activationID autoDepth : Int) :
    List DownstreamArrival → MemoryState → MemoryState × List String × List SkippedUnit
  | [], s => (s, [], [])
  | a :: arrivals, s =>
    let (s, entry?) := s.applyArrival activationID autoDepth a
    let (s, outboxIDs, skipped) := applyArrivals activationID autoDepth arrivals s
    match entry? with
    | none => (s, outboxIDs, skipped)
    | some (entry, schedule) =>
      (s, entry.id :: outboxIDs, if schedule = .skip then ⟨a.nodeName, 1⟩ :: skipped else skipped)

/-! ### What the operations leave alone -/

variable {s} {status : ExecutionStatus} {errMsg name : String} {requested : Bool}

theorem preserveOutputPrivacy_frame :
  (s.preserveOutputPrivacy name requested).1 =
    { s with
      privateOutputs := (s.preserveOutputPrivacy name requested).1.privateOutputs
      nodes := (s.preserveOutputPrivacy name requested).1.nodes }
  := by
  unfold preserveOutputPrivacy
  split <;> rfl

theorem preserveOutputPrivacy_snd :
  (s.preserveOutputPrivacy name requested).2 = (requested || s.outputIsPrivate name)
  := by
  unfold preserveOutputPrivacy
  split <;> simp_all

theorem preserveOutputPrivacy_nodes_of_ne (h : name' ≠ name) :
  (s.preserveOutputPrivacy name requested).1.nodes name' = s.nodes name'
  := by
  unfold preserveOutputPrivacy
  split <;> simp [h]

theorem finishExecution_frame :
  s.finishExecution status errMsg =
    { s with
      execution := (s.finishExecution status errMsg).execution
      slot := (s.finishExecution status errMsg).slot
      outbox := (s.finishExecution status errMsg).outbox }
  := by
  unfold finishExecution releaseWorkflowSlot
  repeat' split
  all_goals rfl

@[simp]
theorem finishExecution_fields :
  (s.finishExecution status errMsg).id = s.id ∧ (s.finishExecution status errMsg).nodes = s.nodes ∧
    (s.finishExecution status errMsg).inDegrees = s.inDegrees ∧
    (s.finishExecution status errMsg).activeIns = s.activeIns ∧
    (s.finishExecution status errMsg).remaining = s.remaining ∧
    (s.finishExecution status errMsg).failed = s.failed ∧
    (s.finishExecution status errMsg).scheduled = s.scheduled ∧
    (s.finishExecution status errMsg).groupUnits = s.groupUnits
  := by
  rw [finishExecution_frame]
  simp

theorem finishExecution_status? :
  (s.finishExecution status errMsg).status?
    = if s.isOver then s.status? else s.status?.map (fun _ => status)
  := by
  unfold finishExecution isOver status?
  cases h : s.execution with
  | none => simp [h]
  | some snap =>
    by_cases hover : snap.status.isTerminal
    · simp [h, hover]
    · simp only [hover, Bool.false_eq_true, if_false, releaseWorkflowSlot, dropHeldOutbox]
      split <;> simp [hover]

theorem finishExecution_nodup (h : (s.outbox.map (·.id)).Nodup) :
  ((s.finishExecution status errMsg).outbox.map (·.id)).Nodup
  := by
  unfold finishExecution releaseWorkflowSlot
  repeat' split
  all_goals first | exact h | exact h.sublist (filter_sublist.map _)

theorem mem_outbox_of_finishExecution
    (h : e ∈ (s.finishExecution status errMsg).outbox) :
  e ∈ s.outbox
  := by
  unfold finishExecution releaseWorkflowSlot at h
  repeat' split at h
  all_goals first | exact h | exact (mem_filter.mp h).1

end MemoryState

end Xflow
