import Xflow.Store.Concurrency

/-!
# Slots and lines

The maps of the store agree with each other in every run: an execution has the place that its status
says, in the slot that its place names, and nowhere else (`Consistent`).  An execution that ends
leaves its place (`Left`), and a promotion pass follows (`Promoted`); each keeps the maps in
agreement.
-/

namespace Xflow

open ConcurrencyState ExecutionStatus Function List Ne Option Prod Semaphore

namespace ConcurrencyState

variable {s s' : ConcurrencyState} {key : SlotKey} {id : String}

attribute [local simp] setExecution chargeSlot ConcurrencyState.park status? dropHeldOutbox withdraw
  createExecutionWithConcurrency

/-! ### Agreement of the maps -/

/-- Whether an execution of a status holds a slot or waits. -/
def Agrees (holder : Option SlotKey) (waiting : Option QueuedExecution) :
    Option ExecutionStatus → Prop
  | some .running => holder.isSome ∧ waiting = none
  | some .queued => holder = none ∧ waiting.isSome
  | some .canceling => (holder.isSome ∧ waiting = none) ∨ (holder = none ∧ waiting.isSome)
  | some .pending | some .paused => False
  | _ => holder = none ∧ waiting = none
attribute [local simp] Agrees

structure Consistent (s : ConcurrencyState) : Prop where
  valid : ∀ key, (s.slotFor key).Valid
  holder : ∀ id key, s.slotHolders id = some key ↔ id ∈ (s.slotFor key).holders
  waiting : ∀ id key, (s.queued id).map (·.slot) = some key ↔ id ∈ (s.slotFor key).queued
  agrees : ∀ id, Agrees (s.slotHolders id) (s.queued id) (s.status? id)

variable {snap : ExecutionSnapshot} {entries : List OutboxEntry} {status : ExecutionStatus}

theorem agrees_over (ended : status.isTerminal) :
  Agrees none none (some status)
  := by
  cases status <;> simp_all [isTerminal]

theorem Consistent.apart (h : Consistent s) :
  s.slotHolders id = none ∨ s.queued id = none
  := by
  have agrees := h.agrees id
  unfold Agrees at agrees
  split at agrees <;> tauto

theorem Consistent.placed (h : Consistent s)
    (found : s.executions id = some snap) (live : snap.status.isTerminal = false) :
  (∃ key, s.slotHolders id = some key ∧ s.queued id = none) ∨
    ∃ w, s.slotHolders id = none ∧ s.queued id = some w
  := by
  have agrees := h.agrees id
  cases status : snap.status <;>
    simp_all [isTerminal, isSome_iff_exists]

theorem Consistent.waits {w : QueuedExecution} (h : Consistent s) (waits : s.queued id = some w) :
  id ∈ (s.slotFor w.slot).queued
  := by
  rw [← h.waiting]
  simp [waits]

theorem Consistent.of_line (h : Consistent s) (line : id ∈ (s.slotFor key).queued) :
  s.slotHolders id = none ∧ ∃ w, s.queued id = some w ∧ w.slot = key
  := by
  rw [← h.waiting, map_eq_some_iff] at line
  grind [h.apart]

/-! ### Leaving a place -/

/-- The state after `id` ended as `snap` and left its place in the slot `key`. -/
structure Left (id : String) (key : SlotKey) (snap : ExecutionSnapshot)
    (s s' : ConcurrencyState) : Prop where
  place : id ∈ (s.slotFor key).holders ∨ id ∈ (s.slotFor key).queued
  held : (s'.slotFor key).holders = (s.slotFor key).holders.erase id
  line : (s'.slotFor key).queued = (s.slotFor key).queued.erase id
  limit : (s'.slotFor key).limit = (s.slotFor key).limit
  others : ∀ k, k ≠ key → s'.slotFor k = s.slotFor k
  slotHolders : ∀ x, s'.slotHolders x = if x = id then none else s.slotHolders x
  queued : ∀ x, s'.queued x = if x = id then none else s.queued x
  executions : ∀ x, s'.executions x = if x = id then some snap else s.executions x
  history : s'.history = s.history

section

variable (h : Consistent s) (found : s.executions id = some snap)
  (live : snap.status.isTerminal = false) (snap' : ExecutionSnapshot)

include h found live

theorem Consistent.release_eq :
  ∃ key s', Left id key snap' s s' ∧
    (s.setExecution id snap').releaseWorkflowSlot id = s'.settleSlot key
  := by
  rcases h.placed found live with ⟨key, holds, idle⟩ | ⟨w, free, waits⟩
  · have member := (h.holder id key).mp holds
    have kept := erase_of_not_mem ((h.valid key).disjoint id member)
    refine ⟨key, (s.setExecution id snap').vacate key id, ?_, by simp [releaseWorkflowSlot, holds]⟩
    constructor
    case place => exact .inl member
    all_goals simp only [vacate, slotFor, setSlot, setExecution, update_apply]
    all_goals grind [slotFor]
  · have member := h.waits waits
    have kept := erase_of_not_mem fun holds => (h.valid w.slot).disjoint id holds member
    refine ⟨w.slot, (s.setExecution id snap').withdraw w.slot id, ?_,
      by simp [releaseWorkflowSlot, free, waits]⟩
    constructor
    case place => exact .inr member
    all_goals
      simp only [withdraw, dropHeldOutbox, slotFor, setSlot, setExecution, update_apply]
    all_goals grind [slotFor]

theorem Consistent.release :
  ∃ key s', Left id key snap' s s' ∧
    Promoted key s' ((s.setExecution id snap').releaseWorkflowSlot id)
  := by
  obtain ⟨key, t, left, eq⟩ := h.release_eq found live snap'
  rw [eq]
  exact ⟨key, t, left, settleSlot_promoted⟩

end

theorem Consistent.of_held (h : Consistent s) (holds : id ∈ (s.slotFor key).holders) :
  s.slotHolders id = some key ∧ s.queued id = none
  := by
  have holder := (h.holder id key).mpr holds
  grind [h.apart]

attribute [local grind →] Consistent.of_line Consistent.of_held Consistent.waits
attribute [local grind =] update_apply

theorem Consistent.left (h : Consistent s)
    (left : Left id key snap s s') (ended : snap.status.isTerminal) :
  Consistent s'
  := by
  obtain ⟨place, held, line, -, others, slotHolders, queued, executions, -⟩ := left
  constructor
  case valid =>
    intro k
    by_cases same : k = key
    · subst same
      exact ((h.valid k).leave id).congr held line
    · rw [others k same]
      exact h.valid k
  case holder =>
    intro x k
    have before := h.holder x k
    have rest := (h.valid k).holders.mem_erase_iff (b := id) (a := x)
    by_cases same : k = key <;> grind
  case waiting =>
    intro x k
    have before := h.waiting x k
    have rest := (h.valid k).queued.mem_erase_iff (b := id) (a := x)
    by_cases same : k = key <;> grind
  case agrees =>
    intro x
    have gone := agrees_over ended
    have before := h.agrees x
    by_cases self : x = id <;> simp_all

theorem Consistent.nobody_next (h : Consistent s)
    (settled : (s.slotFor key).free = 0 ∨ (s.slotFor key).queued = [])
    (left : Left id key snap s s') (waits : id ∈ (s.slotFor key).queued) :
  (s'.slotFor key).taken = []
  := by
  have absent : id ∉ (s.slotFor key).holders := fun holds => (h.valid key).disjoint id holds waits
  have full : (s.slotFor key).free = 0 := by grind
  have same : (s'.slotFor key).free = (s.slotFor key).free := by
    rw [free, left.held, left.limit, erase_of_not_mem absent, free]
  rw [taken, same, full, take_zero]

/-! ### Promotions -/

theorem Consistent.promoted (h : Consistent s) (pass : Promoted key s s') :
  Consistent s'
  := by
  have place : ∀ x ∈ (s.slotFor key).taken,
      s.slotHolders x = none ∧ ∃ w, s.queued x = some w ∧ w.slot = key :=
    fun x took => h.of_line (mem_of_mem_take took)
  obtain ⟨held, line, -, others, slotHolders, queued, executions, -⟩ := pass
  constructor
  case valid =>
    intro k
    by_cases same : k = key
    · subst same
      exact (h.valid k).filled.congr held line
    · rw [others k same]
      exact h.valid k
  case holder =>
    intro x k
    have before := h.holder x k
    by_cases same : k = key <;> grind [filled]
  case waiting =>
    intro x k
    have before := h.waiting x k
    have rest := (h.valid key).mem_filled_queued (a := x)
    by_cases same : k = key <;> grind
  case agrees =>
    intro x
    have before := h.agrees x
    rw [slotHolders, queued, status?, executions]
    by_cases took : x ∈ (s.slotFor key).taken
    · obtain ⟨free, w, waits, -⟩ := place x took
      rw [waits, status?] at before
      generalize s.executions x = snap at before ⊢
      rcases snap with _ | ⟨status, error, testRun⟩
      · simp at before
      · cases status <;> simp_all [promotedSnapshot]
    · simpa [took] using before

/-! ### Admissions -/

/-- The store after a submission was refused: the slot has the limit of the submission. -/
def relimited (s : ConcurrencyState) (admission : ConcurrencyAdmission) : ConcurrencyState :=
  s.setSlot admission.workflow { s.slotFor admission.workflow with limit := admission.limit }

/-- The store after an execution was written. -/
def written (s : ConcurrencyState) (id : String) (snap : ExecutionSnapshot)
    (entries : List OutboxEntry) (pending : Bool) : ConcurrencyState :=
  { s with
    executions := update s.executions id
      (some { snap with status := if pending then .queued else .running })
    outbox := update s.outbox id (writeInitialIntents (s.outbox id) entries pending) }

attribute [local simp] written relimited

/-- A submission is refused, or charged within its limit, or parked. -/
theorem create_cases (s : ConcurrencyState) (id : String) (snap : ExecutionSnapshot)
    (entries : List OutboxEntry) (admission : ConcurrencyAdmission) (now : Int) :
  (∃ err, s.createExecutionWithConcurrency id snap entries admission now =
      (s.relimited admission, .error err)) ∨
    (((s.slotFor admission.workflow).holders.length : Int) < admission.limit ∧
      s.createExecutionWithConcurrency id snap entries admission now =
        (((s.relimited admission).chargeSlot admission.workflow id).written id snap entries false,
          .ok {})) ∨
    ∃ deadline result, s.createExecutionWithConcurrency id snap entries admission now =
      (((s.relimited admission).park admission.workflow id deadline).written id snap entries true,
        .ok result)
  := by
  unfold createExecutionWithConcurrency
  fun_cases s.chargeOrPark id admission now with
  | case1 limited =>
    fun_cases limited.parkOrCharge id admission now with
    | case1 slot room => exact .inr (.inl ⟨by simpa [slot, limited] using room.1, rfl⟩)
    | case2 => exact .inl ⟨_, rfl⟩
    | case3 => exact .inr (.inr ⟨_, _, rfl⟩)
  | case2 => exact .inl ⟨_, rfl⟩
  | case3 limited _ room => exact .inr (.inl ⟨by simpa [limited] using room, rfl⟩)

theorem slotFor_relimited (admission : ConcurrencyAdmission) (k : SlotKey) :
  ((s.relimited admission).slotFor k).holders = (s.slotFor k).holders ∧
    ((s.relimited admission).slotFor k).queued = (s.slotFor k).queued
  := by
  by_cases same : k = admission.workflow <;> simp [same]

theorem Consistent.relimited (h : Consistent s) (admission : ConcurrencyAdmission) :
  Consistent (s.relimited admission)
  := by
  have same := @slotFor_relimited s admission
  constructor
  case valid => exact fun k => (h.valid k).congr (same k).1 (same k).2
  case holder =>
    simp only [same]
    exact h.holder
  case waiting =>
    simp only [same]
    exact h.waiting
  case agrees => exact h.agrees

theorem Consistent.fresh (h : Consistent s) (new : s.executions id = none) :
  s.slotHolders id = none ∧ s.queued id = none
  := by
  simpa [new] using h.agrees id

theorem Consistent.absent (h : Consistent s) (free : s.slotHolders id = none)
    (idle : s.queued id = none) (k : SlotKey) :
  id ∉ (s.slotFor k).holders ∧ id ∉ (s.slotFor k).queued
  := by
  constructor
  · rw [← h.holder, free]
    simp
  · rw [← h.waiting, idle]
    simp

theorem slotFor_charge (new : id ∉ (s.slotFor key).holders) (k : SlotKey) :
  ((s.chargeSlot key id).written id snap entries false).slotFor k =
    if k = key then { s.slotFor key with holders := (s.slotFor key).holders ++ [id] }
    else s.slotFor k
  := by
  rw [← slotFor_setSlot, show (s.slotFor key).holders ++ [id] =
    if id ∈ (s.slotFor key).holders then (s.slotFor key).holders
    else (s.slotFor key).holders ++ [id] by simp [new]]
  rfl

theorem slotFor_recharge (holds : id ∈ (s.slotFor key).holders) (k : SlotKey) :
  ((s.chargeSlot key id).written id snap entries false).slotFor k = s.slotFor k
  := by
  have unchanged : (s.setSlot key (s.slotFor key)).slotFor k = s.slotFor k := by
    rw [slotFor_setSlot]
    split
    · rename_i same
      rw [same]
    · rfl
  rw [← unchanged]
  simp only [chargeSlot, holds]
  rfl

theorem slotFor_park {deadline : Option Int} (k : SlotKey) :
  ((s.park key id deadline).written id snap entries true).slotFor k =
    if k = key then { s.slotFor key with queued := (s.slotFor key).queued ++ [id] }
    else s.slotFor k
  := by
  rw [← slotFor_setSlot]
  rfl

section

variable (h : Consistent s)

include h

theorem Consistent.charge (free : s.slotHolders id = none) (idle : s.queued id = none) :
  Consistent ((s.chargeSlot key id).written id snap entries false)
  := by
  have absent := h.absent free idle
  have slot := @slotFor_charge s key id snap entries (absent key).1
  constructor
  case valid =>
    intro k
    rw [slot]
    split
    · exact (h.valid key).hold (absent key).1 (absent key).2
    · exact h.valid k
  case holder =>
    intro x k
    have before := h.holder x k
    rw [slot]
    simp only [written, chargeSlot, update_apply]
    grind
  case waiting =>
    intro x k
    have before := h.waiting x k
    rw [slot]
    simp only [written, chargeSlot, setSlot]
    grind
  case agrees =>
    intro x
    have before := h.agrees x
    by_cases self : x = id <;> simp_all [setSlot]

theorem Consistent.recharge (holds : id ∈ (s.slotFor key).holders) :
  Consistent ((s.chargeSlot key id).written id snap entries false)
  := by
  obtain ⟨holder, idle⟩ := h.of_held holds
  have slot := @slotFor_recharge s key id snap entries holds
  have slotHolders : (s.chargeSlot key id).slotHolders = s.slotHolders := by
    simp [← holder]
  constructor
  case valid => simpa only [slot] using h.valid
  case holder =>
    simp only [slot]
    exact slotHolders ▸ h.holder
  case waiting =>
    simp only [slot]
    exact h.waiting
  case agrees =>
    intro x
    have before := h.agrees x
    by_cases self : x = id <;> simp_all [setSlot]

theorem Consistent.park {deadline : Option Int}
    (free : s.slotHolders id = none) (idle : s.queued id = none) :
  Consistent ((s.park key id deadline).written id snap entries true)
  := by
  have absent := h.absent free idle
  have slot := @slotFor_park s key id snap entries deadline
  constructor
  case valid =>
    intro k
    rw [slot]
    split
    · exact (h.valid key).wait (absent key).1 (absent key).2
    · exact h.valid k
  case holder =>
    intro x k
    have before := h.holder x k
    rw [slot]
    simp only [written, ConcurrencyState.park, setSlot]
    grind
  case waiting =>
    intro x k
    have before := h.waiting x k
    rw [slot]
    simp only [written, ConcurrencyState.park, update_apply]
    grind
  case agrees =>
    intro x
    have before := h.agrees x
    by_cases self : x = id <;> simp_all [setSlot]

end

/-! ### What happened -/

/-- Who was parked for a slot, in order. -/
def parks (key : SlotKey) : List SlotEvent → List String :=
  filterMap fun
    | .parked k id => if k = key then some id else none
    | _ => none

/-- Who was promoted to a slot, in order. -/
def promotions (key : SlotKey) : List SlotEvent → List String :=
  filterMap fun
    | .promoted k id _ _ => if k = key then some id else none
    | _ => none

attribute [local simp] promotions

/-- Whoever got a slot got it within the limit of that moment. -/
def WithinLimit : SlotEvent → Prop
  | .charged _ _ holders limit | .promoted _ _ holders limit => (holders : Int) ≤ limit
  | .parked _ _ => True

structure Orderly (s : ConcurrencyState) : Prop where
  within : ∀ e ∈ s.history, WithinLimit e
  order : ∀ key,
    (promotions key s.history ++ (s.slotFor key).queued).Sublist (parks key s.history)
  once : ∀ key, (parks key s.history).Nodup
  known : ∀ key, ∀ id ∈ parks key s.history, (s.executions id).isSome

variable {ids : List String}

theorem PromotionEvents.read {events : List SlotEvent}
    (h : PromotionEvents key ids events) :
  (∀ e ∈ events, WithinLimit e) ∧ (∀ k, parks k events = []) ∧
    ∀ k, promotions k events = if k = key then ids else []
  := by
  induction h with
  | nil => simp [parks]
  | cons head _ ih =>
    obtain ⟨holders, limit, rfl, bound⟩ := head
    obtain ⟨within, parked, promoted⟩ := ih
    refine ⟨?_, ?_, ?_⟩
    · rw [forall_mem_cons]
      exact ⟨bound, within⟩
    · intro k
      simpa [parks] using parked k
    · intro k
      by_cases same : k = key
      · simp_all
      · simp_all [symm same]

attribute [local grind =] filterMap_append

theorem Orderly.left (h : Orderly s) (left : Left id key snap s s') :
  Orderly s'
  := by
  obtain ⟨within, order, once, known⟩ := h
  obtain ⟨-, -, line, -, others, -, -, executions, history⟩ := left
  constructor
  case order =>
    intro k
    rw [history]
    by_cases same : k = key
    · subst same
      rw [line]
      exact (erase_sublist.append_left _).trans (order k)
    · rw [others k same]
      exact order k
  all_goals grind

theorem Orderly.promoted (h : Orderly s) (pass : Promoted key s s') :
  Orderly s'
  := by
  obtain ⟨events, history, promoted⟩ := pass.history
  obtain ⟨within, parked, moved⟩ := promoted.read
  have parksSame : ∀ k, parks k s'.history = parks k s.history := by
    simp_all [parks]
  have promotionsMore : ∀ k, promotions k s'.history =
      promotions k s.history ++ if k = key then (s.slotFor key).taken else [] := by
    intro k
    rw [← moved k, history]
    simp
  constructor
  case within => grind [h.within]
  case order =>
    intro k
    rw [parksSame, promotionsMore]
    by_cases same : k = key
    · subst same
      -- the promoted ones move from the head of the line to the end of the promotions
      rw [pass.line, if_pos rfl, append_assoc, taken_append]
      exact h.order k
    · rw [pass.others k same]
      simpa [same] using h.order k
  case once => grind [h.once]
  case known => grind [h.known, pass.executions]

theorem Orderly.relimited (h : Orderly s) (admission : ConcurrencyAdmission) :
  Orderly (s.relimited admission)
  := by
  refine { h with order := ?_ }
  intro k
  rw [(slotFor_relimited admission k).2]
  exact h.order k

theorem Orderly.charge (h : Orderly s) (new : id ∉ (s.slotFor key).holders)
    (room : ((s.slotFor key).holders.length : Int) < (s.slotFor key).limit) :
  Orderly ((s.chargeSlot key id).written id snap entries false)
  := by
  obtain ⟨within, order, once, known⟩ := h
  have parksSame : ∀ k, parks k (s.chargeSlot key id).history = parks k s.history := by
    simp [parks]
  have promotionsSame : ∀ k, promotions k (s.chargeSlot key id).history =
      promotions k s.history := by
    simp
  constructor
  case within =>
    simp only [written, chargeSlot]
    grind [WithinLimit]
  case order =>
    intro k
    rw [slotFor_charge new]
    grind [written]
  case once => exact fun k => parksSame k ▸ once k
  case known =>
    intro k x old
    have there := known k x (parksSame k ▸ old)
    by_cases self : x = id <;> simp_all [setSlot]

theorem Orderly.park {deadline : Option Int} (h : Orderly s) (new : s.executions id = none) :
  Orderly ((s.park key id deadline).written id snap entries true)
  := by
  obtain ⟨within, order, once, known⟩ := h
  have parksMore : ∀ k, parks k (s.park key id deadline).history =
      parks k s.history ++ if k = key then [id] else [] := by
    intro k
    by_cases same : k = key
    · simp [parks, same]
    · simp [parks, same, symm same]
  have promotionsSame : ∀ k, promotions k (s.park key id deadline).history =
      promotions k s.history := by
    simp
  constructor
  case within =>
    simp only [written, ConcurrencyState.park]
    grind [WithinLimit]
  case order =>
    intro k
    have longer := (order k).append_right (if k = key then [id] else [])
    rw [slotFor_park]
    grind [written]
  case once =>
    intro k
    have absent : id ∉ parks k s.history := by grind
    grind [written]
  case known =>
    intro k x old
    have there := known k x
    replace old : x ∈ parks k s.history ++ if k = key then [id] else [] := parksMore k ▸ old
    by_cases self : x = id
    · simp [self]
    · simp only [written, update_of_ne self]
      exact there (by grind)

/-! ### Runs -/

/-- What callers do to the store. -/
inductive SlotOp where
  | create (id : String) (snap : ExecutionSnapshot) (entries : List OutboxEntry)
      (admission : ConcurrencyAdmission) (now : Int)
  | update (id : String) (status : ExecutionStatus) (errMsg : String)
  | finish (id : String) (status : ExecutionStatus) (errMsg : String)
  | expire (walk : List String) (limit now : Int)

/-- One operation.  Executions are created under new identifiers, a status update ends an execution
or begins to cancel it, and a commit ends it. -/
def step : SlotOp → ConcurrencyState → Option ConcurrencyState
  | .create id snap entries admission now, s =>
    if s.executions id = none then
      some (s.createExecutionWithConcurrency id snap entries admission now).1
    else none
  | .update id status errMsg, s =>
    if status.isTerminal ∨ status = .canceling then
      some (s.updateExecutionStatus id status errMsg).1
    else none
  | .finish id status errMsg, s =>
    if status.isTerminal then some (s.finishExecution id status errMsg) else none
  | .expire walk limit now, s => some (s.expireQueuedExecutions walk limit now).1

/-- The store is consistent and so is what happened in it. -/
structure Sound (s : ConcurrencyState) : Prop where
  consistent : Consistent s
  orderly : Orderly s

theorem sound_empty :
  Sound {}
  := by
  constructor
  · constructor <;> simp [slotFor, valid_empty]
  · constructor <;> simp [slotFor, parks]

theorem Sound.create
    {admission : ConcurrencyAdmission} {now : Int} (h : Sound s) (new : s.executions id = none) :
  Sound (s.createExecutionWithConcurrency id snap entries admission now).1
  := by
  have consistent := h.consistent.relimited admission
  have orderly := h.orderly.relimited admission
  obtain ⟨free, idle⟩ := consistent.fresh new
  rcases create_cases s id snap entries admission now with
    ⟨err, eq⟩ | ⟨room, eq⟩ | ⟨deadline, result, eq⟩
  · rw [eq]
    exact ⟨consistent, orderly⟩
  · rw [eq]
    refine ⟨consistent.charge free idle, orderly.charge ?_ ?_⟩
    · exact (consistent.absent free idle _).1
    · simpa using room
  · rw [eq]
    exact ⟨consistent.park free idle, orderly.park new⟩

section

variable {snap' : ExecutionSnapshot} (found : s.executions id = some snap)
  (live : snap.status.isTerminal = false)

include found live

theorem Sound.ends (h : Sound s) (ended : snap'.status.isTerminal) :
  Sound ((s.setExecution id snap').releaseWorkflowSlot id)
  := by
  obtain ⟨key, t, left, pass⟩ := h.consistent.release found live snap'
  exact ⟨(h.consistent.left left ended).promoted pass, (h.orderly.left left).promoted pass⟩

theorem Consistent.cancels (h : Consistent s) (canceling : snap'.status = .canceling) :
  Consistent (s.setExecution id snap')
  := by
  refine { h with agrees := ?_ }
  intro x
  by_cases self : x = id
  · subst self
    rcases h.placed found live with ⟨key, holds, idle⟩ | ⟨w, free, waits⟩
    · simp [canceling, holds, idle]
    · simp [canceling, free, waits]
  · simpa [self] using h.agrees x

theorem Sound.cancels (h : Sound s) (canceling : snap'.status = .canceling) :
  Sound (s.setExecution id snap')
  := by
  constructor
  · exact h.consistent.cancels found live canceling
  · refine ⟨h.orderly.within, h.orderly.order, h.orderly.once, ?_⟩
    intro key x parked
    by_cases self : x = id
    · simp [self]
    · simpa [self] using h.orderly.known key x parked

end

variable {errMsg : String}

theorem Sound.update (h : Sound s)
    (kind : status.isTerminal ∨ status = .canceling) :
  Sound (s.updateExecutionStatus id status errMsg).1
  := by
  fun_cases s.updateExecutionStatus id status errMsg with
  | case4 snap found live =>
    rw [Bool.not_eq_true] at live
    split
    case isTrue ended => exact h.ends found live ended
    case isFalse more => exact h.cancels found live (kind.resolve_left more)
  | _ => exact h

theorem Sound.finish (h : Sound s) (ended : status.isTerminal) :
  Sound (s.finishExecution id status errMsg)
  := by
  fun_cases s.finishExecution id status errMsg with
  | case3 _ found live => exact h.ends found (by simpa using live) ended
  | _ => exact h

theorem Sound.timeOut (h : Sound s) :
  Sound (s.timeOut ids)
  := by
  induction ids generalizing s with
  | nil => exact h
  | cons id ids ih =>
    apply ih
    apply h.update
    exact .inl rfl

attribute [local simp] ConcurrencyState.step

theorem Sound.step {op : SlotOp} (h : Sound s) (next : step op s = some s') :
  Sound s'
  := by
  cases op with
  | create id snap entries admission now =>
    obtain ⟨new, rfl⟩ : s.executions id = none ∧ _ := by
      simpa using next
    exact h.create new
  | update id status errMsg =>
    obtain ⟨kind, rfl⟩ : (status.isTerminal ∨ status = .canceling) ∧ _ := by
      simpa using next
    exact h.update kind
  | finish id status errMsg =>
    obtain ⟨ended, rfl⟩ : status.isTerminal ∧ _ := by
      simpa using next
    exact h.finish ended
  | expire walk limit now =>
    obtain rfl : (s.expireQueuedExecutions walk limit now).1 = s' := by
      simpa using next
    exact h.timeOut

/-- The runs of a store that starts empty. -/
abbrev Reaches (s : ConcurrencyState) : Prop :=
  Transition.Run step (fun _ _ => True) {} s

theorem Reaches.sound (run : Reaches s) :
  Sound s
  := by
  apply Transition.Run.invariant run sound_empty
  intro op s s' h _ next
  exact h.step next

/-- In every run the holders and the lines are apart; whoever waits stands once in one line, and is
queued or being canceled; whoever is not over and does not wait holds one slot; slots are given
within the limit of that moment, and to those who wait in the order in which they came; and a
refused submission leaves the holders, the lines and every other record as they were. -/
theorem slots_kept_in_order (run : Reaches s) :
  (∀ key key' id, id ∈ (s.slotFor key).holders → id ∉ (s.slotFor key').queued) ∧
    (∀ id w, s.queued id = some w →
      (s.slotFor w.slot).queued.count id = 1 ∧
        (∀ key, key ≠ w.slot → id ∉ (s.slotFor key).queued) ∧
        (s.status? id = some .queued ∨ s.status? id = some .canceling)) ∧
    (∀ key, ∀ id ∈ (s.slotFor key).queued, (s.queued id).map (·.slot) = some key) ∧
    (∀ id snap, s.executions id = some snap → snap.status.isTerminal = false → s.queued id = none →
      ∃ key, (s.slotFor key).holders.count id = 1 ∧
        ∀ key', key' ≠ key → id ∉ (s.slotFor key').holders) ∧
    (∀ e ∈ s.history, WithinLimit e) ∧
    (∀ key, (parks key s.history).Nodup ∧
      (promotions key s.history ++ (s.slotFor key).queued).Sublist (parks key s.history)) ∧
    ∀ id snap entries admission now err s',
      s.createExecutionWithConcurrency id snap entries admission now = (s', .error err) →
      s'.executions = s.executions ∧ s'.outbox = s.outbox ∧ s'.slotHolders = s.slotHolders ∧
        s'.queued = s.queued ∧ ∀ key, (s'.slotFor key).holders = (s.slotFor key).holders ∧
          (s'.slotFor key).queued = (s.slotFor key).queued
  := by
  obtain ⟨consistent, orderly⟩ := run.sound
  refine ⟨?_, ?_, ?_, ?_, orderly.within, fun key => ⟨orderly.once key, orderly.order key⟩, ?_⟩
  · grind
  · intro id w waits
    refine ⟨?_, ?_, ?_⟩
    · exact count_eq_one_of_mem (consistent.valid w.slot).queued (consistent.waits waits)
    · grind
    · have agrees := consistent.agrees id
      unfold Agrees at agrees
      split at agrees <;> simp_all
  · intro key id member
    exact (consistent.waiting id key).mpr member
  · intro id snap found live idle
    rcases consistent.placed found live with ⟨key, holds, -⟩ | ⟨w, -, waits⟩
    · refine ⟨key, ?_, ?_⟩
      · exact count_eq_one_of_mem (consistent.valid key).holders
          ((consistent.holder id key).mp holds)
      · grind
    · rw [idle] at waits
      cases waits
  · intro id snap entries admission now err s' refused
    rcases create_cases s id snap entries admission now with
      ⟨err', eq⟩ | ⟨-, eq⟩ | ⟨deadline, result, eq⟩
    all_goals rw [eq] at refused
    · cases refused
      exact ⟨rfl, rfl, rfl, rfl, slotFor_relimited admission⟩
    · cases congrArg snd refused
    · cases congrArg snd refused

namespace Sample

def shop : SlotKey := ("default", "shop")

/-- A submission that waits for one of `limit` slots of the workflow, for a time. -/
def submit (id : String) (limit timeout : Int) : SlotOp :=
  .create id { status := .running } []
    { workflow := shop, limit := limit, mode := .queue, queueTimeout := timeout } 0

end Sample

open Sample

/-- The second of two submissions to one slot waits, and is promoted when the first ends. -/
theorem second_promoted_in_order :
  ∃ s, Reaches s ∧ promotions shop s.history = ["b"] ∧ ∀ e ∈ s.history, WithinLimit e
  := by
  have run : Reaches _ := @Transition.Run.of_exec _ _ step
    [submit "a" 1 0, submit "b" 1 0, .finish "a" .success ""] _ _ rfl
  exact ⟨_, run, by decide, (slots_kept_in_order run).2.2.2.2.1⟩

/-- An execution that waits and is being canceled stands in the line, and is not queued. -/
theorem canceling_stays_in_line :
  ∃ s, Reaches s ∧ "b" ∈ (s.slotFor shop).queued ∧ s.status? "b" = some .canceling
  := by
  have run : Reaches _ := @Transition.Run.of_exec _ _ step
    [submit "a" 1 0, submit "b" 1 0, .update "b" .canceling ""] _ _ rfl
  exact ⟨_, run, by decide, by decide⟩

end ConcurrencyState

end Xflow
