import Xflow.Redis.Concurrency
import Xflow.Store.Slots

/-!
# Agreement of the two stores on concurrency slots

The local store keeps the holders of a workflow's slots in a map and its line in a slice, Redis
keeps both in sorted sets.  `Corresponds` relates the two while no slot is free that somebody waits
for; each call keeps it as long as an admission does not find such a slot, and the stores then give
the same answers.

A free slot beside a line arises when a submission raises the limit.  The Redis script then hands it
to the head of the line, the local store leaves it free; and a submission in reject mode takes it in
the local store only.
-/

namespace Xflow

open Function List Option Semaphore SortedSet

namespace RedisSlots

variable {r r' : RedisSlots} {id : String}

/-! ### Handing over -/

/-- The holders and the line as a semaphore of a limit. -/
def view (r : RedisSlots) (limit : Int) : Semaphore String where
  holders := r.slot.members
  limit := limit
  queued := r.queue.members

/-- The keys after the slots were given to `ids`, which stood at the head of the line. -/
structure HandedOver (ids : List String) (r r' : RedisSlots) : Prop where
  slot : r'.slot.members.Perm (r.slot.members ++ ids)
  queue : r.queue.members = ids ++ r'.queue.members
  scores : ∀ e ∈ r'.queue.entries, e ∈ r.queue.entries
  deadline : ∀ e, e ∈ r'.deadline.entries ↔ e ∈ r.deadline.entries ∧ e.2 ∉ ids
  status : r'.status = r.status
  seq : r'.seq = r.seq
  capacity : r'.capacity = r.capacity

theorem HandedOver.refl :
  HandedOver [] r r
  := by
  constructor <;> simp

theorem HandedOver.cons {head : String} {rest : SortedSet String} {ids : List String} {now : Int}
    (pop : r.queue.popMin = some (head, rest)) (new : head ∉ r.slot.members)
    (later : HandedOver ids
      { r with
        slot := r.slot.add now head
        queue := rest
        deadline := r.deadline.remove head } r') :
  HandedOver (head :: ids) r r'
  := by
  obtain ⟨line, scores⟩ := popMin_eq_some pop
  refine { later with slot := ?slot, queue := ?queue, scores := ?scores, deadline := ?deadline }
  case slot =>
    apply later.slot.trans
    apply ((add_perm new).append_right ids).trans
    apply perm_middle.symm
  case queue => grind [later.queue]
  case scores => grind [later.scores]
  case deadline => grind [later.deadline, mem_entries_remove]

theorem handOver_spec {limit now : Int} {n : Nat} (rounds : r.queue.card ≤ n)
    (apart : ∀ x ∈ r.queue.members, x ∉ r.slot.members) :
  (handOver limit now n r).2 = (r.view limit).taken ∧
    HandedOver (r.view limit).taken r (handOver limit now n r).1
  := by
  have nobody {r : RedisSlots} (none : (r.view limit).taken = []) :
      [] = (r.view limit).taken ∧ HandedOver (r.view limit).taken r r := by
    rw [none]
    exact ⟨rfl, .refl⟩
  fun_induction handOver limit now n r with
  | case1 r =>
    rw [Nat.le_zero, ← length_members, length_eq_zero_iff] at rounds
    exact nobody (by simp [taken, view, rounds])
  | case2 _ r _ empty =>
    rw [popMin_eq_none] at empty
    exact nobody (by simp [taken, view, empty])
  | case3 n r room head rest pop s _ _ later ih =>
    obtain ⟨line, -⟩ := popMin_eq_some pop
    have nodup := r.queue.nodup_members
    rw [line] at apart nodup
    rw [nodup_cons] at nodup
    rw [forall_mem_cons] at apart
    -- the round that was made takes one slot and one member of the line
    have grown : s.slot.members.Perm (head :: r.slot.members) := add_perm apart.1
    have taken : (r.view limit).taken = head :: (s.view limit).taken := by
      have one : (r.view limit).free = (s.view limit).free + 1 := by
        have length := grown.length_eq
        simp only [free, view, length, length_cons, length_members]
        omega
      have queued : (r.view limit).queued = head :: rest.members := line
      rw [taken, one, queued]
      rfl
    rw [← length_members, line, length_cons, Nat.succ_le_succ_iff, length_members] at rounds
    obtain ⟨promoted, handed⟩ := ih rounds fun x waits holds => by
      rcases mem_cons.mp (grown.mem_iff.mp holds) with rfl | holds
      · exact nodup.1 waits
      · exact apart.2 x waits holds
    rw [later] at promoted handed
    rw [taken]
    exact ⟨congrArg (head :: ·) promoted, handed.cons pop apart.1⟩
  | case4 _ r full =>
    have none : (r.view limit).free = 0 := by
      simp only [free, view, length_members]
      omega
    exact nobody (by simp [taken, none])

theorem handOver_settled {limit now : Int} (settled : limit ≤ r.slot.card ∨ r.queue.members = [])
    (n : Nat) :
  handOver limit now n r = (r, [])
  := by
  cases n with
  | zero => rfl
  | succ n =>
    unfold handOver
    split
    · rename_i room
      have empty := settled.resolve_left (not_le.mpr room)
      rw [popMin_eq_none.mpr empty]
    · rfl

/-! ### Finishing promotions -/

/-- Only statuses and outboxes are written. -/
def SameSlot (r r' : RedisSlots) : Prop := ∃ status outbox, r' = { r with status, outbox }

theorem SameSlot.trans {r'' : RedisSlots} (first : SameSlot r r') (second : SameSlot r' r'') :
  SameSlot r r''
  := by
  obtain ⟨status, outbox, rfl⟩ := first
  exact second

/-- The status of a promoted execution. -/
def started (status : Option ExecutionStatus) : Option ExecutionStatus :=
  if status = some .queued then some .running else status

theorem completePromotions_slot (ids : List String) :
  SameSlot r (r.completePromotions ids)
  := by
  induction ids generalizing r with
  | nil => exact ⟨_, _, rfl⟩
  | cons id ids ih =>
    refine SameSlot.trans ?_ ih
    unfold promoteQueuedExecution
    split
    · exact ⟨_, _, rfl⟩
    · split <;> exact ⟨_, _, rfl⟩

theorem completePromotions_status (ids : List String) (x : String) :
  (r.completePromotions ids).status x = if x ∈ ids then started (r.status x) else r.status x
  := by
  unfold completePromotions
  induction ids generalizing r with
  | nil => simp
  | cons id ids ih =>
    have one : (r.promoteQueuedExecution id).status x =
        if x = id then started (r.status x) else r.status x := by
      unfold promoteQueuedExecution started
      by_cases self : x = id
      · repeat' split
        all_goals simp_all
      · repeat' split
        all_goals simp [self]
    rw [foldl_cons, ih, one]
    unfold started
    grind

end RedisSlots

/-! ### The correspondence -/

namespace RedisSlots

/-- The member is removed from the slot, from the line and from the deadlines. -/
def without (r : RedisSlots) (id : String) : RedisSlots :=
  { r with
    slot := r.slot.remove id
    queue := r.queue.remove id
    deadline := r.deadline.remove id }

/-- The slots that a release hands over. -/
def vacated (r : RedisSlots) (id : String) (now : Int) : RedisSlots × List String :=
  if (r.slot.score? id).isSome ∧ 0 < (r.without id).capacity.getD 0 then
    (r.without id).handOver ((r.without id).capacity.getD 0) now (r.without id).queue.card
  else (r.without id, [])

theorem workflowRelease_eq {r : RedisSlots} {id : String} {now : Int} :
  r.workflowRelease id now =
    ((r.vacated id now).1.drain.1,
      { drained := (r.vacated id now).1.drain.2
        wasQueued := (r.queue.score? id).isSome
        promoted := (r.vacated id now).2 })
  := rfl

end RedisSlots

section

open ConcurrencyState

variable {key : SlotKey} {s s' : ConcurrencyState} {r r' : RedisSlots} {id : String}

/-- The two stores hold the same holders, the same line and the same deadlines. -/
structure Mirrors (key : SlotKey) (s : ConcurrencyState) (r : RedisSlots) : Prop where
  holders : r.slot.members.Perm (s.slotFor key).holders
  line : r.queue.members = (s.slotFor key).queued
  scores : ∀ e ∈ r.queue.entries, e.1 ≤ r.seq
  deadline : ∀ t id, (t, id) ∈ r.deadline.entries ↔
    ∃ w, s.queued id = some w ∧ w.deadline = some t

namespace Mirrors

section

variable (h : Mirrors key s r)

include h

theorem apart (consistent : Consistent s) :
  ∀ x ∈ r.queue.members, x ∉ r.slot.members
  := by
  rw [h.line]
  exact fun x waits holds =>
    (consistent.valid key).disjoint x (h.holders.mem_iff.mp holds) waits

theorem card :
  r.slot.card = (s.slotFor key).holders.length
  := by
  rw [← length_members]
  exact h.holders.length_eq

theorem queue_card :
  r.queue.card = (s.slotFor key).queued.length
  := by
  rw [← length_members, h.line]

theorem unscored (free : id ∉ (s.slotFor key).holders) :
  (r.slot.score? id).isSome = false
  := by
  rw [Bool.eq_false_iff, ne_eq, isSome_score?, h.holders.mem_iff]
  exact free

theorem unranked (new : id ∉ (s.slotFor key).queued) :
  r.queue.rank? id = none
  := by
  simp [rank?, h.line, new]

theorem taken :
  (r.view (s.slotFor key).limit).taken = (s.slotFor key).taken
  := by
  simp [Semaphore.taken, Semaphore.free, RedisSlots.view, h.card, h.line]

theorem congr (same : RedisSlots.SameSlot r r') :
  Mirrors key s r'
  := by
  obtain ⟨status, outbox, rfl⟩ := same
  exact { h with }

theorem left {snap : ExecutionSnapshot} (left : Left id key snap s s') :
  Mirrors key s' (r.without id)
  := by
  constructor
  case holders =>
    rw [left.held]
    exact (members_remove id).symm ▸ h.holders.erase id
  case line =>
    rw [left.line, ← h.line]
    apply members_remove
  case scores => exact fun e member => h.scores e (mem_entries_remove.mp member).1
  case deadline => grind [RedisSlots.without, h.deadline, mem_entries_remove, left.queued]

theorem promoted (pass : Promoted key s s')
    (handed : RedisSlots.HandedOver (s.slotFor key).taken r r') :
  Mirrors key s' r'
  := by
  constructor
  case holders =>
    rw [pass.held]
    exact handed.slot.trans (h.holders.append_right _)
  case line =>
    have line := handed.queue
    rw [h.line, ← (s.slotFor key).taken_append] at line
    rw [pass.line]
    exact (append_cancel_left line).symm
  case scores => exact handed.seq ▸ fun e member => h.scores e (handed.scores e member)
  case deadline => grind [h.deadline, handed.deadline, pass.queued]

theorem drain (consistent : Consistent s) (only : ∀ id w, s.queued id = some w → w.slot = key) :
  Mirrors key s r.drain.1
  := by
  unfold RedisSlots.drain
  split
  · rename_i empty
    have line : (s.slotFor key).queued = [] := by
      apply length_eq_zero_iff.mp
      rw [← h.queue_card, empty.2]
    have holders : (s.slotFor key).holders = [] := by
      apply length_eq_zero_iff.mp
      rw [← h.card, empty.1]
    constructor
    case holders => simp [members, holders]
    case line => simp [members, line]
    case scores => simp
    case deadline =>
      intro t x
      constructor
      · intro member
        cases member
      · rintro ⟨w, waits, -⟩
        have member := consistent.waits waits
        rw [only x w waits, line] at member
        cases member
  · exact h

theorem drain_capacity (used : (s.slotFor key).holders ≠ [] ∨ (s.slotFor key).queued ≠ []) :
  r.drain.1.capacity = r.capacity
  := by
  unfold RedisSlots.drain
  split
  · rename_i empty
    rw [h.card, h.queue_card, length_eq_zero_iff, length_eq_zero_iff] at empty
    exact absurd empty (by tauto)
  · rfl

end

end Mirrors

/-- The local store is consistent and holds the slots of one workflow only, Redis holds the same
ones, and no slot is free that somebody waits for. -/
structure Aligned (key : SlotKey) (s : ConcurrencyState) (r : RedisSlots) : Prop where
  consistent : s.Consistent
  mirrors : Mirrors key s r
  only : ∀ k, k ≠ key → (s.slotFor k).holders = [] ∧ (s.slotFor k).queued = []
  capacity : (s.slotFor key).holders ≠ [] ∨ (s.slotFor key).queued ≠ [] →
    r.capacity = some (s.slotFor key).limit
  settled : (s.slotFor key).free = 0 ∨ (s.slotFor key).queued = []

/-- The two stores hold the same slots of one workflow and the same statuses. -/
structure Corresponds (key : SlotKey) (s : ConcurrencyState) (r : RedisSlots) : Prop extends
    Aligned key s r where
  status : ∀ id, r.status id = s.status? id

attribute [local simp] status?

theorem corresponds_empty :
  Corresponds key {} {}
  := by
  constructor
  · constructor
    case consistent => exact sound_empty.consistent
    case mirrors => constructor <;> simp [slotFor, members]
    all_goals simp [slotFor]
  · simp

theorem slot_of_queued (consistent : Consistent s)
    (only : ∀ k, k ≠ key → (s.slotFor k).holders = [] ∧ (s.slotFor k).queued = []) :
  ∀ id w, s.queued id = some w → w.slot = key
  := by
  intro id w waits
  by_contra other
  have member := consistent.waits waits
  rw [(only w.slot other).2] at member
  cases member

namespace Aligned

variable (h : Aligned key s r)

include h

theorem congr (same : RedisSlots.SameSlot r r') :
  Aligned key s r'
  := by
  have mirrors := h.mirrors.congr same
  obtain ⟨status, outbox, rfl⟩ := same
  exact { h with mirrors }

/-! ### Ending an execution -/

variable {snap : ExecutionSnapshot} {now : Int} (left : Left id key snap s s')
  (ended : snap.status.isTerminal)

include left ended

theorem vacated_spec :
  (r.vacated id now).2 = (s'.slotFor key).taken ∧
    RedisSlots.HandedOver (s'.slotFor key).taken (r.without id) (r.vacated id now).1
  := by
  have mirrors : Mirrors key s' (r.without id) := h.mirrors.left left
  have apart := mirrors.apart (h.consistent.left left ended)
  have capacity : (r.without id).capacity.getD 0 = (s'.slotFor key).limit := by
    have used : (s.slotFor key).holders ≠ [] ∨ (s.slotFor key).queued ≠ [] :=
      left.place.imp ne_nil_of_mem ne_nil_of_mem
    rw [left.limit]
    exact congrArg (Option.getD · 0) (h.capacity used)
  unfold RedisSlots.vacated
  rw [capacity]
  by_cases holds : id ∈ (s.slotFor key).holders
  · have removed : (r.slot.score? id).isSome = true := by
      rw [isSome_score?, h.mirrors.holders.mem_iff]
      exact holds
    by_cases positive : 0 < (s'.slotFor key).limit
    · rw [if_pos ⟨removed, positive⟩]
      have spec := @RedisSlots.handOver_spec _ (s'.slotFor key).limit now _
        (le_refl (r.without id).queue.card) apart
      rwa [mirrors.taken] at spec
    · rw [if_neg (fun both => positive both.2)]
      have nobody : (s'.slotFor key).taken = [] := by
        have none : (s'.slotFor key).free = 0 := by
          simp only [free]
          omega
        rw [taken, none, take_zero]
      rw [nobody]
      exact ⟨rfl, .refl⟩
  · have kept : ¬ ((r.slot.score? id).isSome = true ∧ 0 < (s'.slotFor key).limit) := by
      rw [isSome_score?, h.mirrors.holders.mem_iff]
      exact fun both => holds both.1
    rw [if_neg kept, h.consistent.nobody_next h.settled left (left.place.resolve_left holds)]
    exact ⟨rfl, .refl⟩

theorem release :
  Aligned key (s'.settleSlot key) (r.workflowRelease id now).1
  := by
  have consistent := h.consistent.left left ended
  obtain ⟨-, handed⟩ := h.vacated_spec left ended
  have pass : Promoted key s' (s'.settleSlot key) := settleSlot_promoted
  have mirrors := (h.mirrors.left left).promoted pass handed
  have only : ∀ k, k ≠ key → ((s'.settleSlot key).slotFor k).holders = [] ∧
      ((s'.settleSlot key).slotFor k).queued = [] := by
    intro k other
    rw [pass.others k other, left.others k other]
    exact h.only k other
  rw [RedisSlots.workflowRelease_eq]
  constructor
  case consistent => exact consistent.promoted pass
  case mirrors =>
    apply mirrors.drain (consistent.promoted pass)
    exact slot_of_queued (consistent.promoted pass) only
  case only => exact only
  case capacity =>
    intro used
    have before : (s.slotFor key).holders ≠ [] ∨ (s.slotFor key).queued ≠ [] :=
      left.place.imp ne_nil_of_mem ne_nil_of_mem
    rw [mirrors.drain_capacity used, settleSlot_limit used, left.limit, handed.capacity]
    exact h.capacity before
  case settled => exact pass.settled

end Aligned

theorem status_promoted (pass : Promoted key s s') (x : String) :
  s'.status? x =
    if x ∈ (s.slotFor key).taken then RedisSlots.started (s.status? x) else s.status? x
  := by
  rw [status?, pass.executions, status?]
  split
  · rcases s.executions x with _ | ⟨status, error, testRun⟩
    · simp [RedisSlots.started]
    · by_cases queued : status = .queued <;> simp [RedisSlots.started, promotedSnapshot, queued]
  · rfl

theorem drain_status :
  r.drain.1.status = r.status
  := by
  unfold RedisSlots.drain
  split <;> rfl

namespace Corresponds

section

variable (h : Corresponds key s r)

include h

section

variable {snap snap' : ExecutionSnapshot} (found : s.executions id = some snap)
  (live : snap.status.isTerminal = false) (same : RedisSlots.SameSlot r r')

include found live same

theorem ends {now : Int} (ended : snap'.status.isTerminal)
    (status : r'.status = update r.status id (some snap'.status)) :
  Corresponds key ((s.setExecution id snap').releaseWorkflowSlot id)
    (r'.releaseWorkflowSlot id now)
  := by
  have aligned := h.congr same
  obtain ⟨k, t, left, eq⟩ := h.consistent.release_eq found live snap'
  obtain rfl : k = key := by
    by_contra other
    have none := h.only k other
    rcases left.place with holds | waits
    · rw [none.1] at holds
      cases holds
    · rw [none.2] at waits
      cases waits
  obtain ⟨promoted, handed⟩ := @Aligned.vacated_spec _ _ _ _ _ aligned _ now left ended
  have dropped (r : RedisSlots) (wasQueued : Bool) :
      RedisSlots.SameSlot r (if wasQueued then r.dropOutbox id else r) ∧
        (if wasQueued then r.dropOutbox id else r).status = r.status := by
    cases wasQueued <;> exact ⟨⟨_, _, rfl⟩, rfl⟩
  rw [eq]
  unfold RedisSlots.releaseWorkflowSlot
  constructor
  case toAligned =>
    apply (aligned.release left ended).congr
    apply (dropped _ _).1.trans
    apply RedisSlots.completePromotions_slot
  case status =>
    intro x
    have kept : (r'.workflowRelease id now).1.status x = t.status? x := by
      rw [RedisSlots.workflowRelease_eq, drain_status, handed.status]
      change r'.status x = _
      rw [status, status?, left.executions]
      by_cases self : x = id
      · simp [self]
      · simpa [self] using h.status x
    have next : (r'.workflowRelease id now).2.promoted = (t.slotFor k).taken := promoted
    rw [RedisSlots.completePromotions_status, (dropped _ _).2, kept, next,
      status_promoted settleSlot_promoted]

theorem cancels (canceling : snap'.status = .canceling)
    (status : r'.status = update r.status id (some .canceling)) :
  Corresponds key (s.setExecution id snap') r'
  := by
  have aligned := h.congr same
  constructor
  case toAligned =>
    refine { aligned with consistent := ?consistent, mirrors := ?mirrors }
    case consistent => exact aligned.consistent.cancels found live canceling
    case mirrors => exact { aligned.mirrors with }
  case status =>
    intro x
    rw [status]
    by_cases self : x = id
    · simp [self, setExecution, canceling]
    · simpa [self, setExecution] using h.status x

end

theorem update {status : ExecutionStatus} {errMsg : String} {now : Int}
    (kind : status.isTerminal ∨ status = .canceling) :
  Corresponds key (s.updateExecutionStatus id status errMsg).1
    (r.updateExecutionStatus id status now).1
  := by
  have same := h.status id
  unfold RedisSlots.updateExecutionStatus
  fun_cases s.updateExecutionStatus id status errMsg with
  | case1 none =>
    rw [status?, none] at same
    simpa [same] using h
  | case2 snap found ended | case3 snap found _ ended =>
    rw [status?, found] at same
    simpa [same, ended] using h
  | case4 snap found live free =>
    rw [status?, found, map_some] at same
    rw [Bool.not_eq_true] at live
    simp only [same, live]
    split
    case isTrue ended =>
      apply h.ends found live _ ended
      · split <;> rfl
      · split <;> exact ⟨_, _, rfl⟩
    case isFalse more =>
      cases kind.resolve_left more
      apply h.cancels found live _ rfl
      · rfl
      · exact ⟨_, _, rfl⟩

theorem fill {now : Int} :
  Corresponds key (s.promote key) (r.fillConcurrencySlots now)
  := by
  have settled := h.settled
  have idle : s.promote key = s := promote_settled settled
  have kept : r.fillConcurrencySlots now = r := by
    unfold RedisSlots.fillConcurrencySlots RedisSlots.workflowFill
    dsimp only
    split
    · rw [RedisSlots.handOver_settled]
      · rfl
      · rw [h.mirrors.card, h.mirrors.line]
        by_cases empty : (s.slotFor key).queued = []
        · exact .inr empty
        · have full := settled.resolve_right empty
          rw [h.capacity (.inr empty), getD_some]
          simp only [free] at full
          omega
    · rfl
  rw [idle, kept]
  exact h

end

end Corresponds

/-! ### Submissions -/

variable {snap : ExecutionSnapshot} {entries : List OutboxEntry} {admission : ConcurrencyAdmission}
  {now : Nat}

/-- The keys after the limit of a submission was written. -/
def RedisSlots.relimited (r : RedisSlots) (limit : Int) : RedisSlots :=
  { r with capacity := some limit }

/-- The keys after a member joined the line. -/
def RedisSlots.parked (r : RedisSlots) (id : String) (deadline : Int) : RedisSlots :=
  { r with
    seq := r.seq + 1
    queue := r.queue.add (r.seq + 1) id
    deadline := if 0 < deadline then r.deadline.add deadline id else r.deadline }

/-- When the wait of a submission ends, as Redis has it: zero is never. -/
def deadlineMs (admission : ConcurrencyAdmission) (now : Nat) : Int :=
  if admission.mode = .queue ∧ 0 < admission.queueTimeout then now + admission.queueTimeout else 0

/-- When the wait of a submission ends, as the local store has it. -/
def waitUntil (admission : ConcurrencyAdmission) (now : Nat) : Option Int :=
  if 0 < admission.queueTimeout then some (now + admission.queueTimeout) else none

attribute [local simp] relimited

theorem slotFor_submission (key : SlotKey) (same : admission.workflow = key) :
  (s.relimited admission).slotFor key = { s.slotFor key with limit := admission.limit }
  := by
  simp [same]

attribute [local simp] written waitUntil

/-- The two stores hold the same slots and statuses and have the same limit, whatever is free. -/
structure Limited (key : SlotKey) (s : ConcurrencyState) (r : RedisSlots) : Prop where
  consistent : s.Consistent
  mirrors : Mirrors key s r
  only : ∀ k, k ≠ key → (s.slotFor k).holders = [] ∧ (s.slotFor k).queued = []
  capacity : r.capacity = some (s.slotFor key).limit
  status : ∀ id, r.status id = s.status? id

theorem Corresponds.relimited (h : Corresponds key s r) (same : admission.workflow = key) :
  Limited key (s.relimited admission) (r.relimited admission.limit)
  := by
  have slots := slotFor_relimited (s := s) admission
  constructor
  case consistent => exact h.consistent.relimited admission
  case mirrors =>
    exact { h.mirrors with
      holders := (slots key).1.symm ▸ h.mirrors.holders
      line := (slots key).2.symm ▸ h.mirrors.line }
  case only => simpa only [slots] using h.only
  case capacity =>
    rw [slotFor_submission key same]
    rfl
  case status => exact h.status

namespace Limited

section

variable (h : Limited key s r)

include h

theorem corresponds (settled : (s.slotFor key).free = 0 ∨ (s.slotFor key).queued = []) :
  Corresponds key s r
  :=
  ⟨{ h with capacity := fun _ => h.capacity, settled }, h.status⟩

theorem free_of_new (new : id ∉ (s.slotFor key).holders) :
  s.slotHolders id = none
  := by
  by_contra some
  obtain ⟨k, holds⟩ := ne_none_iff_exists'.mp some
  rw [h.consistent.holder] at holds
  by_cases same : k = key
  · exact new (same ▸ holds)
  · rw [(h.only k same).1] at holds
    cases holds

theorem idle_of_new (new : id ∉ (s.slotFor key).queued) :
  s.queued id = none
  := by
  by_contra some
  obtain ⟨w, waits⟩ := ne_none_iff_exists'.mp some
  grind [h.consistent.waits waits, slot_of_queued h.consistent h.only id w waits]

theorem written_status (running : snap.status = .running) (pending : Bool) {t : ConcurrencyState}
    (kept : t.executions = s.executions) (x : String) :
  Function.update r.status id (some (if pending then .queued else snap.status)) x =
    (t.written id snap entries pending).status? x
  := by
  by_cases self : x = id
  · cases pending <;> simp [self, running]
  · simpa [self, kept] using h.status x

variable (running : snap.status = .running)

include running

theorem charged {score : Int} (new : id ∉ (s.slotFor key).holders)
    (idle : id ∉ (s.slotFor key).queued) :
  Limited key ((s.chargeSlot key id).written id snap entries false)
    ({ r with slot := r.slot.add score id }.createExecutionAdmitted id snap entries false)
  := by
  have after := @slotFor_charge s key id snap entries new
  constructor
  case consistent => exact h.consistent.charge (h.free_of_new new) (h.idle_of_new idle)
  case mirrors =>
    refine { h.mirrors with holders := ?holders, line := ?line }
    case holders =>
      rw [after, if_pos rfl]
      have absent : id ∉ r.slot.members := by grind [h.mirrors.holders.mem_iff]
      apply (add_perm absent).trans
      apply (h.mirrors.holders.cons id).trans
      apply (perm_append_singleton id _).symm
    case line => exact (after key).symm ▸ if_pos rfl ▸ h.mirrors.line
  case only => grind [h.only]
  case capacity =>
    rw [after, if_pos rfl]
    exact h.capacity
  case status => exact h.written_status running false rfl

theorem recharged (holds : id ∈ (s.slotFor key).holders) :
  Limited key ((s.chargeSlot key id).written id snap entries false)
    (r.createExecutionAdmitted id snap entries false)
  := by
  have after := @slotFor_recharge s key id snap entries holds
  constructor
  case consistent => exact h.consistent.recharge holds
  case mirrors =>
    exact { h.mirrors with
      holders := (after key).symm ▸ h.mirrors.holders
      line := (after key).symm ▸ h.mirrors.line }
  case only => grind [h.only]
  case capacity => exact (after key).symm ▸ h.capacity
  case status => exact h.written_status running false rfl

attribute [local simp] ConcurrencyState.park

theorem parked (queues : admission.mode = .queue) (free : id ∉ (s.slotFor key).holders)
    (new : id ∉ (s.slotFor key).queued) :
  Limited key ((s.park key id (waitUntil admission now)).written id snap entries true)
    ((r.parked id (deadlineMs admission now)).createExecutionAdmitted id snap entries true)
  := by
  have idle := h.idle_of_new new
  have after := @slotFor_park s key id snap entries (waitUntil admission now)
  constructor
  case consistent => exact h.consistent.park (h.free_of_new free) idle
  case mirrors =>
    constructor
    case holders =>
      rw [after, if_pos rfl]
      exact h.mirrors.holders
    case line =>
      rw [after, if_pos rfl]
      have line := members_add_last (h.mirrors.line.symm ▸ new)
        fun e member => Int.lt_add_one_of_le (h.mirrors.scores e member)
      rw [h.mirrors.line] at line
      exact line
    case scores =>
      intro e member
      rcases mem_entries_add.mp member with rfl | ⟨old, -⟩
      · exact le_rfl
      · exact (h.mirrors.scores e old).trans (Int.le_of_lt (Int.lt_succ _))
    case deadline =>
      intro t x
      have before := h.mirrors.deadline t x
      by_cases waits : 0 < admission.queueTimeout
      · have positive : 0 < (now : Int) + admission.queueTimeout := by omega
        simp only [RedisSlots.createExecutionAdmitted, RedisSlots.parked, deadlineMs, queues, waits,
          positive, and_self, if_true, mem_entries_add]
        by_cases self : x = id
        · simp [self, waits, eq_comm]
        · simpa [self] using before
      · simp only [RedisSlots.createExecutionAdmitted, RedisSlots.parked, deadlineMs, waits]
        by_cases self : x = id
        · rw [self, idle] at before
          simpa [self, waits] using before
        · simpa [self] using before
  case only => grind [h.only]
  case capacity =>
    rw [after, if_pos rfl]
    exact h.capacity
  case status => exact h.written_status running true rfl

end

end Limited

/-- The submission does not wait already, is not a holder of a full slot, and finds no slot free
that somebody waits for. -/
def Judgeable (key : SlotKey) (s : ConcurrencyState) (id : String) (limit : Int) : Prop :=
  id ∉ (s.slotFor key).queued ∧
    (id ∈ (s.slotFor key).holders → ((s.slotFor key).holders.length : Int) < limit) ∧
    ((s.slotFor key).queued = [] ∨ limit ≤ ((s.slotFor key).holders.length : Int))

namespace Corresponds

attribute [local simp] RedisSlots.workflowAdmit RedisSlots.relimited AdmitCode.refusal
  RedisSlots.completePromotions chargeOrPark

section

variable (queues : admission.mode = .queue) (new : id ∉ (s.slotFor key).queued)
  (full : admission.limit ≤ ((s.slotFor key).holders.length : Int))
  (short : ¬ (0 < admission.maxQueued ∧
    admission.maxQueued ≤ ((s.slotFor key).queued.length : Int)))

include queues new full short

/-- The local store parks a submission at the end of the line. -/
theorem parks (same : admission.workflow = key) :
  s.createExecutionWithConcurrency id snap entries admission now =
    (((s.relimited admission).park key id (waitUntil admission now)).written id snap entries true,
      .ok { queued := true, queuePosition := (s.slotFor key).queued.length + 1 })
  := by
  subst same
  have taken := not_lt.mpr full
  have decision : s.chargeOrPark id admission now =
      ((s.relimited admission).park admission.workflow id (waitUntil admission now), .ok true) := by
    simp [parkOrCharge, queues, taken, short]
  have position : (((s.relimited admission).park admission.workflow id
      (waitUntil admission now)).written id snap entries true).queuePosition id =
      (s.slotFor admission.workflow).queued.length + 1 := by
    simp only [queuePosition, slotFor_park]
    simp [park, idxOf_append, new]
  unfold createExecutionWithConcurrency
  rw [decision, ← position]
  rfl

/-- Redis parks a submission at the end of the line. -/
theorem parks' (h : Corresponds key s r) (free : id ∉ (s.slotFor key).holders) :
  r.createExecutionWithConcurrency id snap entries admission now =
    (((r.relimited admission.limit).parked id (deadlineMs admission now)).createExecutionAdmitted
      id snap entries true,
      .ok { queued := true, queuePosition := (s.slotFor key).queued.length + 1 })
  := by
  have mirrors := h.mirrors
  have card := mirrors.card
  have waiting := mirrors.queue_card
  have taken := not_lt.mpr full
  have absent := mirrors.unscored free
  have unranked := mirrors.unranked new
  have position : (r.queue.add (r.seq + 1) id).card = (s.slotFor key).queued.length + 1 := by
    have outside : id ∉ r.queue.members := by
      rw [mirrors.line]
      exact new
    rw [← length_members, (add_perm outside).length_eq, length_cons, mirrors.line]
  have joins : (r.relimited admission.limit).joinLine id admission.limit now
      (deadlineMs admission now) =
      ((r.relimited admission.limit).parked id (deadlineMs admission now),
        { code := .queued
          position := (s.slotFor key).queued.length + 1
          added := true
          promoted := [] }) := by
    unfold RedisSlots.joinLine
    dsimp only
    rw [RedisSlots.handOver_settled]
    · rw [← position]
      rfl
    · left
      rw [← card] at full
      exact full
  have decision : r.workflowAdmit id admission.limit now admission.mode admission.maxQueued
      (deadlineMs admission now) =
      (r.relimited admission.limit).joinLine id admission.limit now (deadlineMs admission now) := by
    simp [absent, unranked, card, waiting, taken, queues, short]
  unfold RedisSlots.createExecutionWithConcurrency
  rw [← deadlineMs]
  dsimp only
  rw [decision, joins]
  simp

end

section

variable (h : Corresponds key s r) (same : admission.workflow = key)
  (running : snap.status = .running) {localCall redisCall}
  (asked : localCall = s.createExecutionWithConcurrency id snap entries admission now)
  (asked' : redisCall = r.createExecutionWithConcurrency id snap entries admission now)

include h same running asked asked'

attribute [local simp] RedisSlots.createExecutionWithConcurrency createExecutionWithConcurrency

theorem submit_room (line : (s.slotFor key).queued = [])
    (room : ((s.slotFor key).holders.length : Int) < admission.limit) :
  localCall.2 = redisCall.2 ∧ Corresponds key localCall.1 redisCall.1
  := by
  have charges : s.createExecutionWithConcurrency id snap entries admission now =
      (((s.relimited admission).chargeSlot key id).written id snap entries false, .ok {}) := by
    subst same
    have open' := not_le.mpr room
    cases mode : admission.mode <;>
      simp [parkOrCharge, mode, line, room, open']
  have card := h.mirrors.card
  have waiting : r.queue.card = 0 := by
    rw [h.mirrors.queue_card, line]
    rfl
  have unranked : r.queue.rank? id = none := h.mirrors.unranked (by simp [line])
  have limited := h.relimited same
  have slot := slotFor_submission (s := s) key same
  rw [asked, asked', charges]
  by_cases holds : id ∈ (s.slotFor key).holders
  · have present : (r.slot.score? id).isSome := by
      rw [isSome_score?, h.mirrors.holders.mem_iff]
      exact holds
    have found : r.createExecutionWithConcurrency id snap entries admission now =
        ((r.relimited admission.limit).createExecutionAdmitted id snap entries false, .ok {}) := by
      simp [present]
    have holds' : id ∈ ((s.relimited admission).slotFor key).holders := slot ▸ holds
    rw [found]
    refine ⟨rfl, (limited.recharged running holds').corresponds (.inr ?_)⟩
    rw [slotFor_recharge holds', slot]
    exact line
  · have absent := h.mirrors.unscored holds
    have added : r.createExecutionWithConcurrency id snap entries admission now =
        ({ r.relimited admission.limit with slot := r.slot.add (now / 1000) id
          }.createExecutionAdmitted id snap entries false, .ok {}) := by
      simp [absent, unranked, card, waiting, room]
    have new : id ∉ ((s.relimited admission).slotFor key).holders := slot ▸ holds
    rw [added]
    refine ⟨rfl, (limited.charged running new ?_).corresponds (.inr ?_)⟩
    · rw [slot]
      simp [line]
    · rw [slotFor_charge new, if_pos rfl, slot]
      exact line

theorem submit_full (free : id ∉ (s.slotFor key).holders)
    (new : id ∉ (s.slotFor key).queued)
    (full : admission.limit ≤ ((s.slotFor key).holders.length : Int)) :
  localCall.2 = redisCall.2 ∧ Corresponds key localCall.1 redisCall.1
  := by
  rw [asked, asked']
  have mirrors := h.mirrors
  have card := mirrors.card
  have waiting := mirrors.queue_card
  have taken := not_lt.mpr full
  have absent := mirrors.unscored free
  have unranked := mirrors.unranked new
  have limited := h.relimited same
  have slot := slotFor_submission (s := s) key same
  have none_free : ((s.relimited admission).slotFor key).free = 0 := by
    rw [slot]
    simp only [Semaphore.free]
    omega
  cases mode : admission.mode with
  | reject =>
    have refuses : s.createExecutionWithConcurrency id snap entries admission now =
        (s.relimited admission, .error .concurrencyLimit) := by
      subst same
      simp [mode, full]
    have refuses' : r.createExecutionWithConcurrency id snap entries admission now =
        (r.relimited admission.limit, .error .concurrencyLimit) := by
      simp [absent, unranked, card, taken, mode]
    rw [refuses, refuses']
    exact ⟨rfl, limited.corresponds (.inl none_free)⟩
  | queue =>
    by_cases long : 0 < admission.maxQueued ∧
        admission.maxQueued ≤ ((s.slotFor key).queued.length : Int)
    · have refuses : s.createExecutionWithConcurrency id snap entries admission now =
          (s.relimited admission, .error .concurrencyQueueFull) := by
        subst same
        simp [parkOrCharge, mode, taken, long]
      have refuses' : r.createExecutionWithConcurrency id snap entries admission now =
          (r.relimited admission.limit, .error .concurrencyQueueFull) := by
        simp [absent, unranked, card, waiting, taken, mode, long]
      rw [refuses, refuses']
      exact ⟨rfl, limited.corresponds (.inl none_free)⟩
    · rw [parks mode new full long same, h.parks' mode new full long free]
      refine ⟨rfl, (limited.parked running mode (slot ▸ free) (slot ▸ new)).corresponds (.inl ?_)⟩
      rw [slotFor_park, if_pos rfl]
      exact none_free

theorem submit (judgeable : Judgeable key s id admission.limit) :
  localCall.2 = redisCall.2 ∧ Corresponds key localCall.1 redisCall.1
  := by
  obtain ⟨new, again, line⟩ := judgeable
  by_cases room : ((s.slotFor key).holders.length : Int) < admission.limit
  · apply h.submit_room same running asked asked' (line.resolve_right (not_le.mpr room)) room
  · apply h.submit_full same running asked asked' (fun holds => room (again holds)) new
      (not_lt.mp room)

end

end Corresponds

end

end Xflow
