import Xflow.Redis.SlotAgreement

/-!
# Runs of the two stores

Any sequence of submissions, status updates, sweeps of the line and fills that are judged alike
leaves the two stores with the same holders and the same line (`slots_agree`).  A sweep removes
those whose wait is over: the local store one after the other in the order of its map, Redis all at
once.
-/

namespace Xflow

open ConcurrencyState List SortedSet

open RedisSlots (sweepBatch)

variable {key : SlotKey} {s s' : ConcurrencyState} {r r' : RedisSlots} {id : String}
  {ids : List String}

/-! ### The sweep of the local store -/

/-- The store after `ids` left the line and timed out. -/
structure Swept (key : SlotKey) (ids : List String) (s s' : ConcurrencyState) : Prop where
  consistent : Consistent s'
  holders : (s'.slotFor key).holders = (s.slotFor key).holders
  line : (s'.slotFor key).queued = (s.slotFor key).queued.filter (· ∉ ids)
  limit : (s'.slotFor key).holders ≠ [] ∨ (s'.slotFor key).queued ≠ [] →
    (s'.slotFor key).limit = (s.slotFor key).limit
  settled : (s'.slotFor key).free = 0 ∨ (s'.slotFor key).queued = []
  others : ∀ k, k ≠ key → s'.slotFor k = s.slotFor k
  queued : ∀ x, s'.queued x = if x ∈ ids then none else s.queued x
  status : ∀ x, s'.status? x = if x ∈ ids then some .timeout else s.status? x

theorem swept_one (h : Consistent s)
    (settled : (s.slotFor key).free = 0 ∨ (s.slotFor key).queued = [])
    (waits : id ∈ (s.slotFor key).queued) (queued : s.status? id = some .queued) :
  Swept key [id] s (s.updateExecutionStatus id .timeout concurrencyQueueTimeoutError).1
  := by
  obtain ⟨snap, found, status⟩ := Option.map_eq_some_iff.mp queued
  have live : snap.status.isTerminal = false := by
    rw [status]
    rfl
  obtain ⟨k, t, left, eq⟩ := h.release_eq found live
    { snap with status := .timeout, error := concurrencyQueueTimeoutError }
  have update : (s.updateExecutionStatus id .timeout concurrencyQueueTimeoutError).1 =
      t.settleSlot k := by
    rw [← eq]
    simp only [updateExecutionStatus, found, status]
    rfl
  obtain ⟨free, w, mine, slot⟩ := h.of_line waits
  obtain rfl : k = key := by
    rcases left.place with holds | there
    · rw [← h.holder, free] at holds
      cases holds
    · rw [← h.waiting, mine] at there
      exact (Option.some.inj there).symm.trans slot
  have nobody := h.nobody_next settled left waits
  have pass : Promoted k t (t.settleSlot k) := settleSlot_promoted
  have absent : id ∉ (s.slotFor k).holders := fun holds => (h.valid k).disjoint id holds waits
  have kept := (t.slotFor k).taken_append
  rw [nobody, nil_append] at kept
  rw [update]
  constructor
  case consistent => exact (h.left left rfl).promoted pass
  case holders =>
    rw [pass.held, Semaphore.filled, nobody, append_nil, left.held, erase_of_not_mem absent]
  case line =>
    rw [pass.line, kept, left.line, (h.valid k).queued.erase_eq_filter]
    grind
  case limit =>
    intro used
    rw [settleSlot_limit used, left.limit]
  case settled => exact pass.settled
  case others => grind [pass.others, left.others]
  case queued => grind [pass.queued, left.queued]
  case status =>
    intro x
    rw [status_promoted pass, nobody, status?, left.executions]
    by_cases self : x = id <;> simp [self, status?]

theorem Swept.used (h : Swept key ids s s')
    (used : (s'.slotFor key).holders ≠ [] ∨ (s'.slotFor key).queued ≠ []) :
  (s.slotFor key).holders ≠ [] ∨ (s.slotFor key).queued ≠ []
  := by
  rw [← h.holders]
  apply used.imp_right
  intro more empty
  rw [h.line, empty] at more
  exact more rfl

theorem Swept.trans {ids' : List String} {s'' : ConcurrencyState} (first : Swept key ids s s')
    (second : Swept key ids' s' s'') :
  Swept key (ids ++ ids') s s''
  := by
  obtain ⟨-, holders, line, limit, -, others, queued, status⟩ := first
  refine ⟨second.consistent, second.holders.trans holders, ?line, fun used => ?limit,
    second.settled, ?others, ?queued, ?status⟩
  case line =>
    rw [second.line, line]
    simp [Bool.and_comm]
  case limit => rw [second.limit used, limit (second.used used)]
  case others => grind [second.others]
  case queued => grind [second.queued]
  case status => grind [second.status]

/-- All of `ids` leave the line and time out. -/
theorem timeOut_swept (h : Consistent s)
    (settled : (s.slotFor key).free = 0 ∨ (s.slotFor key).queued = [])
    (nodup : ids.Nodup) (waits : ∀ id ∈ ids, id ∈ (s.slotFor key).queued)
    (queued : ∀ id ∈ ids, s.status? id = some .queued) :
  Swept key ids s (s.timeOut ids)
  := by
  unfold timeOut
  induction ids generalizing s with
  | nil => constructor <;> simp [h, settled]
  | cons a ids ih =>
    rw [nodup_cons] at nodup
    rw [forall_mem_cons] at waits queued
    have one := swept_one h settled waits.1 queued.1
    have other : ∀ x ∈ ids, x ≠ a := fun x member same => nodup.1 (same ▸ member)
    apply one.trans
    apply ih one.consistent one.settled nodup.2
    · intro x member
      rw [one.line]
      simpa [other x member] using waits.2 x member
    · intro x member
      rw [one.status]
      simpa [other x member] using queued.2 x member

/-! ### The sweep of Redis -/

/-- The keys after `ids` left the line. -/
structure LeftLine (ids : List String) (r r' : RedisSlots) : Prop where
  slot : r'.slot = r.slot
  queue : r'.queue.members = r.queue.members.filter (· ∉ ids)
  scores : ∀ e ∈ r'.queue.entries, e ∈ r.queue.entries
  seq : r'.seq = r.seq
  deadline : ∀ e, e ∈ r'.deadline.entries ↔ e ∈ r.deadline.entries ∧ e.2 ∉ ids
  capacity : r'.capacity = r.capacity
  status : r'.status = r.status

theorem LeftLine.cons (left : LeftLine ids r r') :
  LeftLine (ids ++ [id]) r
    { r' with deadline := r'.deadline.remove id, queue := r'.queue.remove id }
  := by
  refine { left with queue := ?queue, scores := ?scores, deadline := ?deadline }
  case queue =>
    rw [members_remove, left.queue, (r.queue.nodup_members.filter _).erase_eq_filter, filter_filter]
    grind
  case scores => exact fun e inside => left.scores e (mem_entries_remove.mp inside).1
  case deadline => grind [mem_entries_remove, left.deadline]

variable {now : Int}

theorem workflowQueueExpire_spec {limit : Nat}
    (inLine : r.deadline.members ⊆ r.queue.members) :
  (r.workflowQueueExpire now limit).2 = r.deadline.upTo now limit ∧
    LeftLine (r.deadline.upTo now limit) r (r.workflowQueueExpire now limit).1
  := by
  -- the rounds that are left take out the rest of a list without repetitions
  have rounds : ∀ (due done : List String) (t : RedisSlots), (done ++ due).Nodup →
      (∀ x ∈ due, x ∈ r.queue.members) → LeftLine done r t →
      let result := due.foldl (fun s id =>
        if (s.1.queue.score? id).isSome then
          ({ s.1 with deadline := s.1.deadline.remove id, queue := s.1.queue.remove id },
            s.2 ++ [id])
        else ({ s.1 with deadline := s.1.deadline.remove id }, s.2)) (t, done)
      result.2 = done ++ due ∧ LeftLine (done ++ due) r result.1 := by
    intro due
    induction due with
    | nil =>
      intro done t _ _ left
      simpa using left
    | cons a due ih =>
      intro done t nodup member left
      rw [forall_mem_cons] at member
      have new : a ∉ done := by grind
      have there : (t.queue.score? a).isSome := by
        rw [isSome_score?, left.queue]
        simpa [new] using member.1
      have next := ih (done ++ [a])
        { t with deadline := t.deadline.remove a, queue := t.queue.remove a }
        (by simpa using nodup) member.2 left.cons
      rw [foldl_cons]
      simpa [there] using next
  have start : LeftLine [] r r := by
    constructor <;> simp
  have nodup : (r.deadline.upTo now limit).Nodup := nodup_members.sublist upTo_sublist
  exact rounds _ [] r nodup (fun x due => inLine (upTo_sublist.subset due)) start

theorem without_absent (free : id ∉ r.slot.members) (idle : id ∉ r.queue.members)
    (undue : id ∉ r.deadline.members) :
  r.without id = r
  := by
  rw [RedisSlots.without, remove_of_not_mem free, remove_of_not_mem idle, remove_of_not_mem undue]

/-- The keys after `ids`, who hold nothing and wait for nothing, timed out.  A capacity that nobody
needs may be gone. -/
structure TimedOut (ids : List String) (r r' : RedisSlots) : Prop where
  slot : r'.slot = r.slot
  queue : r'.queue = r.queue
  seq : r'.seq = r.seq
  deadline : r'.deadline = r.deadline
  capacity : r'.capacity = r.capacity ∨ (r.slot.members = [] ∧ r.queue.members = [])
  status : ∀ x, r'.status x = if x ∈ ids then some .timeout else r.status x

theorem timedOut_one (queued : r.status id = some .queued) (free : id ∉ r.slot.members)
    (idle : id ∉ r.queue.members) (inLine : r.deadline.members ⊆ r.queue.members) :
  TimedOut [id] r ((r.updateExecutionStatus id .timeout now).1.dropOutbox id)
  := by
  have undue : id ∉ r.deadline.members := fun member => idle (inLine member)
  let t := { r with status := Function.update r.status id (some .timeout) }.dropOutbox id
  have nowhere : t.without id = t := without_absent free idle undue
  have vacated : t.vacated id now = (t, []) := by
    have absent : ¬ (t.slot.score? id).isSome := by
      rw [isSome_score?]
      exact free
    rw [RedisSlots.vacated, if_neg (fun both => absent both.1), nowhere]
  have wasQueued : (t.queue.score? id).isSome = false := by
    rw [Bool.eq_false_iff, ne_eq, isSome_score?]
    exact idle
  have update : (r.updateExecutionStatus id .timeout now).1 = t.drain.1 := by
    have release : t.releaseWorkflowSlot id now = t.drain.1 := by
      unfold RedisSlots.releaseWorkflowSlot
      rw [RedisSlots.workflowRelease_eq, vacated, wasQueued]
      rfl
    rw [← release]
    simp [RedisSlots.updateExecutionStatus, queued, ExecutionStatus.isTerminal, t]
  have status : ∀ x, t.status x = if x ∈ [id] then some .timeout else r.status x := by
    intro x
    by_cases self : x = id <;> simp [t, RedisSlots.dropOutbox, self]
  rw [update]
  unfold RedisSlots.drain
  split
  · rename_i empty
    have noSlot : r.slot = {} := eq_empty_of_card empty.1
    have noQueue : r.queue = {} := eq_empty_of_card empty.2
    have noDeadline : r.deadline = {} := by
      rw [noQueue] at inLine
      have none : r.deadline.members = [] := subset_nil.mp inLine
      exact eq_empty_of_card (by rw [← length_members, none]; rfl)
    refine ⟨noSlot.symm, noQueue.symm, rfl, noDeadline.symm, .inr ?_, status⟩
    rw [noSlot, noQueue]
    exact ⟨rfl, rfl⟩
  · exact ⟨rfl, rfl, rfl, rfl, .inl rfl, status⟩

theorem timedOut_all (nodup : ids.Nodup) (queued : ∀ id ∈ ids, r.status id = some .queued)
    (free : ∀ id ∈ ids, id ∉ r.slot.members) (idle : ∀ id ∈ ids, id ∉ r.queue.members)
    (inLine : r.deadline.members ⊆ r.queue.members) :
  TimedOut ids r
    (ids.foldl (fun r id => (r.updateExecutionStatus id .timeout now).1.dropOutbox id) r)
  := by
  induction ids generalizing r with
  | nil => constructor <;> simp
  | cons a ids ih =>
    rw [nodup_cons] at nodup
    rw [forall_mem_cons] at queued free idle
    obtain ⟨slot, queue, seq, deadline, capacity, status⟩ :=
      @timedOut_one r a now queued.1 free.1 idle.1 inLine
    have rest := ih nodup.2
      (fun x member => by
        have other : x ≠ a := fun same => nodup.1 (same ▸ member)
        simpa [status, other] using queued.2 x member)
      (slot ▸ free.2) (queue ▸ idle.2) (by rwa [deadline, queue])
    refine ⟨rest.slot.trans slot, rest.queue.trans queue, rest.seq.trans seq,
      rest.deadline.trans deadline, ?_, fun x => ?_⟩
    · have capacity' := rest.capacity
      rw [slot, queue] at capacity'
      exact capacity'.elim (fun same => capacity.imp_left same.trans) .inr
    · rw [foldl_cons, rest.status, status]
      by_cases member : x ∈ ids <;> simp [member]

/-- `ExpireQueuedExecutions` of Redis: those whose wait is over leave the line, then they time out.
-/
theorem expire_timedOut {limit now : Int}
    (inLine : r.deadline.members ⊆ r.queue.members)
    (apart : ∀ x ∈ r.queue.members, x ∉ r.slot.members)
    (queued : ∀ id ∈ r.deadline.upTo now (sweepBatch limit),
      r.status id = some .queued) :
  ∃ t, LeftLine (r.deadline.upTo now (sweepBatch limit)) r t ∧
    TimedOut (r.deadline.upTo now (sweepBatch limit)) t (r.expireQueuedExecutions limit now)
  := by
  obtain ⟨expired, left⟩ := @workflowQueueExpire_spec r now (sweepBatch limit) inLine
  refine ⟨_, left, ?_⟩
  unfold RedisSlots.expireQueuedExecutions
  dsimp only
  rw [expired]
  apply timedOut_all (nodup_members.sublist upTo_sublist)
  · rw [left.status]
    exact queued
  · rw [left.slot]
    exact fun x due => apart x (inLine (upTo_sublist.subset due))
  · intro x due there
    rw [left.queue] at there
    simpa [due] using of_mem_filter there
  · intro x due
    obtain ⟨e, inside, rfl⟩ := mem_map.mp due
    obtain ⟨old, other⟩ := (left.deadline e).mp inside
    rw [left.queue]
    simpa using ⟨inLine (mem_map_of_mem old), other⟩

/-! ### The sweep of both -/

section

variable (h : Corresponds key s r)

include h

theorem Corresponds.swept {expired : List String} {t : RedisSlots} (here : Swept key ids s s')
    (left : LeftLine expired r t) (there : TimedOut expired t r')
    (same : ∀ x, x ∈ expired ↔ x ∈ ids) :
  Corresponds key s' r'
  := by
  have mirrors := h.mirrors
  have line : r'.queue.members = (s'.slotFor key).queued := by
    rw [there.queue, left.queue, here.line, mirrors.line]
    grind
  have holders : r'.slot.members.Perm (s'.slotFor key).holders := by
    rw [there.slot, left.slot, here.holders]
    exact mirrors.holders
  constructor
  case toAligned =>
    refine { here with mirrors := ?mirrors, only := ?only, capacity := ?capacity }
    case mirrors =>
      refine ⟨holders, line, ?scores, fun t x => ?deadline⟩
      case scores =>
        rw [there.queue, there.seq, left.seq]
        exact fun e member => mirrors.scores e (left.scores e member)
      case deadline =>
        rw [there.deadline, left.deadline, mirrors.deadline, here.queued, same]
        by_cases member : x ∈ ids <;> simp [member]
    case only => grind [h.only, here.others]
    case capacity =>
      intro used
      rcases there.capacity with kept | ⟨noSlot, noQueue⟩
      · rw [kept, left.capacity, here.limit used]
        exact h.capacity (here.used used)
      · rw [there.slot, noSlot] at holders
        rw [there.queue, noQueue] at line
        exact absurd used (by simp [← line, holders.symm.eq_nil])
  case status =>
    intro x
    rw [there.status, left.status, here.status, h.status]
    simp [same]

theorem due_iff (x : String) :
  s.due now x ↔ ∃ t, (t, x) ∈ r.deadline.entries ∧ t ≤ now
  := by
  simp only [h.mirrors.deadline, due]
  cases waits : s.queued x with
  | none => simp
  | some w => cases ends : w.deadline <;> simp [ends]

theorem Corresponds.inLine :
  r.deadline.members ⊆ r.queue.members
  := by
  intro x due
  obtain ⟨⟨t, x⟩, member, rfl⟩ := mem_map.mp due
  obtain ⟨w, waits, -⟩ := (h.mirrors.deadline t x).mp member
  rw [h.mirrors.line, ← slot_of_queued h.consistent h.only x w waits]
  exact h.consistent.waits waits

theorem line_of_due {x : String} (due : s.due now x) :
  x ∈ (s.slotFor key).queued
  := by
  obtain ⟨t, member, -⟩ := (due_iff h x).mp due
  exact h.mirrors.line ▸ h.inLine (mem_map_of_mem member)

theorem due_length :
  (r.deadline.entries.filter fun e => e.1 ≤ now).length =
    ((s.slotFor key).queued.filter (s.due now)).length
  := by
  have perm : ((r.deadline.entries.filter fun e => e.1 ≤ now).map Prod.snd).Perm
      ((s.slotFor key).queued.filter (s.due now)) := by
    apply (perm_ext_iff_of_nodup _ _).mpr
    · intro x
      rw [mem_filter]
      constructor
      · intro member
        obtain ⟨e, inside, rfl⟩ := mem_map.mp member
        have passed : s.due now e.2 := by
          rw [due_iff h]
          obtain ⟨member, le⟩ := mem_filter.mp inside
          exact ⟨e.1, member, of_decide_eq_true le⟩
        exact ⟨line_of_due h passed, passed⟩
      · rintro ⟨-, passed⟩
        obtain ⟨t, member, le⟩ := (due_iff h x).mp passed
        exact mem_map.mpr ⟨(t, x), by simpa using ⟨member, le⟩, rfl⟩
    · exact r.deadline.nodup.sublist (filter_sublist.map Prod.snd)
    · exact (h.consistent.valid key).queued.filter _
  rw [← perm.length_eq, length_map]

theorem Corresponds.expire {walk : List String} {limit now : Int}
    (walks : walk.Perm (s.slotFor key).queued)
    (enough : ((s.slotFor key).queued.filter (s.due now)).length ≤ sweepBatch limit)
    (live : ∀ id ∈ (s.slotFor key).queued, s.due now id → s.status? id ≠ some .canceling) :
  Corresponds key (s.expireQueuedExecutions walk limit now).1 (r.expireQueuedExecutions limit now)
  := by
  have queued : ∀ x, s.due now x → s.status? x = some .queued := by
    intro x due
    have line := line_of_due h due
    obtain ⟨free, w, waits, -⟩ := h.consistent.of_line line
    have agrees := h.consistent.agrees x
    unfold Agrees at agrees
    split at agrees <;> simp_all
  have collected : s.collectExpired walk limit now = walk.filter (s.due now) := by
    unfold collectExpired
    split
    · rename_i positive
      apply take_of_length_le
      rw [(walks.filter _).length_eq]
      rwa [sweepBatch, if_neg (not_le.mpr positive)] at enough
    · rfl
  have same : ∀ x, x ∈ r.deadline.upTo now (sweepBatch limit) ↔
      x ∈ walk.filter (s.due now) := by
    intro x
    rw [mem_upTo ((due_length h).trans_le enough), ← due_iff h, mem_filter]
    constructor
    · intro due
      exact ⟨walks.mem_iff.mpr (line_of_due h due), due⟩
    · exact fun both => both.2
  have here :
      Swept key (walk.filter (s.due now)) s (s.expireQueuedExecutions walk limit now).1 := by
    unfold expireQueuedExecutions
    rw [collected]
    apply timeOut_swept h.consistent h.settled
    · exact (walks.nodup_iff.mpr (h.consistent.valid key).queued).filter _
    · exact fun x member => walks.mem_iff.mp (mem_of_mem_filter member)
    · exact fun x member => queued x (of_mem_filter member)
  obtain ⟨t, left, there⟩ := @expire_timedOut r limit now h.inLine (h.mirrors.apart h.consistent)
    fun x member => (h.status x).trans (queued x (of_mem_filter ((same x).mp member)))
  exact h.swept here left there same

end

/-! ### Runs -/

/-- What is done to the slots of one workflow. -/
inductive SlotCall where
  | submit (id : String) (entries : List OutboxEntry) (admission : ConcurrencyAdmission) (now : Nat)
  | update (id : String) (status : ExecutionStatus) (errMsg : String) (now : Int)
  | expire (walk : List String) (limit now : Int)
  | fill (now : Int)

/-- One call on both stores.  A status update ends an execution or begins to cancel it, and the
local sweep walks through the line in some order. -/
def bothStep (key : SlotKey) :
    SlotCall → ConcurrencyState × RedisSlots → Option (ConcurrencyState × RedisSlots)
  | .submit id entries admission now, (s, r) =>
    if admission.workflow = key then
      some ((s.createExecutionWithConcurrency id { status := .running } entries admission now).1,
        (r.createExecutionWithConcurrency id { status := .running } entries admission now).1)
    else none
  | .update id status errMsg now, (s, r) =>
    if status.isTerminal ∨ status = .canceling then
      some ((s.updateExecutionStatus id status errMsg).1, (r.updateExecutionStatus id status now).1)
    else none
  | .expire walk limit now, (s, r) =>
    if walk.Perm (s.slotFor key).queued then
      some ((s.expireQueuedExecutions walk limit now).1, r.expireQueuedExecutions limit now)
    else none
  | .fill now, (s, r) => some (s.promote key, r.fillConcurrencySlots now)

/-- A submission is judgeable, and a sweep is not cut off and meets nobody who is being canceled. -/
def Matched (key : SlotKey) : SlotCall → ConcurrencyState × RedisSlots → Prop
  | .submit id _ admission _, p => Judgeable key p.1 id admission.limit
  | .expire _ limit now, p =>
    ((p.1.slotFor key).queued.filter (p.1.due now)).length ≤ RedisSlots.sweepBatch limit ∧
      ∀ id ∈ (p.1.slotFor key).queued, p.1.due now id → p.1.status? id ≠ some .canceling
  | _, _ => True

instance (id : String) (limit : Int) : Decidable (Judgeable key s id limit) :=
  inferInstanceAs (Decidable (_ ∧ _ ∧ _))

instance (call : SlotCall) (p : ConcurrencyState × RedisSlots) :
    Decidable (Matched key call p) := by
  unfold Matched
  split <;> infer_instance

theorem Corresponds.step {call : SlotCall} {p p' : ConcurrencyState × RedisSlots}
    (h : Corresponds key p.1 p.2) (matched : Matched key call p)
    (next : bothStep key call p = some p') :
  Corresponds key p'.1 p'.2
  := by
  obtain ⟨s, r⟩ := p
  cases call with
  | submit id entries admission now =>
    obtain ⟨same, rfl⟩ : admission.workflow = key ∧ _ := by
      simpa [bothStep] using next
    exact (h.submit same rfl rfl rfl matched).2
  | update id status errMsg now =>
    obtain ⟨kind, rfl⟩ : (status.isTerminal ∨ status = .canceling) ∧ _ := by
      simpa [bothStep] using next
    exact h.update kind
  | expire walk limit now =>
    obtain ⟨walks, rfl⟩ : walk.Perm (s.slotFor key).queued ∧ _ := by
      simpa [bothStep] using next
    exact h.expire walks matched.1 matched.2
  | fill now =>
    obtain rfl : (s.promote key, r.fillConcurrencySlots now) = p' := by
      simpa [bothStep] using next
    exact h.fill

/-- In every run of matched calls the two stores have the same holders and the same line, and give
the same answer to every submission that is matched. -/
theorem slots_agree {s : ConcurrencyState} {r : RedisSlots}
    (run : Transition.Run (bothStep key) (Matched key) ({}, {}) (s, r)) :
  (∀ id, id ∈ r.slot.members ↔ id ∈ (s.slotFor key).holders) ∧
    r.queue.members = (s.slotFor key).queued ∧
    ∀ id entries admission now, admission.workflow = key →
      Matched key (.submit id entries admission now) (s, r) →
      (s.createExecutionWithConcurrency id { status := .running } entries admission now).2 =
        (r.createExecutionWithConcurrency id { status := .running } entries admission now).2
  := by
  have h : Corresponds key s r := by
    apply Transition.Run.invariant (I := fun p => Corresponds key p.1 p.2) run corresponds_empty
    intro call p p' h matched next
    exact h.step matched next
  refine ⟨fun id => h.mirrors.holders.mem_iff, h.mirrors.line, ?_⟩
  intro id entries admission now same matched
  exact (h.submit same rfl rfl rfl matched).1

namespace Sample

open Sample in
/-- A submission to the sample workflow. -/
def submission (limit : Int) (mode : ConcurrencyMode) (timeout : Int) : ConcurrencyAdmission :=
  { workflow := shop, limit := limit, mode := mode, queueTimeout := timeout }

end Sample

open Sample

/-- One of two waiting executions runs out of time; when the holder ends, the other one gets the
slot, and both stores would park the next submission at the head of the line. -/
theorem sweptLine_agrees :
  ∃ (s : ConcurrencyState) (r : RedisSlots),
    (∀ id, id ∈ r.slot.members ↔ id ∈ (s.slotFor shop).holders) ∧
    (s.slotFor shop).holders = ["c"] ∧
    (r.createExecutionWithConcurrency "d" { status := .running } []
      (submission 1 .queue 0) 9).2 = .ok { queued := true, queuePosition := 1 }
  := by
  have run := @Transition.Run.of_guarded _ _ (bothStep shop) (Matched shop) _
    [.submit "a" [] (submission 1 .queue 0) 1, .submit "b" [] (submission 1 .queue 5) 1,
      .submit "c" [] (submission 1 .queue 50) 1, .expire ["c", "b"] 0 9,
      .update "a" .success "" 9] ({}, {}) _ rfl
  obtain ⟨holders, -, verdict⟩ := slots_agree run
  have parked := verdict "d" [] (submission 1 .queue 0) 9 rfl (by decide)
  exact ⟨_, _, holders, by decide, parked.symm.trans (by decide)⟩

/-- A sweep that takes one of two whose wait is over takes the first of the walk in the local store,
and the one with the earlier deadline in Redis. -/
theorem boundedSweep_differs :
  ∃ s r, Transition.Run (bothStep shop) (Matched shop) ({}, {}) (s, r) ∧
    ∃ s' r', bothStep shop (.expire ["c", "b"] 1 9) (s, r) = some (s', r') ∧
      (s'.slotFor shop).queued = ["b"] ∧ r'.queue.members = ["c"]
  := by
  have run := @Transition.Run.of_guarded _ _ (bothStep shop) (Matched shop) _
    [.submit "a" [] (submission 1 .queue 0) 1, .submit "b" [] (submission 1 .queue 5) 1,
      .submit "c" [] (submission 1 .queue 6) 1] ({}, {}) _ rfl
  exact ⟨_, _, run, _, _, rfl, by decide, by decide⟩

end Xflow
