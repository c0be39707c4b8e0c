import Xflow.Redis.Commit
import Xflow.Store.Canceling

/-!
# Agreement of the two stores on a node commit

The local store and the Redis script are two implementations of one transition.  `Agree` relates
the records they hold of one execution, and each part of a commit keeps it.  Two parts do not
correspond: the local store completes an execution that is being canceled, and writes its advance
intent; the script fences both.  The script moreover completes an execution whose counter is not
positive.  `commitNode_agree_iff` says exactly when the stores agree after a commit.
-/

namespace Xflow

open ExecutionStatus Function List MemoryState Option RedisState

/-- The two stores hold the same status, node statuses, counters, markers and intents. -/
structure Agree (s : MemoryState) (r : RedisState) : Prop where
  id : r.id = s.id
  status : r.status = s.status?
  nodeStatus : ∀ name, r.nodeStatus name = (s.nodes name).map NodeSnapshot.status
  remaining : r.remaining = s.remaining
  failed : r.failed = s.failed
  inDegree : r.inDegree = s.inDegrees
  activeInputs : r.activeInputs = s.activeIns
  schedule : r.schedule = s.scheduled
  intents : ∀ id e, r.outboxBody id = some e ↔ e ∈ s.outbox ∧ e.id = id

/-- The two stores hold the same lease and the same commit of a node. -/
structure SameRow (row : NodeSnapshot) (hash : NodeHash) : Prop where
  leaseID : hash.leaseID = row.leaseID
  leaseToken : hash.leaseToken = row.leaseToken
  attempt : hash.attempt = row.attempt
  activationID : hash.activationID = row.activationID
  committedLeaseToken : hash.committedLeaseToken = row.committedLeaseToken

/-- The hash that Redis holds of a row. -/
def NodeHash.ofRow (row : NodeSnapshot) : NodeHash where
  leaseID := row.leaseID
  leaseToken := row.leaseToken
  attempt := row.attempt
  activationID := row.activationID
  autoDepth := row.autoDepth
  port := row.port
  error := row.error
  errorDetails := row.errorDetails
  committedLeaseToken := row.committedLeaseToken
  committedAttempt := row.committedAttempt
  privateOutput := row.privateOutput

/-- The keys that Redis holds when the local store holds a state. -/
def RedisState.mirror (s : MemoryState) : RedisState where
  id := s.id
  status := s.status?
  remaining := s.remaining
  failed := s.failed
  nodeStatus name := (s.nodes name).map NodeSnapshot.status
  nodeMeta name := (s.nodes name).elim {} NodeHash.ofRow
  outputs := s.outputs
  inDegree := s.inDegrees
  activeInputs := s.activeIns
  schedule := s.scheduled
  outboxBody id := s.outbox.find? (fun e => e.id = id)

/-- The two stores give the same answer. -/
structure SameAnswer (a b : CommitNodeResult) : Prop where
  outcome : a.outcome = b.outcome
  executionDone : a.executionDone = b.executionDone
  executionStatus : a.executionStatus = b.executionStatus

variable {s : MemoryState} {r : RedisState} {req : CommitNodeRequest}

theorem agree_mirror (hids : (s.outbox.map (·.id)).Nodup) :
  Agree s (mirror s)
  where
  id := rfl
  status := rfl
  nodeStatus _ := rfl
  remaining := rfl
  failed := rfl
  inDegree := rfl
  activeInputs := rfl
  schedule := rfl
  intents id e := by
    constructor
    · intro hfind
      exact ⟨mem_of_find?_eq_some hfind, by simpa using find?_some hfind⟩
    · rintro ⟨he, rfl⟩
      cases hfind : s.outbox.find? (fun x => x.id = e.id) with
      | none => simpa using find?_eq_none.mp hfind e he
      | some x =>
        have hid : x.id = e.id := by simpa using find?_some hfind
        rw [inj_on_of_nodup_map hids (mem_of_find?_eq_some hfind) he hid] at hfind
        exact hfind

theorem sameRow_mirror {name : String} {row : NodeSnapshot} (h : s.nodes name = some row) :
  SameRow row ((mirror s).nodeMeta name)
  := by
  have hhash : (mirror s).nodeMeta name = NodeHash.ofRow row := by
    simp [mirror, h]
  rw [hhash]
  exact ⟨rfl, rfl, rfl, rfl, rfl⟩

/-! ### The fence -/

namespace Agree

section

variable (h : Agree s r)

include h

theorem systemAdmits :
  r.systemAdmits req =
    if req.status = .canceled then s.cancelFenceAdmits req else s.systemFenceAdmits req
  := by
  unfold RedisState.systemAdmits MemoryState.cancelFenceAdmits MemoryState.systemFenceAdmits
  rw [h.nodeStatus, h.schedule]
  cases s.nodes req.nodeName with
  | none => by_cases hstatus : req.status = .canceled <;> simp
  | some row =>
    grind

section

variable (hrow : ∀ row, s.nodes req.nodeName = some row → SameRow row (r.nodeMeta req.nodeName))

include hrow

theorem leaseAdmits :
  r.leaseAdmits req = s.leaseFenceAdmits req
  := by
  unfold RedisState.leaseAdmits MemoryState.leaseFenceAdmits
  rw [h.nodeStatus]
  cases hnode : s.nodes req.nodeName with
  | none => simp
  | some row =>
    obtain ⟨hid, htoken, hattempt, hact, -⟩ := hrow row hnode
    simp [hid, htoken, hattempt, hact]

theorem commitVerdict :
  r.commitVerdict req = s.commitVerdict req
  := by
  unfold RedisState.commitVerdict MemoryState.commitVerdict
  rw [h.status, status?]
  cases s.execution with
  | none => rfl
  | some snap =>
    dsimp only [map_some]
    have hterminal : (r.nodeStatus req.nodeName).any NodeStatus.isTerminal
        = (s.nodes req.nodeName).any (·.status.isTerminal) := by
      rw [h.nodeStatus]
      cases s.nodes req.nodeName <;> rfl
    rw [hterminal, h.systemAdmits, h.leaseAdmits hrow]
    by_cases hover : (s.nodes req.nodeName).any (·.status.isTerminal)
    · cases hnode : s.nodes req.nodeName with
      | none => simp [hnode] at hover
      | some row =>
        obtain ⟨-, -, -, hact, hcommitted⟩ := hrow row hnode
        rw [h.nodeStatus]
        simp only [isDuplicateOf]
        grind
    · grind

end

/-! ### The parts of a commit -/

theorem writeNode :
  Agree (s.writeNode req) (r.writeNode req)
  := by
  rw [writeNode_frame]
  refine { h with nodeStatus := fun name => ?_ }
  by_cases hname : name = req.nodeName
  · subst hname
    rw [writeNode_nodes_self]
    simp [RedisState.writeNode, committedRow]
  · rw [writeNode_nodes_of_ne hname]
    simp [RedisState.writeNode, hname, h.nodeStatus]

theorem outboxBody_eq_none (id : String) :
  r.outboxBody id = none ↔ id ∉ s.outbox.map (·.id)
  := by
  rw [eq_none_iff_forall_ne_some]
  simp [h.intents]

variable {e : OutboxEntry}

theorem putOutbox (hid : e.id ≠ "") :
  Agree { s with outbox := putEntry s.outbox e } (r.putOutbox e).1
  := by
  have hacc : accepts s.outbox e ↔ r.outboxBody e.id = none := by
    simp [accepts, hid, h.outboxBody_eq_none]
  by_cases hnone : r.outboxBody e.id = none
  · rw [RedisState.putOutbox, if_pos hnone]
    refine { h with intents := ?_ }
    intro id x
    simp only [mem_putEntry, hacc, hnone, and_true]
    by_cases hx : id = e.id
    · have hfree := (h.outboxBody_eq_none e.id).mp hnone
      grind
    · rw [update_of_ne hx, h.intents]
      grind
  · rw [RedisState.putOutbox, if_neg hnone]
    refine { h with intents := ?_ }
    intro id x
    rw [h.intents, mem_putEntry, hacc]
    simp [hnone]

theorem putIntent_iff (hid : e.id ≠ "") :
  Agree (s.putIntent (some e)).1 r ↔ e.id ∈ s.outbox.map (·.id)
  := by
  rw [putIntent_fst]
  constructor
  · intro hagree
    by_contra hfree
    have hput : e ∈ putEntry s.outbox e := by
      apply mem_putEntry.mpr (.inr ⟨rfl, ?_⟩)
      simpa [accepts, hid] using hfree
    have hbody := (hagree.intents e.id e).mpr ⟨hput, rfl⟩
    rw [(h.outboxBody_eq_none e.id).mpr hfree] at hbody
    cases hbody
  · intro htaken
    have hsame : putEntry s.outbox e = s.outbox := by
      apply if_neg
      simp [accepts, htaken]
    rw [elim_some, hsame]
    exact h

theorem countArrival (a : DownstreamArrival) :
  Agree (s.countArrival a) (r.countArrival a)
  where
  __ := h
  inDegree := by rw [RedisState.countArrival, h.inDegree]; rfl
  activeInputs := by rw [RedisState.countArrival, h.activeInputs]; rfl

theorem mark (u : Int) (m : Marker) :
  Agree { s with scheduled := update s.scheduled u m }
    { r with schedule := update r.schedule u m }
  where
  __ := h
  schedule := by rw [h.schedule]

theorem applyArrival (act depth : Int) {a : DownstreamArrival} (hcount : 1 ≤ a.arrivalCount) :
  Agree (s.applyArrival act depth a).1 (r.applyArrival act depth a).1
  := by
  have hcounted := h.countArrival a
  have hnonzero : ¬ a.arrivalCount ≤ 0 := by omega
  unfold MemoryState.applyArrival RedisState.applyArrival
  simp only [hnonzero]
  generalize s.countArrival a = s' at hcounted ⊢
  generalize r.countArrival a = r' at hcounted ⊢
  rw [h.activeInputs]
  have haction : r'.nextAction a (s.activeIns a.unitIdx)
      = s'.schedule a (s.activeIns a.unitIdx) := by
    unfold nextAction MemoryState.schedule
    rw [hcounted.inDegree, hcounted.activeInputs]
  rw [hcounted.schedule, haction]
  by_cases hmarked : s'.scheduled a.unitIdx ≠ .none
  · simpa [hmarked] using hcounted
  · simp only [hmarked]
    by_cases hnone : s'.schedule a (s.activeIns a.unitIdx) = .none
    · simpa [hnone] using hcounted
    · simp only [hnone]
      have hmark := hcounted.mark a.unitIdx (s'.schedule a (s.activeIns a.unitIdx))
      rw [hcounted.schedule] at hmark
      have hentry : arrivalEntry r'.id act depth a (s'.schedule a (s.activeIns a.unitIdx))
          = arrivalEntry s'.id act depth a (s'.schedule a (s.activeIns a.unitIdx)) := by
        rw [hcounted.id]
      rw [hentry]
      exact hmark.putOutbox arrivalEntry_id_ne_empty

theorem applyArrivals (act depth : Int) {arrivals : List DownstreamArrival}
    (hcount : ∀ a ∈ arrivals, 1 ≤ a.arrivalCount) :
  Agree (s.applyArrivals act depth arrivals).1 (r.applyArrivals act depth arrivals).1
  := by
  induction arrivals generalizing s r with
  | nil => exact h
  | cons a arrivals ih =>
    rw [forall_mem_cons] at hcount
    rw [applyArrivals_cons]
    exact ih (h.applyArrival act depth hcount.1) hcount.2

/-- The intents of a commit share one slot, and at most one of them is there. -/
theorem putSlot (hvalid : req.validate s.id = none) :
  Agree
    ((s.putIntent (req.advanceTask.map
        (⟨advanceOutboxID s.id req.nodeName req.activationID, ·, .now⟩))).1.putIntent
      (req.mergeCancel.map
        (⟨mergeCancelOutboxID s.id req.nodeName req.activationID, ·, .now⟩))).1
    (r.putSlot req)
  := by
  have hexclusive : ¬ (req.mergeCancel ≠ none ∧ req.advanceTask ≠ none) := by
    simp only [CommitNodeRequest.validate] at hvalid
    repeat' split at hvalid
    all_goals simp_all
  unfold RedisState.putSlot RedisState.slotIntent
  rw [h.id]
  cases hmerge : req.mergeCancel with
  | none =>
    cases hadvance : req.advanceTask with
    | none => exact h
    | some task => exact h.putOutbox outboxID_ne_empty
  | some task =>
    have hadvance : req.advanceTask = none := by grind
    rw [hadvance]
    exact h.putOutbox outboxID_ne_empty

end

theorem outputs (outputs : String → Option Data) :
  Agree s { r with outputs := outputs } ↔ Agree s r
  := by
  constructor <;> intro h <;> exact { h with }

theorem countUnit (h : Agree s r) :
  Agree (s.countUnit (req.status = .failed)) (r.countUnit req)
  where
  __ := h
  remaining := by simp [RedisState.countUnit, h.remaining]
  failed := by simp [RedisState.countUnit, h.failed]

end Agree

/-! ### Finishing -/

/-- The execution is in the queue for a slot and has parked intents. -/
def MemoryState.ParksIntents (s : MemoryState) : Prop :=
  (∃ deadline, s.slot = .queued deadline) ∧ ∃ e ∈ s.outbox, e.availableAt = .held

section

variable {status old : ExecutionStatus} {errMsg : String} (hold : s.status? = some old)
  (hopen : old.isTerminal = false)

include hold hopen

theorem MemoryState.mem_finishExecution_outbox {e : OutboxEntry} :
  e ∈ (s.finishExecution status errMsg).outbox ↔
    e ∈ s.outbox ∧ ¬ ((∃ deadline, s.slot = .queued deadline) ∧ e.availableAt = .held)
  := by
  obtain ⟨snap, hsnap, rfl⟩ := map_eq_some_iff.mp hold
  simp only [finishExecution, hsnap, hopen, Bool.false_eq_true, if_false, releaseWorkflowSlot]
  split <;> rename_i hslot
  · simp_all
  · simp_all
  · simp_all [dropHeldOutbox]

theorem Agree.finish {errMsg' : String} (h : Agree s r) :
  Agree (s.finishExecution status errMsg) (r.finish status errMsg') ↔ ¬ s.ParksIntents
  := by
  constructor
  · rintro hagree ⟨hqueued, e, he, hheld⟩
    have hbody := (h.intents e.id e).mpr ⟨he, rfl⟩
    have hkept := ((hagree.intents e.id e).mp hbody).1
    rw [mem_finishExecution_outbox hold hopen] at hkept
    exact hkept.2 ⟨hqueued, hheld⟩
  · intro hparks
    have hstatus :
        (r.finish status errMsg').status = (s.finishExecution status errMsg).status? := by
      rw [finishExecution_status?]
      simp [isOver, hold, hopen, RedisState.finish]
    rw [finishExecution_frame] at hstatus ⊢
    refine { h with status := hstatus, intents := fun id e => ?_ }
    rw [mem_finishExecution_outbox hold hopen]
    have hkept : e ∈ s.outbox →
        ¬ ((∃ deadline, s.slot = .queued deadline) ∧ e.availableAt = .held) := by
      rintro he ⟨hqueued, hheld⟩
      exact hparks ⟨hqueued, e, he, hheld⟩
    have hbody := h.intents id e
    tauto

end

/-! ### The transition -/

theorem MemoryState.commitNodeLocked_of_done (haccepted : s.commitVerdict req = .accepted)
    (hacyc : req.allowCycles = false) (hdone : req.fatal ∨ s.remaining = 1) :
  let t := (s.writeNode req).settleUnit (req.status = .failed) req.fatal req.error
  s.commitNodeLocked req = (t.1,
    { outcome := .accepted, applied := true, executionDone := true, executionStatus := t.2 })
  := by
  intro t
  have hsome : t.2.isSome := settleUnit_isSome.mpr (by simpa using hdone)
  simp only [commitNodeLocked, haccepted, hacyc, Bool.false_eq_true, if_false]
  rw [if_pos (.inr hsome)]
  exact congrArg (Prod.mk _) (by rw [hsome])

theorem MemoryState.commitNodeLocked_of_open (haccepted : s.commitVerdict req = .accepted)
    (hacyc : req.allowCycles = false) (hopen : ¬ (req.fatal ∨ s.remaining = 1)) :
  s.commitNodeLocked req = ((s.writeNode req).countUnit (req.status = .failed)).followUp req
  := by
  push Not at hopen
  have hsettle : ((s.writeNode req).settleUnit (req.status = .failed) req.fatal req.error).1 = _ :=
    settleUnit_of_open (by simpa using hopen.1) (by simpa using hopen.2)
  have hnone : ¬ ((s.writeNode req).settleUnit (req.status = .failed) req.fatal
      req.error).2.isSome := by
    rw [settleUnit_isSome, writeNode_frame]
    push Not
    exact hopen
  simp only [commitNodeLocked, haccepted, hacyc, Bool.false_eq_true, if_false]
  rw [if_neg (by push Not; exact ⟨hopen.1, hnone⟩), hsettle]

theorem MemoryState.followUp_answer (hacyc : req.allowCycles = false) :
  (s.followUp req).2.outcome = .accepted ∧ (s.followUp req).2.executionDone = false ∧
    (s.followUp req).2.executionStatus = none
  := by
  simp [followUp, hacyc]

namespace RedisState

theorem putSlot_status :
  (r.putSlot req).status = r.status
  := by
  unfold putSlot putOutbox
  repeat' split
  all_goals rfl

theorem commitNodeLua_of_refused (h : r.commitVerdict req ≠ .accepted) :
  r.commitNodeLua req = (r, { outcome := r.commitVerdict req })
  := by
  unfold commitNodeLua
  split
  · contradiction
  · rfl

section

variable (haccepted : r.commitVerdict req = .accepted) (hacyc : req.allowCycles = false)
  {answer} (hanswer : answer = r.commitNodeLua req) {t : RedisState}

include haccepted hacyc hanswer

attribute [local simp] commitAccepted commitNodeLua

theorem commitNodeLua_of_done {status : ExecutionStatus}
    (hsettle : (r.writeNode req).settleUnit req = (t, some status)) :
  (∃ outputs, answer.1 = { t with outputs := outputs }) ∧ answer.2.outcome = .accepted ∧
    answer.2.executionDone = true ∧ answer.2.executionStatus = some status
  := by
  simp [hanswer, haccepted, hacyc, hsettle]

/-- A script that does not finish the execution. -/
theorem commitNodeLua_of_open (hsettle : (r.writeNode req).settleUnit req = (t, none)) :
  (∃ outputs, answer.1 =
      { (if ¬ req.fatal ∧ t.status ≠ some .canceling
          then (applyArrivals req.activationID req.autoDepth req.arrivals (t.putSlot req)).1
          else t) with outputs := outputs }) ∧
    answer.2.outcome = .accepted ∧ answer.2.executionDone = false ∧
    answer.2.executionStatus = none
  := by
  by_cases hslot : req.fatal = false ∧ t.status ≠ some .canceling
  · simp [hanswer, haccepted, hacyc, hsettle, hslot, putSlot_status]
  · simp [hanswer, haccepted, hacyc, hsettle, hslot]

end

theorem countUnit_last :
  (r.countUnit req).remaining ≤ 0 ↔ r.remaining ≤ 1
  := by
  simp only [countUnit]
  omega

theorem settleUnit_of_done (hdone : req.fatal ∨ r.remaining ≤ 1) (hfree : r.statusFenced = false) :
  r.settleUnit req =
    let status : ExecutionStatus :=
      if req.fatal ∨ 0 < (r.countUnit req).failed then .failed else .success
    ((r.countUnit req).finish status req.error, some status)
  := by
  have hfree' : (r.countUnit req).statusFenced = false := hfree
  simp [settleUnit, countUnit_last, hdone, hfree']

theorem settleUnit_of_open (hopen : r.statusFenced ∨ ¬ (req.fatal ∨ r.remaining ≤ 1)) :
  r.settleUnit req = (r.countUnit req, none)
  := by
  rcases hopen with hfenced | hopen
  · have hfenced' : (r.countUnit req).statusFenced := hfenced
    simp [settleUnit, hfenced']
  · simp [settleUnit, countUnit_last, hopen]

end RedisState

namespace Agree

theorem counted (h : Agree s r) (req : CommitNodeRequest) :
  Agree ((s.writeNode req).countUnit (req.status = .failed)) ((r.writeNode req).countUnit req)
  := h.writeNode.countUnit

attribute [local simp] statusFenced

theorem last (h : Agree s r) (hrunning : s.status? = some .running)
    (hlast : req.fatal ∨ s.remaining ≤ 1) :
  (req.fatal ∨ (r.writeNode req).remaining ≤ 1) ∧ (r.writeNode req).statusFenced = false
  := by
  change (req.fatal ∨ r.remaining ≤ 1) ∧ r.statusFenced = false
  rw [h.remaining]
  exact ⟨hlast, by simp [h.status, hrunning, isTerminal]⟩

section

variable (h : Agree s r) (haccepted : s.commitVerdict req = .accepted)
  (haccepted' : r.commitVerdict req = .accepted) (hacyc : req.allowCycles = false) {a a'}
  (hanswer : a = s.commitNodeLocked req) (hanswer' : a' = r.commitNodeLua req)

include h haccepted haccepted' hacyc hanswer hanswer'

theorem running_done (hrunning : s.status? = some .running) (hdone : req.fatal ∨ s.remaining = 1) :
  SameAnswer a.2 a'.2 ∧ (Agree a.1 a'.1 ↔ ¬ s.ParksIntents)
  := by
  have hcounted := h.counted req
  have hlast : (s.writeNode req).remaining = 1 ↔ s.remaining = 1 := by simp
  rw [commitNodeLocked_of_done haccepted hacyc hdone] at hanswer
  have hsettle : (s.writeNode req).settleUnit (req.status = .failed) req.fatal req.error = _ :=
    settleUnit_of_done (by rw [hlast]; exact hdone)
  obtain ⟨hdone', hfree⟩ := h.last hrunning (hdone.imp_right le_of_eq)
  obtain ⟨⟨outputs, hstate'⟩, hout', hdone', hstatus'⟩ :=
    commitNodeLua_of_done haccepted' hacyc hanswer' (settleUnit_of_done hdone' hfree)
  have hfinal : (if req.fatal ∨ 0 < ((r.writeNode req).countUnit req).failed then
      ExecutionStatus.failed else .success)
        = (s.writeNode req).finalStatus (req.status = .failed) req.fatal := by
    rw [hcounted.failed]
    rfl
  constructor
  · refine ⟨?_, ?_, ?_⟩
    · rw [hanswer, hout']
    · rw [hanswer, hdone']
    · rw [hanswer, hstatus', hsettle, hfinal]
  · rw [hanswer, hstate', hsettle, Agree.outputs, hfinal, hcounted.finish]
    · simp [ParksIntents]
    · simpa [status?] using hrunning
    · rfl

omit h in
/-- Both stores go on. -/
theorem both_open (hopen : ¬ (req.fatal ∨ s.remaining = 1))
    (hopen' : r.statusFenced ∨ ¬ (req.fatal ∨ r.remaining ≤ 1)) :
  SameAnswer a.2 a'.2 ∧
    (Agree a.1 a'.1 ↔ Agree (((s.writeNode req).countUnit (req.status = .failed)).followUp req).1
      (let t := (r.writeNode req).countUnit req
      if ¬ req.fatal ∧ r.status ≠ some .canceling
      then (RedisState.applyArrivals req.activationID req.autoDepth req.arrivals (t.putSlot req)).1
      else t))
  := by
  obtain ⟨⟨outputs, hstate⟩, hout', hdone', hstatus'⟩ := commitNodeLua_of_open
    haccepted' hacyc hanswer' (settleUnit_of_open (r := r.writeNode req) hopen')
  obtain ⟨hout, hdone, hstatus⟩ := followUp_answer
    (s := (s.writeNode req).countUnit (req.status = .failed)) hacyc
  rw [hanswer, commitNodeLocked_of_open haccepted hacyc hopen, hstate, Agree.outputs]
  exact ⟨⟨hout.trans hout'.symm, hdone.trans hdone'.symm, hstatus.trans hstatus'.symm⟩, .rfl⟩

theorem running_open
    (hvalid : req.validate s.id = none) (harrivals : ∀ a ∈ req.arrivals, 1 ≤ a.arrivalCount)
    (hrunning : s.status? = some .running) (hfatal : req.fatal = false) (hopen : 2 ≤ s.remaining) :
  SameAnswer a.2 a'.2 ∧ Agree a.1 a'.1
  := by
  have hcounted := h.counted req
  obtain ⟨hanswer, hagree⟩ := both_open haccepted haccepted' hacyc hanswer hanswer'
    (by simp [hfatal]; omega) (.inr (by simp [hfatal, h.remaining]; omega))
  have hstatus : r.status ≠ some .canceling := by
    simp [h.status, hrunning]
  have hnot : ¬ ((s.writeNode req).countUnit (req.status = .failed)).status? = some .canceling := by
    rw [← hcounted.status]
    exact hstatus
  refine ⟨hanswer, hagree.mpr ?_⟩
  rw [followUp_acyclic hacyc, if_neg hnot, if_pos ⟨by simp [hfatal], hstatus⟩]
  apply Agree.applyArrivals _ _ _ harrivals
  apply hcounted.putSlot (by simpa using hvalid)

theorem canceling_done
    (hcanceling : s.status? = some .canceling) (hdone : req.fatal ∨ s.remaining = 1) :
  ¬ SameAnswer a.2 a'.2
  := by
  rw [commitNodeLocked_of_done haccepted hacyc hdone] at hanswer
  have hfenced : (r.writeNode req).statusFenced := by
    change r.statusFenced
    simp [h.status, hcanceling]
  obtain ⟨-, -, hdone', -⟩ := commitNodeLua_of_open haccepted' hacyc hanswer'
    (settleUnit_of_open (.inl hfenced))
  intro hsame
  simpa [hanswer, hdone'] using hsame.executionDone

/-- Neither store completes an execution that is being canceled; they agree unless the local store
writes its advance intent. -/
theorem canceling_open
    (hcanceling : s.status? = some .canceling) (hopen : ¬ (req.fatal ∨ s.remaining = 1)) :
  SameAnswer a.2 a'.2 ∧ (Agree a.1 a'.1 ↔ req.advanceTask = none ∨
    advanceOutboxID s.id req.nodeName req.activationID ∈ s.outbox.map (·.id))
  := by
  have hcounted := h.counted req
  have hstatus : r.status = some .canceling := by
    rw [h.status, hcanceling]
  obtain ⟨hanswer, hagree⟩ := both_open haccepted haccepted' hacyc hanswer hanswer' hopen
    (.inl (by simp [hstatus]))
  refine ⟨hanswer, hagree.trans ?_⟩
  rw [if_neg (by simp [hstatus]), followUp_acyclic hacyc,
    if_pos (by simpa [status?] using hcanceling)]
  cases hadvance : req.advanceTask with
  | none =>
    simp only [true_or, iff_true]
    exact hcounted
  | some task =>
    rw [map_some, hcounted.putIntent_iff outboxID_ne_empty]
    simp

theorem running_overdue (hrunning : s.status? = some .running) (hfatal : req.fatal = false)
    (hoverdue : s.remaining ≤ 0) :
  ¬ SameAnswer a.2 a'.2
  := by
  rw [commitNodeLocked_of_open haccepted hacyc (by simp [hfatal]; omega)] at hanswer
  obtain ⟨hlast, hfree⟩ := h.last hrunning (.inr (by omega))
  obtain ⟨-, -, hdone', -⟩ :=
    commitNodeLua_of_done haccepted' hacyc hanswer' (settleUnit_of_done hlast hfree)
  intro hsame
  simpa [hanswer, followUp_answer hacyc, hdone'] using hsame.executionDone

end

end Agree

/-- Two stores that hold the same records of an acyclic execution, running or being canceled, give
the same answer to a valid commit and hold the same records after it exactly when the commit is
refused; or the execution is running, its counter is positive or the commit fatal, and finishing
discards no intent; or the execution is being canceled, the commit does not complete it, and the
advance intent is absent or there already. -/
theorem commitNode_agree_iff (h : Agree s r)
    (hrow : ∀ row, s.nodes req.nodeName = some row → SameRow row (r.nodeMeta req.nodeName))
    (hacyc : req.allowCycles = false) (hvalid : req.validate s.id = none)
    (harrivals : ∀ a ∈ req.arrivals, 1 ≤ a.arrivalCount)
    (hstatus : s.status? = some .running ∨ s.status? = some .canceling) :
  SameAnswer (s.commitNodeLocked req).2 (r.commitNodeLua req).2 ∧
      Agree (s.commitNodeLocked req).1 (r.commitNodeLua req).1 ↔
    s.commitVerdict req ≠ .accepted ∨
    (s.status? = some .running ∧ (req.fatal ∨ 1 ≤ s.remaining) ∧
      (req.fatal ∨ s.remaining = 1 → ¬ s.ParksIntents)) ∨
    (s.status? = some .canceling ∧ ¬ (req.fatal ∨ s.remaining = 1) ∧
      (req.advanceTask = none ∨
        advanceOutboxID s.id req.nodeName req.activationID ∈ s.outbox.map (·.id)))
  := by
  have hverdict := h.commitVerdict hrow
  by_cases haccepted : s.commitVerdict req = .accepted
  · have haccepted' : r.commitVerdict req = .accepted := hverdict.trans haccepted
    simp only [haccepted, ne_eq, not_true_eq_false, false_or]
    by_cases hdone : req.fatal ∨ s.remaining = 1
    · rcases hstatus with hrunning | hcanceling
      · obtain ⟨hanswer, hagree⟩ := h.running_done haccepted haccepted' hacyc rfl rfl hrunning hdone
        have hpositive : req.fatal ∨ 1 ≤ s.remaining := hdone.imp_right (fun hlast => by omega)
        simp [hanswer, hagree, hrunning, hdone, hpositive]
      · have hdiffer := h.canceling_done haccepted haccepted' hacyc rfl rfl hcanceling hdone
        simp [hdiffer, hcanceling, hdone]
    · rcases hstatus with hrunning | hcanceling
      · have hfatal : req.fatal = false := by
          simpa using (not_or.mp hdone).1
        by_cases hoverdue : s.remaining ≤ 0
        · have hdiffer := h.running_overdue haccepted haccepted' hacyc rfl rfl hrunning hfatal
            hoverdue
          have hnot : ¬ 1 ≤ s.remaining := by omega
          simp [hdiffer, hrunning, hfatal, hnot]
        · have hopen : 2 ≤ s.remaining := by
            omega
          obtain ⟨hanswer, hagree⟩ := h.running_open haccepted haccepted' hacyc rfl rfl hvalid
            harrivals hrunning hfatal hopen
          have hpositive : 1 ≤ s.remaining := by omega
          simp [hanswer, hagree, hrunning, hdone, hpositive]
      · obtain ⟨hanswer, hagree⟩ :=
          h.canceling_open haccepted haccepted' hacyc rfl rfl hcanceling hdone
        simp [hanswer, hagree, hcanceling, hdone]
  · have haccepted' : r.commitVerdict req ≠ .accepted := by
      rwa [hverdict]
    simp only [haccepted, ne_eq, not_false_eq_true, true_or, iff_true]
    rw [commitNodeLocked_of_refused haccepted, commitNodeLua_of_refused haccepted']
    exact ⟨⟨hverdict.symm, rfl, rfl⟩, h⟩

/-- On an execution that is being canceled a fatal commit finishes the local execution only, and an
advance intent is written locally only; on a running one whose counter is zero a commit finishes the
Redis execution only. -/
theorem beingCanceled_differs :
  let fatal := { leasedCommit with fatal := true }
  let advance := { leasedCommit with
    advanceTask := some { nodeName := "a", nodeIdx := 0, type := .nodeAdvance } }
  let overdue : MemoryState :=
    { beingCanceled with execution := some { status := .running }, remaining := 0 }
  ((beingCanceled.commitNodeLocked fatal).1.status? = some .failed ∧
      ((RedisState.mirror beingCanceled).commitNodeLua fatal).1.status = some .canceling) ∧
    ((beingCanceled.commitNodeLocked advance).1.outbox.map (·.id) = ["advance/e/a/0"] ∧
      (((RedisState.mirror beingCanceled).commitNodeLua advance).1.outboxBody
        "advance/e/a/0").isNone) ∧
    ((overdue.commitNodeLocked leasedCommit).2.executionDone = false ∧
      ((RedisState.mirror overdue).commitNodeLua leasedCommit).2.executionDone = true)
  := by
  decide

/-- The stores agree on a commit that neither completes the canceled execution nor advances. -/
theorem beingCanceled_agrees :
  let r := RedisState.mirror beingCanceled
  SameAnswer (beingCanceled.commitNodeLocked leasedCommit).2 (r.commitNodeLua leasedCommit).2 ∧
    Agree (beingCanceled.commitNodeLocked leasedCommit).1 (r.commitNodeLua leasedCommit).1
  := by
  apply (commitNode_agree_iff (agree_mirror (by decide)) (fun _ => sameRow_mirror) rfl (by decide)
    (by decide) (.inr (by decide))).mpr
  right
  right
  exact ⟨by decide, by decide, .inl rfl⟩

end Xflow
