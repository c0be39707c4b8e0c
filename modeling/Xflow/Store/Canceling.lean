import Xflow.Store.Status

/-!
# Scheduling while an execution is being canceled

While an execution is being canceled nothing new should be scheduled for it.  The arrivals and the
merge-cancel intent of a node commit are withheld, but not its advance intent nor the intents of a
cyclic commit; and neither `AdvanceNode` nor `CommitGroup` asks for the status at all.  The module
says for each of the three calls exactly when it adds no intent
(`canceling_schedules_nothing_iff`).
-/

namespace Xflow

open Function List MemoryState

namespace MemoryState

variable {s : MemoryState} {act depth : Int} {arrivals before : List DownstreamArrival}

/-! ### Which arrivals fire -/

/-- The marker that an arrival would decide after the arrivals before it, if none of them has
decided its unit. -/
def firing (s : MemoryState) (before : List DownstreamArrival) (a : DownstreamArrival) : Marker :=
  if a.arrivalCount ≤ 0 ∨ s.scheduled a.unitIdx ≠ .none then .none
  else if a.mergeMode = "wait_any" ∧ 0 < a.activeCount ∧
      s.activeIns a.unitIdx + turnedActive before a.unitIdx = 0 then .execute
  else if s.inDegrees a.unitIdx - takenOff (before ++ [a]) a.unitIdx ≤ 0 then
    if 0 < s.activeIns a.unitIdx + turnedActive (before ++ [a]) a.unitIdx then .execute else .skip
  else .none

/-- The arrival is the first that decides its unit. -/
def FiresFirst (s : MemoryState) (before : List DownstreamArrival) (a : DownstreamArrival) :
    Prop :=
  s.firing before a ≠ .none ∧
    ∀ earlier b between, before = earlier ++ b :: between → b.unitIdx = a.unitIdx →
      s.firing earlier b = .none

variable {a : DownstreamArrival} {req : CommitNodeRequest} {ids : List String} {t : MemoryState}

theorem decision_eq_firing (hbefore : s.scheduled a.unitIdx = .none)
    (hmark : (applyArrivals act depth before s).1.scheduled a.unitIdx = .none) :
  (applyArrivals act depth before s).1.decision a = s.firing before a
  := by
  unfold decision firing
  by_cases hcount : a.arrivalCount ≤ 0
  · simp [hcount]
  · have hpos : 0 < a.arrivalCount := by omega
    simp only [hmark, hbefore]
    unfold schedule
    have hin : ((applyArrivals act depth before s).1.countArrival a).inDegrees a.unitIdx
        = s.inDegrees a.unitIdx - takenOff (before ++ [a]) a.unitIdx := by
      simp [countArrival, inDegrees_takenOff, takenOff, hpos, Int.sub_sub]
    have hactive : ((applyArrivals act depth before s).1.countArrival a).activeIns a.unitIdx
        = s.activeIns a.unitIdx + turnedActive (before ++ [a]) a.unitIdx := by
      by_cases hturned : 0 < a.activeCount <;>
        simp [countArrival, activeIns_turnedActive, turnedActive, hpos, hturned, Int.add_assoc]
    rw [hin, hactive, activeIns_turnedActive]

theorem scheduled_eq_none_iff (d : Int) :
  (applyArrivals act depth before s).1.scheduled d = .none ↔
    s.scheduled d = .none ∧
      ∀ earlier b between, before = earlier ++ b :: between → b.unitIdx = d →
        s.firing earlier b = .none
  := by
  induction before using reverseRecOn with
  | nil => simp
  | append_singleton before c ih =>
    have hsplit : (applyArrivals act depth (before ++ [c]) s).1
        = ((applyArrivals act depth before s).1.applyArrival act depth c).1 := by
      simp [applyArrivals_fst]
    rw [hsplit]
    constructor
    · intro hnone
      have hmark : (applyArrivals act depth before s).1.scheduled d = .none := by
        by_contra hmark
        rw [applyArrival_scheduled_of_ne hmark] at hnone
        exact hmark hnone
      rw [applyArrival_scheduled_apply] at hnone
      obtain ⟨hbefore, hearlier⟩ := ih.mp hmark
      refine ⟨hbefore, ?_⟩
      intro earlier b between heq hd
      rcases concat_split heq with ⟨init, heq⟩ | ⟨rfl, rfl⟩
      · exact hearlier earlier b init heq hd
      · subst hd
        rw [← decision_eq_firing hbefore hmark]
        by_contra hne
        rw [if_pos ⟨hne, rfl⟩] at hnone
        exact hne hnone
    · rintro ⟨hbefore, hnone⟩
      have hmark : (applyArrivals act depth before s).1.scheduled d = .none := by grind
      rw [applyArrival_scheduled_apply, if_neg, hmark]
      rintro ⟨hdecides, rfl⟩
      rw [decision_eq_firing hbefore hmark] at hdecides
      apply hdecides
      apply hnone before c [] rfl rfl

/-- An arrival decides what it fires if it is the first to, and nothing otherwise. -/
theorem decision_cases :
  (s.FiresFirst before a ∧ (applyArrivals act depth before s).1.decision a = s.firing before a) ∨
    ¬ s.FiresFirst before a ∧ (applyArrivals act depth before s).1.decision a = .none
  := by
  by_cases hmark : (applyArrivals act depth before s).1.scheduled a.unitIdx = .none
  · obtain ⟨hbefore, hnone⟩ := (scheduled_eq_none_iff a.unitIdx).mp hmark
    rw [decision_eq_firing hbefore hmark]
    by_cases hfires : s.firing before a = .none
    · exact .inr ⟨fun hfirst => hfirst.1 hfires, hfires⟩
    · exact .inl ⟨⟨hfires, hnone⟩, rfl⟩
  · refine .inr ⟨?_, decision_of_scheduled hmark⟩
    rintro ⟨hfires, hnone⟩
    apply hmark
    apply (scheduled_eq_none_iff a.unitIdx).mpr
    refine ⟨?_, hnone⟩
    by_contra hbefore
    apply hfires
    rw [firing, if_pos (.inr hbefore)]

/-! ### Intents that are added -/

/-- The call added no intent: every intent after it has the identifier of one before it. -/
def AddsNoIntent (s t : MemoryState) : Prop :=
  ∀ e ∈ t.outbox, e.id ∈ s.outbox.map (·.id)

/-- Every arrival that is the first to decide its unit finds its identifier taken. -/
def FiresNothingNew (s : MemoryState) (act : Int) (arrivals : List DownstreamArrival) : Prop :=
  ∀ before a after, arrivals = before ++ a :: after → s.FiresFirst before a →
    (arrivalEntry s.id act 0 a (s.firing before a)).id ∈ s.outbox.map (·.id)

theorem putEntry_ids {outbox : List OutboxEntry} {e : OutboxEntry}
    (hsub : ∀ x ∈ outbox, x.id ∈ ids) :
  (∀ x ∈ putEntry outbox e, x.id ∈ ids) ↔ e.id = "" ∨ e.id ∈ ids
  := by
  constructor
  · intro hall
    by_cases hacc : accepts outbox e
    · right
      apply hall e (mem_putEntry.mpr (.inr ⟨rfl, hacc⟩))
    · by_cases hempty : e.id = ""
      · left
        apply hempty
      · right
        have htaken : e.id ∈ outbox.map (·.id) := by simpa [accepts, hempty] using hacc
        obtain ⟨x, hx, hid⟩ := mem_map.mp htaken
        rw [← hid]
        apply hsub x hx
  · intro hid x hx
    rcases mem_putEntry.mp hx with hold | ⟨rfl, hacc⟩
    · apply hsub x hold
    · rcases hid with hempty | hmem
      · simp [accepts, hempty] at hacc
      · apply hmem

theorem foldl_putEntry_ids {entries outbox : List OutboxEntry} (hsub : ∀ x ∈ outbox, x.id ∈ ids) :
  (∀ x ∈ entries.foldl putEntry outbox, x.id ∈ ids) ↔ ∀ e ∈ entries, e.id = "" ∨ e.id ∈ ids
  := by
  induction entries generalizing outbox with
  | nil => simpa using hsub
  | cons e entries ih =>
    rw [foldl_cons, forall_mem_cons]
    constructor
    · intro hall
      have hput : ∀ x ∈ putEntry outbox e, x.id ∈ ids :=
        fun x hx => hall x (mem_foldl_putEntry_of_mem hx)
      exact ⟨(putEntry_ids hsub).mp hput, (ih hput).mp hall⟩
    · rintro ⟨he, hrest⟩
      exact (ih ((putEntry_ids hsub).mpr he)).mpr hrest

theorem arrivalEntry_id_ne_empty {id : String} {m : Marker} :
  (arrivalEntry id act depth a m).id ≠ ""
  := by
  simp only [arrivalEntry]
  split <;> apply outboxID_ne_empty

theorem applyArrival_ids (hsub : ∀ e ∈ s.outbox, e.id ∈ ids) :
  (∀ e ∈ (s.applyArrival act depth a).1.outbox, e.id ∈ ids) ↔
    (s.decision a ≠ .none → (arrivalEntry s.id act depth a (s.decision a)).id ∈ ids)
  := by
  rw [applyArrival_outbox]
  by_cases hdecides : s.decision a = .none
  · simpa [hdecides] using hsub
  · rw [if_neg hdecides, putEntry_ids hsub]
    simp [hdecides, arrivalEntry_id_ne_empty]

theorem applyArrivals_ids (hsub : ∀ e ∈ s.outbox, e.id ∈ ids) :
  (∀ e ∈ (applyArrivals act depth arrivals s).1.outbox, e.id ∈ ids) ↔
    ∀ before a after, arrivals = before ++ a :: after →
      (applyArrivals act depth before s).1.decision a ≠ .none →
      (arrivalEntry s.id act depth a ((applyArrivals act depth before s).1.decision a)).id ∈ ids
  := by
  induction arrivals generalizing s with
  | nil => simpa using hsub
  | cons a arrivals ih =>
    rw [applyArrivals_cons]
    constructor
    · intro hall
      have hfirst : ∀ e ∈ (s.applyArrival act depth a).1.outbox, e.id ∈ ids :=
        fun e he => hall e (applyArrivals_outbox_mono he)
      intro before b after heq hdecides
      cases before with
      | nil =>
        obtain ⟨rfl, rfl⟩ : a = b ∧ arrivals = after := by simpa using heq
        apply (applyArrival_ids hsub).mp hfirst hdecides
      | cons c before =>
        obtain ⟨rfl, hrest⟩ : a = c ∧ arrivals = before ++ b :: after := by simpa using heq
        have := (ih hfirst).mp hall before b after hrest
        rw [applyArrivals_cons] at hdecides ⊢
        simpa using this hdecides
    · intro hall
      have hfirst : ∀ e ∈ (s.applyArrival act depth a).1.outbox, e.id ∈ ids :=
        (applyArrival_ids hsub).mpr (hall [] a arrivals rfl)
      apply (ih hfirst).mpr
      intro before b after heq hdecides
      have := hall (a :: before) b after (by rw [heq]; rfl)
      rw [applyArrivals_cons] at this
      simpa using this hdecides

/-- Arrivals applied to a state with the counters and markers of `s` and with no other intents add
none exactly when none of those that fire is new. -/
theorem addsNoIntent_applyArrivals (hid : t.id = s.id)
    (hin : t.inDegrees = s.inDegrees) (hactive : t.activeIns = s.activeIns)
    (hsched : t.scheduled = s.scheduled) (hsub : s.AddsNoIntent t) :
  s.AddsNoIntent (applyArrivals act depth arrivals t).1 ↔ s.FiresNothingNew act arrivals
  := by
  have hfiring (before : List DownstreamArrival) (a : DownstreamArrival) :
      t.firing before a = s.firing before a := by
    simp [firing, hin, hactive, hsched]
  have hfirst (before : List DownstreamArrival) (a : DownstreamArrival) :
      t.FiresFirst before a ↔ s.FiresFirst before a := by
    simp [FiresFirst, hfiring]
  have hentry (a : DownstreamArrival) (m : Marker) :
      (arrivalEntry t.id act depth a m).id = (arrivalEntry s.id act 0 a m).id := by
    rw [hid]
    rfl
  rw [AddsNoIntent, applyArrivals_ids hsub]
  refine forall₄_congr fun before a after _ => ?_
  have hcases := @decision_cases t act depth before a
  rw [hfirst, hfiring] at hcases
  rcases hcases with ⟨hfires, hdecides⟩ | ⟨hnot, hdecides⟩
  · simp [hdecides, hfires, hfires.1, hentry]
  · simp [hdecides, hnot]

/-! ### The three calls -/

/-- What a commit of a node would schedule while the execution is being canceled is there already:
the intents of a cyclic commit, the advance intent of an acyclic one that does not complete the
execution. -/
def CommitsNothingNew (s : MemoryState) (req : CommitNodeRequest) : Prop :=
  if req.allowCycles then ∀ e ∈ req.cyclicOutbox, e.id = "" ∨ e.id ∈ s.outbox.map (·.id)
  else req.fatal ∨ s.remaining = 1 ∨ req.advanceTask = none ∨
    advanceOutboxID s.id req.nodeName req.activationID ∈ s.outbox.map (·.id)

theorem validate_cyclic {id : String} (hvalid : req.validate id = none) (hcyc : req.allowCycles) :
  req.fatal = false ∧ req.advanceTask = none
  := by
  unfold CommitNodeRequest.validate at hvalid
  repeat' split at hvalid
  all_goals simp_all

theorem addsNoIntent_followUp_acyclic (hcyc : req.allowCycles = false)
    (hcanceling : t.status? = some .canceling) (hid : t.id = s.id) (hout : t.outbox = s.outbox) :
  s.AddsNoIntent (t.followUp req).1 ↔
    req.advanceTask = none ∨
      advanceOutboxID s.id req.nodeName req.activationID ∈ s.outbox.map (·.id)
  := by
  have hsub : ∀ x ∈ s.outbox, x.id ∈ s.outbox.map (·.id) := fun x hx => mem_map_of_mem hx
  rw [followUp_acyclic hcyc]
  simp only [hcanceling, if_true, putIntent_fst, AddsNoIntent, hid, hout]
  cases req.advanceTask with
  | none => simpa using hsub
  | some task =>
    simp only [Option.map_some, Option.elim_some, putEntry_ids hsub]
    simp [advanceOutboxID, outboxID_ne_empty]

theorem addsNoIntent_followUp_cyclic
    (hcyc : req.allowCycles) (hcanceling : t.status? = some .canceling)
    (hadvance : req.advanceTask = none) (hout : t.outbox = s.outbox) :
  s.AddsNoIntent (t.followUp req).1 ↔
    ∀ e ∈ req.cyclicOutbox, e.id = "" ∨ e.id ∈ s.outbox.map (·.id)
  := by
  have hsub : ∀ x ∈ s.outbox, x.id ∈ s.outbox.map (·.id) := fun x hx => mem_map_of_mem hx
  have hfollow : (t.followUp req).1 = (t.scheduleCyclic req).1 := by
    simp [followUp, hcyc, hcanceling, hadvance, putIntent]
  rw [hfollow, scheduleCyclic]
  by_cases hempty : req.cyclicOutbox = []
  · rw [hempty, if_neg (by simp)]
    simp only [not_mem_nil, false_implies, implies_true, iff_true]
    split
    · intro e he
      apply hsub e
      rw [← hout]
      apply mem_outbox_of_finishExecution he
    · intro e he
      apply hsub e
      rw [← hout]
      exact he
  · rw [if_pos hempty]
    simp only [putIntents_fst, AddsNoIntent, hout]
    rw [foldl_putEntry_ids hsub]

theorem addsNoIntent_commitNode (hcanceling : s.status? = some .canceling) :
  s.AddsNoIntent (call (.commitNode req) s) ↔
    req.validate s.id ≠ none ∨ s.commitVerdict req ≠ .accepted ∨ s.CommitsNothingNew req
  := by
  have hrefl : s.AddsNoIntent s := fun x hx => mem_map_of_mem hx
  rw [call_commitNode]
  by_cases hvalid : req.validate s.id = none
  · by_cases haccepted : s.commitVerdict req = .accepted
    · simp only [hvalid, if_true, haccepted, ne_eq, not_true_eq_false, false_or]
      cases hcyc : req.allowCycles with
      | true =>
        obtain ⟨hfatal, hadvance⟩ := validate_cyclic hvalid hcyc
        have hcommit : (s.commitNodeLocked req).1 = ((s.writeNode req).followUp req).1 := by
          simp [commitNodeLocked, haccepted, hcyc, hfatal]
        rw [hcommit, addsNoIntent_followUp_cyclic hcyc (by simpa [status?] using hcanceling)
          hadvance (by simp)]
        simp [CommitsNothingNew, hcyc]
      | false =>
        rw [commitNodeLocked_of_accepted haccepted hcyc]
        simp only [CommitsNothingNew, hcyc, Bool.false_eq_true, if_false]
        by_cases hdone : req.fatal ∨ s.remaining = 1
        · rw [if_pos hdone, settleUnit_of_done (by simpa using hdone)]
          have hnone : req.fatal ∨ s.remaining = 1 ∨ req.advanceTask = none ∨
              advanceOutboxID s.id req.nodeName req.activationID ∈ s.outbox.map (·.id) := by
            tauto
          simp only [hnone, iff_true]
          intro e he
          apply hrefl
          simpa using mem_outbox_of_finishExecution he
        · rw [if_neg hdone]
          push Not at hdone
          rw [settleUnit_of_open (by simpa using hdone.1) (by simpa using hdone.2),
            addsNoIntent_followUp_acyclic hcyc (by simpa [status?] using hcanceling)]
          · simp [hdone]
          · simp
          · simp
    · simp [haccepted, commitNodeLocked_of_refused haccepted, hrefl]
  · simp [hvalid, hrefl]

/-- The advance is refused: the execution is over, the node has no terminal row of that activation,
or the node was advanced before. -/
def refusesAdvance (s : MemoryState) (req : AdvanceNodeRequest) : Bool :=
  s.execution.all (·.status.isTerminal) ||
    (s.nodes req.nodeName).all (fun row =>
      ¬ row.status.isTerminal ∨ row.activationID ≠ req.activationID) ||
    s.advanced (req.nodeName, req.activationID)

theorem addsNoIntent_advanceNode {req : AdvanceNodeRequest} :
  s.AddsNoIntent (s.advanceNode req).1 ↔
    s.refusesAdvance req ∨ s.FiresNothingNew req.activationID req.arrivals
  := by
  have hrefl : s.AddsNoIntent s := fun x hx => mem_map_of_mem hx
  simp only [advanceNode, refusesAdvance]
  iterate 3
    split
    · simp_all
  rw [addsNoIntent_applyArrivals (s := s)]
  · simp_all
  all_goals first | rfl | exact hrefl

theorem addsNoIntent_commitGroup {req : GroupCommitRequest} :
  s.AddsNoIntent (s.commitGroupLocked req).1 ↔
    s.groupVerdict req ≠ .accepted ∨ s.FiresNothingNew 0 req.downstream
  := by
  have hrefl : s.AddsNoIntent s := fun x hx => mem_map_of_mem hx
  by_cases haccepted : s.groupVerdict req = .accepted
  · rw [commitGroupLocked_of_accepted haccepted]
    set t := (writeExits req.exits s).finishGroup req with ht
    by_cases hdone : req.fatal ∨ t.remaining = 1
    · rw [settleUnit_of_done hdone, addsNoIntent_applyArrivals (by simp [ht])
        (by simp [ht]) (by simp [ht]) (by simp [ht])]
      · simp [haccepted]
      · intro e he
        apply hrefl
        simpa [ht] using mem_outbox_of_finishExecution he
    · push Not at hdone
      rw [settleUnit_of_open (by simpa using hdone.1) hdone.2,
        addsNoIntent_applyArrivals (by simp [ht]) (by simp [ht])
          (by simp [ht]) (by simp [ht])]
      · simp [haccepted]
      · intro e he
        apply hrefl
        simpa [ht] using he
  · simp [haccepted, commitGroupLocked_of_refused haccepted, hrefl]

end MemoryState

/-- A call on an execution that is being canceled adds no intent exactly when it is refused or what
it would schedule without asking for the status is there already. -/
theorem canceling_schedules_nothing_iff {s : MemoryState}
    (hcanceling : s.status? = some .canceling) :
  (∀ req, s.AddsNoIntent (call (.commitNode req) s) ↔
      req.validate s.id ≠ none ∨ s.commitVerdict req ≠ .accepted ∨ s.CommitsNothingNew req) ∧
    (∀ req, s.AddsNoIntent (call (.advanceNode req) s) ↔
      s.refusesAdvance req ∨ s.FiresNothingNew req.activationID req.arrivals) ∧
    (∀ req, s.AddsNoIntent (call (.commitGroup req) s) ↔
      s.groupVerdict req ≠ .accepted ∨ s.FiresNothingNew 0 req.downstream)
  := by
  refine ⟨?_, ?_, ?_⟩
  · intro req
    apply addsNoIntent_commitNode hcanceling
  · intro req
    apply addsNoIntent_advanceNode
  · intro req
    apply addsNoIntent_commitGroup

namespace MemoryState

/-- An arrival over the only edge into a unit. -/
def soleArrival : DownstreamArrival where
  nodeName := "b"
  nodeIdx := 1
  unitIdx := 1
  arrivalCount := 1
  activeCount := 1
  mergeMode := ""
  execTaskType := .nodeExec

/-- An execution that is being canceled, with a leased node `a`, a running group at unit `2` and a
committed node `c`. -/
def beingCanceled : MemoryState where
  id := "e"
  execution := some { status := .canceling }
  nodes := fun name =>
    if name = "a" then some {
      nodeIdx := 0, status := .running, leaseID := "lease", leaseToken := "token", attempt := 1
      activationID := 0 }
    else if name = "c" then
      some { nodeIdx := 2, status := .success, attempt := 1, activationID := 0 }
    else none
  inDegrees := fun u => if u = 1 then 1 else 0
  remaining := 3
  groupUnits := fun u =>
    if u = 2 then some { status := .running, leaseToken := "token", attempt := 1 } else none

/-- The commit of the leased node, with the request's follow-up left to the caller. -/
def leasedCommit : CommitNodeRequest where
  nodeName := "a"
  nodeIdx := 0
  unitIdx := 0
  leaseID := "lease"
  leaseToken := "token"
  attempt := 1
  status := .success
  port := "main"

end MemoryState

/-- While an execution is being canceled, a commit writes its advance intent and its cyclic intents,
and an advance and a group commit write an execute intent. -/
theorem beingCanceled_schedules :
  let task : Task := { nodeName := "a", nodeIdx := 0, type := .nodeAdvance }
  let ids (c : Call) : List String := (call c beingCanceled).outbox.map (·.id)
  beingCanceled.status? = some .canceling ∧ beingCanceled.outbox = [] ∧
    ids (.commitNode { leasedCommit with advanceTask := some task }) = ["advance/e/a/0"] ∧
    ids (.commitNode { leasedCommit with
      allowCycles := true, cyclicOutbox := [⟨"cyclic", task, .now⟩] }) = ["cyclic"] ∧
    ids (.advanceNode { nodeName := "c", arrivals := [soleArrival] }) = ["execute/e/b/0"] ∧
    ids (.commitGroup {
      groupUnitIdx := 2, leaseToken := "token", attempt := 1, outcome := .success
      downstream := [soleArrival] }) = ["execute/e/b/0"]
  := by
  decide

/-- The arrivals of a commit are withheld while the execution is being canceled. -/
theorem beingCanceled_withholds_arrivals :
  let req := { leasedCommit with arrivals := [soleArrival] }
  beingCanceled.commitVerdict req = .accepted ∧
    beingCanceled.AddsNoIntent (call (.commitNode req) beingCanceled)
  := by
  intro req
  refine ⟨by decide, ((canceling_schedules_nothing_iff (by decide)).1 req).mpr ?_⟩
  right
  right
  exact .inr (.inr (.inl rfl))

end Xflow
