import Xflow.Node.Approval

/-!
# The ledger as a roster

The ledger of an approval gate determines a roster: its chain, those who approved and those whose
slot an entry of another kind closed.  Every resumption that keeps the gate waiting leaves the
ledger alone or appends one entry to it, and an appended entry is a move of the roster, made by the
verified actor of the signal (`respond_moves`).
-/

namespace Xflow.Approval

open List Record Roster SuspendingHandler Transition Value

/-! ### The record -/

theorem parseDecisionList_map (ds : List Data) :
  parseDecisionList (.arr (ds.map .obj)) = ds
  := by
  induction ds with
  | nil => rfl
  | cons d ds ih => simpa [parseDecisionList, asObject] using ih

@[simp]
theorem getDecisions_state (r : Record) (kept : Option Data) :
  getDecisions ((some r.state).or kept) = r.decisions
  := parseDecisionList_map r.decisions

@[simp]
theorem recordOf_decisions (input : Input) :
  (recordOf input).decisions = getDecisions input.state
  := rfl

/-! ### Entries -/

/-- The entry that `appendDecision` adds. -/
def entry (approver action : String) (comment : Value) (now : String) (extra : List Data) : Data :=
  approvalOutput
    [("approver", .str approver), ("action", .str action), ("comment", comment), ("at", .str now)]
    extra

theorem appendDecision_eq (decisions : List Data) (approver action : String) (comment : Value)
    (now : String) (extra : List Data) :
  appendDecision decisions approver action comment now extra
    = decisions ++ [entry approver action comment now extra]
  := rfl

/-- The extra parts of entries name neither who made them nor what they are. -/
def Plain (extra : List Data) : Prop :=
  ∀ top ∈ extra, top.lookup "approver" = none ∧ top.lookup "action" = none

theorem plain_nil : Plain [] := by simp [Plain]

theorem plain_assignee (assignee : String) :
  Plain [[("assignee", .str assignee)]]
  := by
  simp [Plain]

theorem plain_signer (assignee position : String) :
  Plain [[("assignee", .str assignee), ("position", .str position)]]
  := by
  simp only [Plain, mem_singleton, forall_eq]
  exact ⟨rfl, rfl⟩

section

variable {approver action now : String} {comment : Value} {extra : List Data}

theorem Plain.field_approver (h : Plain extra) :
  field (entry approver action comment now extra) "approver" = .str approver
  := by
  rw [field, entry, approvalOutput, Fields.lookup_foldl_overlay fun top htop => (h top htop).1]
  rfl

theorem Plain.field_action (h : Plain extra) :
  field (entry approver action comment now extra) "action" = .str action
  := by
  rw [field, entry, approvalOutput, Fields.lookup_foldl_overlay fun top htop => (h top htop).2]
  rfl

end

/-! ### The roster of a ledger -/

/-- Who approved, in the order of the ledger. -/
def approvals (decisions : List Data) : List String :=
  decisions.filterMap fun e =>
    if field e "action" = .str actionApprove then (field e "approver").asString else none

/-- Whose slot an entry other than an approval closed. -/
def closings (decisions : List Data) : List String :=
  decisions.filterMap fun e =>
    if closesSlot (field e "action") ∧ field e "action" ≠ .str actionApprove then
      (field e "approver").asString
    else none

/-- The roster that a ledger records. -/
def rosterOf (p : Params) (decisions : List Data) : Roster String where
  chain := approvedChain p decisions
  signed := approvals decisions
  closed := closings decisions

theorem hasApproverDecision_iff {p : Params} {decisions : List Data} {a : String} :
  hasApproverDecision decisions a = true ↔ ¬ (rosterOf p decisions).Open a
  := by
  simp only [hasApproverDecision, Roster.Open, rosterOf, approvals, closings, any_eq_true,
    mem_filterMap, Option.ite_none_right_eq_some, asString_eq_some, decide_eq_true_eq]
  constructor
  · grind
  · intro recorded
    rw [Classical.not_and_iff_not_or_not, not_not, not_not] at recorded
    rcases recorded with ⟨e, he, approve, made⟩ | ⟨e, he, ⟨closes, -⟩, made⟩
    · exact ⟨e, he, made, by simp [approve, closesSlot]⟩
    · exact ⟨e, he, made, closes⟩

theorem undecided_iff {p : Params} {decisions : List Data} {a : String} :
  hasApproverDecision decisions a = false ↔ (rosterOf p decisions).Open a
  := by
  rw [← Bool.not_eq_true, hasApproverDecision_iff, not_not]

theorem approvedChain_append (p : Params) (decisions : List Data) (e : Data) :
  approvedChain p (decisions ++ [e]) = amend (approvedChain p decisions) e
  := by
  simp [approvedChain]

section

variable (p : Params) (decisions : List Data) (a b position now : String) (comment : Value)

attribute [local simp] Value.asString appendDecision_eq rosterOf approvedChain_append approvals
  closings amend

theorem rosterOf_approve :
  rosterOf p (appendDecision decisions a actionApprove comment now [])
    = { rosterOf p decisions with signed := (rosterOf p decisions).signed ++ [a] }
  := by
  have made := @Plain.field_approver a actionApprove now comment [] plain_nil
  have action := @Plain.field_action a actionApprove now comment [] plain_nil
  have assignee : field (entry a actionApprove comment now []) "assignee" = .null := rfl
  simp [made, action, assignee]

theorem rosterOf_delegate :
  rosterOf p (appendDecision decisions a actionDelegate comment now [[("assignee", .str b)]])
    = { rosterOf p decisions with
        chain := (rosterOf p decisions).chain.replace a b
        closed := (rosterOf p decisions).closed ++ [a] }
  := by
  have made := @Plain.field_approver a actionDelegate now comment _ (plain_assignee b)
  have action := @Plain.field_action a actionDelegate now comment _ (plain_assignee b)
  have assignee :
      field (entry a actionDelegate comment now [[("assignee", .str b)]]) "assignee" = .str b := rfl
  have closes : closesSlot (.str actionDelegate) = true := rfl
  have other : str actionDelegate ≠ .str actionApprove := by decide
  simp [made, action, assignee, replaceApprover, closes, other]

theorem rosterOf_addSigner :
  rosterOf p (appendDecision decisions a actionAddSigner comment now
      [[("assignee", .str b), ("position", .str position)]])
    = { rosterOf p decisions with
        chain := insertBeside (position = positionBefore) a b (rosterOf p decisions).chain }
  := by
  have action := @Plain.field_action a actionAddSigner now comment _ (plain_signer b position)
  have closes : closesSlot (.str actionAddSigner) = false := rfl
  have approve : str actionAddSigner ≠ .str actionApprove := by decide
  simp [action, closes, approve]
  rfl

end

/-! ### What a resumption does -/

/-- The actor of a signal acts on an undecided slot of their own. -/
structure ActsOnSlot (p : Params) (input : Input) (signal : SignalPayload) (actor action : String) :
    Prop where
  verified : resolveActor signal.data = some actor
  asked : signalAction signal.data = some action
  holds : actor ∈ approvedChain p (getDecisions input.state)
  turn : p.mode = .sequential →
    (rosterOf p (getDecisions input.state)).next = some actor
  undecided : (rosterOf p (getDecisions input.state)).Open actor

/-- The outputs of a resumption, with what was checked before each. -/
inductive Outcome (p : Params) (now : String) (input : Input) (signal : SignalPayload) :
    Output → Prop
  | timedOut : Outcome p now input signal (timedOut p)
  | ignored (reason : String) :
      Outcome p now input signal (ignoreApprovalSignal input signal reason)
  | repeated : Outcome p now input signal { resuspend := true }
  | forced (actor : String) (verified : resolveActor signal.data = some actor)
      (listed : actor ∈ p.forceApprovers) :
      Outcome p now input signal (handleForce now input (recordOf input) signal actor
        (approvedChain p (getDecisions input.state)))
  | approved (actor : String) (act : ActsOnSlot p input signal actor actionApprove) :
      Outcome p now input signal (handleApprove now input (recordOf input) signal actor p
        (approvedChain p (getDecisions input.state)))
  | rejected (actor : String) (act : ActsOnSlot p input signal actor actionReject) :
      Outcome p now input signal (handleReject now input (recordOf input) signal actor)
  | returned (actor : String) (act : ActsOnSlot p input signal actor actionReturn) :
      Outcome p now input signal (handleReturn now input (recordOf input) signal actor)
  | delegated (actor assignee : String) (act : ActsOnSlot p input signal actor actionDelegate)
      (named : signalAssignee signal.data = some assignee)
      (absent : assignee ∉ (approvedChain p (getDecisions input.state)).erase actor) :
      Outcome p now input signal (resuspendWithRecord input
        ((recordOf input).decided now signal actor actionDelegate [[("assignee", .str assignee)]]))
  | added (actor assignee position : String)
      (act : ActsOnSlot p input signal actor actionAddSigner)
      (named : signalAssignee signal.data = some assignee)
      (absent : assignee ∉ approvedChain p (getDecisions input.state))
      (short : (approvedChain p (getDecisions input.state)).length < maxApproverChain) :
      Outcome p now input signal (resuspendWithRecord input
        ((recordOf input).decided now signal actor actionAddSigner
          [[("assignee", .str assignee), ("position", .str position)]]))

section

variable {p : Params} {now : String} {input : Input} {signal : SignalPayload} {actor : String}

attribute [local simp] containsApprover

theorem decideSlot_outcome {action : String} (act : ActsOnSlot p input signal actor action) :
  Outcome p now input signal (decideSlot now input (recordOf input) signal actor p
    (approvedChain p (getDecisions input.state)) action)
  := by
  fun_cases decideSlot now input (recordOf input) signal actor p _ action with
  | case1 h => exact Outcome.approved actor (h ▸ act)
  | case2 _ h => exact Outcome.rejected actor (h ▸ act)
  | case3 _ _ h => exact Outcome.returned actor (h ▸ act)
  | case4 _ _ _ h =>
    fun_cases handleDelegate now input (recordOf input) signal actor _ with
    | case3 assignee named absent =>
      apply Outcome.delegated actor assignee (h ▸ act) named
      simpa [withoutApprover] using absent
    | _ => apply Outcome.ignored
  | case5 _ _ _ _ h =>
    fun_cases handleAddSigner now input (recordOf input) signal actor _ with
    | case5 assignee named absent position _ short =>
      apply Outcome.added actor assignee position (h ▸ act) named
      · simpa using absent
      · simpa using short
    | _ => apply Outcome.ignored
  | case6 => apply Outcome.ignored

theorem next_of_current {decisions : List Data} (known : actor ≠ "")
    (h : actor = currentSequentialApprover (approvedChain p decisions) decisions) :
  (rosterOf p decisions).next = some actor
  := by
  have next : (rosterOf p decisions).next
      = (approvedChain p decisions).find? fun a => !hasApproverDecision decisions a := by
    unfold Roster.next
    congr 1
    funext a
    rw [Bool.eq_iff_iff, decide_eq_true_eq, Bool.not_eq_true', undecided_iff]
  unfold currentSequentialApprover at h
  rw [next]
  cases found : (approvedChain p decisions).find? fun a => !hasApproverDecision decisions a with
  | none => simp [found, known] at h
  | some current => simp [h, found]

theorem ne_empty_of_verified {data : Data} (h : resolveActor data = some actor) :
  actor ≠ ""
  := by
  simpa using (Option.filter_eq_some_iff.mp h).2

variable (p now input signal)

theorem respond_outcome :
  Outcome p now input signal (respond p now input signal)
  := by
  fun_cases respond p now input signal with
  | case1 => apply Outcome.timedOut
  | case6 _ actor verified _ _ listed =>
    apply Outcome.forced actor verified
    simpa using listed
  | case10 => apply Outcome.repeated
  | case11 _ actor verified record chain action asked _ holds _ turn undecided =>
    apply decideSlot_outcome
    constructor
    · exact verified
    · exact asked
    · simpa [chain, record] using holds
    · intro sequential
      apply next_of_current (ne_empty_of_verified verified)
      by_contra other
      exact turn ⟨sequential, other⟩
    · rw [← undecided_iff]
      simpa [record] using undecided
  | _ => apply Outcome.ignored

/-- The ledger after a resumption. -/
def ledgerAfter : List Data :=
  getDecisions ((respond p now input signal).state.or input.state)

end

/-! ### Moves -/

/-- The move of the roster that the data of a signal asks for. -/
def Asks (data : Data) : Roster.Move String → Prop
  | .sign a =>
    resolveActor data = some a ∧ signalAction data = some actionApprove
  | .handOver a b =>
    resolveActor data = some a ∧ signalAction data = some actionDelegate ∧
      signalAssignee data = some b
  | .add _ a b =>
    resolveActor data = some a ∧ signalAction data = some actionAddSigner ∧
      signalAssignee data = some b

/-- A move that a signal asks for and that is made on the roster of a ledger. -/
structure Moves (p : Params) (data : Data) (decisions decisions' : List Data)
    (m : Roster.Move String) : Prop where
  asks : Asks data m
  made : step maxApproverChain m (rosterOf p decisions) = some (rosterOf p decisions')
  turn : p.mode = .sequential → (rosterOf p decisions).next = some m.mover
  leaves : ∀ a, m = .sign a → Roster.Leaves m (rosterOf p decisions)

section

variable {p : Params} {now : String} {input : Input} {signal : SignalPayload}

theorem ignore_ledger (reason : String) :
  getDecisions ((ignoreApprovalSignal input signal reason).state.or input.state)
    = getDecisions input.state
  := getDecisions_state _ _

variable {actor : String}

theorem approve_ledger {chain : List String} :
  getDecisions
      ((handleApprove now input (recordOf input) signal actor p chain).state.or input.state)
    = getDecisions input.state ++
        [entry actor actionApprove (field signal.data "comment") now []]
  := by
  unfold handleApprove
  dsimp only
  split
  · exact getDecisions_state _ _
  · split <;> exact getDecisions_state _ _

theorem step_of_approve (act : ActsOnSlot p input signal actor actionApprove) (comment : Value) :
  step maxApproverChain (.sign actor) (rosterOf p (getDecisions input.state))
    = some (rosterOf p
      (appendDecision (getDecisions input.state) actor actionApprove comment now []))
  := by
  rw [rosterOf_approve]
  exact if_pos ⟨act.holds, act.undecided⟩

theorem moves_of_approve (act : ActsOnSlot p input signal actor actionApprove)
    (waits : (handleApprove now input (recordOf input) signal actor p
      (approvedChain p (getDecisions input.state))).resuspend) :
  Moves p signal.data (getDecisions input.state)
    (getDecisions ((handleApprove now input (recordOf input) signal actor p
      (approvedChain p (getDecisions input.state))).state.or input.state)) (.sign actor)
  := by
  unfold handleApprove at waits ⊢
  dsimp only at waits ⊢
  split at waits
  · cases waits
  rename_i several
  rw [if_neg several]
  split at waits
  · rename_i outstanding
    rw [if_pos outstanding]
    have ledger := rosterOf_approve p (getDecisions input.state) actor now
      (field signal.data "comment")
    constructor
    · exact ⟨act.verified, act.asked⟩
    · simp only [resuspendWithRecord, getDecisions_state]
      exact step_of_approve act _
    · exact act.turn
    · rintro a ⟨⟩
      simp only [allChainMembersDecided, decided, recordOf_decisions, Bool.not_eq_true',
        all_eq_false, Bool.not_eq_true] at outstanding
      obtain ⟨c, hc, free⟩ := outstanding
      rw [@undecided_iff p, ledger] at free
      simp only [Roster.Open, mem_append, mem_singleton, not_or] at free
      exact ⟨c, hc, free.1.2, free.1.1, free.2⟩
  · cases waits

theorem respond_moves (waits : (respond p now input signal).resuspend) :
  ledgerAfter p now input signal = getDecisions input.state ∨
    ∃ m, Moves p signal.data (getDecisions input.state) (ledgerAfter p now input signal) m
  := by
  unfold ledgerAfter
  have outcome := respond_outcome p now input signal
  generalize respond p now input signal = out at outcome waits
  cases outcome with
  | timedOut =>
    unfold timedOut at waits
    split at waits <;> cases waits
  | ignored reason => exact .inl (ignore_ledger reason)
  | repeated => exact .inl (by simp)
  | forced => cases waits
  | approved actor act => exact .inr ⟨.sign actor, moves_of_approve act waits⟩
  | rejected | returned => cases waits
  | delegated actor assignee act named absent =>
    right
    use .handOver actor assignee
    constructor
    · exact ⟨act.verified, act.asked, named⟩
    · simp only [resuspendWithRecord, getDecisions_state, decided]
      rw [rosterOf_delegate]
      exact (if_pos ⟨act.holds, act.undecided⟩).trans (if_neg absent)
    · exact act.turn
    · rintro a ⟨⟩
  | added actor assignee position act named absent short =>
    right
    use .add (position = positionBefore) actor assignee
    constructor
    · exact ⟨act.verified, act.asked, named⟩
    · simp only [resuspendWithRecord, getDecisions_state, decided]
      rw [rosterOf_addSigner]
      have room : ¬ (assignee ∈ (rosterOf p (getDecisions input.state)).chain ∨
          maxApproverChain ≤ (rosterOf p (getDecisions input.state)).chain.length) := by
        rw [not_or, not_le]
        exact ⟨absent, short⟩
      exact (if_pos ⟨act.holds, act.undecided⟩).trans (if_neg room)
    · exact act.turn
    · rintro a ⟨⟩

/-- The entry a resumption appends is made by its verified actor, who holds a slot or forces the
gate. -/
structure MadeBy (p : Params) (data : Data) (decisions : List Data) (e : Data) (actor : String) :
    Prop where
  verified : resolveActor data = some actor
  names : field e "approver" = .str actor
  allowed : actor ∈ approvedChain p decisions ∨
    field e "action" = .str actionForce ∧ actor ∈ p.forceApprovers

theorem ActsOnSlot.madeBy {action : String} (act : ActsOnSlot p input signal actor action)
    {comment : Value} {extra : List Data} (plain : Plain extra) :
  MadeBy p signal.data (getDecisions input.state) (entry actor action comment now extra) actor
  := ⟨act.verified, plain.field_approver, .inl act.holds⟩

theorem respond_ledger :
  ledgerAfter p now input signal = getDecisions input.state ∨
    ∃ e actor, ledgerAfter p now input signal = getDecisions input.state ++ [e] ∧
      MadeBy p signal.data (getDecisions input.state) e actor
  := by
  unfold ledgerAfter
  have outcome := respond_outcome p now input signal
  generalize respond p now input signal = out at outcome
  cases outcome with
  | timedOut =>
    unfold timedOut
    split <;> exact .inl rfl
  | ignored reason => exact .inl (ignore_ledger reason)
  | repeated => exact .inl rfl
  | forced actor verified listed =>
    right
    refine ⟨_, actor, getDecisions_state _ _, verified, plain_nil.field_approver, .inr ⟨?_, listed⟩⟩
    exact plain_nil.field_action
  | approved actor act => exact .inr ⟨_, actor, approve_ledger, act.madeBy plain_nil⟩
  | rejected actor act | returned actor act =>
    exact .inr ⟨_, actor, getDecisions_state _ _, act.madeBy plain_nil⟩
  | delegated actor assignee act =>
    exact .inr ⟨_, actor, getDecisions_state _ _, act.madeBy (plain_assignee assignee)⟩
  | added actor assignee position act =>
    exact .inr ⟨_, actor, getDecisions_state _ _, act.madeBy (plain_signer assignee position)⟩

end

/-! ### Resumptions of the node -/

section

variable {parseDuration : String → Except String Int} {raw : Data} {p : Params}
  (parsed : parseApprovalParams parseDuration raw = .ok p) {r : Resumption}

include parsed

theorem onResume_eq {node : String} {state : Option Data} :
  (handler parseDuration).onResume r.now (inputOf raw node state r.data) r.signal
    = .ok (respond p r.now (inputOf raw node state r.data) r.signal)
  := by
  simp [handler, inputOf, parsed]

theorem resume_some {node : String} {w w' : Waiting}
    (h : (handler parseDuration).resume raw node r w = some w') :
  (respond p r.now (inputOf raw node w.state r.data) r.signal).resuspend ∧
    w'.past = ⟨w.state, r⟩ :: w.past ∧
    getDecisions w'.state
      = ledgerAfter p r.now (inputOf raw node w.state r.data) r.signal
  := by
  unfold resume at h
  rw [onResume_eq parsed] at h
  dsimp only at h
  split at h
  · rename_i waits
    cases h
    exact ⟨waits, rfl, rfl⟩
  · cases h

end

end Xflow.Approval
