import Xflow.Node.Ledger

/-!
# What opens an approval gate

A gate of mode all or sequential that leaves on its approved port without being forced has an
approval of every member of the chain it waits for, as long as nobody hands a slot to themselves or
to somebody whose earlier slot is closed (`opens_on_approvals`).  The gate accepts such hand-overs:
the slot then counts as decided by the entry that closed the earlier one, and the gate opens without
the approval of its holder (`selfDelegation_opens`).
-/

namespace Xflow.Approval

open List Option Roster SuspendingHandler Transition

/-! ### Entries and their makers -/

/-- Every entry of the ledger was made at one of the resumptions, by its verified actor, on the
ledger as it was then. -/
def Attributed (p : Params) (past : List Occasion) (ledger : List Data) : Prop :=
  ∀ i e, ledger[i]? = some e → ∃ o ∈ past, ∃ actor,
    getDecisions o.state = ledger.take i ∧
      MadeBy p o.resumption.signal.data (ledger.take i) e actor

variable {p : Params} {past : List Occasion} {a : String} {decisions : List Data}
  {ledger : List Data} {r : Resumption} {extra : Data}

theorem Attributed.mono (h : Attributed p past ledger) (o : Occasion) :
  Attributed p (o :: past) ledger
  := by
  intro i e he
  obtain ⟨o', ho, made⟩ := h i e he
  exact ⟨o', by simp [ho], made⟩

theorem Attributed.append {o : Occasion} {e : Data} {actor : String}
    (h : Attributed p past (getDecisions o.state))
    (made : MadeBy p o.resumption.signal.data (getDecisions o.state) e actor) :
  Attributed p (o :: past) (getDecisions o.state ++ [e])
  := by
  intro i e' he
  rcases lt_trichotomy i (getDecisions o.state).length with hi | rfl | hi
  · rw [getElem?_append_left hi] at he
    rw [take_append_of_le_length hi.le]
    exact h.mono o i e' he
  · obtain rfl : e = e' := by simpa using he
    use o
    simpa using ⟨actor, made⟩
  · rw [getElem?_eq_none (by simp; omega)] at he
    cases he

theorem Attributed.respond {state : Option Data} {raw : Data} {node : String}
    (h : Attributed p past (getDecisions state)) :
  Attributed p (⟨state, r⟩ :: past)
    (ledgerAfter p r.now (inputOf raw node state r.data) r.signal)
  := by
  rcases @respond_ledger p r.now (inputOf raw node state r.data) r.signal
    with same | ⟨e, actor, grown, made⟩
  · rw [same]
    exact h.mono _
  · rw [grown]
    apply Attributed.append h made

/-! ### Hand-overs to closed slots -/

/-- The signal hands a slot to its own actor, or to somebody outside the chain whose earlier slot is
closed. -/
def handsToClosed (p : Params) (state : Option Data) (data : Data) : Bool :=
  match resolveActor data, signalAssignee data with
  | some actor, some assignee =>
    signalAction data = some actionDelegate ∧ assignee = actor ∨
      (signalAction data = some actionDelegate ∨ signalAction data = some actionAddSigner) ∧
        assignee ∉ approvedChain p (getDecisions state) ∧
        hasApproverDecision (getDecisions state) assignee
  | _, _ => false

theorem Moves.fresh {data : Data} {state : Option Data} {decisions' : List Data}
    {m : Move String} (moves : Moves p data (getDecisions state) decisions' m)
    (h : handsToClosed p state data = false) :
  Fresh m (rosterOf p (getDecisions state))
  := by
  cases m with
  | sign a => trivial
  | handOver a b =>
    obtain ⟨verified, asked, named⟩ := moves.asks
    have made := moves.made
    simp only [step, ite_none_right_eq_some, ite_none_left_eq_some] at made
    obtain ⟨-, absent, -⟩ := made
    simp only [handsToClosed, verified, named, asked, true_and, true_or, Bool.decide_or,
      Bool.or_eq_false_iff, decide_eq_false_iff_not, not_and, Bool.not_eq_true] at h
    obtain ⟨other, closed⟩ := h
    refine ⟨other, undecided_iff.mp (closed ?_)⟩
    intro hb
    exact absent ((mem_erase_of_ne other).mpr hb)
  | add before a b =>
    obtain ⟨verified, asked, named⟩ := moves.asks
    have made := moves.made
    simp only [step, ite_none_right_eq_some, ite_none_left_eq_some, not_or] at made
    obtain ⟨-, absent, -⟩ := made
    simp only [handsToClosed, verified, named, asked, true_and, or_true, Bool.decide_or,
      Bool.or_eq_false_iff, decide_eq_false_iff_not, not_and, Bool.not_eq_true] at h
    exact undecided_iff.mp (h.2 absent.1)

/-! ### Waiting gates -/

/-- What holds of a waiting gate on which no slot went to a closed one. -/
structure Proper (p : Params) (w : Waiting) : Prop where
  sound : (rosterOf p (getDecisions w.state)).Sound
  ordered : p.mode = .sequential → (rosterOf p (getDecisions w.state)).Ordered
  attributed : Attributed p w.past (getDecisions w.state)

theorem proper_start (distinct : p.approvers.Nodup) :
  Proper p {}
  := by
  constructor
  · constructor
    · exact distinct
    · intro a _ closed
      cases closed
  · intro _
    use p.approvers
    constructor
    · rfl
    · intro a _
      constructor <;> exact not_mem_nil
  · intro i e h
    cases h

theorem Proper.resume {parseDuration : String → Except String Int} {raw : Data} {p : Params}
    {node : String} (parsed : parseApprovalParams parseDuration raw = .ok p)
    {w w' : Waiting} (proper : Proper p w)
    (cond : handsToClosed p w.state r.signal.data = false)
    (h : (handler parseDuration).resume raw node r w = some w') :
  Proper p w'
  := by
  obtain ⟨waits, past, ledger⟩ := resume_some parsed h
  have attributed : Attributed p w'.past (getDecisions w'.state) := by
    rw [past, ledger]
    apply proper.attributed.respond
  rcases respond_moves waits with same | ⟨m, moves⟩
  · rw [← ledger] at same
    constructor
    · rw [same]
      exact proper.sound
    · rw [same]
      exact proper.ordered
    · exact attributed
  · rw [← ledger] at moves
    have fresh := moves.fresh cond
    constructor
    · exact step_sound proper.sound fresh moves.made
    · intro sequential
      apply step_ordered proper.sound (proper.ordered sequential) fresh
        (moves.turn sequential) moves.made
    · exact attributed

/-! ### The published verdict -/

/-- The value a key of the output's data has. -/
def published (out : Output) (key : String) : Option Value :=
  out.data.bind (·.lookup key)

/-- An output that says that the gate was forced. -/
def Forced (out : Output) : Prop :=
  published out "forced" = some (.bool true)

theorem lookup_publicApprovalData {input : Input} {record : Record} {key : String}
    (owned : key ∈ ownedOutputKeys) :
  (publicApprovalData input record extra).lookup key
    = (extra.lookup key).or (record.state.lookup key)
  := by
  simp [publicApprovalData, approvalOutput, withoutOwnedKeys, owned]

/-- Somebody decided for themselves: they approved, rejected or returned. -/
def decidesOwn (ledger : List Data) (a : String) : Bool :=
  ledger.any fun e => field e "approver" = .str a ∧
    field e "action" ∈ [Value.str actionApprove, .str actionReject, .str actionReturn]

theorem mem_approvals :
  a ∈ approvals ledger ↔
    ∃ e ∈ ledger, field e "approver" = .str a ∧ field e "action" = .str actionApprove
  := by
  simp only [approvals, mem_filterMap, ite_none_right_eq_some, Value.asString_eq_some]
  grind

theorem approved_of_decided (sound : (rosterOf p decisions).Sound)
    (ha : a ∈ approvedChain p decisions)
    (decided : hasApproverDecision decisions a = true) :
  a ∈ approvals decisions
  := by
  rw [@hasApproverDecision_iff p, Open, Classical.not_and_iff_not_or_not, not_not,
    not_not] at decided
  rcases decided with approved | closed
  · exact approved
  · cases sound.disjoint a ha closed

section

variable {p : Params} {now : String} {input : Input} {signal : SignalPayload}

theorem forced_lookup {record : Record}
    (h : (publicApprovalData input record extra).lookup "forced" = some (.bool true)) :
  extra.lookup "forced" = some (.bool true)
  := by
  rw [lookup_publicApprovalData (by decide)] at h
  simpa [Record.state, decisionsKey, ignoredKey, ignoredCountKey, lookup_cons] using h

attribute [local simp] resuspendWithRecord

/-- A gate that does not take any approval leaves on its approved port, where it is not forced, by
the approval after which every member of the chain has decided. -/
theorem opens_by_approval (several : p.mode ≠ .any)
    (port : (respond p now input signal).port = "approved")
    (unforced : ¬ Forced (respond p now input signal)) :
  ∃ actor, (p.mode = .sequential → (rosterOf p (getDecisions input.state)).next = some actor) ∧
    step maxApproverChain (.sign actor) (rosterOf p (getDecisions input.state))
      = some (rosterOf p (ledgerAfter p now input signal)) ∧
    approvedChain p (ledgerAfter p now input signal)
      = approvedChain p (getDecisions input.state) ∧
    ∀ a ∈ approvedChain p (getDecisions input.state),
      hasApproverDecision (ledgerAfter p now input signal) a = true
  := by
  unfold ledgerAfter
  have outcome := respond_outcome p now input signal
  generalize respond p now input signal = out at outcome port unforced
  cases outcome with
  | timedOut =>
    unfold timedOut at port
    split at port <;> simp at port
  | ignored => simp [ignoreApprovalSignal] at port
  | repeated => simp at port
  | forced actor => cases unforced (lookup_publicApprovalData (by decide))
  | approved actor act =>
    use actor
    rw [approve_ledger, ← appendDecision_eq]
    refine ⟨act.turn, step_of_approve act _, ?_, ?_⟩
    · exact congrArg chain (rosterOf_approve p _ actor now _)
    unfold handleApprove at port
    simp only [several, if_false] at port
    split at port
    · simp at port
    · rename_i decided
      simpa [allChainMembersDecided, Record.decided] using decided
  | rejected => simp [handleReject, decideGate] at port
  | returned => simp [handleReturn, decideGate] at port
  | delegated | added => simp at port

theorem forced_bypasses (forced : Forced (respond p now input signal)) :
  published (respond p now input signal) "bypassed"
      = some (.arr ((undecidedApprovers (approvedChain p (getDecisions input.state))
          (getDecisions input.state)).map .str)) ∧
    ∃ e, ledgerAfter p now input signal = getDecisions input.state ++ [e] ∧
      field e "action" = .str actionForce
  := by
  unfold ledgerAfter
  have outcome := respond_outcome p now input signal
  generalize respond p now input signal = out at outcome forced
  cases outcome with
  | timedOut =>
    unfold Forced published timedOut at forced
    split at forced <;> simp [lookup_cons] at forced
  | ignored => cases forced_lookup forced
  | repeated => cases forced
  | forced actor =>
    constructor
    · exact lookup_publicApprovalData (by decide)
    · exact ⟨_, getDecisions_state _ _, plain_nil.field_action⟩
  | approved actor act =>
    unfold handleApprove at forced
    dsimp only at forced
    split at forced
    · cases forced_lookup forced
    · split at forced <;> cases forced_lookup forced
  | rejected | returned | delegated | added => cases forced_lookup forced

end

theorem decidesOwn_iff (sound : (rosterOf p decisions).Sound)
    (ha : a ∈ approvedChain p decisions) {e : Data} (force : field e "action" = .str actionForce) :
  decidesOwn (decisions ++ [e]) a = hasApproverDecision decisions a
  := by
  rw [Bool.eq_iff_iff]
  constructor
  · intro own
    simp only [decidesOwn, List.any_eq_true, decide_eq_true_eq] at own
    obtain ⟨d, hd, made, action⟩ := own
    rcases mem_append.mp hd with hd | hd
    · simp only [hasApproverDecision, List.any_eq_true, decide_eq_true_eq]
      refine ⟨d, hd, made, ?_⟩
      simp only [List.mem_cons, List.not_mem_nil, or_false] at action
      rcases action with action | action | action <;> simp [action, closesSlot]
    · -- The forcing entry itself is no decision of a slot.
      obtain rfl : d = e := by simpa using hd
      rw [force] at action
      simp [actionForce, actionApprove, actionReject, actionReturn] at action
  · intro decided
    obtain ⟨d, hd, made, approve⟩ := mem_approvals.mp (approved_of_decided sound ha decided)
    simp only [decidesOwn, List.any_eq_true]
    exact ⟨d, by simp [hd], by simp [made, approve]⟩

/-! ### Opening -/

section

variable {p : Params} {now : String} {input : Input} {signal : SignalPayload}
  (sound : (rosterOf p (getDecisions input.state)).Sound)

include sound

section

variable (port : (respond p now input signal).port = "approved")
  (unforced : ¬ Forced (respond p now input signal))

include port unforced

theorem approvals_of_open (several : p.mode ≠ .any)
    (ha : a ∈ approvedChain p (getDecisions input.state)) :
  a ∈ approvals (ledgerAfter p now input signal)
  := by
  obtain ⟨actor, -, step, chain, decided⟩ := opens_by_approval several port unforced
  apply approved_of_decided (step_sound sound (fresh_sign _ _) step)
  · rwa [chain]
  · exact decided a ha

theorem approvals_eq_chain_of_open (sequential : p.mode = .sequential)
    (ordered : (rosterOf p (getDecisions input.state)).Ordered) :
  approvals (ledgerAfter p now input signal) = approvedChain p (getDecisions input.state)
  := by
  obtain ⟨actor, turn, step, chain, decided⟩ :=
    opens_by_approval (by simp [sequential]) port unforced
  obtain ⟨rest, split, free⟩ := step_ordered sound ordered (fresh_sign _ _) (turn sequential) step
  simp only [rosterOf] at split
  rw [chain] at split
  cases rest with
  | nil => simpa using split.symm
  | cons a rest =>
    have open' := undecided_iff.mpr (free a (by simp))
    rw [decided a (by simp [split])] at open'
    cases open'

end

end

/-! ### A gate of two approvers -/

namespace Sample

/-- The parameters of a gate that asks two approvers. -/
def two : Data :=
  [("approvers", .arr [.str "ann", .str "bob"]), ("mode", .str "all")]

def twoParams : Params :=
  { approvers := ["ann", "bob"], mode := .all }

/-- The gate of the samples has no timeout to parse. -/
def noDuration (_ : String) : Except String Int := .error ""

/-- A signal on the name of its actor. -/
def signalOf (actor : String) (rest : Data) : Resumption where
  now := "2026-01-01T00:00:00Z"
  signal :=
    { triggered := .received
      name := approverSignal "gate" actor
      data := (verifiedActorKey, .str actor) :: rest }

def approve (actor : String) : Resumption :=
  signalOf actor [("action", .str actionApprove)]

def delegate (actor assignee : String) : Resumption :=
  signalOf actor [("action", .str actionDelegate), ("assignee", .str assignee)]

def addSigner (actor assignee : String) : Resumption :=
  signalOf actor [("action", .str actionAddSigner), ("assignee", .str assignee)]

end Sample

open Sample

/-! ### The gate -/

/-- A gate of mode all or sequential on which no slot is handed to its own holder or to somebody
whose earlier slot is closed opens on the approvals it asks for: without force, on an approval of
every member of its chain, in a sequence in the order of the chain.  Every entry of its ledger was
made by the verified actor of a signal who then held a slot or was on the force list, and a forced
opening names the members of the chain who had not decided for themselves. -/
theorem opens_on_approvals {parseDuration : String → Except String Int} {raw : Data} {p : Params}
    {node : String} {w : Waiting}
    (parsed : parseApprovalParams parseDuration raw = .ok p) (distinct : p.approvers.Nodup)
    (several : p.mode = .all ∨ p.mode = .sequential)
    (run : Run ((handler parseDuration).resume raw node)
      (fun r w => handsToClosed p w.state r.signal.data = false) {} w)
    (r : Resumption) (out : Output)
    (answer : (handler parseDuration).onResume r.now
      (inputOf raw node w.state r.data) r.signal = .ok out) :
  (out.port = "approved" → ¬ Forced out →
    (∀ a ∈ approvedChain p (getDecisions w.state), ∃ e ∈ getDecisions (out.state.or w.state),
      field e "approver" = .str a ∧ field e "action" = .str actionApprove) ∧
    (p.mode = .sequential →
      approvals (getDecisions (out.state.or w.state)) = approvedChain p (getDecisions w.state))) ∧
  Attributed p (⟨w.state, r⟩ :: w.past) (getDecisions (out.state.or w.state)) ∧
  (Forced out → published out "bypassed" = some (.arr
    (((approvedChain p (getDecisions w.state)).filter
      fun a => !decidesOwn (getDecisions (out.state.or w.state)) a).map .str)))
  := by
  have proper : Proper p w := by
    apply Run.invariant run (proper_start distinct)
    intro r w w' proper cond h
    exact proper.resume parsed cond h
  rw [onResume_eq parsed] at answer
  obtain rfl := Except.ok.inj answer
  constructor
  · intro port unforced
    constructor
    · intro a ha
      rw [← mem_approvals]
      apply approvals_of_open proper.sound port unforced _ ha
      rcases several with several | several <;> simp [several]
    · intro sequential
      exact approvals_eq_chain_of_open proper.sound port unforced sequential
        (proper.ordered sequential)
  constructor
  · exact proper.attributed.respond
  · intro forced
    obtain ⟨bypassed, e, ledger, force⟩ := forced_bypasses forced
    rw [bypassed, undecidedApprovers]
    congr 3
    apply filter_congr
    intro a ha
    change (!hasApproverDecision (getDecisions w.state) a)
      = !decidesOwn (ledgerAfter p r.now _ r.signal) a
    rw [ledger]
    exact congrArg _ (decidesOwn_iff proper.sound ha force).symm

theorem twoApprovals_open :
  ∃ w out,
    exec ((handler noDuration).resume two "gate") [approve "ann"] {} = some w ∧
    (handler noDuration).onResume "" (inputOf two "gate" w.state [])
      (approve "bob").signal = .ok out ∧
    out.port = "approved" ∧
    ∀ a ∈ ["ann", "bob"], ∃ e ∈ getDecisions (out.state.or w.state),
      field e "approver" = .str a ∧ field e "action" = .str actionApprove
  := by
  refine ⟨_, _, rfl, rfl, by decide, ?_⟩
  have opens := @opens_on_approvals noDuration two twoParams "gate" _ rfl (by decide)
    (.inl (by decide)) (@Run.of_guarded _ _ _ _ _ [approve "ann"] _ _ rfl)
    { approve "bob" with now := "" } _ rfl
  apply (opens.1 (by decide) _).1
  unfold Forced
  decide

/-- An approver who delegates to themselves is never asked again, and the gate opens without their
approval. -/
theorem selfDelegation_opens :
  ∃ w out, parseApprovalParams noDuration two = .ok twoParams ∧
    exec ((handler noDuration).resume two "gate") [delegate "ann" "ann"] {} = some w ∧
    (handler noDuration).onResume "" (inputOf two "gate" w.state [])
      (approve "bob").signal = .ok out ∧
    out.port = "approved" ∧ ¬ Forced out ∧
    "ann" ∈ approvedChain twoParams (getDecisions w.state) ∧
    ¬ ∃ e ∈ getDecisions (out.state.or w.state),
      field e "approver" = .str "ann" ∧ field e "action" = .str actionApprove
  := by
  refine ⟨_, _, rfl, rfl, rfl, ?_, ?_, ?_, ?_⟩
  · decide
  · unfold Forced
    decide
  · decide
  · decide

-- So does an added signer who has delegated an earlier slot: `ann` is in the chain and never asked.
example :
    (exec ((handler noDuration).resume two "gate")
      [delegate "ann" "cat", addSigner "cat" "ann", approve "cat"] {}).map (fun w =>
        (approvedChain twoParams (getDecisions w.state),
          (respond twoParams "" (inputOf two "gate" w.state [])
            (approve "bob").signal).port))
      = some (["cat", "ann", "bob"], "approved") := by
  decide

end Xflow.Approval
