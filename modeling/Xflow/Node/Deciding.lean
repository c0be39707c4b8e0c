import Xflow.Node.Opening

/-!
# A waiting gate can be decided

The chain of a waiting gate has nobody twice and does not grow past the limit.  As long as every
delegation leaves somebody in the chain who may still decide, and no configured approver has the
empty name, which no verified actor has, the chain of a waiting gate has an undecided member, and
the gate listens for the signal by which the first of them approves (`undecided_gate_listens`).  The
gate accepts a delegation that leaves nobody: it then waits for people who can no longer act
(`selfDelegation_dead`).
-/

namespace Xflow.Approval

open List Option Roster SuspendingHandler Transition

/-! ### Delegations that leave nobody -/

/-- The signal delegates a slot so that everybody in the chain has decided or is the actor. -/
def leavesNobody (p : Params) (state : Option Data) (data : Data) : Bool :=
  match resolveActor data, signalAssignee data with
  | some actor, some assignee =>
    signalAction data = some actionDelegate ∧
      assignee ∉ withoutApprover (approvedChain p (getDecisions state)) actor ∧
      ∀ c ∈ replaceApprover (approvedChain p (getDecisions state)) actor assignee,
        c = actor ∨ hasApproverDecision (getDecisions state) c
  | _, _ => false

theorem Moves.leaves_of {p : Params} {data : Data} {state : Option Data} {decisions' : List Data}
    {m : Roster.Move String} (moves : Moves p data (getDecisions state) decisions' m)
    (h : leavesNobody p state data = false) :
  Roster.Leaves m (rosterOf p (getDecisions state))
  := by
  cases m with
  | sign a => exact moves.leaves a rfl
  | handOver a b =>
    obtain ⟨verified, asked, named⟩ := moves.asks
    have made := moves.made
    simp only [step, ite_none_right_eq_some, ite_none_left_eq_some] at made
    obtain ⟨-, absent, -⟩ := made
    simp only [leavesNobody, verified, named, asked, true_and, decide_eq_false_iff_not] at h
    by_contra nobody
    apply h
    refine ⟨absent, ?_⟩
    intro c hc
    by_contra free
    rw [not_or, Bool.not_eq_true, @undecided_iff p] at free
    exact nobody ⟨c, hc, free⟩
  | add before a b => trivial

/-! ### Waiting gates -/

/-- What holds of a waiting gate on which every delegation left somebody to decide. -/
structure Live (p : Params) (w : Waiting) : Prop where
  distinct : (approvedChain p (getDecisions w.state)).Nodup
  bounded : (approvedChain p (getDecisions w.state)).length
    ≤ max p.approvers.length maxApproverChain
  named : "" ∉ approvedChain p (getDecisions w.state)
  undecided : ∃ a ∈ approvedChain p (getDecisions w.state),
    (rosterOf p (getDecisions w.state)).Open a

section

variable {parseDuration : String → Except String Int} {raw : Data} {p : Params} {node : String}
  (parsed : parseApprovalParams parseDuration raw = .ok p)

include parsed

theorem live_start (distinct : p.approvers.Nodup) (named : "" ∉ p.approvers) :
  Live p {}
  := by
  constructor
  · exact distinct
  · exact le_max_left _ _
  · exact named
  · obtain ⟨a, ha⟩ := exists_mem_of_ne_nil _ (approvers_ne_nil parsed)
    exact ⟨a, ha, not_mem_nil, not_mem_nil⟩

theorem Live.resume {r : Resumption} {w w' : Waiting} (live : Live p w)
    (cond : leavesNobody p w.state r.signal.data = false)
    (h : (handler parseDuration).resume raw node r w = some w') :
  Live p w'
  := by
  obtain ⟨waits, -, ledger⟩ := resume_some parsed h
  rcases respond_moves waits with same | ⟨m, moves⟩
  · rw [← ledger] at same
    constructor <;> rw [same]
    · exact live.distinct
    · exact live.bounded
    · exact live.named
    · exact live.undecided
  · rw [← ledger] at moves
    constructor
    · exact step_nodup live.distinct moves.made
    · have grown := step_length live.distinct moves.made
      exact grown.trans (max_le live.bounded (le_max_right _ _))
    · intro empty
      rcases mem_chain_of_step live.distinct moves.made empty with old | new
      · exact live.named old
      · have assignee : signalAssignee r.signal.data = some "" := by
          rcases new with ⟨a, rfl⟩ | ⟨before, a, rfl⟩ <;> exact moves.asks.2.2
        simpa using (filter_eq_some_iff.mp assignee).2
    · exact exists_open_of_step live.distinct (moves.leaves_of cond) moves.made

end

/-! ### Listening -/

/-- The first member of the chain who may still decide. -/
def firstUndecided (p : Params) (decisions : List Data) : Option String :=
  (approvedChain p decisions).find? fun c => !hasApproverDecision decisions c

section

variable {p : Params} {now : String} {input : Input} {signal : SignalPayload} {a : String}
  (first : firstUndecided p (getDecisions input.state) = some a)

include first

theorem approval_recorded_iff (triggered : signal.triggered ≠ .timeoutFired)
    (verified : resolveActor signal.data = some a)
    (asked : signalAction signal.data = some actionApprove) :
  ledgerAfter p now input signal = getDecisions input.state ++
      [entry a actionApprove (field signal.data "comment") now []] ↔
    signal.name = expectedApproverSignal input.nodeName p.mode a
  := by
  have holds : containsApprover (approvedChain p (recordOf input).decisions) a = true := by
    simpa [containsApprover] using mem_of_find?_eq_some first
  have undecided : hasApproverDecision (recordOf input).decisions a = false := by
    simpa using find?_some first
  have current : currentSequentialApprover (approvedChain p (recordOf input).decisions)
      (recordOf input).decisions = a := by
    unfold currentSequentialApprover
    rw [recordOf_decisions, show find? _ _ = some a from first, getD_some]
  have plain : actionApprove ≠ actionForce := by decide
  unfold ledgerAfter respond
  simp only [triggered, verified, asked, plain, holds, current, undecided, if_false, decideSlot,
    Bool.not_true, Bool.false_eq_true, ne_eq, not_true_eq_false, and_false, if_true]
  split
  · rename_i other
    rw [ignore_ledger]
    simp [other]
  · rename_i same
    rw [approve_ledger]
    simp [not_not.mp same]

theorem arm_listens {spec : SuspendSpec} (armed : arm p input = .ok spec) :
  expectedApproverSignal input.nodeName p.mode a ∈ spec.signals
  := by
  have holds := mem_of_find?_eq_some first
  unfold arm at armed
  unfold expectedApproverSignal
  split at armed
  · rename_i mode
    cases armed
    simp [mode]
  iterate 2
    rename_i mode
    cases armed
    simp only [mode, mem_append]
    exact .inl (mem_map_of_mem holds)
  · cases armed

end

theorem arm_ok {p : Params} {input input' : Input} {spec : SuspendSpec}
    (armed : arm p input = .ok spec) :
  ∃ spec', arm p input' = .ok spec'
  := by
  unfold arm at armed ⊢
  grind

/-- A gate that was suspended, whose approvers have distinct names other than the empty one, and on
which every delegation left somebody to decide, can still be decided while it waits: its chain has
nobody twice and at most the larger of the number of approvers and 32 members, one of them
undecided, and it listens for the one signal under which the approval of the first of these is
recorded. -/
theorem undecided_gate_listens {parseDuration : String → Except String Int} {raw : Data}
    {p : Params} {node : String} {w : Waiting} {d₀ : Data} {spec₀ : SuspendSpec}
    (parsed : parseApprovalParams parseDuration raw = .ok p) (distinct : p.approvers.Nodup)
    (named : "" ∉ p.approvers)
    (suspended : (handler parseDuration).prepareSuspend
      (inputOf raw node none d₀) = .ok spec₀)
    (run : Run ((handler parseDuration).resume raw node)
      (fun r w => leavesNobody p w.state r.signal.data = false) {} w) :
  (approvedChain p (getDecisions w.state)).Nodup ∧
  (approvedChain p (getDecisions w.state)).length ≤ max p.approvers.length 32 ∧
  ∃ a, firstUndecided p (getDecisions w.state) = some a ∧
    (∀ d, ∃ spec, (handler parseDuration).prepareSuspend
        (inputOf raw node w.state d) = .ok spec ∧
      expectedApproverSignal node p.mode a ∈ spec.signals) ∧
    (∃ data, resolveActor data = some a) ∧
    ∀ (r : Resumption) (out : Output), r.signal.triggered ≠ .timeoutFired →
      resolveActor r.signal.data = some a → signalAction r.signal.data = some actionApprove →
      (handler parseDuration).onResume r.now
        (inputOf raw node w.state r.data) r.signal = .ok out →
      (getDecisions (out.state.or w.state) = getDecisions w.state ++
          [entry a actionApprove (field r.signal.data "comment") r.now []] ↔
        r.signal.name = expectedApproverSignal node p.mode a)
  := by
  have live : Live p w := by
    apply Run.invariant run (live_start parsed distinct named)
    intro r w w' live cond h
    exact live.resume parsed cond h
  refine ⟨live.distinct, live.bounded, ?_⟩
  obtain ⟨a, first⟩ : ∃ a, firstUndecided p (getDecisions w.state) = some a := by
    rw [← isSome_iff_exists, firstUndecided, find?_isSome]
    obtain ⟨a, ha, free⟩ := live.undecided
    exact ⟨a, ha, by simp [undecided_iff.mpr free]⟩
  have known : a ≠ "" := by
    rintro rfl
    exact live.named (mem_of_find?_eq_some first)
  refine ⟨a, first, ?_, ?_, ?_⟩
  · intro d
    simp only [handler, inputOf, parsed] at suspended ⊢
    obtain ⟨spec, armed⟩ := @arm_ok p _ (inputOf raw node w.state d) _ suspended
    exact ⟨spec, armed, arm_listens first armed⟩
  · use [(verifiedActorKey, .str a)]
    simp [resolveActor, field, Value.asString, known]
  · intro r out triggered verified asked answer
    rw [onResume_eq parsed] at answer
    obtain rfl := Except.ok.inj answer
    exact @approval_recorded_iff p r.now (inputOf raw node w.state r.data)
      r.signal a first triggered verified asked

open Sample

/-- The parameters of a gate that asks one approver. -/
def Sample.one : Data :=
  [("approvers", .arr [.str "ann"]), ("mode", .str "all")]

def Sample.oneParams : Params :=
  { approvers := ["ann"], mode := .all }

/-- A gate on which the first of two approvers has handed their slot over listens for the assignee.
-/
theorem delegation_listens :
  ∃ w, exec ((handler noDuration).resume two "gate") [delegate "ann" "cat"] {} = some w ∧
    firstUndecided twoParams (getDecisions w.state) = some "cat" ∧
    ∃ spec, (handler noDuration).prepareSuspend
        (inputOf two "gate" w.state []) = .ok spec ∧
      "gate/approval/cat" ∈ spec.signals
  := by
  refine ⟨_, rfl, by decide, ?_⟩
  obtain ⟨-, -, a, first, listens, -⟩ :=
    @undecided_gate_listens noDuration two twoParams "gate" _ []
    _ rfl (by decide) (by decide) rfl
    (@Run.of_guarded _ _ _ _ _ [delegate "ann" "cat"] _ _ rfl)
  obtain rfl : "cat" = a := some.inj ((by decide : _ = some "cat").symm.trans first)
  exact listens []

/-- The only approver of a gate delegates to themselves: nobody in the chain is left to decide. -/
theorem selfDelegation_dead :
  ∃ w, parseApprovalParams noDuration one = .ok oneParams ∧
    (∃ spec, (handler noDuration).prepareSuspend (inputOf one "gate" none [])
      = .ok spec) ∧
    exec ((handler noDuration).resume one "gate") [delegate "ann" "ann"] {} = some w ∧
    approvedChain oneParams (getDecisions w.state) = ["ann"] ∧
    hasApproverDecision (getDecisions w.state) "ann" = true
  := by
  refine ⟨_, rfl, ⟨_, rfl⟩, rfl, ?_, ?_⟩
  · decide
  · decide

-- No verified actor has the empty name, so a gate that asks for it waits in vain from the start.
example : firstUndecided { approvers := [""] } [] = some "" ∧
    resolveActor [(verifiedActorKey, .str "")] = none := by
  decide

end Xflow.Approval
