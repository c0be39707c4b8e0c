import Xflow.Engine.Suspension
import Xflow.Node.Opening

/-!
# Approval decisions do not depend on workflow data

Two lives of an approval node with the same parameters and the same signals look the same to whoever
watches what the gate waits for, what it reads back, the port it leaves on and what it publishes
under its own keys, whatever data, scopes and clocks the two lives have (`approval_isolated`).  Time
stamps of ledger entries are left out of what is seen.
-/

namespace Xflow.Approval

open Fields List Option Record Transition

/-! ### Entries without their time -/

/-- An entry without its time stamp. -/
def untimed (e : Data) : Data :=
  without ["at"] e

def untimedItem : Value → Value
  | .obj e => .obj (untimed e)
  | v => v

/-- The value of a ledger without time stamps. -/
def untimedLedger : Value → Value
  | .arr items => .arr (items.map untimedItem)
  | v => v

/-- The value of a key without time stamps, which only the ledger has. -/
def untimedAt (key : String) (v : Value) : Value :=
  if key = decisionsKey then untimedLedger v else v

/-- A private state without time stamps. -/
def untimedState (state : Data) : Data :=
  state.map fun f => (f.1, untimedAt f.1 f.2)

/-- A record without time stamps. -/
def Record.untimed (r : Record) : Record :=
  { r with decisions := r.decisions.map Approval.untimed }

theorem field_untimed (e : Data) {key : String} (h : key ≠ "at") :
  field (untimed e) key = field e key
  := by
  simp [field, untimed, h]

theorem hasApproverDecision_untimed (decisions : List Data) (a : String) :
  hasApproverDecision (decisions.map untimed) a = hasApproverDecision decisions a
  := by
  simp only [hasApproverDecision, List.any_map]
  congr 1
  funext e
  simp [field_untimed]

theorem approvedChain_untimed (p : Params) (decisions : List Data) :
  approvedChain p (decisions.map untimed) = approvedChain p decisions
  := by
  simp only [approvedChain, foldl_map]
  congr 1
  funext chain e
  simp [amend, field_untimed]

theorem field_untimedState (state : Data) (key : String) :
  field (untimedState state) key = untimedAt key (field state key)
  := by
  unfold field untimedState
  rw [lookup_map]
  cases state.lookup key with
  | none => simp [untimedAt, untimedLedger]
  | some v => rfl

theorem parseDecisionList_untimed (v : Value) :
  parseDecisionList (untimedLedger v) = (parseDecisionList v).map untimed
  := by
  cases v with
  | arr items =>
    simp only [untimedLedger, parseDecisionList, filterMap_map, map_filterMap]
    congr 1
    funext item
    cases item <;> rfl
  | _ => rfl

theorem recordOf_untimed (input : Input) :
  recordOf { input with state := input.state.map untimedState } = (recordOf input).untimed
  := by
  cases state : input.state with
  | none => simp [recordOf, Record.untimed, state, getDecisions]
  | some s =>
    simp only [recordOf, Record.untimed, state, map_some, getDecisions, getIgnored,
      getIgnoredCount, field_untimedState, Record.mk.injEq]
    refine ⟨parseDecisionList_untimed _, ?_, ?_⟩
    · rfl
    · rfl

/-! ### What is seen of an output -/

/-- What a map has under the gate's own keys. -/
def own (d : Data) : List (Option Value) :=
  ownedOutputKeys.map fun key => (d.lookup key).map (untimedAt key)

/-- What is seen of an output. -/
structure View where
  resuspend : Bool
  port : String
  state : Option Data
  own : Option (List (Option Value))

def view (out : Output) : View where
  resuspend := out.resuspend
  port := out.port
  state := out.state.map untimedState
  own := out.data.map own

theorem untimedState_state (r : Record) :
  untimedState r.state = r.untimed.state
  := by
  simp only [untimedState, Record.state, Record.untimed, List.map_cons]
  congr 2
  simp [untimedAt, untimedLedger, untimedItem]

section

variable {input input' : Input} {r r' : Record}

theorem own_publicApprovalData (same : r.untimed = r'.untimed) (extra : Data) :
  own (publicApprovalData input r extra) = own (publicApprovalData input' r' extra)
  := by
  apply map_congr_left
  intro key owned
  rw [lookup_publicApprovalData owned, lookup_publicApprovalData owned]
  cases extra.lookup key with
  | some v => rfl
  | none =>
    simp only [none_or]
    rw [← lookup_map untimedAt, ← lookup_map untimedAt]
    exact congrArg (lookup key)
      ((untimedState_state r).trans ((congrArg _ same).trans (untimedState_state r').symm))

theorem view_resuspendWithRecord (same : r.untimed = r'.untimed) :
  view (resuspendWithRecord input r) = view (resuspendWithRecord input' r')
  := by
  simp [view, resuspendWithRecord, untimedState_state, same,
    @own_publicApprovalData input input' _ _ same]

theorem view_decideGate (same : r.untimed = r'.untimed) (port : String) (extra : Data) :
  view (decideGate input r port extra) = view (decideGate input' r' port extra)
  := by
  simp [view, decideGate, untimedState_state, same, @own_publicApprovalData input input' _ _ same]

theorem view_ignoreApprovalSignal (same : (recordOf input).untimed = (recordOf input').untimed)
    (signal : SignalPayload) (reason : String) :
  view (ignoreApprovalSignal input signal reason)
    = view (ignoreApprovalSignal input' signal reason)
  := by
  apply view_resuspendWithRecord
  simp only [Record.untimed, Record.mk.injEq] at same ⊢
  rw [same.2.1, same.2.2]
  exact ⟨same.1, rfl, rfl⟩

theorem untimed_decided (same : r.untimed = r'.untimed) (now now' : String)
    (signal : SignalPayload) (actor action : String) (extra : List Data) :
  (r.decided now signal actor action extra).untimed
    = (r'.decided now' signal actor action extra).untimed
  := by
  simp only [Record.untimed, Record.mk.injEq] at same ⊢
  refine ⟨?_, same.2⟩
  simp only [decided, appendDecision, map_append, same.1]
  congr 1
  exact congrArg (fun e => [e]) (without_foldl_overlay rfl)

/-! ### The answer to a signal -/

section

variable (same : (recordOf input).untimed = (recordOf input').untimed)

include same

theorem chain_same (p : Params) :
  approvedChain p (recordOf input).decisions = approvedChain p (recordOf input').decisions
  := by
  rw [← approvedChain_untimed, ← approvedChain_untimed p (recordOf input').decisions]
  exact congrArg (fun r => approvedChain p (decisions r)) same

theorem decided_same :
  hasApproverDecision (recordOf input).decisions = hasApproverDecision (recordOf input').decisions
  := by
  funext a
  rw [← hasApproverDecision_untimed, ← hasApproverDecision_untimed (recordOf input').decisions]
  exact congrArg (fun r => hasApproverDecision (decisions r) a) same

section

variable (now now' : String) (signal : SignalPayload) (p : Params)

theorem view_handleApprove (actor : String) (chain : List String) :
  view (handleApprove now input (recordOf input) signal actor p chain)
    = view (handleApprove now' input' (recordOf input') signal actor p chain)
  := by
  have added := untimed_decided same now now' signal actor actionApprove []
  have decided : allChainMembersDecided chain
        ((recordOf input).decided now signal actor actionApprove []).decisions
      = allChainMembersDecided chain
        ((recordOf input').decided now' signal actor actionApprove []).decisions := by
    unfold allChainMembersDecided
    congr 1
    funext a
    rw [← hasApproverDecision_untimed, ← hasApproverDecision_untimed
      ((recordOf input').decided now' signal actor actionApprove []).decisions]
    exact congrArg (fun r => hasApproverDecision (decisions r) a) added
  unfold handleApprove
  simp only [decided]
  split
  · exact view_decideGate added _ _
  · split
    · exact view_resuspendWithRecord added
    · exact view_decideGate added _ _

theorem view_decideSlot (actor action : String) (chain : List String) :
  view (decideSlot now input (recordOf input) signal actor p chain action)
    = view (decideSlot now' input' (recordOf input') signal actor p chain action)
  := by
  have ignored := view_ignoreApprovalSignal same signal
  have added := untimed_decided same now now' signal actor
  unfold decideSlot
  split
  · exact view_handleApprove same now now' signal p actor chain
  split
  · exact view_decideGate (added _ _) _ _
  split
  · exact view_decideGate (added _ _) _ _
  split
  · unfold handleDelegate
    cases signalAssignee signal.data with
    | none => exact ignored _
    | some assignee =>
      dsimp only
      split
      · exact ignored _
      · exact view_resuspendWithRecord (added _ _)
  split
  · unfold handleAddSigner
    cases signalAssignee signal.data with
    | none => exact ignored _
    | some assignee =>
      dsimp only
      split
      · exact ignored _
      · cases signalPosition signal.data with
        | none => exact ignored _
        | some position =>
          dsimp only
          split
          · exact ignored _
          · exact view_resuspendWithRecord (added _ _)
  · exact ignored _

theorem view_respond (node : input.nodeName = input'.nodeName) :
  view (respond p now input signal) = view (respond p now' input' signal)
  := by
  have ignored := view_ignoreApprovalSignal same signal
  unfold respond
  split
  · rfl
  cases resolveActor signal.data with
  | none => exact ignored _
  | some actor =>
    cases signalAction signal.data with
    | none => exact ignored _
    | some action =>
      have decided := decided_same same
      have current (chain : List String) :
          currentSequentialApprover chain (recordOf input).decisions
            = currentSequentialApprover chain (recordOf input').decisions := by
        simp only [currentSequentialApprover, decided]
      simp only [chain_same same p, current, decided, node]
      split
      · split
        · exact ignored _
        · split
          · exact ignored _
          · simp only [handleForce, undecidedApprovers, decided]
            exact view_decideGate (untimed_decided same _ _ _ _ _ _) _ _
      split
      · exact ignored _
      split
      · exact ignored _
      split
      · exact ignored _
      split
      · rfl
      · exact view_decideSlot same now now' signal p actor action _

end

end

end

/-! ### What is stored -/

section

variable {p : Params} {now : String} {input : Input} {signal : SignalPayload}

theorem respond_stateless (h : (respond p now input signal).state = none) :
  respond p now input signal = timedOut p ∨ respond p now input signal = { resuspend := true }
  := by
  have outcome := respond_outcome p now input signal
  generalize respond p now input signal = out at outcome h
  cases outcome with
  | timedOut => exact .inl rfl
  | repeated => exact .inr rfl
  | approved actor act =>
    unfold handleApprove at h
    dsimp only at h
    split at h
    · cases h
    · split at h <;> cases h
  | ignored | forced | rejected | returned | delegated | added => cases h

theorem splitNodeState_respond :
  (splitNodeState (withNodeState ((respond p now input signal).data.getD [])
    (respond p now input signal).state)).1 = (respond p now input signal).state
  := by
  cases h : (respond p now input signal).state with
  | some state => simp [splitNodeState, withNodeState, Value.asObject]
  | none =>
    rcases respond_stateless h with out | out <;> rw [out]
    · unfold timedOut
      split <;> rfl
    · rfl

theorem restored_state (waits : (respond p now input signal).resuspend) (stored : Data) :
  (splitNodeState (restored stored (respond p now input signal))).1
    = (respond p now input signal).state.or (splitNodeState stored).1
  := by
  cases h : (respond p now input signal).state with
  | none =>
    rcases respond_stateless h with out | out
    · rw [out, timedOut] at waits
      split at waits <;> cases waits
    · rw [out]
      rfl
  | some state =>
    have answered := @splitNodeState_respond p now input signal
    rw [restored, if_pos (by simp [h]), answered, h, some_or]

end

theorem own_withNodeState (d : Data) (state : Option Data) :
  own (withNodeState d state) = own d
  := by
  cases state with
  | none => rfl
  | some state =>
    apply map_congr_left
    intro key owned
    have other : key ≠ nodeStateKey := by
      rintro rfl
      revert owned
      decide
    have absent : lookup key [(nodeStateKey, Value.obj state)] = none := by
      simp [other]
    rw [withNodeState, lookup_overlay, absent, none_or]

variable {parseDuration : String → Except String Int} {params : Data} {node : String}
  {s : Suspended}

/-- A resumption by the engine that suspends the gate again is one of the handler, on the private
states that are stored before and after. -/
theorem resume_of_resumeSuspended {stored scope : Data} {now : String} {payload : SignalPayload}
    (h : resumeSuspended (handler parseDuration) now (resumeInput params node stored scope)
      payload stored = .suspended s)
    (past : List Occasion) :
  ∃ r past', (handler parseDuration).resume params node r ⟨(splitNodeState stored).1, past⟩
    = some ⟨(splitNodeState s.stored).1, past'⟩
  := by
  let r : Resumption := ⟨now, (resumeInput params node stored scope).data, payload⟩
  use r, ⟨(splitNodeState stored).1, r⟩ :: past
  cases parsed : parseApprovalParams parseDuration params with
  | error err => simp [resumeSuspended, handler, resumeInput, parsed] at h
  | ok p =>
    unfold SuspendingHandler.resume
    rw [onResume_eq parsed]
    simp only [resumeSuspended, handler, resumeInput, parsed] at h
    split at h
    · rename_i waits
      split at h
      · cases h
      · cases h
        dsimp only
        rw [if_pos (by exact waits), restored_state waits]
        rfl
    · cases h

attribute [local simp] settlings

theorem run_of_settlings {wakes : List Wake} (same : ∀ w ∈ wakes, w.params = params) {t : Settling}
    (start : ∀ s, t = .suspended s → ∃ w : Waiting, w.state = (splitNodeState s.stored).1 ∧
      Run ((handler parseDuration).resume params node) (fun _ _ => True) {} w)
    (h : .suspended s ∈ settlings (handler parseDuration) node t wakes) :
  ∃ w : Waiting, w.state = (splitNodeState s.stored).1 ∧
    Run ((handler parseDuration).resume params node) (fun _ _ => True) {} w
  := by
  induction wakes generalizing t with
  | nil =>
    apply start
    cases t with
    | suspended s₀ => simpa [eq_comm] using h
    | failed | committed => simp at h
  | cons wake wakes ih =>
    cases t with
    | failed | committed => simp at h
    | suspended s₀ =>
      simp only [settlings, mem_cons, Settling.suspended.injEq] at h
      rcases h with rfl | h
      · exact start s rfl
      · apply ih (fun w hw => same w (by simp [hw])) _ h
        intro s₁ h₁
        obtain ⟨w, read, run⟩ := start s₀ rfl
        rw [same wake (by simp)] at h₁
        obtain ⟨r, past, step⟩ := resume_of_resumeSuspended h₁ w.past
        rw [← read] at step
        exact ⟨⟨_, past⟩, rfl, run.tail ⟨r, trivial, step⟩⟩

theorem run_of_nodeLife {scope : Data} {upstream : Upstream} {wakes : List Wake}
    (same : ∀ w ∈ wakes, w.params = params)
    (h : .suspended s ∈ nodeLife (handler parseDuration) node params upstream scope wakes) :
  ∃ w : Waiting, w.state = (splitNodeState s.stored).1 ∧
    Run ((handler parseDuration).resume params node) (fun _ _ => True) {} w
  := by
  apply run_of_settlings same _ h
  intro s₀ first
  use {}
  constructor
  · unfold suspendFirst at first
    split at first
    · cases first
    · cases first
      exact splitNodeState_first.symm
  · exact .refl

/-! ### Two lives -/

/-- What is seen of a node after each call of its handler. -/
inductive Sight where
  | failed (err : String)
  | waiting (spec : SuspendSpec) (state : Option Data) (own : List (Option Value))
  | left (port : String) (state : Option Data) (own : List (Option Value))
  deriving DecidableEq

def sight : Settling → Sight
  | .failed err => .failed err
  | .suspended s => .waiting s.spec ((splitNodeState s.stored).1.map untimedState) (own s.stored)
  | .committed port stored =>
    .left port ((splitNodeState stored).1.map untimedState) (own stored)

theorem recordOf_same {input input' : Input}
    (same : input.state.map untimedState = input'.state.map untimedState) :
  (recordOf input).untimed = (recordOf input').untimed
  := by
  rw [← recordOf_untimed, ← recordOf_untimed]
  simp [recordOf, same]

theorem arm_same {input input' : Input}
    (same : (recordOf input).untimed = (recordOf input').untimed)
    (node : input.nodeName = input'.nodeName) (p : Params) :
  arm p input = arm p input'
  := by
  have chain := chain_same same p
  simp only [recordOf_decisions] at chain
  simp [arm, chain, node]

section

variable {parseDuration : String → Except String Int} {node : String}

theorem sight_suspendFirst (params : Data) (upstream : Upstream) (scope : Data) :
  sight (suspendFirst (handler parseDuration) (execInput params node upstream scope))
    = match (handler parseDuration).prepareSuspend { params := params, nodeName := node } with
      | .error err => .failed err
      | .ok spec => .waiting spec none (own [])
  := by
  have armed : (handler parseDuration).prepareSuspend (execInput params node upstream scope)
      = (handler parseDuration).prepareSuspend { params := params, nodeName := node } := by
    unfold handler
    dsimp only [execInput]
    cases parseApprovalParams parseDuration params with
    | error err => rfl
    | ok p => exact arm_same (recordOf_same rfl) rfl p
  have strips {spec : SuspendSpec} (h : (handler parseDuration).prepareSuspend
      { params := params, nodeName := node } = .ok spec) :
      spec.stripFromOutput = ownedOutputKeys := by
    unfold handler arm at h
    dsimp only at h
    split at h
    · cases h
    · split at h <;> cases h <;> rfl
  have stripped (d : Data) : own (without ownedOutputKeys d) = own [] := by
    apply map_congr_left
    intro key owned
    simp [owned]
  unfold suspendFirst
  rw [armed]
  cases h : (handler parseDuration).prepareSuspend { params := params, nodeName := node } with
  | error err => rfl
  | ok spec => simp [sight, splitNodeState_first, strips h, stripped]

/-- Gates that look the same look the same after the same signal. -/
theorem sight_resumeSuspended {input input' : Input} {stored stored' : Data}
    (params : input.params = input'.params) (node : input.nodeName = input'.nodeName)
    (states : input.state.map untimedState = input'.state.map untimedState)
    (read : (splitNodeState stored).1 = input.state)
    (read' : (splitNodeState stored').1 = input'.state) (owns : own stored = own stored')
    (payload : SignalPayload) (now now' : String) :
  sight (resumeSuspended (handler parseDuration) now input payload stored)
    = sight (resumeSuspended (handler parseDuration) now' input' payload stored')
  := by
  unfold resumeSuspended handler
  dsimp only [rearmInput]
  rw [params]
  cases parseApprovalParams parseDuration input'.params with
  | error err => rfl
  | ok p =>
    have seen := view_respond (recordOf_same states) now now' payload p node
    have stateful waits := @restored_state p now input payload waits stored
    have stateful' waits := @restored_state p now' input' payload waits stored'
    have split := @splitNodeState_respond p now input payload
    have split' := @splitNodeState_respond p now' input' payload
    dsimp only
    generalize respond p now input payload = out at seen stateful split ⊢
    generalize respond p now' input' payload = out' at seen stateful' split' ⊢
    simp only [view, View.mk.injEq] at seen
    obtain ⟨resuspends, ports, outStates, outOwns⟩ := seen
    have published (d : Option Data) : own (d.getD []) = (d.map own).getD (own []) := by
      cases d <;> rfl
    have kept : (out.data.isSome ∨ out.state.isSome) ↔ (out'.data.isSome ∨ out'.state.isSome) := by
      have data := congrArg isSome outOwns
      have state := congrArg isSome outStates
      simp only [isSome_map] at data state
      rw [data, state]
    rw [resuspends]
    split
    · rename_i waits
      -- The next wait is armed from the state of the answer, or from the one that was read.
      have rearmed : arm p { input with
            params := input'.params
            data := out.data.getD input.data
            state := out.state.or input.state }
          = arm p { input' with
            data := out'.data.getD input'.data
            state := out'.state.or input'.state } := by
        apply arm_same
        · apply recordOf_same
          simp [map_or, outStates, states]
        · exact node
      rw [rearmed]
      split
      · rfl
      · simp only [sight, Sight.waiting.injEq, true_and]
        constructor
        · rw [stateful (resuspends.trans waits), stateful' waits, read, read', map_or,
            map_or, outStates, states]
        · unfold restored
          rw [if_congr kept rfl rfl]
          split
          · simp only [own_withNodeState, published, outOwns]
          · exact owns
    · simp only [sight, split, split', own_withNodeState, published, ports, outStates, outOwns]

theorem sight_settlings {t t' : Settling} (same : sight t = sight t') {wakes wakes' : List Wake}
    (signals : wakes.map (fun w => (w.params, w.payload))
      = wakes'.map (fun w => (w.params, w.payload))) :
  (settlings (handler parseDuration) node t wakes).map sight
    = (settlings (handler parseDuration) node t' wakes').map sight
  := by
  induction wakes generalizing t t' wakes' with
  | nil =>
    obtain rfl : wakes' = [] := by simpa using signals.symm
    cases t <;> cases t' <;> simp [same]
  | cons w wakes ih =>
    cases wakes' with
    | nil => simp at signals
    | cons w' wakes' =>
      simp only [map_cons, cons.injEq, Prod.mk.injEq] at signals
      obtain ⟨⟨params, payload⟩, rest⟩ := signals
      cases t <;> cases t'
      case suspended.suspended s s' =>
        simp only [settlings, map_cons]
        congr 1
        apply ih _ rest
        simp only [sight, Sight.waiting.injEq] at same
        rw [payload]
        apply sight_resumeSuspended
        case params => exact params
        case states => exact same.2.1
        case owns => exact same.2.2
        all_goals rfl
      case failed.failed | committed.committed => simp [same]
      all_goals cases same

end

/-- Two lives of an approval node with the same parameters and the same signals and timeouts look
the same at every step, whatever their upstream outputs, submission parameters, scopes and clocks:
they wait for the same signals, read back the same private state, leave on the same port and publish
the same values under the gate's own keys, up to time stamps. -/
theorem approval_isolated (parseDuration : String → Except String Int) (node : String)
    (params : Data) (upstream upstream' : Upstream) (scope scope' : Data) (wakes wakes' : List Wake)
    (signals : wakes.map (fun w => (w.params, w.payload))
      = wakes'.map (fun w => (w.params, w.payload))) :
  (nodeLife (handler parseDuration) node params upstream scope wakes).map sight
    = (nodeLife (handler parseDuration) node params upstream' scope' wakes').map sight
  := by
  apply sight_settlings _ signals
  rw [sight_suspendFirst, sight_suspendFirst]

open Sample

/-- An upstream node that publishes a ledger, a verdict and a private state of its own does not open
a gate of two approvers: after the approval of the one it waits like a gate that nothing arrived
at. -/
theorem forgedLedger_isolated :
  (nodeLife (handler noDuration) "gate" two
      (.edge [("decisions", .arr [.obj [("approver", .str "bob"), ("action", .str "approve")]]),
        ("approved", .bool true),
        ("$state", .obj [("decisions", .arr [.obj [("approver", .str "bob"),
          ("action", .str "approve")]])])])
      [("$state", .obj []), ("ignored", .num 7)]
      [{ params := two, scope := [("decisions", .null)], now := "later"
         payload := (approve "ann").signal }]).map sight
    = (nodeLife (handler noDuration) "gate" two (.params []) []
        [{ params := two, scope := [], now := "", payload := (approve "ann").signal }]).map sight
  := by
  apply approval_isolated
  rfl

end Xflow.Approval
