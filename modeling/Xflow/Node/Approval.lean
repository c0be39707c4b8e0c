import Xflow.Lib.Fields
import Xflow.Lib.Roster
import Xflow.Node.Handler

/-!
# The approval gate

The handler of `xflow.approval`: a node that suspends until its approvers have decided, each by a
signal that carries their verified identity and an action.  The gate's memory is a ledger of
decisions and a bounded trail of the signals it refused, kept in the node's private state.  The
chain of people the gate waits for is not stored: it is derived from the ledger, since a delegation
and an added signer are entries of the ledger too.
-/

namespace Xflow

/-! ### Words of the wire and of the record -/

/-- The key of a signal's data under which the control plane records who sent it. -/
def verifiedActorKey : String := "_actor"

namespace Approval

def actionApprove : String := "approve"
def actionReject : String := "reject"
def actionReturn : String := "return"
def actionDelegate : String := "delegate"
def actionAddSigner : String := "add_signer"
def actionForce : String := "force"

def positionBefore : String := "before"
def positionAfter : String := "after"

def decisionsKey : String := "decisions"
def ignoredKey : String := "ignored"
def ignoredCountKey : String := "ignored_count"

def ignoredTrailLimit : Nat := 20
def ignoredNameLimit : Nat := 128
def maxApproverChain : Nat := 32

/-- The keys the gate publishes as its own verdict or record. -/
def ownedOutputKeys : List String :=
  ["approved", "approver", "comment", "returned", "forced", "bypassed", decisionsKey, ignoredKey,
    ignoredCountKey]

/-- `ownedKeys` hands the list to the engine. -/
def ownedKeys : List String := ownedOutputKeys

def withoutOwnedKeys (data : Data) : Data :=
  Fields.without ownedOutputKeys data

/-- `approvalOutput` lays each of the overlays over the base. -/
def approvalOutput (base : Data) (overlays : List Data) : Data :=
  overlays.foldl Fields.overlay base

/-! ### Parameters -/

/-- The approval strategy; a string that is none of the three names is kept. -/
inductive Mode where
  | any
  | all
  | sequential
  | other (name : String)
  deriving DecidableEq

def Mode.ofString (s : String) : Mode :=
  if s = "any" then .any
  else if s = "all" then .all
  else if s = "sequential" then .sequential
  else .other s

/-- The configuration of an approval node. -/
structure Params where
  approvers : List String
  mode : Mode := .any
  /-- The longest wait; zero is none. -/
  timeout : Int := 0
  timeoutAction : String := "route"
  /-- Who may close the gate without the outstanding approvers. -/
  forceApprovers : List String := []
  deriving DecidableEq

/-- `parseStringList`: an absent parameter is an empty list, and `none` is the error. -/
def parseStringList : Value → Option (List String)
  | .null => some []
  | .arr items => items.mapM Value.asString
  | _ => none

/-- The timeout of the parameters.  The parser of durations belongs to the language's library and is
given. -/
def parseTimeout (parseDuration : String → Except String Int) : Value → Except String Int
  | .str s =>
    match parseDuration s with
    | .ok d => .ok d
    | .error err => .error ("invalid timeout duration: " ++ err)
  | .num n => .ok n
  | _ => .ok 0

def parseApprovalParams (parseDuration : String → Except String Int) (params : Data) :
    Except String Params :=
  match parseStringList (field params "approvers") with
  | none => .error "approvers must be a list of strings"
  | some [] => .error "approvers list must not be empty"
  | some (approver :: approvers) =>
    match parseStringList (field params "force_approvers") with
    | none => .error "force_approvers must be a list of strings"
    | some forceApprovers =>
      match parseTimeout parseDuration (field params "timeout") with
      | .error err => .error err
      | .ok timeout => .ok
        { approvers := approver :: approvers
          mode := ((field params "mode").asString.map Mode.ofString).getD .any
          timeout := timeout
          timeoutAction := (field params "timeout_action").asString.getD "route"
          forceApprovers := forceApprovers }

theorem approvers_ne_nil {parseDuration : String → Except String Int} {raw : Data} {p : Params}
    (h : parseApprovalParams parseDuration raw = .ok p) :
  p.approvers ≠ []
  := by
  revert h
  fun_cases parseApprovalParams parseDuration raw with
  | case5 =>
    rintro ⟨⟩
    simp
  | _ => exact nofun

/-! ### Signals -/

def approvalSignal (nodeName : String) : String := nodeName ++ "/approval"

def approverSignal (nodeName approver : String) : String := nodeName ++ "/approval/" ++ approver

def approverSignals (nodeName : String) (approvers : List String) : List String :=
  approvers.map (approverSignal nodeName)

def forceSignal (nodeName : String) : String := nodeName ++ "/approval/force"

/-- The force signal, armed only on a gate with force approvers. -/
def forceSignals (nodeName : String) (forceApprovers : List String) : List String :=
  if forceApprovers.isEmpty then [] else [forceSignal nodeName]

/-- The name of the signal that carries the decision of an approver. -/
def expectedApproverSignal (nodeName : String) (mode : Mode) (approver : String) : String :=
  if mode = .any then approvalSignal nodeName else approverSignal nodeName approver

/-- `resolveActor` reads the identity that the control plane verified. -/
def resolveActor (data : Data) : Option String :=
  (field data verifiedActorKey).asString.filter (· ≠ "")

/-- `signalAction` reads the action; one that is absent or no string is none. -/
def signalAction (data : Data) : Option String :=
  (field data "action").asString

/-- `signalAssignee` reads whom a delegation or an added signer names. -/
def signalAssignee (data : Data) : Option String :=
  (field data "assignee").asString.filter (· ≠ "")

/-- `signalPosition` reads where an added signer goes; an absent position is after. -/
def signalPosition (data : Data) : Option String :=
  match data.lookup "position" with
  | none => some positionAfter
  | some raw => raw.asString.filter (fun s => s = positionBefore ∨ s = positionAfter)

/-! ### The ledger and the chain -/

def closesSlot (action : Value) : Bool :=
  action ∈ [Value.str actionApprove, .str actionReject, .str actionReturn, .str actionDelegate]

/-- `hasApproverDecision` tells whether the approver's own slot has been resolved. -/
def hasApproverDecision (decisions : List Data) (approver : String) : Bool :=
  decisions.any fun e => field e "approver" = .str approver ∧ closesSlot (field e "action")

/-- `appendDecision` adds one entry to the ledger. -/
def appendDecision (decisions : List Data) (approver action : String) (comment : Value)
    (now : String) (extra : List Data) : List Data :=
  decisions ++ [approvalOutput
    [("approver", .str approver), ("action", .str action), ("comment", comment), ("at", .str now)]
    extra]

def containsApprover (chain : List String) (approver : String) : Bool :=
  chain.contains approver

/-- `replaceApprover` hands the first slot held by the one over to the other. -/
def replaceApprover (chain : List String) (holder assignee : String) : List String :=
  chain.replace holder assignee

/-- `insertApprover` puts the assignee next to the actor's slot. -/
def insertApprover (chain : List String) (actor assignee position : String) : List String :=
  Roster.insertBeside (position = positionBefore) actor assignee chain

/-- `withoutApprover` drops the first slot held by the approver. -/
def withoutApprover (chain : List String) (approver : String) : List String :=
  chain.erase approver

/-- The chain after one entry of the ledger. -/
def amend (chain : List String) (decision : Data) : List String :=
  match (field decision "approver").asString, (field decision "assignee").asString with
  | some actor, some assignee =>
    if field decision "action" = .str actionDelegate then replaceApprover chain actor assignee
    else if field decision "action" = .str actionAddSigner then
      insertApprover chain actor assignee ((field decision "position").asString.getD "")
    else chain
  | _, _ => chain

/-- `approvedChain`: the configured approvers as amended by the ledger. -/
def approvedChain (p : Params) (decisions : List Data) : List String :=
  decisions.foldl amend p.approvers

def allChainMembersDecided (chain : List String) (decisions : List Data) : Bool :=
  chain.all (hasApproverDecision decisions)

/-- `undecidedApprovers` lists the slots a force approval passes over, in chain order. -/
def undecidedApprovers (chain : List String) (decisions : List Data) : List String :=
  chain.filter fun approver => !hasApproverDecision decisions approver

/-- `currentSequentialApprover`: the first member of the chain who has not decided yet. -/
def currentSequentialApprover (chain : List String) (decisions : List Data) : String :=
  (chain.find? fun approver => !hasApproverDecision decisions approver).getD ""

/-! ### The record -/

/-- The node's own memory: what was decided, and which signals were refused. -/
structure Record where
  decisions : List Data := []
  ignored : List Data := []
  ignoredN : Int := 0
  deriving DecidableEq

def parseDecisionList : Value → List Data
  | .arr items => items.filterMap Value.asObject
  | _ => []

/-- `getDecisions` reads the ledger out of the private state; of a nil state it is empty. -/
def getDecisions (state : Option Data) : List Data :=
  (state.map fun s => parseDecisionList (field s decisionsKey)).getD []

def getIgnored (state : Option Data) : List Data :=
  (state.map fun s => parseDecisionList (field s ignoredKey)).getD []

def getIgnoredCount (state : Option Data) : Int :=
  match state.map (field · ignoredCountKey) with
  | some (.num n) => n
  | _ => 0

def recordOf (input : Input) : Record :=
  { decisions := getDecisions input.state
    ignored := getIgnored input.state
    ignoredN := getIgnoredCount input.state }

/-- The private half of the record, which the engine persists. -/
def Record.state (r : Record) : Data :=
  [(decisionsKey, .arr (r.decisions.map .obj)), (ignoredKey, .arr (r.ignored.map .obj)),
    (ignoredCountKey, .num r.ignoredN)]

/-- The first bytes of a text.  The bytes of a character that is cut are read as replacement
characters, one for each. -/
def takeBytes : Nat → List Char → List Char
  | _, [] => []
  | limit, c :: cs =>
    if c.utf8Size ≤ limit then c :: takeBytes (limit - c.utf8Size) cs
    else List.replicate limit (Char.ofNat 0xFFFD)

def truncateForLedger (s : String) (limit : Nat) : String :=
  if s.utf8ByteSize ≤ limit then s else String.ofList (takeBytes limit s.toList)

/-- `appendIgnored` keeps the last refusals up to the limit of the trail. -/
def appendIgnored (trail : List Data) (signalName reason : String) : List Data :=
  let trail := trail ++
    [[("signal", .str (truncateForLedger signalName ignoredNameLimit)), ("reason", .str reason)]]
  trail.drop (trail.length - ignoredTrailLimit)

/-- What downstream sees: the data that arrived, with the gate's own keys rebuilt. -/
def publicApprovalData (input : Input) (record : Record) (extra : Data) : Data :=
  approvalOutput (withoutOwnedKeys input.data) [record.state, extra]

def resuspendWithRecord (input : Input) (record : Record) : Output :=
  { resuspend := true
    state := some record.state
    data := some (publicApprovalData input record []) }

/-- `decide` closes the gate on one of its decision ports. -/
def decideGate (input : Input) (record : Record) (port : String) (extra : Data) : Output :=
  { state := some record.state
    data := some (publicApprovalData input record extra)
    port := port }

/-- `ignoreApprovalSignal` suspends the node again with the refusal on the trail. -/
def ignoreApprovalSignal (input : Input) (signal : SignalPayload) (reason : String) : Output :=
  let record := recordOf input
  resuspendWithRecord input
    { record with
      ignored := appendIgnored record.ignored signal.name reason
      ignoredN := record.ignoredN + 1 }

/-! ### Decisions -/

section

variable (now : String) (input : Input) (record : Record) (signal : SignalPayload) (actor : String)

/-- The record with one more decision on its ledger. -/
def Record.decided (action : String) (extra : List Data) : Record :=
  { record with
    decisions := appendDecision record.decisions actor action (field signal.data "comment") now
      extra }

def handleApprove (p : Params) (chain : List String) : Output :=
  let record := record.decided now signal actor actionApprove []
  if p.mode = .any then
    decideGate input record "approved"
      [("approved", .bool true), ("approver", .str actor), ("comment", field signal.data "comment")]
  else if !allChainMembersDecided chain record.decisions then
    resuspendWithRecord input record
  else
    decideGate input record "approved" [("approved", .bool true)]

def handleForce (chain : List String) : Output :=
  let bypassed := undecidedApprovers chain record.decisions
  decideGate input (record.decided now signal actor actionForce []) "approved"
    [("approved", .bool true), ("approver", .str actor), ("forced", .bool true),
      ("bypassed", .arr (bypassed.map .str))]

def handleDelegate (chain : List String) : Output :=
  match signalAssignee signal.data with
  | none => ignoreApprovalSignal input signal "malformed-assignee"
  | some assignee =>
    if containsApprover (withoutApprover chain actor) assignee then
      ignoreApprovalSignal input signal "malformed-assignee"
    else
      resuspendWithRecord input
        (record.decided now signal actor actionDelegate [[("assignee", .str assignee)]])

def handleAddSigner (chain : List String) : Output :=
  match signalAssignee signal.data with
  | none => ignoreApprovalSignal input signal "malformed-assignee"
  | some assignee =>
    if containsApprover chain assignee then
      ignoreApprovalSignal input signal "malformed-assignee"
    else
      match signalPosition signal.data with
      | none => ignoreApprovalSignal input signal "malformed-position"
      | some position =>
        if maxApproverChain ≤ chain.length then
          ignoreApprovalSignal input signal "chain-limit-reached"
        else
          resuspendWithRecord input (record.decided now signal actor actionAddSigner
            [[("assignee", .str assignee), ("position", .str position)]])

def handleReject : Output :=
  decideGate input (record.decided now signal actor actionReject []) "rejected"
    [("approved", .bool false), ("approver", .str actor), ("comment", field signal.data "comment")]

def handleReturn : Output :=
  decideGate input (record.decided now signal actor actionReturn []) "returned"
    [("approved", .bool false), ("returned", .bool true), ("approver", .str actor),
      ("comment", field signal.data "comment")]

/-- What a slot holder who has not decided yet gets done. -/
def decideSlot (p : Params) (chain : List String) (action : String) : Output :=
  if action = actionApprove then handleApprove now input record signal actor p chain
  else if action = actionReject then handleReject now input record signal actor
  else if action = actionReturn then handleReturn now input record signal actor
  else if action = actionDelegate then handleDelegate now input record signal actor chain
  else if action = actionAddSigner then handleAddSigner now input record signal actor chain
  else ignoreApprovalSignal input signal "unknown-action"

end

/-- The output of a gate whose wait has timed out. -/
def timedOut (p : Params) : Output :=
  if p.timeoutAction = "reject" then
    { data := some [("approved", .bool false), ("reason", .str "timeout")], port := "rejected" }
  else
    { data := some [("reason", .str "timeout")], port := "timeout" }

/-- `OnResume` of a gate with parsed parameters. -/
def respond (p : Params) (now : String) (input : Input) (signal : SignalPayload) : Output :=
  if signal.triggered = .timeoutFired then timedOut p
  else
    match resolveActor signal.data with
    | none => ignoreApprovalSignal input signal "unverified-actor"
    | some actor =>
      let record := recordOf input
      let chain := approvedChain p record.decisions
      match signalAction signal.data with
      | none => ignoreApprovalSignal input signal "malformed-action"
      | some action =>
        if action = actionForce then
          if !containsApprover p.forceApprovers actor then
            ignoreApprovalSignal input signal "unauthorized-force-approver"
          else if signal.name ≠ forceSignal input.nodeName then
            ignoreApprovalSignal input signal "signal-name-mismatch"
          else handleForce now input record signal actor chain
        else if !containsApprover chain actor then
          ignoreApprovalSignal input signal "unauthorized-approver"
        else if signal.name ≠ expectedApproverSignal input.nodeName p.mode actor then
          ignoreApprovalSignal input signal "signal-name-mismatch"
        else if p.mode = .sequential ∧
            actor ≠ currentSequentialApprover chain record.decisions then
          ignoreApprovalSignal input signal "not-current-approver"
        else if hasApproverDecision record.decisions actor then
          { resuspend := true }
        else decideSlot now input record signal actor p chain action

/-- `PrepareSuspend` of a gate with parsed parameters.  A timeout that is not positive arms
nothing. -/
def arm (p : Params) (input : Input) : Except String SuspendSpec :=
  let chain := approvedChain p (getDecisions input.state)
  let force := forceSignals input.nodeName p.forceApprovers
  match p.mode with
  | .any => .ok
    { mode := .signal
      signals := approvalSignal input.nodeName :: force
      timeout := p.timeout.toNat
      stripFromOutput := ownedKeys }
  | .all | .sequential => .ok
    { mode := .multiSignal
      signals := approverSignals input.nodeName chain ++ force
      quorum := 1
      timeout := p.timeout.toNat
      stripFromOutput := ownedKeys }
  | .other name => .error ("unknown approval mode: " ++ name)

/-- The handler of the approval node. -/
def handler (parseDuration : String → Except String Int) : SuspendingHandler where
  prepareSuspend input :=
    match parseApprovalParams parseDuration input.params with
    | .error err => .error err
    | .ok p => arm p input
  onResume now input signal :=
    match parseApprovalParams parseDuration input.params with
    | .error err => .error err
    | .ok p => .ok (respond p now input signal)

end Approval

end Xflow
