import Xflow.Types

/-!
# Which runner may host what

The decisions on a runner that need nothing but its snapshot: whether it is live, whether its labels
satisfy a selector, whether its capabilities cover what an entry unit requires, and whether it
serves a namespace.  Times and durations are in milliseconds.
-/

namespace Xflow.Control

/-! ### Runners -/

/-- `Capability`, of a runner. -/
structure Capability where
  nodeType : String
  nodeVersion : Int := 0
  features : List String := []
  deriving DecidableEq

/-- `CapabilityRequirement`, of an entry unit. -/
structure CapabilityRequirement where
  nodeType : String
  nodeVersion : Int := 0
  feature : String := ""
  deriving DecidableEq

inductive RunnerDesiredState where
  | active
  | draining
  deriving DecidableEq

structure RunnerControlState where
  desiredState : RunnerDesiredState := .active
  generation : Nat := 0
  deriving DecidableEq

/-- `RunnerSnapshot`.  A time that was never set is none. -/
structure RunnerSnapshot where
  runnerID : String
  sessionID : String := ""
  capacity : Int := 0
  inFlight : Int := 0
  labels : List (String × String) := []
  capabilities : List Capability := []
  namespaces : List String := []
  lastHeartbeat : Option Int := none
  control : Option RunnerControlState := none
  deriving DecidableEq

/-- The runner is being drained. -/
def RunnerSnapshot.draining (snap : RunnerSnapshot) : Bool :=
  snap.control.any (fun control => control.desiredState = .draining)

/-- The runner has as much work as it takes. -/
def RunnerSnapshot.full (snap : RunnerSnapshot) : Bool :=
  0 < snap.capacity ∧ snap.capacity ≤ snap.inFlight

/-! ### Liveness -/

def defaultRunnerLiveTTL : Int := 30 * 1000

def defaultSelectorFallback : Int := 30 * 1000

/-- The `RunnerSelector` of the control plane. -/
structure SelectorPolicy where
  liveTTL : Int := defaultRunnerLiveTTL
  fallbackGrace : Int := defaultSelectorFallback
  deriving DecidableEq

namespace SelectorPolicy

variable (policy : SelectorPolicy)

def isLive (snap : RunnerSnapshot) (now : Int) : Bool :=
  let ttl := if policy.liveTTL ≤ 0 then defaultRunnerLiveTTL else policy.liveTTL
  snap.lastHeartbeat.any (fun beat => now - beat ≤ ttl)

def selectorEffectiveGrace : Int :=
  if policy.fallbackGrace ≤ 0 then defaultSelectorFallback else policy.fallbackGrace

end SelectorPolicy

/-! ### Labels -/

inductive RunnerSelectorMode where
  | unset
  | default
  | required
  deriving DecidableEq

/-- The `RunnerSelector` of a workflow. -/
structure RunnerSelector where
  mode : RunnerSelectorMode := .unset
  matchLabels : List (String × String) := []
  deriving DecidableEq

/-- `MatchLabels`.  A label that a runner does not have is empty. -/
def matchLabels (runnerLabels required : List (String × String)) : Bool :=
  required.all (fun label => (runnerLabels.lookup label.1).getD "" = label.2)

/-- `selectorMatches`: without a selector every runner matches. -/
def selectorMatches (sel : Option RunnerSelector) (runnerLabels : List (String × String)) : Bool :=
  sel.all (fun sel => matchLabels runnerLabels sel.matchLabels)

def selectorIsDefault (sel : Option RunnerSelector) : Bool :=
  sel.any (fun sel => sel.mode = .default ∨ sel.mode = .unset)

/-! ### Capabilities -/

/-- `canRunRouting`, for the node type and version of a routing. -/
def canRunRouting (capabilities : List Capability) (nodeType : String) (nodeVersion : Int) : Bool :=
  capabilities.any (fun capability => capability.nodeType = nodeType ∧
    (nodeVersion = 0 ∨ capability.nodeVersion = 0 ∨ capability.nodeVersion = nodeVersion))

def hasCapabilityForRequirement (capabilities : List Capability) (req : CapabilityRequirement) :
    Bool :=
  capabilities.any (fun capability => capability.nodeType = req.nodeType ∧
    (req.nodeVersion = 0 ∨ capability.nodeVersion = 0 ∨ capability.nodeVersion = req.nodeVersion) ∧
    (req.feature = "" ∨ req.feature ∈ capability.features))

def runnerHasFeature (capabilities : List Capability) (nodeType feature : String) : Bool :=
  capabilities.any (fun capability =>
    capability.nodeType = nodeType ∧ feature ∈ capability.features)

/-- `MatchCapabilities`, where the first requirement is the node type of the routing. -/
def matchCapabilities (capabilities : List Capability) (requirements : List CapabilityRequirement) :
    Bool :=
  match requirements with
  | [] => true
  | first :: _ =>
    canRunRouting capabilities first.nodeType first.nodeVersion &&
      requirements.all (hasCapabilityForRequirement capabilities)

/-! ### Namespaces -/

/-- `namespace.Default`. -/
def defaultNamespace : String := "default"

def canServeNamespace (namespaces : List String) (ns : String) : Bool :=
  if namespaces = [] then ns = defaultNamespace ∨ ns = ""
  else (if ns = "" then defaultNamespace else ns) ∈ namespaces

end Xflow.Control
