import Xflow.Lib.Fields
import Xflow.Node.Handler

/-!
# Suspended nodes in the engine

How the engine assembles the input of a node that suspends, what it stores while the node waits, and
how a resumption reads it back.  The private state of a node is stored in a slot of the node's own
output; every other channel into the node is stripped of that slot.

Of the input only the data and the private state are assembled here.  A result on the error port, on
which the engine retries the node, is not modelled.
-/

namespace Xflow

/-! ### The slot of the private state -/

def nodeStateKey : String := "$state"

def executionScopeNodesKey : String := "$nodes"

def defaultInputPort : String := "main"

/-- `withNodeState` folds a private state into the map stored as the node's output. -/
def withNodeState (data : Data) (state : Option Data) : Data :=
  match state with
  | none => data
  | some state => Fields.overlay data [(nodeStateKey, .obj state)]

def stripNodeState (m : Data) : Data :=
  Fields.without [nodeStateKey] m

/-- `splitNodeState` separates a stored output into the private state and the rest. -/
def splitNodeState (raw : Data) : Option Data × Data :=
  ((raw.lookup nodeStateKey).bind Value.asObject, stripNodeState raw)

/-! ### The input -/

/-- `applyExecutionScope` on the data: every root of the scope but the snapshot of the outer nodes.
-/
def applyExecutionScope (data scope : Data) : Data :=
  Fields.overlay data (Fields.without [executionScopeNodesKey] scope)

/-- Where the data of a node's first task comes from. -/
inductive Upstream where
  /-- The submission parameters, at a root and at the start of a cyclic workflow. -/
  | params (d : Data)
  /-- The output of the only upstream node. -/
  | edge (d : Data)
  /-- The ports and outputs of the incoming edges; an upstream node that did not run has none. -/
  | ports (edges : List (String × Option Data))

/-- The payloads of a fan-in by port: an edge without a payload does not replace one. -/
def fanIn (edges : List (String × Option Data)) : List (String × Option Data) :=
  edges.foldl (fun inputs e =>
    let port := if e.1 = "" then defaultInputPort else e.1
    if (inputs.lookup port).isSome ∧ e.2 = none then inputs
    else Fields.overlay inputs [(port, e.2.map stripNodeState)]) []

def Upstream.data : Upstream → Data
  | .params d => stripNodeState d
  | .edge d => stripNodeState d
  | .ports edges => (((fanIn edges).lookup defaultInputPort).bind id).getD []

/-- `buildInput` for the first task of a node. -/
def execInput (params : Data) (node : String) (upstream : Upstream) (scope : Data) : Input :=
  { params := params
    nodeName := node
    data := stripNodeState (applyExecutionScope upstream.data scope) }

/-- `buildInput` for a resumption, from the node's own stored output. -/
def resumeInput (params : Data) (node : String) (stored scope : Data) : Input :=
  { params := params
    nodeName := node
    state := (splitNodeState stored).1
    data := stripNodeState (applyExecutionScope (splitNodeState stored).2 scope) }

/-! ### Suspending and resuming -/

/-- A node that waits: the output stored for it and what it waits for. -/
structure Suspended where
  stored : Data
  spec : SuspendSpec
  deriving DecidableEq

/-- What becomes of a node whose handler was called. -/
inductive Settling where
  | failed (err : String)
  | suspended (s : Suspended)
  | committed (port : String) (stored : Data)
  deriving DecidableEq

/-- The first suspension stores the input as the output, without the keys the node publishes
itself. -/
def suspendFirst (h : SuspendingHandler) (input : Input) : Settling :=
  match h.prepareSuspend input with
  | .error err => .failed err
  | .ok spec => .suspended
    { stored := Fields.without spec.stripFromOutput input.data
      spec := spec }

/-- The input from which the next wait is armed. -/
def rearmInput (input : Input) (out : Output) : Input :=
  { input with
    data := out.data.getD input.data
    state := out.state.or input.state }

/-- The output stored at a further suspension, where the handler returned anything to store. -/
def restored (stored : Data) (out : Output) : Data :=
  if out.data.isSome ∨ out.state.isSome then withNodeState (out.data.getD []) out.state else stored

/-- A resumption: the handler's answer, the next wait if it suspends again, and the commit. -/
def resumeSuspended (h : SuspendingHandler) (now : String) (input : Input) (payload : SignalPayload)
    (stored : Data) : Settling :=
  match h.onResume now input payload with
  | .error err => .failed err
  | .ok out =>
    if out.resuspend then
      match h.prepareSuspend (rearmInput input out) with
      | .error err => .failed err
      | .ok spec => .suspended { stored := restored stored out, spec := spec }
    else
      .committed (if out.port = "" then "main" else out.port)
        (withNodeState (out.data.getD []) out.state)

/-- One resumption of a node as its execution gives it. -/
structure Wake where
  params : Data
  scope : Data
  now : String
  payload : SignalPayload
  deriving DecidableEq

/-- The settlings of a node one after the other, for as long as it suspends again. -/
def settlings (h : SuspendingHandler) (node : String) : Settling → List Wake → List Settling
  | .suspended s, w :: wakes =>
    .suspended s :: settlings h node (resumeSuspended h w.now
      (resumeInput w.params node s.stored w.scope) w.payload s.stored) wakes
  | settled, _ => [settled]

/-- The settlings of a node from its first task on. -/
def nodeLife (h : SuspendingHandler) (node : String) (params : Data) (upstream : Upstream)
    (scope : Data) (wakes : List Wake) : List Settling :=
  settlings h node (suspendFirst h (execInput params node upstream scope)) wakes

/-! ### The slot is the node's own -/

theorem splitNodeState_first {keys : List String} {params : Data} {node : String}
    {upstream : Upstream} {scope : Data} :
  (splitNodeState (Fields.without keys (execInput params node upstream scope).data)).1 = none
  := by
  simp [splitNodeState, execInput, stripNodeState]

end Xflow
