import Xflow.Types

/-!
# Handlers that suspend

What a node's handler is given and what it returns, and the two calls of a handler that suspends
its node.  Of the input only the channels the modelled handlers read are kept.
-/

namespace Xflow

/-! ### Reading untyped maps -/

/-- The value of a map under a key; a key it does not have reads as nil. -/
def field (d : Data) (key : String) : Value :=
  (d.lookup key).getD .null

namespace Value

/-- The assertion of a string. -/
def asString : Value → Option String
  | str s => some s
  | _ => none

/-- The assertion of a map. -/
def asObject : Value → Option Data
  | obj fields => some fields
  | _ => none

@[simp]
theorem asString_eq_some {v : Value} {s : String} :
  v.asString = some s ↔ v = .str s
  := by
  cases v <;> simp [asString]

end Value

/-! ### Calls of a handler -/

/-- What a handler is called with.  A nil map reads as an empty one, so only the private state,
whose absence matters, is optional. -/
structure Input where
  /-- The evaluated parameters of the node. -/
  params : Data
  /-- The data that arrived at the node. -/
  data : Data := []
  /-- The node's private state. -/
  state : Option Data := none
  nodeName : String
  deriving DecidableEq

/-- What a handler returns. -/
structure Output where
  data : Option Data := none
  state : Option Data := none
  port : String := ""
  /-- The node suspends again. -/
  resuspend : Bool := false
  deriving DecidableEq

/-- A handler that suspends its node.  The time of a resumption, as it is formatted in records, is
one of the arguments of `onResume`. -/
structure SuspendingHandler where
  prepareSuspend : Input → Except String SuspendSpec
  onResume : String → Input → SignalPayload → Except String Output

/-! ### Resumptions -/

/-- One resumption: its time, the data that arrives with it and what caused it. -/
structure Resumption where
  now : String
  data : Data := []
  signal : SignalPayload
  deriving DecidableEq

/-- A resumption with the private state it was given. -/
structure Occasion where
  state : Option Data
  resumption : Resumption

/-- A suspended node: its private state, and the resumptions it had so far. -/
structure Waiting where
  state : Option Data := none
  past : List Occasion := []

namespace SuspendingHandler

variable (h : SuspendingHandler) (params : Data) (node : String)

/-- What the handler of a suspended node is called with. -/
def inputOf (state : Option Data) (data : Data) : Input :=
  { params := params, data := data, state := state, nodeName := node }

/-- A resumption that suspends the node again.  Where the handler returns no state the engine keeps
the one it has stored. -/
def resume (r : Resumption) (w : Waiting) : Option Waiting :=
  match h.onResume r.now (inputOf params node w.state r.data) r.signal with
  | .error _ => none
  | .ok out =>
    if out.resuspend then some { state := out.state.or w.state, past := ⟨w.state, r⟩ :: w.past }
    else none

end SuspendingHandler

end Xflow
