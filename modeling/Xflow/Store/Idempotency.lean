import Mathlib.Logic.Function.Basic
import Xflow.Types

/-!
# Claims on the execution of a keyed submission

A submission with an idempotency key creates the execution whose identifier its key derives.  Before
it creates anything it claims that identifier in the store; the claim is confirmed once the
execution is created, and released if the creation was refused.  A claim that is neither can be
taken over once its lease ran out, and every claim expires.  This module has the calls of the
in-memory store and what the engine makes of their answers.
-/

namespace Xflow

/-! ### The store -/

/-- `idempotencyClaim`.  A token stands for the request that drew it. -/
structure IdempotencyClaim where
  fingerprint : String
  token : Nat
  confirmed : Bool := false
  leaseUntil : Int
  /-- None if the claim does not expire. -/
  expiresAt : Option Int := none
  deriving DecidableEq

structure IdempotencyClaimRequest where
  executionID : String
  fingerprint : String
  ttl : Int
  lease : Int
  token : Nat
  deriving DecidableEq

inductive IdempotencyClaimState where
  | accepted
  | takeover
  | duplicate
  | conflict
  | inProgress
  deriving DecidableEq

/-- The request goes on to create the execution. -/
def IdempotencyClaimState.creates : IdempotencyClaimState → Bool
  | .accepted | .takeover => true
  | _ => false

/-- The claims and the executions of the store, and the time. -/
structure ClaimStore where
  idempotency : String → Option IdempotencyClaim := fun _ => none
  executions : String → Option ExecutionStatus := fun _ => none
  now : Int := 0

namespace ClaimStore

variable (s : ClaimStore)

/-- The claim expired. -/
def expired (claim : IdempotencyClaim) : Bool := claim.expiresAt.any (· ≤ s.now)

/-- The claim that answers for an execution. -/
def existing (id : String) : Option IdempotencyClaim :=
  (s.idempotency id).filter (fun claim => ! s.expired claim)

/-- The claim that `putIdempotencyClaimLocked` stores. -/
def claimOf (req : IdempotencyClaimRequest) : IdempotencyClaim where
  fingerprint := req.fingerprint
  token := req.token
  leaseUntil := s.now + req.lease
  expiresAt := if 0 < req.ttl then some (s.now + req.ttl) else none

/-- The claim of an execution is replaced or removed. -/
def setClaim (id : String) (claim : Option IdempotencyClaim) : ClaimStore :=
  { s with idempotency := Function.update s.idempotency id claim }

@[simp] theorem setClaim_self (id : String) (claim : Option IdempotencyClaim) :
  (s.setClaim id claim).idempotency id = claim
  :=
  Function.update_self ..

/-- `ClaimIdempotency`: the store, the state of the claim and, of a duplicate, the status of the
execution. -/
def claimIdempotency (req : IdempotencyClaimRequest) :
    ClaimStore × IdempotencyClaimState × Option ExecutionStatus :=
  let id := req.executionID
  let status := s.executions id
  match s.existing id with
  | none =>
    -- an expired claim is removed
    if status.isSome then (s.setClaim id none, .duplicate, status)
    else (s.setClaim id (some (s.claimOf req)), .accepted, none)
  | some claim =>
    if claim.fingerprint ≠ req.fingerprint then (s, .conflict, none)
    else if claim.confirmed ∨ status.isSome then (s, .duplicate, status)
    else if s.now < claim.leaseUntil then (s, .inProgress, none)
    else (s.setClaim id (some (s.claimOf req)), .takeover, none)

def confirmIdempotency (id : String) (token : Nat) : ClaimStore :=
  match s.idempotency id with
  | some claim =>
    if claim.token = token then s.setClaim id (some { claim with confirmed := true }) else s
  | none => s

def releaseIdempotency (id : String) (token : Nat) : ClaimStore :=
  match s.idempotency id with
  | some claim => if claim.token = token ∧ ¬ claim.confirmed then s.setClaim id none else s
  | none => s

end ClaimStore

/-! ### The engine -/

/-- A submission with an idempotency key.  `override` is the retention its context asks for, and
`transientTTL` that of a transient graph. -/
structure SubmissionRequest where
  ns : String := ""
  scope : String := ""
  key : String := ""
  fingerprint : String := ""
  override : Option Int := none
  transientTTL : Option Int := none
  deriving DecidableEq

/-- What the engine is configured with; `derive` is `IdempotentExecutionID`. -/
structure IdempotencyConfig where
  derive : String → String → String → String
  idempotencyTTL : Int := 0
  idempotencyLease : Int := 0

/-- `DefaultIdempotencyTTL`, in milliseconds. -/
def defaultIdempotencyTTL : Int := 24 * 60 * 60 * 1000

/-- `DefaultIdempotencyClaimLease`, in milliseconds. -/
def defaultIdempotencyClaimLease : Int := 30 * 1000

def maxIdempotencyKeyLen : Nat := 255

def validateIdempotencyKey (key : String) : Bool :=
  key ≠ "" ∧ key.utf8ByteSize ≤ maxIdempotencyKeyLen ∧
    key.toList.all (fun c => c.isAlphanum || c = '.' || c = '_' || c = ':' || c = '-')

/-- Why the claim of a submission failed. -/
inductive ClaimError where
  | keyInvalid
  | scopeMissing (id : String)
  | conflict
  | inProgress
  deriving DecidableEq

/-- The text of the error. -/
def ClaimError.text : ClaimError → String
  | .keyInvalid => "idempotency key must be 1-255 characters of [A-Za-z0-9._:-]"
  | .scopeMissing id =>
    "claim idempotency key for \"" ++ id ++ "\": idempotency key requires a scope"
  | .conflict => "idempotency key was already used for a different request"
  | .inProgress => "a request with this idempotency key is still in progress"

structure IdempotentStart where
  id : String
  token : Option Nat := none
  duplicate : Bool := false
  deriving DecidableEq

namespace IdempotencyConfig

variable (cfg : IdempotencyConfig)

/-- The smaller of a duration and one that is given and positive. -/
def shortened (ttl : Int) (limit : Option Int) : Int :=
  match limit with
  | none => ttl
  | some limit => if 0 < limit ∧ limit < ttl then limit else ttl

def idempotencyWindow (req : SubmissionRequest) : Int :=
  let ttl := if cfg.idempotencyTTL ≤ 0 then defaultIdempotencyTTL else cfg.idempotencyTTL
  shortened (shortened ttl req.override) req.transientTTL

def idempotencyClaimLease : Int :=
  if 0 < cfg.idempotencyLease then cfg.idempotencyLease else defaultIdempotencyClaimLease

/-- The identifier of the execution of a submission. -/
def executionID (req : SubmissionRequest) : String := cfg.derive req.ns req.scope req.key

/-- What the engine asks the store for. -/
def claimRequest (req : SubmissionRequest) (token : Nat) : IdempotencyClaimRequest where
  executionID := cfg.executionID req
  fingerprint := req.fingerprint
  ttl := cfg.idempotencyWindow req
  lease := cfg.idempotencyClaimLease
  token := token

def claimIdempotency (store : ClaimStore) (req : SubmissionRequest) (token : Nat) :
    ClaimStore × Except ClaimError IdempotentStart :=
  if ¬ validateIdempotencyKey req.key then (store, .error .keyInvalid)
  else if req.scope = "" then (store, .error (.scopeMissing (cfg.executionID req)))
  else
    let answer := store.claimIdempotency (cfg.claimRequest req token)
    let id := cfg.executionID req
    (answer.1, match answer.2.1 with
      | .accepted | .takeover => .ok { id := id, token := some token }
      | .duplicate => .ok { id := id, duplicate := true }
      | .conflict => .error .conflict
      | .inProgress => .error .inProgress)

end IdempotencyConfig

/-- The end of the creation under a claim: it succeeded, was refused before anything was written
(`persistedNothing`), or failed in another way. -/
inductive CreateResult where
  | ok
  | refused
  | failed
  deriving DecidableEq

def settleIdempotency (store : ClaimStore) (id : String) (token : Nat) : CreateResult → ClaimStore
  | .ok => store.confirmIdempotency id token
  | .refused => store.releaseIdempotency id token
  | .failed => store

theorem settleIdempotency_of_other {store : ClaimStore} {id : String} {token : Nat}
    {result : CreateResult}
    (other : ∀ claim, store.idempotency id = some claim → claim.token ≠ token) :
  settleIdempotency store id token result = store
  := by
  cases held : store.idempotency id <;> cases result <;>
    simp_all [settleIdempotency, ClaimStore.confirmIdempotency, ClaimStore.releaseIdempotency]

end Xflow
