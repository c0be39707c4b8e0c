import Xflow.Store.Commit

/-!
# Group units

A group unit has one record in place of the rows of its members.  Acquiring its lease moves the
record to running, and `commitGroupLocked` moves it to done together with the outputs of its exits,
the completion counters and the arrivals at its successors.
-/

namespace Xflow

open Function NodeSnapshot

/-- A boundary output in a request to commit a group. -/
structure GroupExitResult where
  nodeIdx : Int
  nodeName : String
  port : String
  data : Data := []
  privateOutput : Bool := false
  deriving Inhabited

/-- A request to commit a group unit. -/
structure GroupCommitRequest where
  groupUnitIdx : Int
  leaseToken : String
  attempt : Int
  outcome : GroupOutcome
  exits : List GroupExitResult := []
  error : String := ""
  fatal : Bool := false
  downstream : List DownstreamArrival := []

namespace MemoryState

/-- `AcquireGroupLease`: take a group unit that is neither running nor done.  Reports the attempt of
the lease, `none` if it was refused. -/
def acquireGroupLease (s : MemoryState) (unitIdx : Int) (leaseID leaseToken : String)
    (attempt : Int) : MemoryState × Option Int :=
  let st := (s.groupUnits unitIdx).getD { status := .pending }
  if st.status = .running ∨ st.status = .done then
    ({ s with groupUnits := update s.groupUnits unitIdx (some st) }, none)
  else
    let attempt := if attempt ≤ st.attempt then st.attempt + 1 else attempt
    let st := { st with
      status := .running, leaseID := leaseID, leaseToken := leaseToken, attempt := attempt }
    ({ s with groupUnits := update s.groupUnits unitIdx (some st) }, some attempt)

/-- How the fence of `commitGroupLocked` answers. -/
def groupVerdict (s : MemoryState) (req : GroupCommitRequest) : CommitOutcome :=
  match s.groupUnits req.groupUnitIdx with
  | none => .staleToken
  | some st =>
    if st.leaseToken ≠ req.leaseToken ∨ st.attempt ≠ req.attempt ∨ st.status ≠ .running then
      if st.status = .done then .duplicateTerminal else .staleToken
    else
      match s.execution with
      | none => .executionInactive
      | some snap => if snap.status.isTerminal then .executionInactive else .accepted

/-- Store the output of an exit. -/
def writeExit (s : MemoryState) (ex : GroupExitResult) : MemoryState :=
  let s := (s.preserveOutputPrivacy ex.nodeName ex.privateOutput).1
  { s with outputs := update s.outputs ex.nodeName (some ex.data) }

/-- Store the outputs of the exits. -/
def writeExits (exits : List GroupExitResult) (s : MemoryState) : MemoryState :=
  exits.foldl writeExit s

/-- Move the record of a group unit to done. -/
@[simps -fullyApplied]
def finishGroup (s : MemoryState) (req : GroupCommitRequest) : MemoryState :=
  { s with
    groupUnits := update s.groupUnits req.groupUnitIdx
      ((s.groupUnits req.groupUnitIdx).map (fun st => { st with
        status := .done, committedToken := req.leaseToken, leaseID := "", leaseToken := "" })) }

/-- `commitGroupLocked`.  The arrivals are applied also when the commit completed the execution or
the execution is being canceled. -/
def commitGroupLocked (s : MemoryState) (req : GroupCommitRequest) :
    MemoryState × CommitNodeResult :=
  match s.groupVerdict req with
  | .accepted =>
    let s := (writeExits req.exits s).finishGroup req
    let (s, done) := s.settleUnit (req.outcome = .failed) req.fatal req.error
    let (s, outboxIDs, skipped) := applyArrivals 0 0 req.downstream s
    (s, {
      outcome := .accepted
      applied := true
      executionDone := done.isSome
      executionStatus := done
      outboxIDs := outboxIDs
      skipped := skipped })
  | outcome => (s, { outcome := outcome })

/-! ### What writing exits leaves alone -/

variable {s : MemoryState} {exits : List GroupExitResult} {ex : GroupExitResult}

theorem writeExit_frame :
  s.writeExit ex =
    { s with
      nodes := (s.writeExit ex).nodes
      outputs := (s.writeExit ex).outputs
      privateOutputs := (s.writeExit ex).privateOutputs }
  := by
  unfold writeExit
  rw [preserveOutputPrivacy_frame]

theorem writeExits_cons :
  writeExits (ex :: exits) s = writeExits exits (s.writeExit ex)
  := by
  rfl

theorem writeExits_frame :
  writeExits exits s =
    { s with
      nodes := (writeExits exits s).nodes
      outputs := (writeExits exits s).outputs
      privateOutputs := (writeExits exits s).privateOutputs }
  := by
  induction exits generalizing s with
  | nil => rfl
  | cons ex exits ih =>
    have hrest := ih (s := s.writeExit ex)
    rw [writeExits_cons]
    rw [hrest, writeExit_frame]

@[simp]
theorem writeExits_fields :
  (writeExits exits s).id = s.id ∧ (writeExits exits s).execution = s.execution ∧
    (writeExits exits s).inDegrees = s.inDegrees ∧ (writeExits exits s).activeIns = s.activeIns ∧
    (writeExits exits s).remaining = s.remaining ∧ (writeExits exits s).failed = s.failed ∧
    (writeExits exits s).scheduled = s.scheduled ∧ (writeExits exits s).outbox = s.outbox ∧
    (writeExits exits s).groupUnits = s.groupUnits
  := by
  rw [writeExits_frame]
  simp

end MemoryState

end Xflow
