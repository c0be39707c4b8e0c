import Xflow.Directory.Operations

/-!
# What an operation does to the records

Every operation leaves the records as they are or makes one of a few changes to them.  A change
carries what the operation has checked, and its effect says for which runner there is a claim and
which lease has expired or was settled.
-/

namespace Xflow.Directory

open Option

/-! ### Runners -/

namespace RunnerState

variable (state : RunnerState)

@[simp]
theorem removeLease_finalizedLease (id : AssignmentID) (lease : TaskLease) :
  (state.removeLease id lease).finalizedLease = state.finalizedLease.drop id
  := rfl

@[simp]
theorem removeLease_leasedAssignments (id : AssignmentID) (lease : TaskLease) :
  (state.removeLease id lease).leasedAssignments = state.leasedAssignments.drop id
  := rfl

section

variable (assignment : Assignment) (lease : Option TaskLease)

@[simp]
theorem addLease_finalizedLease :
  (state.addLease assignment lease).finalizedLease =
    state.finalizedLease.put assignment.assignmentID (lease.getD {})
  := by
  unfold addLease
  cases lease <;> dsimp only <;> split <;> rfl

@[simp]
theorem addLease_leasedAssignments :
  (state.addLease assignment lease).leasedAssignments =
    state.leasedAssignments.put assignment.assignmentID assignment
  := by
  unfold addLease
  cases lease <;> dsimp only <;> split <;> rfl

@[simp]
theorem addLease_activeOrder :
  (state.addLease assignment lease).activeOrder = state.activeOrder
  := by
  unfold addLease
  cases lease <;> dsimp only <;> split <;> rfl

@[simp]
theorem addLease_activeClaims :
  (state.addLease assignment lease).activeClaims = state.activeClaims
  := by
  unfold addLease
  cases lease <;> dsimp only <;> split <;> rfl

end

/-- Two states of a runner agree on its claims and on its leases. -/
structure SameWork (other : RunnerState) : Prop where
  activeClaims : other.activeClaims = state.activeClaims
  activeOrder : other.activeOrder = state.activeOrder
  finalizedLease : other.finalizedLease = state.finalizedLease
  leasedAssignments : other.leasedAssignments = state.leasedAssignments

/-- A state that a registration begins with: it has the leases of the session before, if there was
one, and no claims. -/
structure Begins (previous : Option RunnerState) : Prop where
  activeClaims : state.activeClaims = ∅
  activeOrder : state.activeOrder = []
  finalizedLease : state.finalizedLease = (previous.map (·.finalizedLease)).getD ∅
  leasedAssignments : state.leasedAssignments = (previous.map (·.leasedAssignments)).getD ∅

end RunnerState

/-! ### Changes -/

/-- What an operation is for, as far as the leases and claims of single runners go. -/
inductive Effect where
  | plain
  | claiming (runnerID : String)
  | expired (id : AssignmentID) (leaseID : LeaseID) (leaseToken : LeaseToken)
  | settled (id : AssignmentID) (leaseID : LeaseID) (leaseToken : LeaseToken)
  | cleared (id : AssignmentID)

/-- No lease has expired, no finalized handoff was settled and no assignment cleared. -/
def Effect.calm : Effect → Prop
  | .plain | .claiming _ => True
  | .expired _ _ _ | .settled _ _ _ | .cleared _ => False

/-- The changes that operations make to the records. -/
inductive Change (recs : Records) : Effect → Records → Prop where
  | keep {effect : Effect} (calm : effect.calm) : Change recs effect recs
  | refresh {runnerID : String} {state next : RunnerState}
      (found : recs.runners.get runnerID = some state) (same : state.SameWork next) :
    Change recs .plain { recs with runners := recs.runners.put runnerID next }
  | enroll {runnerID : String} {next : RunnerState} (absent : recs.runners.get runnerID = none)
      (begins : next.Begins none) :
    Change recs .plain { recs with runners := recs.runners.put runnerID next }
  | rebind {runnerID : String} {previous next : RunnerState}
      (found : recs.runners.get runnerID = some previous) (begins : next.Begins (some previous)) :
    Change recs .plain (recs.rebind runnerID previous next).1
  | remove {runnerID : String}
      (idle : ∀ state, recs.runners.get runnerID = some state → state.finalizedLease.size = 0)
      (unclaimed : ∀ c claim, recs.claims.get c = some claim → claim.runnerID ≠ runnerID) :
    Change recs .plain { recs with runners := recs.runners.drop runnerID }
  | reserve {claimID : ClaimID} {runnerID : String} {state : RunnerState} {assignment : Assignment}
      {generation : Nat} (unclaimed : recs.claims.get claimID = none)
      (unrecorded : recs.handoffs.get claimID = none)
      (found : recs.runners.get runnerID = some state)
      (free : recs.assignmentInFlight assignment.assignmentID = false) :
    Change recs (.claiming runnerID) (recs.reserve claimID runnerID state assignment generation)
  | edit {effect : Effect} {claimID : ClaimID} {handoff next : MemoryHandoff} (calm : effect.calm)
      (found : recs.handoffs.get claimID = some handoff) (runner : next.runnerID = handoff.runnerID)
      (assignment : next.assignment = handoff.assignment)
      (before : handoff.debt.state ≠ .finalized) (after : next.debt.state ≠ .finalized) :
    Change recs effect (recs.editHandoff claimID next)
  | drop {claimID : ClaimID} {claim : MemoryClaim} {id : AssignmentID}
      (found : recs.claims.get claimID = some claim)
      (of : id = claim.assignment.assignmentID ∨
        ∃ handoff, recs.handoffs.get claimID = some handoff ∧
          id = handoff.assignment.assignmentID) :
    Change recs .plain ((recs.deleteClaim claimID claim).deleteHandoff claimID id)
  | finalize {claimID : ClaimID} {claim : MemoryClaim} {state : RunnerState}
      {lease : Option TaskLease} (found : recs.claims.get claimID = some claim)
      (runner : recs.runners.get claim.runnerID = some state) :
    Change recs .plain (recs.finalize claimID claim state lease)
  | expire {runnerID : String} {state : RunnerState} {id : AssignmentID} {lease : TaskLease}
      (found : recs.runners.get runnerID = some state)
      (leased : state.finalizedLease.get id = some lease) :
    Change recs (.expired id lease.leaseID lease.leaseToken)
      (recs.dropLease runnerID state id lease)
  | settle {id : AssignmentID} {leaseID : LeaseID} {leaseToken : LeaseToken}
      {rank : String → Nat} :
    Change recs (.settled id leaseID leaseToken)
      (recs.deleteFinalizedHandoff rank id leaseID leaseToken)
  | release {runnerID : String} {state : RunnerState} {id : AssignmentID} {lease : TaskLease}
      {rank : String → Nat} (found : recs.runners.get runnerID = some state)
      (leased : state.finalizedLease.get id = some lease) :
    Change recs .plain ((recs.dropLease runnerID state id lease).deleteFinalizedHandoff rank id
      lease.leaseID lease.leaseToken)
  | clear {id : AssignmentID} {rank : String → Nat} :
    Change recs (.cleared id) (recs.clear id rank)

/-! ### Operations -/

namespace MemoryRunnerDirectory

variable {cfg : Config} {d : MemoryRunnerDirectory} {clock : Int}

/-- What an operation is for. -/
def effect (cfg : Config) (d : MemoryRunnerDirectory) : Operation → Effect
  | .claimForRunner req _ _ => .claiming req.runnerID
  | .releaseExpiredLease id leaseID leaseToken rank =>
    if (d.releaseExpiredLease cfg id leaseID leaseToken rank).2 = .released then
      .expired id leaseID leaseToken
    else .plain
  | .settleFinalizedHandoff id leaseID leaseToken _ => .settled id leaseID leaseToken
  | .clearAssignment id _ => .cleared id
  | _ => .plain

variable {runnerID : String}

theorem runnerForSession_ok {sessionID : String} {state : RunnerState}
    (ok : d.runnerForSession runnerID sessionID = .ok state) :
  d.runners.get runnerID = some state ∧ state.sessionID = sessionID
  := by
  grind [runnerForSession]

theorem register_change (req : RegisterRunnerRequest) (sessionID : String) (rank : String → Nat) :
  Change d.toRecords .plain (d.register cfg req sessionID clock rank).1.toRecords
  := by
  fun_cases d.register cfg req sessionID clock rank with
  | case4 _ _ _ _ _ next _ _ absent =>
    refine .enroll absent ?_
    constructor <;> simp [next, registered, absent]
  | case5 _ _ _ _ _ next _ _ previous found =>
    refine .rebind found ?_
    constructor <;> simp [next, registered, found]
  | _ => exact .keep trivial

theorem heartbeat_change (req : HeartbeatRequest) :
  Change d.toRecords .plain (d.heartbeat req clock).1.toRecords
  := by
  unfold heartbeat
  split
  case h_1 => exact .keep trivial
  case h_2 state ok => exact .refresh (runnerForSession_ok ok).1 ⟨rfl, rfl, rfl, rfl⟩

theorem deregister_change (runnerID sessionID : String) :
  Change d.toRecords .plain (d.deregister runnerID sessionID).1.toRecords
  := by
  unfold deregister
  split
  case h_1 => exact .keep trivial
  case h_2 state ok => exact .refresh (runnerForSession_ok ok).1 ⟨rfl, rfl, rfl, rfl⟩

theorem removeRunner_change (runnerID : String) :
  Change d.toRecords .plain (d.removeRunner runnerID).1.toRecords
  := by
  unfold removeRunner
  split
  case isTrue => exact .keep trivial
  case isFalse idle =>
    -- a runner that is removed has no claims and no leases
    push Not at idle
    obtain ⟨work, claims, -, -⟩ := idle
    apply Change.remove
    · intro state found
      by_contra busy
      exact work (by simp [found, busy])
    · intro c claim found same
      exact claims (Table.any_iff.mpr ⟨c, claim, found, by simpa using same⟩)

theorem enqueueAssignment_change (assignment : Assignment) :
  Change d.toRecords .plain (d.enqueueAssignment cfg assignment clock).1.toRecords
  := by
  unfold enqueueAssignment
  dsimp only
  split
  case isTrue => exact .keep trivial
  split <;> exact .keep trivial

theorem unresolved_ne {state : HandoffDebtState} (unresolved : state.unresolved) :
  state ≠ .finalized
  := by
  rintro rfl
  cases unresolved

theorem claimForRunner_change (req : ClaimRequest) {claimID : ClaimID} (rank : String → Nat)
    (unclaimed : d.claims.get claimID = none) (unrecorded : d.handoffs.get claimID = none) :
  Change d.toRecords (.claiming req.runnerID)
    (d.claimForRunner cfg req claimID clock rank).1.toRecords
  := by
  fun_cases d.claimForRunner cfg req claimID clock rank with
  | case2 _ _ _ _ recoverable =>
    obtain ⟨here, -, hit⟩ := List.exists_of_findSome?_eq_some recoverable
    obtain ⟨handoff, kept, ⟨⟩⟩ := map_eq_some_iff.mp hit
    rw [filter_eq_some_iff, decide_eq_true_eq] at kept
    have open_ := unresolved_ne kept.2.2.2.1
    exact .edit trivial kept.1 rfl rfl open_ open_
  | case6 state ok _ _ _ target assignment first =>
    have claimable := List.find?_some (Queues.find_of_first first).2
    refine .reserve unclaimed unrecorded (runnerForSession_ok ok).1 ?_
    simp only [MemoryRunnerDirectory.claimable, Bool.and_eq_true] at claimable
    simpa using claimable.1.1.1.1.1
  | _ => exact .keep trivial

section

variable (claimID : ClaimID)

theorem finalizeClaim_change (lease : Option TaskLease) :
  Change d.toRecords .plain (d.finalizeClaim claimID lease).1.toRecords
  := by
  fun_cases d.finalizeClaim claimID lease with
  | case3 _ found _ runner => exact .finalize found runner
  | _ => exact .keep trivial

theorem markClaimLeaseMayExist_change :
  Change d.toRecords .plain (d.markClaimLeaseMayExist claimID).1.toRecords
  := by
  fun_cases d.markClaimLeaseMayExist claimID with
  | case1 _ _ found _ early =>
    refine .edit trivial found rfl rfl ?_ (by simp)
    rintro final
    simp [final] at early
  | _ => exact .keep trivial

theorem recordClaimLeaseCreated_change (lease : Option TaskLease) :
  Change d.toRecords .plain (d.recordClaimLeaseCreated claimID lease).1.toRecords
  := by
  fun_cases d.recordClaimLeaseCreated claimID lease with
  | case2 _ _ _ found _ unresolved =>
    exact .edit trivial found rfl rfl (unresolved_ne unresolved) (by simp)
  | _ => exact .keep trivial

theorem makeClaimHandoffRecoverable_change :
  Change d.toRecords .plain (d.makeClaimHandoffRecoverable claimID).1.toRecords
  := by
  fun_cases d.makeClaimHandoffRecoverable claimID with
  | case2 _ found unresolved =>
    exact .edit trivial found rfl rfl (unresolved_ne unresolved) (unresolved_ne unresolved)
  | _ => exact .keep trivial

theorem settleClaimHandoff_change (disposition : HandoffDisposition) :
  Change d.toRecords .plain (d.settleClaimHandoff cfg claimID disposition clock).1.toRecords
  := by
  fun_cases d.settleClaimHandoff cfg claimID disposition clock with
  | case3 _ found handoff kept | case4 _ found handoff kept =>
    exact .drop found (.inr ⟨handoff, (filter_eq_some_iff.mp kept).1, rfl⟩)
  | _ => exact .keep trivial

theorem releaseClaim_change (reason : ReleaseClaimReason) :
  Change d.toRecords .plain (d.releaseClaim cfg claimID reason clock).1.toRecords
  := by
  fun_cases d.releaseClaim cfg claimID reason clock with
  | case1 | case2 => exact .keep trivial
  | _ => exact .drop ‹_› (.inl rfl)

end

theorem releaseLeased_change (req : ReleaseLeasedRequest) (rank : String → Nat) :
  Change d.toRecords .plain (d.releaseLeased cfg req rank).1.toRecords
  := by
  fun_cases d.releaseLeased cfg req rank with
  | case4 _ found _ _ _ kept | case5 _ found _ _ _ kept =>
    exact .release found (filter_eq_some_iff.mp kept).1
  | _ => exact .keep trivial

theorem after_change {op : Operation} (drawable : d.drawable op) :
  Change d.toRecords (d.effect cfg op) (d.after cfg clock op).toRecords
  := by
  cases op with
  | register req sessionID rank => exact register_change req sessionID rank
  | heartbeat req => exact heartbeat_change req
  | deregister runnerID sessionID => exact deregister_change runnerID sessionID
  | removeRunner runnerID => exact removeRunner_change runnerID
  | enqueueAssignment assignment => exact enqueueAssignment_change assignment
  | claimForRunner req claimID rank =>
    simp only [MemoryRunnerDirectory.drawable, decide_eq_true_eq, isNone_iff_eq_none]
      at drawable
    exact claimForRunner_change req rank drawable.1 drawable.2
  | finalizeClaim claimID lease => exact finalizeClaim_change claimID lease
  | markClaimLeaseMayExist claimID => exact markClaimLeaseMayExist_change claimID
  | recordClaimLeaseCreated claimID lease => exact recordClaimLeaseCreated_change claimID lease
  | makeClaimHandoffRecoverable claimID => exact makeClaimHandoffRecoverable_change claimID
  | settleClaimHandoff claimID disposition => exact settleClaimHandoff_change claimID disposition
  | releaseClaim claimID reason => exact releaseClaim_change claimID reason
  | releaseExpiredLease id leaseID leaseToken rank =>
    simp only [effect, after]
    fun_cases d.releaseExpiredLease cfg id leaseID leaseToken rank with
    | case3 runnerID state lease first same =>
      -- the lease is one of the runner that it was found at
      obtain ⟨_, mem, hit⟩ := List.exists_of_findSome?_eq_some first
      obtain ⟨held, leased, ⟨⟩⟩ := map_eq_some_iff.mp hit
      push Not at same
      obtain ⟨rfl, rfl⟩ := same
      exact .expire (Table.mem_walk.mp mem) leased
    | _ => exact .keep trivial
  | settleFinalizedHandoff id leaseID leaseToken rank => exact .settle
  | releaseLeased req rank => exact releaseLeased_change req rank
  | clearAssignment id rank => exact .clear
  | _ =>
    -- controls and obligations are kept beside the records
    simp only [after, setRunnerControl, ensureDeactivationObligation,
      markDeactivationObligationReady, cancelPendingDeactivationObligation, acknowledgeDeactivation,
      rebindDeactivationObligations]
    repeat' split
    all_goals exact .keep trivial

end MemoryRunnerDirectory

end Xflow.Directory
