import Xflow.Directory.Changes
import Mathlib.Logic.Relator

/-!
# Who has an assignment

An assignment is reserved by a claim of a runner or leased by a runner, and never by two.  The
claims of a runner are among those that the runner counts as active, and the ledger of handoffs
agrees with the claims and with its own index.
-/

namespace Xflow.Directory

open Bool List Option Records RunnerState Table Transition

/-! ### Holders -/

/-- Who has an assignment. -/
inductive Holder where
  | claim (claimID : ClaimID) (runnerID : String)
  | lease (runnerID : String)
  deriving DecidableEq

/-- The runner is recorded to lease the assignment. -/
def RunnerState.Leases (state : RunnerState) (id : AssignmentID) : Prop :=
  (state.finalizedLease.get id).isSome ∨ (state.leasedAssignments.get id).isSome

namespace Records

/-- The lease of an assignment at a runner. -/
def leaseOf (recs : Records) (runnerID : String) (id : AssignmentID) : Option TaskLease :=
  (recs.runners.get runnerID).bind (·.finalizedLease.get id)

/-- The assignment that is leased at a runner. -/
def leasedOf (recs : Records) (runnerID : String) (id : AssignmentID) : Option Assignment :=
  (recs.runners.get runnerID).bind (·.leasedAssignments.get id)

/-- The records say that the assignment has this holder. -/
def Holds (recs : Records) (id : AssignmentID) : Holder → Prop
  | .claim claimID runnerID => ∃ claim, recs.claims.get claimID = some claim ∧
      claim.runnerID = runnerID ∧ claim.assignment.assignmentID = id
  | .lease runnerID => ∃ state, recs.runners.get runnerID = some state ∧ state.Leases id

/-- No assignment has two holders. -/
def Exclusive (recs : Records) : Prop := Relator.RightUnique recs.Holds

variable {recs next : Records} {runnerID : String} {state : RunnerState} {claimID : ClaimID}
  {claim : MemoryClaim} {id : AssignmentID} {lost : AssignmentID → Prop}

theorem holds_lease :
  recs.Holds id (.lease runnerID) ↔
    (recs.leaseOf runnerID id).isSome ∨ (recs.leasedOf runnerID id).isSome
  := by
  cases found : recs.runners.get runnerID <;>
    simp [Holds, leaseOf, leasedOf, found, RunnerState.Leases]

theorem holds_of_leaseOf {lease : TaskLease} (leased : recs.leaseOf runnerID id = some lease) :
  recs.Holds id (.lease runnerID)
  := holds_lease.mpr (.inl (by simp [leased]))

theorem not_holds_of_free (free : recs.assignmentInFlight id = false) (holder : Holder) :
  ¬ recs.Holds id holder
  := by
  simp only [assignmentInFlight, or_eq_false_iff] at free
  intro holds
  cases holder with
  | claim claimID runnerID =>
    obtain ⟨claim, found, -, same⟩ := holds
    apply eq_false_iff.mp free.1
    exact any_iff.mpr ⟨claimID, claim, found, decide_eq_true same⟩
  | lease runnerID =>
    obtain ⟨state, found, leases⟩ := holds
    apply eq_false_iff.mp free.2
    exact any_iff.mpr ⟨runnerID, state, found, decide_eq_true leases⟩

theorem Exclusive.add (holder : Holder) (kept : Holder → Prop) (exclusive : recs.Exclusive)
    (holds : ∀ other h, next.Holds other h →
      recs.Holds other h ∧ kept h ∨ other = id ∧ h = holder)
    (free : ∀ h, recs.Holds id h → ¬ kept h) :
  next.Exclusive
  := by
  intro other one two first second
  obtain ⟨first, stays⟩ | ⟨rfl, rfl⟩ := holds other one first
  · obtain ⟨second, -⟩ | ⟨rfl, rfl⟩ := holds other two second
    · exact exclusive first second
    · exact absurd stays (free one first)
  · obtain ⟨second, stays⟩ | ⟨-, rfl⟩ := holds _ two second
    · exact absurd stays (free two second)
    · rfl

/-! ### Changes that add nothing -/

@[grind =]
theorem leaseOf_put (after : RunnerState) (r : String) (id : AssignmentID) :
  leaseOf { recs with runners := recs.runners.put runnerID after } r id =
    if r = runnerID then after.finalizedLease.get id else recs.leaseOf r id
  := by
  grind [leaseOf]

@[grind =]
theorem leasedOf_put (after : RunnerState) (r : String) (id : AssignmentID) :
  leasedOf { recs with runners := recs.runners.put runnerID after } r id =
    if r = runnerID then after.leasedAssignments.get id else recs.leasedOf r id
  := by
  grind [leasedOf]

/-- No claim and no handoff is new, and of the leases only those of lost assignments go. -/
structure Shrinks (lost : AssignmentID → Prop) (recs next : Records) : Prop where
  leases : ∀ r id, next.leaseOf r id = recs.leaseOf r id ∨ lost id ∧ next.leaseOf r id = none
  leased : ∀ r id, (next.leasedOf r id).isSome → (recs.leasedOf r id).isSome
  claims : ∀ c claim, next.claims.get c = some claim → recs.claims.get c = some claim
  handoffs : ∀ c handoff, next.handoffs.get c = some handoff → ∃ before,
    recs.handoffs.get c = some before ∧ before.runnerID = handoff.runnerID ∧
      before.assignment = handoff.assignment ∧ before.settles = handoff.settles

/-- No lease goes. -/
abbrev Fades (recs next : Records) : Prop := Shrinks (fun _ => False) recs next

theorem Exclusive.shrinks (exclusive : recs.Exclusive) (shrinks : Shrinks lost recs next) :
  next.Exclusive
  := by
  have holds : ∀ id holder, next.Holds id holder → recs.Holds id holder := by
    intro id holder holds
    cases holder with
    | claim c r =>
      obtain ⟨claim, found, same⟩ := holds
      exact ⟨claim, shrinks.claims c claim found, same⟩
    | lease r =>
      rw [holds_lease] at holds ⊢
      grind [shrinks.leases r id, shrinks.leased r id]
  exact fun id one two first second => exclusive (holds id one first) (holds id two second)

attribute [local grind] editHandoff

namespace Shrinks

theorem refl (recs : Records) :
  Shrinks lost recs recs
  :=
  ⟨fun _ _ => .inl rfl, fun _ _ h => h, fun _ _ h => h,
    fun _ h found => ⟨h, found, rfl, rfl, rfl⟩⟩

theorem trans {between : Records} (first : Shrinks lost recs between)
    (second : Shrinks lost between next) :
  Shrinks lost recs next
  := by
  obtain ⟨leases, leased, claims, handoffs⟩ := first
  obtain ⟨leases', leased', claims', handoffs'⟩ := second
  constructor <;> grind

variable {after : RunnerState}

theorem put
    (leases : ∀ id, after.finalizedLease.get id = recs.leaseOf runnerID id ∨
      lost id ∧ after.finalizedLease.get id = none)
    (leased : ∀ id, (after.leasedAssignments.get id).isSome → (recs.leasedOf runnerID id).isSome) :
  Shrinks lost recs { recs with runners := recs.runners.put runnerID after }
  := by
  refine ⟨?_, ?_, fun _ _ h => h, fun _ handoff there => ⟨handoff, there, rfl, rfl, rfl⟩⟩
  · grind
  · grind

theorem refresh (found : recs.runners.get runnerID = some state) (same : state.SameWork after) :
  Shrinks lost recs { recs with runners := recs.runners.put runnerID after }
  := by
  apply put <;> grind [leaseOf, leasedOf, same.finalizedLease, same.leasedAssignments]

theorem enroll (absent : recs.runners.get runnerID = none) (begins : after.Begins none) :
  Shrinks lost recs { recs with runners := recs.runners.put runnerID after }
  := by
  have leases := begins.finalizedLease
  have leased := begins.leasedAssignments
  apply put <;> simp [leaseOf, absent, leases, leased]

theorem remove
    (idle : ∀ state, recs.runners.get runnerID = some state → state.finalizedLease.size = 0) :
  Shrinks lost recs { recs with runners := recs.runners.drop runnerID }
  := by
  refine ⟨fun r id => .inl ?_, ?_, fun _ _ h => h, fun _ handoff there =>
    ⟨handoff, there, rfl, rfl, rfl⟩⟩
  · have unleased : ∀ state, recs.runners.get runnerID = some state →
        state.finalizedLease.get id = none :=
      fun state found => size_eq_zero.mp (idle state found) id
    cases found : recs.runners.get r <;> grind [leaseOf]
  · grind [leasedOf]

theorem deleteHandoff (recs : Records) (claimID : ClaimID) (id : AssignmentID) :
  Shrinks lost recs (recs.deleteHandoff claimID id)
  := { refl recs with
    handoffs := fun _ handoff found =>
      ⟨handoff, (get_drop_eq_some.mp found).2, rfl, rfl, rfl⟩ }

theorem deleteHandoffByAssignment (recs : Records) (id : AssignmentID) :
  Shrinks lost recs (recs.deleteHandoffByAssignment id)
  := { refl recs with
    handoffs := fun _ handoff there =>
      ⟨handoff, (get_filter_eq_some.mp there).1, rfl, rfl, rfl⟩ }

theorem deleteClaim (recs : Records) (claimID : ClaimID) (claim : MemoryClaim) :
  Shrinks lost recs (recs.deleteClaim claimID claim)
  := by
  have fewer : ∀ c other, (recs.claims.drop claimID).get c = some other →
      recs.claims.get c = some other := fun c other there => (get_drop_eq_some.mp there).2
  unfold Records.deleteClaim
  split
  case h_1 state found =>
    have same : Shrinks lost recs
        { recs with runners := recs.runners.put claim.runnerID (state.removeClaim claimID) } :=
      put (fun _ => .inl (by rw [leaseOf, found]; rfl)) (fun _ h => by rwa [leasedOf, found])
    exact { same with claims := fewer }
  case h_2 => exact { refl recs with claims := fewer }

theorem edit {handoff after : MemoryHandoff} (found : recs.handoffs.get claimID = some handoff)
    (runner : after.runnerID = handoff.runnerID)
    (assignment : after.assignment = handoff.assignment)
    (settles : handoff.settles = after.settles) :
  Shrinks lost recs (recs.editHandoff claimID after)
  := by
  refine { refl recs with handoffs := fun c other there => ?_ }
  grind

theorem dropLease (lease : TaskLease) (found : recs.runners.get runnerID = some state) :
  Shrinks (· = id) recs (recs.dropLease runnerID state id lease)
  := by
  apply put <;> grind [leaseOf, leasedOf, removeLease_finalizedLease,
    removeLease_leasedAssignments]

end Shrinks

/-! ### The ledger -/

variable {c : ClaimID} {handoff : MemoryHandoff}

attribute [local grind] addHandoff

attribute [local grind] deleteHandoff deleteHandoffByAssignment

/-- The ledger agrees with the claims and with its index. -/
structure Ledgered (recs : Records) : Prop where
  claimed : ∀ c handoff, recs.handoffs.get c = some handoff → handoff.debt.state ≠ .finalized →
    (recs.claims.get c).isSome
  agrees : ∀ c claim handoff, recs.claims.get c = some claim → recs.handoffs.get c = some handoff →
    handoff.runnerID = claim.runnerID ∧ handoff.assignment = claim.assignment ∧
      handoff.debt.state ≠ .finalized
  indexed : ∀ c id, c ∈ recs.handoffsOf id ↔
    ∃ handoff, recs.handoffs.get c = some handoff ∧ handoff.assignment.assignmentID = id

namespace Ledgered

variable {base : Records}

section

variable (l : recs.Ledgered) {handoff : MemoryHandoff}

include l

/-- A handoff is deleted, and no claim other than its own. -/
theorem delete (handoffs : base.handoffs = recs.handoffs)
    (index : base.handoffByAssignment = recs.handoffByAssignment)
    (fewer : ∀ c claim, base.claims.get c = some claim → recs.claims.get c = some claim)
    (kept : ∀ c, c ≠ claimID → (recs.claims.get c).isSome → (base.claims.get c).isSome)
    (of : ∀ handoff, recs.handoffs.get claimID = some handoff →
      handoff.assignment.assignmentID = id) :
  (base.deleteHandoff claimID id).Ledgered
  := by
  constructor
  case claimed => grind [l.claimed]
  case agrees => grind [l.agrees]
  case indexed =>
    intro c other
    have before := l.indexed c other
    grind [handoffsOf]

/-- A handoff is written for a claim, in place of one of the same assignment. -/
theorem add (handoffs : base.handoffs = recs.handoffs)
    (index : base.handoffByAssignment = recs.handoffByAssignment)
    (same : ∀ before, recs.handoffs.get claimID = some before →
      before.assignment.assignmentID = handoff.assignment.assignmentID)
    (others : ∀ c, c ≠ claimID → base.claims.get c = recs.claims.get c)
    (claimed : handoff.debt.state ≠ .finalized → (base.claims.get claimID).isSome)
    (agrees : ∀ claim, base.claims.get claimID = some claim →
      handoff.runnerID = claim.runnerID ∧ handoff.assignment = claim.assignment ∧
        handoff.debt.state ≠ .finalized) :
  (base.addHandoff claimID handoff).Ledgered
  := by
  constructor
  case claimed => grind [l.claimed]
  case agrees => grind [l.agrees]
  case indexed =>
    intro c other
    have before := l.indexed c other
    grind [handoffsOf]

theorem deleteByAssignment (id : AssignmentID) :
  (recs.deleteHandoffByAssignment id).Ledgered
  := by
  have before : ∀ c handoff, (recs.deleteHandoffByAssignment id).handoffs.get c = some handoff ↔
      recs.handoffs.get c = some handoff ∧ handoff.assignment.assignmentID ≠ id := by
    grind [l.indexed]
  constructor
  case claimed => exact fun c handoff found => l.claimed c handoff ((before c handoff).mp found).1
  case agrees =>
    exact fun c claim handoff active found =>
      l.agrees c claim handoff active ((before c handoff).mp found).1
  case indexed =>
    intro c other
    have index := l.indexed c other
    grind [handoffsOf]

theorem adjust {f : ClaimID → MemoryHandoff → MemoryHandoff} (claims : base.claims = recs.claims)
    (handoffs : base.handoffs = recs.handoffs.adjust f)
    (index : base.handoffByAssignment = recs.handoffByAssignment)
    (same : ∀ c handoff, (f c handoff).runnerID = handoff.runnerID ∧
      (f c handoff).assignment = handoff.assignment ∧ (f c handoff).debt = handoff.debt) :
  base.Ledgered
  := by
  have after : ∀ c now, base.handoffs.get c = some now ↔
      ∃ handoff, recs.handoffs.get c = some handoff ∧ f c handoff = now := by
    intro c now
    rw [handoffs, get_adjust, map_eq_some_iff]
  constructor
  case claimed => grind [l.claimed]
  case agrees => grind [l.agrees]
  case indexed =>
    intro c other
    rw [handoffsOf, index]
    change c ∈ recs.handoffsOf other ↔ _
    rw [l.indexed]
    grind

theorem edit {next : MemoryHandoff} (found : recs.handoffs.get claimID = some handoff)
    (runner : next.runnerID = handoff.runnerID) (assignment : next.assignment = handoff.assignment)
    (before : handoff.debt.state ≠ .finalized) (after : next.debt.state ≠ .finalized) :
  (recs.editHandoff claimID next).Ledgered
  := by
  constructor
  case claimed => grind [l.claimed]
  case agrees => grind [l.agrees]
  case indexed =>
    intro c other
    refine (l.indexed c other).trans ?_
    grind

end

end Ledgered

/-! ### Active claims -/

/-- Every claim is active at its runner. -/
def Tracked (recs : Records) : Prop :=
  ∀ c claim, recs.claims.get c = some claim → ∃ state,
    recs.runners.get claim.runnerID = some state ∧ c ∈ state.activeOrder ∧
      (state.activeClaims.get c).isSome

/-- One runner changes, and the claims that are left stay active at it. -/
theorem Tracked.put {after : RunnerState} {claims : Table ClaimID MemoryClaim}
    {handoffs : Table ClaimID MemoryHandoff} {index : Table AssignmentID (List ClaimID)}
    (tracked : recs.Tracked) (found : recs.runners.get runnerID = some state)
    (fewer : ∀ c claim, claims.get c = some claim → recs.claims.get c = some claim)
    (active : ∀ c claim, claims.get c = some claim → c ∈ state.activeOrder →
      (state.activeClaims.get c).isSome → c ∈ after.activeOrder ∧
        (after.activeClaims.get c).isSome) :
  Tracked
    { runners := recs.runners.put runnerID after, claims := claims, handoffs := handoffs,
      handoffByAssignment := index }
  := by
  intro c claim there
  obtain ⟨before, runner, order, active_⟩ := tracked c claim (fewer c claim there)
  grind

theorem mem_removeClaim (ne : c ≠ claimID) (order : c ∈ state.activeOrder)
    (active : (state.activeClaims.get c).isSome) :
  c ∈ (state.removeClaim claimID).activeOrder ∧
    ((state.removeClaim claimID).activeClaims.get c).isSome
  := by
  refine ⟨(mem_erase_of_ne ne).mpr order, ?_⟩
  change ((state.activeClaims.drop claimID).get c).isSome
  rwa [get_drop_ne ne]

/-! ### The invariant -/

/-- Assignments have one holder, claims are active, and the ledger agrees with the claims. -/
structure Sound (recs : Records) : Prop where
  exclusive : recs.Exclusive
  tracked : recs.Tracked
  ledgered : recs.Ledgered

theorem sound_empty : Sound {}
  := by
  refine ⟨?_, ?_, ?_, ?_, ?_⟩
  · intro id one two holds
    cases one <;> obtain ⟨_, found, -⟩ := holds <;> simp at found
  all_goals simp [Tracked, handoffsOf]

namespace Sound

variable {after : RunnerState} {lease : TaskLease}

theorem mono (sound : recs.Sound) (shrinks : Shrinks lost recs next) (tracked : next.Tracked)
    (claims : next.claims = recs.claims) (handoffs : next.handoffs = recs.handoffs)
    (index : next.handoffByAssignment = recs.handoffByAssignment) :
  next.Sound
  := by
  refine ⟨sound.exclusive.shrinks shrinks, tracked, ?_, ?_, ?_⟩
  · rw [claims, handoffs]
    exact sound.ledgered.claimed
  · rw [claims, handoffs]
    exact sound.ledgered.agrees
  · unfold handoffsOf
    rw [handoffs, index]
    exact sound.ledgered.indexed

theorem refresh (sound : recs.Sound) (found : recs.runners.get runnerID = some state)
    (same : state.SameWork after) :
  Sound { recs with runners := recs.runners.put runnerID after }
  := by
  refine sound.mono (.refresh found same : Fades recs _) ?_ rfl rfl rfl
  refine sound.tracked.put found (fun _ _ h => h) fun c claim _ order active => ?_
  rw [same.activeOrder, same.activeClaims]
  exact ⟨order, active⟩

theorem enroll (sound : recs.Sound) (absent : recs.runners.get runnerID = none)
    (begins : after.Begins none) :
  Sound { recs with runners := recs.runners.put runnerID after }
  := by
  refine sound.mono (.enroll absent begins : Fades recs _) ?_ rfl rfl rfl
  intro c claim there
  have := sound.tracked c claim there
  grind

theorem remove (sound : recs.Sound)
    (idle : ∀ state, recs.runners.get runnerID = some state → state.finalizedLease.size = 0)
    (unclaimed : ∀ c claim, recs.claims.get c = some claim → claim.runnerID ≠ runnerID) :
  Sound { recs with runners := recs.runners.drop runnerID }
  := by
  refine sound.mono (.remove idle : Fades recs _) ?_ rfl rfl rfl
  intro c claim there
  have := sound.tracked c claim there
  grind

theorem deleteClaim_tracked (tracked : recs.Tracked) : (recs.deleteClaim claimID claim).Tracked
  := by
  unfold deleteClaim
  split
  case h_1 state found =>
    refine tracked.put found (fun c other there => (get_drop_eq_some.mp there).2) ?_
    intro c other there order active
    exact mem_removeClaim (get_drop_eq_some.mp there).1 order active
  case h_2 => exact fun c other there => tracked c other (get_drop_eq_some.mp there).2

section

variable (sound : recs.Sound)

include sound

theorem drop
    (of : ∀ handoff, recs.handoffs.get claimID = some handoff →
      handoff.assignment.assignmentID = id) :
  ((recs.deleteClaim claimID claim).deleteHandoff claimID id).Sound
  := by
  have shrinks : Fades recs (recs.deleteClaim claimID claim) := .deleteClaim recs claimID claim
  refine ⟨sound.exclusive.shrinks (shrinks.trans (.deleteHandoff _ _ _)),
    deleteClaim_tracked sound.tracked, ?_⟩
  refine sound.ledgered.delete rfl rfl shrinks.claims (fun c ne active => ?_) of
  change ((recs.claims.drop claimID).get c).isSome
  rwa [get_drop_ne ne]

theorem dropLease (found : recs.runners.get runnerID = some state) :
  (recs.dropLease runnerID state id lease).Sound
  := sound.mono (.dropLease lease found)
    (sound.tracked.put found (fun _ _ h => h) fun _ _ _ order active => ⟨order, active⟩) rfl rfl rfl

theorem deleteFinalizedHandoff (rank : String → Nat) (leaseID : LeaseID) (leaseToken : LeaseToken) :
  (recs.deleteFinalizedHandoff rank id leaseID leaseToken).Sound
  := by
  unfold Records.deleteFinalizedHandoff
  split
  case h_1 claimID first =>
    have mem := (perm_insertionSort _ _).mem_iff.mp (mem_of_find?_eq_some first)
    obtain ⟨handoff, found, of⟩ := (sound.ledgered.indexed claimID id).mp mem
    refine ⟨sound.exclusive.shrinks (.deleteHandoff recs claimID id : Fades recs _),
      sound.tracked, ?_⟩
    refine sound.ledgered.delete rfl rfl (fun _ _ h => h) (fun _ _ h => h) fun other there => ?_
    cases found.symm.trans there
    exact of
  case h_2 => exact sound

theorem reserve {assignment : Assignment} {generation : Nat}
    (unrecorded : recs.handoffs.get claimID = none) (found : recs.runners.get runnerID = some state)
    (free : recs.assignmentInFlight assignment.assignmentID = false) :
  (recs.reserve claimID runnerID state assignment generation).Sound
  := by
  constructor
  case exclusive =>
    refine sound.exclusive.add (.claim claimID runnerID) (fun _ => True) ?_
      (fun h holds => absurd holds (not_holds_of_free free h))
    intro other h holds
    cases h with
    | claim c r => grind [Holds, reserve]
    | lease r => grind [Holds, reserve, RunnerState.Leases]
  case tracked =>
    intro c other there
    have before := sound.tracked c other
    change (recs.claims.put claimID _).get c = some other at there
    change ∃ after, (recs.runners.put runnerID _).get other.runnerID = some after ∧ _
    grind
  case ledgered =>
    refine sound.ledgered.add rfl rfl (fun before there => ?_)
      (fun c ne => get_put_ne _ ne) (fun _ => ?_) (fun other there => ?_)
    · cases unrecorded.symm.trans there
    · simp
    · rw [get_put_self] at there
      cases there
      exact ⟨rfl, rfl, nofun⟩

theorem finalize {lease : Option TaskLease} (found : recs.claims.get claimID = some claim)
    (runner : recs.runners.get claim.runnerID = some state) :
  (recs.finalize claimID claim state lease).Sound
  := by
  constructor
  case exclusive =>
    -- the claim held the assignment, so nobody else did before it was leased
    refine sound.exclusive.add (.lease claim.runnerID)
      (· ≠ .claim claimID claim.runnerID) ?_
      (fun h holds => not_not.mpr (sound.exclusive holds ⟨claim, found, rfl, rfl⟩))
    intro other h holds
    cases h with
    | claim c r => grind [Holds, finalize]
    | lease r =>
      obtain ⟨after, there, leases⟩ := holds
      change (recs.runners.put claim.runnerID _).get r = some after at there
      grind [Holds, RunnerState.Leases, addLease_finalizedLease,
        addLease_leasedAssignments, removeClaim]
  case tracked =>
    refine sound.tracked.put runner (fun c other there => (get_drop_eq_some.mp there).2) ?_
    intro c other there order active
    rw [addLease_activeOrder, addLease_activeClaims]
    exact mem_removeClaim (get_drop_eq_some.mp there).1 order active
  case ledgered =>
    refine sound.ledgered.add rfl rfl (fun before there => ?_)
      (fun c ne => get_drop_ne ne) (fun early => absurd rfl early) (fun other there => ?_)
    · simp [there]
    · simp at there

end

end Sound

/-! ### Registration -/

/-- How many finalized handoffs an assignment has for a lease. -/
def debt (recs : Records) (id : AssignmentID) (leaseID : LeaseID) (leaseToken : LeaseToken) : Nat :=
  recs.handoffs.count (fun _ handoff =>
    handoff.assignment.assignmentID = id ∧ handoff.settles leaseID leaseToken)

theorem not_settles (early : handoff.debt.state ≠ .finalized) :
  handoff.settles = fun _ _ => false
  := by
  funext leaseID leaseToken
  simp [MemoryHandoff.settles, early]

/-- What a registration has done when it has gone through some claims of the session before. -/
structure Rebinds (recs : Records) (begin_ : RunnerState) (seen : List ClaimID) (reb : Rebinding) :
    Prop where
  ledgered : reb.recs.Ledgered
  runners : reb.recs.runners = recs.runners
  shrinks : Fades recs reb.recs
  kept : ∀ c ∈ seen, (reb.recs.claims.get c).isSome →
    c ∈ reb.next.activeOrder ∧ (reb.next.activeClaims.get c).isSome
  finalizedLease : reb.next.finalizedLease = begin_.finalizedLease
  leasedAssignments : reb.next.leasedAssignments = begin_.leasedAssignments

variable {begin_ : RunnerState} {seen : List ClaimID} {reb : Rebinding}

theorem Rebinds.snoc
    (rebinds : recs.Rebinds begin_ seen reb) (claimID : ClaimID) :
  recs.Rebinds begin_ (seen ++ [claimID]) (reb.claim claimID)
  := by
  have kept := rebinds.kept
  unfold Rebinding.claim
  split
  case h_1 => exact { rebinds with kept := by grind }
  case h_2 claim found =>
    split
    case h_1 handoff recover =>
      obtain ⟨there, unresolved⟩ := filter_eq_some_iff.mp recover
      have early := MemoryRunnerDirectory.unresolved_ne unresolved
      exact { rebinds with
        ledgered := rebinds.ledgered.edit there rfl rfl early early
        shrinks := rebinds.shrinks.trans (.edit there rfl rfl rfl)
        kept := by grind }
    case h_2 =>
      have dropped : Fades reb.recs
          { reb.recs with claims := reb.recs.claims.drop claimID } :=
        { Shrinks.refl reb.recs with
          claims := fun _ _ there => (get_drop_eq_some.mp there).2 }
      refine { rebinds with
        ledgered := rebinds.ledgered.delete rfl rfl dropped.claims (fun c ne active => ?_)
          (fun handoff there => ?_)
        shrinks := rebinds.shrinks.trans (dropped.trans (.deleteHandoff _ _ _))
        kept := by grind }
      · rwa [get_drop_ne ne]
      · rw [(rebinds.ledgered.agrees claimID claim handoff found there).2.1]

theorem Rebinds.fold (claims : List ClaimID)
    (rebinds : recs.Rebinds begin_ seen reb) :
  recs.Rebinds begin_ (seen ++ claims) (claims.foldl Rebinding.claim reb)
  := by
  induction claims generalizing seen reb with
  | nil => simpa using rebinds
  | cons claimID claims ih =>
    have rest := ih (rebinds.snoc claimID)
    rwa [append_assoc] at rest

theorem rebinds_all (ledgered : recs.Ledgered) (previous begin_ : RunnerState) :
  recs.Rebinds begin_ previous.activeOrder
    (previous.activeOrder.foldl Rebinding.claim { recs := recs, next := begin_ })
  := by
  have start : recs.Rebinds begin_ [] { recs := recs, next := begin_ } :=
    ⟨ledgered, rfl, .refl recs, nofun, rfl, rfl⟩
  exact start.fold previous.activeOrder

section

variable {previous : RunnerState} (found : recs.runners.get runnerID = some previous)
  (begins : begin_.Begins (some previous))

include found begins

theorem Shrinks.rebind (ledgered : recs.Ledgered) :
  Fades recs (recs.rebind runnerID previous begin_).1
  := by
  have rebinds := rebinds_all ledgered previous begin_
  unfold Records.rebind
  generalize previous.activeOrder.foldl Rebinding.claim _ = reb at rebinds ⊢
  have runner : Fades reb.recs
      { reb.recs with runners := reb.recs.runners.put runnerID reb.next } := by
    apply put <;> simp [leaseOf, leasedOf, rebinds.runners, found, rebinds.finalizedLease,
      rebinds.leasedAssignments, begins.finalizedLease, begins.leasedAssignments]
  have moved := rebinds.shrinks.trans runner
  refine { moved with handoffs := fun c handoff there => ?_ }
  rw [get_adjust] at there
  obtain ⟨before, earlier, rfl⟩ := map_eq_some_iff.mp there
  obtain ⟨old, earliest, same⟩ := moved.handoffs c before earlier
  refine ⟨old, earliest, ?_⟩
  unfold MemoryHandoff.follow
  split <;> exact same

theorem Sound.rebind (sound : recs.Sound) :
  (recs.rebind runnerID previous begin_).1.Sound
  := by
  have shrinks := Shrinks.rebind found begins sound.ledgered
  have rebinds := rebinds_all sound.ledgered previous begin_
  unfold Records.rebind at shrinks ⊢
  constructor
  case exclusive => exact sound.exclusive.shrinks shrinks
  case tracked =>
    intro c claim there
    obtain ⟨state, runner, order, active⟩ := sound.tracked c claim (shrinks.claims c claim there)
    dsimp only at there ⊢
    have kept := rebinds.kept c
    rw [rebinds.runners]
    grind
  case ledgered =>
    refine rebinds.ledgered.adjust
      (f := fun _ handoff => handoff.follow runnerID begin_.sessionID) rfl rfl rfl ?_
    intro c handoff
    unfold MemoryHandoff.follow
    split <;> exact ⟨rfl, rfl, rfl⟩

end

/-! ### Clearing -/

/-- The part of `ClearAssignment` that deletes claims. -/
theorem clearClaims (id : AssignmentID) (entries : List (ClaimID × MemoryClaim))
    (sound : recs.Sound)
    (gone : ∀ entry ∈ entries, entry.2.assignment.assignmentID = id →
      recs.handoffs.get entry.1 = none) :
  let left := entries.foldl (fun recs entry =>
      if entry.2.assignment.assignmentID ≠ id then recs
      else recs.dropClaim entry.1 entry.2) recs
  left.Sound ∧ Shrinks (· = id) recs left
  := by
  induction entries generalizing recs with
  | nil => exact ⟨sound, .refl recs⟩
  | cons entry entries ih =>
    rw [foldl_cons]
    split
    case isTrue => exact ih sound fun other mem => gone other (mem_cons_of_mem _ mem)
    case isFalse same =>
      have absent := gone entry mem_cons_self (not_not.mp same)
      have dropped : Shrinks (· = id) recs (recs.dropClaim entry.1 entry.2) :=
        (Shrinks.deleteClaim _ _ _).trans (.deleteHandoff _ _ _)
      have kept : (recs.dropClaim entry.1 entry.2).Sound :=
        sound.drop fun handoff there => by cases absent.symm.trans there
      obtain ⟨sound, rest⟩ := ih kept fun other mem of => by
        have before := gone other (mem_cons_of_mem _ mem) of
        change (recs.handoffs.drop entry.1).get other.1 = _
        rw [get_drop, before, ite_self]
      exact ⟨sound, dropped.trans rest⟩

theorem clear_sound (sound : recs.Sound) (id : AssignmentID) (rank : String → Nat) :
  (recs.clear id rank).Sound ∧
    Shrinks (· = id) (recs.deleteHandoffByAssignment id) (recs.clear id rank)
  := by
  have bare : (recs.deleteHandoffByAssignment id).Sound :=
    ⟨sound.exclusive.shrinks (.deleteHandoffByAssignment recs id : Fades recs _),
      sound.tracked, sound.ledgered.deleteByAssignment id⟩
  unfold clear
  obtain ⟨unclaimed, dropped⟩ := clearClaims id (recs.claims.walk rank) bare fun entry mem of => by
    rw [eq_none_iff_forall_ne_some]
    intro handoff there
    have other : handoff.assignment.assignmentID ≠ id := by
      grind [sound.ledgered.indexed]
    apply other
    rw [(bare.ledgered.agrees _ _ handoff (mem_walk.mp mem) there).2.1, of]
  generalize foldl _ _ _ = left at unclaimed dropped ⊢
  have unleased : Shrinks (· = id) left { left with
      runners := left.runners.adjust (fun _ => clearLease id) } := by
    refine ⟨fun r other => ?_, fun r other => ?_, fun _ _ h => h, fun _ handoff there =>
      ⟨handoff, there, rfl, rfl, rfl⟩⟩
    all_goals
      simp only [leaseOf, leasedOf, get_adjust]
      cases left.runners.get r with
      | none => simp
      | some state =>
        cases leased : state.finalizedLease.get id with
        | none => simp [clearLease, leased]
        | some lease => simp [clearLease, leased]; grind
  refine ⟨unclaimed.mono unleased ?_ rfl rfl rfl, dropped.trans unleased⟩
  intro c claim there
  obtain ⟨state, runner, order, active⟩ := unclaimed.tracked c claim there
  rw [get_adjust, runner]
  refine ⟨_, rfl, ?_⟩
  unfold clearLease
  split <;> exact ⟨order, active⟩

theorem Sound.change {effect : Effect} (sound : recs.Sound) (change : Change recs effect next) :
  next.Sound
  := by
  cases change with
  | keep calm => exact sound
  | refresh found same => exact sound.refresh found same
  | enroll absent begins => exact sound.enroll absent begins
  | rebind found begins => exact sound.rebind found begins
  | remove idle unclaimed => exact sound.remove idle unclaimed
  | reserve unclaimed unrecorded found free => exact sound.reserve unrecorded found free
  | edit calm found runner assignment before after =>
    refine ⟨sound.exclusive.shrinks (.edit found runner assignment ?_ : Fades recs _),
      sound.tracked, sound.ledgered.edit found runner assignment before after⟩
    rw [not_settles before, not_settles after]
  | drop found of =>
    refine sound.drop fun handoff there => ?_
    obtain rfl | ⟨other, recorded, rfl⟩ := of
    · rw [(sound.ledgered.agrees _ _ handoff found there).2.1]
    · cases there.symm.trans recorded
      rfl
  | finalize found runner => exact sound.finalize found runner
  | expire found leased => exact sound.dropLease found
  | settle => exact sound.deleteFinalizedHandoff _ _ _
  | release found leased => exact (sound.dropLease found).deleteFinalizedHandoff _ _ _
  | clear => exact (clear_sound sound _ _).1

end Records

namespace MemoryRunnerDirectory

variable {cfg : Config} {d next : MemoryRunnerDirectory}

theorem Reachable.sound (reachable : Reachable cfg d) : d.Sound
  := by
  apply reachable.invariant (I := fun d => d.Sound) sound_empty
  intro call d next sound _ eq
  obtain ⟨drawable, ⟨⟩⟩ := ite_none_right_eq_some.mp eq
  exact sound.change (after_change drawable)

/-! ### One holder -/

/-- The assignment is reserved by a claim. -/
def Claimed (d : MemoryRunnerDirectory) (id : AssignmentID) : Prop :=
  ∃ claimID runnerID, d.Holds id (.claim claimID runnerID)

/-- The assignment is leased by a runner. -/
def Leased (d : MemoryRunnerDirectory) (id : AssignmentID) : Prop :=
  ∃ runnerID, d.Holds id (.lease runnerID)

/-- How many claims of the runner are live. -/
def liveClaims (d : MemoryRunnerDirectory) (runnerID : String) : Nat :=
  d.claims.count (fun _ claim => claim.runnerID = runnerID)

/-- The runner may take the assignment from its queue. -/
structure MayTake (cfg : Config) (d : MemoryRunnerDirectory) (runnerID : String)
    (assignment : Assignment) : Prop where
  queued : d.queues.holds cfg assignment.assignmentID
  unclaimed : ¬ d.Claimed assignment.assignmentID
  unleased : ¬ d.Leased assignment.assignmentID
  unreleased : assignment.assignmentID ∉ d.released
  capacity : ∃ state, d.runners.get runnerID = some state ∧
    (d.liveClaims runnerID + state.finalizedLease.size : Int) < state.snapshot.capacity
  active : d.draining runnerID = false

theorem liveClaims_le {runnerID : String} {state : RunnerState} (sound : d.Sound)
    (found : d.runners.get runnerID = some state) :
  d.liveClaims runnerID ≤ state.activeClaims.size
  := by
  refine le_trans (count_le_count fun c claim there mine => ?_)
    (count_le_size (p := fun _ _ => true))
  rw [decide_eq_true_eq] at mine
  obtain ⟨after, runner, -, active⟩ := sound.tracked c claim there
  rw [mine, found] at runner
  cases runner
  obtain ⟨id, active⟩ := isSome_iff_exists.mp active
  exact ⟨id, active, rfl⟩

/-- A claim leaves the queues and the claims alone, or it takes one entry of what the runner may
take from its queue. -/
theorem claimForRunner_takes (sound : d.Sound) {req : ClaimRequest} {claimID : ClaimID}
    {clock : Int} {rank : String → Nat} {answer}
    (asked : answer = d.claimForRunner cfg req claimID clock rank) :
  answer.1.queues = d.queues ∧ answer.1.claims = d.claims ∨
    ∃ name assignment, d.MayTake cfg req.runnerID assignment ∧
      answer.2 = .ok (some { claimID := claimID, assignment := assignment }) ∧
      d.queues.Taken name assignment answer.1.queues ∧
      answer.1.claims = d.claims.put claimID { runnerID := req.runnerID, assignment := assignment }
  := by
  subst asked
  fun_cases d.claimForRunner cfg req claimID clock rank with
  | case6 state ok _ open_ room target assignment first =>
    obtain ⟨found, -⟩ := runnerForSession_ok ok
    obtain ⟨lane, first⟩ := Queues.find_of_first first
    have claimable := find?_some first
    simp only [MemoryRunnerDirectory.claimable, and_eq_true] at claimable
    have free : d.assignmentInFlight assignment.assignmentID = false := by
      simpa using claimable.1.1.1.1.1
    refine .inr ⟨target, assignment, ?_, rfl, Queues.taken_take first _, rfl⟩
    constructor
    case queued =>
      refine any_eq_true.mpr ⟨target, Config.mem_of_mem_targets lane, ?_⟩
      exact any_eq_true.mpr ⟨assignment, mem_of_find?_eq_some first, decide_eq_true rfl⟩
    case unclaimed =>
      rintro ⟨c, r, holds⟩
      apply not_holds_of_free free _ holds
    case unleased =>
      rintro ⟨r, holds⟩
      apply not_holds_of_free free _ holds
    case unreleased => simpa using claimable.1.1.1.1.2
    case capacity =>
      refine ⟨state, found, ?_⟩
      have le := liveClaims_le sound found
      unfold headroom at room
      omega
    case active =>
      push Not at open_
      simpa using open_.1
  | _ => exact .inl ⟨rfl, rfl⟩

/-- In every run an assignment has at most one holder, a claim takes nothing or one entry of a queue
that its runner may take, and only an assignment that is queued, claimed or leased is refused. -/
theorem one_holder (reachable : Reachable cfg d) :
  (∀ id one two, d.Holds id one → d.Holds id two → one = two) ∧
    (∀ req claimID clock rank answer, answer = d.claimForRunner cfg req claimID clock rank →
      answer.1.queues = d.queues ∧ answer.1.claims = d.claims ∨
        ∃ name assignment, d.MayTake cfg req.runnerID assignment ∧
          answer.2 = .ok (some { claimID := claimID, assignment := assignment }) ∧
          d.queues.Taken name assignment answer.1.queues ∧
          answer.1.claims =
            d.claims.put claimID { runnerID := req.runnerID, assignment := assignment }) ∧
    ∀ assignment clock, (d.enqueueAssignment cfg assignment clock).2 = .ok false →
      d.queues.holds cfg assignment.assignmentID ∨ d.Claimed assignment.assignmentID ∨
        d.Leased assignment.assignmentID
  := by
  have sound := reachable.sound
  refine ⟨fun _ _ _ one two => sound.exclusive one two, ?_, ?_⟩
  · exact fun _ _ _ _ _ => claimForRunner_takes sound
  · intro assignment clock
    fun_cases d.enqueueAssignment cfg assignment clock with
    | case2 _ _ live =>
      intro _
      obtain ⟨-, live⟩ := live
      simp only [assignmentLive, decide_eq_true_eq] at live
      obtain ⟨-, queued | claimed | leased⟩ := live
      · exact .inl queued
      · obtain ⟨c, claim, found, of⟩ := any_iff.mp claimed
        exact .inr (.inl ⟨c, claim.runnerID, claim, found, rfl, of_decide_eq_true of⟩)
      · obtain ⟨r, state, found, of⟩ := any_iff.mp leased
        exact .inr (.inr ⟨r, state, found, .inl of⟩)
    | _ => exact nofun

/-! A task whose node type has a lane is written twice, and claimed once. -/

namespace Sample

/-- Every assignment of node type `f` waits in its lane and in the legacy queue. -/
def dual : Config where
  lanes := ["f"]
  laneWriteMode := .dual

/-- A task of node type `f`. -/
def task (id : AssignmentID) : Assignment where
  assignmentID := id
  routing := { nodeType := "f" }

/-- The registration of a runner for node type `f`. -/
def runner (id : String) : RegisterRunnerRequest where
  runnerID := id
  capacity := 2
  capabilities := [{ nodeType := "f" }]

/-- Maps are walked as they were written. -/
def rank : String → Nat := fun _ => 0

/-- A runner registers and claims the one task that is queued. -/
def claiming : List (Operation × Int) :=
  [(.register (runner "r1") "s1" rank, 1),
    (.enqueueAssignment (task "a"), 2),
    (.claimForRunner { runnerID := "r1", sessionID := "s1" } "c1" rank, 3)]

end Sample

/-- A task that waits in two queues is claimed once: its other copy is refused and not taken. -/
theorem dual_write_claimed_once :
  ∃ d, exec (step Sample.dual) Sample.claiming ∅ = some d ∧
    d.queues.holds Sample.dual "a" ∧ d.Holds "a" (.claim "c1" "r1") ∧
    (∀ holder, d.Holds "a" holder → holder = .claim "c1" "r1") ∧
    (d.enqueueAssignment Sample.dual (Sample.task "a") 4).2.toOption = some false ∧
    (d.claimForRunner Sample.dual { runnerID := "r1", sessionID := "s1" } "c2" 4
      Sample.rank).1.claims = d.claims
  := by
  obtain ⟨d, reached, queued, claimed, refused, none⟩ := @exists_exec _ _
    (step Sample.dual) (fun d => d.queues.holds Sample.dual "a" ∧
      (d.claims.get "c1").any (fun claim =>
        claim.runnerID = "r1" ∧ claim.assignment.assignmentID = "a") ∧
      (d.enqueueAssignment Sample.dual (Sample.task "a") 4).2.toOption = some false ∧
      (d.claimForRunner Sample.dual { runnerID := "r1", sessionID := "s1" } "c2" 4
        Sample.rank).2.toOption = some none) _ ∅ Sample.claiming (by decide)
  obtain ⟨claim, found, of⟩ := (any_eq_true _ _).mp claimed
  have holds : d.Holds "a" (.claim "c1" "r1") := ⟨claim, found, of_decide_eq_true of⟩
  obtain ⟨exclusive, takes, -⟩ := one_holder
    (Transition.Run.of_exec reached : Reachable Sample.dual d)
  refine ⟨d, reached, queued, holds, fun holder other => exclusive _ _ _ other holds, refused, ?_⟩
  obtain ⟨-, same⟩ | ⟨name, assignment, -, taken, -⟩ :=
    takes { runnerID := "r1", sessionID := "s1" } "c2" 4 Sample.rank _ rfl
  · exact same
  · rw [taken] at none
    cases none

end MemoryRunnerDirectory

end Xflow.Directory
