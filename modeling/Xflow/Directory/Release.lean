import Xflow.Directory.Holders

/-!
# Releasing leases

A map node and its batches share the identity of one lease, so a request to release one of them says
which by its assignment.  As long as every request is resolved to the assignment that it names, a
sequence of requests releases the assignments that they name and no sibling.
-/

namespace Xflow.Directory

open List Option Records RunnerState Table Transition

/-! ### What a request names -/

/-- The request names this lease of an assignment of a runner. -/
def ReleaseLeasedRequest.names (req : ReleaseLeasedRequest) (runnerID : String) (id : AssignmentID)
    (lease : TaskLease) : Bool :=
  req.runnerID = runnerID ∧ req.assignmentID = id ∧ matchesReleasedLease lease req

namespace Records

variable {recs : Records}

/-- One handoff of the lease goes, if there is one. -/
theorem deleteFinalizedHandoff_cases (ledgered : recs.Ledgered) (rank : String → Nat)
    (id : AssignmentID) (leaseID : LeaseID) (leaseToken : LeaseToken) :
  recs.deleteFinalizedHandoff rank id leaseID leaseToken = recs ∧
      recs.debt id leaseID leaseToken = 0 ∨
    ∃ c handoff, recs.handoffs.get c = some handoff ∧ handoff.assignment.assignmentID = id ∧
      handoff.settles leaseID leaseToken ∧
      recs.deleteFinalizedHandoff rank id leaseID leaseToken = recs.deleteHandoff c id
  := by
  unfold deleteFinalizedHandoff
  split
  case h_1 c first =>
    have mem := (perm_insertionSort _ _).mem_iff.mp (mem_of_find?_eq_some first)
    obtain ⟨handoff, found, of⟩ := (ledgered.indexed c id).mp mem
    grind
  case h_2 none =>
    refine .inl ⟨rfl, ?_⟩
    by_contra some_
    obtain ⟨c, handoff, found, settles⟩ := count_pos.mp (Nat.pos_of_ne_zero some_)
    obtain ⟨of, settles⟩ := of_decide_eq_true settles
    have mem := (perm_insertionSort (fun a b => rank a ≤ rank b) _).mem_iff.mpr
      ((ledgered.indexed c id).mpr ⟨handoff, found, of⟩)
    have not := find?_eq_none.mp none c mem
    rw [found] at not
    exact not settles

/-- `SettleFinalizedHandoff` takes one entry of the debt. -/
theorem debt_deleteFinalizedHandoff (ledgered : recs.Ledgered) (rank : String → Nat)
    (id : AssignmentID) (leaseID : LeaseID) (leaseToken : LeaseToken) :
  (recs.deleteFinalizedHandoff rank id leaseID leaseToken).debt id leaseID leaseToken =
    recs.debt id leaseID leaseToken - 1
  := by
  obtain ⟨same, zero⟩ | ⟨c, handoff, found, of, settles, deleted⟩ :=
    deleteFinalizedHandoff_cases ledgered rank id leaseID leaseToken
  · rw [same, zero]
  · have counted : recs.debt id leaseID leaseToken = _ := (count_drop found).symm
    rw [deleted, counted, of, settles]
    simp only [and_self, decide_true, if_true]
    rfl

end Records

namespace MemoryRunnerDirectory

variable {cfg : Config} {d : MemoryRunnerDirectory}

/-- The request is resolved to the assignment that it names, as it is while this assignment is
finalized under the lease that the request names (`direct_of_finalized`). -/
def direct (d : MemoryRunnerDirectory) (req : ReleaseLeasedRequest) : Bool :=
  (d.runners.get req.runnerID).all (fun state =>
    state.resolveAssignmentID req = some req.assignmentID)

/-- The directory after a sequence of requests, each with the order in which maps are walked. -/
def releaseAll (cfg : Config) (d : MemoryRunnerDirectory) :
    List (ReleaseLeasedRequest × (String → Nat)) → MemoryRunnerDirectory
  | [] => d
  | (req, rank) :: reqs => releaseAll cfg (d.releaseLeased cfg req rank).1 reqs

/-- Each request of a sequence is resolved, when it comes, to the assignment that it names. -/
def directAll (cfg : Config) (d : MemoryRunnerDirectory) :
    List (ReleaseLeasedRequest × (String → Nat)) → Bool
  | [] => true
  | (req, rank) :: reqs => d.direct req && directAll cfg (d.releaseLeased cfg req rank).1 reqs

/-- The request of a sequence that releases a lease: the first that names it. -/
def releasing (reqs : List (ReleaseLeasedRequest × (String → Nat))) (runnerID : String)
    (id : AssignmentID) (lease : TaskLease) : Option ReleaseLeasedRequest :=
  (reqs.map (·.1)).find? (·.names runnerID id lease)

variable {req : ReleaseLeasedRequest}

/-! ### Sequences of requests -/

/-- The requests of a sequence release the lease. -/
def Released (d : MemoryRunnerDirectory) (reqs : List (ReleaseLeasedRequest × (String → Nat)))
    (runnerID : String) (id : AssignmentID) (lease : TaskLease) : Prop :=
  d.leaseOf runnerID id = some lease ∧ (releasing reqs runnerID id lease).isSome

/-- The requests of a sequence have released the leases that they name, and nothing else. -/
structure ReleasesNamed (d after : MemoryRunnerDirectory)
    (reqs : List (ReleaseLeasedRequest × (String → Nat))) : Prop where
  /-- The leases that are left are those that no request names. -/
  leases : ∀ r id, after.leaseOf r id =
    (d.leaseOf r id).filter (fun lease => (releasing reqs r id lease).isNone)
  /-- Nothing is leased any more of which the lease was released. -/
  assignments : ∀ r id, after.leasedOf r id =
    if (d.leaseOf r id).any (fun lease => (releasing reqs r id lease).isSome) then none
    else d.leasedOf r id
  /-- The claims and the capacity of every runner are as they were. -/
  capacity : ∀ r, (after.runners.get r).map (fun state => (state.snapshot, state.activeClaims)) =
    (d.runners.get r).map (fun state => (state.snapshot, state.activeClaims))
  /-- A mark is removed if the request that releases the lease of the assignment says so. -/
  seen : ∀ id, id ∈ after.seen ↔ id ∈ d.seen ∧ ∀ r lease req, d.leaseOf r id = some lease →
    releasing reqs r id lease = some req → req.removeSeen = false
  /-- No handoff is new. -/
  kept : ∀ c handoff, after.handoffs.get c = some handoff → d.handoffs.get c = some handoff
  /-- A handoff that is gone was of a lease that was released. -/
  gone : ∀ c handoff, d.handoffs.get c = some handoff → after.handoffs.get c = some handoff ∨
    ∃ r lease, d.Released reqs r handoff.assignment.assignmentID lease ∧
      handoff.settles lease.leaseID lease.leaseToken
  /-- Of the handoffs of a lease that was released one is gone. -/
  settled : ∀ r id lease, d.Released reqs r id lease →
    after.debt id lease.leaseID lease.leaseToken = d.debt id lease.leaseID lease.leaseToken - 1

variable {after : MemoryRunnerDirectory} {reqs : List (ReleaseLeasedRequest × (String → Nat))}
  {id : AssignmentID}

theorem ReleasesNamed.untouched (named : d.ReleasesNamed after reqs) {leaseID : LeaseID}
    {leaseToken : LeaseToken}
    (none : ∀ r lease, d.Released reqs r id lease →
      ¬ (lease.leaseID = leaseID ∧ lease.leaseToken = leaseToken)) :
  after.debt id leaseID leaseToken = d.debt id leaseID leaseToken
  := by
  apply le_antisymm
  · exact count_le_count fun c handoff found h => ⟨handoff, named.kept c handoff found, h⟩
  · refine count_le_count fun c handoff found h => ⟨handoff, ?_, h⟩
    obtain ⟨rfl, settles⟩ := of_decide_eq_true h
    obtain there | ⟨r, lease, released, other⟩ := named.gone c handoff found
    · exact there
    · refine absurd ?_ (none r lease released)
      simp only [MemoryHandoff.settles, decide_eq_true_eq] at settles other
      obtain ⟨recorded, found, same⟩ := (any_eq_true _ _).mp settles.2
      grind

theorem releasing_append (reqs rest : List (ReleaseLeasedRequest × (String → Nat))) (r : String)
    (id : AssignmentID) (lease : TaskLease) :
  releasing (reqs ++ rest) r id lease = (releasing reqs r id lease).or (releasing rest r id lease)
  := by
  simp [releasing]

theorem ReleasesNamed.trans {between : MemoryRunnerDirectory}
    {rest : List (ReleaseLeasedRequest × (String → Nat))} (exclusive : d.Exclusive)
    (first : d.ReleasesNamed between reqs) (second : between.ReleasesNamed after rest) :
  d.ReleasesNamed after (reqs ++ rest)
  := by
  have left : ∀ r id lease, between.leaseOf r id = some lease ↔
      d.leaseOf r id = some lease ∧ releasing reqs r id lease = none := by
    intro r id lease
    rw [first.leases, filter_eq_some_iff, isNone_iff_eq_none]
  -- a lease is released by the requests that come first, or is left and released by the rest
  have split : ∀ r id lease req,
      d.leaseOf r id = some lease ∧ releasing (reqs ++ rest) r id lease = some req ↔
        d.leaseOf r id = some lease ∧ releasing reqs r id lease = some req ∨
          between.leaseOf r id = some lease ∧ releasing rest r id lease = some req := by
    intro r id lease req
    rw [left, releasing_append, or_eq_some_iff, and_or_left, and_assoc]
  have released {r id lease} : d.Released (reqs ++ rest) r id lease ↔
      d.Released reqs r id lease ∨ between.Released rest r id lease := by
    simp only [Released, isSome_iff_exists, ← exists_and_left, split, exists_or]
  -- an assignment of which a lease was released is not leased any more
  have apart {r r' id lease lease'} (gone : d.Released reqs r id lease) :
      between.leaseOf r' id ≠ some lease' := by
    intro leased
    obtain ⟨held, none⟩ := (left _ _ _).mp leased
    cases exclusive (holds_of_leaseOf gone.1) (holds_of_leaseOf held)
    cases gone.1.symm.trans held
    have some_ := gone.2
    rw [none] at some_
    cases some_
  constructor
  case leases =>
    intro r id
    rw [second.leases, first.leases, Option.filter_filter]
    congr 1
    funext lease
    rw [releasing_append]
    cases releasing reqs r id lease <;> simp
  case assignments =>
    intro r id
    rw [second.assignments, first.assignments, first.leases]
    cases leased : d.leaseOf r id with
    | none => simp
    | some lease =>
      simp only [releasing_append]
      obtain early | ⟨req, early⟩ := eq_none_or_eq_some (releasing reqs r id lease)
      · simp [early]
      · simp [early]
  case capacity => exact fun r => (second.capacity r).trans (first.capacity r)
  case seen =>
    intro id
    simp only [second.seen, first.seen, and_assoc, ← and_imp, split, or_imp, forall_and]
  case kept => exact fun c handoff found => first.kept c handoff (second.kept c handoff found)
  case gone =>
    intro c handoff found
    have early := first.gone c handoff found
    have late := second.gone c handoff
    grind
  case settled =>
    intro r id lease gone
    rcases released.mp gone with early | late
    · rw [← first.settled r id lease early]
      exact second.untouched fun r' lease' late _ => apart early late.1
    · rw [second.settled r id lease late]
      rw [first.untouched fun r' lease' early _ => apart early late.1]

theorem releasesNamed_of_none
    (none : ∀ r id lease, d.leaseOf r id = some lease → releasing reqs r id lease = none) :
  d.ReleasesNamed d reqs
  where
  leases r id := by
    cases leased : d.leaseOf r id with
    | none => rfl
    | some lease => simp [filter_some, none r id lease leased]
  assignments r id := by
    cases leased : d.leaseOf r id with
    | none => simp
    | some lease => simp [none r id lease leased]
  capacity _ := rfl
  seen id := by
    refine ⟨fun mem => ⟨mem, fun r lease req leased some_ => ?_⟩, And.left⟩
    rw [none r id lease leased] at some_
    cases some_
  kept _ _ found := found
  gone _ _ found := .inl found
  settled r id lease released := by
    have some_ := released.2
    rw [none r id lease released.1] at some_
    cases some_

theorem releasing_single (req : ReleaseLeasedRequest) (rank : String → Nat) (r : String)
    (id : AssignmentID) (lease : TaskLease) :
  releasing [(req, rank)] r id lease = if req.names r id lease then some req else none
  := by
  unfold releasing
  rw [map_singleton, find?_singleton]

variable {state : RunnerState} {lease : TaskLease}

/-- The lease of a request goes, and with it what is recorded for it. -/
theorem releasesNamed_of_drop {rank : String → Nat} (sound : d.Sound)
    (found : d.runners.get req.runnerID = some state)
    (leased : state.finalizedLease.get req.assignmentID = some lease)
    (matched : matchesReleasedLease lease req)
    (records : after.toRecords =
      (d.dropLease req.runnerID state req.assignmentID lease).deleteFinalizedHandoff rank
        req.assignmentID lease.leaseID lease.leaseToken)
    (seen : after.seen = if req.removeSeen then d.seen.erase req.assignmentID else d.seen) :
  d.ReleasesNamed after [(req, rank)]
  := by
  have here : d.leaseOf req.runnerID req.assignmentID = some lease := by
    rw [leaseOf, found, bind_some, leased]
  have names : ∀ r id other, d.leaseOf r id = some other →
      releasing [(req, rank)] r id other =
        if r = req.runnerID ∧ id = req.assignmentID then some req else none := by
    intro r id other held
    rw [releasing_single]
    by_cases self : r = req.runnerID ∧ id = req.assignmentID
    · obtain ⟨rfl, rfl⟩ := self
      rw [here] at held
      cases held
      simp [ReleaseLeasedRequest.names, matched]
    · rw [if_neg self, if_neg]
      intro names
      obtain ⟨one, two, -⟩ := of_decide_eq_true names
      exact self ⟨one.symm, two.symm⟩
  have runners : after.runners =
      (d.dropLease req.runnerID state req.assignmentID lease).runners := by
    rw [records, deleteFinalizedHandoff]
    split <;> rfl
  have ledgered : (d.dropLease req.runnerID state req.assignmentID lease).Ledgered :=
    (sound.dropLease found).ledgered
  have ledger := deleteFinalizedHandoff_cases ledgered rank req.assignmentID lease.leaseID
    lease.leaseToken
  rw [← records] at ledger
  constructor
  case leases =>
    intro r id
    have now : after.leaseOf r id =
        if r = req.runnerID ∧ id = req.assignmentID then none else d.leaseOf r id := by
      grind [dropLease, leaseOf, removeLease_finalizedLease]
    cases held : d.leaseOf r id <;> grind
  case assignments =>
    intro r id
    have now : after.leasedOf r id =
        if r = req.runnerID ∧ id = req.assignmentID then none else d.leasedOf r id := by
      grind [dropLease, leasedOf, removeLease_leasedAssignments]
    cases held : d.leaseOf r id <;> grind
  case capacity =>
    intro r
    rw [runners]
    change ((d.runners.put req.runnerID _).get r).map _ = _
    rw [get_put]
    split
    case isTrue self =>
      rw [self, found]
      rfl
    case isFalse => rfl
  case seen =>
    grind
  case kept =>
    intro c handoff there
    obtain ⟨same, -⟩ | ⟨c', handoff', -, -, -, deleted⟩ := ledger
    · rwa [same] at there
    · rw [deleted] at there
      exact (get_drop_eq_some.mp there).2
  case gone =>
    intro c handoff there
    obtain ⟨same, -⟩ | ⟨c', handoff', there', of, settles, deleted⟩ := ledger
    · rw [same]
      exact .inl there
    · rw [deleted]
      by_cases self : c = c'
      · subst self
        cases there.symm.trans there'
        refine .inr ⟨req.runnerID, lease, ⟨?_, ?_⟩, settles⟩
        · rw [of, here]
        · rw [of, names _ _ _ here, if_pos ⟨rfl, rfl⟩]
          rfl
      · exact .inl (get_drop_eq_some.mpr ⟨self, there⟩)
  case settled =>
    rintro r id other ⟨held, releases⟩
    obtain ⟨rfl, rfl⟩ : r = req.runnerID ∧ id = req.assignmentID := by grind
    cases here.symm.trans held
    rw [records, debt_deleteFinalizedHandoff ledgered]
    rfl

theorem releaseLeased_named {rank : String → Nat} (sound : d.Sound) (direct : d.direct req) :
  d.ReleasesNamed (d.releaseLeased cfg req rank).1 [(req, rank)]
  := by
  have unnamed (mismatch : ∀ lease, d.leaseOf req.runnerID req.assignmentID = some lease →
      matchesReleasedLease lease req = false) : d.ReleasesNamed d [(req, rank)] := by
    refine releasesNamed_of_none fun r id lease leased => ?_
    rw [releasing_single, if_neg]
    intro names
    obtain ⟨rfl, rfl, matched⟩ := of_decide_eq_true names
    rw [mismatch lease leased] at matched
    cases matched
  unfold releaseLeased
  split
  case h_1 absent => exact unnamed (by simp [leaseOf, absent])
  case h_2 state found =>
    -- the request is resolved to the assignment that it names
    rw [MemoryRunnerDirectory.direct, found, all_some, decide_eq_true_eq] at direct
    rw [direct]
    dsimp only
    split
    case h_1 none =>
      apply unnamed
      intro lease leased
      rw [leaseOf, found, bind_some] at leased
      rw [leased] at none
      simpa using none
    case h_2 lease kept =>
      obtain ⟨leased, matched⟩ := filter_eq_some_iff.mp kept
      apply releasesNamed_of_drop sound found leased matched <;> cases req.removeSeen <;> rfl

theorem releaseAll_named (sound : d.Sound) (direct : d.directAll cfg reqs) :
  d.ReleasesNamed (d.releaseAll cfg reqs) reqs
  := by
  induction reqs generalizing d with
  | nil => exact releasesNamed_of_none fun _ _ _ _ => rfl
  | cons head reqs ih =>
    obtain ⟨req, rank⟩ := head
    obtain ⟨first, rest⟩ := Bool.and_eq_true_iff.mp direct
    exact (releaseLeased_named sound first).trans sound.exclusive
      (ih (sound.change (releaseLeased_change req rank)) rest)

/-! ### Finding a lease -/

section

variable {r : String} (found : d.runners.get r = some state)
  (leased : state.finalizedLease.get id = some lease) (rank : String → Nat)

include found leased

theorem direct_of_finalized (runner : req.runnerID = r) (own : req.assignmentID = id)
    (named : id ≠ "") (matched : matchesReleasedLease lease req) :
  d.direct req
  := by
  subst runner own
  unfold direct resolveAssignmentID
  grind

theorem lookupLease_own (named : id ≠ "") :
  d.lookupLease r state.sessionID
    { assignmentID := id, leaseID := lease.leaseID, leaseToken := lease.leaseToken } rank =
      some lease
  := by
  have matched : matchesReleasedLease lease
      { runnerID := r, assignmentID := id, leaseID := lease.leaseID,
        leaseToken := lease.leaseToken } := by
    simp [matchesReleasedLease]
  have resolved := direct_of_finalized found leased rfl rfl named matched
  rw [direct, found, all_some, decide_eq_true_eq] at resolved
  simp [lookupLease, found, resolved, leased, matched, filter_some]

theorem lookupLease_identity (identity : lease.leaseID ≠ "" ∨ lease.leaseToken ≠ "") :
  ∃ other, d.lookupLease r state.sessionID
      { leaseID := lease.leaseID, leaseToken := lease.leaseToken } rank = some other ∧
    LeaseLookupKey.identifies { leaseID := lease.leaseID, leaseToken := lease.leaseToken } other
  := by
  have identifies (other : TaskLease) : LeaseLookupKey.identifies
      { leaseID := lease.leaseID, leaseToken := lease.leaseToken } other =
        matchesReleasedLease other
          { runnerID := r, leaseID := lease.leaseID, leaseToken := lease.leaseToken } := by
    rcases identity with named | named <;>
      simp [LeaseLookupKey.identifies, matchesReleasedLease, named]
  unfold lookupLease
  rw [found]
  simp only [ne_eq, not_true_eq_false, if_false]
  split
  case h_1 current kept =>
    obtain ⟨matched, -⟩ := of_decide_eq_true (filter_eq_some_iff.mp kept).2
    exact ⟨current, rfl, (identifies current).trans matched⟩
  case h_2 =>
    have mem : lease ∈ (state.finalizedLease.walk rank).map (·.2) :=
      mem_map.mpr ⟨(id, lease), mem_walk.mpr leased, rfl⟩
    -- a batch is preferred to its map node, and both have the identity
    cases batch : ((state.finalizedLease.walk rank).map (·.2)).find? (fun other =>
        LeaseLookupKey.identifies { leaseID := lease.leaseID, leaseToken := lease.leaseToken }
          other ∧ other.subgraphPayload) with
    | some other =>
      have both := find?_some batch
      rw [decide_eq_true_eq] at both
      exact ⟨other, by simp, both.1⟩
    | none =>
      obtain ⟨other, first⟩ := isSome_iff_exists.mp
        (find?_isSome.mpr ⟨lease, mem, (identifies lease).trans (by simp [matchesReleasedLease])⟩)
      exact ⟨other, by simp [first], find?_some first⟩

end

/-! ### Siblings -/

/-- A sequence of requests that are resolved to the assignments that they name releases what they
name and no sibling, and every lease that is left is found through its identity. -/
theorem release_spares_siblings (reachable : Reachable cfg d) (direct : d.directAll cfg reqs) :
  d.ReleasesNamed (d.releaseAll cfg reqs) reqs ∧
    ∀ r state id lease rank, (d.releaseAll cfg reqs).runners.get r = some state →
      state.finalizedLease.get id = some lease → lease.leaseID ≠ "" ∨ lease.leaseToken ≠ "" →
      (∃ other, (d.releaseAll cfg reqs).lookupLease r state.sessionID
          { leaseID := lease.leaseID, leaseToken := lease.leaseToken } rank = some other ∧
        LeaseLookupKey.identifies
          { leaseID := lease.leaseID, leaseToken := lease.leaseToken } other) ∧
      (id ≠ "" → (d.releaseAll cfg reqs).lookupLease r state.sessionID
        { assignmentID := id, leaseID := lease.leaseID, leaseToken := lease.leaseToken } rank =
          some lease)
  := by
  refine ⟨releaseAll_named reachable.sound direct, ?_⟩
  intro r state id lease rank found leased identity
  refine ⟨lookupLease_identity found leased rank identity, fun named => ?_⟩
  exact lookupLease_own found leased rank named

namespace Sample

/-- The lease that a map node and its batch share. -/
def shared (batch : Bool) : TaskLease where
  leaseID := "L1"
  leaseToken := "tok"
  nodeName := if batch then "m/_batch/0" else "m"
  subgraphPayload := batch

/-- A map node `m` and its batch `b` are claimed by one runner and finalized with one lease. -/
def sharing : List (Operation × Int) :=
  [(.register (runner "r1") "s1" rank, 1),
    (.enqueueAssignment (task "m"), 2),
    (.enqueueAssignment (task "b"), 2),
    (.claimForRunner { runnerID := "r1", sessionID := "s1" } "c1" rank, 3),
    (.claimForRunner { runnerID := "r1", sessionID := "s1" } "c2" rank, 3),
    (.finalizeClaim "c1" (some (shared false)), 4),
    (.finalizeClaim "c2" (some (shared true)), 4)]

/-- The request to release the map node. -/
def releaseMap (removeSeen : Bool) : ReleaseLeasedRequest where
  runnerID := "r1"
  assignmentID := "m"
  leaseID := "L1"
  leaseToken := "tok"
  removeSeen := removeSeen

end Sample

/-- The map node is released: its batch keeps its lease, its mark and its handoff, and is found. -/
theorem batch_spared :
  ∃ d, exec (step {}) Sample.sharing ∅ = some d ∧
    let after := d.releaseAll {} [(Sample.releaseMap true, Sample.rank)]
    after.leaseOf "r1" "m" = none ∧ "m" ∉ after.seen ∧
      after.leaseOf "r1" "b" = some (Sample.shared true) ∧ "b" ∈ after.seen ∧
      after.debt "m" "L1" "tok" = 0 ∧ after.debt "b" "L1" "tok" = 1 ∧
      after.lookupLease "r1" "s1" { leaseID := "L1", leaseToken := "tok" } Sample.rank =
        some (Sample.shared true)
  := by
  obtain ⟨d, reached, direct, map, spared⟩ := @exists_exec _ _ (step {})
    (fun d => d.directAll {} [(Sample.releaseMap true, Sample.rank)] ∧
      d.leaseOf "r1" "m" = some (Sample.shared false) ∧
      let after := d.releaseAll {} [(Sample.releaseMap true, Sample.rank)]
      "m" ∉ after.seen ∧ after.leaseOf "r1" "b" = some (Sample.shared true) ∧ "b" ∈ after.seen ∧
        after.debt "m" "L1" "tok" = 0 ∧ after.debt "b" "L1" "tok" = 1 ∧
        after.lookupLease "r1" "s1" { leaseID := "L1", leaseToken := "tok" } Sample.rank =
          some (Sample.shared true)) _ ∅ Sample.sharing (by decide)
  obtain ⟨named, -⟩ := release_spares_siblings
    (Transition.Run.of_exec reached : Reachable {} d) direct
  refine ⟨d, reached, ?_, spared⟩
  rw [named.leases, map]
  decide

/-- A request that keeps the mark of its assignment releases it and leaves the mark, and a request
that is repeated releases the sibling of its assignment. -/
theorem release_keeps_mark_and_repeats :
  ∃ d, exec (step {}) Sample.sharing ∅ = some d ∧
    d.leaseOf "r1" "m" = some (Sample.shared false) ∧
    d.leaseOf "r1" "b" = some (Sample.shared true) ∧
    ((d.releaseAll {} [(Sample.releaseMap false, Sample.rank)]).leaseOf "r1" "m" = none ∧
      "m" ∈ (d.releaseAll {} [(Sample.releaseMap false, Sample.rank)]).seen) ∧
    ((d.releaseAll {} [(Sample.releaseMap true, Sample.rank),
        (Sample.releaseMap true, Sample.rank)]).leaseOf "r1" "b" = none ∧
      "b" ∉ (d.releaseAll {} [(Sample.releaseMap true, Sample.rank),
        (Sample.releaseMap true, Sample.rank)]).seen)
  := by
  apply exists_exec
  decide

end MemoryRunnerDirectory

end Xflow.Directory
