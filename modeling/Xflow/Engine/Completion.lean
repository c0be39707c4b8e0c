import Xflow.Engine.Accounting

/-!
# Completion

In every run the number of units that are left is the number of units without an applied commit, no
unit has two, and the execution leaves its running status at the first commit that is fatal or
closes the last unit.  An execution that is invoked on a member of a group is an exception: the
member is leased and committed as if it were a unit, and its group is committed once more.
-/

namespace Xflow

open Option Transition Xflow.System

/-- The applied commits are those of different units, and `remaining` counts the others. -/
structure CountsUnits (g : Topology) (σ : System) : Prop where
  units : ∀ c ∈ σ.log, g.isUnit c.unit
  once : (σ.log.map (·.unit)).Nodup
  remaining : σ.store.remaining = g.unitCount - σ.log.length
  nonneg : 0 ≤ σ.store.remaining

/-- From `σ` to `τ` nothing is counted, or one commit is applied to a running execution and ends it
if it is fatal or closes the last unit. -/
def CountsCommit (σ τ : System) : Prop :=
  (τ.log = σ.log ∧ τ.store.status? = σ.store.status? ∧ τ.store.remaining = σ.store.remaining ∧
    τ.store.failed = σ.store.failed) ∨
  σ.store.status? = some .running ∧ ∃ c, τ.log = σ.log ++ [c] ∧
    τ.store.status? = some (
      if c.fatal ∨ τ.store.remaining = 0 then
        if c.fatal ∨ τ.log.any (·.failed) then .failed else .success
      else .running)

namespace System

variable {g : Graph} {σ τ : System}

theorem Accounted.countsCommit (h : Accounted g σ.store σ.issued σ.log)
    (h' : Accounted g τ.store τ.issued τ.log)
    (hlog : τ.log = σ.log ∨
      ledgerStatus g σ.log = .running ∧ ∃ c, τ.log = σ.log ++ [c]) :
  CountsCommit σ τ
  := by
  rcases hlog with hsame | ⟨hrunning, c, hlog⟩
  · left
    rw [h'.status, h'.remaining, h'.failed, hsame, h.status, h.remaining, h.failed]
    exact ⟨rfl, rfl, rfl, rfl⟩
  · right
    refine ⟨by rw [h.status, hrunning], c, hlog, ?_⟩
    have hfatal : τ.log.any (·.fatal) = c.fatal := by
      simp [hlog, (ledgerStatus_eq_running.mp hrunning).1]
    have hne : τ.log ≠ [] := by simp [hlog]
    have hlast : τ.store.remaining = 0 ↔ (τ.log.length : Int) = g.unitCount := by
      rw [h'.remaining]
      omega
    rw [h'.status]
    simp [ledgerStatus, hfatal, hlast, hne]

theorem log_of_starts {start : System} (hstart : Starts g start) :
  start.log = []
  := by
  rcases hstart with ⟨_, _, _, rfl⟩ | ⟨_, _, _, _, _, -, -, hinvoke⟩
  · rfl
  · obtain ⟨_, -, rfl⟩ := map_eq_some_iff.mp hinvoke
    rfl

section

variable {begin : System} {C : Action → System → Prop} (hacyc : g.allowCycles = false)
  (haccounted : Accounted g.toTopology begin.store begin.issued begin.log)
  (hrun : Run (step g.toTopology) C begin σ)

include hacyc haccounted hrun

theorem Accounted.run :
  Accounted g σ.store σ.issued σ.log
  := by
  apply hrun.invariant (I := fun σ => Accounted g σ.store σ.issued σ.log) haccounted
  intro a σ τ h _ hstep
  apply (accounted_step hacyc h hstep).1

theorem Accounted.run_running {I : System → Prop} (hbegin : I begin)
    (hkeep : ∀ a σ τ, I σ → C a σ → Accounted g σ.store σ.issued σ.log →
      σ.store.status? = some .running → step g a σ = some τ →
      τ.store.status? = some .running → I τ)
    (hrunning : σ.store.status? = some .running) :
  I σ
  := by
  have hinv : Accounted g σ.store σ.issued σ.log ∧
      (σ.store.status? = some .running → I σ) := by
    apply hrun.invariant (I := fun σ => Accounted g σ.store σ.issued σ.log ∧
      (σ.store.status? = some .running → I σ))
    · exact ⟨haccounted, fun _ => hbegin⟩
    · rintro a σ τ ⟨haccounted, hold⟩ hcond hstep
      obtain ⟨hnext, hgrows⟩ := accounted_step hacyc haccounted hstep
      use hnext
      intro hafter
      have hbefore : σ.store.status? = some .running := by
        rcases haccounted.countsCommit hnext hgrows with ⟨-, hsame, -⟩ | ⟨hbefore, -⟩
        · rw [← hsame, hafter]
        · exact hbefore
      exact hkeep a σ τ (hold hbefore) hcond haccounted hbefore hstep hafter
  exact hinv.2 hrunning

end

theorem accounted_run {start : System} {C : Action → System → Prop}
    (hacyc : g.allowCycles = false) (hstart : Starts g start)
    (hrun : Run (step g) C start σ) :
  Accounted g σ.store σ.issued σ.log
  := by
  apply (accounted_of_starts hacyc hstart).run hacyc hrun

end System

/-- In every run that starts with all roots, or with an entry that is a unit of its own, each unit
has one applied commit at most, `remaining` counts the units without one, and the execution is
running until the first commit that is fatal or closes the last unit, and unchanged after it. -/
theorem completion_accounted (g : Graph) (hacyc : g.allowCycles = false) {start σ : System}
    (hstart : Starts g.toTopology start)
    (hrun : Run (step g.toTopology) (fun _ _ => True) start σ) :
  start.store.status? = some .running ∧ CountsUnits g.toTopology σ ∧
    ∀ a τ, step g.toTopology a σ = some τ → CountsCommit σ τ
  := by
  have haccounted := accounted_run hacyc hstart hrun
  refine ⟨?_, { haccounted with once := haccounted.nodup, nonneg := ?_ }, ?_⟩
  · have hbegin := accounted_of_starts hacyc hstart
    rw [hbegin.status, log_of_starts hstart]
    simp [ledgerStatus]
  · have hle := haccounted.toLedger.length_le
    rw [haccounted.remaining]
    omega
  · intro a τ hstep
    obtain ⟨hnext, hgrows⟩ := accounted_step hacyc haccounted hstep
    apply haccounted.countsCommit hnext hgrows

/-- A group of a trigger and an action, and a node that follows the group. -/
def triggerInGroup : Graph where
  nodes := [{ name := "t", kind := .trigger }, { name := "m" }, { name := "b" }]
  edges := [{ srcIdx := 0, dstIdx := 1, srcPort := "main" },
    { srcIdx := 1, dstIdx := 2, srcPort := "main" }]
  groups := [{ name := "pair", members := [0, 1], entryIdx := 0 }]

/-- The offer of the one runner. -/
def soleClaim : Claim where
  leaseID := "lease"
  leaseToken := "token"
  issuedAt := 0
  ttl := 0

/-- The credentials of its first lease. -/
def soleKey : LeaseKey where
  leaseID := "lease"
  leaseToken := "token"
  attempt := 1

/-- The group runs and fires its boundary output. -/
def pairRuns : List Action :=
  [.commitGroup 1 soleKey
    { outcome := .success, exits := [{ nodeName := "m", port := "main" }] } []]

/-- The trigger is leased and committed, which schedules its own group; then the group runs. -/
def triggerRuns : List Action :=
  [.deliver (initialOutboxID "e" "t" 1) soleClaim,
    .commitNode { nodeName := "t", nodeIdx := 0, type := .nodeExec, activationID := 1 } soleKey
      { status := .success, port := "main" },
    .deliver (executeOutboxID "e" "m" 1) soleClaim] ++ pairRuns

/-- Invoked on the trigger, the group is counted twice, and the execution succeeds while the node
that follows was never run. -/
theorem triggerInGroup_counted_twice :
  ∃ start σ, invoke triggerInGroup.toTopology "e" false false "t" = some start ∧
    Run (step triggerInGroup.toTopology) (fun _ _ => True) start σ ∧
    σ.store.status? = some .success ∧ (σ.store.nodes "b").isNone ∧
    ¬ CountsUnits triggerInGroup.toTopology σ
  := by
  have hend : ((invoke triggerInGroup "e" false false "t").bind
      (exec (step triggerInGroup) triggerRuns)).map
        (fun σ => (σ.store.status?, (σ.store.nodes "b").isNone, σ.log.map (·.unit)))
      = some (some .success, true, [1, 1]) := by
    decide
  obtain ⟨σ, hσ, hfinal⟩ := map_eq_some_iff.mp hend
  obtain ⟨start, hstart, hexec⟩ := bind_eq_some_iff.mp hσ
  simp only [Prod.mk.injEq] at hfinal
  refine ⟨start, σ, hstart, Run.of_exec hexec, hfinal.1, hfinal.2.1, ?_⟩
  intro hcounts
  have honce := hcounts.once
  rw [hfinal.2.2] at honce
  exact absurd honce (by decide)

/-- Submitted, the group is counted once. -/
theorem triggerInGroup_counted_once :
  ∃ σ, Run (step triggerInGroup.toTopology) (fun _ _ => True)
      (submit triggerInGroup.toTopology "e" false false) σ ∧
    σ.log.length = 1 ∧ CountsUnits triggerInGroup.toTopology σ ∧
    ∀ a τ, step triggerInGroup.toTopology a σ = some τ → CountsCommit σ τ
  := by
  refine exists_run_of (P := fun σ => σ.log.length = 1)
    (.deliver (initialOutboxID "e" "pair" 0) soleClaim :: pairRuns) (by decide) ?_
  intro σ hrun hlog
  use hlog
  apply (completion_accounted triggerInGroup rfl (.inl ⟨"e", false, false, rfl⟩) hrun).2

end Xflow
