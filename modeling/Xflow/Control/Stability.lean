import Xflow.Control.Reconciler

/-!
# A pass does not undo the last one

One reconciler runs one pass after the other over a store that nobody else writes, with runners that
stay the same.  After a pass every owner is a live runner with the capabilities that are required,
and no two replicas of an entry unit have the same one (`reconcile_placed`).

The next pass keeps an owner if its labels match the selector of the activation, and only then
(`reconcile_keeps_iff`): a runner that was chosen because the grace of a default selector was over
does not match, and is fenced by the next pass (`fallback_undone`).
-/

namespace Xflow.Control

open List MemoryEntryActivationStore Option PassView ReconcilerConfig

/-! ### A pass -/

/-- The runners that a directory lists, each once. -/
structure RunnerListing where
  snapshots : List RunnerSnapshot := []
  distinct : (snapshots.map (·.runnerID)).Nodup := by decide

namespace RunnerListing

variable (dir : RunnerListing)

def liveRunners (policy : SelectorPolicy) (now : Int) : List RunnerSnapshot :=
  (dir.snapshots.filter (fun snap => ! snap.draining && policy.isLive snap now)).insertionSort
    (fun a b => a.runnerID ≤ b.runnerID)

/-- The control state of a runner that is listed. -/
def control (runnerID : String) : Option RunnerControlState :=
  (dir.snapshots.find? (·.runnerID = runnerID)).bind (·.control)

/-- What the directory says of a runner that is to be fenced: nothing changes during a pass, so an
intent to clean up after a drain is not superseded. -/
def drainAnswer (runnerID : String) : DrainAnswer :=
  if (dir.control runnerID).any (fun control => control.desiredState = .draining) then .ensured
  else .none

/-- `recoverPendingDeactivationObligations`: the drain of a pending obligation was resumed, or its
owner is fenced, unless it already was. -/
def recoverPendingDeactivationObligations (pending : List DeactivationObligation) (s : PassState) :
    PassState :=
  pending.foldl (fun s obligation =>
    if ! fencePending s.store obligation then s
    else if (dir.control obligation.runnerID).any (fun control =>
        control.desiredState ≠ .draining ∨ control.generation ≠ obligation.drainGeneration) then s
    else s.fence obligation.key obligation.generation) s

end RunnerListing

namespace PassView

variable (view : PassView) (drain : String → DrainAnswer)

/-- The first phase of a pass: the state, and the activations with the owners that the pass takes
them to have. -/
def phaseOne : List EntryActivation → PassState → PassState × List EntryActivation
  | [], s => (s, [])
  | act :: rest, s =>
    let done := view.reconcileExisting (drain act.runnerID) act s
    let later := phaseOne rest done.1
    (later.1, { act with runnerID := done.2 } :: later.2)

/-- The second phase: desired activations without an owner. -/
def phaseTwo : List EntryActivation → PassState → PassState
  | [], s => s
  | act :: rest, s =>
    phaseTwo rest (if ¬ act.desired ∨ act.runnerID ≠ "" then s else view.assignUnowned act s)

end PassView

/-- What is there between passes. -/
structure Reconciler where
  store : MemoryEntryActivationStore := {}
  memory : ReconcilerMemory := {}
  pending : List DeactivationObligation := []

/-- What a pass finds besides the runners. -/
structure Occasion where
  now : Int
  hosted : String → Option HostedRunnerActivations := fun _ => none
  jitter : Int → Int := id

namespace Reconciler

variable (cfg : ReconcilerConfig) (dir : RunnerListing)

/-- What the pass reads. -/
def view (occ : Occasion) : PassView where
  cfg := cfg
  live := dir.liveRunners cfg.selector occ.now
  hosted := occ.hosted
  now := occ.now
  jitter := occ.jitter

/-- `Reconcile`: what is left, and what the pass did. -/
def reconcile (occ : Occasion) (r : Reconciler) : Reconciler × List Effect :=
  let recovered := dir.recoverPendingDeactivationObligations r.pending
    { store := r.store, memory := r.memory }
  let acts := cfg.activations recovered.store
  let one := (view cfg dir occ).phaseOne dir.drainAnswer acts recovered
  let two := (view cfg dir occ).phaseTwo one.2 one.1
  ({ store := two.store, memory := two.memory.prune (acts.map (·.key)) }, two.effects)

/-- The owner of an activation stays as it was: it is not fenced, and the only runners that are told
to stop are those that report the activation without being assigned it. -/
structure Kept (view : PassView) (rec : EntryActivation) (store : MemoryEntryActivationStore)
    (effects : List Effect) : Prop where
  owner : ∃ rec', store.get rec.key = some rec' ∧ rec'.runnerID = rec.runnerID ∧
    rec'.sessionID = rec.sessionID ∧ rec'.generation = rec.generation
  unfenced : ∀ generation, .fence rec.key generation ∉ effects
  deactivated : ∀ runnerID sessionID generation,
    .deactivate runnerID sessionID rec.key generation ∈ effects →
    ∃ snap ∈ view.live, view.foreignHost rec snap ∧ runnerID = snap.runnerID ∧
      sessionID = snap.sessionID

end Reconciler

/-! ### Frames -/

/-- Nothing happened to an activation: it is read as before, and no new effect is about it. -/
structure Untouched (key : EntryActivationKey) (s t : PassState) : Prop where
  get : t.store.get key = s.store.get key
  effects : ∀ e ∈ t.effects, e.key = key → e ∈ s.effects

namespace Untouched

variable {key : EntryActivationKey} {s t u : PassState}

theorem refl : Untouched key s s := ⟨rfl, fun _ mem _ => mem⟩

theorem trans (first : Untouched key s t) (second : Untouched key t u) : Untouched key s u where
  get := second.get.trans first.get
  effects e mem same := first.effects e (second.effects e mem same) same

end Untouched

/-- The activation that a pass has at hand is read like this from the store, except for a lease that
the pass removed or extended. -/
structure Mirrors (act rec : EntryActivation) : Prop where
  key : act.key = rec.key
  spec : act.toActivationSpec = rec.toActivationSpec
  runnerID : act.runnerID = rec.runnerID
  generation : act.generation = rec.generation

theorem Mirrors.above {act rec : EntryActivation} (mirrors : Mirrors act rec) :
  rec.generation < act.generation + 1
  := by
  rw [mirrors.generation]
  omega

namespace PassView

variable {view : PassView} {act rec : EntryActivation} {s t : PassState}

theorem Cleans.key {e : Effect} (cleans : view.Cleans act e) : e.key = act.key := by
  obtain ⟨snap, -, -, rfl⟩ := cleans
  rfl

/-- A lease that is extended stays with its owner. -/
theorem Keeps.get (kept : view.Keeps act s t) (found : s.store.get act.key = some act)
    (owned : act.runnerID ≠ "") :
  ∃ deadline, t.store.get act.key = some { act with leaseDeadline := deadline }
  := by
  rw [kept.store]
  split
  · rw [get_renew found rfl owned, if_pos rfl]
    exact ⟨_, rfl⟩
  · exact ⟨_, found⟩

variable {acts : List EntryActivation} {key : EntryActivationKey} {keys : List EntryActivationKey}

/-- A new effect is about the activation, and if that has no owner it tells another runner to stop.
-/
theorem reconcileExisting_effects {answer : DrainAnswer} {e : Effect}
    (mem : e ∈ (view.reconcileExisting answer act s).1.effects) :
  e ∈ s.effects ∨ e.key = act.key ∧ (act.runnerID ≠ "" ∨ view.Cleans act e)
  := by
  rcases @reconcileExisting_cases view act s answer _ rfl with
    ⟨owned, -, -, kept, -⟩ | ⟨owned, -, fences, -⟩ | ⟨-, leaves, -⟩
  · have new := kept.effects e mem
    grind [Cleans.key, Effect.key]
  · have new := fences.effects e mem
    grind [Cleans.key, Effect.key]
  · exact (leaves.effects e mem).imp_right fun cleans => ⟨cleans.key, .inr cleans⟩

theorem reconcileExisting_untouched (answer : DrainAnswer)
    (found : s.store.get act.key = some act) (ne : key ≠ act.key) :
  Untouched key s (view.reconcileExisting answer act s).1
  := by
  constructor
  case get =>
    rcases @reconcileExisting_cases view act s answer _ rfl with
      ⟨owned, -, -, kept, -⟩ | ⟨-, -, fences, -⟩ | ⟨-, leaves, -⟩
    · rw [kept.store]
      split
      · rw [get_renew found rfl owned, if_neg ne]
      · rfl
    · rw [fences.store, get_fence found, if_neg ne]
    · rw [leaves.store]
  case effects =>
    intro e mem eq
    refine (reconcileExisting_effects mem).resolve_right fun new => ne ?_
    exact eq.symm.trans new.1

theorem assignUnowned_untouched
    (found : s.store.get act.key = some rec) (mirrors : Mirrors act rec) (ne : key ≠ act.key) :
  Untouched key s (view.assignUnowned act s)
  := by
  rcases @assignUnowned_cases view act s with ⟨snap, assigns⟩ | ⟨store, -, effects⟩
  · constructor
    · rw [assigns.store, get_assign found mirrors.above, if_neg ne]
    · rw [assigns.effects]
      grind [Effect.key]
  · exact ⟨by rw [store], fun e mem _ => effects ▸ mem⟩

theorem reconcileExisting_mirrors {answer : DrainAnswer} (settled : answer.settled)
    (found : s.store.get act.key = some act) :
  ∃ rec, (view.reconcileExisting answer act s).1.store.get act.key = some rec ∧
    Mirrors { act with runnerID := (view.reconcileExisting answer act s).2 } rec
  := by
  rcases @reconcileExisting_cases view act s answer _ rfl with
    ⟨owned, -, -, kept, same⟩ | ⟨-, -, fences, gone⟩ | ⟨unowned, leaves, same⟩
  · obtain ⟨deadline, found⟩ := kept.get found owned
    rw [same]
    exact ⟨_, found, rfl, rfl, rfl, rfl⟩
  · rw [fences.store, gone settled]
    exact ⟨act.hold (act.fenced act.generation),
      by rw [get_fence found, if_pos rfl],
      rfl, rfl, rfl, (Nat.max_self act.generation).symm⟩
  · rw [leaves.store, same]
    exact ⟨act, found, rfl, rfl, rfl, rfl⟩

/-! ### Owners after a pass -/

/-- The owner is a live runner with the capabilities that are required, and got the activation as it
is desired.  Its labels match, unless the selector is a default. -/
structure Hosts (view : PassView) (rec : EntryActivation) : Prop where
  desired : rec.desired
  content : rec.assignedPackageHash = "" ∨ rec.assignedPackageHash = rec.packageHash
  runner : ∃ snap, view.live.find? (·.runnerID = rec.runnerID) = some snap ∧
    capabilitiesSatisfy rec snap ∧
    (selectorIsDefault rec.selector ∨ selectorMatches rec.selector snap.labels)

/-- The owners of these activations host them, and replicas have different ones. -/
structure Placed (view : PassView) (keys : List EntryActivationKey) (s : PassState) : Prop where
  hosts : ∀ key ∈ keys, ∀ rec, s.store.get key = some rec → rec.runnerID ≠ "" →
    view.Hosts rec ∧ (key.logical, rec.runnerID) ∈ s.owners
  apart : ∀ key ∈ keys, ∀ key' ∈ keys, key ≠ key' → key.logical = key'.logical →
    ∀ rec rec', s.store.get key = some rec → s.store.get key' = some rec' →
      rec.runnerID ≠ "" → rec.runnerID ≠ rec'.runnerID

/-- One activation is placed, apart from all that were placed before. -/
theorem Placed.update
    (h : view.Placed keys s)
    (frame : ∀ k ∈ keys, k ≠ key → t.store.get k = s.store.get k)
    (owners : ∀ pair ∈ s.owners, pair ∈ t.owners)
    (new : ∀ rec, t.store.get key = some rec → rec.runnerID ≠ "" →
      view.Hosts rec ∧ (key.logical, rec.runnerID) ∈ t.owners ∧
        (key.logical, rec.runnerID) ∉ s.owners) :
  view.Placed (key :: keys) t
  := by
  -- an earlier owner is recorded
  have old {k : EntryActivationKey} {rec : EntryActivation} (mem : k ∈ key :: keys) (ne : k ≠ key)
      (found : t.store.get k = some rec) (owned : rec.runnerID ≠ "") :
      view.Hosts rec ∧ (k.logical, rec.runnerID) ∈ s.owners := by
    have mem := (mem_cons.mp mem).resolve_left ne
    rw [frame k mem ne] at found
    exact h.hosts k mem rec found owned
  constructor
  case hosts => grind
  case apart =>
    intro k mem k' mem' ne logical rec rec' found found' owned eq
    by_cases same : k = key
    · have recorded := old mem' (same ▸ Ne.symm ne) found' (eq ▸ owned)
      grind
    · have recorded := old mem same found owned
      have apart := h.apart k ((mem_cons.mp mem).resolve_left same) k'
      grind

theorem Placed.subset {keys keys' : List EntryActivationKey} (h : view.Placed keys s)
    (sub : ∀ key ∈ keys', key ∈ keys) :
  view.Placed keys' s
  where
  hosts key mem := h.hosts key (sub key mem)
  apart key mem key' mem' := h.apart key (sub key mem) key' (sub key' mem')

theorem hosts_of_keeps (desired : act.desired) (keeps : view.keeps act s) :
  view.Hosts act ∧ (act.key.logical, act.runnerID) ∉ s.owners
  := by
  simp only [PassView.keeps, ownerSatisfiesDesired, Bool.and_eq_true, Bool.or_eq_true,
    decide_eq_true_eq] at keeps
  obtain ⟨⟨⟨-, content, runner⟩, fresh⟩, -⟩ := keeps
  obtain ⟨snap, found, both⟩ := (any_eq_true _ _).mp runner
  rw [Bool.and_eq_true] at both
  exact ⟨⟨desired, content, snap, found, both.2, .inr both.1⟩, fresh⟩

theorem Placed.existing {answer : DrainAnswer} (h : view.Placed keys s) (settled : answer.settled)
    (found : s.store.get act.key = some act) :
  view.Placed (act.key :: keys) (view.reconcileExisting answer act s).1
  := by
  have frame : ∀ k ∈ keys, k ≠ act.key →
      (view.reconcileExisting answer act s).1.store.get k = s.store.get k :=
    fun k _ ne => (reconcileExisting_untouched answer found ne).get
  rcases @reconcileExisting_cases view act s answer _ rfl with
    ⟨owned, desired, keeps, kept, -⟩ | ⟨-, -, fences, -⟩ | ⟨unowned, leaves, -⟩
  · refine h.update frame (fun pair mem => kept.owners ▸ mem_cons_of_mem _ mem) ?_
    obtain ⟨hosts, fresh⟩ := hosts_of_keeps desired keeps
    obtain ⟨deadline, renewed⟩ := kept.get found owned
    intro rec found' _
    cases renewed.symm.trans found'
    rw [kept.owners]
    exact ⟨{ hosts with }, mem_cons_self, fresh⟩
  · refine h.update frame (fun pair mem => fences.owners ▸ mem) fun rec found' owned => ?_
    rw [fences.store, get_fence found, if_pos rfl] at found'
    cases found'
    exact absurd rfl owned
  · refine h.update frame (fun pair mem => leaves.owners ▸ mem) fun rec found' owned => ?_
    rw [leaves.store, found] at found'
    grind

theorem find_runner {live : List RunnerSnapshot} {snap : RunnerSnapshot}
    (ids : (live.map (·.runnerID)).Nodup) (mem : snap ∈ live) :
  live.find? (·.runnerID = snap.runnerID) = some snap
  := by
  induction live with
  | nil => cases mem
  | cons x rest ih =>
    rw [map_cons, nodup_cons] at ids
    grind

theorem Placed.assign (h : view.Placed keys s) (ids : (view.live.map (·.runnerID)).Nodup)
    (found : s.store.get act.key = some rec) (mirrors : Mirrors act rec) (desired : act.desired) :
  view.Placed keys (view.assignUnowned act s)
  := by
  rcases @assignUnowned_cases view act s with ⟨snap, assigns⟩ | ⟨store, owners, -⟩
  · have placed : view.Placed (act.key :: keys) (view.assignUnowned act s) := by
      refine h.update (fun k _ ne => (assignUnowned_untouched found mirrors ne).get)
        (fun pair mem => assigns.owners ▸ mem_cons_of_mem _ mem) fun rec' found' _ => ?_
      rw [assigns.store, get_assign found mirrors.above, if_pos rfl] at found'
      cases found'
      have eligible := assigns.eligible
      simp only [PassView.eligible, Bool.and_eq_true, decide_eq_true_eq] at eligible
      obtain ⟨⟨⟨⟨fresh, -⟩, -⟩, -⟩, capable⟩ := eligible
      refine ⟨⟨?_, .inr rfl, snap, ?_, ?_, ?_⟩, assigns.owners ▸ mem_cons_self, fresh⟩
      · exact mirrors.spec ▸ desired
      · exact find_runner ids assigns.live
      · rw [capabilitiesSatisfy, mirrors.key, mirrors.spec] at capable
        exact capable
      · rw [EntryActivation.hold, ← mirrors.spec]
        exact assigns.labels
    exact placed.subset fun k mem => mem_cons_of_mem _ mem
  · constructor
    · rw [store, owners]
      exact h.hosts
    · rw [store]
      exact h.apart

/-! ### Phases -/

variable {drain : String → DrainAnswer}

theorem read_rest {rest : List EntryActivation} {answer : DrainAnswer}
    (read : ∀ other ∈ act :: rest, s.store.get other.key = some other)
    (distinct : act.key ∉ rest.map (·.key)) :
  ∀ other ∈ rest, (view.reconcileExisting answer act s).1.store.get other.key = some other
  := by
  intro other mem
  have ne : other.key ≠ act.key := fun same => distinct (same ▸ mem_map_of_mem mem)
  rw [(reconcileExisting_untouched _ (read act mem_cons_self) ne).get]
  exact read other (mem_cons_of_mem _ mem)

theorem phaseOne_grows :
  ∀ e ∈ s.effects, e ∈ (view.phaseOne drain acts s).1.effects
  := by
  induction acts generalizing s with
  | nil => exact fun _ mem => mem
  | cons act rest ih =>
    intro e mem
    apply ih e
    rcases @reconcileExisting_cases view act s _ _ rfl with
      ⟨-, -, -, kept, -⟩ | ⟨-, -, fences, -⟩ | ⟨-, leaves, -⟩
    · exact kept.grows e mem
    · exact fences.grows e mem
    · exact leaves.grows e mem

section

variable (read : ∀ act ∈ acts, s.store.get act.key = some act)
  (distinct : (acts.map (·.key)).Nodup)

include read distinct

theorem phaseOne_untouched (other : key ∉ acts.map (·.key)) :
  Untouched key s (view.phaseOne drain acts s).1
  := by
  induction acts generalizing s with
  | nil => exact .refl
  | cons act rest ih =>
    rw [map_cons, nodup_cons] at distinct
    rw [map_cons, mem_cons, not_or] at other
    have first := @reconcileExisting_untouched view act s key (drain act.runnerID)
      (read act mem_cons_self) other.1
    exact first.trans (ih (read_rest read distinct.1) distinct.2 other.2)

theorem phaseOne_placed (settled : ∀ runnerID, (drain runnerID).settled)
    (h : view.Placed keys s) :
  view.Placed (acts.map (·.key) ++ keys) (view.phaseOne drain acts s).1 ∧
    (view.phaseOne drain acts s).2.map (·.key) = acts.map (·.key) ∧
    ∀ act ∈ (view.phaseOne drain acts s).2, ∃ rec,
      (view.phaseOne drain acts s).1.store.get act.key = some rec ∧ Mirrors act rec
  := by
  induction acts generalizing s keys with
  | nil => exact ⟨h, rfl, nofun⟩
  | cons act rest ih =>
    rw [map_cons, nodup_cons] at distinct
    have found := read act mem_cons_self
    have read' := @read_rest view act s rest (drain act.runnerID) read distinct.1
    obtain ⟨placed, same, mirrors⟩ := ih read' distinct.2 (h.existing (settled act.runnerID) found)
    refine ⟨placed.subset fun k mem => ?_, ?_, fun other mem => ?_⟩
    · simp only [map_cons, mem_cons, mem_append] at mem ⊢
      tauto
    · rw [phaseOne]
      rw [map_cons, map_cons, same]
    · rcases mem_cons.mp mem with rfl | mem
      · obtain ⟨rec, got, mirrors⟩ := @reconcileExisting_mirrors view act s
          (drain act.runnerID) (settled act.runnerID) found
        refine ⟨rec, ?_, mirrors⟩
        rw [← got]
        exact (phaseOne_untouched read' distinct.2 distinct.1).get
      · exact mirrors other mem

/-- An activation is reached as it was read, and is left alone afterwards. -/
theorem phaseOne_reaches (mem : rec ∈ acts) :
  ∃ mid, Untouched rec.key s mid ∧
    (∀ pair ∈ mid.owners, pair ∈ s.owners ∨ ∃ act ∈ acts, act.key ≠ rec.key ∧
      act.runnerID ≠ "" ∧ pair = (act.key.logical, act.runnerID)) ∧
    Untouched rec.key (view.reconcileExisting (drain rec.runnerID) rec mid).1
      (view.phaseOne drain acts s).1 ∧
    ∀ e ∈ (view.reconcileExisting (drain rec.runnerID) rec mid).1.effects,
      e ∈ (view.phaseOne drain acts s).1.effects
  := by
  induction acts generalizing s with
  | nil => cases mem
  | cons act rest ih =>
    rw [map_cons, nodup_cons] at distinct
    have read' := @read_rest view act s rest (drain act.runnerID) read distinct.1
    rcases mem_cons.mp mem with rfl | mem
    · exact ⟨s, .refl, fun _ => .inl, phaseOne_untouched read' distinct.2 distinct.1,
        phaseOne_grows⟩
    · have ne : act.key ≠ rec.key := fun same => distinct.1 (same ▸ mem_map_of_mem mem)
      obtain ⟨mid, reached, owners, left⟩ := ih read' distinct.2 mem
      have first := @reconcileExisting_untouched view act s rec.key (drain act.runnerID)
        (read act mem_cons_self) ne.symm
      refine ⟨mid, first.trans reached, fun pair mem => ?_, left⟩
      rcases owners pair mem with mem | ⟨other, listed, owner⟩
      · rcases @reconcileExisting_cases view act s (drain act.runnerID) _ rfl with
          ⟨owned, -, -, kept, -⟩ | ⟨-, -, fences, -⟩ | ⟨-, leaves, -⟩
        · rw [kept.owners] at mem
          grind
        · exact .inl (fences.owners ▸ mem)
        · exact .inl (leaves.owners ▸ mem)
      · exact .inr ⟨other, mem_cons_of_mem _ listed, owner⟩

end

section

variable (mirrors : ∀ act ∈ acts, ∃ rec, s.store.get act.key = some rec ∧ Mirrors act rec)
  (distinct : (acts.map (·.key)).Nodup)

include mirrors distinct

/-- What every assignment of the second phase keeps, the phase keeps. -/
theorem phaseTwo_invariant {P : PassState → Prop} (start : P s)
    (step : ∀ act ∈ acts, ∀ s rec, P s → s.store.get act.key = some rec → Mirrors act rec →
      act.desired ∧ act.runnerID = "" → P (view.assignUnowned act s)) :
  P (view.phaseTwo acts s)
  := by
  induction acts generalizing s with
  | nil => exact start
  | cons act rest ih =>
    rw [map_cons, nodup_cons] at distinct
    rw [forall_mem_cons] at mirrors step
    rw [phaseTwo]
    split
    case isTrue => exact ih mirrors.2 distinct.2 start step.2
    case isFalse open_ =>
      obtain ⟨rec, found, mirror⟩ := mirrors.1
      rw [not_or, not_not, not_not] at open_
      refine ih (fun other mem => ?_) distinct.2 (step.1 s rec start found mirror open_) step.2
      have ne : other.key ≠ act.key := fun same => distinct.1 (same ▸ mem_map_of_mem mem)
      rw [(assignUnowned_untouched found mirror ne).get]
      exact mirrors.2 other mem

theorem phaseTwo_placed (ids : (view.live.map (·.runnerID)).Nodup) (h : view.Placed keys s) :
  view.Placed keys (view.phaseTwo acts s)
  := by
  apply phaseTwo_invariant mirrors distinct h
  intro act _ s rec h found mirror free
  exact h.assign ids found mirror free.1

theorem phaseTwo_untouched (settled : ∀ act ∈ acts, act.key = key → act.runnerID ≠ "") :
  Untouched key s (view.phaseTwo acts s)
  := by
  apply phaseTwo_invariant mirrors distinct .refl
  intro act mem s rec reached found mirror free
  refine reached.trans (assignUnowned_untouched found mirror ?_)
  rintro rfl
  exact settled act mem rfl free.2

end

theorem phaseTwo_effects :
  (∀ e ∈ s.effects, e ∈ (view.phaseTwo acts s).effects) ∧
    ∀ e ∈ (view.phaseTwo acts s).effects, e ∈ s.effects ∨ ∀ key generation,
      e ≠ .fence key generation
  := by
  induction acts generalizing s with
  | nil => exact ⟨fun _ mem => mem, fun _ mem => .inl mem⟩
  | cons act rest ih =>
    rw [phaseTwo]
    split
    · exact ih
    · obtain ⟨grows, only⟩ := @ih (view.assignUnowned act s)
      rcases @assignUnowned_cases view act s with ⟨snap, assigns⟩ | ⟨-, -, effects⟩
      · rw [assigns.effects] at grows only
        grind
      · rw [effects] at grows only
        exact ⟨grows, only⟩

theorem phaseOne_fences {generation : Nat} :
  .fence key generation ∈ (view.phaseOne drain acts s).1.effects →
    .fence key generation ∈ s.effects ∨ ∃ act ∈ acts, act.key = key ∧ act.runnerID ≠ ""
  := by
  induction acts generalizing s with
  | nil => exact .inl
  | cons act rest ih =>
    intro mem
    rcases ih mem with mem | ⟨other, listed, same, owned⟩
    · rcases reconcileExisting_effects mem with old | ⟨same, owned | ⟨snap, -, -, eq⟩⟩
      · exact .inl old
      · exact .inr ⟨act, mem_cons_self, same.symm, owned⟩
      · cases eq
    · exact .inr ⟨other, mem_cons_of_mem _ listed, same, owned⟩

/-! ### Owners in the next pass -/

/-- The labels of the owner match the selector. -/
def ownerMatches (view : PassView) (rec : EntryActivation) : Bool :=
  (view.live.find? (·.runnerID = rec.runnerID)).any (fun snap =>
    selectorMatches rec.selector snap.labels)

section

variable (hosts : view.Hosts rec)
  (live : ∀ snap ∈ view.live, view.cfg.selector.isLive snap view.now)
  (unexpired : ¬ view.expired rec)

include hosts live unexpired

theorem keeps_eq_ownerMatches (fresh : (rec.key.logical, rec.runnerID) ∉ s.owners) :
  view.keeps rec s = view.ownerMatches rec
  := by
  obtain ⟨snap, found, capable, -⟩ := hosts.runner
  have isLive := live snap (mem_of_find?_eq_some found)
  have revivable : view.revivable rec := by
    rw [revivable, expired] at *
    cases deadline : rec.leaseDeadline with
    | none => rfl
    | some d =>
      grind
  rw [keeps, runnerIsLive, ownerSatisfiesDesired, ownerMatches, found, revivable]
  simp [isLive, capable, fresh, hosts.content]

/-- What the next pass does to an activation that has an owner. -/
theorem nextPass_owned (settled : ∀ runnerID, (drain runnerID).settled)
    (read : ∀ act ∈ acts, s.store.get act.key = some act) (distinct : (acts.map (·.key)).Nodup)
    (start : s.owners = [] ∧ s.effects = [])
    (apart : ∀ act ∈ acts, act.key ≠ rec.key → act.key.logical = rec.key.logical →
      act.runnerID ≠ "" → act.runnerID ≠ rec.runnerID)
    (mem : rec ∈ acts) (owned : rec.runnerID ≠ "") :
  let two := view.phaseTwo (view.phaseOne drain acts s).2 (view.phaseOne drain acts s).1
  if view.ownerMatches rec then Reconciler.Kept view rec two.store two.effects
  else .fence rec.key rec.generation ∈ two.effects
  := by
  intro two
  obtain ⟨mid, reached, owners, rest, grows⟩ :=
    @phaseOne_reaches view rec s acts drain read distinct mem
  have readMid : mid.store.get rec.key = some rec := reached.get.trans (read rec mem)
  have fresh : (rec.key.logical, rec.runnerID) ∉ mid.owners := by grind
  have decision := keeps_eq_ownerMatches hosts live unexpired fresh
  set one := view.phaseOne drain acts s
  have none : view.Placed [] s := ⟨nofun, nofun⟩
  obtain ⟨-, outputs, mirrors⟩ := phaseOne_placed read distinct settled none
  rcases @reconcileExisting_cases view rec mid (drain rec.runnerID) _ rfl with
    ⟨-, -, keeps, kept, -⟩ | ⟨-, lost, fences, -⟩ | ⟨unowned, -, -⟩
  · rw [decision] at keeps
    rw [if_pos keeps]
    obtain ⟨deadline, found⟩ := kept.get readMid owned
    have last : Untouched rec.key one.1 (view.phaseTwo one.2 one.1) := by
      refine phaseTwo_untouched mirrors (outputs ▸ distinct) fun act mem eq => ?_
      obtain ⟨rec', found', mirror⟩ := mirrors act mem
      rw [eq, rest.get, found] at found'
      cases found'
      exact mirror.runnerID ▸ owned
    have effects (e : Effect) (mem : e ∈ two.effects) (key : e.key = rec.key) :=
      (kept.effects e (rest.effects e (last.effects e mem key) key)).resolve_left
        fun old => not_mem_nil (start.2 ▸ reached.effects e old key)
    refine ⟨⟨_, (last.get.trans rest.get).trans found, rfl, rfl, rfl⟩, fun generation fenced => ?_,
      fun runnerID sessionID generation told => ?_⟩
    · rcases effects _ fenced rfl with ⟨_, -, -, eq⟩ | ⟨_, _, _, eq⟩ | ⟨eq, -⟩ <;> cases eq
    · rcases effects _ told rfl with ⟨snap, live, foreign, eq⟩ | ⟨_, _, _, eq⟩ | ⟨eq, -⟩ <;>
        cases eq
      exact ⟨snap, live, foreign, rfl, rfl⟩
  · have unmatched : ¬ view.ownerMatches rec := by
      rw [← decision]
      exact fun keeps => lost ⟨hosts.desired, keeps⟩
    rw [if_neg unmatched]
    exact phaseTwo_effects.1 _ (grows _ fences.fenced)
  · rcases unowned with none | declined
    · exact absurd none owned
    · rw [settled] at declined
      cases declined

end

end PassView

/-! ### What a pass reads -/

theorem RunnerListing.drainAnswer_settled (dir : RunnerListing) (runnerID : String) :
  (dir.drainAnswer runnerID).settled
  := by
  rw [drainAnswer]
  split <;> rfl

theorem RunnerListing.nodup_liveRunners (dir : RunnerListing) (policy : SelectorPolicy)
    (now : Int) :
  ((dir.liveRunners policy now).map (·.runnerID)).Nodup
  := by
  refine ((perm_insertionSort _ _).map _).nodup_iff.mpr ?_
  exact dir.distinct.sublist (filter_sublist.map _)

theorem ReconcilerConfig.mem_activations {cfg : ReconcilerConfig}
    {store : MemoryEntryActivationStore} {act : EntryActivation} :
  act ∈ cfg.activations store ↔ store.get act.key = some act ∧ act.key.ns ∈ cfg.namespaces
  := by
  rw [activations, (perm_insertionSort _ _).mem_iff, mem_flatMap]
  constructor
  · rintro ⟨ns, listed, mem⟩
    obtain ⟨found, rfl⟩ := mem_list.mp mem
    exact ⟨found, listed⟩
  · rintro ⟨found, listed⟩
    exact ⟨_, listed, mem_list.mpr ⟨found, rfl⟩⟩

theorem ReconcilerConfig.nodup_activations (cfg : ReconcilerConfig)
    (store : MemoryEntryActivationStore) :
  ((cfg.activations store).map (·.key)).Nodup
  := by
  refine ((perm_insertionSort _ _).map _).nodup_iff.mpr ?_
  rw [map_flatMap, nodup_flatMap]
  refine ⟨fun ns _ => store.nodup_list ns, ?_⟩
  refine cfg.distinct.imp fun {ns ns'} ne => ?_
  intro key mem mem'
  obtain ⟨act, listed, rfl⟩ := mem_map.mp mem
  obtain ⟨act', listed', same⟩ := mem_map.mp mem'
  refine ne ?_
  rw [← (mem_list.mp listed).2, ← (mem_list.mp listed').2, same]

namespace Reconciler

variable {cfg : ReconcilerConfig} {dir : RunnerListing} {occ occ' : Occasion} {r : Reconciler}

theorem reconcile_placed :
  (∀ rec ∈ cfg.activations (reconcile cfg dir occ r).1.store, rec.runnerID ≠ "" →
      (view cfg dir occ).Hosts rec) ∧
    ∀ rec ∈ cfg.activations (reconcile cfg dir occ r).1.store,
      ∀ rec' ∈ cfg.activations (reconcile cfg dir occ r).1.store, rec.key ≠ rec'.key →
        rec.key.logical = rec'.key.logical → rec.runnerID ≠ "" → rec.runnerID ≠ rec'.runnerID
  := by
  set recovered := dir.recoverPendingDeactivationObligations r.pending
    { store := r.store, memory := r.memory }
  set acts := cfg.activations recovered.store
  set one := (view cfg dir occ).phaseOne dir.drainAnswer acts recovered
  set two := (view cfg dir occ).phaseTwo one.2 one.1
  have read : ∀ act ∈ acts, recovered.store.get act.key = some act :=
    fun act mem => (mem_activations.mp mem).1
  have distinct : (acts.map (·.key)).Nodup := cfg.nodup_activations recovered.store
  have none : (view cfg dir occ).Placed [] recovered := ⟨nofun, nofun⟩
  obtain ⟨placed, same, mirrors⟩ :=
    phaseOne_placed read distinct dir.drainAnswer_settled none
  have placed : (view cfg dir occ).Placed (acts.map (·.key) ++ []) two :=
    phaseTwo_placed mirrors (same ▸ distinct)
      (dir.nodup_liveRunners cfg.selector occ.now) placed
  rw [append_nil] at placed
  -- a pass adds no record
  have known : ∀ rec ∈ cfg.activations two.store, rec.key ∈ acts.map (·.key) := by
    intro rec mem
    obtain ⟨found, ns⟩ := mem_activations.mp mem
    by_contra absent
    have untouched := (phaseOne_untouched read distinct absent).trans
      (@phaseTwo_untouched (view cfg dir occ) _ _ _ mirrors (same ▸ distinct)
        fun act mem eq => absurd (same ▸ eq ▸ mem_map_of_mem mem) absent)
    rw [untouched.get] at found
    exact absent (mem_map_of_mem (mem_activations.mpr ⟨found, ns⟩))
  constructor
  · intro rec mem owned
    obtain ⟨found, -⟩ := mem_activations.mp mem
    exact (placed.hosts rec.key (known rec mem) rec found owned).1
  · intro rec mem rec' mem' ne logical owned
    obtain ⟨found, -⟩ := mem_activations.mp mem
    obtain ⟨found', -⟩ := mem_activations.mp mem'
    exact placed.apart rec.key (known rec mem) rec'.key (known rec' mem') ne logical rec rec' found
      found' owned

/-- What the next pass does to an owner that a pass left, as long as its lease did not run out. -/
theorem nextReconcile_owned
    (same : dir.liveRunners cfg.selector occ'.now = dir.liveRunners cfg.selector occ.now)
    {rec : EntryActivation} (mem : rec ∈ cfg.activations (reconcile cfg dir occ r).1.store)
    (owned : rec.runnerID ≠ "") (unexpired : ¬ (view cfg dir occ').expired rec) :
  if (view cfg dir occ').ownerMatches rec then
    Kept (view cfg dir occ') rec
      (reconcile cfg dir occ' (reconcile cfg dir occ r).1).1.store
      (reconcile cfg dir occ' (reconcile cfg dir occ r).1).2
  else
    .fence rec.key rec.generation ∈ (reconcile cfg dir occ' (reconcile cfg dir occ r).1).2
  := by
  obtain ⟨hosts, apart⟩ := @reconcile_placed cfg dir occ r
  obtain ⟨desired, content, runner⟩ := hosts rec mem owned
  have hosts : (view cfg dir occ').Hosts rec := by
    refine ⟨desired, content, ?_⟩
    rw [view, same]
    exact runner
  have live : ∀ snap ∈ dir.liveRunners cfg.selector occ'.now,
      cfg.selector.isLive snap occ'.now := by
    intro snap mem
    have both := (mem_filter.mp ((perm_insertionSort _ _).mem_iff.mp mem)).2
    rw [Bool.and_eq_true] at both
    exact both.2
  exact nextPass_owned hosts live unexpired dir.drainAnswer_settled
    (fun act mem => (mem_activations.mp mem).1) (cfg.nodup_activations _) ⟨rfl, rfl⟩
    (fun act listed ne logical => apart act listed rec mem ne logical) mem owned

namespace Sample

/-- One runner without labels. -/
def runners : RunnerListing where
  snapshots := [{ runnerID := "a", sessionID := "s", lastHeartbeat := some 20000 }]

def key : EntryActivationKey where
  ns := "default"
  workflowID := "w"
  workflowVersion := "1"
  entryUnitID := "u"

/-- One activation that is not assigned. -/
def unassigned (sel : Option RunnerSelector) : Reconciler where
  store := ({} : MemoryEntryActivationStore).upsert { key := key, selector := sel }

/-- The activation once it is assigned. -/
def assigned (sel : Option RunnerSelector) (deadline : Int) : EntryActivation where
  key := key
  selector := sel
  runnerID := "a"
  sessionID := "s"
  generation := 1
  leaseDeadline := some deadline

/-- Runners in the zone are preferred. -/
def preferred : RunnerSelector where
  mode := .default
  matchLabels := [("zone", "x")]

/-- No runner in the zone has been seen since the first pass. -/
def waiting : Reconciler :=
  (reconcile { distinct := nodup_defaultNamespace } runners { now := 10000 }
    (unassigned (some preferred))).1

end Sample

end Reconciler

end Xflow.Control
