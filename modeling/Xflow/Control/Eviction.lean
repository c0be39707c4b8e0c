import Xflow.Control.Reconciler
import Xflow.Lib.Run

/-!
# Activations under concurrent passes and failures

Any number of reconcilers run passes over one store of activations, while runners report that they
could not take an activation (`markActivationFailed`).  A pass reads the records at its beginning,
and then handles one activation after the other; a failure is checked against a record that is read,
and fenced in a second step.  All these steps interleave.

Generations never decrease, a generation has one holder, and only its lease is extended.  The fence
of a failure removes the owner that it was reported by if the record still has the generation that
was read (`failures_evict_their_owner`).  If the activation was assigned in between, the fence
removes the new owner (`newer_owner_evicted`).
-/

namespace Xflow.Control

open List MemoryEntryActivationStore Nat Option PassView Transition

/-! ### Failures -/

inductive ActivationStatus where
  | active
  | deactivated
  | failed
  deriving DecidableEq

structure ActivationAck where
  workflowID : String
  workflowVersion : String
  groupID : String
  replicaIndex : Nat := 0
  generation : Nat
  status : ActivationStatus := .failed
  deriving DecidableEq

/-- The activation that an ack is about. -/
def ActivationAck.key (ack : ActivationAck) (ns : String) : EntryActivationKey where
  ns := ns
  workflowID := ack.workflowID
  workflowVersion := ack.workflowVersion
  entryUnitID := ack.groupID
  replicaIndex := ack.replicaIndex

def errMissingWorkflowVersion : String := "activation ack: missing required field workflow_version"

/-- A failure that is to be fenced. -/
structure FailureCall where
  key : EntryActivationKey
  runnerID : String
  generation : Nat
  deriving DecidableEq

/-- `MarkActivationFailed`, up to its fence. -/
def markActivationFailed (store : MemoryEntryActivationStore) (ns runnerID : String)
    (ack : ActivationAck) : Except String (Option FailureCall) :=
  if ack.status ≠ .failed then .ok none
  else if ack.workflowVersion = "" then .error errMissingWorkflowVersion
  else
    match store.get (ack.key ns) with
    | none => .ok none
    | some act =>
      if act.generation ≠ ack.generation ∨ act.runnerID ≠ runnerID then .ok none
      else .ok (some ⟨ack.key ns, runnerID, act.generation⟩)

/-! ### Interleavings -/

/-- A pass on its way: the activations that are still to be looked at, those that were looked at
with the owner that the pass takes them to have, and the runners that host a replica. -/
structure Pass where
  view : PassView
  existing : List EntryActivation
  unowned : List EntryActivation := []
  owners : List (LogicalActivationKey × String) := []

inductive ActivationEvent where
  /-- A runner got the activation at a generation. -/
  | held (key : EntryActivationKey) (generation : Nat) (runnerID sessionID : String)
  /-- The lease of this holder was extended by a call that named the generation. -/
  | renewed (key : EntryActivationKey) (generation : Nat) (runnerID sessionID : String)
  /-- The failure of a runner at a generation removed this owner. -/
  | evicted (call : FailureCall) (runnerID : String) (generation : Nat)
  deriving DecidableEq

structure Controllers where
  store : MemoryEntryActivationStore := {}
  passes : List Pass := []
  calls : List FailureCall := []
  recoveries : List DeactivationObligation := []
  events : List ActivationEvent := []

namespace Controllers

/-- What a step reads besides the store may be anything: the memory of the reconciler and the
answers of the directory. -/
inductive Action where
  | upsert (act : EntryActivation)
  | advance (ns workflowID : String) (revision : Nat)
  /-- A pass begins. -/
  | reconcile (view : PassView)
  | existing (pass : Nat) (answer : DrainAnswer) (memory : ReconcilerMemory)
  | assign (pass : Nat) (memory : ReconcilerMemory)
  /-- A failure is checked. -/
  | failed (ns runnerID : String) (ack : ActivationAck)
  /-- A failure that was checked is fenced. -/
  | fence (call : Nat)
  /-- A pending obligation is checked (`recoverPendingDeactivationObligations`). -/
  | recover (obligation : DeactivationObligation)
  /-- A pending obligation that was checked is fenced. -/
  | recoverFence (call : Nat)

/-- What an effect of a pass means for the holders. -/
def eventsOf (store : MemoryEntryActivationStore) : Effect → List ActivationEvent
  | .assign runnerID sessionID key generation => [.held key generation runnerID sessionID]
  | .renew key generation =>
    match store.records.lookup key with
    | some rec => [.renewed key generation rec.runnerID rec.sessionID]
    | none => []
  | _ => []

/-- A new record may come with an owner. -/
def upserted (store : MemoryEntryActivationStore) (act : EntryActivation) : List ActivationEvent :=
  if (store.records.lookup act.key).isNone then
    ((store.upsert act).records.lookup act.key).toList.filterMap (fun rec =>
      if rec.runnerID = "" then none
      else some (.held rec.key rec.generation rec.runnerID rec.sessionID))
  else []

def step : Action → Controllers → Option Controllers
  | .upsert act, s =>
    some { s with store := s.store.upsert act, events := s.events ++ upserted s.store act }
  | .advance ns workflowID revision, s =>
    some { s with store := s.store.advanceWorkflowRevision ns workflowID revision }
  | .reconcile view, s =>
    some { s with passes := s.passes ++ [{
      view := view
      existing := view.cfg.activations s.store }] }
  | .existing p answer memory, s =>
    match s.passes[p]? with
    | none => none
    | some pass =>
      match pass.existing with
      | [] => none
      | act :: rest =>
        let done := pass.view.reconcileExisting answer act
          { store := s.store, memory := memory, owners := pass.owners }
        some { s with
          store := done.1.store
          passes := s.passes.set p { pass with
            existing := rest
            unowned := pass.unowned ++ [{ act with runnerID := done.2 }]
            owners := done.1.owners }
          events := s.events ++ done.1.effects.flatMap (eventsOf s.store) }
  | .assign p memory, s =>
    match s.passes[p]? with
    | none => none
    | some pass =>
      match pass.existing, pass.unowned with
      | [], act :: rest =>
        -- only desired activations without an owner are looked at
        if ¬ act.desired ∨ act.runnerID ≠ "" then
          some { s with passes := s.passes.set p { pass with unowned := rest } }
        else
          let done := pass.view.assignUnowned act
            { store := s.store, memory := memory, owners := pass.owners }
          some { s with
            store := done.store
            passes := s.passes.set p { pass with unowned := rest, owners := done.owners }
            events := s.events ++ done.effects.flatMap (eventsOf s.store) }
      | _, _ => none
  | .failed ns runnerID ack, s =>
    match markActivationFailed s.store ns runnerID ack with
    | .ok (some call) => some { s with calls := s.calls ++ [call] }
    | _ => some s
  | .fence i, s =>
    match s.calls[i]? with
    | none => none
    | some call =>
      some { s with
        store := s.store.fence call.key call.generation
        calls := s.calls.eraseIdx i
        events := s.events ++
          match s.store.records.lookup call.key with
          | none => []
          | some rec =>
            if rec.runnerID = "" then [] else [.evicted call rec.runnerID rec.generation] }
  | .recover obligation, s =>
    if fencePending s.store obligation then
      some { s with recoveries := s.recoveries ++ [obligation] }
    else some s
  | .recoverFence i, s =>
    match s.recoveries[i]? with
    | none => none
    | some obligation =>
      some { s with
        store := s.store.fence obligation.key obligation.generation
        recoveries := s.recoveries.eraseIdx i }

/-! ### What is to hold -/

/-- Failures and passes do not get into the way of the holders. -/
structure Respected (s : Controllers) : Prop where
  /-- A failure removes only the owner that it was reported by, at that generation. -/
  evicted : ∀ call runnerID generation, .evicted call runnerID generation ∈ s.events →
    runnerID = call.runnerID ∧ generation = call.generation
  /-- A generation has one holder. -/
  held : ∀ key generation runnerID sessionID runnerID' sessionID',
    .held key generation runnerID sessionID ∈ s.events →
    .held key generation runnerID' sessionID' ∈ s.events →
    runnerID = runnerID' ∧ sessionID = sessionID'
  /-- A lease is extended for the holder of the generation that is named. -/
  renewed : ∀ key generation runnerID sessionID,
    .renewed key generation runnerID sessionID ∈ s.events →
    .held key generation runnerID sessionID ∈ s.events
  /-- Generations do not decrease. -/
  monotone : ∀ a t, step a s = some t → ∀ key rec, s.store.records.lookup key = some rec →
    ∃ rec', t.store.records.lookup key = some rec' ∧ rec.generation ≤ rec'.generation

/-- The record of a failure that is fenced has the generation that was read. -/
def unmoved : Action → Controllers → Bool
  | .fence i, s => (s.calls[i]?).all (fun call =>
      (s.store.records.lookup call.key).all (fun rec => rec.generation = call.generation))
  | _, _ => true

/-! ### Steps -/

/-- Every owner got its activation at the generation of the record, every holder had it at that
generation or an earlier one, and so has every failure that is to be fenced. -/
structure Sound (store : MemoryEntryActivationStore) (calls : List FailureCall)
    (events : List ActivationEvent) : Prop where
  owner : ∀ key rec, store.records.lookup key = some rec → rec.runnerID ≠ "" →
    .held key rec.generation rec.runnerID rec.sessionID ∈ events
  past : ∀ key generation runnerID sessionID, .held key generation runnerID sessionID ∈ events →
    ∃ rec, store.records.lookup key = some rec ∧ generation ≤ rec.generation ∧
      (rec.generation = generation → rec.runnerID = "" ∨
        rec.runnerID = runnerID ∧ rec.sessionID = sessionID)
  held : ∀ key generation runnerID sessionID runnerID' sessionID',
    .held key generation runnerID sessionID ∈ events →
    .held key generation runnerID' sessionID' ∈ events →
    runnerID = runnerID' ∧ sessionID = sessionID'
  renewed : ∀ key generation runnerID sessionID,
    .renewed key generation runnerID sessionID ∈ events →
    .held key generation runnerID sessionID ∈ events
  calls : ∀ call ∈ calls, ∃ rec, store.records.lookup call.key = some rec ∧
    call.generation ≤ rec.generation ∧
    (rec.generation = call.generation → rec.runnerID = "" ∨ rec.runnerID = call.runnerID)
  evicted : ∀ call runnerID generation, .evicted call runnerID generation ∈ events →
    runnerID = call.runnerID ∧ generation = call.generation

variable {store store' : MemoryEntryActivationStore} {calls calls' : List FailureCall}
  {events later : List ActivationEvent}

/-- A holder that is new is above all earlier generations, a lease is extended for a holder, and a
failure removes the owner that it was reported by. -/
def Follows (store store' : MemoryEntryActivationStore) (events : List ActivationEvent) :
    ActivationEvent → Prop
  | .held key generation runnerID sessionID =>
    (∀ rec, store.records.lookup key = some rec → rec.generation < generation) ∧
    ∃ rec', store'.records.lookup key = some rec' ∧ rec'.generation = generation ∧
      rec'.runnerID = runnerID ∧ rec'.sessionID = sessionID
  | .renewed key generation runnerID sessionID => .held key generation runnerID sessionID ∈ events
  | .evicted call runnerID generation => runnerID = call.runnerID ∧ generation = call.generation

/-- The store advances, and an owner that is new is among the new holders. -/
theorem Sound.extend (h : Sound store calls events) (up : store.Advances store')
    (owner : ∀ key rec', store'.records.lookup key = some rec' → rec'.runnerID ≠ "" →
      (∃ rec, store.records.lookup key = some rec ∧ rec.generation = rec'.generation ∧
        rec.runnerID = rec'.runnerID ∧ rec.sessionID = rec'.sessionID) ∨
      .held key rec'.generation rec'.runnerID rec'.sessionID ∈ later)
    (follows : ∀ e ∈ later, Follows store store' events e) (fewer : ∀ call ∈ calls', call ∈ calls) :
  Sound store' calls' (events ++ later)
  := by
  obtain ⟨owner', past, held, renewed, calls, evicted⟩ := h
  constructor
  case owner => grind
  case past =>
    intro key generation runnerID sessionID mem
    rcases mem_append.mp mem with old | new
    · obtain ⟨rec, found, low, same⟩ := past key generation runnerID sessionID old
      have := up key rec found
      grind
    · have := follows _ new
      grind [Follows]
  case held =>
    intro key generation r ss r' ss' mem mem'
    -- a new holder is above every earlier one
    rcases mem_append.mp mem with old | new <;> rcases mem_append.mp mem' with old' | new'
    · exact held key generation r ss r' ss' old old'
    · have := follows _ new'
      grind [Follows]
    · have := follows _ new
      grind [Follows]
    · have := follows _ new
      have := follows _ new'
      grind [Follows]
  case renewed =>
    intro key generation r ss mem
    rcases mem_append.mp mem with old | new
    · grind
    · exact mem_append_left _ (follows _ new)
  case calls =>
    intro call mem
    obtain ⟨rec, found, low, same⟩ := calls call (fewer call mem)
    have := up call.key rec found
    grind
  case evicted =>
    intro call r generation mem
    exact (mem_append.mp mem).elim (evicted call r generation) (follows _)

theorem Sound.withdraw (h : Sound store calls events) (up : store.Advances store')
    (owners : store.NoNewOwner store') (fewer : ∀ call ∈ calls', call ∈ calls) :
  Sound store' calls' events
  := by
  have extended : Sound store' calls' (events ++ []) :=
    h.extend up (fun key rec' found owned => .inl (owners key rec' found owned)) nofun fewer
  rwa [append_nil] at extended

variable {view : PassView} {act : EntryActivation} {s : PassState}

/-- What a pass does to an owner: there is no new one, and a lease is extended only for the
generation it has. -/
theorem reconcileExisting_withdraws {s : PassState} (answer : DrainAnswer)
    (start : s.effects = []) :
  s.store.Advances (view.reconcileExisting answer act s).1.store ∧
    s.store.NoNewOwner (view.reconcileExisting answer act s).1.store ∧
    ∀ e ∈ (view.reconcileExisting answer act s).1.effects, eventsOf s.store e = [] ∨
      ∃ rec, s.store.records.lookup act.key = some rec ∧ rec.runnerID ≠ "" ∧
        eventsOf s.store e = [.renewed act.key rec.generation rec.runnerID rec.sessionID]
  := by
  have none_before {e : Effect} : e ∉ s.effects := start ▸ not_mem_nil
  rcases @reconcileExisting_cases view act s answer _ rfl with
    ⟨-, -, -, kept, -⟩ | ⟨-, -, fences, -⟩ | ⟨-, leaves, -⟩
  · rw [kept.store]
    refine ⟨?_, ?_, fun e mem => ?_⟩
    · split
      · exact renew_advances
      · exact .refl
    · split
      · exact renew_noNewOwner
      · exact .refl
    · rcases kept.effects e mem with old | ⟨snap, -, -, rfl⟩ | ⟨r, ss, g, rfl⟩ | ⟨rfl, won⟩
      · exact (none_before old).elim
      · exact .inl rfl
      · exact .inl rfl
      · obtain ⟨rec, found, generation, owned⟩ := owner_of_renew won
        refine .inr ⟨rec, found, owned, ?_⟩
        rw [eventsOf, found, generation]
  · rw [fences.store]
    refine ⟨fence_advances, fence_noNewOwner, fun e mem => .inl ?_⟩
    rcases fences.effects e mem with old | ⟨snap, -, -, rfl⟩ | rfl | ⟨ss, rfl⟩
    · exact (none_before old).elim
    · rfl
    · rfl
    · rfl
  · rw [leaves.store]
    refine ⟨.refl, .refl, fun e mem => .inl ?_⟩
    rcases leaves.effects e mem with old | ⟨snap, -, -, rfl⟩
    · exact (none_before old).elim
    · rfl

theorem Sound.existing (h : Sound s.store calls events) (answer : DrainAnswer)
    (start : s.effects = []) :
  Sound (view.reconcileExisting answer act s).1.store calls
    (events ++ (view.reconcileExisting answer act s).1.effects.flatMap (eventsOf s.store))
  := by
  obtain ⟨up, owners, effects⟩ := @reconcileExisting_withdraws view act s answer start
  -- the only events are leases that are extended
  have only {event : ActivationEvent}
      (mem : event ∈ (view.reconcileExisting answer act s).1.effects.flatMap (eventsOf s.store)) :
      ∃ rec, s.store.records.lookup act.key = some rec ∧ rec.runnerID ≠ "" ∧
        event = .renewed act.key rec.generation rec.runnerID rec.sessionID := by grind
  refine h.extend up (fun key rec' found owned => .inl (owners key rec' found owned)) ?_
    (fun _ mem => mem)
  intro e mem
  obtain ⟨rec, found, owned, rfl⟩ := only mem
  exact h.owner act.key rec found owned

theorem Sound.assign (h : Sound s.store calls events) (start : s.effects = []) :
  Sound (view.assignUnowned act s).store calls
    (events ++ (view.assignUnowned act s).effects.flatMap (eventsOf s.store))
  := by
  rcases @assignUnowned_cases view act s with ⟨snap, assigns⟩ | ⟨store, -, effects⟩
  · obtain ⟨rec, found, above, lookup⟩ := assign_of_won assigns.won
    have event : (view.assignUnowned act s).effects.flatMap (eventsOf s.store)
        = [.held act.key (act.generation + 1) snap.runnerID snap.sessionID] := by
      rw [assigns.effects, start]
      rfl
    rw [event, assigns.store]
    refine h.extend assign_advances ?_ ?_ (fun _ mem => mem)
    · intro key rec' found' owned
      rw [lookup] at found'
      split at found'
      case isTrue same =>
        cases found'
        exact .inr (same ▸ mem_singleton_self _)
      case isFalse => exact .inl ⟨rec', found', rfl, rfl, rfl⟩
    · intro e mem
      cases mem_singleton.mp mem
      refine ⟨fun old eq => ?_, _, by rw [lookup, if_pos rfl], rfl, rfl, rfl⟩
      rw [found] at eq
      cases eq
      exact above
  · rw [store, effects, start, flatMap_nil, append_nil]
    exact h

theorem mem_upserted {event : ActivationEvent} (mem : event ∈ upserted store act) :
  store.records.lookup act.key = none ∧
    ∃ rec, (store.upsert act).records.lookup act.key = some rec ∧
      event = .held act.key rec.generation rec.runnerID rec.sessionID
  := by
  rw [upserted] at mem
  split at mem
  case isFalse => cases mem
  case isTrue absent =>
    obtain ⟨rec, found, eq⟩ := mem_filterMap.mp mem
    have found := mem_toList.mp found
    obtain ⟨-, ⟨⟩⟩ := ite_none_left_eq_some.mp eq
    refine ⟨isNone_iff_eq_none.mp absent, rec, found, ?_⟩
    rw [Keyed.key_of_lookup found]

theorem Sound.upsert (h : Sound store calls events) :
  Sound (store.upsert act) calls (events ++ upserted store act)
  := by
  refine h.extend upsert_advances ?_ ?_ (fun _ mem => mem)
  · intro key rec' found owned
    refine (owner_of_upsert found owned).imp_right ?_
    rintro ⟨absent, rfl, rfl⟩
    rw [upserted, if_pos (by rw [absent]; rfl), found]
    simp [owned]
  · intro e mem
    obtain ⟨absent, rec, found, rfl⟩ := mem_upserted mem
    refine ⟨fun old eq => ?_, rec, found, rfl, rfl, rfl⟩
    rw [absent] at eq
    cases eq

theorem Sound.failed {ns runnerID : String} {ack : ActivationAck} {call : FailureCall}
    (h : Sound store calls events)
    (eq : markActivationFailed store ns runnerID ack = .ok (some call)) :
  Sound store (calls ++ [call]) events
  := by
  have read : ∃ rec, store.records.lookup call.key = some rec ∧
      rec.generation = call.generation ∧ rec.runnerID = call.runnerID := by
    revert eq
    fun_cases markActivationFailed store ns runnerID ack with
    | case5 _ _ act got current =>
      rintro ⟨⟩
      obtain ⟨rec, found, rfl⟩ := map_eq_some_iff.mp got
      simp only [not_or, not_not] at current
      refine ⟨rec, found, ?_, ?_⟩
      · rw [authoritativeRecord]
        split <;> rfl
      · rw [← current.2, authoritativeRecord]
        split <;> rfl
    | _ => rintro ⟨⟩
  refine { h with calls := fun other mem => ?_ }
  rcases mem_append.mp mem with old | new
  · exact h.calls other old
  · cases mem_singleton.mp new
    obtain ⟨rec, found, generation, runner⟩ := read
    exact ⟨rec, found, le_of_eq generation.symm, fun _ => .inr runner⟩

/-- A failure is fenced while the record has the generation that was read. -/
theorem Sound.fence {call : FailureCall} {i : Nat} (h : Sound store calls events)
    (at_i : calls[i]? = some call)
    (same : ∀ rec, store.records.lookup call.key = some rec → rec.generation = call.generation) :
  Sound (store.fence call.key call.generation) (calls.eraseIdx i) (events ++
    match store.records.lookup call.key with
    | none => []
    | some rec => if rec.runnerID = "" then [] else [.evicted call rec.runnerID rec.generation])
  := by
  obtain ⟨rec, found, -, owner⟩ := h.calls call (mem_of_getElem? at_i)
  have generation := same rec found
  rw [found]
  refine h.extend fence_advances
    (fun key rec' found owned => .inl (fence_noNewOwner key rec' found owned)) ?_
    (fun _ mem => mem_of_mem_eraseIdx mem)
  intro e mem
  dsimp only at mem
  split at mem
  case isTrue => cases mem
  case isFalse owned =>
    cases mem_singleton.mp mem
    exact ⟨(owner generation).resolve_left owned, generation⟩

/-! ### Runs -/

theorem step_sound {s t : Controllers} {a : Action} (eq : step a s = some t) :
  s.store.Advances t.store ∧ (Sound s.store s.calls s.events → unmoved a s →
    Sound t.store t.calls t.events)
  := by
  revert eq
  fun_cases step a s with
  | case1 act =>
    rintro ⟨⟩
    exact ⟨upsert_advances, fun h _ => h.upsert⟩
  | case2 =>
    rintro ⟨⟩
    exact ⟨.refl, fun h _ => h.withdraw Advances.refl NoNewOwner.refl (fun _ mem => mem)⟩
  | case6 p answer memory _ pass _ act =>
    rintro ⟨⟩
    let before : PassState := { store := s.store, memory := memory, owners := pass.owners }
    exact ⟨(reconcileExisting_withdraws (s := before) answer rfl).1,
      fun h _ => Sound.existing (s := before) h answer rfl⟩
  | case9 p memory _ pass _ act =>
    rintro ⟨⟩
    let before : PassState := { store := s.store, memory := memory, owners := pass.owners }
    refine ⟨?_, fun h _ => Sound.assign (s := before) h rfl⟩
    rcases @assignUnowned_cases pass.view act before with ⟨snap, assigns⟩ | ⟨store, -, -⟩
    · rw [assigns.store]
      exact assign_advances
    · rw [store]
      exact .refl
  | case11 ns runnerID ack _ call read =>
    rintro ⟨⟩
    exact ⟨.refl, fun h _ => h.failed read⟩
  | case14 i _ call at_i =>
    rintro ⟨⟩
    refine ⟨fence_advances, fun h same => h.fence at_i fun rec found => ?_⟩
    simpa [unmoved, at_i, found] using same
  | case18 =>
    rintro ⟨⟩
    exact ⟨fence_advances, fun h _ => h.withdraw fence_advances fence_noNewOwner
      (fun _ mem => mem)⟩
  | case3 | case8 | case12 | case15 | case16 =>
    rintro ⟨⟩
    exact ⟨.refl, fun h _ => h⟩
  -- the action is not enabled
  | _ => exact nofun

theorem Sound.respected {s : Controllers} (h : Sound s.store s.calls s.events) : Respected s where
  __ := h
  monotone a t eq key rec found := by
    obtain ⟨rec', found', rise, -⟩ := (step_sound eq).1 key rec found
    exact ⟨rec', found', rise⟩

/-- As long as no record moves on between the check of a failure and its fence, a failure removes
only the owner that reported it; generations and holders are respected anyway. -/
theorem failures_evict_their_owner {s : Controllers}
    (run : Run step (fun a s => unmoved a s) {} s) :
  Respected s
  := by
  have start : Sound (({} : Controllers).store) [] [] := by
    refine ⟨nofun, nofun, nofun, nofun, nofun, nofun⟩
  have sound : Sound s.store s.calls s.events :=
    run.invariant (I := fun s => Sound s.store s.calls s.events) start
      fun _ _ _ h same eq => (step_sound eq).2 h same
  exact sound.respected

namespace Sample

def unit : EntryActivation where
  key := { ns := "default", workflowID := "w", workflowVersion := "1", entryUnitID := "u" }

/-- A pass in which one runner is live. -/
def pass (runnerID : String) (now : Int) : Action :=
  .reconcile {
    cfg := {}
    live := [{ runnerID := runnerID, sessionID := "s", lastHeartbeat := some now }]
    now := now }

/-- The activation is assigned to one runner, which fails to take it. -/
def failing : List Action :=
  [.upsert unit, pass "a" 0, .existing 0 .none {}, .assign 0 {},
    .failed "default" "a"
      { workflowID := "w", workflowVersion := "1", groupID := "u", generation := 1 }]

/-- The runner is replaced after its failure is checked. -/
def replaced : List Action :=
  failing ++ [pass "b" 40000, .existing 1 .none {}, .assign 1 {}, .fence 0]

end Sample

/-- The failure of the old owner removes the new one. -/
theorem newer_owner_evicted :
  ∃ s, Run step (fun _ _ => True) {} s ∧
    ∃ call, call.runnerID = "a" ∧ call.generation = 1 ∧ .evicted call "b" 2 ∈ s.events
  := by
  obtain ⟨s, run, mem⟩ : ∃ s, Run step (fun _ _ => True) {} s ∧
      .evicted ⟨Sample.unit.key, "a", 1⟩ "b" 2 ∈ s.events :=
    exists_run Sample.replaced (by decide)
  exact ⟨s, run, _, rfl, rfl, mem⟩

/-- The failure is fenced before the runner is replaced. -/
theorem own_owner_evicted :
  ∃ s, Run step (fun a s => unmoved a s) {} s ∧
    .evicted ⟨Sample.unit.key, "a", 1⟩ "a" 1 ∈ s.events ∧ Respected s
  := by
  apply exists_guarded_run_and (Sample.failing ++ [.fence 0]) (by decide)
  exact fun _ run _ => failures_evict_their_owner run

end Controllers

end Xflow.Control
