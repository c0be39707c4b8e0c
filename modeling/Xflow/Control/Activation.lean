import Xflow.Control.Placement
import Xflow.Lib.Keyed

/-!
# The store of entry activations

An entry activation says that a trigger of a workflow is to be hosted by some runner, and by which
one it is.  What is desired is written by the manager (`upsert`); who holds it is written under
generations, which `assign` and `fence` only raise.
-/

namespace Xflow.Control

open Keyed List Nat

structure EntryActivationKey where
  ns : String
  workflowID : String
  workflowVersion : String
  entryUnitID : String
  replicaIndex : Nat := 0
  deriving DecidableEq

/-- The fields of an activation that are desired. -/
structure ActivationSpec where
  nodeType : String := ""
  packageHash : String := ""
  selector : Option RunnerSelector := none
  requirements : List CapabilityRequirement := []
  desired : Bool := true
  registryRevision : Nat := 0
  deriving DecidableEq

/-- The fields of an activation that say who holds it.  The runner is empty if nobody does, and the
deadline is none if there is none. -/
structure Assignment where
  runnerID : String := ""
  sessionID : String := ""
  generation : Nat := 0
  leaseDeadline : Option Int := none
  assignedPackageHash : String := ""
  deriving DecidableEq

structure EntryActivation extends ActivationSpec, Assignment where
  key : EntryActivationKey
  deriving DecidableEq

namespace EntryActivation

variable (act : EntryActivation)

/-- The activation with another assignment. -/
def hold (assignment : Assignment) : EntryActivation :=
  { act with toAssignment := assignment }

/-- The assignment that `Assign` writes. -/
def assigned (runnerID sessionID : String) (gen : Nat) (deadline : Int) : Assignment where
  runnerID := runnerID
  sessionID := sessionID
  generation := gen
  leaseDeadline := some deadline
  assignedPackageHash := act.packageHash

/-- The assignment that `Fence` leaves. -/
def fenced (gen : Nat) : Assignment where
  generation := max act.generation gen

/-- The assignment that `Renew` leaves. -/
def renewed (deadline : Int) : Assignment :=
  { act.toAssignment with leaseDeadline := some deadline }

end EntryActivation

structure MemoryEntryActivationStore where
  records : Keyed EntryActivation.key := ∅
  /-- By namespace and workflow. -/
  workflowRevisions : String → String → Nat := fun _ _ => 0

namespace MemoryEntryActivationStore

variable (s : MemoryEntryActivationStore)

/-- The revision below which an activation is not desired. -/
def watermark (key : EntryActivationKey) : Nat := s.workflowRevisions key.ns key.workflowID

def authoritativeRecord (rec : EntryActivation) : EntryActivation :=
  if rec.registryRevision < s.watermark rec.key then { rec with desired := false } else rec

def get (key : EntryActivationKey) : Option EntryActivation :=
  (s.records.lookup key).map s.authoritativeRecord

def list (ns : String) : List EntryActivation :=
  (s.records.values.filter (fun rec => rec.key.ns = ns)).map s.authoritativeRecord

/-- The watermark of a workflow is raised. -/
def raise (ns workflowID : String) (revision : Nat) : MemoryEntryActivationStore :=
  { s with workflowRevisions := fun ns' workflowID' =>
      if ns' = ns ∧ workflowID' = workflowID then max (s.workflowRevisions ns' workflowID') revision
      else s.workflowRevisions ns' workflowID' }

def advanceWorkflowRevision (ns workflowID : String) (revision : Nat) :
    MemoryEntryActivationStore :=
  s.raise ns workflowID revision

def upsert (act : EntryActivation) : MemoryEntryActivationStore :=
  if act.registryRevision < s.watermark act.key then s
  else
    let raised := s.raise act.key.ns act.key.workflowID act.registryRevision
    match s.records.lookup act.key with
    | none => { raised with records := s.records.put act }
    | some existing =>
      if act.registryRevision < existing.registryRevision then raised
      else { raised with
        records := s.records.put { existing with toActivationSpec := act.toActivationSpec } }

/-- `Assign`: the store, and whether the claim won. -/
def assign (key : EntryActivationKey) (runnerID sessionID : String) (gen : Nat) (deadline : Int) :
    MemoryEntryActivationStore × Bool :=
  match s.records.lookup key with
  | none => (s, false)
  | some rec =>
    if gen ≤ rec.generation then (s, false)
    else
      ({ s with
        records := s.records.put (rec.hold (rec.assigned runnerID sessionID gen deadline)) }, true)

/-- `Renew`: the store, and whether the lease was extended. -/
def renew (key : EntryActivationKey) (gen : Nat) (deadline : Int) :
    MemoryEntryActivationStore × Bool :=
  match s.records.lookup key with
  | none => (s, false)
  | some rec =>
    if rec.generation ≠ gen ∨ rec.runnerID = "" then (s, false)
    else ({ s with records := s.records.put (rec.hold (rec.renewed deadline)) }, true)

/-- `Fence`.  The owner is removed whatever its generation is. -/
def fence (key : EntryActivationKey) (gen : Nat) : MemoryEntryActivationStore :=
  match s.records.lookup key with
  | none => s
  | some rec => { s with records := s.records.put (rec.hold (rec.fenced gen)) }

/-! ### Generations -/

/-- The records stay, their generations do not decrease, and at the same generation the owner stays
or is removed. -/
def Advances (s t : MemoryEntryActivationStore) : Prop :=
  ∀ key rec, s.records.lookup key = some rec → ∃ rec', t.records.lookup key = some rec' ∧
    rec.generation ≤ rec'.generation ∧
    (rec'.generation = rec.generation → rec'.runnerID = "" ∨
      rec'.runnerID = rec.runnerID ∧ rec'.sessionID = rec.sessionID)

/-- Every owner was the owner at the same generation before. -/
def NoNewOwner (s t : MemoryEntryActivationStore) : Prop :=
  ∀ key rec', t.records.lookup key = some rec' → rec'.runnerID ≠ "" →
    ∃ rec, s.records.lookup key = some rec ∧ rec.generation = rec'.generation ∧
      rec.runnerID = rec'.runnerID ∧ rec.sessionID = rec'.sessionID

variable {s} {key : EntryActivationKey} {gen : Nat}

theorem Advances.refl : Advances s s :=
  fun _ rec eq => ⟨rec, eq, le_refl _, fun _ => .inr ⟨rfl, rfl⟩⟩

theorem NoNewOwner.refl : NoNewOwner s s :=
  fun _ rec eq _ => ⟨rec, eq, rfl, rfl, rfl⟩

variable {rec : EntryActivation} {revisions : String → String → Nat}

/-- One record is written in place of another under the same key. -/
theorem advances_put (new : EntryActivation) (found : s.records.lookup key = some rec)
    (same : new.key = rec.key) (up : rec.generation ≤ new.generation)
    (owner : new.generation = rec.generation →
      new.runnerID = "" ∨ new.runnerID = rec.runnerID ∧ new.sessionID = rec.sessionID) :
  Advances s { records := s.records.put new, workflowRevisions := revisions }
  := by
  have at_key : new.key = key := same.trans (s.records.key_of_lookup found)
  intro k old eq
  by_cases own : k = new.key
  · rw [own, at_key, found] at eq
    cases eq
    exact ⟨new, by rw [lookup_put, if_pos own], up, owner⟩
  · refine ⟨old, ?_, le_refl _, fun _ => .inr ⟨rfl, rfl⟩⟩
    rw [lookup_put, if_neg own, eq]

theorem noNewOwner_put (new : EntryActivation) (found : s.records.lookup key = some rec)
    (same : new.key = rec.key)
    (owner : new.runnerID ≠ "" →
      rec.generation = new.generation ∧ rec.runnerID = new.runnerID ∧
        rec.sessionID = new.sessionID) :
  NoNewOwner s { records := s.records.put new, workflowRevisions := revisions }
  := by
  have at_key : new.key = key := same.trans (s.records.key_of_lookup found)
  intro k rec' eq held
  rw [lookup_put] at eq
  grind

theorem fence_advances : Advances s (s.fence key gen) := by
  rw [fence]
  split
  case h_1 => exact Advances.refl
  case h_2 rec found =>
    exact advances_put (rec.hold (rec.fenced gen)) found rfl (le_max_left _ _) (fun _ => .inl rfl)

theorem fence_noNewOwner : NoNewOwner s (s.fence key gen) := by
  rw [fence]
  split
  case h_1 => exact NoNewOwner.refl
  case h_2 rec found =>
    exact noNewOwner_put (rec.hold (rec.fenced gen)) found rfl (fun held => absurd rfl held)

variable {deadline : Int}

theorem renew_advances : Advances s (s.renew key gen deadline).1 := by
  rw [renew]
  split
  case h_1 => exact Advances.refl
  case h_2 rec found =>
    split
    · exact Advances.refl
    · exact advances_put (rec.hold (rec.renewed deadline)) found rfl (le_refl _)
        (fun _ => .inr ⟨rfl, rfl⟩)

theorem renew_noNewOwner : NoNewOwner s (s.renew key gen deadline).1 := by
  rw [renew]
  split
  case h_1 => exact NoNewOwner.refl
  case h_2 rec found =>
    split
    · exact NoNewOwner.refl
    · exact noNewOwner_put (rec.hold (rec.renewed deadline)) found rfl (fun _ => ⟨rfl, rfl, rfl⟩)

theorem owner_of_renew (won : (s.renew key gen deadline).2) :
  ∃ rec, s.records.lookup key = some rec ∧ rec.generation = gen ∧ rec.runnerID ≠ ""
  := by
  revert won
  fun_cases s.renew key gen deadline with
  | case3 rec found current =>
    simp only [not_or, not_not] at current
    exact fun _ => ⟨rec, found, current⟩
  | _ => exact nofun

variable {runnerID sessionID : String}

theorem assign_advances : Advances s (s.assign key runnerID sessionID gen deadline).1 := by
  rw [assign]
  split
  case h_1 => exact Advances.refl
  case h_2 rec found =>
    split
    case isTrue => exact Advances.refl
    case isFalse up =>
      have up : rec.generation < gen := Nat.lt_of_not_le up
      exact advances_put (rec.hold (rec.assigned runnerID sessionID gen deadline)) found rfl
        (Nat.le_of_lt up) (fun same => absurd same (Nat.ne_of_gt up))

theorem assign_of_won (won : (s.assign key runnerID sessionID gen deadline).2) :
  ∃ rec, s.records.lookup key = some rec ∧ rec.generation < gen ∧
    ∀ k, (s.assign key runnerID sessionID gen deadline).1.records.lookup k
      = if k = key then some (rec.hold (rec.assigned runnerID sessionID gen deadline))
        else s.records.lookup k
  := by
  revert won
  fun_cases s.assign key runnerID sessionID gen deadline with
  | case3 rec found up =>
    refine fun _ => ⟨rec, found, Nat.lt_of_not_le up, fun k => ?_⟩
    rw [lookup_put]
    simp [EntryActivation.hold, s.records.key_of_lookup found]
  | _ => exact nofun

theorem upsert_advances {act : EntryActivation} : Advances s (s.upsert act) := by
  fun_cases upsert s act with
  | case2 _ _ absent =>
    intro key rec eq
    refine ⟨rec, ?_, le_refl _, fun _ => .inr ⟨rfl, rfl⟩⟩
    have ne : key ≠ act.key := by
      rintro rfl
      rw [absent] at eq
      cases eq
    rw [lookup_put, if_neg ne, eq]
  | case4 _ _ existing found =>
    exact advances_put { existing with toActivationSpec := act.toActivationSpec } found rfl
      (le_refl _) (fun _ => .inr ⟨rfl, rfl⟩)
  | _ => exact Advances.refl

theorem owner_of_upsert {act rec' : EntryActivation}
    (found' : (s.upsert act).records.lookup key = some rec') (held : rec'.runnerID ≠ "") :
  (∃ rec, s.records.lookup key = some rec ∧ rec.generation = rec'.generation ∧
      rec.runnerID = rec'.runnerID ∧ rec.sessionID = rec'.sessionID) ∨
    s.records.lookup act.key = none ∧ key = act.key ∧ rec' = act
  := by
  rw [upsert] at found'
  split at found'
  case isTrue => exact .inl ⟨rec', found', rfl, rfl, rfl⟩
  case isFalse =>
    split at found'
    case h_1 absent =>
      rw [lookup_put] at found'
      grind
    case h_2 existing found =>
      split at found'
      case isTrue => exact .inl ⟨rec', found', rfl, rfl, rfl⟩
      case isFalse =>
        exact .inl (noNewOwner_put { existing with toActivationSpec := act.toActivationSpec } found
          rfl (fun _ => ⟨rfl, rfl, rfl⟩) key rec' found' held)

/-! ### What is read -/

theorem authoritativeRecord_cases (rec : EntryActivation) :
  s.authoritativeRecord rec = rec ∨ s.authoritativeRecord rec = { rec with desired := false }
  := by
  rw [authoritativeRecord]
  split
  · exact .inr rfl
  · exact .inl rfl

theorem authoritativeRecord_hold (rec : EntryActivation) (assignment : Assignment) :
  s.authoritativeRecord (rec.hold assignment) = (s.authoritativeRecord rec).hold assignment
  := by
  by_cases low : rec.registryRevision < s.watermark rec.key <;>
    simp [authoritativeRecord, EntryActivation.hold, low]

theorem get_put (found : s.records.lookup key = some rec) (assignment : Assignment)
    (k : EntryActivationKey) :
  get { s with records := s.records.put (rec.hold assignment) } k
    = if k = key then some ((s.authoritativeRecord rec).hold assignment) else s.get k
  := by
  have own : rec.key = key := s.records.key_of_lookup found
  have same : (rec.hold assignment).key = key := own
  rw [get, lookup_put, same]
  split
  · exact congrArg some (s.authoritativeRecord_hold rec assignment)
  · rfl

variable {act : EntryActivation}

theorem authoritativeRecord_key (rec : EntryActivation) :
  (s.authoritativeRecord rec).key = rec.key
  := by
  rcases s.authoritativeRecord_cases rec with eq | eq <;> rw [eq]

section

variable {k : EntryActivationKey} (found : s.get key = some act)

include found

theorem get_fence :
  (s.fence key gen).get k = if k = key then some (act.hold (act.fenced gen)) else s.get k
  := by
  obtain ⟨rec, lookup, rfl⟩ := Option.map_eq_some_iff.mp found
  have same : rec.fenced gen = (s.authoritativeRecord rec).fenced gen := by
    rcases s.authoritativeRecord_cases rec with eq | eq <;> rw [eq]
    rfl
  rw [fence, lookup]
  rw [get_put lookup, same]

theorem get_renew (current : act.generation = gen) (owned : act.runnerID ≠ "") :
  (s.renew key gen deadline).1.get k
    = if k = key then some (act.hold (act.renewed deadline)) else s.get k
  := by
  obtain ⟨rec, lookup, rfl⟩ := Option.map_eq_some_iff.mp found
  have same : (s.authoritativeRecord rec).toAssignment = rec.toAssignment := by
    rcases s.authoritativeRecord_cases rec with eq | eq <;> rw [eq]
  rw [same] at current owned
  rw [renew, lookup]
  dsimp only
  rw [if_neg (by simp [current, owned]), get_put lookup, EntryActivation.renewed,
    EntryActivation.renewed, same]

theorem get_assign (above : act.generation < gen) :
  (s.assign key runnerID sessionID gen deadline).1.get k
    = if k = key then some (act.hold (act.assigned runnerID sessionID gen deadline)) else s.get k
  := by
  obtain ⟨rec, lookup, rfl⟩ := Option.map_eq_some_iff.mp found
  have same : (s.authoritativeRecord rec).generation = rec.generation ∧
      (s.authoritativeRecord rec).packageHash = rec.packageHash := by
    rcases s.authoritativeRecord_cases rec with eq | eq <;> rw [eq] <;> exact ⟨rfl, rfl⟩
  rw [same.1] at above
  rw [assign, lookup]
  dsimp only
  rw [if_neg (not_le.mpr above), get_put lookup, EntryActivation.assigned,
    EntryActivation.assigned, same.2]

end

theorem mem_list {ns : String} : act ∈ s.list ns ↔ s.get act.key = some act ∧ act.key.ns = ns := by
  constructor
  · intro mem
    obtain ⟨rec, listed, rfl⟩ := mem_map.mp mem
    obtain ⟨value, same⟩ := mem_filter.mp listed
    rw [authoritativeRecord_key, get, mem_values.mp value]
    exact ⟨rfl, of_decide_eq_true same⟩
  · rintro ⟨found, same⟩
    obtain ⟨rec, lookup, eq⟩ := Option.map_eq_some_iff.mp found
    have own : rec.key = act.key := s.records.key_of_lookup lookup
    refine mem_map.mpr ⟨rec, mem_filter.mpr ⟨?_, ?_⟩, eq⟩
    · exact mem_values.mpr (own ▸ lookup)
    · exact decide_eq_true (own ▸ same)

theorem nodup_list (s : MemoryEntryActivationStore) (ns : String) :
  ((s.list ns).map (·.key)).Nodup
  := by
  have same : (s.list ns).map (·.key)
      = (s.records.values.filter (fun rec => rec.key.ns = ns)).map (·.key) := by
    rw [list, map_map]
    exact map_congr_left fun rec _ => s.authoritativeRecord_key rec
  rw [same]
  exact s.records.nodup_values.sublist (filter_sublist.map _)

end MemoryEntryActivationStore

end Xflow.Control
