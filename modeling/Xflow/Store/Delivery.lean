import Mathlib.Data.List.Sort
import Mathlib.Data.String.Basic
import Mathlib.Logic.Function.Basic
import Xflow.Lib.Keyed
import Xflow.Types

/-!
# Delivering the outbox

What the local store keeps to deliver the intents of one execution: the intents that are ready, each
with the instant until which a deliverer holds it, the intents that were given up, and the receipts
of their replays.  A deliverer takes intents under a lease, extends it while it works, and in the
end acknowledges the intent, hands it back or records that it could not be delivered.

Instants are counted in nanoseconds since the Unix epoch; the zero instant of the source is the
first of January of the year one.
-/

namespace Xflow

open Keyed List

/-! ### Instants -/

/-- `time.Time{}`. -/
def zeroTime : Int := -62135596800000000000

def unixMilli (t : Int) : Int := t / 1000000

/-- `OutboxDeliveryLeaseTTL`: five seconds. -/
def outboxDeliveryLeaseTTL : Int := 5000000000

def defaultOutboxMaxDeliveryAttempts : Int := 10

/-! ### Intents -/

/-- `OutboxEntry`, with what a deliverer is told about its lease. -/
structure DeliveryEntry where
  id : String
  task : Task
  availableAt : Int := zeroTime
  createdAt : Int := zeroTime
  attempts : Int := 0
  leasedFromScoreMs : Int := 0
  leaseDeadlineMs : Int := 0
  deriving DecidableEq, Inhabited

/-- `memoryDeadLetterMeta`: what a replay checks. -/
structure DeadLetterMeta where
  node : String := ""
  activation : String := ""
  intent : String := ""
  deriving DecidableEq

/-- `memoryOutboxEntry`. -/
structure StoredEntry where
  entry : DeliveryEntry
  leasedUntil : Int := zeroTime
  deadMeta : Option DeadLetterMeta := none
  deriving DecidableEq

/-- The identifier an intent is stored under. -/
def StoredEntry.id (stored : StoredEntry) : String := stored.entry.id

/-- The intents under their identifiers. -/
abbrev EntryMap := Keyed StoredEntry.id

/-- `DeadLetterReplayOutcome`, as far as the store answers it. -/
inductive ReplayOutcome where
  | replayed
  | alreadyReplayed
  | notFound
  | rejectedTerminal
  | rejectedInactive
  | rejectedNodeTerminal
  | rejectedActivationMismatch
  | rejectedMetadataMissing
  deriving DecidableEq, Inhabited

/-- `memoryReplayReceipt`. -/
structure ReplayReceipt where
  auditID : String
  node : String
  activation : String
  entryID : String
  operator : String
  reason : String
  outcome : ReplayOutcome
  occurredAtMs : Int
  deriving DecidableEq

/-- The records of one execution that its deliveries use.  An entry without a request reads as the
empty string in `replayEntryIdx`. -/
structure DeliveryState where
  id : String
  status : Option ExecutionStatus := none
  nodes : String → Option NodeSnapshot := fun _ => none
  outbox : EntryMap := ∅
  deadOutbox : EntryMap := ∅
  replayReceipts : String → Option ReplayReceipt := fun _ => none
  replayEntryIdx : String → String := fun _ => ""

structure OutboxDeliveryFailure where
  attempts : Int := 0
  deadLettered : Bool := false
  deriving DecidableEq

/-- `deadLetterIntent`: what precedes the first slash of an identifier. -/
def deadLetterIntent (entryID : String) : String :=
  if '/' ∈ entryID.toList then String.ofList (entryID.toList.takeWhile (· ≠ '/')) else ""

namespace DeliveryState

variable (s : DeliveryState)

/-! ### What is ready -/

/-- `dispatchHeldLocked`: the execution is paused. -/
def dispatchHeld : Bool := s.status = some ExecutionStatus.paused

/-- An intent that nobody holds and that is due. -/
def isReady (before : Int) (stored : StoredEntry) : Bool :=
  ¬ before < stored.leasedUntil ∧
    (stored.entry.availableAt = zeroTime ∨ ¬ before < stored.entry.availableAt)

/-- `readyOutboxIDsLocked`. -/
def readyOutboxIDs (before : Int) (limit : Int) : List String :=
  if s.outbox.keys = [] ∨ limit = 0 ∨ s.dispatchHeld then []
  else
    let ready := s.outbox.keys.filter fun id => (s.outbox.lookup id).any (isReady before)
    let ids := ready.insertionSort (· ≤ ·)
    if 0 < limit ∧ limit < ids.length then ids.take limit.toNat else ids

def listOutbox (before : Int) (limit : Int) : List DeliveryEntry :=
  (s.readyOutboxIDs before limit).filterMap fun id => (s.outbox.lookup id).map (·.entry)

/-! ### Leases -/

/-- An intent whose lease is counted from `now`. -/
def leasedFrom (now : Int) (stored : StoredEntry) : StoredEntry :=
  { stored with leasedUntil := now + outboxDeliveryLeaseTTL }

/-- Take one intent. -/
def leaseOne (now : Int) (acc : EntryMap × List DeliveryEntry) (entryID : String) :
    EntryMap × List DeliveryEntry :=
  match acc.1.lookup entryID with
  | none => acc
  | some stored =>
    let held := leasedFrom now stored
    (acc.1.put held,
      acc.2 ++ [{ held.entry with leaseDeadlineMs := unixMilli held.leasedUntil }])

/-- `LeaseOutbox`: take the intents that are ready. -/
def leaseOutbox (now : Int) (limit : Int) : DeliveryState × List DeliveryEntry :=
  let (entries, out) := (s.readyOutboxIDs now limit).foldl (leaseOne now) (s.outbox, [])
  ({ s with outbox := entries }, out)

/-- Whether the lease of an intent is extended for a deliverer that presents a deadline. -/
def renewable (now : Int) (deadlineMs : Int) (stored : StoredEntry) : Bool :=
  now < stored.leasedUntil ∧ unixMilli stored.leasedUntil = deadlineMs

/-- Extend one lease, if the deadline presented is the one on record. -/
def renewOne (now : Int) (acc : EntryMap × List DeliveryEntry) (entry : DeliveryEntry) :
    EntryMap × List DeliveryEntry :=
  match acc.1.lookup entry.id with
  | none => acc
  | some stored =>
    if renewable now entry.leaseDeadlineMs stored then
      let held := leasedFrom now stored
      (acc.1.put held,
        acc.2 ++ [{ held.entry with
          leasedFromScoreMs := entry.leasedFromScoreMs
          leaseDeadlineMs := unixMilli (now + outboxDeliveryLeaseTTL) }])
    else acc

/-- `RenewOutbox`: extend the leases that the caller shows to hold. -/
def renewOutbox (renew : List DeliveryEntry) (now : Int) : DeliveryState × List DeliveryEntry :=
  let (entries, out) := renew.foldl (renewOne now) (s.outbox, [])
  ({ s with outbox := entries }, out)

/-- `AckOutbox`: remove a delivered intent. -/
def ackOutbox (entryID : String) : DeliveryState :=
  { s with outbox := s.outbox.erase entryID }

/-- `ReleaseOutbox`: make an intent deliverable at once. -/
def releaseOutbox (entry : DeliveryEntry) : DeliveryState :=
  match s.outbox.lookup entry.id with
  | none => s
  | some held => { s with outbox := s.outbox.put { held with leasedUntil := zeroTime } }

/-! ### Failures -/

/-- The attempts after which an intent is given up. -/
def deliveryAttempts (maxAttempts : Int) : Int :=
  if maxAttempts ≤ 0 then defaultOutboxMaxDeliveryAttempts else maxAttempts

/-- An intent after one more attempt. -/
def failedOnce (stored : StoredEntry) : StoredEntry :=
  { stored with entry := { stored.entry with attempts := stored.entry.attempts + 1 } }

/-- Move an intent to the dead letters, with what a replay will check. -/
def deadLetter (entry : DeliveryEntry) (stored : StoredEntry) : DeliveryState :=
  { s with
    outbox := s.outbox.erase entry.id
    deadOutbox := s.deadOutbox.put
      { stored with
        deadMeta := some
          { node := entry.task.nodeName
            activation := toString entry.task.activationID
            intent := deadLetterIntent entry.id } }
    replayEntryIdx := Function.update s.replayEntryIdx entry.id "" }

/-- `RecordOutboxFailure`: count one failed delivery, and give the intent up after enough. -/
def recordOutboxFailure (entry : DeliveryEntry) (maxAttempts : Int) :
    DeliveryState × OutboxDeliveryFailure :=
  match s.outbox.lookup entry.id with
  | none => (s, {})
  | some stored =>
    let stored := failedOnce stored
    if deliveryAttempts maxAttempts ≤ stored.entry.attempts then
      (s.deadLetter entry stored, { attempts := stored.entry.attempts, deadLettered := true })
    else
      ({ s with outbox := s.outbox.put stored }, { attempts := stored.entry.attempts })

/-! ### What the calls leave behind -/

variable {s : DeliveryState} {entry : DeliveryEntry} {maxAttempts : Int}

theorem of_mem_readyOutboxIDs {before limit : Int} {id : String}
    (h : id ∈ s.readyOutboxIDs before limit) :
  ∃ stored, s.outbox.lookup id = some stored ∧ isReady before stored
  := by
  unfold readyOutboxIDs at h
  split at h
  case isTrue => simp at h
  case isFalse =>
    have ready : id ∈ (s.outbox.keys.filter fun id =>
        (s.outbox.lookup id).any (isReady before)).insertionSort (· ≤ ·) := by grind
    rw [mem_insertionSort, mem_filter] at ready
    simpa [Option.any_eq_true] using ready.2

/-- How leases were granted: those of the identifiers `ids` are counted from `now` and were on
intents that satisfy `P`, the other intents are as they were. -/
structure Granted (now : Int) (P : StoredEntry → Prop) (before after : EntryMap)
    (ids : List String) : Prop where
  taken : ∀ id ∈ ids, ∃ stored, before.lookup id = some stored ∧ P stored ∧
    after.lookup id = some (leasedFrom now stored)
  left : ∀ id, id ∉ ids → after.lookup id = before.lookup id

namespace Granted

variable {now : Int} {P : StoredEntry → Prop} {before after : EntryMap} {ids : List String}

theorem nothing : Granted now P before before []
  := by
  constructor
  case taken => simp
  case left => simp

/-- Granting one more lease, of an intent that satisfies `P` or had its lease granted before. -/
theorem grant {id : String} {stored : StoredEntry} (h : Granted now P before after ids)
    (found : after.lookup id = some stored) (fits : id ∉ ids → P stored) :
  Granted now P before (after.put (leasedFrom now stored)) (ids ++ [id])
  := by
  have key : (leasedFrom now stored).id = id := by apply key_of_lookup found
  constructor
  case taken =>
    intro id' mem
    rw [lookup_put, key]
    by_cases self : id' = id
    · subst self
      by_cases again : id' ∈ ids
      · obtain ⟨first, there, fit, now⟩ := h.taken id' again
        rw [now] at found
        cases found
        exact ⟨first, there, fit, by simp [leasedFrom]⟩
      · rw [h.left id' again] at found
        exact ⟨stored, found, fits again, by simp⟩
    · rw [if_neg self]
      apply h.taken id'
      simpa [self] using mem
  case left =>
    intro id' not_mem
    have apart : id' ∉ ids ∧ id' ≠ id := by simpa using not_mem
    rw [lookup_put, key, if_neg apart.2]
    apply h.left id' apart.1

end Granted

/-- `LeaseOutbox` takes intents that are ready and returns those it took. -/
theorem leaseOutbox_granted (s : DeliveryState) (now limit : Int) :
  Granted now (isReady now ·) s.outbox (s.leaseOutbox now limit).1.outbox
    ((s.leaseOutbox now limit).2.map (·.id))
  := by
  apply foldlRecOn
    (motive := fun acc => Granted now (isReady now ·) s.outbox acc.1 (acc.2.map (·.id))) _
    (leaseOne now) Granted.nothing
  intro acc h id mem
  unfold leaseOne
  cases found : acc.1.lookup id with
  | none => apply h
  | some stored =>
    have key : stored.entry.id = id := by apply key_of_lookup found
    have next := h.grant found ?_
    · simpa [leasedFrom, key] using next
    · intro fresh
      obtain ⟨first, there, fit⟩ := of_mem_readyOutboxIDs mem
      rw [h.left id fresh, there] at found
      cases found
      apply fit

/-- `RenewOutbox` extends leases that run and whose deadline was presented for them, and returns
those it extended. -/
theorem renewOutbox_granted (s : DeliveryState) (renew : List DeliveryEntry) (now : Int) :
  Granted now
    (fun stored => ∃ entry ∈ renew, entry.id = stored.id ∧
      renewable now entry.leaseDeadlineMs stored)
    s.outbox (s.renewOutbox renew now).1.outbox ((s.renewOutbox renew now).2.map (·.id))
  := by
  apply foldlRecOn (motive := fun acc => Granted now _ s.outbox acc.1 (acc.2.map (·.id)))
    _ (renewOne now) Granted.nothing
  intro acc h entry mem
  unfold renewOne
  cases found : acc.1.lookup entry.id with
  | none => apply h
  | some stored =>
    dsimp only
    split
    case isTrue fits =>
      have key : stored.entry.id = entry.id := by apply key_of_lookup found
      have next := h.grant found ?_
      · simpa [leasedFrom, key] using next
      · exact fun _ => ⟨entry, mem, key.symm, fits⟩
    case isFalse => apply h

theorem lookup_ackOutbox (s : DeliveryState) (entryID id : String) :
  (s.ackOutbox entryID).outbox.lookup id = if id = entryID then none else s.outbox.lookup id
  := by
  apply lookup_erase

theorem lookup_releaseOutbox {id : String} (ne : id ≠ entry.id) :
  (s.releaseOutbox entry).outbox.lookup id = s.outbox.lookup id
  := by
  unfold releaseOutbox
  cases found : s.outbox.lookup entry.id with
  | none => rfl
  | some held =>
    have key : held.id = entry.id := by apply key_of_lookup found
    apply (lookup_put id _).trans
    apply if_neg
    rwa [← key] at ne

theorem lookup_recordOutboxFailure {id : String} (ne : id ≠ entry.id) :
  (s.recordOutboxFailure entry maxAttempts).1.outbox.lookup id = s.outbox.lookup id
  := by
  fun_cases s.recordOutboxFailure entry maxAttempts with
  | case1 => rfl
  | case2 stored found =>
    apply (lookup_erase id _).trans
    apply if_neg ne
  | case3 stored found failed =>
    have key : failed.id = entry.id := by apply key_of_lookup found
    apply (lookup_put id _).trans
    apply if_neg
    rwa [key]

end DeliveryState

end Xflow
