import Mathlib.Data.Fintype.Basic
import Xflow.Lib.Leases
import Xflow.Lib.Run
import Xflow.Store.Delivery

/-!
# Who delivers an intent

Several deliverers work on the outbox of one execution.  A deliverer claims an intent when the store
leases it to it, until the deadline of the lease or of its last extension, and gives the claim up
when it releases or acknowledges the intent or records that it could not deliver it.

Only an extension asks who holds the lease.  As long as nobody releases, acknowledges or gives up an
intent that another claims, and nobody presents the deadline of another's lease, every claim whose
deadline is ahead is the one the store has on record and the only one.  A deliverer that was too
slow and releases what another has taken over makes the intent deliverable a second time.
-/

open Transition

namespace Xflow

open DeliveryState

/-- The deadline on record for an intent. -/
def DeliveryState.deadline (s : DeliveryState) (id : String) : Option Int :=
  (s.outbox.lookup id).map (·.leasedUntil)

/-- The deliverers of one execution at work: the store, the clock and who claims what. -/
structure Deliverers (D : Type*) where
  store : DeliveryState
  clock : Int
  claims : Leases.Claims D String Int

/-- The calls of a deliverer. -/
inductive DeliveryOp where
  | lease (limit : Int)
  | renew (entries : List DeliveryEntry)
  | release (entry : DeliveryEntry)
  | ack (entryID : String)
  | fail (entry : DeliveryEntry) (maxAttempts : Int)

/-- A call, with who makes it and when. -/
structure DeliveryCall (D : Type*) where
  deliverer : D
  now : Int
  op : DeliveryOp

namespace Deliverers

variable {D : Type*} [DecidableEq D] (m : Deliverers D)

/-- What a call does to the store and to the claims of its deliverer. -/
def perform (d : D) (now : Int) : DeliveryOp → Deliverers D
  | .lease limit =>
    let (store, out) := m.store.leaseOutbox now limit
    { store := store, clock := now
      claims := m.claims.set d (out.map (·.id)) (some (now + outboxDeliveryLeaseTTL)) }
  | .renew entries =>
    let (store, out) := m.store.renewOutbox entries now
    { store := store, clock := now
      claims := m.claims.set d (out.map (·.id)) (some (now + outboxDeliveryLeaseTTL)) }
  | .release entry =>
    { store := m.store.releaseOutbox entry, clock := now
      claims := m.claims.set d [entry.id] none }
  | .ack entryID =>
    { store := m.store.ackOutbox entryID, clock := now
      claims := m.claims.set d [entryID] none }
  | .fail entry maxAttempts =>
    { store := (m.store.recordOutboxFailure entry maxAttempts).1, clock := now
      claims := m.claims.set d [entry.id] none }

/-- A call is made at no earlier instant than the call before. -/
def step (call : DeliveryCall D) (m : Deliverers D) : Option (Deliverers D) :=
  if call.now < m.clock then none else some (m.perform call.deliverer call.now call.op)

/-- At the instant `now` nobody but `d` has a live claim on an intent. -/
def Unclaimed (d : D) (now : Int) (id : String) : Prop :=
  ∀ d', d' ≠ d → ¬ Leases.Live m.claims now d' id

/-- A call that disturbs nobody: it extends no lease by the deadline of another's, it releases and
acknowledges nothing that another claims, and gives up nothing that another claims. -/
def Rightful (call : DeliveryCall D) (m : Deliverers D) : Prop :=
  match call.op with
  | .lease _ => True
  | .renew entries => ∀ entry ∈ entries, ∀ d', d' ≠ call.deliverer → ∀ deadline,
      m.claims d' entry.id = some deadline → call.now < deadline →
      unixMilli deadline ≠ entry.leaseDeadlineMs
  | .release entry => m.Unclaimed call.deliverer call.now entry.id
  | .ack entryID => m.Unclaimed call.deliverer call.now entryID
  | .fail entry maxAttempts => m.Unclaimed call.deliverer call.now entry.id ∨
      ∀ stored, m.store.outbox.lookup entry.id = some stored →
        stored.entry.attempts + 1 < DeliveryState.deliveryAttempts maxAttempts

instance [Fintype D] (d : D) (now : Int) (id : String) : Decidable (m.Unclaimed d now id) :=
  inferInstanceAs (Decidable (∀ d', d' ≠ d → ¬ Leases.Live m.claims now d' id))

instance [Fintype D] (call : DeliveryCall D) (m : Deliverers D) : Decidable (Rightful call m) :=
  match call with
  | ⟨_, _, .lease _⟩ => isTrue trivial
  | ⟨d, now, .renew entries⟩ =>
    inferInstanceAs (Decidable (∀ entry ∈ entries, ∀ d', d' ≠ d →
      ∀ deadline ∈ m.claims d' entry.id, now < deadline →
        unixMilli deadline ≠ entry.leaseDeadlineMs))
  | ⟨d, now, .release entry⟩ => inferInstanceAs (Decidable (m.Unclaimed d now entry.id))
  | ⟨d, now, .ack entryID⟩ => inferInstanceAs (Decidable (m.Unclaimed d now entryID))
  | ⟨d, now, .fail entry maxAttempts⟩ =>
    inferInstanceAs (Decidable (m.Unclaimed d now entry.id ∨
      ∀ stored ∈ m.store.outbox.lookup entry.id,
        stored.entry.attempts + 1 < DeliveryState.deliveryAttempts maxAttempts))

/-- The claims and the store agree at an instant. -/
def Exclusive (t : Int) : Prop := Leases.Exclusive m.claims m.store.deadline t

/-! ### One call -/

variable {m} {d : D} {now : Int}

theorem Exclusive.granted
    {P : StoredEntry → Prop} {after : DeliveryState} {ids : List String} (h : m.Exclusive now)
    (granted : Granted now P m.store.outbox after.outbox ids)
    (free : ∀ id stored, m.store.outbox.lookup id = some stored → P stored →
      m.Unclaimed d now id) :
  Leases.Exclusive (m.claims.set d ids (some (now + outboxDeliveryLeaseTTL))) after.deadline now
  := by
  apply Leases.Exclusive.set h
  case rest =>
    intro id not_mem
    simp [deadline, granted.left id not_mem]
  case kept =>
    intro d' id ne mem live
    obtain ⟨stored, found, fits, -⟩ := granted.taken id mem
    exact absurd live (free id stored found fits d' ne)
  case given =>
    intro id mem deadline eq
    obtain ⟨stored, -, -, taken⟩ := granted.taken id mem
    rw [DeliveryState.deadline, taken, ← eq]
    rfl

theorem Exclusive.dropped {after : DeliveryState} {id : String} (h : m.Exclusive now)
    (rest : ∀ k, k ≠ id → after.outbox.lookup k = m.store.outbox.lookup k)
    (free : m.Unclaimed d now id ∨ after.deadline id = m.store.deadline id) :
  Leases.Exclusive (m.claims.set d [id] none) after.deadline now
  := by
  apply Leases.Exclusive.set h
  case rest =>
    intro k not_mem
    simp [deadline, rest k (by simpa using not_mem)]
  case kept =>
    intro d' k ne mem live
    obtain rfl : k = id := by simpa using mem
    obtain unclaimed | same := free
    · exact absurd live (unclaimed d' ne)
    · exact ⟨same, rfl⟩
  case given => simp

omit [DecidableEq D] in
theorem Exclusive.ready (h : m.Exclusive now) {id : String} {stored : StoredEntry}
    (found : m.store.outbox.lookup id = some stored) (ready : isReady now stored) :
  m.Unclaimed d now id
  := by
  intro d' _ live
  obtain ⟨deadline, record, lt⟩ := Leases.Exclusive.record_of_live h live
  have ends : stored.leasedUntil = deadline := by
    simpa [DeliveryState.deadline, found] using record
  have expired : ¬ now < stored.leasedUntil := by
    simp only [isReady, decide_eq_true_eq] at ready
    apply ready.1
  apply expired
  rwa [ends]

theorem Exclusive.perform
    {op : DeliveryOp} (h : m.Exclusive now) (rightful : Rightful ⟨d, now, op⟩ m) :
  (m.perform d now op).Exclusive now
  := by
  cases op with
  | lease limit =>
    apply h.granted (m.store.leaseOutbox_granted now limit)
    intro id stored found ready
    apply h.ready found ready
  | renew entries =>
    apply h.granted (m.store.renewOutbox_granted entries now)
    intro id stored found presented d' ne live
    obtain ⟨entry, mem, key, fits⟩ := presented
    obtain ⟨deadline, claim, lt⟩ := live
    have same : stored.id = id := by apply Keyed.key_of_lookup found
    have ends : stored.leasedUntil = deadline := by
      simpa [DeliveryState.deadline, found] using h.backed d' id deadline claim lt
    simp only [renewable, decide_eq_true_eq, ends] at fits
    apply rightful entry mem d' ne deadline _ lt fits.2
    rwa [key, same]
  | release entry =>
    apply h.dropped _ (.inl rightful)
    exact fun k ne => lookup_releaseOutbox ne
  | ack entryID =>
    apply h.dropped _ (.inl rightful)
    intro k ne
    apply (m.store.lookup_ackOutbox entryID k).trans
    apply if_neg ne
  | fail entry maxAttempts =>
    apply h.dropped
    · exact fun k ne => lookup_recordOutboxFailure ne
    · apply rightful.imp id
      intro few
      rw [Deliverers.perform]
      fun_cases m.store.recordOutboxFailure entry maxAttempts with
      | case1 => rfl
      | case2 stored found _ many => exact absurd (few stored found) (not_lt.mpr many)
      | case3 stored found failed =>
        have key : failed.id = entry.id := by apply Keyed.key_of_lookup found
        simp only [DeliveryState.deadline, Keyed.lookup_put, found]
        rw [if_pos key.symm]
        rfl

/-! ### Every run -/

theorem Exclusive.step {call : DeliveryCall D} {m m' : Deliverers D} (h : m.Exclusive m.clock)
    (rightful : Rightful call m) (next : step call m = some m') :
  m'.clock = call.now ∧ m'.Exclusive call.now
    ∧ ∀ d id, d ≠ call.deliverer → m'.claims d id = m.claims d id
  := by
  obtain ⟨d, now, op⟩ := call
  unfold Deliverers.step at next
  split at next
  case isTrue => cases next
  case isFalse late =>
    cases next
    refine ⟨?_, ?_, ?_⟩
    · cases op <;> rfl
    · apply Exclusive.perform (Leases.Exclusive.later h (not_lt.mp late)) rightful
    · intro d' id ne
      cases op <;> exact Leases.Claims.set_of_ne ne id

end Deliverers

/-- When no call disturbs another's claim: at every instant an intent has at most one claim whose
deadline is ahead, the store has each such claim on record, and no call of another deliverer takes
such a claim or its record away. -/
theorem deliveries_exclusive {D : Type*} [DecidableEq D] {m m' : Deliverers D}
    (fresh : ∀ d id, m.claims d id = none) (run : Run Deliverers.step Deliverers.Rightful m m') :
  (∀ t, m'.clock ≤ t →
    (∀ d d' id, Leases.Live m'.claims t d id → Leases.Live m'.claims t d' id → d = d') ∧
    ∀ d id deadline, m'.claims d id = some deadline → t < deadline →
      m'.store.deadline id = some deadline) ∧
  ∀ call m'', Deliverers.Rightful call m' → Deliverers.step call m' = some m'' →
    ∀ d id deadline, d ≠ call.deliverer → m'.claims d id = some deadline → m''.clock < deadline →
      m''.claims d id = some deadline ∧ m''.store.deadline id = some deadline
  := by
  have start : m.Exclusive m.clock := Leases.Exclusive.unclaimed fresh
  have agree : m'.Exclusive m'.clock := by
    apply Run.invariant (I := fun m => m.Exclusive m.clock) run start
    intro call m m' h rightful next
    obtain ⟨time, after, -⟩ := h.step rightful next
    rwa [time]
  constructor
  · intro t le
    have h := Leases.Exclusive.later agree le
    exact ⟨h.sole, h.backed⟩
  · intro call m'' rightful next d id deadline ne claim ahead
    obtain ⟨time, after, others⟩ := agree.step rightful next
    rw [← others d id ne] at claim
    rw [time] at ahead
    exact ⟨claim, after.backed d id deadline claim ahead⟩

namespace Deliverers.Sample

/-- An intent in the outbox. -/
def root : DeliveryEntry where
  id := "root/run/start/1"
  task := { nodeName := "start", nodeIdx := 0, type := .nodeExec, activationID := 1 }

/-- A running execution with one intent and no deliveries yet. -/
def one : Deliverers (Fin 3) where
  store :=
    { id := "run"
      status := some .running
      outbox := (∅ : EntryMap).put { entry := root } }
  clock := 0
  claims := fun _ _ => none

/-- The intent as it is presented under a deadline. -/
def presented (deadlineMs : Int) : DeliveryEntry := { root with leaseDeadlineMs := deadlineMs }

/-- The calls of a deliverer that extends its lease and hands the intent back, and of the next one
that takes it. -/
def handedBack : List (DeliveryCall (Fin 3)) :=
  [⟨0, 0, .lease 16⟩, ⟨0, 2000000000, .renew [presented 5000]⟩,
    ⟨0, 3000000000, .release (presented 7000)⟩, ⟨1, 3000000000, .lease 16⟩]

/-- The calls of a deliverer that is too slow, of the one that takes the intent over when the lease
has run out, and of a third one after the first handed the intent back. -/
def tooSlow : List (DeliveryCall (Fin 3)) :=
  [⟨0, 0, .lease 16⟩, ⟨1, 5000000000, .lease 16⟩, ⟨0, 5000000000, .release (presented 5000)⟩,
    ⟨2, 5000000000, .lease 16⟩]

end Deliverers.Sample

open Deliverers.Sample

/-- After one deliverer handed an intent back and another took it, the second one alone claims it.
-/
theorem handedBack_exclusive :
  ∃ m' : Deliverers (Fin 3), Run Deliverers.step Deliverers.Rightful one m' ∧
    Leases.Live m'.claims m'.clock 1 root.id ∧
    ∀ d, Leases.Live m'.claims m'.clock d root.id → d = 1
  := by
  have run := @Run.of_guarded _ _ Deliverers.step Deliverers.Rightful _ handedBack one _ rfl
  refine ⟨_, run, ⟨8000000000, rfl, by decide⟩, ?_⟩
  intro d other
  apply ((deliveries_exclusive (fun _ _ => rfl) run).1 _ (le_refl _)).1 d 1 root.id other
  exact ⟨8000000000, rfl, by decide⟩

/-- A deliverer that is too slow and releases the intent another has taken over: a third one takes
it too, and both claim it at the same time. -/
theorem staleRelease_shared :
  ∃ m m' : Deliverers (Fin 3), (∀ d id, m.claims d id = none) ∧
    Run Deliverers.step (fun _ _ => True) m m' ∧
    Leases.Live m'.claims m'.clock 1 root.id ∧ Leases.Live m'.claims m'.clock 2 root.id
  := by
  have run := @Run.of_exec _ _ Deliverers.step tooSlow one _ rfl
  exact ⟨one, _, fun _ _ => rfl, run, ⟨10000000000, rfl, by decide⟩, ⟨10000000000, rfl, by decide⟩⟩

end Xflow
