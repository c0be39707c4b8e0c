import Xflow.Lib.Run
import Xflow.Store.Delivery

/-!
# Replaying dead letters

An intent that could not be delivered often enough is moved from the outbox to the dead letters. A
replay moves it back, once for every time it was given up.  Every decision about a dead letter
leaves a receipt under the identifier of its request, and a later request of the same identifier is
answered from it; a request that finds no dead letter, or one whose intent was replayed under
another identifier, leaves none.
-/

open Function List Transition

namespace Xflow

open DeliveryState Keyed

/-- `ReplayDeadLetterRequest`, to the execution whose store it is. -/
structure ReplayRequest where
  entryID : String
  requestID : String := ""
  operator : String := ""
  reason : String := ""
  deriving DecidableEq

/-- `ReplayDeadLetterResult`. -/
structure ReplayResult where
  outcome : ReplayOutcome
  auditID : String := ""
  executionID : String
  nodeID : String := ""
  activationID : String := ""
  deriving DecidableEq

/-- How an outcome is reported again: what was replayed is then replayed already. -/
def ReplayOutcome.recovered : ReplayOutcome → ReplayOutcome
  | .replayed => .alreadyReplayed
  | outcome => outcome

/-- `result`: the answer that a receipt stands for. -/
def ReplayReceipt.result (r : ReplayReceipt) (id : String) : ReplayResult where
  outcome := r.outcome.recovered
  auditID := r.auditID
  executionID := id
  nodeID := r.node
  activationID := r.activation

/-- The identifier a request goes by: its own, or that of its entry. -/
def ReplayRequest.key (req : ReplayRequest) : String :=
  if req.requestID = "" then req.entryID else req.requestID

def replayIntentAllowsNode (intent : String) : Option NodeSnapshot → Bool
  | none => intent = "root" ∨ intent = "execute" ∨ intent = "skip"
  | some node =>
    match node.status with
    | .pending => intent = "root" ∨ intent = "retry" ∨ intent = "requeue" ∨ intent = "resume" ∨
        intent = "execute" ∨ intent = "skip"
    | .running | .committing | .waiting => intent = "root" ∨ intent = "retry" ∨
        intent = "requeue" ∨ intent = "execute" ∨ intent = "skip"
    | .suspended => intent = "resume"
    | _ => false

/-- Whether the row of the node rules a replay out: `advance` and `mergecancel` are for nodes that
are done, every other intent for nodes that are not. -/
def replayNodeRefusal (info : DeadLetterMeta) (node : Option NodeSnapshot) :
    Option ReplayOutcome :=
  let nodeTerminal := node.any (·.status.isTerminal)
  if info.intent = "advance" ∨ info.intent = "mergecancel" then
    if nodeTerminal then none else some .rejectedMetadataMissing
  else if nodeTerminal then some .rejectedNodeTerminal
  else if replayIntentAllowsNode info.intent node then none
  else some .rejectedMetadataMissing

/-- Whether the activation of the dead letter is the one the node is in. -/
def replayActivationRefusal (info : DeadLetterMeta) : Option NodeSnapshot → Option ReplayOutcome
  | none => none
  | some node =>
    if toString node.activationID ≠ info.activation then some .rejectedActivationMismatch else none

namespace DeliveryState

variable (s : DeliveryState)

/-- The receipt that answers a request: its own, or that of the replay of its entry. -/
def priorReceipt (requestID entryID : String) : Option ReplayReceipt :=
  match s.replayReceipts requestID with
  | some r => some r
  | none =>
    if s.replayEntryIdx entryID ≠ "" then s.replayReceipts (s.replayEntryIdx entryID) else none

/-- Why a dead letter may not be replayed, if so. -/
def replayRefusal (info : DeadLetterMeta) : Option ReplayOutcome :=
  if info.node = "" ∨ info.activation = "" then some .rejectedMetadataMissing
  else
    match s.status with
    | none => some .rejectedInactive
    | some status =>
      if status ≠ .running then some .rejectedTerminal
      else
        (replayNodeRefusal info (s.nodes info.node)).or
          (replayActivationRefusal info (s.nodes info.node))

/-- The receipt of a decision. -/
def receiptOf (now : Int) (req : ReplayRequest) (info : DeadLetterMeta)
    (outcome : ReplayOutcome) : ReplayReceipt where
  auditID := req.key ++ ":" ++ toString (unixMilli now)
  node := info.node
  activation := info.activation
  entryID := req.entryID
  operator := req.operator
  reason := req.reason
  outcome := outcome
  occurredAtMs := unixMilli now

/-- `writeReplayReceiptLocked`. -/
def writeReplayReceipt (req : ReplayRequest) (receipt : ReplayReceipt) : DeliveryState :=
  { s with replayReceipts := update s.replayReceipts req.key (some receipt) }

/-- Move a dead letter back to the outbox: nobody holds it and nothing failed yet. -/
def revive (entryID : String) (stored : StoredEntry) : DeliveryState :=
  { s with
    outbox := s.outbox.put
      { entry := { stored.entry with attempts := 0 }, leasedUntil := zeroTime, deadMeta := none }
    deadOutbox := s.deadOutbox.erase entryID }

def replayDeadLetter (now : Int) (req : ReplayRequest) : DeliveryState × ReplayResult :=
  if req.entryID = "" then (s, { outcome := .notFound, executionID := s.id })
  else
    match s.priorReceipt req.key req.entryID with
    | some r => (s, r.result s.id)
    | none =>
      match s.deadOutbox.lookup req.entryID with
      | none => (s, { outcome := .notFound, executionID := s.id })
      | some stored =>
        let info := stored.deadMeta.getD {}
        match s.replayRefusal info with
        | some outcome =>
          let receipt := receiptOf now req info outcome
          (s.writeReplayReceipt req receipt, receipt.result s.id)
        | none =>
          let receipt := receiptOf now req info .replayed
          let moved := (s.revive req.entryID stored).writeReplayReceipt req receipt
          ({ moved with replayEntryIdx := update moved.replayEntryIdx req.entryID req.key },
            { receipt.result s.id with outcome := .replayed })

/-! ### What a replay does -/

variable {s}

/-- What a request can come to: its entry is not among the dead letters or was decided under its
identifier or replayed under another, and nothing changes; it is refused with a receipt; or the dead
letter is moved. -/
inductive Replays (s : DeliveryState) (now : Int) (req : ReplayRequest) :
    DeliveryState → ReplayResult → Prop where
  | missing (fresh : s.replayReceipts req.key = none ∨ req.entryID = "") :
    Replays s now req s { outcome := .notFound, executionID := s.id }
  | recovered (r : ReplayReceipt) (prior : s.priorReceipt req.key req.entryID = some r) :
    Replays s now req s (r.result s.id)
  | refused (info : DeadLetterMeta) (outcome : ReplayOutcome)
    (fresh : s.replayReceipts req.key = none) (rejected : outcome.recovered = outcome) :
    Replays s now req (s.writeReplayReceipt req (receiptOf now req info outcome))
      ((receiptOf now req info outcome).result s.id)
  | moved (info : DeadLetterMeta) (stored : StoredEntry)
    (fresh : s.replayReceipts req.key = none)
    (dead : s.deadOutbox.lookup req.entryID = some stored) :
    Replays s now req
      { (s.revive req.entryID stored).writeReplayReceipt req (receiptOf now req info .replayed) with
        replayEntryIdx := update s.replayEntryIdx req.entryID req.key }
      { (receiptOf now req info .replayed).result s.id with outcome := .replayed }

theorem replayRefusal_recovered {info : DeadLetterMeta} {outcome : ReplayOutcome}
    (h : s.replayRefusal info = some outcome) :
  outcome.recovered = outcome
  := by
  have ne : outcome ≠ .replayed := by
    unfold replayRefusal replayNodeRefusal replayActivationRefusal at h
    grind
  cases outcome <;> first | rfl | exact absurd rfl ne

theorem replayDeadLetter_replays (s : DeliveryState) (now : Int) (req : ReplayRequest) :
  Replays s now req (s.replayDeadLetter now req).1 (s.replayDeadLetter now req).2
  := by
  have fresh (none : s.priorReceipt req.key req.entryID = none) :
      s.replayReceipts req.key = .none := by
    unfold priorReceipt at none
    cases own : s.replayReceipts req.key with
    | none => rfl
    | some r => simp [own] at none
  fun_cases s.replayDeadLetter now req with
  | case1 empty => exact .missing (.inr empty)
  | case2 _ r prior => exact .recovered r prior
  | case3 _ none => exact .missing (.inl (fresh none))
  | case4 _ none _ _ _ outcome refusal =>
    exact .refused _ outcome (fresh none) (replayRefusal_recovered refusal)
  | case5 _ none stored dead => exact .moved _ stored (fresh none) dead

end DeliveryState

/-! ### The life of a dead letter -/

inductive LetterEvent where
  | deadLettered (id : String)
  | replayed (id : String)
  deriving DecidableEq

/-- The store, with the times intents were given up and reported replayed, the oldest first. -/
structure Letters where
  store : DeliveryState
  log : List LetterEvent := []

/-- The calls that move intents, and whatever else happens to the execution and its nodes. -/
inductive LetterOp where
  | fail (entry : DeliveryEntry) (maxAttempts : Int)
  | replay (now : Int) (req : ReplayRequest)
  | lease (now : Int) (limit : Int)
  | ack (entryID : String)
  | world (status : Option ExecutionStatus) (nodes : String → Option NodeSnapshot)

namespace LetterOp

/-- What a call leaves of the store, and what it reports of an intent. -/
def call (s : DeliveryState) : LetterOp → DeliveryState × Option LetterEvent
  | fail entry maxAttempts =>
    let (s', result) := s.recordOutboxFailure entry maxAttempts
    (s', if result.deadLettered then some (.deadLettered entry.id) else none)
  | replay now req =>
    let (s', result) := s.replayDeadLetter now req
    (s', if result.outcome = .replayed then some (.replayed req.entryID) else none)
  | lease now limit => ((s.leaseOutbox now limit).1, none)
  | ack entryID => (s.ackOutbox entryID, none)
  | world status nodes => ({ s with status := status, nodes := nodes }, none)

/-- One call, and what it reports added to the log. -/
def step (op : LetterOp) (m : Letters) : Option Letters :=
  let (s, event) := op.call m.store
  some { store := s, log := m.log ++ event.toList }

end LetterOp

namespace DeliveryState

/-- The intent waits in the outbox. -/
def Waits (s : DeliveryState) (id : String) : Prop := (s.outbox.lookup id).isSome

/-- The intent is among the dead letters. -/
def IsDead (s : DeliveryState) (id : String) : Prop := (s.deadOutbox.lookup id).isSome

instance (s : DeliveryState) (id : String) : Decidable (s.IsDead id) :=
  inferInstanceAs (Decidable ((s.deadOutbox.lookup id).isSome = true))

/-- How intents move when a call reports `event`: only what is given up leaves the outbox for the
dead letters, and only what is replayed goes back. -/
structure Moves (s s' : DeliveryState) (event : Option LetterEvent) : Prop where
  waits : ∀ id, s'.Waits id →
    (s.Waits id ∧ event ≠ some (.deadLettered id)) ∨ event = some (.replayed id)
  dead : ∀ id, s'.IsDead id ↔
    (s.IsDead id ∧ event ≠ some (.replayed id)) ∨ event = some (.deadLettered id)
  given_up : ∀ id, event = some (.deadLettered id) → s.Waits id
  was_dead : ∀ id, event = some (.replayed id) → s.IsDead id

theorem Moves.quiet {s s' : DeliveryState} (waits : ∀ id, s'.Waits id → s.Waits id)
    (dead : s'.deadOutbox = s.deadOutbox) :
  Moves s s' none
  := by
  constructor
  case waits => exact fun id h => .inl ⟨waits id h, by simp⟩
  case dead => simp [IsDead, dead]
  case given_up => simp
  case was_dead => simp

theorem recordOutboxFailure_moves (s : DeliveryState) (entry : DeliveryEntry) (maxAttempts : Int) :
  Moves s (s.recordOutboxFailure entry maxAttempts).1
    (if (s.recordOutboxFailure entry maxAttempts).2.deadLettered
      then some (.deadLettered entry.id) else none)
  := by
  fun_cases s.recordOutboxFailure entry maxAttempts with
  | case1 => exact Moves.quiet (fun _ h => h) rfl
  | case2 stored found failed =>
    have key : failed.id = entry.id := by apply key_of_lookup found
    constructor
    case waits =>
      intro id waits
      simp only [Waits, deadLetter, lookup_erase] at waits ⊢
      grind
    case dead =>
      intro id
      unfold IsDead deadLetter
      rw [lookup_put]
      change (if id = failed.id then _ else s.deadOutbox.lookup id).isSome ↔ _
      grind
    case given_up =>
      intro id died
      obtain rfl : entry.id = id := by simpa using died
      simp [Waits, found]
    case was_dead => simp
  | case3 stored found failed =>
    have key : failed.id = entry.id := by apply key_of_lookup found
    refine Moves.quiet ?_ rfl
    intro id waits
    simp only [Waits, lookup_put, key] at waits ⊢
    grind

theorem replayDeadLetter_moves (s : DeliveryState) (now : Int) (req : ReplayRequest) :
  Moves s (s.replayDeadLetter now req).1
    (if (s.replayDeadLetter now req).2.outcome = .replayed then some (.replayed req.entryID)
      else none)
  := by
  have recovered_ne : ∀ outcome : ReplayOutcome, outcome.recovered ≠ .replayed := by
    intro outcome
    cases outcome <;> simp [ReplayOutcome.recovered]
  have replays := s.replayDeadLetter_replays now req
  generalize s.replayDeadLetter now req = answer at replays ⊢
  obtain ⟨s', result⟩ := answer
  dsimp only at replays ⊢
  cases replays with
  | missing => exact Moves.quiet (fun _ h => h) rfl
  | recovered r prior | refused info outcome fresh rejected =>
    rw [if_neg (by apply recovered_ne)]
    exact Moves.quiet (fun _ h => h) rfl
  | moved info stored fresh dead =>
    have key : stored.id = req.entryID := by apply key_of_lookup dead
    rw [if_pos rfl]
    constructor
    case waits =>
      intro id waits
      by_cases self : id = req.entryID
      · exact .inr (by rw [self])
      · apply Or.inl
        constructor
        · have rest : (s.revive req.entryID stored).outbox.lookup id = s.outbox.lookup id := by
            apply (lookup_put id _).trans
            apply if_neg
            rwa [← key] at self
          rwa [Waits, ← rest]
        · simp
    case dead =>
      intro id
      have rest : (s.revive req.entryID stored).deadOutbox.lookup id
          = if id = req.entryID then none else s.deadOutbox.lookup id := lookup_erase id _
      change ((s.revive req.entryID stored).deadOutbox.lookup id).isSome ↔ _
      rw [rest]
      by_cases self : id = req.entryID
      · simp [self]
      · simp [self, Ne.symm self, IsDead]
    case given_up => simp
    case was_dead =>
      intro id replayed
      obtain rfl : req.entryID = id := by simpa using replayed
      simp [IsDead, dead]

theorem leaseOutbox_moves (s : DeliveryState) (now limit : Int) :
  Moves s (s.leaseOutbox now limit).1 none
  := by
  refine Moves.quiet ?_ rfl
  intro id waits
  have granted := s.leaseOutbox_granted now limit
  by_cases mem : id ∈ (s.leaseOutbox now limit).2.map (·.id)
  · obtain ⟨stored, found, -, -⟩ := granted.taken id mem
    simp [Waits, found]
  · rwa [Waits, granted.left id mem] at waits

theorem ackOutbox_moves (s : DeliveryState) (entryID : String) :
  Moves s (s.ackOutbox entryID) none
  := by
  refine Moves.quiet ?_ rfl
  intro id waits
  rw [Waits, lookup_ackOutbox] at waits
  split at waits
  case isTrue => cases waits
  case isFalse => apply waits

end DeliveryState

theorem LetterOp.call_moves (s : DeliveryState) (op : LetterOp) :
  Moves s (op.call s).1 (op.call s).2
  := by
  cases op with
  | fail entry maxAttempts => apply s.recordOutboxFailure_moves
  | replay now req => apply s.replayDeadLetter_moves
  | lease now limit => apply s.leaseOutbox_moves
  | ack entryID => apply s.ackOutbox_moves
  | world status nodes => exact Moves.quiet (fun _ h => h) rfl

/-! ### Receipts stay -/

variable {r : ReplayReceipt}

theorem LetterOp.call_receipts {s : DeliveryState} {key : String}
    (op : LetterOp) (there : s.replayReceipts key = some r) :
  (op.call s).1.replayReceipts key = some r ∧ (op.call s).1.id = s.id
  := by
  cases op with
  | fail entry maxAttempts =>
    rw [call]
    fun_cases s.recordOutboxFailure entry maxAttempts
    all_goals exact ⟨there, rfl⟩
  | replay now req =>
    have apart : s.replayReceipts req.key = none → key ≠ req.key := by grind
    have replays := s.replayDeadLetter_replays now req
    rw [call]
    generalize s.replayDeadLetter now req = answer at replays ⊢
    obtain ⟨s', result⟩ := answer
    dsimp only at replays ⊢
    cases replays with
    | missing | recovered r prior => exact ⟨there, rfl⟩
    | refused info outcome fresh rejected | moved info stored fresh dead =>
      exact ⟨(update_of_ne (apart fresh) _ _).trans there, rfl⟩
  | lease now limit | ack entryID | world status nodes => exact ⟨there, rfl⟩

namespace DeliveryState

variable {req : ReplayRequest} {s : DeliveryState}

theorem replayDeadLetter_unnamed (now : Int) (unnamed : req.entryID = "") :
  s.replayDeadLetter now req = (s, { outcome := .notFound, executionID := s.id })
  := by
  simp [replayDeadLetter, unnamed]

theorem replayDeadLetter_of_receipt (now : Int) (named : req.entryID ≠ "")
    (there : s.replayReceipts req.key = some r) :
  s.replayDeadLetter now req = (s, r.result s.id)
  := by
  have prior : s.priorReceipt req.key req.entryID = some r := by simp [priorReceipt, there]
  simp [replayDeadLetter, named, prior]

section

variable {s' : DeliveryState} {now : Int} {result : ReplayResult} (h : Replays s now req s' result)

include h

attribute [local simp] writeReplayReceipt

theorem Replays.receipt (named : req.entryID ≠ "")
    (there : s'.replayReceipts req.key = some r) :
  r.result s'.id = { result with outcome := result.outcome.recovered }
  := by
  have twice : ∀ outcome : ReplayOutcome, outcome.recovered.recovered = outcome.recovered := by
    intro outcome
    cases outcome <;> rfl
  cases h with
  | missing fresh =>
    obtain fresh | empty := fresh
    · rw [fresh] at there
      cases there
    · exact absurd empty named
  | recovered r' prior =>
    obtain rfl : r = r' := by simpa [priorReceipt, there] using prior
    simp [ReplayReceipt.result, twice]
  | refused info outcome fresh rejected =>
    obtain rfl : receiptOf now req info outcome = r := by
      simpa using there
    simp [ReplayReceipt.result, twice]
  | moved info stored fresh dead =>
    obtain rfl : receiptOf now req info .replayed = r := by
      simpa using there
    rfl

theorem Replays.unmoved :
  (result.outcome ≠ .replayed → s'.outbox = s.outbox ∧ s'.deadOutbox = s.deadOutbox) ∧
    (s'.replayReceipts req.key = none → s' = s)
  := by
  cases h with
  | missing | recovered r prior => exact ⟨fun _ => ⟨rfl, rfl⟩, fun _ => rfl⟩
  | refused info outcome fresh rejected => exact ⟨fun _ => ⟨rfl, rfl⟩, by simp⟩
  | moved info stored fresh dead => exact ⟨by simp, by simp⟩

end

end DeliveryState

/-! ### Every run -/

namespace Letters

/-- What was given up since the store `s₀` is what was replayed and what is dead now, and no intent
both waits and is dead. -/
structure Sound (s₀ : DeliveryState) (m : Letters) : Prop where
  apart : ∀ id, m.store.Waits id → ¬ m.store.IsDead id
  balance : ∀ id, m.log.count (.deadLettered id) + (if s₀.IsDead id then 1 else 0)
    = m.log.count (.replayed id) + (if m.store.IsDead id then 1 else 0)
  history : ∀ pre, pre <+: m.log → ∀ id,
    pre.count (.replayed id) ≤ pre.count (.deadLettered id) + (if s₀.IsDead id then 1 else 0) ∧
    pre.count (.deadLettered id) + (if s₀.IsDead id then 1 else 0) ≤ pre.count (.replayed id) + 1

variable {m : Letters}

theorem sound_start (apart : ∀ id, m.store.Waits id → ¬ m.store.IsDead id) (empty : m.log = []) :
  Sound m.store m
  := by
  constructor
  case apart => apply apart
  case balance => simp [empty]
  case history =>
    intro pre within id
    obtain rfl : pre = [] := by simpa [empty] using within
    split <;> simp

theorem count_append_toList (log : List LetterEvent) (event : Option LetterEvent)
    (e : LetterEvent) :
  (log ++ event.toList).count e = log.count e + if event = some e then 1 else 0
  := by
  cases event with
  | none => simp
  | some event => simp [count_singleton]

variable {s₀ : DeliveryState} {m' : Letters}

theorem Sound.moves {s' : DeliveryState} {event : Option LetterEvent} (h : Sound s₀ m)
    (moves : m.store.Moves s' event) :
  Sound s₀ ⟨s', m.log ++ event.toList⟩
  := by
  have balance : ∀ id, (m.log ++ event.toList).count (.deadLettered id)
      + (if s₀.IsDead id then 1 else 0)
      = (m.log ++ event.toList).count (.replayed id) + (if s'.IsDead id then 1 else 0) := by
    intro id
    rw [count_append_toList, count_append_toList]
    have before := h.balance id
    have dead := moves.dead id
    by_cases died : event = some (.deadLettered id)
    · have alive := h.apart id (moves.given_up id died)
      simp [died, dead, alive] at before ⊢
      omega
    · by_cases replayed : event = some (.replayed id)
      · have was := moves.was_dead id replayed
        simp [replayed, was, dead] at before ⊢
        omega
      · simp [died, replayed, dead]
        omega
  constructor
  case apart =>
    intro id waits dead
    obtain ⟨waited, survived⟩ | replayed := moves.waits id waits
    · obtain ⟨was, -⟩ | died := (moves.dead id).mp dead
      · apply h.apart id waited was
      · apply survived died
    · obtain ⟨-, kept⟩ | died := (moves.dead id).mp dead
      · apply kept replayed
      · rw [replayed] at died
        cases died
  case balance => apply balance
  case history =>
    intro pre within id
    have whole : pre = m.log ++ event.toList ∨ pre <+: m.log := by
      cases event with
      | none => exact .inr (by simpa using within)
      | some event => apply prefix_concat_iff.mp within
    obtain rfl | within := whole
    · have total := balance id
      split at total <;> split at total <;> grind
    · apply h.history pre within id

theorem Sound.step {op : LetterOp} (h : Sound s₀ m) (next : op.step m = some m') :
  Sound s₀ m'
  := by
  obtain rfl : ⟨(op.call m.store).1, m.log ++ (op.call m.store).2.toList⟩ = m' :=
    Option.some.inj next
  apply h.moves (op.call_moves m.store)

theorem receipt_kept {key : String}
    (run : Run LetterOp.step (fun _ _ => True) m m') (there : m.store.replayReceipts key = some r) :
  m'.store.replayReceipts key = some r ∧ m'.store.id = m.store.id
  := by
  apply Run.invariant
    (I := fun m' => m'.store.replayReceipts key = some r ∧ m'.store.id = m.store.id) run
      ⟨there, rfl⟩
  intro op s t h _ next
  obtain rfl : ⟨(op.call s.store).1, s.log ++ (op.call s.store).2.toList⟩ = t :=
    Option.some.inj next
  obtain ⟨kept, same⟩ := op.call_receipts h.1
  exact ⟨kept, same.trans h.2⟩

end Letters

/-- Over every run: no intent both waits and is dead; between two times it is given up it is
reported replayed once at most; a request that does not report its entry replayed moves nothing; one
after which no receipt stands under its identifier changes nothing at all; and after one with such a
receipt, however the run goes on, every request of the same identifier and entry gets the same
answer, with a replay reported as done already, and changes nothing. -/
theorem replay_once_per_death
    {m m' : Letters} (apart : ∀ id, m.store.Waits id → ¬ m.store.IsDead id) (empty : m.log = [])
    (run : Run LetterOp.step (fun _ _ => True) m m') :
  (∀ id, ¬ (m'.store.Waits id ∧ m'.store.IsDead id)) ∧
  (∀ id pre seg post, m'.log = pre ++ seg ++ post → .deadLettered id ∉ seg →
    seg.count (.replayed id) ≤ 1) ∧
  ∀ now req s result, m'.store.replayDeadLetter now req = (s, result) →
    (result.outcome ≠ .replayed →
      s.outbox = m'.store.outbox ∧ s.deadOutbox = m'.store.deadOutbox) ∧
    (s.replayReceipts req.key = none → s = m'.store) ∧
    (s.replayReceipts req.key ≠ none → ∀ log m'',
      Run LetterOp.step (fun _ _ => True) ⟨s, log⟩ m'' →
      ∀ now' req', req'.entryID = req.entryID → req'.key = req.key →
        m''.store.replayDeadLetter now' req'
          = (m''.store, { result with outcome := result.outcome.recovered }))
  := by
  have sound : Letters.Sound m.store m' := by
    apply Run.invariant (I := Letters.Sound m.store) run (Letters.sound_start apart empty)
    exact fun op m m' h _ next => h.step next
  refine ⟨?_, ?_, ?_⟩
  · intro id both
    apply sound.apart id both.1 both.2
  · intro id pre seg post split spared
    have first := sound.history pre ⟨seg ++ post, by simp [split]⟩ id
    have second := sound.history (pre ++ seg) ⟨post, by simp [split]⟩ id
    have none := count_eq_zero.mpr spared
    rw [count_append, count_append] at second
    omega
  · intro now req s result answer
    have replays := m'.store.replayDeadLetter_replays now req
    rw [answer] at replays
    obtain ⟨unmoved, unchanged⟩ := replays.unmoved
    refine ⟨unmoved, unchanged, ?_⟩
    intro some log m'' run' now' req' entry key
    obtain ⟨r, there⟩ := Option.ne_none_iff_exists'.mp some
    obtain ⟨kept, same⟩ := Letters.receipt_kept run' there
    by_cases named : req.entryID = ""
    · rw [replayDeadLetter_unnamed now named] at answer
      cases answer
      rw [replayDeadLetter_unnamed now' (entry.trans named), same]
      rfl
    · rw [← key] at kept
      rw [replayDeadLetter_of_receipt now' (by rwa [entry]) kept, same, replays.receipt named there]

namespace Letters.Sample

/-- An intent in the outbox. -/
def root : DeliveryEntry where
  id := "root/run/start/1"
  task := { nodeName := "start", nodeIdx := 0, type := .nodeExec, activationID := 1 }

/-- A running execution with one intent. -/
def one : Letters where
  store :=
    { id := "run"
      status := some .running
      outbox := (∅ : EntryMap).put { entry := root } }

/-- A request to replay the intent. -/
def request : ReplayRequest := { entryID := root.id, requestID := "r", operator := "ops" }

/-- The execution after the intent was given up at its first failure. -/
def dead : Letters where
  store := (one.store.recordOutboxFailure root 1).1
  log := [.deadLettered root.id]

theorem one_apart (id : String) : one.store.Waits id → ¬ one.store.IsDead id
  := by
  exact fun _ dead => nomatch dead

end Letters.Sample

open Letters.Sample

/-- An intent given up at once and replayed: the request made again is told so under the identifier
of the first answer, and changes nothing. -/
theorem repeated_replay_recovered :
  Run LetterOp.step (fun _ _ => True) one dead ∧
    (dead.store.replayDeadLetter 1000000 request).2.outcome = .replayed ∧
    (dead.store.replayDeadLetter 1000000 request).1.replayDeadLetter 2000000 request
      = ((dead.store.replayDeadLetter 1000000 request).1,
          { (dead.store.replayDeadLetter 1000000 request).2 with outcome := .alreadyReplayed })
  := by
  have run : Run LetterOp.step (fun _ _ => True) one dead :=
    @Run.of_exec _ _ LetterOp.step [.fail root 1] _ _ rfl
  refine ⟨run, rfl, ?_⟩
  have first := (replay_once_per_death one_apart rfl run).2.2 1000000 request _ _ rfl
  apply first.2.2 (fun none => nomatch none) [] ⟨_, []⟩ .refl 2000000 request
    rfl rfl

/-- A request that found no dead letter, made again after the intent was given up, replays it. -/
theorem notFound_then_replayed :
  ∃ (m m' : Letters) (req : ReplayRequest), (∀ id, m.store.Waits id → ¬ m.store.IsDead id) ∧
    m.log = [] ∧ (m.store.replayDeadLetter 0 req).2.outcome = .notFound ∧
    Run LetterOp.step (fun _ _ => True) ⟨(m.store.replayDeadLetter 0 req).1, []⟩ m' ∧
    (m'.store.replayDeadLetter 1000000 req).2.outcome = .replayed ∧
    m'.store.outbox.lookup req.entryID = none ∧
    (m'.store.replayDeadLetter 1000000 req).1.Waits req.entryID
  := by
  have run : Run LetterOp.step (fun _ _ => True)
      ⟨(one.store.replayDeadLetter 0 request).1, []⟩ dead :=
    @Run.of_exec _ _ LetterOp.step [.fail root 1] _ _ rfl
  exact ⟨one, dead, request, one_apart, rfl, rfl, run, rfl, rfl, rfl⟩

/-! ### Listing -/

/-- The instant that dead letters are listed by. -/
def DeliveryEntry.since (e : DeliveryEntry) : Int :=
  if e.createdAt = zeroTime then e.availableAt else e.createdAt

/-- `ListDeadLetters`, once the dead letters were sorted: a page and the cursor of the next one. -/
def listDeadLetters (out : List DeliveryEntry) (limit : Int) (cursor : String) :
    List DeliveryEntry × String :=
  let limit := if limit ≤ 0 then 100 else min limit.toNat 500
  let rest := if cursor = "" then out else (out.dropWhile (·.id ≠ cursor)).tail
  let page := rest.take limit
  (page, if limit < rest.length then (page.getLast?.map (·.id)).getD "" else "")

/-- The letters of all pages, if the cursors end: each call sorts the letters anew. -/
def visited (limit : Int) : List (List DeliveryEntry) → String → Option (List DeliveryEntry)
  | [], _ => none
  | out :: outs, cursor =>
    let (page, next) := listDeadLetters out limit cursor
    if next = "" then some page else (visited limit outs next).map (page ++ ·)

/-- What the sort of the dead letters may give: it goes by their instants only and starts from the
order of a map. -/
structure DeliveryState.Sorts (s : DeliveryState) (out : List DeliveryEntry) : Prop where
  perm : out.Perm (s.deadOutbox.values.map (·.entry))
  oldest : out.Pairwise (fun a b => a.since ≤ b.since)

theorem tail_dropWhile {before rest : List DeliveryEntry} {x : DeliveryEntry}
    (ids : ((before ++ x :: rest).map (·.id)).Nodup) :
  ((before ++ x :: rest).dropWhile (·.id ≠ x.id)).tail = rest
  := by
  rw [dropWhile_append_of_pos]
  · simp
  · intro e mem
    rw [map_append, nodup_append] at ids
    simpa using ids.2.2 e.id (mem_map_of_mem mem) x.id (by simp)

theorem visited_rest {limit : Int} {all before rest : List DeliveryEntry} {cursor : String}
    {outs : List (List DeliveryEntry)} (ids : (all.map (·.id)).Nodup) (named : ∀ e ∈ all, e.id ≠ "")
    (same : ∀ out ∈ outs, out = all) (enough : rest.length < outs.length)
    (split : all = before ++ rest)
    (at_rest : (if cursor = "" then all else (all.dropWhile (·.id ≠ cursor)).tail) = rest) :
  visited limit outs cursor = some rest
  := by
  induction outs generalizing before rest cursor with
  | nil => cases enough
  | cons out outs ih =>
    obtain rfl := same out mem_cons_self
    rw [visited, listDeadLetters]
    have positive : 0 < if limit ≤ 0 then 100 else min limit.toNat 500 := by grind
    generalize (if limit ≤ 0 then 100 else min limit.toNat 500) = n at positive ⊢
    simp only [at_rest]
    by_cases more : n < rest.length
    · obtain ⟨init, x, page⟩ := (eq_nil_or_concat (rest.take n)).resolve_left (by
        rw [take_eq_nil_iff, ← length_eq_zero_iff]
        omega)
      rw [concat_eq_append] at page
      have parts : rest = init ++ x :: rest.drop n := by
        rw [← singleton_append, ← append_assoc, ← page, take_append_drop]
      rw [parts, ← append_assoc] at split
      have first : x.id ≠ "" := named x (by simp [split])
      have after : out = before ++ init ++ [x] ++ rest.drop n := by simpa using split
      have next : visited limit outs x.id = some (rest.drop n) := by
        refine ih (fun o mem => same o (mem_cons_of_mem _ mem)) ?_ after ?_
        · rw [length_drop]
          rw [length_cons] at enough
          omega
        · rw [if_neg first, split]
          exact tail_dropWhile (split ▸ ids)
      simp [more, page, next, first]
      exact parts.symm
    · simp [more, take_of_length_le (not_lt.mp more)]

/-- Pages of one letter each, up to one that changes places with the next. -/
theorem visited_until {all before l rest : List DeliveryEntry} {a b : DeliveryEntry}
    {cursor : String} {outs : List (List DeliveryEntry)} (ids : (all.map (·.id)).Nodup)
    (named : ∀ e ∈ all, e.id ≠ "")
    (split : all = before ++ (l ++ a :: b :: rest))
    (at_rest : (if cursor = "" then all else (all.dropWhile (·.id ≠ cursor)).tail)
      = l ++ a :: b :: rest) :
  visited 1 (replicate (l.length + 1) all ++ outs) cursor
    = (visited 1 outs a.id).map (l ++ a :: ·)
  := by
  induction l generalizing before cursor with
  | nil =>
    have first : a.id ≠ "" := named a (by simp [split])
    rw [length_nil, zero_add, replicate_one, singleton_append, visited, listDeadLetters, at_rest]
    simp [first]
  | cons x l ih =>
    have first : x.id ≠ "" := named x (by simp [split])
    have next := @ih (before ++ [x]) x.id (by simp [split]) (by
      rw [if_neg first, split]
      exact tail_dropWhile (split ▸ ids))
    rw [length_cons, replicate_succ, cons_append, visited, listDeadLetters, at_rest]
    simp [first, next, Function.comp_def]

/-- Sorted letters of which two have one instant have two such letters next to each other. -/
theorem exists_adjacent {all : List DeliveryEntry}
    (oldest : all.Pairwise (fun a b => a.since ≤ b.since)) (equal : ¬ (all.map (·.since)).Nodup) :
  ∃ l a b rest, all = l ++ a :: b :: rest ∧ a.since = b.since
  := by
  induction all with
  | nil => simp at equal
  | cons x all ih =>
    obtain ⟨least, oldest⟩ := pairwise_cons.mp oldest
    by_cases distinct : (all.map (·.since)).Nodup
    case neg =>
      obtain ⟨l, a, b, rest, rfl, same⟩ := ih oldest distinct
      exact ⟨x :: l, a, b, rest, rfl, same⟩
    case pos =>
      obtain ⟨y, mem, same⟩ : ∃ y ∈ all, y.since = x.since := by simpa [distinct] using equal
      cases all with
      | nil => cases mem
      | cons b rest =>
        have after : b.since ≤ y.since := by
          rcases mem_cons.mp mem with rfl | mem
          · exact le_rfl
          · exact (pairwise_cons.mp oldest).1 y mem
        exact ⟨[], x, b, rest, rfl, le_antisymm (least b mem_cons_self) (same ▸ after)⟩

namespace DeliveryState

variable {s : DeliveryState} {out : List DeliveryEntry}

theorem exists_sorts (s : DeliveryState) : ∃ out, s.Sorts out
  := by
  let le (a b : DeliveryEntry) : Bool := a.since ≤ b.since
  refine ⟨(s.deadOutbox.values.map (·.entry)).mergeSort le, mergeSort_perm _ _, ?_⟩
  have sorted := @pairwise_mergeSort _ le (by grind) (by grind) (s.deadOutbox.values.map (·.entry))
  exact sorted.imp of_decide_eq_true

theorem Sorts.ids (sorts : s.Sorts out) : (out.map (·.id)).Nodup
  := by
  rw [(sorts.perm.map _).nodup_iff, map_map]
  exact nodup_values

theorem Sorts.named (sorts : s.Sorts out) (named : s.deadOutbox.lookup "" = none) :
  ∀ e ∈ out, e.id ≠ ""
  := by
  intro e mem unnamed
  obtain ⟨stored, inside, rfl⟩ := mem_map.mp (sorts.perm.mem_iff.mp mem)
  have found := mem_values.mp inside
  rw [show stored.id = "" from unnamed, named] at found
  cases found

theorem Sorts.swap {l rest : List DeliveryEntry} {a b : DeliveryEntry}
    (sorts : s.Sorts (l ++ a :: b :: rest)) (same : a.since = b.since) :
  s.Sorts (l ++ b :: a :: rest)
  := by
  obtain ⟨perm, oldest⟩ := sorts
  refine ⟨.trans (.append_left l (.swap a b rest)) perm, ?_⟩
  rw [pairwise_append, pairwise_cons, pairwise_cons] at oldest ⊢
  grind

end DeliveryState

/-- Two letters of one instant change places when the first of them is on a page, and the second
is skipped. -/
theorem exists_skipped {s : DeliveryState} (named : s.deadOutbox.lookup "" = none)
    (equal : ¬ (s.deadOutbox.values.map (·.entry.since)).Nodup) :
  ∃ outs, (∀ out ∈ outs, s.Sorts out) ∧ s.deadOutbox.values.length < outs.length ∧
    ∃ letters, visited 1 outs "" = some letters ∧ letters.length < s.deadOutbox.values.length
  := by
  obtain ⟨all, sorts⟩ := s.exists_sorts
  obtain ⟨l, a, b, rest, rfl, same⟩ := exists_adjacent sorts.oldest (by
    rwa [(sorts.perm.map _).nodup_iff, map_map])
  have swapped := sorts.swap same
  have named' := swapped.named named
  have ids : ((l ++ [b] ++ a :: rest).map (·.id)).Nodup := by simpa using swapped.ids
  have skipped : visited 1 (replicate (rest.length + 2) (l ++ [b] ++ a :: rest)) a.id
      = some rest := by
    refine visited_rest ids (by simpa using named') (fun _ => eq_of_mem_replicate) (by simp)
      (append_cons ..) ?_
    rw [if_neg (named' a (by simp))]
    exact tail_dropWhile ids
  have size := sorts.perm.length_eq
  simp only [length_append, length_cons, length_map] at size
  refine ⟨replicate (l.length + 1) (l ++ a :: b :: rest)
    ++ replicate (rest.length + 2) (l ++ [b] ++ a :: rest), ?_, ?_, _,
    by rw [visited_until sorts.ids (sorts.named named) (nil_append _).symm rfl, skipped]; rfl, ?_⟩
  · intro out mem
    rcases mem_append.mp mem with mem | mem
    · rwa [eq_of_mem_replicate mem]
    · simpa [eq_of_mem_replicate mem] using swapped
  · simp only [length_append, length_replicate]
    omega
  · simp only [length_append, length_cons]
    omega

/-- For every page size the pages that the cursors lead through end and hold every dead letter once,
exactly if no two dead letters have the same instant. -/
theorem pages_visit_once {s : DeliveryState} (named : s.deadOutbox.lookup "" = none) :
  (∀ limit outs, 1 ≤ limit → (∀ out ∈ outs, s.Sorts out) →
    s.deadOutbox.values.length < outs.length →
    ∃ letters, visited limit outs "" = some letters ∧
      letters.Perm (s.deadOutbox.values.map (·.entry))) ↔
  (s.deadOutbox.values.map (·.entry.since)).Nodup
  := by
  constructor
  case mpr =>
    intro distinct limit outs _ sorts enough
    obtain ⟨all, outs, rfl⟩ := exists_cons_of_length_pos (Nat.zero_lt_of_lt enough)
    have sorted := sorts all mem_cons_self
    refine ⟨all, visited_rest sorted.ids (sorted.named named) ?_ ?_ (nil_append all).symm rfl,
      sorted.perm⟩
    · intro out mem
      obtain ⟨perm, oldest⟩ := sorts out mem
      apply Perm.eq_of_pairwise _ oldest sorted.oldest (perm.trans sorted.perm.symm)
      intro a b first second le ge
      obtain ⟨x, inside, rfl⟩ := mem_map.mp (perm.mem_iff.mp first)
      obtain ⟨y, inside', rfl⟩ := mem_map.mp (sorted.perm.mem_iff.mp second)
      rw [inj_on_of_nodup_map distinct inside inside' (le_antisymm le ge)]
    · rwa [sorted.perm.length_eq, length_map]
  case mp =>
    intro complete
    by_contra equal
    obtain ⟨outs, sorts, enough, letters, pages, short⟩ := exists_skipped named equal
    obtain ⟨all, same, perm⟩ := complete 1 outs le_rfl sorts enough
    cases pages.symm.trans same
    rw [perm.length_eq, length_map] at short
    exact absurd short (lt_irrefl _)

namespace Letters.Sample

/-- Two dead letters, the second of the given instant. -/
def two (createdAt : Int) : DeliveryState where
  id := "run"
  deadOutbox := ((∅ : EntryMap).put { entry := root }).put
    { entry := { root with id := "b", createdAt := createdAt } }

end Letters.Sample

/-- Pages of one letter each. -/
theorem two_visited :
  ∃ letters, visited 1 (replicate 3 [root, { root with id := "b", createdAt := 0 }]) ""
      = some letters ∧ letters.Perm ((two 0).deadOutbox.values.map (·.entry))
  := by
  apply (pages_visit_once rfl).mpr (by decide) 1 _ (by decide) _ (by decide)
  intro out mem
  rw [eq_of_mem_replicate mem]
  exact ⟨by decide, by decide⟩

/-- Two letters of one instant change places between the calls, and one of them is on no page. -/
theorem equal_instants_skipped :
  ∃ a b, (two zeroTime).Sorts [a, b] ∧ (two zeroTime).Sorts [b, a] ∧
    visited 1 [[a, b], [b, a]] "" = some [a] ∧ a ≠ b
  :=
  ⟨root, { root with id := "b" }, ⟨by decide, by decide⟩, ⟨by decide, by decide⟩, by decide,
    by decide⟩

end Xflow
