import Xflow.Store.Wakeup

/-!
# Delivered signals

A signal that wakes a node becomes a resume intent of the outbox, which is handed out, possibly more
than once, and acknowledged by its identifier.  The identifier is that of the node and its
activation, not of the suspension, and an intent whose identifier is taken is not stored.
-/

namespace Xflow

open List MemoryState SignalState

namespace MemoryState

variable {s : MemoryState} {req : CommitNodeRequest} {e : OutboxEntry}

theorem finishExecution_keeps {status : ExecutionStatus} {errMsg : String} (h : e ∈ s.outbox)
    (hheld : e.availableAt ≠ .held) :
  e ∈ (s.finishExecution status errMsg).outbox
  := by
  unfold finishExecution releaseWorkflowSlot
  repeat' split
  all_goals first | exact h | exact mem_filter.mpr ⟨h, by simpa using hheld⟩

theorem commitNodeLocked_keeps (h : e ∈ s.outbox) (hheld : e.availableAt ≠ .held) :
  e ∈ (s.commitNodeLocked req).1.outbox
  := by
  by_cases haccepted : s.commitVerdict req = .accepted
  · exact commitNodeLocked_induction (P := fun t => e ∈ t.outbox) haccepted
      (by rwa [writeNode_frame]) (fun _ _ h => h) (fun _ _ _ h => finishExecution_keeps h hheld)
      (fun _ _ h => mem_putEntry.mpr (.inl h)) (fun _ h => applyArrivals_outbox_mono h)
  · rwa [commitNodeLocked_of_refused haccepted]

end MemoryState

namespace SignalState

variable {s : SignalState}

theorem call_keeps {op : Op} {e : OutboxEntry}
    (hop : ∀ entryID, op ≠ .ackOutbox entryID) (h : e ∈ s.outbox) (hheld : e.availableAt ≠ .held) :
  e ∈ (call op s).1.outbox
  := by
  apply call_induction (P := fun t => e ∈ t.outbox) h
  case acquire =>
    intro lease allowCycles _
    rwa [acquireTaskLeaseChecked_frame]
  case claim =>
    intro name row _ _
    rwa [rewriteRow_frame]
  case renew => exact fun _ _ _ _ _ => h
  case release =>
    intro name row
    rwa [rewriteRow_frame]
  case put => exact fun _ mem => mem_foldl_putEntry_of_mem mem
  case park =>
    intro x row
    rw [park_store, rewriteRow_frame, storeOutput_frame]
    exact mem_foldl_putEntry_of_mem h
  case commit => exact fun _ _ _ => commitNodeLocked_keeps h hheld
  case ack => exact fun entryID eq => absurd eq (hop entryID)

theorem signalOutboxID_ne_empty {id name : String} {activation : Int} :
  signalOutboxID id name activation ≠ ""
  := by
  intro h
  have hlist := congrArg String.toList h
  simp [signalOutboxID] at hlist

variable {signal : String} {intent : ResumeIntent}

theorem handOver_outbox {name : String} {data : Data} {spec : SuspendSpec} {now : Nat} :
  (s.handOver name signal data spec intent now).outbox =
    (s.wakes name signal data spec).elim s.outbox
      (fun payload => putEntry s.outbox (s.resumeEntry name intent payload now))
  := by
  unfold handOver setCollected
  cases s.wakes name signal data spec <;> dsimp only <;> split <;> rfl

section

variable {walk : List String} {data : Data} {now : Nat} {target : String} {payload : SignalPayload}
  (h : (s.deliverSignalWithOutbox walk signal data intent now).2 = some (target, payload))

include h

/-- What a delivery that wakes a node does. -/
theorem deliver_woken :
  ∃ spec, intent.nodeName ≠ "" ∧ s.waiter walk signal = some (target, spec) ∧
    s.wakes target signal data spec = some payload ∧
    (s.deliverSignalWithOutbox walk signal data intent now).1 =
      s.handOver target signal data spec intent now
  := by
  unfold deliverSignalWithOutbox at h ⊢
  split at h
  · cases h
  · rename_i hintent
    simp only [hintent]
    cases hwaiter : s.waiter walk signal with
    | none => simp [hwaiter] at h
    | some found =>
      obtain ⟨name, spec⟩ := found
      simp only [hwaiter, Option.map_eq_some_iff] at h
      obtain ⟨_, hwakes, rfl, rfl⟩ := h
      exact ⟨spec, hintent, rfl, hwakes, rfl⟩

/-- The intent of a signal that wakes its waiter is stored, if its identifier is not taken. -/
theorem deliver_writes
    (hfresh : ∀ e ∈ s.outbox,
      e.id ≠ signalOutboxID s.id target (s.resumeActivation target intent)) :
  s.resumeEntry target intent payload now ∈
    (s.deliverSignalWithOutbox walk signal data intent now).1.outbox
  := by
  obtain ⟨spec, -, -, hwakes, heq⟩ := deliver_woken h
  rw [heq, handOver_outbox, hwakes]
  apply mem_putEntry.mpr (.inr ⟨rfl, _⟩)
  unfold accepts
  rw [decide_eq_true_eq]
  refine ⟨signalOutboxID_ne_empty, ?_⟩
  intro hmem
  obtain ⟨e, he, hid⟩ := mem_map.mp hmem
  exact hfresh e he hid

end

end SignalState

/-! ### Handing out and acknowledging -/

/-- The store, the intents that were handed out to the queue, and the signals delivered to a node
whose delivery was not acknowledged yet. -/
structure Mailbox where
  store : SignalState
  handedOut : List OutboxEntry := []
  owed : List (String × SignalPayload) := []

namespace Mailbox

open SignalState

/-- A call of the store, or a step of the dispatcher that delivers its intents. -/
inductive Op where
  | call (op : SignalState.Op)
  | handOut (e : OutboxEntry)
  | acknowledge (e : OutboxEntry)

/-- The node a call woke, with its payload. -/
def woken : Answer → List (String × SignalPayload)
  | .delivered (some target) => [target]
  | _ => []

/-- Whether a delivered intent carries this payload to this node. -/
def carries (e : OutboxEntry) (d : String × SignalPayload) : Bool :=
  e.task.nodeName = d.1 ∧ e.task.payload = some d.2

/-- The dispatcher hands out an intent of the outbox, any number of times, and acknowledges an
intent that it has handed out. -/
def step : Op → Mailbox → Option Mailbox
  | .call (.ackOutbox _), _ => none
  | .call op, m =>
    some { m with store := (call op m.store).1, owed := woken (call op m.store).2 ++ m.owed }
  | .handOut e, m =>
    if e ∈ m.store.outbox then some { m with handedOut := e :: m.handedOut } else none
  | .acknowledge e, m =>
    if e ∈ m.handedOut then
      some { m with
        store := m.store.ackOutbox e.id
        owed := m.owed.filter (fun d => ¬ carries e d) }
    else none

/-- Every delivered signal is in an intent of the outbox, until a delivery of it is
acknowledged. -/
def NoneLost (m : Mailbox) : Prop :=
  ∀ d ∈ m.owed, ∃ e ∈ m.store.outbox, carries e d

/-- A step that keeps the identifiers of resume intents apart: no intent has the identifier of one
that a signal writes, and an acknowledged identifier is still that of the delivery. -/
def KeepsApart (op : Op) (m : Mailbox) : Prop :=
  match op with
  | .call (.deliverSignal walk signal data intent _) =>
    ∀ target spec, intent.nodeName ≠ "" → m.store.waiter walk signal = some (target, spec) →
      (m.store.wakes target signal data spec).isSome →
      ∀ e ∈ m.store.outbox,
        e.id ≠ signalOutboxID m.store.id target (m.store.resumeActivation target intent)
  | .acknowledge e =>
    ∀ x ∈ m.store.outbox, x.id = e.id →
      x.task.nodeName = e.task.nodeName ∧ x.task.payload = e.task.payload
  | _ => True

/-- The deliverable intent that carries a delivered signal. -/
def Kept (m : Mailbox) : Prop :=
  ∀ d ∈ m.owed, ∃ e ∈ m.store.outbox, carries e d ∧ e.availableAt ≠ .held

variable {m m' : Mailbox} {op : Op}

theorem Kept.call {op : SignalState.Op} (h : Kept m) (hapart : KeepsApart (.call op) m)
    (hop : ∀ entryID, op ≠ .ackOutbox entryID) :
  Kept { m with
    store := (call op m.store).1
    owed := woken (call op m.store).2 ++ m.owed }
  := by
  intro d hd
  rcases mem_append.mp hd with hnew | hold
  · -- only the delivery of a signal wakes a node
    cases op with
    | deliverSignal walk signal data intent now =>
      simp only [SignalState.call] at hnew ⊢
      cases htarget : (m.store.deliverSignalWithOutbox walk signal data intent now).2 with
      | none => simp [htarget, woken] at hnew
      | some target =>
        rw [htarget, woken, mem_singleton] at hnew
        subst hnew
        obtain ⟨target, payload⟩ := d
        obtain ⟨spec, hintent, hwaiter, hwakes, -⟩ := deliver_woken htarget
        use m.store.resumeEntry target intent payload now
        refine ⟨deliver_writes htarget ?_, ?_, ?_⟩
        · exact hapart target spec hintent hwaiter (by simp [hwakes])
        · simp [carries, resumeEntry]
        · simp [resumeEntry]
    | commitNode req =>
      rcases @commitNode_cases m.store req with ⟨err, hinvalid⟩ | ⟨hanswer, -, -⟩
      · simp [hinvalid, woken] at hnew
      · simp [hanswer, woken] at hnew
    | _ => simp [SignalState.call, onStore, woken] at hnew
  · obtain ⟨e, he, hcarries, hheld⟩ := h d hold
    exact ⟨e, call_keeps hop he hheld, hcarries, hheld⟩

theorem Kept.acknowledge {e : OutboxEntry} (h : Kept m) (hapart : KeepsApart (.acknowledge e) m) :
  Kept { m with
    store := m.store.ackOutbox e.id
    owed := m.owed.filter (fun d => ¬ carries e d) }
  := by
  intro d hd
  obtain ⟨hmem, hother⟩ := mem_filter.mp hd
  obtain ⟨x, hx, hcarries, hheld⟩ := h d hmem
  refine ⟨x, mem_filter.mpr ⟨hx, ?_⟩, hcarries, hheld⟩
  simp only [decide_eq_true_eq]
  intro hid
  obtain ⟨hname, hpayload⟩ := hapart x hx hid
  simp only [carries] at hcarries
  simp [carries, ← hname, ← hpayload, hcarries] at hother

theorem Kept.step (h : Kept m) (hapart : KeepsApart op m) (hstep : step op m = some m') :
  Kept m'
  := by
  cases op with
  | call op =>
    by_cases hack : ∃ entryID, op = .ackOutbox entryID
    · obtain ⟨entryID, rfl⟩ := hack
      cases hstep
    · push Not at hack
      cases op with
      | ackOutbox entryID => exact absurd rfl (hack entryID)
      | _ =>
        obtain rfl := Option.some.inj hstep
        exact h.call hapart hack
  | handOut e =>
    simp only [step] at hstep
    obtain ⟨-, ⟨⟩⟩ := Option.ite_none_right_eq_some.mp hstep
    exact h
  | acknowledge e =>
    simp only [step] at hstep
    obtain ⟨-, ⟨⟩⟩ := Option.ite_none_right_eq_some.mp hstep
    exact h.acknowledge hapart

end Mailbox

open Mailbox Transition in
/-- In a run that keeps the identifiers of resume intents apart, every signal that woke a node is in
an intent of the outbox until a delivery that carries it is acknowledged. -/
theorem delivered_signal_kept {s : SignalState} {m : Mailbox}
    (run : Run Mailbox.step KeepsApart { store := s } m) :
  NoneLost m
  := by
  have hkept : Kept m := by
    apply run.invariant
    · intro d hd
      cases hd
    · intro op u v hu hapart hstep
      exact hu.step hapart hstep
  intro d hd
  obtain ⟨e, he, hcarries, -⟩ := hkept d hd
  exact ⟨e, he, hcarries⟩

/-! ### A node that is woken twice -/

namespace Mailbox

open SignalState

/-- The payload of the signal `go` with a value. -/
def go (value : Int) : SignalPayload := ⟨.received, "go", [("value", .num value)], []⟩

/-- Lease the node `n`, claim it and suspend it until the signal `go`. -/
def suspendUntilGo (token : String) (attempt : Int) : List Op :=
  [.call (.acquireTaskLease (leaseOf 1 token) false), .call (.claimTaskLease (leaseOf 1 token)),
    .call (.suspendTaskLease (suspensionOf 1 token attempt ⟨.signal, ["go"], 0, 0, 0, []⟩))]

/-- Deliver the signal `go` to the node `n`. -/
def deliverGo (value : Int) : Op :=
  .call (.deliverSignal ["n"] "go" [("value", .num value)] ⟨"n", 0, 0, 0, 0⟩ 6)

/-- The intent that resumes the node `n` by the signal `go`. -/
def goIntent (value : Int) : OutboxEntry := idle.resumeEntry "n" ⟨"n", 0, 0, 1, 0⟩ (go value) 6

/-- The node `n` is woken, and suspends and is woken again before the delivery that woke it first is
acknowledged. -/
def wakeTwice : List Op :=
  suspendUntilGo "a" 1 ++ [deliverGo 1, .handOut (goIntent 1)] ++ suspendUntilGo "b" 2 ++
    [deliverGo 2, .acknowledge (goIntent 1)]

end Mailbox

open Mailbox SignalState Transition

/-- The second signal woke the node, its waiter is gone, and no intent carries it. -/
theorem wakeTwice_loses :
  ∃ m, Run Mailbox.step (fun _ _ => True) { store := idle } m ∧
    m.owed = [("n", go 2)] ∧ m.store.outbox = [] ∧ m.store.suspended "n" = none ∧ ¬ NoneLost m
  := by
  refine exists_run_of (P := fun m => m.owed = [("n", go 2)] ∧ m.store.outbox = [] ∧
    m.store.suspended "n" = none) wakeTwice (by decide) ?_
  rintro m - ⟨howed, houtbox, hwaiter⟩
  refine ⟨howed, houtbox, hwaiter, ?_⟩
  intro hkept
  obtain ⟨e, he, -⟩ := hkept ("n", go 2) (by simp [howed])
  simp [houtbox] at he

theorem wakeOnce_kept :
  ∃ m, Run Mailbox.step KeepsApart { store := idle } m ∧ m.owed = [("n", go 1)] ∧ NoneLost m
  := by
  have hexec : (exec step (suspendUntilGo "a" 1) { store := idle }).map
      (fun m => (m.store.outbox, (step (deliverGo 1) m).map owed))
        = some ([], some [("n", go 1)]) := by decide
  obtain ⟨parked, hparked, hfields⟩ := Option.map_eq_some_iff.mp hexec
  simp only [Prod.mk.injEq, Option.map_eq_some_iff] at hfields
  obtain ⟨houtbox, m, hstep, howed⟩ := hfields
  have run : Run step KeepsApart { store := idle } parked := by
    apply Run.of_exec_cond hparked
    intro op hop _
    simp only [suspendUntilGo, mem_cons, not_mem_nil, or_false] at hop
    rcases hop with rfl | rfl | rfl <;> trivial
  have run' : Run step KeepsApart { store := idle } m := by
    apply run.tail ⟨deliverGo 1, _, hstep⟩
    simp [KeepsApart, deliverGo, houtbox]
  exact ⟨m, run', howed, delivered_signal_kept run'⟩

end Xflow
