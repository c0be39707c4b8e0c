import Xflow.Store.Mailbox

/-!
# Waiters and stored signals

`deliverSignalDurable` delivers a signal in two steps.  It looks for a node that waits for the
signal and resolves the node in the graph, and then hands the signal to a waiter that it looks for
again, or stores it.  Each step walks the suspended nodes in an order of its own, and other calls
may come between the two.
-/

namespace Xflow

open Function List NodeSnapshot Option

namespace SignalState

/-! ### The two steps of a delivery -/

/-- Why a delivery ends before its second step. -/
inductive Undelivered where
  | inactive
  | failed (message : String)
  deriving DecidableEq

/-- The first step of `deliverSignalDurable`: the intent that resumes the node found waiting, empty
if there is none. -/
def resumeIntent (g : Topology) (active : Bool) (signal target : String) :
    Except Undelivered ResumeIntent :=
  if target = "" then .ok {}
  else if ¬ active then .error .inactive
  else
    match g.nodeIndex target with
    | none =>
      .error (.failed ("signal " ++ signal.quote ++ " targeted unknown node " ++ target.quote))
    | some nodeIdx =>
      if g.nodeUnit nodeIdx < 0 then
        .error (.failed
          ("cannot resume at " ++ target.quote ++ ": supply node has no schedulable unit"))
      else .ok { nodeName := target, nodeIdx := nodeIdx, unitIdx := g.nodeUnit nodeIdx }

theorem resumeIntent_ok {g : Topology} {active : Bool} {signal target : String}
    {intent : ResumeIntent} (h : resumeIntent g active signal target = .ok intent)
    (htarget : target ≠ "") :
  intent.nodeName = target ∧ g.nodeIndex target = some intent.nodeIdx ∧
    intent.unitIdx = g.nodeUnit intent.nodeIdx
  := by
  revert h
  fun_cases resumeIntent g active signal target with
  | case5 _ _ nodeIdx hidx =>
    rintro ⟨⟩
    exact ⟨rfl, hidx, rfl⟩
  | case1 => contradiction
  | _ => exact nofun

/-! ### Walks -/

variable {s : SignalState} {walk : List String} {signal name : String} {spec : SuspendSpec}

theorem awaiting_eq_some {found : String × SuspendSpec} :
  s.awaiting signal name = some found ↔
    found.1 = name ∧ s.suspended name = some found.2 ∧ signal ∈ found.2.signals
  := by
  unfold awaiting
  rw [bind_eq_some_iff]
  grind

theorem suspended_of_waiter (h : s.waiter walk signal = some (name, spec)) :
  s.suspended name = some spec ∧ signal ∈ spec.signals
  := by
  obtain ⟨other, -, hfound⟩ := exists_of_findSome?_eq_some h
  obtain ⟨rfl, hspec, hmem⟩ := awaiting_eq_some.mp hfound
  exact ⟨hspec, hmem⟩

theorem Walks.first (hwalks : s.Walks walk) (hspec : s.suspended name = some spec) :
  s.Walks (name :: walk.erase name)
  := by
  have hmem : name ∈ walk := (hwalks.2 name).mpr (by simp [hspec])
  have hperm := perm_cons_erase hmem
  refine ⟨hperm.nodup_iff.mp hwalks.1, ?_⟩
  intro other
  rw [← hperm.mem_iff]
  exact hwalks.2 other

/-! ### The node that is resumed -/

/-- A resume intent that a delivery writes names one node by its name, its index and its unit, and
that is the node whose waiter it took. -/
def NamesOneNode (g : Topology) (s : SignalState)
    (result : SignalState × Option (String × SignalPayload)) : Prop :=
  ∀ e ∈ result.1.outbox, e ∉ s.outbox → ∃ payload,
    result.2 = some (e.task.nodeName, payload) ∧
    g.nodeIndex e.task.nodeName = some e.task.nodeIdx ∧
    e.task.unitIdx = g.nodeUnit e.task.nodeIdx ∧
    (s.suspended e.task.nodeName).isSome ∧
    result.1.suspended = Function.update s.suspended e.task.nodeName none

/-- A signal would wake this waiter and write the intent that resumes it. -/
def WouldResume (s : SignalState) (name signal : String) (data : Data) (spec : SuspendSpec)
    (intent : ResumeIntent) : Prop :=
  s.suspended name = some spec ∧ signal ∈ spec.signals ∧
    (s.wakes name signal data spec).isSome ∧
    ∀ e ∈ s.outbox, e.id ≠ signalOutboxID s.id name (s.resumeActivation name intent)

variable {data : Data} {intent : ResumeIntent} {now : Nat}

/-- A new intent of a delivery resumes the first waiter on the walk. -/
theorem deliver_new {e : OutboxEntry}
    (he : e ∈ (s.deliverSignalWithOutbox walk signal data intent now).1.outbox)
    (hnew : e ∉ s.outbox) :
  ∃ name spec payload, s.waiter walk signal = some (name, spec) ∧
    s.WouldResume name signal data spec intent ∧ e = s.resumeEntry name intent payload now ∧
    (s.deliverSignalWithOutbox walk signal data intent now).2 = some (name, payload) ∧
    (s.deliverSignalWithOutbox walk signal data intent now).1.suspended =
      update s.suspended name none
  := by
  revert he
  fun_cases s.deliverSignalWithOutbox walk signal data intent now with
  | case3 _ name spec hwaiter =>
    obtain ⟨hspec, hmem⟩ := suspended_of_waiter hwaiter
    rw [handOver_outbox]
    cases hwakes : s.wakes name signal data spec with
    | none => exact fun he => absurd he hnew
    | some payload =>
      intro he
      obtain ⟨rfl, haccepts⟩ := (mem_putEntry.mp he).resolve_left hnew
      unfold accepts at haccepts
      rw [decide_eq_true_eq] at haccepts
      refine ⟨name, spec, payload, hwaiter, ⟨hspec, hmem, by simp [hwakes], ?_⟩, rfl, rfl, ?_⟩
      · intro x hx hid
        exact haccepts.2 (mem_map.mpr ⟨x, hx, hid⟩)
      · unfold handOver setCollected
        simp only [hwakes]
        split <;> rfl
  | _ => exact fun he => absurd he hnew

theorem deliver_first (walk : List String) (now : Nat) (hintent : intent.nodeName ≠ "")
    (hwould : s.WouldResume name signal data spec intent) :
  ∃ payload, s.resumeEntry name intent payload now ∈
      (s.deliverSignalWithOutbox (name :: walk) signal data intent now).1.outbox ∧
    s.resumeEntry name intent payload now ∉ s.outbox
  := by
  obtain ⟨hspec, hmem, hwakes, hfree⟩ := hwould
  obtain ⟨payload, hpayload⟩ := isSome_iff_exists.mp hwakes
  have hwaiter : s.waiter (name :: walk) signal = some (name, spec) := by
    have hawaits : s.awaiting signal name = some (name, spec) :=
      awaiting_eq_some.mpr ⟨rfl, hspec, hmem⟩
    simp [waiter, hawaits]
  have htarget : (s.deliverSignalWithOutbox (name :: walk) signal data intent now).2 =
      some (name, payload) := by
    simp [deliverSignalWithOutbox, hintent, hwaiter, hpayload]
  refine ⟨payload, deliver_writes htarget hfree, ?_⟩
  intro hold
  exact hfree _ hold rfl

end SignalState

theorem Topology.nodeIndex_inj {g : Topology} {a b : String} {i : Int}
    (ha : g.nodeIndex a = some i) (hb : g.nodeIndex b = some i) :
  a = b
  := by
  rw [nodeIndex, map_eq_some_iff] at ha hb
  obtain ⟨n, hn, rfl⟩ := ha
  obtain ⟨m, hm, heq⟩ := hb
  obtain rfl : m = n := by exact_mod_cast heq
  obtain ⟨_, hna, -⟩ := findIdx?_eq_some_iff_getElem.mp hn
  obtain ⟨_, hmb, -⟩ := findIdx?_eq_some_iff_getElem.mp hm
  simp only [decide_eq_true_eq] at hna hmb
  rw [← hna, ← hmb]

open SignalState

/-- Let the first step of a delivery have found a node, or none, and other calls have come since.
Whatever walk the second step takes, the intent it writes names one node, that whose waiter it
takes, exactly when the first step found none or found the only node that the signal would
resume. -/
theorem resume_names_one_node_iff {g : Topology} {s : SignalState} {active : Bool}
    {signal target : String} {data : Data} {intent : ResumeIntent} {now : Nat}
    {walk : List String} (hintent : resumeIntent g active signal target = .ok intent)
    (hwalks : s.Walks walk) :
  (∀ walk', s.Walks walk' →
      NamesOneNode g s (s.deliverSignalWithOutbox walk' signal data intent now)) ↔
    target = "" ∨ ∀ name spec, s.WouldResume name signal data spec intent → name = target
  := by
  by_cases htarget : target = ""
  · subst htarget
    obtain rfl := Except.ok.inj hintent
    simp only [true_or, iff_true]
    intro walk' _ e he hnew
    exact absurd he hnew
  · obtain ⟨hname, hidx, hunit⟩ := resumeIntent_ok hintent htarget
    simp only [htarget, false_or]
    constructor
    · intro hnames name spec hwould
      obtain ⟨payload, he, hnew⟩ := deliver_first (walk.erase name) now (by rwa [hname]) hwould
      obtain ⟨_, -, hnode, -, -⟩ := hnames _ (hwalks.first hwould.1) _ he hnew
      exact Topology.nodeIndex_inj hnode hidx
    · intro honly walk' hwalks' e he hnew
      obtain ⟨name, spec, payload, -, hwould, rfl, hanswer, hafter⟩ := deliver_new he hnew
      obtain rfl := honly name spec hwould
      exact ⟨payload, hanswer, hidx, hunit, by simp [resumeEntry, hwould.1], hafter⟩

/-! ### Two nodes that wait for one signal -/

namespace SignalState

/-- The workflow of two nodes without an edge. -/
def twoNodes : Topology where
  nodes := [{ name := "left" }, { name := "right" }]
  edges := []

/-- An execution in which these nodes are suspended until the signal `go`. -/
def waitingForGo (names : List String) : SignalState :=
  { idle with
    suspended := fun name => if name ∈ names then some { signals := ["go"] } else none }

theorem walks_waitingForGo {names walk : List String} (h : names.Perm walk) (hnodup : names.Nodup) :
  (waitingForGo names).Walks walk
  := by
  refine ⟨h.nodup_iff.mp hnodup, ?_⟩
  intro name
  rw [← h.mem_iff]
  by_cases hmem : name ∈ names <;> simp [waitingForGo]

end SignalState

/-- The first step finds `left`, the second `right`: the intent has the name of `right` and the
index and the unit of `left`. -/
theorem twoWaiters_mixed :
  let s := waitingForGo ["left", "right"]
  s.Walks ["left", "right"] ∧ s.Walks ["right", "left"] ∧
    s.peekResumeTarget ["left", "right"] "go" = "left" ∧
    ∃ intent, resumeIntent twoNodes true "go" "left" = .ok intent ∧
      (s.deliverSignalWithOutbox ["right", "left"] "go" [] intent 6).1.outbox.map
        (fun e => (e.task.nodeName, e.task.nodeIdx, e.task.unitIdx)) = [("right", 0, 0)] ∧
      twoNodes.nodeIndex "right" = some 1
  := by
  refine ⟨walks_waitingForGo (Perm.refl _) (by decide),
    walks_waitingForGo (Perm.swap ..) (by decide), by decide, ⟨"left", 0, 0, 0, 0⟩, ?_⟩
  decide

theorem oneWaiter_named :
  NamesOneNode twoNodes (waitingForGo ["left"])
    ((waitingForGo ["left"]).deliverSignalWithOutbox ["left"] "go" [] ⟨"left", 0, 0, 0, 0⟩ 6)
  := by
  have hwalks : (waitingForGo ["left"]).Walks ["left"] :=
    walks_waitingForGo (Perm.refl _) (by decide)
  have hintent : resumeIntent twoNodes true "go" "left" = .ok ⟨"left", 0, 0, 0, 0⟩ := by decide
  apply (resume_names_one_node_iff hintent hwalks).mpr _ _ hwalks
  right
  intro name spec hwould
  by_contra hname
  simpa [waitingForGo, hname] using hwould.1

/-! ### Stored signals -/

theorem update_none {stored : String → Option Data} {head signal : String}
    (none : stored signal = .none) :
  update stored head .none signal = .none
  := by
  by_cases same : signal = head
  · rw [same, update_self]
  · rwa [update_of_ne same]

theorem consume_spec (spec : SuspendSpec) (stored : String → Option Data)
    (all : List (String × Data)) :
  (∀ signal, stored signal = none → (consume spec stored all).1 signal = none) ∧
    ((consume spec stored all).2.2 = none →
      ∀ signal ∈ spec.signals, (consume spec stored all).1 signal = none)
  := by
  unfold consume
  -- the induction is on the signals of the specification, which only the loop reads
  split <;> generalize spec.signals = signals
  · fun_induction consumeMulti spec signals stored all with
    | case1 => simp
    | case2 head signals stored all absent ih =>
      rw [forall_mem_cons]
      exact ⟨ih.1, fun none => ⟨ih.1 head absent, ih.2 none⟩⟩
    | case3 => exact ⟨fun _ => update_none, nofun⟩
    | case4 head =>
      grind
  · fun_induction consumeFirst signals stored with
    | case1 => simp
    | case2 head signals stored absent ih =>
      rw [forall_mem_cons]
      exact ⟨ih.1, fun none => ⟨ih.1 head absent, ih.2 none⟩⟩
    | case3 => exact ⟨fun _ => update_none, nofun⟩

namespace SignalState

/-- No node waits for a signal that is stored. -/
def QuietFor (signal : String) (s : SignalState) : Prop :=
  (s.signals signal).isSome → ∀ name spec, s.suspended name = some spec → signal ∉ spec.signals

/-- A call is not the second step of a delivery of this signal that found no waiter in its first
step while there is one now.  The second step walks through all suspended nodes. -/
def NotRaced (signal : String) (op : Op) (s : SignalState) : Prop :=
  match op with
  | .deliverSignal walk signal' _ intent _ =>
    s.Walks walk ∧ (signal' = signal → intent.nodeName = "" →
      ∀ name spec, s.suspended name = some spec → signal ∉ spec.signals)
  | _ => True

/-- The calls as steps. -/
def opStep (op : Op) (s : SignalState) : Option SignalState := some (call op s).1

variable {signal : String}

theorem QuietFor.of_fewer {s t : SignalState} (h : QuietFor signal s)
    (hsignals : t.signals = s.signals)
    (hwaiters : ∀ name spec, t.suspended name = some spec → s.suspended name = some spec) :
  QuietFor signal t
  := by
  intro hstored name spec hspec
  rw [hsignals] at hstored
  exact h hstored name spec (hwaiters name spec hspec)

variable {s : SignalState}

theorem commitNode_waiters {req : CommitNodeRequest} :
  (call (.commitNode req) s).1.signals = s.signals ∧
    ∀ name spec, (call (.commitNode req) s).1.suspended name = some spec →
      s.suspended name = some spec
  := by
  simp only [call, commitNode]
  cases s.toMemoryState.commitNode req with
  | error err => exact ⟨rfl, fun _ _ h => h⟩
  | ok result =>
    by_cases hcancel : result.2.applied ∧ req.system ∧ req.status = .canceled
    · simp only [hcancel]
      refine ⟨by trivial, fun name spec h => ?_⟩
      change update s.suspended req.nodeName none name = some spec at h
      grind
    · simp only [hcancel]
      exact ⟨by trivial, fun _ _ h => h⟩

theorem QuietFor.park {x : Suspension} {row : NodeSnapshot} (h : QuietFor signal s) :
  QuietFor signal (s.park x row).1
  := by
  obtain ⟨hkeep, htaken⟩ := consume_spec x.spec s.signals (s.signalSets x.lease.task.nodeName)
  intro hstored name spec hspec
  rw [park_signals] at hstored
  rw [park_suspended] at hspec
  have hbefore : (s.signals signal).isSome := by
    by_contra hnone
    rw [hkeep signal (by simpa using hnone)] at hstored
    cases hstored
  by_cases heq : name = x.lease.task.nodeName
  · subst heq
    rw [update_self] at hspec
    obtain ⟨hparked, ⟨⟩⟩ := ite_none_right_eq_some.mp hspec
    intro hmem
    rw [htaken (by simpa using hparked) signal hmem] at hstored
    cases hstored
  · rw [update_of_ne heq] at hspec
    exact h hbefore name spec hspec

theorem QuietFor.store {signal' : String} {data : Data} (h : QuietFor signal s)
    (hfree : signal' = signal → ∀ name spec, s.suspended name = some spec → signal ∉ spec.signals) :
  QuietFor signal (s.storeSignal signal' data)
  := by
  intro hstored name spec hspec
  by_cases heq : signal' = signal
  · exact hfree heq name spec hspec
  · apply h _ name spec hspec
    simpa [storeSignal, update_of_ne (Ne.symm heq)] using hstored

theorem QuietFor.next {op : Op} (h : QuietFor signal s) (hraced : NotRaced signal op s) :
  QuietFor signal (call op s).1
  := by
  cases op with
  | suspendTaskLease x =>
    simp only [call]
    rcases @suspendTaskLease_cases s x with hrefused | ⟨row, -, -, heq⟩
    · rwa [hrefused]
    · rw [heq]
      exact h.park
  | commitNode req => exact h.of_fewer commitNode_waiters.1 commitNode_waiters.2
  | deliverSignal walk signal' data intent now =>
    obtain ⟨hwalks, hfree⟩ := hraced
    simp only [call]
    fun_cases s.deliverSignalWithOutbox walk signal' data intent now with
    | case1 hintent => exact h.store (fun heq => hfree heq hintent)
    | case2 _ hnone =>
      apply h.store
      rintro rfl name spec hspec hmem
      have hpassed := findSome?_eq_none_iff.mp hnone name ((hwalks.2 name).mpr (by simp [hspec]))
      simp [awaiting, hspec, hmem] at hpassed
    | case3 _ woken =>
      apply h.of_fewer
      · unfold handOver setCollected
        repeat' split
        all_goals rfl
      · intro name spec hspec
        unfold handOver setCollected at hspec
        split at hspec
        · split at hspec <;> exact hspec
        · have hupdate : update s.suspended woken none name = some spec := by
            split at hspec <;> exact hspec
          grind
  | _ => exact h

end SignalState

open SignalState Transition

/-- In a run in which no delivery of a signal is raced by a suspension between its two steps, the
signal is never both stored and awaited by a suspended node; and the next delivery stores it or
hands it to a node that waits for it. -/
theorem stored_signal_not_awaited {signal : String} {s t : SignalState}
    (run : Run opStep (NotRaced signal) s t) (hstart : QuietFor signal s) :
  QuietFor signal t ∧
    ∀ walk data intent now,
      let after := (t.deliverSignalWithOutbox walk signal data intent now).1
      after.signals signal = some data ∨
        ∃ name spec, t.suspended name = some spec ∧ signal ∈ spec.signals ∧
          after = t.handOver name signal data spec intent now
  := by
  constructor
  · apply run.invariant hstart
    intro op u v hu hraced hv
    obtain rfl := some.inj hv
    exact hu.next hraced
  · intro walk data intent now
    simp only [deliverSignalWithOutbox]
    split
    · simp [storeSignal]
    · split
      · simp [storeSignal]
      · rename_i name spec hwaiter
        obtain ⟨hspec, hmem⟩ := suspended_of_waiter hwaiter
        exact .inr ⟨name, spec, hspec, hmem, rfl⟩

namespace SignalState

/-- The node `n` is leased and its commit entered. -/
def leaseForCommit : List Op :=
  [.acquireTaskLease (leaseOf 1 "a") false, .claimTaskLease (leaseOf 1 "a")]

/-- The node `n` suspends until the signal `go`. -/
def suspendForGo : Op :=
  .suspendTaskLease (suspensionOf 1 "a" 1 ⟨.signal, ["go"], 0, 0, 0, []⟩)

/-- The signal `go` is delivered while no node waits for it. -/
def earlyGo : Op := .deliverSignal [] "go" [] {} 6

/-- The state after some calls. -/
def after (ops : List Op) (s : SignalState) : SignalState := ops.foldl (fun s op => (call op s).1) s

variable {s : SignalState}

theorem exec_opStep {ops : List Op} :
  Transition.exec opStep ops s = some (after ops s)
  := by
  induction ops generalizing s with
  | nil => rfl
  | cons op ops ih => exact ih

theorem walks_nil (h : s.suspended = fun _ => none) :
  s.Walks []
  := by
  simp [Walks, h]

end SignalState

/-- A delivery of `go` finds no waiter, the node `n` suspends until `go`, and the delivery stores
the signal beside it. -/
theorem racedDelivery_stored :
  ∃ peeked parked stored : SignalState,
    Run opStep (fun _ _ => True) idle peeked ∧ peeked.Walks [] ∧
    peeked.peekResumeTarget [] "go" = "" ∧
    Run opStep (fun _ _ => True) peeked parked ∧ parked.Walks ["n"] ∧
    (∃ intent, resumeIntent MemoryState.oneNode true "go" "" = .ok intent ∧
      stored = (parked.deliverSignalWithOutbox ["n"] "go" [] intent 6).1) ∧
    (stored.signals "go").isSome ∧ (stored.suspended "n").any (fun spec => "go" ∈ spec.signals) ∧
    (stored.nodes "n").map status = some .suspended
  := by
  have hwaiters : (after [suspendForGo] (after leaseForCommit idle)).suspended =
      update (fun _ => none) "n" (some ⟨.signal, ["go"], 0, 0, 0, []⟩) := rfl
  refine ⟨after leaseForCommit idle, after [suspendForGo] (after leaseForCommit idle), _,
    Run.of_exec exec_opStep, walks_nil rfl, by decide,
    Run.of_exec exec_opStep, ?_, ⟨{}, rfl, rfl⟩, by decide⟩
  refine ⟨by decide, fun name => ?_⟩
  rw [hwaiters]
  by_cases hname : name = "n" <;> simp [hname]

/-- A signal delivered before the node suspends is consumed by the suspension. -/
theorem earlyDelivery_consumed :
  ∃ t, Run opStep (NotRaced "go") idle t ∧ (t.nodes "n").map status = some .suspended ∧
    QuietFor "go" t
  := by
  have hfirst : NotRaced "go" earlyGo idle := ⟨walks_nil rfl, by simp [idle]⟩
  have run : Run opStep (NotRaced "go") idle
      (after (leaseForCommit ++ [suspendForGo]) (call earlyGo idle).1) := by
    apply Relation.ReflTransGen.head (b := (call earlyGo idle).1) ⟨earlyGo, hfirst, rfl⟩
    apply Run.of_exec_cond exec_opStep
    intro op hop _
    simp only [leaseForCommit, suspendForGo, mem_append, mem_cons, not_mem_nil, or_false] at hop
    rcases hop with (rfl | rfl) | rfl <;> trivial
  exact ⟨_, run, by decide, (stored_signal_not_awaited run (by simp [QuietFor, idle])).1⟩

end Xflow
