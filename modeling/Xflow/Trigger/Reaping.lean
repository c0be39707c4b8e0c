import Xflow.Lib.Run
import Xflow.Trigger.Aggregate

/-!
# Submission to coordinators that come and go

The aggregating trigger keeps a coordinator for each partition.  `submit` looks the coordinator up,
or spawns one, and then sends the record to its channel; a coordinator that was idle for a while
returns, is evicted and closes `done`, upon which `submit` looks again.  The lookup, the send and
the rounds of the coordinators interleave in every way.

A record is left behind when a coordinator returns with a record in its channel, or when one is sent
to a coordinator that returned (`record_left_behind`); apart from that no record is
(`submitted_received`).
-/

namespace Xflow

open Function List
open Option (ite_none_left_eq_some ite_none_right_eq_some map_eq_some_iff)

namespace Kafka

structure PartitionKey where
  topic : String
  partition : Int
  deriving DecidableEq

/-- A `partitionAggregator` whose loop was started. -/
structure Coordinator where
  key : PartitionKey
  /-- What is in the channel. -/
  ch : List Message := []
  /-- The channel and `stop` are closed. -/
  closed : Bool := false
  /-- The variables of `run`. -/
  loop : PartitionAggregator := {}
  evicted : Bool := false
  done : Bool := false
  deriving DecidableEq

/-- Where `submit` stands. -/
inductive Submitting where
  /-- At the top of its loop. -/
  | looking (key : PartitionKey) (msg : Message)
  /-- At the select, with the coordinator it found. -/
  | sending (key : PartitionKey) (msg : Message) (id : Nat)
  deriving DecidableEq

/-- The part of `aggregateRuntime` that `submit` and the coordinators share.  A coordinator is known
by its position among those that were ever spawned. -/
structure Coordinators where
  aggregators : PartitionKey → Option Nat := fun _ => none
  coordinators : List Coordinator := []
  /-- The call to `submit`, if there is one. -/
  caller : Option Submitting := none
  canceled : Bool := false
  closing : Bool := false
  /-- The records for which `submit` returned true. -/
  accepted : List (PartitionKey × Message) := []

/-- One round of the loop of a coordinator.  What it receives stands first in the channel, and it is
told to close by its channel or by `stop`. -/
def Coordinator.round (rt : AggregateRuntime) (a : Aggregate.Action) (c : Coordinator) :
    Option Coordinator :=
  match a with
  | .receive msg _ _ =>
    match c.ch with
    | [] => none
    | head :: rest =>
      if head ≠ msg then none
      else (Aggregate.step rt a c.loop).map (fun loop => { c with ch := rest, loop := loop })
  | .close .. =>
    if c.closed then (Aggregate.step rt a c.loop).map (fun loop => { c with loop := loop })
    else none
  | _ => (Aggregate.step rt a c.loop).map (fun loop => { c with loop := loop })

namespace Coordinators

inductive Action where
  | submit (key : PartitionKey) (msg : Message)
  /-- `aggregator`, called by `submit`. -/
  | lookup
  | send
  /-- `done` is closed, and `submit` looks again. -/
  | retry
  /-- `submit` returns false. -/
  | giveUp
  | cancel
  | round (id : Nat) (a : Aggregate.Action)
  /-- `evictAggregator`, once the loop returned. -/
  | evict (id : Nat)
  /-- `done` is closed. -/
  | done (id : Nat)
  | close

/-- The channel has room; its capacity is the configured size of a batch, which is positive in a
configuration that was read. -/
def room (rt : AggregateRuntime) (c : Coordinator) : Bool :=
  c.ch.length < rt.maxSize

def step (rt : AggregateRuntime) : Action → Coordinators → Option Coordinators
  | .submit key msg, s =>
    match s.caller with
    | none => some { s with caller := some (.looking key msg) }
    | some _ => none
  | .lookup, s =>
    match s.caller with
    | some (.looking key msg) =>
      if s.canceled then none
      else
        match s.aggregators key with
        | some id => some { s with caller := some (.sending key msg id) }
        | none => some { s with
            aggregators := update s.aggregators key (some s.coordinators.length)
            coordinators := s.coordinators ++ [{ key := key }]
            caller := some (.sending key msg s.coordinators.length) }
    | _ => none
  | .send, s =>
    match s.caller with
    | some (.sending key msg id) =>
      match s.coordinators[id]? with
      | none => none
      | some c =>
        if c.closed ∨ ¬ room rt c then none
        else some { s with
          coordinators := s.coordinators.set id { c with ch := c.ch ++ [msg] }
          caller := none
          accepted := s.accepted ++ [(key, msg)] }
    | _ => none
  | .retry, s =>
    match s.caller with
    | some (.sending key msg id) =>
      if s.coordinators[id]?.any (·.done) then some { s with caller := some (.looking key msg) }
      else none
    | _ => none
  | .giveUp, s =>
    if s.canceled ∧ s.caller.isSome then some { s with caller := none } else none
  | .cancel, s => some { s with canceled := true }
  | .round id a, s =>
    match s.coordinators[id]? with
    | none => none
    | some c =>
      (c.round rt a).map (fun c => { s with coordinators := s.coordinators.set id c })
  | .evict id, s =>
    match s.coordinators[id]? with
    | none => none
    | some c =>
      if ¬ c.loop.ended ∨ c.evicted then none
      else some { s with
        aggregators :=
          if s.aggregators c.key = some id then update s.aggregators c.key none
          else s.aggregators
        coordinators := s.coordinators.set id { c with evicted := true } }
  | .done id, s =>
    match s.coordinators[id]? with
    | none => none
    | some c =>
      if ¬ c.evicted ∨ c.done then none
      else some { s with coordinators := s.coordinators.set id { c with done := true } }
  | .close, s =>
    if s.closing then none
    else some { s with
      closing := true
      coordinators := s.coordinators.mapIdx (fun id c =>
        if s.aggregators c.key = some id then { c with closed := true } else c) }

end Coordinators

/-! ### Rounds of a coordinator -/

namespace Aggregate

open PartitionAggregator

variable {rt : AggregateRuntime} {s t u : PartitionAggregator} {now : Nat}

/-- The records that were received, in order. -/
def receivedOf (events : List Event) : List Message :=
  events.filterMap (fun
    | .received m => some m
    | _ => none)

/-- What the round receives. -/
def Action.received : Action → List Message
  | .receive msg _ _ => [msg]
  | _ => []

/-- The state received nothing, and did not begin to close or return. -/
structure Goes (s t : PartitionAggregator) : Prop where
  received : receivedOf t.events = receivedOf s.events
  closing : t.closing = s.closing
  ended : t.ended = s.ended

theorem Goes.refl (s : PartitionAggregator) :
  Goes s s
  :=
  ⟨rfl, rfl, rfl⟩

theorem Goes.trans (first : Goes s t) (second : Goes t u) :
  Goes s u
  where
  received := second.received.trans first.received
  closing := second.closing.trans first.closing
  ended := second.ended.trans first.ended

theorem goes_promoteSizes (fuel : Nat) :
  ∀ s, Goes s (promoteSizes rt fuel s)
  := by
  induction fuel with
  | zero => exact Goes.refl
  | succ fuel ih =>
    intro s
    rw [promoteSizes]
    split
    · exact .refl s
    · rename_i t promoted
      apply Goes.trans _ (ih t)
      obtain ⟨-, promoted⟩ := ite_none_left_eq_some.mp promoted
      obtain ⟨-, promoted⟩ := ite_none_left_eq_some.mp promoted
      cases promoted
      exact ⟨rfl, rfl, rfl⟩

theorem goes_fillWindow (tail : Bool) :
  Goes s (s.fillWindow rt now tail)
  := by
  have filled := @goes_promoteSizes rt rt.maxPending s
  rw [fillWindow]
  apply filled.trans
  cases tail with
  | false => exact ⟨rfl, rfl, rfl⟩
  | true =>
    rw [if_pos rfl, promoteTail]
    split <;> exact ⟨rfl, rfl, rfl⟩

theorem goes_startCommit :
  Goes s (s.startCommit now)
  := by
  rw [startCommit]
  split
  · exact .refl s
  · exact ⟨by simp [receivedOf], rfl, rfl⟩

variable {published : Bool} {a : Action} {msg : Message} {batch : AggregateBatch}

theorem goes_publishOverflow {attempts : Nat} :
  Goes s (s.publishOverflow rt msg published now attempts)
  := by
  rw [publishOverflow]
  split
  · exact ⟨by simp [receivedOf], rfl, rfl⟩
  · exact ⟨rfl, rfl, rfl⟩

theorem goes_retryDeadLetter :
  Goes s (s.retryDeadLetter rt now published)
  := by
  rw [retryDeadLetter]
  split
  · exact .refl s
  · split
    · exact .refl s
    · exact goes_publishOverflow

theorem goes_advance :
  Goes s (s.advance rt now published)
  := by
  have filled : Goes s (s.fillWindow rt now s.closing) := goes_fillWindow s.closing
  have launched : Goes s ((s.fillWindow rt now s.closing).launchEligible now) :=
    filled.trans ⟨rfl, rfl, rfl⟩
  exact (launched.trans goes_startCommit).trans goes_retryDeadLetter

/-- The coordinator is told to close. -/
def Action.closes : Action → Bool
  | .close .. => true
  | _ => false

/-- The coordinator returns when its idle timer fires. -/
def resting (s : PartitionAggregator) : Bool :=
  s.batches = [] ∧ s.buffer = [] ∧ s.commitInFlight = none ∧ s.pendingOverflow = none

/-- What a round does to a coordinator: it returns only when it is closing or idle. -/
structure Round (a : Action) (s t : PartitionAggregator) : Prop where
  received : receivedOf t.events = receivedOf s.events ++ a.received
  closing : t.closing → s.closing ∨ a.closes
  ended : t.ended → s.closing ∨ a.closes ∨ a = .idleTimer ∧ resting s

theorem Goes.round (goes : Goes s t) (running : ¬ s.ended) (quiet : a.received = []) :
  Round a s t
  where
  received := by rw [quiet, append_nil, goes.received]
  closing := by
    intro closing
    left
    rwa [goes.closing] at closing
  ended := by
    intro ended
    rw [goes.ended] at ended
    exact absurd ended running

theorem Round.settle (round : Round a s t) :
  Round a s (settle t)
  := by
  rw [Aggregate.settle]
  split
  case isTrue idle =>
    refine ⟨round.received, round.closing, fun _ => ?_⟩
    exact (round.closing idle.1).imp_right .inl
  case isFalse => exact round

theorem closing_of_attempted {closing : Bool} {result : AttemptResult}
    (eq : attempted rt closing now batch result = none) :
  closing
  := by
  unfold attempted at eq
  split at eq
  · cases eq
  · split at eq
    · assumption
    · cases eq

theorem receivedOf_executed {resolves : Message → Bool} {emits : Bool} :
  receivedOf (s.events ++ (executeBatch rt batch resolves emits).events) = receivedOf s.events
  := by
  simp only [executeBatch, receivedOf, filterMap_append, filterMap_map, append_right_eq_self,
    append_eq_nil_iff]
  refine ⟨filterMap_eq_nil_iff.mpr fun _ _ => rfl, ?_⟩
  split <;> rfl

/-- A round that ends with `advance`. -/
theorem Goes.advanced (goes : Goes s t) (running : ¬ s.ended)
    (quiet : a.received = []) :
  Round a s (Aggregate.settle (t.advance rt now published))
  :=
  ((goes.trans goes_advance).round running quiet).settle

attribute [local simp] Action.received

/-- The record is logged before anything else happens. -/
theorem Goes.receive (running : ¬ (s.ended ∨ s.closing ∨ s.blocked rt))
    (goes : Goes { s with events := s.events ++ [.received msg] } t) :
  Round (.receive msg now published) s t
  where
  received := by rw [goes.received, receivedOf, filterMap_append]; rfl
  closing closing := .inl (goes.closing ▸ closing)
  ended ended := absurd (.inl (goes.ended ▸ ended)) running

theorem round_of_step (eq : step rt a s = some t) :
  Round a s t
  := by
  revert eq
  fun_cases step rt a s with
  | case2 _ _ _ _ running =>
    rintro ⟨⟩
    apply Goes.receive running
    rw [handleOverflow]
    split
    · exact goes_publishOverflow
    · exact ⟨rfl, rfl, rfl⟩
  | case3 _ _ _ _ running =>
    rintro ⟨⟩
    apply Goes.receive running
    apply Goes.trans _ (goes_fillWindow false)
    exact ⟨rfl, rfl, rfl⟩
  | case7 _ _ _ _ _ _ _ _ _ _ _ _ result =>
    rintro ⟨⟩
    refine ⟨?_, .inl, fun _ => .inl (closing_of_attempted result)⟩
    exact receivedOf_executed.trans (append_nil _).symm
  | case8 =>
    rintro ⟨⟩
    apply Goes.advanced _ ‹_› rfl
    exact ⟨receivedOf_executed, rfl, rfl⟩
  | case11 | case13 | case14 =>
    rintro ⟨⟩
    apply Goes.advanced _ ‹_› rfl
    exact ⟨rfl, rfl, rfl⟩
  | case12 =>
    rintro ⟨⟩
    exact ⟨(append_nil _).symm, .inl, fun _ => .inl ‹_›⟩
  | case16 _ _ _ running =>
    rintro ⟨⟩
    exact (goes_fillWindow true).advanced running rfl
  | case18 _ _ _ running =>
    rintro ⟨⟩
    exact (Goes.refl s).advanced running rfl
  | case20 _ _ idle =>
    rintro ⟨⟩
    exact ⟨by simp, .inl, fun _ => .inr (.inr ⟨rfl, decide_eq_true idle⟩)⟩
  | case21 _ running =>
    rintro ⟨⟩
    exact (Goes.refl s).round running rfl
  | case23 =>
    rintro ⟨⟩
    apply Round.settle
    refine ⟨?_, fun _ => .inr rfl, fun _ => .inr (.inl rfl)⟩
    rw [Action.received, append_nil, beginClose, goes_advance.received]
    exact nofun
  | case25 _ running =>
    rintro ⟨⟩
    simp only [not_or, not_not] at running
    exact ⟨by simp, .inl, fun _ => .inl running.2⟩
  -- the action is not enabled
  | _ => exact nofun

end Aggregate

/-! ### Records in channels -/

namespace Coordinators

open Transition

variable {rt : AggregateRuntime} {s t : Coordinators} {c next : Coordinator}

theorem round_eq {a : Aggregate.Action} (eq : c.round rt a = some next) :
  next.key = c.key ∧ next.closed = c.closed ∧ (a.closes → c.closed) ∧ a.received ++ next.ch = c.ch ∧
    Aggregate.Round a c.loop next.loop
  := by
  cases a with
  | receive msg now published =>
    rw [Coordinator.round] at eq
    split at eq
    case h_1 => cases eq
    case h_2 head rest ch =>
      obtain ⟨same, eq⟩ := ite_none_left_eq_some.mp eq
      obtain ⟨loop, stepped, rfl⟩ := map_eq_some_iff.mp eq
      refine ⟨rfl, rfl, nofun, ?_, Aggregate.round_of_step stepped⟩
      rw [ch, not_not.mp same]
      rfl
  | close =>
    obtain ⟨closed, eq⟩ := ite_none_right_eq_some.mp eq
    obtain ⟨loop, stepped, rfl⟩ := map_eq_some_iff.mp eq
    exact ⟨rfl, rfl, fun _ => closed, rfl, Aggregate.round_of_step stepped⟩
  | attemptResult | commitResult | flushTimer | retryTimer | idleTimer | closeTimer =>
    obtain ⟨loop, stepped, rfl⟩ := map_eq_some_iff.mp eq
    exact ⟨rfl, rfl, nofun, rfl, Aggregate.round_of_step stepped⟩

/-- The coordinator received the record, or has it in its channel. -/
def Holds (c : Coordinator) (m : Message) : Prop :=
  m ∈ Aggregate.receivedOf c.loop.events ∨ m ∈ c.ch

/-- A coordinator that returns as it is idle has an empty channel, and no record is sent to one that
returned. -/
def attended : Action → Coordinators → Bool
  | .round id .idleTimer, s =>
    s.coordinators[id]?.all fun c => c.ch = [] ∨ Aggregate.resting c.loop = false
  | .send, s =>
    match s.caller with
    | some (.sending _ _ id) => s.coordinators[id]?.all (! ·.loop.ended)
    | _ => true
  | _, _ => true

def Attended (a : Action) (s : Coordinators) : Prop := s.closing ∨ attended a s = true

instance decidableAttended (a : Action) (s : Coordinators) : Decidable (Attended a s) :=
  inferInstanceAs (Decidable (_ ∨ _))

/-- The records that were accepted are with the coordinators of their partitions, and those that
returned have an empty channel. -/
structure Tended (s : Coordinators) : Prop where
  mapped : ∀ key id, s.aggregators key = some id → (s.coordinators[id]?).map (·.key) = some key
  target : ∀ key msg id, s.caller = some (.sending key msg id) →
    (s.coordinators[id]?).map (·.key) = some key
  held : ∀ r ∈ s.accepted, ∃ id : Nat, ∃ c, s.coordinators[id]? = some c ∧ c.key = r.1 ∧ Holds c r.2
  closing : ∀ (id : Nat) c, s.coordinators[id]? = some c → c.loop.closing ∨ c.closed → s.closing
  empty : ∀ (id : Nat) c, s.coordinators[id]? = some c → c.loop.ended → s.closing ∨ c.ch = []

section

variable (h : Tended s)

include h

/-- One coordinator goes on. -/
theorem Tended.replace {id : Nat} (found : s.coordinators[id]? = some c)
    (key : next.key = c.key) (holds : ∀ m, Holds c m → Holds next m)
    (shut : next.loop.closing ∨ next.closed → s.closing)
    (idle : next.loop.ended → s.closing ∨ next.ch = []) :
  Tended { s with coordinators := s.coordinators.set id next }
  := by
  obtain ⟨mapped, target, held, closing, empty⟩ := h
  constructor
  case held =>
    intro r mem
    obtain ⟨j, d, at_j, same, here⟩ := held r mem
    by_cases this : id = j
    · exact ⟨id, next, by grind, by grind, holds _ (by grind)⟩
    · exact ⟨j, d, by grind, same, here⟩
  all_goals grind

theorem Tended.spawn (key : PartitionKey) (msg : Message) :
  Tended { s with
    aggregators := update s.aggregators key (some s.coordinators.length)
    coordinators := s.coordinators ++ [{ key := key }]
    caller := some (.sending key msg s.coordinators.length) }
  := by
  obtain ⟨mapped, target, held, closing, empty⟩ := h
  constructor
  case held =>
    intro r mem
    obtain ⟨j, d, at_j, here⟩ := held r mem
    exact ⟨j, d, by grind, here⟩
  all_goals simp only [update_apply]
  all_goals grind

theorem Tended.round {id : Nat} {a : Aggregate.Action} (found : s.coordinators[id]? = some c)
    (attended : a = .idleTimer → s.closing ∨ c.ch = [] ∨ Aggregate.resting c.loop = false)
    (eq : c.round rt a = some next) :
  Tended { s with coordinators := s.coordinators.set id next }
  := by
  obtain ⟨key, closed, told, ch, round⟩ := round_eq eq
  have closing := h.closing id c found
  apply h.replace found key
  case holds =>
    intro m held
    rw [Holds, round.received, mem_append, or_assoc, ← mem_append, ch]
    exact held
  case shut => grind [round.closing]
  case idle =>
    intro ended
    rcases round.ended ended with running | closes | ⟨idle, rests⟩
    · exact .inl (closing (.inl running))
    · exact .inl (closing (.inr (told closes)))
    · refine (attended idle).imp_right fun empty => ?_
      rw [empty.resolve_right (by simp [rests])] at ch
      exact (append_eq_nil_iff.mp ch).2

theorem Tended.send {id : Nat} {key : PartitionKey} {msg : Message}
    (caller : s.caller = some (.sending key msg id)) (found : s.coordinators[id]? = some c)
    (running : s.closing ∨ c.loop.ended = false) :
  Tended { s with
    coordinators := s.coordinators.set id { c with ch := c.ch ++ [msg] }
    caller := none
    accepted := s.accepted ++ [(key, msg)] }
  := by
  have target := h.target key msg id caller
  have sent : Tended { s with
      coordinators := s.coordinators.set id { c with ch := c.ch ++ [msg] } } :=
    h.replace found rfl (fun m => .imp_right (mem_append_left _)) (h.closing id c found) (by grind)
  refine { sent with target := nofun, held := fun r mem => ?_ }
  rcases mem_append.mp mem with mem | mem
  · exact sent.held r mem
  · exact ⟨id, _, List.getElem?_set_self (by grind), by grind [Holds]⟩

theorem Tended.close :
  Tended { s with
    closing := true
    coordinators := s.coordinators.mapIdx (fun id c =>
      if s.aggregators c.key = some id then { c with closed := true } else c) }
  := by
  obtain ⟨mapped, target, held, closing, empty⟩ := h
  constructor
  case held =>
    intro r mem
    obtain ⟨j, d, at_j, key, here⟩ := held r mem
    refine ⟨j, _, by rw [getElem?_mapIdx, at_j]; rfl, ?_⟩
    dsimp only
    split <;> exact ⟨key, here⟩
  all_goals grind

theorem Tended.step {a : Action} (attended : Attended a s) (eq : step rt a s = some t) :
  Tended t
  := by
  revert eq
  fun_cases Coordinators.step rt a s with
  | case1 | case11 | case14 =>
    rintro ⟨⟩
    exact { h with target := nofun }
  | case4 _ key msg _ _ id mapped =>
    rintro ⟨⟩
    refine { h with target := ?_ }
    rintro _ _ _ ⟨⟩
    exact h.mapped key id mapped
  | case5 _ key msg =>
    rintro ⟨⟩
    exact h.spawn key msg
  | case9 _ key msg id caller c found =>
    rintro ⟨⟩
    rw [Attended, Coordinators.attended, caller] at attended
    exact h.send caller found (by simpa [found] using attended)
  | case16 =>
    rintro ⟨⟩
    exact { h with }
  | case18 _ id a c found =>
    intro eq
    obtain ⟨next, stepped, rfl⟩ := map_eq_some_iff.mp eq
    apply h.round found _ stepped
    rintro rfl
    rw [Attended, Coordinators.attended, found] at attended
    simpa using attended
  | case21 _ id c found =>
    rintro ⟨⟩
    have evicted : Tended { s with
        coordinators := s.coordinators.set _ { c with evicted := true } } :=
      h.replace found rfl (fun _ held => held) (h.closing _ c found) (h.empty _ c found)
    refine { evicted with mapped := fun k i eq => evicted.mapped k i ?_ }
    grind
  | case24 _ id c found =>
    rintro ⟨⟩
    exact h.replace found rfl (fun _ held => held) (h.closing _ c found) (h.empty _ c found)
  | case26 =>
    rintro ⟨⟩
    exact h.close
  -- the action is not enabled
  | _ => exact nofun

end

theorem tended_initial :
  Tended {}
  where
  mapped := nofun
  target := nofun
  held := nofun
  closing := nofun
  empty := nofun

/-- In every run in which a coordinator that returns as it is idle has an empty channel and no
record is sent to one that returned: until the runtime is closed, each record for which `submit`
returned true was received by a coordinator of its partition or waits for one that did not return,
and nothing is left in the channel of one that did. -/
theorem submitted_received (run : Run (Coordinators.step rt) Attended {} s) :
  s.closing ∨
    (∀ r ∈ s.accepted, ∃ c ∈ s.coordinators, c.key = r.1 ∧
      (r.2 ∈ Aggregate.receivedOf c.loop.events ∨ r.2 ∈ c.ch ∧ c.loop.ended = false)) ∧
    ∀ c ∈ s.coordinators, c.loop.ended → c.ch = []
  := by
  have tended : Tended s := run.invariant tended_initial (fun _ _ _ h cond eq => h.step cond eq)
  by_cases closing : s.closing
  · exact .inl closing
  · right
    have empty : ∀ c ∈ s.coordinators, c.loop.ended → c.ch = [] := by
      intro c mem ended
      obtain ⟨id, found⟩ := mem_iff_getElem?.mp mem
      exact (tended.empty id c found ended).resolve_left closing
    refine ⟨fun r mem => ?_, empty⟩
    obtain ⟨id, c, found, key, held⟩ := tended.held r mem
    have mem := mem_of_getElem? found
    exact ⟨c, mem, key, by grind [Holds]⟩

namespace Sample

/-- Batches of two records; overflow is blocked. -/
def small : AggregateRuntime where
  cfg := { maxSize := 2, flushInterval := 100, onOverflow := .block }
  emitSlots := 1

def key : PartitionKey := ⟨"t", 0⟩

def submitTo (offset : Int) : List Action := [.submit key ⟨offset, "", ""⟩, .lookup, .send]

/-- The coordinator takes a record from its channel, emits and commits it. -/
def handled (id : Nat) (offset : Int) : List Action := [
  .round id (.receive ⟨offset, "", ""⟩ 0 true),
  .round id (.flushTimer 0 true),
  .round id (.attemptResult 0 (fun _ => true) true 0 true),
  .round id (.commitResult true 0 true)]

/-- The idle timer is taken while a record is in the channel. -/
def takenWithRecord : List Action :=
  submitTo 0 ++ [.round 0 .idleTimer, .evict 0, .done 0] ++ submitTo 1 ++ handled 1 1

/-- A record is sent to a coordinator that returned after it was looked up. -/
def sentToReturned : List Action :=
  submitTo 0 ++ handled 0 0 ++ [.submit key ⟨1, "", ""⟩, .lookup, .round 0 .idleTimer, .send,
    .evict 0, .done 0] ++ submitTo 2 ++ handled 1 2

/-- A coordinator is reaped and replaced with its channel empty. -/
def reaped : List Action :=
  submitTo 0 ++ handled 0 0 ++ [.submit key ⟨1, "", ""⟩, .lookup, .round 0 .idleTimer, .evict 0,
    .done 0, .retry, .lookup, .send] ++ handled 1 1

end Sample

open Sample

/-- A record that was accepted lies in the channel of a coordinator that returned, and its
replacement committed a later record: the idle timer was taken with the record in the channel, or
the record was sent after the return. -/
theorem record_left_behind :
  (∃ s, Run (Coordinators.step small) (fun _ _ => True) {} s ∧ s.closing = false ∧
    (key, ⟨0, "", ""⟩) ∈ s.accepted ∧
    s.coordinators.map (fun c => (c.loop.ended, c.ch)) = [(true, [⟨0, "", ""⟩]), (false, [])] ∧
    s.coordinators.map (fun c => c.loop.events.contains (.commit [⟨1, "", ""⟩])) = [false, true]) ∧
  (∃ s, Run (Coordinators.step small) (fun _ _ => True) {} s ∧ s.closing = false ∧
    (key, ⟨1, "", ""⟩) ∈ s.accepted ∧
    s.coordinators.map (fun c => (c.loop.ended, c.ch)) = [(true, [⟨1, "", ""⟩]), (false, [])] ∧
    s.coordinators.map (fun c => c.loop.events.contains (.commit [⟨2, "", ""⟩])) = [false, true])
  := by
  constructor
  · apply exists_run takenWithRecord
    decide
  · apply exists_run sentToReturned
    decide

theorem reaped_received :
  ∃ s, Run (Coordinators.step small) Attended {} s ∧ (key, ⟨1, "", ""⟩) ∈ s.accepted ∧
    (s.closing ∨
      (∀ r ∈ s.accepted, ∃ c ∈ s.coordinators, c.key = r.1 ∧
        (r.2 ∈ Aggregate.receivedOf c.loop.events ∨ r.2 ∈ c.ch ∧ c.loop.ended = false)) ∧
      ∀ c ∈ s.coordinators, c.loop.ended → c.ch = [])
  := by
  apply exists_guarded_run_and reaped (by decide)
  exact fun _ run _ => submitted_received run

end Coordinators

end Kafka

end Xflow
