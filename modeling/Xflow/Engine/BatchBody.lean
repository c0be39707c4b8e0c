import Xflow.Engine.MapOutcome
import Xflow.Lib.Run

/-!
# The items of a batch

`ExecuteBatchBody` with all that may happen around it: permits are granted or not, items end in any
order and in any way, and the caller's context is canceled at any moment.

The loop over the items of a concurrent batch also ends when the context is done.  It records the
error of the context only where the permit of an item is refused; after its other checks a batch
without the items that were not started passes (`canceled_batch_passes`).
-/

namespace Xflow.MapNode

open List Option Transition

variable {α V : Type}

/-- `BatchBodyRequest` as far as the loops read it, with the item capacity of the limiter. -/
structure BatchBodyRequest (α : Type) where
  hasBody : Bool := true
  items : List α
  batchIndex : Nat := 0
  batchSize : Int := 0
  continueOnError : Bool := false
  bodyConcurrency : Int
  limiter : Option Nat := none

namespace BatchBodyRequest

variable (req : BatchBodyRequest α)

def mapBatchWidth : Int := min (max req.bodyConcurrency 1) req.items.length

def effectiveItemWidth : Int :=
  match req.limiter with
  | none => max req.mapBatchWidth 1
  | some capacity => min (max req.mapBatchWidth 1) capacity

def globalIndex (pos : Nat) : Nat :=
  if req.batchSize ≤ 0 then pos else globalItemIndex req.batchIndex req.batchSize.toNat pos

/-- A permit.  Without a limiter there is always one; with it a permit is refused only if the
context is done, and a wait that the cancellation meets may still be granted. -/
def acquire (granted done : Bool) : Option Bool :=
  if req.limiter = none ∨ granted then some true else if done then some false else none

end BatchBodyRequest

inductive ItemState (V : Type) where
  | waiting
  | running
  | done (r : BatchItemResult V)

def ItemState.result? : ItemState V → Option (BatchItemResult V)
  | .done r => some r
  | _ => none

/-- Where `ExecuteBatchBody` stands. -/
inductive Point (V : Type) where
  | start
  | batch
  /-- The loop over the items one after the other. -/
  | item (pos : Nat)
  | body (pos : Nat)
  /-- The loop of `executeConcurrently`: at the ticket, at the permit and at the last check. -/
  | ticket (pos : Nat)
  | permit (pos : Nat)
  | admission (pos : Nat)
  | wait
  | returned (answer : Except String (List (BatchItemResult V)))

structure Batch (V : Type) where
  point : Point V := .start
  /-- The context of the caller is done. -/
  canceled : Bool := false
  /-- `cancel` was called. -/
  stopped : Bool := false
  stop : Bool := false
  runErr : Option String := none
  tickets : Nat := 0
  slots : Nat → ItemState V := fun _ => .waiting

namespace Batch

inductive Action (V : Type) where
  | cancel
  | proceed (granted : Bool)
  /-- The body could not be run, or gave a result or an error; `timeout` says it was late. -/
  | finish (pos : Nat) (outcome : Except String (Except String V)) (timeout : Bool)

variable (req : BatchBodyRequest α) (s : Batch V)

/-- The results of the items that ran, in item order. -/
def collect (slots : Nat → ItemState V) : List (BatchItemResult V) :=
  (range req.items.length).filterMap fun pos => (slots pos).result?

def set (pos : Nat) (state : ItemState V) : Batch V :=
  { s with slots := fun p => if p = pos then state else s.slots p }

def goto (point : Point V) : Option (Batch V) := some { s with point }

def results? : Option (List (BatchItemResult V)) :=
  match s.point with
  | .returned (.ok results) => some results
  | _ => none

/-- The next step of the goroutine that called. -/
def proceed (granted : Bool) : Option (Batch V) :=
  let done := s.canceled || s.stopped
  match s.point with
  | .start =>
    if ¬ req.hasBody then
      s.goto (.returned (.error "no_map_body: batch body request carries no package"))
    else if req.items = [] then s.goto (.returned (.ok []))
    else s.goto .batch
  | .batch => do
    if ← req.acquire granted s.canceled then
      s.goto (if 1 < req.effectiveItemWidth then .ticket 0 else .item 0)
    else s.goto (.returned (.error "context canceled"))
  | .item pos =>
    if req.items.length ≤ pos then s.goto (.returned (.ok (collect req s.slots)))
    else do
      if ← req.acquire granted s.canceled then s.goto (.body pos)
      else s.goto (.returned (.error "context canceled"))
  | .ticket pos =>
    if req.items.length ≤ pos ∨ done then s.goto .wait
    else if s.tickets < req.effectiveItemWidth then
      { s with tickets := s.tickets + 1 }.goto (.permit pos)
    else none
  | .permit pos => do
    if ← req.acquire granted done then s.goto (.admission pos)
    else
      let err := if s.canceled then s.runErr.or (some "context canceled") else s.runErr
      { s with tickets := s.tickets - 1, runErr := err }.goto .wait
  | .admission pos =>
    if s.stop ∨ s.runErr.isSome ∨ done then { s with tickets := s.tickets - 1 }.goto .wait
    else (s.set pos .running).goto (.ticket (pos + 1))
  | .wait =>
    if (range req.items.length).any (fun pos => s.slots pos matches .running) then none
    else s.goto (.returned (match s.runErr with
      | some e => .error e
      | none => .ok (collect req s.slots)))
  | .body _ | .returned _ => none

/-- The result of an item ends the batch. -/
def ends (r : BatchItemResult V) : Bool := (itemError r).isSome && !req.continueOnError

def finish (pos : Nat) (outcome : Except String (Except String V)) (timeout : Bool) :
    Option (Batch V) :=
  match s.point, s.slots pos, outcome with
  | .body p, _, .error e => if p = pos then s.goto (.returned (.error e)) else none
  | .body p, _, .ok data =>
    let r := { index := req.globalIndex pos, data, timeout }
    let t := s.set pos (.done r)
    if p ≠ pos then none
    else if ends req r then t.goto (.returned (.ok (collect req t.slots)))
    else t.goto (.item (pos + 1))
  | _, .running, .error e =>
    some { s.set pos .waiting with
      tickets := s.tickets - 1
      runErr := s.runErr.or (some e)
      stopped := s.stopped || s.runErr.isNone }
  | _, .running, .ok data =>
    let r := { index := req.globalIndex pos, data, timeout }
    some { s.set pos (.done r) with
      tickets := s.tickets - 1
      stop := s.stop || ends req r
      stopped := s.stopped || ends req r }
  | _, _, _ => none

def step : Action V → Batch V → Option (Batch V)
  | .cancel, s => some { s with canceled := true }
  | .proceed granted, s => s.proceed req granted
  | .finish pos outcome timeout, s => s.finish req pos outcome timeout

/-- The loop of `executeConcurrently` looks at the context while items are left. -/
def looks : Bool :=
  match s.point with
  | .ticket pos => pos < req.items.length
  | .admission _ => true
  | _ => false

/-- Where the loop looks at the context, the one of the caller is not done, unless the batch was
canceled on its own account or has an error on record. -/
def Heeds : Action V → Batch V → Prop
  | .proceed _, s => s.looks req → s.canceled → s.stopped ∨ s.runErr.isSome
  | _, _ => True

/-! ### Every return -/

/-- An item failed, and failures are not tolerated. -/
def Failed (slots : Nat → ItemState V) : Prop :=
  req.continueOnError = false ∧
    ∃ pos r, pos < req.items.length ∧ slots pos = .done r ∧ (itemError r).isSome

/-- The items before a position ran, and no other has begun. -/
def Filled (slots : Nat → ItemState V) (pos : Nat) : Prop :=
  ∀ p, if p < pos then ∃ r, slots p = .done r else slots p = .waiting

/-- What has happened when a point is reached. -/
def Progress : Point V → Prop
  | .start | .batch => Filled s.slots 0
  | .item pos => Filled s.slots pos
  | .body pos => pos < req.items.length ∧ Filled s.slots pos
  | .ticket pos => s.runErr = none → ∀ p < pos, s.slots p ≠ .waiting
  | .permit pos | .admission pos =>
    pos < req.items.length ∧ (s.runErr = none → ∀ p < pos, s.slots p ≠ .waiting)
  | .wait =>
    s.runErr = none → Failed req s.slots ∨ ∀ p < req.items.length, s.slots p ≠ .waiting
  | .returned (.ok results) => results = collect req s.slots ∧ (∀ p, s.slots p ≠ .running) ∧
    (Failed req s.slots ∨ ∀ p < req.items.length, ∃ r, s.slots p = .done r)
  | .returned (.error _) => True

structure Sound : Prop where
  progress : s.Progress req s.point
  indexed : ∀ p r, s.slots p = .done r → r.index = req.globalIndex p
  within : ∀ p, s.slots p ≠ .waiting → p < req.items.length
  stop : s.stop → Failed req s.slots
  stopped : s.stopped → s.stop ∨ s.runErr.isSome

variable {req s} {t : Batch V} {a : Action V}

/-- The goroutine moves on, and no item changes. -/
theorem Sound.move {point : Point V} {canceled : Bool} {runErr : Option String}
    {tickets : Nat} (sound : s.Sound req)
    (next : some { s with point, canceled, runErr, tickets } = some t)
    (kept : s.runErr.isSome → runErr.isSome)
    (progress : { s with point, canceled, runErr, tickets }.Progress req point) :
  t.Sound req
  := by
  obtain rfl := some.inj next
  obtain ⟨-, indexed, within, stop, stopped⟩ := sound
  exact ⟨progress, indexed, within, stop, fun was => (stopped was).imp_right kept⟩

theorem Sound.failed (sound : s.Sound req) (none : s.runErr = none) (stopped : s.stopped) :
  Failed req s.slots
  := by
  apply sound.stop
  simpa [none] using sound.stopped stopped

attribute [local grind] Progress

theorem Sound.proceed {granted : Bool} (sound : s.Sound req)
    (heeds : Heeds req (.proceed granted) s) (next : s.proceed req granted = some t) :
  t.Sound req
  := by
  have progress := sound.progress
  have failed := sound.failed
  unfold Batch.proceed goto at next
  cases point : s.point
  all_goals simp only [Heeds, looks, point, Progress] at heeds next progress
  case start =>
    split at next
    · exact sound.move next id trivial
    · split at next
      case isTrue empty =>
        exact sound.move next id ⟨by simp [collect, empty], by grind [Filled], by simp [empty]⟩
      case isFalse => exact sound.move next id progress
  case batch =>
    obtain ⟨ok, -, next⟩ := bind_eq_some_iff.mp next
    split at next
    · refine sound.move next id ?_
      split <;> simp [Progress, progress]
    · exact sound.move next id trivial
  case item pos =>
    split at next
    · exact sound.move next id ⟨rfl, by grind [Filled],
        .inr fun p lt => by simpa [show p < pos by omega] using progress p⟩
    · obtain ⟨ok, -, next⟩ := bind_eq_some_iff.mp next
      split at next
      · exact sound.move next id ⟨by omega, progress⟩
      · exact sound.move next id trivial
  case ticket pos =>
    split at next
    · refine sound.move next id ?_
      grind
    · split at next
      · exact sound.move next id ⟨by omega, progress⟩
      · cases next
  case permit pos =>
    obtain ⟨ok, acquired, next⟩ := bind_eq_some_iff.mp next
    split at next
    · exact sound.move next id progress
    -- a permit is refused only if one of the contexts is done
    · unfold BatchBodyRequest.acquire at acquired
      refine sound.move next ?_ ?_ <;> grind
  case admission pos =>
    split at next
    · have stop := sound.stop
      refine sound.move next id ?_
      grind
    · obtain rfl := some.inj next
      obtain ⟨-, indexed, within, stop, stopped⟩ := sound
      constructor <;> grind [set]
  case wait =>
    split at next
    · cases next
    · have within := sound.within
      refine sound.move next id ?_
      cases err : s.runErr with
      | some e => trivial
      | none =>
        have idle : ∀ p, s.slots p ≠ .running := by grind
        exact ⟨rfl, idle, (progress err).imp_right fun all p lt => by
          cases state : s.slots p <;> grind⟩
  all_goals cases next

attribute [local grind] Batch.set

theorem Failed.set {pos : Nat} {state : ItemState V} (failed : Failed req s.slots)
    (free : ∀ r, s.slots pos ≠ .done r) :
  Failed req (s.set pos state).slots
  := by
  obtain ⟨strict, p, r, lt, there, err⟩ := failed
  exact ⟨strict, p, r, lt, by grind, err⟩

theorem Sound.finish {pos : Nat} {outcome : Except String (Except String V)} {timeout : Bool}
    (sound : s.Sound req) (next : s.finish req pos outcome timeout = some t) :
  t.Sound req
  := by
  obtain ⟨progress, indexed, within, stop, stopped⟩ := sound
  have failed (state : ItemState V) := @Failed.set _ _ req s pos state
  unfold Batch.finish goto at next
  split at next
  case h_1 p e point =>
    obtain ⟨-, rfl⟩ := ite_none_right_eq_some.mp next |>.imp_right some.inj
    exact ⟨trivial, indexed, within, stop, stopped⟩
  case h_2 p data point =>
    split at next
    · cases next
    · all_goals constructor <;> grind -ring -linarith [Filled, Failed, ends]
  case h_3 | h_4 =>
    obtain rfl := some.inj next
    constructor
    case progress =>
      cases point : s.point with
      | returned answer => cases answer <;> grind -ring -linarith
      | _ => grind -ring -linarith [Filled]
    all_goals grind -ring -linarith [ends, Failed]
  case h_5 => cases next

theorem Sound.step (sound : s.Sound req) (heeds : Heeds req a s)
    (next : step req a s = some t) :
  t.Sound req
  := by
  cases a with
  | cancel => exact sound.move next id sound.progress
  | proceed granted => apply sound.proceed heeds next
  | finish pos outcome timeout => apply sound.finish next

theorem sound_of_run (run : Run (step req) (Heeds req) {} s) : s.Sound req
  := by
  refine run.invariant ?_ fun a s t sound heeds next => sound.step heeds next
  constructor <;> simp [Progress, Filled]

theorem mem_collect {slots : Nat → ItemState V} {r : BatchItemResult V} :
  r ∈ collect req slots ↔ ∃ pos < req.items.length, slots pos = .done r
  := by
  have done (state : ItemState V) : state.result? = some r ↔ state = .done r := by
    cases state <;> simp [ItemState.result?]
  simp [collect, done]

theorem Failed.verdict (failed : Failed req s.slots) :
  (batchResultForCommit (collect req s.slots) req.continueOnError).2 ≠ none
  := by
  obtain ⟨strict, pos, r, lt, there, err⟩ := failed
  have mem : r ∈ collect req s.slots := mem_collect.mpr ⟨pos, lt, there⟩
  unfold batchResultForCommit
  split
  case h_1 found => grind
  case h_2 => simp [strict]

theorem Sound.returned (sound : s.Sound req) {results : List (BatchItemResult V)}
    (answer : s.results? = some results) :
  results = collect req s.slots ∧
    (Failed req s.slots ∨ ∀ p < req.items.length, ∃ r, s.slots p = .done r)
  := by
  have progress := sound.progress
  unfold results? at answer
  split at answer
  case h_2 => cases answer
  case h_1 point =>
    cases answer
    rw [point] at progress
    exact ⟨progress.1, progress.2.2⟩

/-- In every run whose loop finds the context of the caller done only after a failed item or an
error, a batch that is returned without an error and passes has one result per item, in item order.
-/
theorem batch_complete {s : Batch V} {results : List (BatchItemResult V)}
    (run : Run (step req) (Heeds req) {} s) (answer : s.results? = some results)
    (passes : (batchResultForCommit results req.continueOnError).2 = none) :
  results.map (·.index) = (range req.items.length).map req.globalIndex
  := by
  have sound := sound_of_run run
  obtain ⟨rfl, failed | all⟩ := sound.returned answer
  · exact absurd passes failed.verdict
  · rw [collect, map_filterMap, ← filterMap_eq_map]
    apply filterMap_congr
    intro p mem
    obtain ⟨r, there⟩ := all p (mem_range.mp mem)
    simp [there, ItemState.result?, sound.indexed p r there]

instance (a : Action V) (s : Batch V) : Decidable (Heeds req a s) := by
  unfold Heeds
  split <;> infer_instance

/-- Three items, two at a time. -/
def sample : BatchBodyRequest Unit := { items := [(), (), ()], bodyConcurrency := 2 }

/-- The first two items are started. -/
def started : List (Action Nat) := replicate 8 (.proceed true)

def succeeds (pos : Nat) : Action Nat := .finish pos (.ok (.ok pos)) false

theorem whole_batch_passes :
  ∃ s : Batch Nat, Run (step sample) (Heeds sample) {} s ∧ ∃ results, s.results? = some results ∧
    (batchResultForCommit results sample.continueOnError).2 = none ∧
    results.map (·.index) = (range sample.items.length).map sample.globalIndex
  := by
  have run : ∃ s : Batch Nat, Run (step sample) (Heeds sample) {} s ∧
      s.results?.any (fun results => (batchResultForCommit results false).2.isNone) :=
    exists_guarded_run (started ++ [succeeds 1, .proceed true, .proceed true, .proceed true,
      succeeds 2, .cancel, succeeds 0, .proceed true, .proceed true]) (by decide)
  obtain ⟨s, run, passes⟩ := run
  obtain ⟨results, answer, passes⟩ := (any_eq_true _ _).mp passes
  have passes := isNone_iff_eq_none.mp passes
  exact ⟨s, run, results, answer, passes, batch_complete run answer passes⟩

/-- The context is canceled after two of three items succeeded: the batch passes without the
third. -/
theorem canceled_batch_passes :
  ∃ s : Batch Nat, Run (step sample) (fun _ _ => True) {} s ∧
    s.results?.map (fun results => (results.map (·.index),
      (batchResultForCommit results sample.continueOnError).2)) = some ([0, 1], none)
  :=
  exists_run (started ++ [succeeds 1, succeeds 0, .cancel, .proceed true, .proceed true])
    (by decide)

/-! ### The width

The loop over the items one after the other stops at the first item that fails.  The concurrent one
cancels the items before it that are still running, and the error of the first of those is then the
error of the batch, whose permanence it decides (`permanence_lost`). -/

/-- What the body makes of an item that is not canceled, and whether it is late. -/
abbrev Body (α V : Type) := α → Except String V × Bool

/-- Nobody cancels, every body can be run, and an item that is not canceled gives what the body
makes of it.  The errors of those that are canceled are among `late`. -/
def Quiet (req : BatchBodyRequest α) (body : Body α V) (late : String → Prop) :
    Action V → Batch V → Prop
  | .cancel, _ | .finish _ (.error _) _, _ => False
  | .proceed _, _ => True
  | .finish pos (.ok data) timeout, s =>
    if s.stopped then
      match data with
      | .ok _ => True
      | .error e => late e
    else (req.items[pos]?).map body = some (data, timeout)

/-- A batch may give these results. -/
def Gives (req : BatchBodyRequest α) (body : Body α V) (late : String → Prop)
    (results : List (BatchItemResult V)) : Prop :=
  ∃ s, Run (step req) (Quiet req body late) {} s ∧ s.results? = some results

/-- The verdict on a batch: nothing if it passes, else whether its error is permanent. -/
def verdict (permanent : String → Bool) (req : BatchBodyRequest α)
    (results : List (BatchItemResult V)) : Option Bool :=
  (batchResultForCommit results req.continueOnError).2.map permanent

variable (req) (body : Body α V) (late : String → Prop)

/-- Some item fails, and that is not tolerated. -/
def Stops : Prop :=
  req.continueOnError = false ∧ ∃ item ∈ req.items, ∃ e, (body item).1 = .error e

/-- An item that was not canceled has failed, and that is not tolerated. -/
def Halts (slots : Nat → ItemState V) : Prop :=
  req.continueOnError = false ∧ ∃ p r, slots p = .done r ∧
    (req.items[p]?).map body = some (r.data, r.timeout) ∧ (itemError r).isSome

structure Calm (s : Batch V) : Prop where
  sound : s.Sound req
  uncanceled : s.canceled = false
  ran : s.runErr = none
  stop : s.stop → s.stopped
  halts : s.stopped → Halts req body s.slots
  given : ∀ p r, s.slots p = .done r →
    (req.items[p]?).map body = some (r.data, r.timeout) ∨
      s.stopped ∧ ∀ e, r.data = .error e → late e

variable {req body late} {t : Batch V}

theorem Calm.heeds (calm : Calm req body late s) (a : Action V) : Heeds req a s
  := by
  cases a with
  | proceed granted => simp [Heeds, calm.uncanceled]
  | _ => trivial

theorem proceed_keeps {granted : Bool} (uncanceled : s.canceled = false)
    (next : s.proceed req granted = some t) :
  t.canceled = false ∧ t.runErr = s.runErr ∧ t.stop = s.stop ∧ t.stopped = s.stopped ∧
    (s.stopped → t.slots = s.slots) ∧ ∀ p r, t.slots p = .done r → s.slots p = .done r
  := by
  unfold Batch.proceed goto BatchBodyRequest.acquire at next
  cases point : s.point <;> simp only [point] at next <;> grind

section

variable {pos : Nat} {data : Except String V} {timeout : Bool}
  (next : s.finish req pos (.ok data) timeout = some t)

include next

theorem finish_ok (sound : s.Sound req) :
  ∃ r : BatchItemResult V, r.data = data ∧ r.timeout = timeout ∧ t.canceled = s.canceled ∧
    t.runErr = s.runErr ∧ t.slots = (s.set pos (.done r)).slots ∧ (∀ r, s.slots pos ≠ .done r) ∧
    (t.stop → s.stop ∨ t.stopped) ∧ (s.stopped → t.stopped) ∧ (t.stopped → s.stopped ∨ ends req r)
  := by
  have progress := sound.progress
  unfold Batch.finish goto at next
  refine ⟨{ index := req.globalIndex pos, data, timeout }, rfl, rfl, ?_⟩
  split at next <;> grind [Filled]

theorem Calm.finish (calm : Calm req body late s) (sound : t.Sound req)
    (quiet : Quiet req body late (.finish pos (.ok data) timeout) s) :
  Calm req body late t
  := by
  obtain ⟨before, uncanceled, ran, stop, halts, given⟩ := calm
  obtain ⟨r, rfl, rfl, canceled, runErr, slots, free, stop', kept, ended⟩ := finish_ok next before
  simp only [Quiet] at quiet
  constructor <;> grind [Halts, ends, itemError]

end

theorem Calm.step (calm : Calm req body late s) (quiet : Quiet req body late a s)
    (next : step req a s = some t) :
  Calm req body late t
  := by
  have sound := calm.sound.step (calm.heeds a) next
  match a, quiet with
  | .proceed granted, _ =>
    obtain ⟨-, uncanceled, ran, stop, halts, given⟩ := calm
    have keeps := proceed_keeps uncanceled next
    constructor <;> grind
  | .finish pos (.ok data) timeout, quiet => exact calm.finish next sound quiet

theorem calm_of_run (run : Run (step req) (Quiet req body late) {} s) : Calm req body late s
  := by
  refine run.invariant ?_ fun a s t calm quiet next => calm.step quiet next
  constructor
  case sound => exact sound_of_run .refl
  all_goals simp

theorem Halts.stops (halts : Halts req body s.slots) : Stops req body
  := by
  obtain ⟨strict, p, r, -, given, err⟩ := halts
  obtain ⟨item, at_p, eq⟩ := map_eq_some_iff.mp given
  refine ⟨strict, item, mem_of_getElem? at_p, ?_⟩
  grind [itemError]

section

variable {results : List (BatchItemResult V)} (calm : Calm req body late s)
  (answer : s.results? = some results)

include calm answer

/-- Where no item stops the batch, the items decide the results. -/
theorem Calm.whole (free : ¬ Stops req body) :
  results = (range req.items.length).filterMap fun pos =>
    (req.items[pos]?).map fun item => ⟨req.globalIndex pos, (body item).1, (body item).2⟩
  := by
  have given {pos : Nat} {r : BatchItemResult V} (there : s.slots pos = .done r) :
      ∃ item, req.items[pos]? = some item ∧ body item = (r.data, r.timeout) :=
    map_eq_some_iff.mp
      ((calm.given pos r there).resolve_right fun late => free (calm.halts late.1).stops)
  obtain ⟨rfl, failed | all⟩ := calm.sound.returned answer
  · obtain ⟨strict, pos, r, -, there, err⟩ := failed
    obtain ⟨item, at_pos, eq⟩ := given there
    refine absurd ⟨strict, item, mem_of_getElem? at_pos, ?_⟩ free
    grind [itemError]
  · apply filterMap_congr
    intro pos mem
    obtain ⟨r, there⟩ := all pos (mem_range.mp mem)
    obtain ⟨item, at_pos, eq⟩ := given there
    simp [there, ItemState.result?, at_pos, eq, ← calm.sound.indexed pos r there]

/-- The error of a batch is one of its items, or of an item that was canceled when another one than
the first had failed. -/
theorem Calm.error {e : String} (found : results.findSome? itemError = some e) :
  (∃ item ∈ req.items, (body item).1 = .error e) ∨
    (∃ item ∈ req.items.tail, ∃ e, (body item).1 = .error e) ∧ late e
  := by
  obtain ⟨rfl, -⟩ := calm.sound.returned answer
  have own {pos : Nat} {r : BatchItemResult V} {e : String} (err : itemError r = some e)
      (given : (req.items[pos]?).map body = some (r.data, r.timeout)) :
      ∃ item, req.items[pos]? = some item ∧ (body item).1 = .error e := by
    obtain ⟨item, at_pos, eq⟩ := map_eq_some_iff.mp given
    exact ⟨item, at_pos, by grind [itemError]⟩
  obtain ⟨r, mem, err⟩ := exists_of_findSome?_eq_some found
  obtain ⟨pos, lt, there⟩ := mem_collect.mp mem
  rcases calm.given pos r there with given | ⟨stopped, lately⟩
  · obtain ⟨item, at_pos, failed⟩ := own err given
    exact .inl ⟨item, mem_of_getElem? at_pos, failed⟩
  -- the item that stopped the batch is the first, whose error comes first, or one after it
  · obtain ⟨-, p, r', there', given, err'⟩ := calm.halts stopped
    obtain ⟨e', err'⟩ := isSome_iff_exists.mp err'
    obtain ⟨item, at_p, failed⟩ := own err' given
    cases p with
    | succ p =>
      refine .inr ⟨⟨item, mem_of_getElem? (by rwa [getElem?_tail]), e', failed⟩, lately e ?_⟩
      grind [itemError]
    | zero =>
      obtain ⟨n, size⟩ := Nat.exists_eq_succ_of_ne_zero
        (Nat.ne_of_gt (by omega : 0 < req.items.length))
      rw [collect, size, range_succ_eq_map, filterMap_cons_some (by rw [there']; rfl),
        findSome?_cons_of_isSome (by simp [err']), err'] at found
      cases found
      exact .inl ⟨item, mem_of_getElem? at_p, failed⟩

theorem Calm.stopped (stops : Stops req body) :
  ∃ e, results.findSome? itemError = some e
  := by
  obtain ⟨strict, item, mem, e, err⟩ := stops
  obtain ⟨rfl, ended⟩ := calm.sound.returned answer
  have failed : Failed req s.slots := by
    refine ended.elim id fun all => ?_
    obtain ⟨pos, lt, rfl⟩ := getElem_of_mem mem
    obtain ⟨r, there⟩ := all pos lt
    rcases calm.given pos r there with given | ⟨stopped, -⟩
    · exact ⟨strict, pos, r, lt, there, by grind [itemError]⟩
    · exact calm.sound.failed calm.ran stopped
  obtain ⟨-, pos, r, lt, there, err⟩ := failed
  apply isSome_iff_exists.mp
  rw [findSome?_isSome_iff]
  exact ⟨r, mem_collect.mpr ⟨pos, lt, there⟩, err⟩

end

theorem verdict_of_first {permanent : String → Bool} {results : List (BatchItemResult V)}
    {e : String} (strict : req.continueOnError = false)
    (found : results.findSome? itemError = some e) :
  verdict permanent req results = some (permanent e)
  := by
  simp [verdict, batchResultForCommit, found, strict]

section

variable (req) (given : Nat → Except String V × Bool)

/-- The first items are running, and nothing else has happened. -/
def running (k : Nat) (point : Point V) (tickets : Nat) : Batch V where
  point := point
  tickets := tickets
  slots := fun p => if p < k then .running else .waiting

/-- The result of an item that ended in a given way. -/
def result (pos : Nat) : BatchItemResult V := ⟨req.globalIndex pos, (given pos).1, (given pos).2⟩

variable {req given} (free : req.limiter = none)

theorem run_proceed (run : Run (step req) (Quiet req body late) {} s)
    (next : s.proceed req true = some t) :
  Run (step req) (Quiet req body late) {} t
  := run.tail ⟨.proceed true, trivial, next⟩

include free

/-- All items of a batch can be running at once. -/
theorem run_started (width : req.effectiveItemWidth = req.items.length) (hasBody : req.hasBody)
    (wide : 1 < req.items.length) (k : Nat) (le : k ≤ req.items.length) :
  Run (step req) (Quiet req body late) {} (running k (.ticket k) k)
  := by
  induction k with
  | zero =>
    have begun : proceed req {} true = some (running 0 .batch 0 : Batch V) := by
      have : req.items ≠ [] := List.ne_nil_of_length_pos (by omega)
      simp [proceed, hasBody, goto, running, this]
    apply run_proceed (run_proceed .refl begun)
    have wide' : (1 : Int) < req.items.length := by omega
    simp [proceed, BatchBodyRequest.acquire, free, goto, running, width, wide']
  | succ k ih =>
    have permit : proceed req (running k (.ticket k) k) true
        = some (running k (.permit k) (k + 1) : Batch V) := by
      have room : ¬ req.items.length ≤ k := by omega
      simp [proceed, goto, running, width, room, Nat.lt_of_not_le room]
    have admitted : proceed req (running k (.permit k) (k + 1)) true
        = some (running k (.admission k) (k + 1) : Batch V) := by
      simp [proceed, BatchBodyRequest.acquire, free, goto, running]
    apply run_proceed (run_proceed (run_proceed (ih (by omega)) permit) admitted)
    simp [proceed, goto, running, set]
    grind

variable (given) in
omit free in
/-- After a failed item the others may end in any order. -/
theorem run_finished (ps : List Nat) (nodup : ps.Nodup) (point : s.point = .wait)
    (stopped : s.stopped) (ran : s.runErr = none) (busy : ∀ p ∈ ps, s.slots p = .running)
    (lately : ∀ p ∈ ps, ∀ e, (given p).1 = .error e → late e) :
  ∃ t, Run (step req) (Quiet req body late) s t ∧ t.point = .wait ∧ t.runErr = none ∧
    ∀ p, t.slots p = if p ∈ ps then .done (result req given p) else s.slots p
  := by
  induction ps generalizing s with
  | nil => exact ⟨s, .refl, point, ran, by simp⟩
  | cons p ps ih =>
    obtain ⟨fresh, nodup⟩ := nodup_cons.mp nodup
    obtain ⟨u, next, point', stopped', ran', slots⟩ : ∃ u,
        s.finish req p (.ok (given p).1) (given p).2 = some u ∧ u.point = .wait ∧ u.stopped ∧
        u.runErr = none ∧ u.slots = (s.set p (.done (result req given p))).slots := by
      simp [finish, point, busy p (by simp), stopped, ran, set, result]
    obtain ⟨t, run, point, ran, slots'⟩ := ih nodup point' stopped' ran' (by grind) (by grind)
    refine ⟨t, .head ⟨.finish p (.ok (given p).1) (given p).2, ?_, next⟩ run, point, ran, ?_⟩
    · simp only [Quiet, stopped, if_true]
      split
      · trivial
      · exact lately p (by simp) _ ‹_›
    · grind

/-- An item that fails may be the first to end, and the others then end in any way. -/
theorem gives_given (width : req.effectiveItemWidth = req.items.length) (hasBody : req.hasBody)
    (wide : 1 < req.items.length) (strict : req.continueOnError = false) {p : Nat} {item : α}
    (at_p : req.items[p]? = some item) (same : given p = body item)
    {e : String} (err : (body item).1 = .error e)
    (lately : ∀ p' ≠ p, ∀ e, (given p').1 = .error e → late e) :
  Gives req body late ((range req.items.length).map (result req given))
  := by
  have lt : p < req.items.length := (List.getElem?_eq_some_iff.mp at_p).1
  have started : Run (step req) (Quiet req body late) {} _ :=
    run_started free width hasBody wide _ (Nat.le_refl _)
  have waits : proceed req (running req.items.length (.ticket req.items.length) req.items.length)
      true = some (running req.items.length .wait req.items.length : Batch V) := by
    simp [proceed, goto, running]
  obtain ⟨u, next, point, stopped, ran, slots⟩ : ∃ u,
      (running req.items.length .wait req.items.length).finish req p (.ok (given p).1) (given p).2
        = some u ∧ u.point = .wait ∧ u.stopped ∧ u.runErr = none ∧ ∀ p', u.slots p' =
        if p' = p then .done (result req given p)
        else if p' < req.items.length then .running else .waiting := by
    simp [finish, running, lt, set, result, ends, itemError, same, err, strict]
  have others (pos : Nat) :
      pos ∈ (range req.items.length).erase p ↔ pos ≠ p ∧ pos < req.items.length := by
    rw [nodup_range.mem_erase_iff, mem_range]
  obtain ⟨t, run, point, ran, slots'⟩ : ∃ t, Run (step req) (Quiet req body late) u t ∧ _ :=
    run_finished given _ (nodup_range.erase p) point stopped ran
      (fun pos mem => by grind) (fun pos mem => lately pos ((others pos).mp mem).1)
  have done : ∀ pos < req.items.length, t.slots pos = .done (result req given pos) := by grind
  have fails : Quiet req body late (.finish p (.ok (given p).1) (given p).2)
      (running req.items.length .wait req.items.length) := by
    simp [Quiet, running, at_p, same]
  have returned : t.proceed req true = t.goto (.returned (.ok (collect req t.slots))) := by
    simp only [proceed, point, ran]
    exact if_neg (by grind)
  refine ⟨_, run_proceed (.trans (.tail (run_proceed started waits) ⟨_, fails, next⟩) run) returned,
    congrArg some ?_⟩
  rw [collect, ← filterMap_eq_map]
  apply filterMap_congr
  intro pos mem
  rw [done pos (mem_range.mp mem)]
  rfl

omit free in
theorem first_result {pos n : Nat} (lt : pos < n) {e : String} (err : (given pos).1 = .error e)
    (before : ∀ p < pos, ∀ e, (given p).1 ≠ .error e) :
  ((range n).map (result req given)).findSome? itemError = some e
  := by
  obtain ⟨m, rfl⟩ := Nat.exists_eq_add_of_lt lt
  have none : (range pos).findSome? (itemError ∘ result req given) = none := by
    rw [findSome?_eq_none_iff]
    intro p mem
    have ok := before p (mem_range.mp mem)
    grind [itemError, result]
  rw [findSome?_map, Nat.add_assoc, range_add, findSome?_append, none]
  simp [range_succ_eq_map, itemError, result, err]

end

variable (req body late) in
/-- Some width and order of the items makes an error the one of the batch. -/
def Wins (e : String) : Prop :=
  ∃ width limiter results,
    Gives { req with bodyConcurrency := width, limiter := limiter } body late results ∧
      results.findSome? itemError = some e

section

variable (hasBody : req.hasBody) (wide : 1 < req.items.length)
  (strict : req.continueOnError = false) {e : String}

include hasBody wide strict

/-- One item fails before the others end, and these end as given. -/
theorem wins_given (given : Nat → Except String V × Bool) (pos : Nat) {p : Nat} {item : α}
    (at_p : req.items[p]? = some item) {e' : String} (failed : (body item).1 = .error e')
    (same : given p = body item) (lately : ∀ p' ≠ p, ∀ e, (given p').1 = .error e → late e)
    (le : pos ≤ p) (err : (given pos).1 = .error e)
    (before : ∀ p < pos, ∀ e, (given p).1 ≠ .error e) :
  Wins req body late e
  := by
  have width : BatchBodyRequest.effectiveItemWidth
      { req with bodyConcurrency := req.items.length, limiter := none } = req.items.length := by
    simp only [BatchBodyRequest.effectiveItemWidth, BatchBodyRequest.mapBatchWidth]
    omega
  have lt : p < req.items.length := (List.getElem?_eq_some_iff.mp at_p).1
  refine ⟨_, _, _, gives_given rfl width hasBody wide strict at_p same failed lately, ?_⟩
  exact first_result (Nat.lt_of_le_of_lt le lt) err before

variable [Inhabited V]

theorem wins_own {item : α} (mem : item ∈ req.items) (failed : (body item).1 = .error e) :
  Wins req body late e
  := by
  obtain ⟨p, at_p⟩ := getElem?_of_mem mem
  apply wins_given hasBody wide strict
    (fun p' => if p' = p then body item else (.ok default, false)) p at_p failed
  all_goals grind

theorem wins_canceled {item : α} (mem : item ∈ req.items.tail) {e' : String}
    (failed : (body item).1 = .error e') (lately : late e) :
  Wins req body late e
  := by
  obtain ⟨p, at_p⟩ := getElem?_of_mem mem
  rw [getElem?_tail] at at_p
  apply wins_given hasBody wide strict (fun p' => if p' = p + 1 then body item
    else (if p' = 0 then .error e else .ok default, false)) 0 at_p failed
  all_goals grind

end

variable (req body late) in
/-- All errors that can decide the verdict are of one permanence: those of the items and, where
another item than the first fails, those of the items that are canceled. -/
def Alike (permanent : String → Bool) : Prop :=
  Stops req body → ∃ p,
    (∀ item ∈ req.items, ∀ e, (body item).1 = .error e → permanent e = p) ∧
      ((∃ item ∈ req.items.tail, ∃ e, (body item).1 = .error e) → ∀ e, late e → permanent e = p)

/-- Any two widths of a batch give one verdict, and one list of results if failures are tolerated,
exactly if all errors that can decide the verdict are of one permanence. -/
theorem width_invisible [Inhabited V] {permanent : String → Bool} (hasBody : req.hasBody) :
  (∀ width width' limiter limiter' results results',
    Gives { req with bodyConcurrency := width, limiter := limiter } body late results →
    Gives { req with bodyConcurrency := width', limiter := limiter' } body late results' →
    verdict permanent req results = verdict permanent req results' ∧
      (req.continueOnError → results = results')) ↔
  Alike req body late permanent
  := by
  constructor
  case mpr =>
    rintro alike width width' limiter limiter' results results' ⟨s, run, answer⟩ ⟨t, run', answer'⟩
    have calm := calm_of_run run
    have calm' := calm_of_run run'
    by_cases stops : Stops req body
    case neg =>
      have same : results = results' :=
        (calm.whole answer stops).trans (calm'.whole answer' stops).symm
      exact ⟨by rw [same], fun _ => same⟩
    case pos =>
      obtain ⟨p, own, lately⟩ := alike stops
      have judged {e : String} (from_ : (∃ item ∈ req.items, (body item).1 = .error e) ∨
          (∃ item ∈ req.items.tail, ∃ e, (body item).1 = .error e) ∧ late e) : permanent e = p :=
        from_.elim (fun ⟨item, mem, err⟩ => own item mem e err) fun ⟨tail, canceled⟩ =>
          lately tail e canceled
      obtain ⟨e, first⟩ := calm.stopped answer stops
      obtain ⟨e', first'⟩ := calm'.stopped answer' stops
      refine ⟨?_, fun tolerant => absurd (tolerant.symm.trans stops.1) nofun⟩
      rw [verdict_of_first stops.1 first, verdict_of_first stops.1 first',
        judged (calm.error answer first), judged (calm'.error answer' first')]
  case mp =>
    intro invisible ⟨strict, item, mem, e, err⟩
    have same {e e' : String} : Wins req body late e → Wins req body late e' →
        permanent e = permanent e' := by
      rintro ⟨width, limiter, results, one, first⟩ ⟨width', limiter', results', two, first'⟩
      have verdicts := (invisible _ _ _ _ _ _ one two).1
      rw [verdict_of_first strict first, verdict_of_first strict first'] at verdicts
      exact some.inj verdicts
    refine ⟨permanent e, ?_⟩
    by_cases wide : 1 < req.items.length
    case pos =>
      have won : Wins req body late e := wins_own hasBody wide strict mem err
      refine ⟨fun item' mem' e' err' => same (wins_own hasBody wide strict mem' err') won, ?_⟩
      rintro ⟨item', mem', e', err'⟩ e'' lately
      exact same (wins_canceled hasBody wide strict mem' err' lately) won
    case neg =>
      obtain ⟨only, eq⟩ := length_eq_one_iff.mp
        (Nat.le_antisymm (by omega) (length_pos_of_mem mem))
      simp_all

instance [DecidableEq V] [DecidablePred late] (a : Action V) (s : Batch V) :
    Decidable (Quiet req body late a s) := by
  unfold Quiet
  split
  all_goals try infer_instance
  split
  · split <;> infer_instance
  · infer_instance

/-- Of two items the second fails. -/
def flawed (e : String) : Body Nat Nat := fun item =>
  (if item = 0 then .ok item else .error e, false)

def pair (width : Int) : BatchBodyRequest Nat := { items := [0, 1], bodyConcurrency := width }

def isCanceled (e : String) : Prop := e = "canceled: canceled"

instance : DecidablePred isCanceled := fun _ => inferInstanceAs (Decidable (_ = _))

/-- The verdict on the two items. -/
def judge (results : List (BatchItemResult Nat)) : Option Bool :=
  verdict (· = "failed: broken") (pair 2) results

theorem exists_gives {req : BatchBodyRequest Nat} {e : String} {v : Option Bool}
    (as : List (Action Nat))
    (h : (exec (guarded (step req) (Quiet req (flawed e) isCanceled)) as {}).any
      (fun s => s.results?.map judge = some v)) :
  ∃ results, Gives req (flawed e) isCanceled results ∧ judge results = v
  := by
  obtain ⟨s, run, found⟩ := exists_guarded_run as h
  obtain ⟨results, answer, judged⟩ := map_eq_some_iff.mp found
  exact ⟨results, ⟨s, run, answer⟩, judged⟩

/-- The second item fails while the first one is running. -/
def together (e : String) : List (Action Nat) :=
  started ++ [.finish 1 (.ok (.error e)) false, .finish 0 (.ok (.error "canceled: canceled")) false,
    .proceed true, .proceed true]

def alone (e : String) : List (Action Nat) :=
  replicate 3 (.proceed true) ++ [succeeds 0, .proceed true, .finish 1 (.ok (.error e)) false]

theorem flaky_either_way :
  ∃ results results', Gives (pair 2) (flawed "failed: flaky") isCanceled results ∧
    Gives (pair 1) (flawed "failed: flaky") isCanceled results' ∧
    judge results = some false ∧ judge results = judge results'
  := by
  obtain ⟨results, one, transient⟩ := @exists_gives (pair 2) "failed: flaky" (some false)
    (together "failed: flaky") (by decide)
  obtain ⟨results', two, -⟩ := @exists_gives (pair 1) "failed: flaky" (some false)
    (alone "failed: flaky") (by decide)
  have alike : Alike (pair 2) (flawed "failed: flaky") isCanceled (· = "failed: broken") := by
    refine fun _ => ⟨false, ?_, ?_⟩
    · simp [pair, flawed]
    · simp [isCanceled]
  exact ⟨results, results', one, two, transient,
    ((width_invisible rfl).mpr alike 2 1 none none _ _ one two).1⟩

/-- The failure of the second item is permanent if the items run one after the other, and lost if
the first one is canceled. -/
theorem permanence_lost :
  (∃ results, Gives (pair 2) (flawed "failed: broken") isCanceled results ∧
    judge results = some false) ∧
  ∃ results, Gives (pair 1) (flawed "failed: broken") isCanceled results ∧ judge results = some true
  :=
  ⟨exists_gives (together "failed: broken") (by decide),
    exists_gives (alone "failed: broken") (by decide)⟩

end Batch

end Xflow.MapNode
