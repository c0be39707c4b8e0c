import Xflow.Lib.Run
import Xflow.Trigger.Kafka

/-!
# No commit passes a record

A worker delivers the records of its channel in the order in which they were submitted.  As long as
it leaves none of them, the submitted records are those it took care of, followed by the one it
delivers, those on its channel and the one being sent; the commit it makes passes records of the
first kind only.

A worker leaves a record when the activation was canceled.  On the path of the emission it then
delivers no other one.  On the path of the admission it does, and it also leaves a record whose
admission call failed; a record that is sent to a worker that returned is left as well.  These are
the steps that `Sound` excludes.
-/

namespace Xflow

open List Option

namespace Kafka

/-- The record a point is about. -/
def Point.record : Point → Option Message
  | .emit msg _ | .emitRetry msg _ | .publish msg _ | .publishRetry msg _ => some msg
  | .publishInvalid msg _ | .invalidRetry msg _ | .hold msg => some msg
  | .seed msg _ | .seedRetry msg _ | .commit msg => some msg
  | .select | .returned => none

/-- The worker waits for the admission of a record, or has none. -/
def Point.quiet : Point → Bool
  | .select | .returned | .seed .. | .seedRetry .. => true
  | _ => false

/-- The answer to an admission call that lets the worker leave the record. -/
def Answer.leaves : Answer → Bool
  | .admitted resp => resp.all fun r => ¬ r.observeBatchAdmission ∧ ¬ r.refused
  | .waited completed => ¬ completed
  | _ => false

/-- What becomes of a record on the way from one point to the next. -/
inductive Fate (msg : Message) (leaves : Prop) : Advance → Prop where
  /-- It was taken care of and is to be committed. -/
  | handled : Fate msg leaves { point := .commit msg, handled := some msg }
  /-- It is being delivered still. -/
  | kept (point : Point) (same : point.record = some msg)
      (uncommitted : PartitionState.committing point = none) : Fate msg leaves { point := point }
  /-- It is left. -/
  | left (why : leaves) : Fate msg leaves { point := .select }

theorem Fate.mono {msg : Message} {next : Advance} {p q : Prop} (fate : Fate msg p next)
    (weaker : p → q) :
  Fate msg q next
  := by
  cases fate with
  | handled => exact .handled
  | kept point same uncommitted => exact .kept point same uncommitted
  | left why => exact .left (weaker why)

namespace PerMessageRuntime

variable {rt : PerMessageRuntime} {canceled : Bool} {msg : Message}

theorem fate_publishInvalid {attempt : Int} {leaves : Prop} :
  Fate msg leaves { point := rt.publishInvalid msg attempt }
  := by
  unfold publishInvalid
  split <;> exact .kept _ rfl rfl

theorem fate_deliver :
  Fate msg (canceled = true) (rt.deliver canceled msg)
  := by
  unfold deliver
  split
  · unfold deliverInvalid
    split
    case isTrue why => exact .left why
    case isFalse =>
      split
      · exact .handled
      · exact .kept _ rfl rfl
      · exact fate_publishInvalid
  · split
    · exact .kept _ rfl rfl
    · unfold deliverLegacy
      split
      case isTrue why => exact .left why
      case isFalse => exact .kept _ rfl rfl

attribute [local simp] Answer.leaves

theorem fate_resume {point : Point} {a : Answer} {next : Advance}
    (resumed : rt.resume canceled point a = some next) :
  ∃ msg, point.record = some msg ∧
    (point = .commit msg ∧ next = { point := .select } ∨
      PartitionState.committing point = none ∧ Fate msg (canceled = true ∨ a.leaves) next)
  := by
  revert resumed
  fun_cases resume rt canceled point a <;> rintro ⟨⟩
  case case15 => exact ⟨_, rfl, .inl ⟨rfl, rfl⟩⟩
  all_goals refine ⟨_, rfl, .inr ⟨rfl, ?_⟩⟩
  -- the call that the record needs succeeded
  case case1 | case4 | case7 | case12 => exact .handled
  -- a call failed, and the record is tried again unless the activation was canceled
  case case2 =>
    split
    case isTrue why => exact .left (.inl why)
    case isFalse => split <;> exact .kept _ rfl rfl
  case case5 =>
    split
    case isTrue why => exact .left (.inl why)
    case isFalse => exact .kept _ rfl rfl
  case case8 => exact .kept _ rfl rfl
  -- a pause ended or was cut short
  case case3 | case6 | case14 =>
    split
    case isTrue => exact .kept _ rfl rfl
    case isFalse cut => exact .left (.inr (by simpa using cut))
  case case9 =>
    split
    case isTrue => exact fate_publishInvalid
    case isFalse cut => exact .left (.inr (by simpa using cut))
  -- the activation was canceled, or an admission call was refused
  case case10 | case11 => exact .left (.inr rfl)
  case case13 unseen =>
    split
    case isTrue => exact .kept _ rfl rfl
    case isFalse plain => exact .left (.inr (by simp [unseen, plain]))

end PerMessageRuntime

namespace PartitionState

/-- The step sends no record to a worker that returned, and an admission call is answered with a
decision while the activation runs and with nothing of the kind once it was canceled. -/
def Sound (action : Action) (s : PartitionState) : Prop :=
  match action with
  | .send => (∀ x ∈ s.sending, x.2 = .current) ∧ ∀ w ∈ s.worker, w.point ≠ .returned
  | .answer (.admitted resp) =>
    if s.canceled then resp.all (fun r => ¬ r.observeBatchAdmission)
    else resp.any (fun r => r.observeBatchAdmission ∨ r.refused)
  | _ => True

instance (action : Action) (s : PartitionState) : Decidable (Sound action s) := by
  unfold Sound
  split <;> infer_instance

/-- The records on the way from the topic, in the order of the topic. -/
def pending (s : PartitionState) : List Message :=
  s.worker.toList.flatMap (fun w => w.point.record.toList ++ w.ch) ++ s.sending.toList.map (·.1)

/-- No record was left: those that are not on the way were taken care of, or were given up by the
reader at its end. -/
def InOrder (s : PartitionState) : Prop :=
  ∃ done rest, s.submitted = done ++ (s.pending ++ rest) ∧ (∀ r ∈ done, r ∈ s.handled) ∧
    (s.reading = true → rest = [])

/-- What holds in every sound run. -/
structure Kept (s : PartitionState) : Prop where
  increasing : s.submitted.Pairwise (·.offset < ·.offset)
  committed : ∀ m ∈ s.commits, m ∈ s.submitted
  passed : ∀ m ∈ s.commits, ∀ r ∈ s.submitted, r.offset < m.offset → r ∈ s.handled
  handled : ∀ w ∈ s.worker, ∀ m, w.point = .commit m → m ∈ s.handled
  returned : ∀ w ∈ s.worker, w.point = .returned → w.ch = []
  place : s.InOrder ∨ s.canceled = true ∧ ∀ w ∈ s.worker, w.point.quiet

variable {rt : PerMessageRuntime} {s t : PartitionState}

theorem kept_start :
  Kept {}
  := by
  constructor
  case place => exact .inl ⟨[], [], rfl, by simp, fun _ => rfl⟩
  all_goals simp

theorem Kept.move (kept : Kept s) (submitted : t.submitted = s.submitted)
    (commits : t.commits = s.commits) (more : ∀ m ∈ s.handled, m ∈ t.handled)
    (handled : ∀ w ∈ t.worker, ∀ m, w.point = .commit m → m ∈ t.handled)
    (returned : ∀ w ∈ t.worker, w.point = .returned → w.ch = [])
    (place : t.InOrder ∨ t.canceled = true ∧ ∀ w ∈ t.worker, w.point.quiet) :
  Kept t
  := by
  refine ⟨?_, ?_, ?_, handled, returned, place⟩
  · rw [submitted]
    exact kept.increasing
  · rw [submitted, commits]
    exact kept.committed
  · rw [submitted, commits]
    intro m mem r earlier lower
    exact more r (kept.passed m mem r earlier lower)

variable {w : PartitionWorker} {msg : Message} {a : Answer}

theorem Kept.advance (kept : Kept s) {queued : List Message} {next : Advance}
    (worker : s.worker = some w) (queue : w.point.record.toList ++ w.ch = msg :: queued)
    (fate : Fate msg (s.canceled = true) next)
    (quiet : s.canceled = true → w.point.quiet → next.point.quiet) :
  Kept (s.advance { w with ch := queued } next)
  := by
  apply kept.move (t := s.advance { w with ch := queued } next) rfl rfl
  case more => exact fun m mem => mem_append_left _ mem
  case handled =>
    rintro _ ⟨⟩ m point
    cases fate <;> grind [PartitionState.advance, committing]
  case returned =>
    rintro _ ⟨⟩ point
    cases fate <;> grind [Point.record]
  case place =>
    rcases kept.place with ⟨done, rest, order, taken, read⟩ | ⟨canceled, idle⟩
    · rw [pending, worker, toList_some, flatMap_singleton, queue] at order
      -- a record that is kept stays at the head of those on the way
      have stays (here : next.point.record = some msg) :
          (s.advance { w with ch := queued } next).InOrder := by
        refine ⟨done, rest, ?_, fun r mem => mem_append_left _ (taken r mem), read⟩
        rw [pending, PartitionState.advance, toList_some, flatMap_singleton, here]
        exact order
      cases fate with
      | handled => exact .inl (stays rfl)
      | kept _ same _ => exact .inl (stays same)
      | left canceled =>
        refine .inr ⟨canceled, ?_⟩
        rintro _ ⟨⟩
        rfl
    · refine .inr ⟨canceled, ?_⟩
      rintro _ ⟨⟩
      exact quiet canceled (idle w worker)

attribute [local simp] Point.record

theorem Kept.commit (kept : Kept s) (worker : s.worker = some w) (point : w.point = .commit msg) :
  Kept { s.advance w { point := .select } with commits := s.commits ++ [msg] }
  := by
  have mine : msg ∈ s.handled := kept.handled w worker msg point
  rcases kept.place with ⟨done, rest, order, taken, read⟩ | ⟨-, idle⟩
  case inr =>
    have quiet := idle w worker
    rw [point] at quiet
    cases quiet
  rw [pending, worker, toList_some, flatMap_singleton, point] at order
  have member : msg ∈ s.submitted := by
    rw [order]
    simp
  have before : ∀ r ∈ s.submitted, r.offset < msg.offset → r ∈ done := by
    intro r mem lower
    have increasing := kept.increasing
    rw [order] at mem increasing
    rcases mem_append.mp mem with early | late
    · exact early
    · have later := (pairwise_cons.mp (pairwise_append.mp increasing).2.1).1
      rcases mem_cons.mp late with rfl | late <;> grind
  obtain ⟨increasing, committed, passed, -, -, -⟩ := kept
  constructor
  case place =>
    refine .inl ⟨done ++ [msg], rest, ?_, ?_, read⟩
    · rw [pending, PartitionState.advance]
      rw [order]
      simp
    · grind [PartitionState.advance]
  all_goals
    simp only [PartitionState.advance, toList_none, append_nil]
    grind

theorem quiet_deliver :
  (rt.deliver true msg).point.quiet
  := by
  unfold PerMessageRuntime.deliver
  split
  · rfl
  · split <;> rfl

theorem quiet_resume {point : Point} {next : Advance}
    (resumed : rt.resume true point a = some next) (quiet : point.quiet)
    (unseen : ∀ resp, a = .admitted (some resp) → resp.observeBatchAdmission = false) :
  next.point.quiet
  := by
  unfold PerMessageRuntime.resume at resumed
  split at resumed
  case h_11 =>
    obtain rfl := some.inj resumed
    rfl
  case h_12 resp =>
    rw [unseen resp rfl] at resumed
    obtain rfl := some.inj resumed
    split <;> rfl
  case h_13 =>
    obtain rfl := some.inj resumed
    split <;> rfl
  case h_15 => cases resumed
  all_goals cases quiet

section

variable (kept : Kept s)

include kept

theorem Kept.answer {next : Advance} (sound : Sound (.answer a) s)
    (worker : s.worker = some w) (cut : ¬ (a = .waited false ∧ ¬ s.canceled))
    (resumed : rt.resume s.canceled w.point a = some next) :
  Kept { s.advance w next with commits := s.commits ++ (committing w.point).toList }
  := by
  obtain ⟨msg, record, ⟨point, rfl⟩ | ⟨uncommitted, fate⟩⟩ := PerMessageRuntime.fate_resume resumed
  · have committed := kept.commit worker point
    rwa [point]
  · have left : s.canceled = true ∨ a.leaves → s.canceled = true := by
      rintro (canceled | leaves)
      · exact canceled
      · by_contra running
        cases a with
        | admitted resp => cases resp <;> grind [Sound, Answer.leaves]
        | _ => grind [Answer.leaves]
    rw [uncommitted, toList_none, append_nil]
    apply kept.advance worker
    case queue => rw [record]; rfl
    case fate => exact fate.mono left
    case quiet =>
      intro canceled quiet
      rw [canceled] at resumed
      apply quiet_resume resumed quiet
      rintro resp rfl
      simpa [Sound, canceled] using sound

theorem Kept.submit (reading : s.reading = true) (unsent : s.sending = none)
    (lower : ∀ earlier ∈ s.submitted, earlier.offset < msg.offset) :
  Kept { s with
    worker := some (s.worker.getD {})
    sending := some (msg, .current)
    submitted := s.submitted ++ [msg] }
  := by
  obtain ⟨increasing, committed, passed, handled, returned, place⟩ := kept
  constructor
  case place =>
    rcases place with ⟨done, rest, order, taken, read⟩ | ⟨canceled, idle⟩
    · refine .inl ⟨done, [], ?_, taken, fun _ => rfl⟩
      rw [read reading] at order
      rw [order, pending, pending, unsent]
      cases s.worker <;> simp
    · refine .inr ⟨canceled, ?_⟩
      cases worker : s.worker <;> grind [Point.quiet]
  -- a worker that is spawned has nothing to do
  case handled | returned => cases worker : s.worker <;> grind
  all_goals grind

/-- The records on the way stay where they are in line. -/
theorem Kept.rearrange {worker : Option PartitionWorker} {sending : Option (Message × Target)}
    (handled : ∀ w ∈ worker, ∀ m, w.point = .commit m → m ∈ s.handled)
    (returned : ∀ w ∈ worker, w.point = .returned → w.ch = [])
    (same : { s with worker, sending }.pending = s.pending)
    (quiet : (∀ w ∈ s.worker, w.point.quiet) → ∀ w ∈ worker, w.point.quiet) :
  Kept { s with worker, sending }
  := by
  refine kept.move rfl rfl (fun _ => id) handled returned ?_
  rcases kept.place with ⟨done, rest, order, taken, read⟩ | ⟨canceled, idle⟩
  · exact .inl ⟨done, rest, same ▸ order, taken, read⟩
  · exact .inr ⟨canceled, quiet idle⟩

attribute [local grind] Point.quiet

theorem Kept.send (sends : s.sending = some (msg, .current)) (worker : s.worker = some w)
    (reads : w.point ≠ .returned) :
  Kept { s with worker := some { w with ch := w.ch ++ [msg] }, sending := none }
  := by
  have handled := kept.handled w worker
  apply kept.rearrange
  case same => simp [pending, worker, sends]
  all_goals grind

theorem Kept.giveUp :
  Kept { s with sending := none, reading := false }
  := by
  refine kept.move rfl rfl (fun _ => id) kept.handled kept.returned ?_
  rcases kept.place with ⟨done, rest, order, taken, read⟩ | quiet
  · refine .inl ⟨done, s.sending.toList.map (·.1) ++ rest, ?_, taken, nofun⟩
    rw [order, pending, pending]
    simp
  · exact .inr quiet

theorem Kept.cancel :
  Kept { s with canceled := true }
  := by
  refine kept.move rfl rfl (fun _ => id) kept.handled kept.returned ?_
  rcases kept.place with inOrder | ⟨-, idle⟩
  · exact .inl inOrder
  · exact .inr ⟨rfl, idle⟩

theorem Kept.close :
  Kept { s with worker := s.worker.map fun w => { w with closed := true } }
  := by
  have handled := kept.handled
  have returned := kept.returned
  cases worker : s.worker with
  | none =>
    rw [map_none, ← worker]
    exact kept
  | some w =>
    apply kept.rearrange
    case same => simp [pending, worker]
    all_goals grind

theorem Kept.stop (worker : s.worker = some w) (point : w.point = .select) (empty : w.ch = []) :
  Kept { s with worker := some { w with point := .returned } }
  := by
  apply kept.rearrange
  case same => simp [pending, worker, point]
  all_goals grind

theorem Kept.evict (worker : s.worker = some w) (point : w.point = .returned) :
  Kept { s with
    worker := none
    sending := s.sending.map fun (msg, _) => (msg, .evicted w.ch) }
  := by
  refine kept.rearrange nofun nofun ?_ nofun
  cases sending : s.sending <;>
    simp [pending, worker, point, sending, kept.returned w worker point]

theorem Kept.step {action : Action} (sound : Sound action s) (next : step rt action s = some t) :
  Kept t
  := by
  cases action with
  | submit msg =>
    simp only [PartitionState.step, ite_none_right_eq_some, some.injEq] at next
    obtain ⟨⟨reading, unsent, lower⟩, rfl⟩ := next
    exact kept.submit reading unsent lower
  | send =>
    obtain ⟨current, reads⟩ := sound
    simp only [PartitionState.step] at next
    split at next
    case h_1 msg w sends worker =>
      simp only [ite_none_right_eq_some, some.injEq] at next
      obtain ⟨-, rfl⟩ := next
      exact kept.send sends worker (reads w worker)
    case h_2 msg ch sends => cases current _ sends
    case h_3 => cases next
  | giveUp =>
    simp only [PartitionState.step, ite_none_right_eq_some, some.injEq] at next
    obtain ⟨-, rfl⟩ := next
    exact kept.giveUp
  | finish =>
    simp only [PartitionState.step, ite_none_right_eq_some, some.injEq] at next
    obtain ⟨unsent, rfl⟩ := next
    rw [unsent]
    exact kept.giveUp
  | cancel =>
    obtain rfl := some.inj next
    exact kept.cancel
  | close =>
    simp only [PartitionState.step, ite_none_left_eq_some, some.injEq] at next
    obtain ⟨-, rfl⟩ := next
    exact kept.close
  | receive =>
    obtain ⟨w, worker, next⟩ := bind_eq_some_iff.mp next
    split at next
    case h_1 msg queued point ch =>
      obtain rfl := some.inj next
      apply kept.advance worker
      case queue => rw [point, ch]; rfl
      case fate => exact PerMessageRuntime.fate_deliver
      case quiet =>
        intro canceled _
        rw [canceled]
        exact quiet_deliver
    case h_2 => cases next
  | stop =>
    obtain ⟨w, worker, next⟩ := bind_eq_some_iff.mp next
    simp only [ite_none_right_eq_some, some.injEq] at next
    obtain ⟨⟨point, empty⟩, rfl⟩ := next
    exact kept.stop worker point empty
  | evict =>
    obtain ⟨w, worker, next⟩ := bind_eq_some_iff.mp next
    simp only [ite_none_right_eq_some, some.injEq] at next
    obtain ⟨point, rfl⟩ := next
    exact kept.evict worker point
  | answer a =>
    obtain ⟨w, worker, next⟩ := bind_eq_some_iff.mp next
    rw [ite_none_left_eq_some] at next
    obtain ⟨cut, next⟩ := next
    obtain ⟨advance, resumed, next⟩ := bind_eq_some_iff.mp next
    obtain rfl := some.inj next
    exact kept.answer sound worker cut resumed

end

/-- In every sound run, whenever a record is committed, all records of the partition that were
submitted before it were emitted, admitted, published or discarded. -/
theorem commit_passes_handled (run : Transition.Run (step rt) Sound {} s) :
  ∀ m ∈ s.commits, ∀ r ∈ s.submitted, r.offset < m.offset → r ∈ s.handled
  := by
  have kept : Kept s := by
    apply run.invariant kept_start
    intro action s t kept sound next
    exact kept.step sound next
  exact kept.passed

/-! ### Records that are passed -/

namespace Sample

/-- A trigger that has its records admitted. -/
def seeding : PerMessageRuntime where
  entrySeed := true

/-- Two records are queued; the first is refused once and then admitted, the second is known. -/
def refusedThenAdmitted : List Action :=
  [.submit ⟨0, "", ""⟩, .send, .submit ⟨1, "", ""⟩, .send,
    .receive, .answer (.admitted (some { refused := true })), .answer (.waited true),
    .answer (.admitted (some { accepted := true })), .answer (.committed true),
    .receive, .answer (.admitted (some { duplicate := true })), .answer (.committed true)]

/-- Two records are queued; the admission call of the first fails, the second is admitted. -/
def errorThenAdmitted : List Action :=
  [.submit ⟨0, "", ""⟩, .send, .submit ⟨1, "", ""⟩, .send,
    .receive, .answer (.admitted none),
    .receive, .answer (.admitted (some { accepted := true })), .answer (.committed true)]

/-- The worker returns on its idle timer while the next record is sent to it; the one after that is
emitted by another worker. -/
def sentToReturned : List Action :=
  [.submit ⟨0, "", ""⟩, .send, .receive, .answer (.emitted true 0), .answer (.committed true),
    .submit ⟨1, "", ""⟩, .stop, .evict, .send,
    .submit ⟨2, "", ""⟩, .send, .receive, .answer (.emitted true 0), .answer (.committed true)]

end Sample

open Sample Transition

/-- A record whose admission call failed is passed by the commit of the next one, and so is a record
that was sent to a worker that returned. -/
theorem commit_passes_unhandled :
  (∃ s, Run (step seeding) (fun _ _ => True) {} s ∧ ⟨1, "", ""⟩ ∈ s.commits ∧
    ⟨0, "", ""⟩ ∈ s.submitted ∧ ⟨0, "", ""⟩ ∉ s.handled) ∧
  (∃ s, Run (step {}) (fun _ _ => True) {} s ∧ ⟨2, "", ""⟩ ∈ s.commits ∧
    ⟨1, "", ""⟩ ∈ s.submitted ∧ ⟨1, "", ""⟩ ∉ s.handled)
  := by
  constructor
  · apply exists_run errorThenAdmitted
    decide
  · apply exists_run sentToReturned
    decide

/-- The record that was refused first is handled when the second one is committed. -/
theorem refusedThenAdmitted_passes :
  ∃ s, Run (step seeding) Sound {} s ∧ ⟨1, "", ""⟩ ∈ s.commits ∧ ⟨0, "", ""⟩ ∈ s.submitted ∧
    ⟨0, "", ""⟩ ∈ s.handled
  := by
  obtain ⟨s, run, commits, submitted⟩ : ∃ s, Run (step seeding) Sound {} s ∧
      ⟨1, "", ""⟩ ∈ s.commits ∧ ⟨0, "", ""⟩ ∈ s.submitted :=
    exists_guarded_run refusedThenAdmitted (by decide)
  exact ⟨s, run, commits, submitted, commit_passes_handled run _ commits _ submitted (by decide)⟩

end PartitionState

end Kafka

end Xflow
