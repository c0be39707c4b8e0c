import Mathlib.Order.Bounds.Defs
import Xflow.Queue.TopicLoop

/-!
# The committer

Any number of goroutines call `Advance`, each of which sends its wake-up after it has left the
mutex, while the committer takes what is pending, commits it and puts back what failed.
-/

namespace Xflow

open List Option Transition

namespace TaskQueue

open TopicLoop Committer

variable {batch offsets : Offsets} {p q o w : Int}

theorem reaches_raise :
  reaches (raise batch offsets) p o ↔
    reaches batch p o ∨ reaches offsets p o
  := by
  rw [reaches, lookup_raise_eq, reaches, reaches]
  cases batch.lookup p <;> cases offsets.lookup p <;> simp

theorem reaches_insert :
  reaches (offsets.insert q w) p o ↔ if p = q then o ≤ w else reaches offsets p o
  := by
  unfold reaches
  split
  · rename_i same
    rw [same]
    simp
  · rename_i other
    rw [AList.lookup_insert_ne other]

theorem not_reaches_empty :
  ¬ reaches ∅ p o
  := by
  simp [reaches]

/-- A committer among the goroutines that call it. -/
structure Committing where
  committer : Committer := {}
  /-- The calls to `Advance` that have still to send their wake-up. -/
  waking : Nat := 0
  /-- The context of the committer ended. -/
  ended : Bool := false
  /-- The arguments of the calls to `Advance`, the latest first. -/
  advanced : List (Int × Int) := []
  /-- The batches that were committed, the latest first. -/
  commits : List Offsets := []

namespace Committing

inductive Action where
  /-- `Advance`, until it unlocks. -/
  | advance (p offset : Int)
  /-- A call to `Advance` sends its wake-up. -/
  | send
  | cancel
  | wake
  | flush
  | retry
  | commitResult (result : CommitResult)

def step : Action → Committing → Option Committing
  | .advance p offset, s =>
    let c := s.committer
    let s := { s with advanced := (p, offset) :: s.advanced }
    if reaches c.committed p offset ∨ reaches c.inflight p offset ∨
      reaches c.pending p offset then some s
    else some { s with
      committer := { c with pending := c.pending.insert p offset }
      waking := s.waking + 1 }
  | .send, s =>
    if s.waking = 0 then none
    else some { s with committer := { s.committer with wake := true }, waking := s.waking - 1 }
  | .cancel, s => some { s with ended := true }
  | .wake, s =>
    if s.committer.phase = .waiting ∧ s.committer.wake then
      some { s with committer := { s.committer with wake := false }.drain s.ended }
    else none
  | .flush, s =>
    if s.ended ∧ (s.committer.phase = .waiting ∨ s.committer.phase = .pausing) then
      some { s with committer := s.committer.flush }
    else none
  | .retry, s =>
    if s.committer.phase = .pausing then
      some { s with committer := s.committer.drain s.ended }
    else none
  | .commitResult result, s =>
    match s.committer.phase with
    | .committing flush => some { s with
        committer := s.committer.resume flush result
        commits := if result = .ok then s.committer.inflight :: s.commits else s.commits }
    | _ => none

/-- Offsets grow from the committed ones over those in flight to the pending ones; they are what was
advanced to, and nothing is pending without a wake-up while the committer waits. -/
structure Ordered (s : Committing) : Prop where
  passed : ∀ p w, Has s.committer p w → (p, w) ∈ s.advanced
  reached : ∀ p o, (p, o) ∈ s.advanced → reaches s.committer.committed p o ∨
    reaches s.committer.inflight p o ∨ reaches s.committer.pending p o
  pending : ∀ p w, s.committer.pending.lookup p = some w →
    ¬ reaches s.committer.inflight p w ∧ ¬ reaches s.committer.committed p w
  inflight : ∀ p w, s.committer.inflight.lookup p = some w →
    ¬ reaches s.committer.committed p w
  idle : (∀ flush, s.committer.phase ≠ .committing flush) → s.committer.inflight = ∅
  woken : s.committer.phase = .waiting ∨ s.committer.phase = .committing false →
    s.committer.pending = ∅ ∨ s.committer.wake ∨ 0 < s.waking
  committed : ∀ batch ∈ s.commits, ∀ p v, batch.lookup p = some v →
    (p, v) ∈ s.advanced ∧ reaches s.committer.committed p v
  increasing : s.commits.Pairwise (fun later earlier => ∀ p w,
    later.lookup p = some w → ¬ reaches earlier p w)

theorem Ordered.take {s : Committing} {idle : Phase} {wake flush : Bool} (h : Ordered s)
    (free : ∀ flush, s.committer.phase ≠ .committing flush) :
  Ordered { s with committer := { s.committer with wake := wake }.take idle flush }
  := by
  have none := h.idle free
  constructor
  case passed => exact fun p w has => h.passed p w (@has_take _ _ s.committer idle flush has)
  case reached => grind [h.reached, Committer.take]
  case pending =>
    intro p w found
    cases found
  case inflight => exact fun p w found => (h.pending p w found).2
  case idle =>
    intro left
    unfold Committer.take at left ⊢
    split at left
    · rename_i empty
      exact AList.ext empty
    · exact absurd rfl (left flush)
  case woken => exact fun _ => .inl rfl
  case committed => exact h.committed
  case increasing => exact h.increasing

theorem Ordered.step {s t : Committing} {action : Action} (h : Ordered s)
    (next : step action s = some t) :
  Ordered t
  := by
  cases action with
  | advance p offset =>
    obtain ⟨passed, reached, pending, inflight, idle, woken, committed, increasing⟩ := h
    simp only [Committing.step] at next
    split at next
    · cases next
      constructor <;> grind
    · cases next
      constructor <;>
        grind [Has, reaches_iff, reaches_insert, AList.lookup_insert, AList.lookup_insert_ne]
  | send =>
    obtain ⟨-, next⟩ := ite_none_left_eq_some.mp next
    cases next
    exact { h with woken := fun _ => .inr (.inl rfl) }
  | cancel =>
    cases next
    exact { h with }
  | wake | retry =>
    obtain ⟨free, next⟩ := ite_none_right_eq_some.mp next
    cases next
    unfold Committer.drain
    split <;> exact h.take (by simp [free])
  | flush =>
    obtain ⟨free, next⟩ := ite_none_right_eq_some.mp next
    cases next
    exact h.take (by rcases free.2 with eq | eq <;> simp [eq])
  | commitResult result =>
    simp only [Committing.step] at next
    split at next
    case h_2 => cases next
    case h_1 flush phase =>
      cases next
      have logged : ∀ earlier ∈ s.commits, ∀ p w, s.committer.inflight.lookup p = some w →
          ¬ reaches earlier p w := by
        intro earlier mem p w found reached
        obtain ⟨v, before, le⟩ := reaches_iff.mp reached
        obtain ⟨u, last, le'⟩ := reaches_iff.mp (h.committed earlier mem p v before).2
        exact h.inflight p w found (reaches_iff.mpr ⟨u, last, le.trans le'⟩)
      constructor
      case passed => exact fun p w has => h.passed p w (has_resume has)
      case reached =>
        intro p o mem
        have := h.reached p o mem
        cases result <;> grind [resume, markCommitted, restore, reaches_raise]
      case pending =>
        intro p w found
        have := h.pending p w
        have := h.inflight p w
        cases result <;>
          grind [resume, markCommitted, restore, reaches_raise, not_reaches_empty, lookup_raise]
      case inflight =>
        intro p w found
        cases result <;> cases found
      case idle => cases result <;> exact fun _ => rfl
      case woken =>
        intro waiting
        have := h.woken
        cases result <;> cases flush <;> simp_all [resume, markCommitted]
      case committed =>
        intro batch mem p v found
        have := h.committed batch
        have := h.passed p v
        cases result <;> grind [resume, markCommitted, restore, reaches_raise, Has, reaches_iff]
      case increasing =>
        have := h.increasing
        cases result <;> grind [pairwise_cons]

/-- In every run: the offsets of the successful commits of a partition increase and were passed to
`Advance`; and while the committer waits, without a wake-up in the channel or in a call that has
still to send it, what is committed of each partition is the largest offset passed for it. -/
theorem advances_committed {s : Committing} (run : Run step (fun _ _ => True) {} s) :
  s.commits.Pairwise (fun later earlier => ∀ p w v,
      later.lookup p = some w → earlier.lookup p = some v → v < w) ∧
    (∀ batch ∈ s.commits, ∀ p w, batch.lookup p = some w → (p, w) ∈ s.advanced) ∧
    (s.committer.phase = .waiting → s.committer.wake = false → s.waking = 0 →
      ∀ p w, s.committer.committed.lookup p = some w ↔ IsGreatest {o | (p, o) ∈ s.advanced} w)
  := by
  have h : Ordered s := run.invariant (by constructor <;> simp [Has])
    fun _ _ _ h _ next => h.step next
  refine ⟨h.increasing.imp ?_, fun batch mem p w found => (h.committed batch mem p w found).1, ?_⟩
  · intro later earlier above p w v found before
    simpa [reaches, before] using above p w found
  · intro waiting quiet sent p w
    have inflight := h.idle (by simp [waiting])
    have pending : s.committer.pending = ∅ := by
      simpa [quiet, sent] using h.woken (.inl waiting)
    have upper {o : Int} (mem : (p, o) ∈ s.advanced) : reaches s.committer.committed p o := by
      simpa [inflight, pending, not_reaches_empty] using h.reached p o mem
    constructor
    · intro found
      refine ⟨h.passed p w (.inr (.inr found)), fun o mem => ?_⟩
      simpa [reaches, found] using upper mem
    · rintro ⟨mem, above⟩
      obtain ⟨v, found, le⟩ := reaches_iff.mp (upper mem)
      rw [found, le_antisymm (above (h.passed p v (.inr (.inr found)))) le]

/-- An offset arrives while another one is committed, which fails at first. -/
theorem overtaken_committed :
  ∃ s, Run step (fun _ _ => True) {} s ∧
    ∀ w, s.committer.committed.lookup 0 = some w ↔ IsGreatest {o | (0, o) ∈ s.advanced} w
  := by
  refine exists_run_of (P := fun s => s.committer.phase = .waiting ∧ s.committer.wake = false ∧
      s.waking = 0) [.advance 0 5, .send, .wake, .advance 0 7, .commitResult .failed, .retry, .send,
        .commitResult .ok, .wake] (by decide) ?_
  exact fun s run quiet => (advances_committed run).2.2 quiet.1 quiet.2.1 quiet.2.2 0

/-- A call to `Advance` that has still to send its wake-up. -/
theorem unsent_uncommitted :
  ∃ s, Run step (fun _ _ => True) {} s ∧ s.committer.phase = .waiting ∧ s.committer.wake = false ∧
    (0, 5) ∈ s.advanced ∧ s.committer.committed.lookup 0 = none
  := exists_run [.advance 0 5] (by decide)

end Committing

end TaskQueue

end Xflow
