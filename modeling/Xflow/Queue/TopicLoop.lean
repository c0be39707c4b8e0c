import Mathlib.Data.Int.ConditionallyCompleteOrder
import Mathlib.Order.ConditionallyCompleteLattice.Basic
import Xflow.Lib.Run
import Xflow.Queue.Tracker

/-!
# The consumer of a topic

A fetch loop hands the messages of a topic to workers; a worker processes a message, marks it done
in the tracker, and hands the position this may give to the committer.  All of these interleave.  A
partition is read in the order of its log, and after a rebalance from a position it was at before.

A successful commit covers only finished messages as long as the reader goes back to positions below
which nothing is unfinished (`commit_covers`), which is where a broker that goes by the committed
position sends it; the tracker forgets what the reader does not fetch again (`skipped_unfinished`).
-/

namespace Xflow

open AList Function List Nat Option

namespace TaskQueue

/-- The messages of each partition, in the order of their offsets. -/
structure Log where
  message : Int → Nat → Message
  partition : ∀ p i, (message p i).partition = p
  increasing : ∀ p, StrictMono (fun i => (message p i).offset)

/-- The offset of a message of the log. -/
def Log.offset (log : Log) (p : Int) (i : Nat) : Int := (log.message p i).offset

structure Work where
  msg : Message
  tk : Token
  deriving DecidableEq

/-- Where a worker stands. -/
inductive Stage where
  | idle
  | processing (w : Work)
  /-- At the call to `Done`. -/
  | completing (tk : Token)
  /-- At the call to `Advance`. -/
  | advancing (partition offset : Int)
  deriving DecidableEq

/-- What happened, in order. -/
inductive Event where
  | fetched (partition offset : Int)
  | finished (partition offset : Int) (fate : Fate)
  /-- The commit of these offsets succeeded. -/
  | committed (offsets : Offsets)
  deriving DecidableEq

/-- `topicLoop` and the goroutines that run it. -/
structure TopicLoop where
  /-- Where in the log the reader is. -/
  position : Int → Nat
  tracker : Tracker := {}
  committer : Committer := {}
  /-- What the fetch loop hands over. -/
  handing : Option Work := none
  fetching : Bool := true
  workers : List Stage
  /-- The context of the committer ended. -/
  ended : Bool := false
  events : List Event := []

namespace TopicLoop

open Transition

inductive Action where
  | fetch (p : Int)
  /-- The reader goes back to a position it was at. -/
  | rebalance (p : Int) (i : Nat)
  /-- A worker takes what was fetched. -/
  | hand (k : Nat)
  /-- The context of the fetch loop ends, or the reader is closed. -/
  | stopFetching
  | process (k : Nat) (outcome : Outcome)
  | complete (k : Nat)
  | advance (k : Nat)
  /-- The context of the committer ends. -/
  | cancel
  /-- The committer is woken. -/
  | wake
  /-- The committer sees its context end. -/
  | flush
  /-- The committer slept. -/
  | retry
  | commitResult (result : CommitResult)

/-- The consumer before it fetched anything. -/
def initial (start : Int → Nat) (workers : Nat) : TopicLoop where
  position := start
  workers := replicate workers .idle

variable (t : Transport) (log : Log) (start : Int → Nat)

/-- `WaitBelow` returns. -/
def below (s : TopicLoop) : Bool := t.maxPending ≤ 0 ∨ s.tracker.pending < t.maxPending

def step : Action → TopicLoop → Option TopicLoop
  | .fetch p, s =>
    if ¬ s.fetching ∨ s.handing.isSome ∨ ¬ s.below t then none
    else
      let msg := log.message p (s.position p)
      let begun := s.tracker.begin p msg.offset
      some { s with
        position := update s.position p (s.position p + 1)
        tracker := begun.1
        handing := some ⟨msg, begun.2⟩
        events := s.events ++ [.fetched p msg.offset] }
  | .rebalance p i, s =>
    if i < start p ∨ s.position p < i then none
    else some { s with position := update s.position p i }
  | .hand k, s =>
    match s.handing, s.workers[k]? with
    | some w, some .idle => some { s with
        handing := none
        workers := s.workers.set k (.processing w) }
    | _, _ => none
  | .stopFetching, s => some { s with fetching := false, handing := none }
  | .process k outcome, s =>
    match s.workers[k]? with
    | some (.processing w) =>
      match t.process w.msg outcome with
      | none => none
      | some none => some { s with workers := s.workers.set k .idle }
      | some (some fate) => some { s with
          workers := s.workers.set k (.completing w.tk)
          events := s.events ++ [.finished w.msg.partition w.msg.offset fate] }
    | _ => none
  | .complete k, s =>
    match s.workers[k]? with
    | some (.completing tk) =>
      let done := s.tracker.done tk
      some { s with
        tracker := done.1
        workers := s.workers.set k (match done.2 with
          | none => .idle
          | some offset => .advancing tk.partition offset) }
    | _ => none
  | .advance k, s =>
    match s.workers[k]? with
    | some (.advancing partition offset) => some { s with
        committer := s.committer.advance partition offset
        workers := s.workers.set k .idle }
    | _ => none
  | .cancel, s => some { s with ended := true }
  | .wake, s =>
    if s.committer.phase = .waiting ∧ s.committer.wake then
      some { s with committer := { s.committer with wake := false }.drain s.ended }
    else none
  | .flush, s =>
    if s.ended ∧ (s.committer.phase = .waiting ∨ s.committer.phase = .pausing) then
      some { s with committer := s.committer.flush }
    else none
  | .retry, s =>
    if s.committer.phase = .pausing then
      some { s with committer := s.committer.drain s.ended }
    else none
  | .commitResult result, s =>
    match s.committer.phase with
    | .committing flush => some { s with
        committer := s.committer.resume flush result
        events := if result = .ok then s.events ++ [.committed s.committer.inflight] else s.events }
    | _ => none

/-- The offsets that were fetched from a partition. -/
def fetchedOf (events : List Event) (p : Int) : List Int :=
  events.filterMap (fun
    | .fetched q o => if q = p then some o else none
    | _ => none)

/-- The offsets of a partition that were finished in one of their deliveries. -/
def finishedOf (events : List Event) (p : Int) : List Int :=
  events.filterMap (fun
    | .finished q o _ => if q = p then some o else none
    | _ => none)

/-- Every message that was fetched with an offset up to one of these was finished. -/
def Covers (events : List Event) (offsets : Offsets) : Prop :=
  ∀ p w, offsets.lookup p = some w → ∀ o ∈ fetchedOf events p, o ≤ w → o ∈ finishedOf events p

/-- The reader goes back to a position such that no message it fetched below is unfinished. -/
def Returns : Action → TopicLoop → Prop
  | .rebalance p i, s =>
    ∀ o ∈ fetchedOf s.events p, o < log.offset p i → o ∈ finishedOf s.events p
  | _, _ => True

instance decidableReturns (a : Action) (s : TopicLoop) : Decidable (Returns log a s) := by
  unfold Returns
  split <;> infer_instance

/-! ### Windows -/

variable {t log start} {s u : TopicLoop} {events later : List Event} {p : Int} {a c position : Nat}
  {part : Option PartitionTracker}

/-- The message at an index of the log was finished. -/
def FinishedAt (log : Log) (events : List Event) (p : Int) (i : Nat) : Prop :=
  log.offset p i ∈ finishedOf events p

/-- What the tracker has of a partition: the messages from index `a` up to index `c` of the log are
registered, and those before are finished.  The next message is the one at `c`, or an earlier one
below which nothing is unfinished. -/
structure Window (log : Log) (start : Int → Nat) (events : List Event)
    (part : Option PartitionTracker) (position : Nat) (p : Int) (a c : Nat) : Prop where
  low : start p ≤ a
  high : a ≤ c
  begun : start p ≤ position
  ahead : position ≤ c
  fresh : part = none → c = start p
  highest : ∀ ps, part = some ps → start p < c ∧ ps.highest = log.offset p (c - 1)
  queue : ((part.getD {}).queue).map (·.offset) = (range' a (c - a)).map (log.offset p)
  done : ∀ m ∈ (part.getD {}).queue, m.done → m.offset ∈ finishedOf events p
  fetched : ∀ i, start p ≤ i → i < c → log.offset p i ∈ fetchedOf events p
  below : ∀ i, start p ≤ i → i < a → FinishedAt log events p i
  back : position < c → ∀ i, start p ≤ i → i < position → FinishedAt log events p i

theorem mem_fetchedOf_append {o : Int} :
  o ∈ fetchedOf (events ++ later) p ↔ o ∈ fetchedOf events p ∨ o ∈ fetchedOf later p
  := by
  simp [fetchedOf, filterMap_append]

theorem mem_finishedOf_append {o : Int} :
  o ∈ finishedOf (events ++ later) p ↔ o ∈ finishedOf events p ∨ o ∈ finishedOf later p
  := by
  simp [finishedOf, filterMap_append]

attribute [local grind =] mem_fetchedOf_append mem_finishedOf_append

section

variable (h : Window log start events part position p a c)

include h

theorem Window.mono :
  Window log start (events ++ later) part position p a c
  := by
  obtain ⟨low, high, begun, ahead, fresh, highest, queue, done, fetched, below, back⟩ := h
  constructor <;> grind [FinishedAt]

theorem Window.returns {i : Nat} (ge : start p ≤ i) (le : i ≤ position)
    (covered : ∀ o ∈ fetchedOf events p, o < log.offset p i → o ∈ finishedOf events p) :
  Window log start events part i p a c
  where
  __ := h
  begun := ge
  ahead := le.trans h.ahead
  back := fun _ j low lt =>
    covered _ (h.fetched j low (by grind [h.ahead])) (log.increasing p lt)

theorem Window.extend {ps : PartitionTracker} (same : ps.queue = (part.getD {}).queue)
    (here : position = c) (new : log.offset p position ∈ fetchedOf events p) :
  Window log start events (some { ps with
    queue := ps.queue ++ [{ offset := log.offset p position }]
    highest := log.offset p position }) (position + 1) p a (c + 1)
  := by
  obtain ⟨low, high, begun, ahead, fresh, highest, queue, done, fetched, below, back⟩ := h
  constructor
  case queue =>
    have split : range' a (c + 1 - a) = range' a (c - a) ++ [c] := by
      rw [show c + 1 - a = c - a + 1 by omega, range'_1_concat, Nat.add_sub_cancel' high]
    rw [split, getD_some, map_append, map_append, same, queue, here]
    rfl
  all_goals grind

end

theorem Window.restart (epoch : Nat) (h : Window log start events part position p a c)
    (behind : position < c) :
  Window log start events (some {
    epoch := epoch
    queue := [{ offset := log.offset p position }]
    highest := log.offset p position }) (position + 1) p position (position + 1)
  := by
  obtain ⟨low, high, begun, ahead, fresh, highest, queue, done, fetched, below, back⟩ := h
  constructor
  case queue => simp
  all_goals grind

variable {tracker : Tracker}

theorem Window.begin (h : Window log start events (tracker.partitions p) position p a c)
    (new : log.offset p position ∈ fetchedOf events p) :
  ∃ a c, Window log start events ((tracker.begin p (log.offset p position)).1.partitions p)
    (position + 1) p a c
  := by
  simp only [Tracker.begin, update_self, Tracker.opened]
  cases part : tracker.partitions p with
  | none =>
    rw [part] at h
    have here : position = c := by grind [h.fresh rfl, h.begun, h.ahead]
    exact ⟨a, c + 1, h.extend rfl here new⟩
  | some ps =>
    rw [part] at h
    obtain ⟨positive, highest⟩ := h.highest ps rfl
    by_cases behind : position < c
    · have redelivered : log.offset p position ≤ ps.highest := by
        rw [highest]
        exact (log.increasing p).monotone (le_pred_of_lt behind)
      simp only [if_pos redelivered]
      exact ⟨position, position + 1, h.restart _ behind⟩
    · have here : position = c := by grind [h.ahead]
      have past : ¬ log.offset p position ≤ ps.highest := by
        rw [highest, not_le]
        exact log.increasing p (by omega)
      simp only [if_neg past]
      exact ⟨a, c + 1, h.extend rfl here new⟩

/-- The partition was finished from where the reader started up to this offset of the log. -/
def Complete (log : Log) (start : Int → Nat) (events : List Event) (p w : Int) : Prop :=
  ∃ j, log.offset p j = w ∧ ∀ i, start p ≤ i → i ≤ j → FinishedAt log events p i

variable {w : Int}

theorem Complete.mono (h : Complete log start events p w) :
  Complete log start (events ++ later) p w
  := by
  grind [Complete, FinishedAt]

theorem map_mark (offset : Int) (queue : List Inflight) :
  (Tracker.mark offset queue).map (·.offset) = queue.map (·.offset)
  := by
  rw [Tracker.mark, List.map_map]
  apply map_congr_left
  intro m _
  dsimp only [comp]
  split <;> rfl

theorem Window.pop {ps : PartitionTracker} {queue : List Inflight}
    (h : Window log start events (some ps) position p a c)
    (offsets : queue.map (·.offset) = ps.queue.map (·.offset))
    (done : ∀ m ∈ queue, m.done → m.offset ∈ finishedOf events p) :
  ∃ a, Window log start events (some { ps with queue := queue.dropWhile (·.done) }) position p a c ∧
    ∀ last, (queue.takeWhile (·.done)).getLast? = some last →
      Complete log start events p last.offset
  := by
  set run := queue.takeWhile (·.done) with run_eq
  set rest := queue.dropWhile (·.done) with rest_eq
  have parts : run ++ rest = queue := takeWhile_append_dropWhile
  -- the run and the rest are at consecutive indices of the log
  have whole : run.map (·.offset) ++ rest.map (·.offset) =
      (range' a (c - a)).map (log.offset p) := by
    rw [← map_append, parts, offsets]
    exact h.queue
  have size := congrArg length whole
  simp only [length_append, length_map, length_range'] at size
  rw [← size, ← range'_append_1, map_append] at whole
  obtain ⟨first, second⟩ := append_inj whole (by simp)
  have below : ∀ i, start p ≤ i → i < a + run.length → FinishedAt log events p i := by
    intro i ge lt
    by_cases before : i < a
    · exact h.below i ge before
    · have mem : log.offset p i ∈ run.map (·.offset) := by grind
      obtain ⟨m, mem, eq⟩ := mem_map.mp mem
      rw [FinishedAt, ← eq]
      have all := all_eq_true.mp (@all_takeWhile _ (·.done) queue) m mem
      exact done m ((takeWhile_sublist _).subset mem) all
  refine ⟨a + run.length, ?_, ?_⟩
  · obtain ⟨low, high, begun, ahead, fresh, highest, -, -, fetched, -, back⟩ := h
    constructor <;> grind
  · intro last eq
    have positive : 0 < run.length := length_pos_of_mem (mem_of_getLast? eq)
    have found := congrArg getLast? first
    rw [getLast?_map, eq, getLast?_map, getLast?_range', if_neg (by omega)] at found
    refine ⟨a + run.length - 1, ?_, fun i ge le => below i ge (by omega)⟩
    grind

/-- What `Done` does: nothing, or it marks a message of the queue and pops those in front that are
done. -/
theorem Window.complete {tk : Token}
    (h : Window log start events (tracker.partitions p) position p a c)
    (finished : tk.offset ∈ finishedOf events tk.partition) :
  ∃ a, Window log start events ((tracker.done tk).1.partitions p) position p a c ∧
    (p = tk.partition → ∀ w, (tracker.done tk).2 = some w → Complete log start events p w)
  := by
  fun_cases Tracker.done tracker tk with
  | case5 ps part =>
    dsimp only
    rw [update_apply]
    split
    case isFalse other => exact ⟨a, h, fun same => absurd same other⟩
    case isTrue same =>
      subst same
      rw [part] at h
      have done : ∀ m ∈ Tracker.mark tk.offset ps.queue, m.done →
          m.offset ∈ finishedOf events tk.partition := by
        intro m mem done
        obtain ⟨old, kept, rfl⟩ := mem_map.mp mem
        grind [h.done old kept]
      obtain ⟨a, window, complete⟩ := h.pop (map_mark _ _) done
      refine ⟨a, window, fun _ w eq => ?_⟩
      obtain ⟨last, found, rfl⟩ := map_eq_some_iff.mp eq
      exact complete last found
  | _ => exact ⟨a, h, fun _ _ eq => by cases eq⟩

/-! ### The consumer -/

/-- The committer has the position, to commit it or as one it committed. -/
def Has (c : Committer) (p w : Int) : Prop :=
  c.pending.lookup p = some w ∨ c.inflight.lookup p = some w ∨ c.committed.lookup p = some w

section

variable {batch offsets : Offsets} {o : Int}

theorem reaches_iff :
  Committer.reaches offsets p o ↔ ∃ w, offsets.lookup p = some w ∧ o ≤ w
  := by
  simp [Committer.reaches, Option.any_eq_true]

theorem lookup_raise_eq :
  (Committer.raise batch offsets).lookup p = (batch.lookup p).merge max (offsets.lookup p)
  := by
  obtain ⟨entries, nodup⟩ := batch
  change lookup p (foldl _ offsets entries) = merge max (dlookup p entries) _
  induction entries generalizing offsets with
  | nil => simp
  | cons e entries ih =>
    obtain ⟨q, o⟩ := e
    obtain ⟨new, nodup⟩ := nodupKeys_cons.mp nodup
    rw [foldl_cons, ih nodup]
    by_cases same : p = q
    · subst same
      rw [dlookup_eq_none.mpr new]
      cases found : offsets.lookup p <;> grind [reaches_iff, lookup_insert]
    · grind [lookup_insert_ne]

theorem lookup_raise (eq : (Committer.raise batch offsets).lookup p = some w) :
  batch.lookup p = some w ∨ offsets.lookup p = some w
  := by
  rw [lookup_raise_eq] at eq
  cases one : batch.lookup p <;> cases two : offsets.lookup p <;> grind

end

variable {committer : Committer} {stage : Stage}

attribute [local grind] Has
attribute [local grind →] lookup_raise

theorem has_advance {q o : Int} (h : Has (committer.advance q o) p w) :
  Has committer p w ∨ p = q ∧ w = o
  := by
  rw [Committer.advance] at h
  split at h
  · exact .inl h
  · grind [lookup_insert, lookup_insert_ne]

theorem has_take {committer : Committer} {idle : Phase} {flush : Bool}
    (h : Has (committer.take idle flush) p w) :
  Has committer p w
  := by
  simp only [Has, Committer.take, lookup_empty] at h
  grind

theorem has_drain {ended : Bool} (h : Has (committer.drain ended) p w) :
  Has committer p w
  := by
  rw [Committer.drain] at h
  split at h <;> exact has_take h

theorem has_resume {flush : Bool} {result : CommitResult}
    (h : Has (committer.resume flush result) p w) :
  Has committer p w
  := by
  cases result
  all_goals
    simp only [Has, Committer.resume, Committer.restore, Committer.markCommitted, lookup_empty] at h
    grind

/-- What a worker has at hand: the token of its message, a token of a finished message, or a
position up to which its partition is complete. -/
def Good (log : Log) (start : Int → Nat) (events : List Event) : Stage → Prop
  | .idle => True
  | .processing w => w.tk.partition = w.msg.partition ∧ w.tk.offset = w.msg.offset
  | .completing tk => tk.offset ∈ finishedOf events tk.partition
  | .advancing p w => Complete log start events p w

theorem Good.mono (h : Good log start events stage) :
  Good log start (events ++ later) stage
  := by
  cases stage <;> grind [Good, Complete.mono]

/-- Every partition has its window, and every position on its way is complete. -/
structure Sound (log : Log) (start : Int → Nat) (s : TopicLoop) : Prop where
  fetched : ∀ p, ∀ o ∈ fetchedOf s.events p, ∃ i, start p ≤ i ∧ log.offset p i = o
  handing : ∀ w, s.handing = some w → Good log start s.events (.processing w)
  workers : ∀ stage ∈ s.workers, Good log start s.events stage
  windows : ∀ p, ∃ a c, Window log start s.events (s.tracker.partitions p) (s.position p) p a c
  positions : ∀ p w, Has s.committer p w → Complete log start s.events p w
  commits : ∀ before offsets after, s.events = before ++ .committed offsets :: after →
    Covers before offsets

section

variable (h : Sound log start s)

include h

theorem Sound.worker (k : Nat) (good : Good log start s.events stage) :
  Sound log start { s with workers := s.workers.set k stage }
  := by
  refine { h with workers := fun x mem => ?_ }
  rcases mem_or_eq_of_mem_set mem with mem | rfl
  · exact h.workers x mem
  · exact good

theorem Sound.logged {e : Event}
    (fetched : ∀ p o, e = .fetched p o → ∃ i, start p ≤ i ∧ log.offset p i = o)
    (committed : ∀ offsets, e = .committed offsets → Covers s.events offsets) :
  Sound log start { s with events := s.events ++ [e] }
  := by
  constructor
  case fetched =>
    intro p o mem
    rcases mem_fetchedOf_append.mp mem with mem | mem
    · exact h.fetched p o mem
    · cases e <;> grind [fetchedOf]
  case handing => exact h.handing
  case workers => exact fun stage mem => (h.workers stage mem).mono
  case windows =>
    intro p
    obtain ⟨a, c, window⟩ := h.windows p
    exact ⟨a, c, window.mono⟩
  case positions => exact fun p w has => (h.positions p w has).mono
  case commits =>
    intro before offsets after eq
    rcases concat_split eq with ⟨init, eq⟩ | ⟨rfl, last⟩
    · exact h.commits before offsets init eq
    · exact committed offsets last.symm

theorem Sound.covers {offsets : Offsets}
    (has : ∀ p w, offsets.lookup p = some w → Has s.committer p w) :
  Covers s.events offsets
  := by
  intro p w eq o mem le
  obtain ⟨j, rfl, finished⟩ := h.positions p w (has p w eq)
  obtain ⟨i, ge, rfl⟩ := h.fetched p o mem
  exact finished i ge ((log.increasing p).le_iff_le.mp le)

theorem Sound.fetch (p : Int) :
  Sound log start { s with
    position := update s.position p (s.position p + 1)
    tracker := (s.tracker.begin p (log.offset p (s.position p))).1
    handing := some ⟨log.message p (s.position p),
      (s.tracker.begin p (log.offset p (s.position p))).2⟩
    events := s.events ++ [.fetched p (log.offset p (s.position p))] }
  := by
  have logged : Sound log start { s with
      events := s.events ++ [.fetched p (log.offset p (s.position p))] } := by
    apply h.logged
    · intro q o eq
      cases eq
      obtain ⟨a, c, window⟩ := h.windows p
      exact ⟨s.position p, window.begun, rfl⟩
    · exact nofun
  refine { logged with handing := ?handing, windows := ?windows }
  case handing =>
    intro w eq
    cases eq
    exact ⟨(log.partition p _).symm, rfl⟩
  case windows =>
    intro q
    obtain ⟨a, c, window⟩ := logged.windows q
    dsimp only at window ⊢
    by_cases same : q = p
    · subst same
      rw [update_self]
      apply window.begin
      simp [fetchedOf]
    · refine ⟨a, c, ?_⟩
      simpa only [Tracker.begin, update_of_ne same] using window

theorem Sound.complete {tk : Token} (k : Nat)
    (finished : tk.offset ∈ finishedOf s.events tk.partition) :
  Sound log start { s with
    tracker := (s.tracker.done tk).1
    workers := s.workers.set k (match (s.tracker.done tk).2 with
      | none => .idle
      | some offset => .advancing tk.partition offset) }
  := by
  have tracked : Sound log start { s with tracker := (s.tracker.done tk).1 } := by
    refine { h with windows := fun p => ?_ }
    obtain ⟨a, c, window⟩ := h.windows p
    obtain ⟨a, window, -⟩ := window.complete finished
    exact ⟨a, c, window⟩
  apply tracked.worker k
  split
  · trivial
  · rename_i w advanced
    obtain ⟨a, c, window⟩ := h.windows tk.partition
    obtain ⟨-, -, complete⟩ := window.complete finished
    exact complete rfl w advanced

theorem Sound.step {action : Action} (returns : Returns log action s)
    (eq : step t log start action s = some u) :
  Sound log start u
  := by
  revert eq
  fun_cases TopicLoop.step t log start action s with
  | case2 p =>
    rintro ⟨⟩
    exact h.fetch p
  | case4 p i _ inside =>
    rintro ⟨⟩
    refine { h with windows := ?_ }
    intro q
    obtain ⟨a, c, window⟩ := h.windows q
    refine ⟨a, c, ?_⟩
    dsimp only
    by_cases same : q = p
    · subst same
      rw [update_self]
      exact window.returns (by omega) (by omega) returns
    · rw [update_of_ne same]
      exact window
  | case5 k _ w _ handing =>
    rintro ⟨⟩
    exact { h.worker k (h.handing w handing) with handing := nofun }
  | case7 =>
    rintro ⟨⟩
    exact { h with handing := nofun }
  | case9 k =>
    rintro ⟨⟩
    exact h.worker k trivial
  | case10 k _ _ w worker fate =>
    rintro ⟨⟩
    obtain ⟨partition, offset⟩ := h.workers _ (mem_of_getElem? worker)
    have logged : Sound log start { s with
        events := s.events ++ [.finished w.msg.partition w.msg.offset fate] } :=
      h.logged (by simp) (by simp)
    apply logged.worker k
    rw [Good, partition, offset]
    simp [finishedOf]
  | case12 k _ tk worker =>
    rintro ⟨⟩
    exact h.complete k (h.workers _ (mem_of_getElem? worker))
  | case14 k _ q w worker =>
    rintro ⟨⟩
    have complete := h.workers _ (mem_of_getElem? worker)
    have worked : Sound log start { s with workers := s.workers.set k .idle } :=
      h.worker k trivial
    refine { worked with positions := fun p o has => ?_ }
    rcases has_advance has with has | ⟨rfl, rfl⟩
    · exact h.positions p o has
    · exact complete
  | case16 =>
    rintro ⟨⟩
    exact { h with }
  | case17 | case21 =>
    rintro ⟨⟩
    refine { h with positions := fun p w has => ?_ }
    have kept := has_drain has
    exact h.positions p w kept
  | case19 =>
    rintro ⟨⟩
    exact { h with positions := fun p w has => h.positions p w (has_take has) }
  | case23 result _ flush =>
    rintro ⟨⟩
    have resumed : Sound log start { s with committer := s.committer.resume flush result } :=
      { h with positions := fun p w has => h.positions p w (has_resume has) }
    split
    · apply resumed.logged (by simp)
      intro offsets same
      cases same
      exact h.covers (fun p w eq => .inr (.inl eq))
    · exact resumed
  -- the action is not enabled
  | _ => exact nofun

end

theorem sound_initial (workers : Nat) :
  Sound log start (initial start workers)
  := by
  constructor
  case windows =>
    refine fun p => ⟨start p, start p, ?_⟩
    constructor <;> grind [initial]
  case positions => rintro p w (eq | eq | eq) <;> cases eq
  case commits => simp [initial]
  all_goals grind [initial, fetchedOf, Good]

/-- In every run of the consumer of a topic in which the reader goes back only to positions below
which it fetched nothing that is unfinished: whenever a commit succeeds, every message fetched
before with an offset up to the one committed for its partition was finished before. -/
theorem commit_covers {workers : Nat}
    (run : Run (step t log start) (Returns log) (initial start workers) s)
    {before after : List Event} {offsets : Offsets}
    (succeeded : s.events = before ++ .committed offsets :: after) :
  Covers before offsets
  := by
  have sound : Sound log start s :=
    run.invariant (sound_initial workers) (fun _ _ _ h returns eq => h.step returns eq)
  exact sound.commits before offsets after succeeded

namespace Sample

/-- Offsets without holes. -/
def dense : Log where
  message p i := { topic := "xflow.task.default", partition := p, offset := i }
  partition _ _ := rfl
  increasing _ _ _ lt := Int.ofNat_lt.mpr lt

/-- Two messages are fetched, and the second is finished. -/
def second : List Action := [.fetch 0, .hand 0, .fetch 0, .hand 1, .process 1 {}, .complete 1]

/-- The reader goes back to a message, which is fetched, finished and committed. -/
def again (i : Nat) : List Action := [
  .rebalance 0 i, .fetch 0, .hand 1, .process 1 {}, .complete 1, .advance 1, .wake,
  .commitResult .ok]

end Sample

open Sample

/-- The reader goes back to the second message while the first one is being processed.  The tracker
forgets the first one, and the commit passes it. -/
theorem skipped_unfinished :
  ∃ s, Run (step {} dense (fun _ => 0)) (fun _ _ => True) (initial (fun _ => 0) 2) s ∧
    ∃ before, s.events = before ++ [.committed (singleton 0 1)] ∧
      0 ∈ fetchedOf before 0 ∧ 0 ∉ finishedOf before 0
  := by
  refine exists_run_of (P := fun s => s.events = [.fetched 0 0, .fetched 0 1,
    .finished 0 1 .handled, .fetched 0 1, .finished 0 1 .handled] ++
      [.committed (singleton 0 1)]) (second ++ again 1) (by decide) ?_
  exact fun s _ events => ⟨_, events, by decide⟩

/-- The reader goes back to the first message, and the commit covers only that one. -/
theorem returned_covers :
  ∃ s, Run (step {} dense (fun _ => 0)) (Returns dense) (initial (fun _ => 0) 2) s ∧
    ∃ before, s.events = before ++ [.committed (singleton 0 0)] ∧
      Covers before (singleton 0 0)
  := by
  obtain ⟨s, run, events⟩ : ∃ s, Run (step {} dense (fun _ => 0)) (Returns dense)
      (initial (fun _ => 0) 2) s ∧ s.events = [.fetched 0 0, .fetched 0 1, .finished 0 1 .handled,
        .fetched 0 0, .finished 0 0 .handled] ++ [.committed (singleton 0 0)] :=
    exists_guarded_run (second ++ again 0) (by decide)
  exact ⟨s, run, _, events, commit_covers run events⟩

end TopicLoop

end TaskQueue

end Xflow
